import Casework.Backend.Dispatch

/-!
# What work can come to

Whatever the host answers, an error says what failed: the task of one kind fails with the errors of that kind,
and none blames a requirement.
-/

namespace Casework

namespace Work

/-- The host can answer so that the work comes to the result `r`. -/
def Yields (r : Except TaskError String) : Work → Prop
  | finish r' => r' = r
  | check _ next => ∃ found, Yields r (next found)
  | process _ next => ∃ c, Yields r (next c)
  | call _ next => ∃ e, Yields r (next e)

theorem yields_perform (store : String) : ∀ (w : Work) (h : Host), w.Yields (w.perform h store).2
  | finish _, _ => rfl
  | check c next, h => ⟨c.holds h.tree, yields_perform store (next _) h⟩
  | process i next, h => ⟨(h.run i).2, yields_perform store (next _) _⟩
  | call p next, h => ⟨(p.runAlone h store).2, yields_perform store (next _) _⟩

end Work

inductive TaskError.Of (t : Task) : TaskKind → TaskError → Prop
  | notFound : Of t .plugin (.pluginNotFound t.command)
  | plugin (cause stderr : String) : Of t .plugin (.pluginFailed t.command cause stderr)
  | panicked (reason : String) : Of t .plugin (.panicked reason)
  | script (cause stderr : String) : Of t .script (.scriptFailed (Script.scriptName t.command) cause stderr)
  | image (cause stderr : String) : Of t .docker (.containerFailed t.image cause stderr)
  | build (cause stderr : String) : Of t .dockerfile (.buildFailed t.recipe cause stderr)
  | container (cause stderr : String) :
    Of t .dockerfile (.containerFailed (Container.imageTag t.recipe) cause stderr)

theorem TaskError.Of.isDependencyFailure {t : Task} {k : TaskKind} {e : TaskError} (h : Of t k e) :
    e.isDependencyFailure = false := by
  cases h <;> rfl

namespace Context

variable {c : Context} {t : Task} {e : TaskError}

theorem error_of_mapError {f : ProcessFailure → TaskError} {r : Capture} (h : r.mapError f = .error e) :
    ∃ p, e = f p := by
  cases r with
  | ok out => cases h
  | error p =>
    cases h
    exact ⟨p, rfl⟩

theorem error_of_pluginWork (h : (c.pluginWork t).Yields (.error e)) : TaskError.Of t .plugin e := by
  unfold pluginWork at h
  split at h
  · obtain ⟨d, hd⟩ := h
    cases d with
    | ok => cases hd
    | failed chain =>
      cases hd
      exact .plugin _ _
    | panicked text =>
      cases hd
      exact .panicked _
  · split at h
    · cases h
      exact .notFound
    · obtain ⟨found, h⟩ := h
      cases found with
      | false =>
        cases h
        exact .notFound
      | true =>
        obtain ⟨r, hr⟩ := h
        obtain ⟨p, rfl⟩ := error_of_mapError hr
        exact .plugin _ _

theorem error_of_scriptWork (h : (c.scriptWork t).Yields (.error e)) : TaskError.Of t .script e := by
  obtain ⟨found, h⟩ := h
  dsimp only at h
  split at h
  · obtain ⟨r, hr⟩ := h
    obtain ⟨p, rfl⟩ := error_of_mapError hr
    exact .script _ _
  · cases h
    exact .script _ _

theorem error_of_imageWork {image : String} (h : (c.imageWork image t).Yields (.error e)) :
    ∃ cause stderr, e = .containerFailed image cause stderr := by
  obtain ⟨r, hr⟩ := h
  obtain ⟨p, rfl⟩ := error_of_mapError hr
  exact ⟨_, _, rfl⟩

theorem error_of_dockerWork (h : (c.dockerWork t).Yields (.error e)) : TaskError.Of t .docker e := by
  unfold dockerWork at h
  split at h
  · rename_i hi
    cases h
    rw [← hi]
    exact .image _ _
  · obtain ⟨cause, stderr, rfl⟩ := error_of_imageWork h
    exact .image _ _

theorem error_of_buildWork {recipe : String} {next : String → Work} (h : (c.buildWork recipe next).Yields (.error e)) :
    (∃ cause stderr, e = .buildFailed recipe cause stderr) ∨
      (next (Container.imageTag recipe)).Yields (.error e) := by
  unfold buildWork at h
  split at h
  · cases h
    exact .inl ⟨_, _, rfl⟩
  · obtain ⟨found, h⟩ := h
    dsimp only at h
    split at h
    · obtain ⟨r, h⟩ := h
      cases r with
      | ok out => exact .inr h
      | error p =>
        cases h
        exact .inl ⟨_, _, rfl⟩
    · cases h
      exact .inl ⟨_, _, rfl⟩

theorem error_of_dockerfileWork (h : (c.dockerfileWork t).Yields (.error e)) : TaskError.Of t .dockerfile e := by
  rcases error_of_buildWork h with ⟨cause, stderr, rfl⟩ | h
  · exact .build _ _
  · obtain ⟨cause, stderr, rfl⟩ := error_of_imageWork h
    exact .container _ _

theorem error_of_dispatch (h : (c.dispatch t).Yields (.error e)) :
    (∃ k, t.kind = .ok k ∧ TaskError.Of t k e) ∨ t.kind = .error e := by
  unfold dispatch at h
  cases hk : t.kind with
  | error e' =>
    rw [hk] at h
    cases h
    exact .inr rfl
  | ok k =>
    rw [hk] at h
    refine .inl ⟨k, rfl, ?_⟩
    cases k with
    | plugin => exact error_of_pluginWork h
    | script => exact error_of_scriptWork h
    | docker => exact error_of_dockerWork h
    | dockerfile => exact error_of_dockerfileWork h

theorem error_of_kind (h : t.kind = .error e) : e = .unknownType t.type := by
  unfold Task.kind at h
  split at h
  · cases h
  · cases h
    rfl

def Answers (c : Context) (tasks : NameMap Task) (a : String) (r : Except TaskError String) : Prop :=
  (∃ t, tasks.find? a = some t ∧ (c.dispatch t).Yields r) ∨ ∃ reason, r = .error (.panicked reason)

theorem Answers.isDependencyFailure {tasks : NameMap Task} {a : String} (h : c.Answers tasks a (.error e)) :
    e.isDependencyFailure = false := by
  rcases h with ⟨t, -, ht⟩ | ⟨reason, hr⟩
  · rcases error_of_dispatch ht with ⟨k, -, hk⟩ | hk
    · exact hk.isDependencyFailure
    · rw [error_of_kind hk]
      rfl
  · cases hr
    rfl

end Context

end Casework
