import Casework.Backend.Engine
import Casework.Proofs.NameMap
import Mathlib.Data.List.Nodup

/-!
# Whose image a task runs

Tasks that build images at the same time run their own ones just if recipes of different directories have tags of
their own. A tag is the name of the recipe in lower case, so two recipes share one if their names differ in case only.
-/

namespace Casework

theorem Container.imageTag_inj {r r' : String} :
    imageTag r = imageTag r' ↔ Text.lowercase r = Text.lowercase r' := by
  unfold imageTag
  rw [String.append_left_inj, String.append_right_inj]

namespace Workshop

variable {e : Engine} {x y : Workshop} {c : Context} {images : NameMap String} {tasks : List Task} {k : Nat}

/-! ## One worker by itself -/

theorem works_serve (r : Capture) (q : Option EngineRequest) : (x.serve k r q).works = x.works := by
  unfold serve
  split
  · split <;> rfl
  · rfl
  · rfl

theorem works_goOn {w w' : Work} (h : x.works[k]? = some w) : (x.goOn k w').works[k]? = some w' :=
  List.getElem?_set_self (List.getElem?_eq_some_iff.1 h).1

/-- A worker that gets the answers of a host comes to the result that the work has there. -/
theorem follow?_alone (store : String) : ∀ (w : Work) (h : Host) (x : Workshop), x.works[k]? = some w →
    ∃ (replies : List Reply) (y : Workshop), x.follow? e (replies.map (k, ·)) = some y ∧
      y.works[k]? = some (.finish (w.perform h store).2)
  | .finish r, h, x, hk => ⟨[], x, rfl, hk⟩
  | .check q next, h, x, hk => by
    obtain ⟨replies, y, hy, hlast⟩ := follow?_alone store (next _) h (x.goOn k (next (q.holds h.tree))) (works_goOn hk)
    refine ⟨.found (q.holds h.tree) :: replies, y, ?_, hlast⟩
    simpa [follow?, step?, hk] using hy
  | .process i next, h, x, hk => by
    have hworks : (x.goOn k (next (h.run i).2)).works[k]? = some (next (h.run i).2) := works_goOn hk
    rw [← works_serve (x := x.goOn k (next (h.run i).2)) (h.run i).2 (e.request? i)] at hworks
    obtain ⟨replies, y, hy, hlast⟩ := follow?_alone store (next _) (h.run i).1 _ hworks
    refine ⟨.capture (h.run i).2 :: replies, y, ?_, hlast⟩
    simpa [follow?, step?, hk] using hy
  | .call p next, h, x, hk => by
    obtain ⟨replies, y, hy, hlast⟩ := follow?_alone store (next _) (p.runAlone h store).1
      (x.goOn k (next (p.runAlone h store).2)) (works_goOn hk)
    refine ⟨.ended (p.runAlone h store).2 :: replies, y, ?_, hlast⟩
    simpa [follow?, step?, hk] using hy

/-! ## The stages of a task that builds its image -/

def imageBuild (c : Context) (t : Task) : Work :=
  .process (c.engineInvocation (Container.imageTag t.recipe)
      (Container.buildArgs (Container.imageTag t.recipe) (c.recipeDirectory t.recipe))) fun r =>
    match r with
    | .ok _ => c.imageWork (Container.imageTag t.recipe) t
    | .error f => .finish (.error (.buildFailed t.recipe f.cause f.stderr))

/-- Where a task stands, and what its tag is bound to from its own build on. -/
inductive AtStage (c : Context) (t : Task) (images : NameMap String) : Work → Prop where
  | begun : AtStage c t images (c.dockerfileWork t)
  | building : AtStage c t images (imageBuild c t)
  | built (h : images.find? (Container.imageTag t.recipe) = some (c.recipeDirectory t.recipe)) :
    AtStage c t images (c.imageWork (Container.imageTag t.recipe) t)
  | ended (r : Except TaskError String) : AtStage c t images (.finish r)

structure Builds (e : Engine) (c : Context) (t : Task) : Prop where
  kind : t.kind = .ok .dockerfile
  named : Container.isRecipeName t.recipe = true
  serves : e.Serves c t

theorem Builds.dispatch {t : Task} (h : Builds e c t) : c.dispatch t = c.dockerfileWork t := by
  unfold Context.dispatch
  rw [h.kind]
  rfl

theorem dockerfileWork_eq {t : Task} (h : Container.isRecipeName t.recipe = true) : c.dockerfileWork t =
    .check (.regular (Path.join (c.recipeDirectory t.recipe) "Dockerfile")) fun found =>
      if found then imageBuild c t
      else .finish (.error (.buildFailed t.recipe ("no Dockerfile in " ++ c.recipeDirectory t.recipe) "")) := by
  unfold Context.dockerfileWork Context.buildWork
  rw [h]
  rfl

section
variable {t : Task} (h : Builds e c t)
include h

theorem Builds.step?_found (hk : x.works[k]? = some (c.dockerfileWork t)) :
    x.step? e (k, .found true) = some (x.goOn k (imageBuild c t)) := by
  unfold step?
  rw [dockerfileWork_eq h.named] at hk
  simp only [hk, if_true]

theorem Builds.step?_built (hk : x.works[k]? = some (imageBuild c t)) (out : String) :
    x.step? e (k, .capture (.ok out)) = some ((x.goOn k (c.imageWork (Container.imageTag t.recipe) t)).bindTag
      (Container.imageTag t.recipe) (c.recipeDirectory t.recipe)) := by
  unfold step?
  unfold imageBuild at hk
  simp only [hk, h.serves.build]
  rfl

theorem Builds.step?_ran (hk : x.works[k]? = some (c.imageWork (Container.imageTag t.recipe) t)) (r : Capture) :
    x.step? e (k, .capture r) =
      some ((x.goOn k (.finish (r.mapError fun f => .containerFailed (Container.imageTag t.recipe) f.cause f.stderr))).useImage
        k (Container.imageTag t.recipe)) := by
  unfold step?
  unfold Context.imageWork at hk
  simp only [hk, h.serves.run]
  rfl

end

/-- The two tasks do not take each other's image away. -/
def Apart (c : Context) (s t : Task) : Prop :=
  Text.lowercase s.recipe = Text.lowercase t.recipe → c.recipeDirectory s.recipe = c.recipeDirectory t.recipe

structure Sound (c : Context) (tasks : List Task) (x : Workshop) : Prop where
  stages : ∀ {k : Nat} {t : Task}, tasks[k]? = some t → ∃ w, x.works[k]? = some w ∧ AtStage c t x.images w
  workers : x.works.length = tasks.length
  own : ∀ u ∈ x.used, ∃ t, tasks[u.1]? = some t ∧ u.2 = some (c.recipeDirectory t.recipe)

theorem AtStage.insert {s t : Task} {w : Work} (h : AtStage c t images w) (hapart : Apart c s t) :
    AtStage c t (images.insert (Container.imageTag s.recipe) (c.recipeDirectory s.recipe)) w := by
  cases h with
  | begun => exact .begun
  | building => exact .building
  | ended r => exact .ended r
  | built hbound =>
    apply AtStage.built
    rw [NameMap.find?_insert]
    by_cases htag : Container.imageTag t.recipe = Container.imageTag s.recipe
    · rw [if_pos htag, hapart (Container.imageTag_inj.1 htag).symm]
    · rw [if_neg htag, hbound]

/-! ## All workers -/

theorem sound_start (hbuilds : ∀ t ∈ tasks, Builds e c t) : Sound c tasks (start c images tasks) where
  stages := by
    intro k t hk
    refine ⟨c.dockerfileWork t, ?_, .begun⟩
    unfold start
    rw [List.getElem?_map, hk, Option.map_some, (hbuilds t (List.mem_of_getElem? hk)).dispatch]
  workers := by simp [start]
  own := by
    intro u hu
    cases hu

theorem works_goOn_ne {w : Work} {j : Nat} (h : j ≠ k) : (x.goOn k w).works[j]? = x.works[j]? :=
  List.getElem?_set_ne (Ne.symm h)

theorem Sound.goOn (h : Sound c tasks x) {t : Task} (ht : tasks[k]? = some t) {w : Work}
    (hw : AtStage c t x.images w) : Sound c tasks (x.goOn k w) where
  stages := by
    intro j s hs
    obtain ⟨v, hv, hstage⟩ := h.stages hs
    by_cases hj : j = k
    · subst hj
      cases hs.symm.trans ht
      exact ⟨w, works_goOn hv, hw⟩
    · exact ⟨v, (works_goOn_ne hj).trans hv, hstage⟩
  workers := by
    unfold Workshop.goOn
    rw [List.length_set]
    exact h.workers
  own := h.own

theorem Sound.bindTag (h : Sound c tasks x) {t : Task} (ht : tasks[k]? = some t) (hapart : ∀ s ∈ tasks, Apart c t s)
    {w : Work} (hw : AtStage c t (x.images.insert (Container.imageTag t.recipe) (c.recipeDirectory t.recipe)) w) :
    Sound c tasks ((x.goOn k w).bindTag (Container.imageTag t.recipe) (c.recipeDirectory t.recipe)) where
  stages := by
    intro j s hs
    obtain ⟨v, hv, hstage⟩ := h.stages hs
    by_cases hj : j = k
    · subst hj
      cases hs.symm.trans ht
      exact ⟨w, works_goOn hv, hw⟩
    · exact ⟨v, (works_goOn_ne hj).trans hv, hstage.insert (hapart s (List.mem_of_getElem? hs))⟩
  workers := by
    unfold Workshop.bindTag Workshop.goOn
    rw [List.length_set]
    exact h.workers
  own := h.own

section
variable {t : Task} {reply : Reply} (h : Sound c tasks x) (ht : tasks[k]? = some t) (hb : Builds e c t)
include h ht hb

theorem Sound.step_begun (hk : x.works[k]? = some (c.dockerfileWork t)) (hstep : x.step? e (k, reply) = some y) :
    Sound c tasks y := by
  rw [dockerfileWork_eq hb.named] at hk
  unfold step? at hstep
  simp only [hk] at hstep
  cases reply with
  | found b =>
    cases hstep
    cases b with
    | true => exact h.goOn ht .building
    | false => exact h.goOn ht (.ended _)
  | _ => cases hstep

theorem Sound.step_building (hapart : ∀ s ∈ tasks, Apart c t s) (hk : x.works[k]? = some (imageBuild c t))
    (hstep : x.step? e (k, reply) = some y) : Sound c tasks y := by
  cases reply with
  | capture r =>
    cases r with
    | ok out =>
      rw [hb.step?_built hk] at hstep
      cases hstep
      apply h.bindTag ht hapart
      apply AtStage.built
      rw [NameMap.find?_insert, if_pos rfl]
    | error f =>
      unfold step? at hstep
      unfold imageBuild at hk
      simp only [hk, hb.serves.build] at hstep
      cases hstep
      exact h.goOn ht (.ended _)
  | _ =>
    unfold step? imageBuild at *
    simp [hk] at hstep

theorem Sound.step_built (hbound : x.images.find? (Container.imageTag t.recipe) = some (c.recipeDirectory t.recipe))
    (hk : x.works[k]? = some (c.imageWork (Container.imageTag t.recipe) t)) (hstep : x.step? e (k, reply) = some y) :
    Sound c tasks y := by
  cases reply with
  | capture r =>
    rw [hb.step?_ran hk] at hstep
    cases hstep
    have hrest := h.goOn ht (.ended (r.mapError fun f =>
      .containerFailed (Container.imageTag t.recipe) f.cause f.stderr))
    refine ⟨hrest.stages, hrest.workers, List.forall_mem_append.2 ⟨hrest.own, fun u hu => ?_⟩⟩
    -- the image that is used is the one the tag is bound to
    cases List.mem_singleton.1 hu
    exact ⟨t, ht, hbound⟩
  | _ =>
    unfold step? Context.imageWork at *
    simp [hk] at hstep

end

theorem Sound.step (h : Sound c tasks x) (hbuilds : ∀ t ∈ tasks, Builds e c t)
    (hapart : ∀ s ∈ tasks, ∀ t ∈ tasks, Apart c s t) {move : Nat × Reply} (hstep : x.step? e move = some y) :
    Sound c tasks y := by
  obtain ⟨k, reply⟩ := move
  cases ht : tasks[k]? with
  | none =>
    have hnone : x.works[k]? = none := by
      rw [List.getElem?_eq_none_iff] at ht ⊢
      rw [h.workers]
      exact ht
    simp [step?, hnone] at hstep
  | some t =>
    obtain ⟨w, hk, hstage⟩ := h.stages ht
    have hmem := List.mem_of_getElem? ht
    have hb := hbuilds t hmem
    cases hstage with
    | begun => exact h.step_begun ht hb hk hstep
    | building => exact h.step_building ht hb (hapart t hmem) hk hstep
    | built hbound => exact h.step_built ht hb hbound hk hstep
    | ended r => simp [step?, hk] at hstep

theorem Sound.follow {moves : List (Nat × Reply)} (h : Sound c tasks x) (hbuilds : ∀ t ∈ tasks, Builds e c t)
    (hapart : ∀ s ∈ tasks, ∀ t ∈ tasks, Apart c s t) (hrun : x.follow? e moves = some y) : Sound c tasks y := by
  induction moves generalizing x with
  | nil =>
    cases hrun
    exact h
  | cons m ms ih =>
    rw [follow?, Option.bind_eq_some_iff] at hrun
    obtain ⟨z, hz, hrun⟩ := hrun
    exact ih (h.step hbuilds hapart hz) hrun

def crossing (i j : Nat) : List (Nat × Reply) :=
  [(i, .found true), (j, .found true), (i, .capture (.ok "")), (j, .capture (.ok "")), (i, .capture (.ok ""))]

theorem follow?_nil (x : Workshop) : x.follow? e [] = some x := rfl

theorem follow?_cons {m : Nat × Reply} {ms : List (Nat × Reply)} {z : Workshop} (h : x.step? e m = some y)
    (hrest : y.follow? e ms = some z) : x.follow? e (m :: ms) = some z := by
  rw [follow?, h, Option.bind_some, hrest]

theorem follow?_crossing {i j : Nat} (hij : i ≠ j) {s t : Task} (hs : Builds e c s) (ht : Builds e c t)
    (hi : x.works[i]? = some (c.dispatch s)) (hj : x.works[j]? = some (c.dispatch t))
    (htag : Container.imageTag s.recipe = Container.imageTag t.recipe) :
    ∃ y, x.follow? e (crossing i j) = some y ∧ y.used = x.used ++ [(i, some (c.recipeDirectory t.recipe))] := by
  rw [hs.dispatch] at hi
  rw [ht.dispatch] at hj
  let x₁ := x.goOn i (imageBuild c s)
  let x₂ := x₁.goOn j (imageBuild c t)
  let x₃ := (x₂.goOn i (c.imageWork (Container.imageTag s.recipe) s)).bindTag
    (Container.imageTag s.recipe) (c.recipeDirectory s.recipe)
  let x₄ := (x₃.goOn j (c.imageWork (Container.imageTag t.recipe) t)).bindTag
    (Container.imageTag t.recipe) (c.recipeDirectory t.recipe)
  have hi₁ : x₁.works[i]? = some (imageBuild c s) := works_goOn hi
  have hj₁ : x₁.works[j]? = some (c.dockerfileWork t) := (works_goOn_ne hij.symm).trans hj
  have hi₂ : x₂.works[i]? = some (imageBuild c s) := (works_goOn_ne hij).trans hi₁
  have hj₂ : x₂.works[j]? = some (imageBuild c t) := works_goOn hj₁
  have hi₃ : x₃.works[i]? = some (c.imageWork (Container.imageTag s.recipe) s) := works_goOn hi₂
  have hj₃ : x₃.works[j]? = some (imageBuild c t) := (works_goOn_ne hij.symm).trans hj₂
  have hi₄ : x₄.works[i]? = some (c.imageWork (Container.imageTag s.recipe) s) := (works_goOn_ne hij).trans hi₃
  refine ⟨_, follow?_cons (hs.step?_found hi) (follow?_cons (ht.step?_found hj₁) (follow?_cons
    (hs.step?_built hi₂ "") (follow?_cons (ht.step?_built hj₃ "") (follow?_cons (hs.step?_ran hi₄ (.ok ""))
      (follow?_nil _))))), ?_⟩
  -- the second build has taken the tag away
  have htaken : x₄.images.find? (Container.imageTag s.recipe) = some (c.recipeDirectory t.recipe) := by
    rw [htag]
    exact (NameMap.find?_insert _ _ _ _).trans (if_pos rfl)
  exact congrArg (fun found => x.used ++ [(i, found)]) htaken

/-- Any number of tasks build their images at the same time, whatever tags were bound before. In every course of their
builds and runs each image that a task runs is the one of its own directory, if and only if recipes of different
directories differ in more than the case of their letters. -/
theorem own_images_iff (hbuilds : ∀ t ∈ tasks, Builds e c t) :
    (∀ images moves y, (start c images tasks).follow? e moves = some y →
      ∀ u ∈ y.used, ∃ t, tasks[u.1]? = some t ∧ u.2 = some (c.recipeDirectory t.recipe)) ↔
    ∀ s ∈ tasks, ∀ t ∈ tasks, c.recipeDirectory s.recipe ≠ c.recipeDirectory t.recipe →
      Text.lowercase s.recipe ≠ Text.lowercase t.recipe := by
  constructor
  · -- two tasks of one tag: the image of the second is built between the build and the run of the first
    intro hown s hs t ht hdiff hlower
    obtain ⟨i, hi⟩ := List.getElem?_of_mem hs
    obtain ⟨j, hj⟩ := List.getElem?_of_mem ht
    have hij : i ≠ j := by
      rintro rfl
      cases hi.symm.trans hj
      exact hdiff rfl
    have hwork {k : Nat} {r : Task} (hk : tasks[k]? = some r) : (start c ∅ tasks).works[k]? = some (c.dispatch r) := by
      unfold start
      rw [List.getElem?_map, hk, Option.map_some]
    obtain ⟨y, hy, hused⟩ := follow?_crossing hij (hbuilds s hs) (hbuilds t ht) (hwork hi) (hwork hj)
      (Container.imageTag_inj.2 hlower)
    obtain ⟨r, hr, hdir⟩ := hown _ _ y hy (i, some (c.recipeDirectory t.recipe)) (by rw [hused]; simp)
    cases hi.symm.trans hr
    exact hdiff (Option.some.inj hdir).symm
  · intro hdiff images moves y hy
    have hapart : ∀ s ∈ tasks, ∀ t ∈ tasks, Apart c s t := by
      intro s hs t ht hlower
      by_cases hdir : c.recipeDirectory s.recipe = c.recipeDirectory t.recipe
      · exact hdir
      · exact absurd hlower (hdiff s hs t ht hdir)
    exact ((sound_start hbuilds).follow hbuilds hapart hy).own

/-! ## Recipes that differ in case -/

def caseContext : Context where
  store := "case.store"
  pluginDir := "plugins"
  scriptsDir := "scripts"
  options := some { dockerfilesDir := some "recipes" }

def plainEngine : Engine where
  request? i :=
    match i.args with
    | ["build", "-t", tag, directory] => some (.build tag directory)
    | "run" :: "--rm" :: "-v" :: _ :: "-w" :: _ :: image :: _ => some (.run image)
    | _ => none

theorem builds_dockerfile {recipe : String} (h : Container.isRecipeName recipe = true) :
    Builds plainEngine caseContext (.dockerfile recipe) := ⟨rfl, h, rfl, rfl⟩

theorem plaso_images : (∀ images moves y,
      (start caseContext images [.dockerfile "Plaso", .dockerfile "tsk"]).follow? plainEngine moves = some y →
      ∀ u ∈ y.used, ∃ t, [Task.dockerfile "Plaso", .dockerfile "tsk"][u.1]? = some t ∧
        u.2 = some (caseContext.recipeDirectory t.recipe)) ∧
    ¬ ∀ images moves y,
      (start caseContext images [.dockerfile "Plaso", .dockerfile "plaso"]).follow? plainEngine moves = some y →
      ∀ u ∈ y.used, ∃ t, [Task.dockerfile "Plaso", .dockerfile "plaso"][u.1]? = some t ∧
        u.2 = some (caseContext.recipeDirectory t.recipe) := by
  have hplaso : Builds plainEngine caseContext (.dockerfile "Plaso") := builds_dockerfile (by decide)
  have hlower : Builds plainEngine caseContext (.dockerfile "plaso") := builds_dockerfile (by decide)
  have htsk : Builds plainEngine caseContext (.dockerfile "tsk") := builds_dockerfile (by decide)
  constructor
  · apply (own_images_iff (by simp [hplaso, htsk])).2
    decide +kernel
  · intro hall
    have hdiff := (own_images_iff (by simp [hplaso, hlower])).1 hall
    exact hdiff (.dockerfile "Plaso") (by simp) (.dockerfile "plaso") (by simp) (by decide +kernel) (by decide +kernel)

theorem plaso_runs_other_image : ((start caseContext ∅ [.dockerfile "Plaso", .dockerfile "plaso"]).follow? plainEngine
    (crossing 0 1)).map (·.used) = some [(0, some "recipes/plaso")] := by
  decide +kernel

end Workshop

end Casework
