import Casework.Proofs.Run.Invariant

/-!
# The outcome of a run

However the workers take turns, a task ends well just if it and all that it requires, directly or not,
give good results. It ends with its own error if only its own result is bad, and otherwise it is skipped
and blames the first of its requirements that did not end well.
-/

namespace Casework

theorem encode_antisymm {s t : String} (h : Text.encode s ≤ Text.encode t)
    (h' : Text.encode t ≤ Text.encode s) : s = t := by
  rcases Std.lt_trichotomy s t with hlt | he | hlt
  · exact absurd (Text.encode_lt_encode.mpr hlt) h'
  · exact he
  · exact absurd (Text.encode_lt_encode.mpr hlt) h

/-! ## What is to be expected -/

section
variable (tasks : NameMap Task) (f : String → Except TaskError String)

/-- All that `a` requires, directly or not, gives good results. -/
def Cleared (a : String) : Prop := ∀ b, Relation.TransGen (Requires tasks) a b → ∃ out, f b = .ok out

def Succeeds (a : String) : Prop := Cleared tasks f a ∧ ∃ out, f a = .ok out

/-- `d` is the first requirement of `a`, by bytes, that does not succeed. -/
def Blamed (a d : String) : Prop := Requires tasks a d ∧ ¬ Succeeds tasks f d ∧
  ∀ b, Requires tasks a b → ¬ Succeeds tasks f b → Text.encode d ≤ Text.encode b

/-- The result that `a` ends with if the results of the tasks are those of `f`. -/
def Expected (a : String) (r : Except TaskError String) : Prop :=
  Cleared tasks f a ∧ r = f a ∨
    ¬ Cleared tasks f a ∧ ∃ d, Blamed tasks f a d ∧ r = .error (.dependencyFailed d)

structure Settles (a : String) (o : Outcome) : Prop where
  ok_iff : ∀ out, o.result = .ok out ↔ Cleared tasks f a ∧ f a = .ok out
  own_error_iff : ∀ e, e.isDependencyFailure = false →
    (o.result = .error e ↔ Cleared tasks f a ∧ f a = .error e)
  skip_iff : ∀ d, o.result = .error (.dependencyFailed d) ↔ ¬ Cleared tasks f a ∧ Blamed tasks f a d
  done_iff : o.status = .done ↔ Succeeds tasks f a
  failed_iff : o.status = .failed ↔ Cleared tasks f a ∧ ∃ e, f a = .error e
  skipped_iff : o.status = .skipped ↔ ¬ Cleared tasks f a

end

def TaskStatus.nodeState : TaskStatus → NodeState
  | .done => .done
  | .failed => .failed
  | .skipped => .skipped

section
variable {tasks : NameMap Task} {f : String → Except TaskError String}

theorem cleared_iff {a : String} : Cleared tasks f a ↔ ∀ b, Requires tasks a b → Succeeds tasks f b := by
  constructor
  · exact fun h b hb => ⟨fun c hc => h c (hc.head hb), h b (.single hb)⟩
  · intro h c hc
    rcases Relation.TransGen.head'_iff.mp hc with ⟨b, hb, hbc⟩
    rcases Relation.reflTransGen_iff_eq_or_transGen.mp hbc with rfl | hbc
    · exact (h _ hb).2
    · exact (h b hb).1 c hbc

theorem blamed_unique {a d d' : String} (h : Blamed tasks f a d) (h' : Blamed tasks f a d') : d = d' :=
  encode_antisymm (h.2.2 d' h'.1 h'.2.1) (h'.2.2 d h.1 h.2.1)

theorem expected_unique {a : String} {r r' : Except TaskError String} (h : Expected tasks f a r)
    (h' : Expected tasks f a r') : r = r' := by
  rcases h with ⟨hc, rfl⟩ | ⟨hc, d, hd, rfl⟩
  · rcases h' with ⟨-, rfl⟩ | ⟨hc', -⟩
    · rfl
    · exact absurd hc hc'
  · rcases h' with ⟨hc', -⟩ | ⟨-, d', hd', rfl⟩
    · exact absurd hc' hc
    · rw [blamed_unique hd hd']

theorem status_eq_done {o : Outcome} : o.status = .done ↔ ∃ out, o.result = .ok out := by
  unfold Outcome.status
  split
  · rename_i out h
    exact iff_of_true rfl ⟨out, h⟩
  · rename_i e h
    refine iff_of_false ?_ fun ⟨out, ho⟩ => ?_
    · split <;> simp
    · rw [h] at ho
      cases ho

theorem isSuccess_iff {o : Outcome} : o.isSuccess = true ↔ ∃ out, o.result = .ok out := by
  unfold Outcome.isSuccess
  cases o.result <;> simp

theorem status_of_error {o : Outcome} {e : TaskError} (h : o.result = .error e) :
    o.status = if e.isDependencyFailure then .skipped else .failed := by
  unfold Outcome.status
  rw [h]

theorem status_congr {o o' : Outcome} (h : o'.result = o.result) : o'.status = o.status := by
  rw [Outcome.status, Outcome.status, h]

variable (hf : ∀ a e, f a = .error e → e.isDependencyFailure = false)
include hf

theorem settles_of_cleared {a : String} {o : Outcome} (hc : Cleared tasks f a) (ho : o.result = f a) :
    Settles tasks f a o := by
  refine ⟨fun out => ?_, fun e _ => ?_, fun d => ?_, ?_, ?_, ?_⟩
  · rw [ho]
    exact (and_iff_right hc).symm
  · rw [ho]
    exact (and_iff_right hc).symm
  · refine iff_of_false (fun h => ?_) fun h => h.1 hc
    have := hf a _ (ho ▸ h)
    cases this
  · rw [status_eq_done, ho]
    exact (and_iff_right hc).symm
  · cases hr : f a with
    | ok out => exact iff_of_false (by rw [status_eq_done.mpr ⟨out, ho.trans hr⟩]; simp) (by simp)
    | error e =>
      rw [status_of_error (ho.trans hr), hf a e hr]
      exact iff_of_true rfl ⟨hc, e, rfl⟩
  · refine iff_of_false (fun h => ?_) fun h => h hc
    cases hr : f a with
    | ok out =>
      rw [status_eq_done.mpr ⟨out, ho.trans hr⟩] at h
      cases h
    | error e =>
      rw [status_of_error (ho.trans hr), hf a e hr] at h
      cases h

omit hf in
theorem settles_of_blamed {a d : String} {o : Outcome} (hc : ¬ Cleared tasks f a)
    (hd : Blamed tasks f a d) (ho : o.result = .error (.dependencyFailed d)) : Settles tasks f a o := by
  have hstatus : o.status = .skipped := status_of_error ho
  refine ⟨fun out => ?_, fun e he => ?_, fun d' => ?_, ?_, ?_, ?_⟩
  · refine iff_of_false (fun h => ?_) fun h => hc h.1
    rw [ho] at h
    cases h
  · refine iff_of_false (fun h => ?_) fun h => hc h.1
    rw [ho] at h
    cases h
    cases he
  · rw [ho]
    constructor
    · intro h
      cases h
      exact ⟨hc, hd⟩
    · exact fun h => by rw [blamed_unique hd h.2]
  · rw [hstatus]
    exact iff_of_false (by simp) fun h => hc h.1
  · rw [hstatus]
    exact iff_of_false (by simp) fun h => hc h.1
  · exact iff_of_true hstatus hc

theorem settles_of_expected {a : String} {o : Outcome} (h : Expected tasks f a o.result) : Settles tasks f a o := by
  rcases h with ⟨hc, ho⟩ | ⟨hc, d, hd, ho⟩
  · exact settles_of_cleared hf hc ho
  · exact settles_of_blamed hc hd ho

omit hf in
theorem Settles.result_eq {a : String} {o o' : Outcome} (h : Settles tasks f a o) (h' : Settles tasks f a o') :
    o'.result = o.result := by
  cases hr : o.result with
  | ok out => exact (h'.ok_iff out).mpr ((h.ok_iff out).mp hr)
  | error e =>
    cases hd : e.isDependencyFailure with
    | false => exact (h'.own_error_iff e hd).mpr ((h.own_error_iff e hd).mp hr)
    | true =>
      cases e with
      | dependencyFailed d => exact (h'.skip_iff d).mpr ((h.skip_iff d).mp hr)
      | _ => cases hd

end

namespace RunState

/-! ## The results of a course -/

structure Faithful (f : String → Except TaskError String) (g : Graph) (s : RunState) : Prop where
  finished : ∀ n o, s.phase? n = some (.finished o) → o.result = f (g.name n)
  recorded : ∀ n < g.size, ∀ o, s.outcomes.find? (g.name n) = some o →
    s.scheduler.state n ≠ .skipped → o.result = f (g.name n)

section
variable {f : String → Except TaskError String} {g : Graph} (hg : g.Sound)
include hg

theorem faithful_schedule {s : RunState} (hs : s.Sound g) (h : Faithful f g s) (now : Moment) :
    Faithful f g (s.schedule now) := by
  have hfits := hs.scheduler.fits
  refine ⟨fun n o ho => ?_, fun n hn o ho hne => ?_⟩
  · rw [phase?_schedule] at ho
    cases hp : s.phase? n with
    | none =>
      rw [hp, Option.none_or] at ho
      split at ho <;> cases ho
    | some p =>
      rw [hp] at ho
      exact h.finished n o (hp.trans ho)
  · rw [scheduler_schedule] at hne
    rcases outcomes_schedule hg hs now (g.name n) with ⟨m, d, hm, he, hp, hv, -⟩ | ⟨-, hout⟩
    · cases Links.name_inj hg.links hm hn he
      rw [Scheduler.state_advance hg hfits hn, hp, hv] at hne
      exact absurd rfl hne
    · refine h.recorded n hn o (hout ▸ ho) fun hk => hne ?_
      rw [Scheduler.state_advance_of_terminal hg hfits (by rw [hk]; rfl), hk]

theorem faithful_moved {permits : Option Nat} {now : Moment} {m : Move} {s t : RunState} (hq : Obeys f g m)
    (hs : s.Sound g) (h : Faithful f g s) (hm : Moved permits now s m t) : Faithful f g t := by
  cases hm with
  | schedule _ => exact faithful_schedule hg hs h now
  | acquire _ _ =>
    refine ⟨fun n o ho => ?_, h.recorded⟩
    rcases phase?_setPhase_cases ho with ⟨-, he⟩ | ho
    · cases he
    · exact h.finished n o ho
  | @finish k r started _ =>
    refine ⟨fun n o ho => ?_, h.recorded⟩
    rcases phase?_setPhase_cases ho with ⟨hn, he⟩ | ho
    · cases he
      rw [hn]
      exact hq k r rfl
    · exact h.finished n o ho
  | @collect k o _ hp =>
    have hr := running_of_phase? hs hp
    have hk : k < g.size := lt_of_phase? hs hp
    refine ⟨fun n p ho => ?_, fun n hn p ho hne => ?_⟩
    · rw [phase?_collect] at ho
      split at ho
      · cases ho
      · exact h.finished n p ho
    · -- the outcome is the one just collected, which the work had given, or an earlier one
      rw [outcomes_collect, taskName_eq hs] at ho
      split at ho
      · rename_i he
        cases ho
        rw [he]
        exact h.finished k o hp
      · rename_i hnk
        rw [scheduler_collect, Scheduler.state_ended hr, if_neg fun e => hnk (by rw [e])] at hne
        exact h.recorded n hn p ho hne
  | close _ _ => exact ⟨h.finished, h.recorded⟩

theorem faithful_follow {permits : Option Nat} {ms : List (Moment × Move)} {t : RunState}
    (hms : ∀ x ∈ ms, Obeys f g x.2) (h : (start g).follow? permits ms = some t) :
    t.Sound g ∧ Faithful f g t := by
  have hstart : Faithful f g (start g) :=
    ⟨fun n o ho => (by cases ho), fun n _ o ho => (by rw [start] at ho; cases ho)⟩
  exact follow_invariant (P := fun s => s.Sound g ∧ Faithful f g s)
    (fun now s m t hq hs hm => ⟨sound_moved hg hs.1 hm, faithful_moved hg hq hs.1 hs.2 hm⟩) hms
    ⟨sound_start g, hstart⟩ h

end

/-! ## Ended runs -/

section
variable {tasks : NameMap Task} {f : String → Except TaskError String} {g : Graph} {s : RunState}

theorem cleared_name_iff (hd : g.Describes tasks) {n : Nat} (hn : n < g.size) :
    Cleared tasks f (g.name n) ↔ ∀ p ∈ g.preds n, Succeeds tasks f (g.name p) := by
  rw [cleared_iff]
  constructor
  · intro h p hp
    exact h _ ((hd.mem_preds n p).mp hp).2.2
  · intro h b hb
    obtain ⟨p, hp, rfl⟩ := (Graph.mem_keys_iff hd).mp (hd.resolved _ _ hb)
    exact h p ((Graph.requires_iff hd hn hp).mp hb)

theorem blamed_of_find? (hg : g.Sound) (hd : g.Describes tasks) {n d : Nat} (hn : n < g.size)
    (hp : ∀ p ∈ g.preds n, (s.scheduler.state p).isFailure = true ↔ ¬ Succeeds tasks f (g.name p))
    (hfind : (g.preds n).find? (fun p => (s.scheduler.state p).isFailure) = some d) :
    Blamed tasks f (g.name n) (g.name d) := by
  have hm := List.mem_of_find?_eq_some hfind
  have hfail := List.find?_some hfind
  refine ⟨((hd.mem_preds n d).mp hm).2.2, (hp d hm).mp hfail, fun b hb hno => ?_⟩
  obtain ⟨p, hlt, rfl⟩ := (Graph.mem_keys_iff hd).mp (hd.resolved _ _ hb)
  have hpn := (Graph.requires_iff hd hn hlt).mp hb
  have hle := le_of_find?_eq_some (hg.links.preds_sorted n) hfind p hpn ((hp p hpn).mpr hno)
  exact Graph.encode_name_le hg hle hlt

theorem isFailure_iff {st : NodeState} (h : st.isTerminal = true) : st.isFailure = true ↔ st ≠ .done := by
  cases st <;> simp [NodeState.isFailure] <;> cases h

/-- By induction along the links: the predecessors have ended as expected, so what the state of a node says
of them is what is expected of it. -/
theorem expected_of_ended (hg : g.Sound) (hd : g.Describes tasks) (hs : s.Sound g) (h : Faithful f g s)
    (he : s.turn = .ended) : ∀ n < g.size, ∃ o, s.outcomes.find? (g.name n) = some o ∧
      Expected tasks f (g.name n) o.result ∧ (s.scheduler.state n = .done ↔ Succeeds tasks f (g.name n)) := by
  have hover := terminal_of_ended hg hs he
  -- along the requirements: what became of the required tasks decides what becomes of `n`
  refine hg.induction ?_
  intro n hn ih
  obtain ⟨o, ho⟩ := hs.recorded n hn (hover n hn)
  have hdone : ∀ p ∈ g.preds n, s.scheduler.state p = .done ↔ Succeeds tasks f (g.name p) := by
    intro p hp
    obtain ⟨q, -, -, hst⟩ := ih p hp
    exact hst
  have hfit := hs.fitting n hn o ho
  refine ⟨o, ho, ?_⟩
  by_cases hst : s.scheduler.state n = .skipped
  · rw [Fitting, hst] at hfit
    obtain ⟨d, hfind, hr⟩ := hfit
    have hblamed : Blamed tasks f (g.name n) (g.name d) := by
      refine blamed_of_find? hg hd hn (fun p hp => ?_) hfind
      rw [isFailure_iff ((hs.scheduler.skipped n hst).1 p hp), ne_eq, hdone p hp]
    have hc : ¬ Cleared tasks f (g.name n) := fun hc => hblamed.2.1 (cleared_iff.mp hc _ hblamed.1)
    refine ⟨.inr ⟨hc, g.name d, hblamed, hr⟩, ?_⟩
    rw [hst]
    exact iff_of_false (by simp) fun hn => hc hn.1
  · have hr : o.result = f (g.name n) := h.recorded n hn o ho hst
    have hstarted : s.scheduler.state n = .done ∨ s.scheduler.state n = .failed := by
      have hterm := hover n hn
      cases hk : s.scheduler.state n <;> simp [hk, NodeState.isTerminal] at hterm hst ⊢
    have hc : Cleared tasks f (g.name n) := by
      rw [cleared_name_iff hd hn]
      intro p hp
      exact (hdone p hp).mp (hs.scheduler.started n (.inr hstarted) p hp)
    refine ⟨.inl ⟨hc, hr⟩, ?_⟩
    rw [Succeeds, and_iff_right hc, ← hr, ← isSuccess_iff]
    rcases hstarted with hst | hst
    · rw [Fitting, hst] at hfit
      exact iff_of_true hst hfit
    · rw [Fitting, hst] at hfit
      rw [hst, hfit]
      simp

theorem state_of_ended (hf : ∀ a e, f a = .error e → e.isDependencyFailure = false) (hs : s.Sound g)
    (h : Faithful f g s) {n : Nat} (hn : n < g.size) {o : Outcome} (ho : s.outcomes.find? (g.name n) = some o) :
    s.scheduler.state n = o.status.nodeState := by
  have hfit := hs.fitting n hn o ho
  have hr := h.recorded n hn o ho
  unfold Fitting at hfit
  cases hst : s.scheduler.state n with
  | pending =>
    rw [hst] at hfit
    exact hfit.elim
  | running =>
    rw [hst] at hfit
    exact hfit.elim
  | done =>
    rw [hst] at hfit
    rw [status_eq_done.mpr (isSuccess_iff.mp hfit)]
    rfl
  | failed =>
    rw [hst] at hfit hr
    cases hfn : f (g.name n) with
    | ok out =>
      rw [isSuccess_iff.mpr ⟨out, (hr (by simp)).trans hfn⟩] at hfit
      cases hfit
    | error e =>
      rw [status_of_error ((hr (by simp)).trans hfn), hf _ e hfn]
      rfl
  | skipped =>
    rw [hst] at hfit
    obtain ⟨d, -, hr⟩ := hfit
    rw [status_of_error hr]
    rfl

theorem settles_of_ended (hg : g.Sound) (hd : g.Describes tasks)
    (hf : ∀ a e, f a = .error e → e.isDependencyFailure = false) (hs : s.Sound g) (h : Faithful f g s)
    (he : s.turn = .ended) : ∀ n < g.size, ∃ o, s.outcomes.find? (g.name n) = some o ∧
      Settles tasks f (g.name n) o ∧ s.scheduler.state n = o.status.nodeState := by
  intro n hn
  obtain ⟨o, ho, hexp, -⟩ := expected_of_ended hg hd hs h he n hn
  exact ⟨o, ho, settles_of_expected hf hexp, state_of_ended hf hs h hn ho⟩

/-- A run that has ended has one outcome for every task, the one that the results of the workers call for,
and the scheduler agrees. Any other run with these results, however its workers take turns and whatever the
cap, ends with the same results. -/
theorem outcomes_of_run (hb : Graph.build tasks = .ok g)
    (hf : ∀ a e, f a = .error e → e.isDependencyFailure = false) {cap : Option Nat}
    {ms : List (Moment × Move)} (hs : (start g).follow? (permitsOf cap) ms = some s)
    (ho : ∀ x ∈ ms, Obeys f g x.2) (he : s.turn = .ended) :
    s.outcomes.keys = tasks.keys ∧
    (∀ a ∈ tasks.keys, ∃ n o, g.node? a = some n ∧ s.outcomes.find? a = some o ∧ Settles tasks f a o ∧
      s.scheduler.state n = o.status.nodeState) ∧
    ∀ cap' ms' t, (start g).follow? (permitsOf cap') ms' = some t → (∀ x ∈ ms', Obeys f g x.2) →
      t.turn = .ended → t.outcomes.map Outcome.result = s.outcomes.map Outcome.result := by
  have hg := Graph.sound_build hb
  have hd := Graph.describes_build hb
  obtain ⟨hsound, hfaith⟩ := faithful_follow hg ho hs
  have hset := settles_of_ended hg hd hf hsound hfaith he
  have hkeys : ∀ {t : RunState}, t.Sound g → t.turn = .ended → t.outcomes.keys = tasks.keys :=
    fun ht he => keys_of_idle hg hd ht (by rw [he]; simp) (ht.idle he)
  refine ⟨hkeys hsound he, fun a ha => ?_, fun cap' ms' t ht ho' he' => ?_⟩
  · obtain ⟨n, hn, rfl⟩ := (Graph.mem_keys_iff hd).mp ha
    obtain ⟨o, hr⟩ := hset n hn
    exact ⟨n, o, Links.node?_name hg.links hn, hr⟩
  · obtain ⟨hsound', hfaith'⟩ := faithful_follow hg ho' ht
    refine NameMap.ext_find? fun k => ?_
    rw [NameMap.find?_map, NameMap.find?_map]
    -- both outcomes are the expected one
    by_cases hk : k ∈ tasks.keys
    · obtain ⟨n, hn, rfl⟩ := (Graph.mem_keys_iff hd).mp hk
      obtain ⟨o, hr, hstl, -⟩ := hset n hn
      obtain ⟨o', hr', hstl', -⟩ := settles_of_ended hg hd hf hsound' hfaith' he' n hn
      rw [hr, hr', Option.map_some, Option.map_some, hstl.result_eq hstl']
    · rw [NameMap.find?_eq_none.mpr (by rwa [hkeys hsound' he']),
        NameMap.find?_eq_none.mpr (by rwa [hkeys hsound he])]

end

def forkResult (a : String) : Except TaskError String :=
  if a = "plaso" then .error (.panicked "no memory") else .ok a

def forkTurn (n : Nat) : List Move :=
  [.schedule, .acquire n, .finish n (forkResult (Graph.forkGraph.name n)), .collect n]

def forkCourse (ns : List Nat) : List (Moment × Move) :=
  (ns.flatMap forkTurn ++ [Move.schedule, .close]).map (⟨0, 0⟩, ·)

theorem obeys_forkCourse (ns : List Nat) : ∀ x ∈ forkCourse ns, Obeys forkResult Graph.forkGraph x.2 := by
  intro x hx n r he
  simp only [forkCourse, forkTurn, List.mem_map, List.mem_append, List.mem_flatMap, List.mem_cons, List.not_mem_nil,
    or_false] at hx
  obtain ⟨m, ⟨k, -, rfl | rfl | rfl | rfl⟩ | rfl | rfl, rfl⟩ := hx <;> cases he
  rfl

theorem fork_outcomes_of_run : ∃ s t,
    (start Graph.forkGraph).follow? (permitsOf none) (forkCourse [1, 2, 0]) = some s ∧
    (start Graph.forkGraph).follow? (permitsOf (some 1)) (forkCourse [1, 0, 2]) = some t ∧
    t.outcomes.map Outcome.result = s.outcomes.map Outcome.result ∧
    ∃ o, s.outcomes.find? "report" = some o ∧ Settles Graph.fork forkResult "report" o := by
  have hf : ∀ a e, forkResult a = .error e → e.isDependencyFailure = false := by
    intro a e h
    unfold forkResult at h
    split at h <;> cases h
    rfl
  obtain ⟨s, hs, he⟩ := Option.map_eq_some_iff.mp (show ((start Graph.forkGraph).follow? (permitsOf none)
    (forkCourse [1, 2, 0])).map turn = some .ended by decide)
  obtain ⟨t, ht, he'⟩ := Option.map_eq_some_iff.mp (show ((start Graph.forkGraph).follow? (permitsOf (some 1))
    (forkCourse [1, 0, 2])).map turn = some .ended by decide)
  obtain ⟨-, hset, hconf⟩ := outcomes_of_run Graph.build_fork hf hs (obeys_forkCourse _) he
  obtain ⟨n, o, -, ho, hsettles, -⟩ := hset "report" (by decide)
  exact ⟨s, t, hs, ht, hconf (some 1) _ t ht (obeys_forkCourse _) he', o, ho, hsettles⟩

end RunState

end Casework
