import Casework.Proofs.Run.Course

/-!
# What holds all along a course

The workers are the running nodes, the outcomes are those of the nodes that are over, and an outcome is of
the kind that the state of its node says.
-/

namespace Casework.RunState

/-- The outcome is of the kind that the state of `n` says; a skip blames the first failed predecessor. -/
def Fitting (g : Graph) (sch : Scheduler) (n : Nat) (o : Outcome) : Prop :=
  match sch.state n with
  | .done => o.isSuccess = true
  | .failed => o.isSuccess = false
  | .skipped => ∃ d, (g.preds n).find? (fun p => (sch.state p).isFailure) = some d ∧
    o.result = .error (.dependencyFailed (g.name d))
  | .pending | .running => False

structure Sound (g : Graph) (s : RunState) : Prop where
  scheduler : s.scheduler.Sound g
  workers : ∀ n, n ∈ s.nodes ↔ s.scheduler.state n = .running
  distinct : s.nodes.Nodup
  swept : s.turn ≠ .schedule → ∀ n < g.size, s.scheduler.state n = .pending →
    ∃ p ∈ g.preds n, (s.scheduler.state p).isTerminal = false
  idle : s.turn = .ended → s.workers = []
  names : ∀ k o, s.outcomes.find? k = some o → ∃ n < g.size, g.name n = k
  recorded : ∀ n < g.size, (s.scheduler.state n).isTerminal → ∃ o, s.outcomes.find? (g.name n) = some o
  fitting : ∀ n < g.size, ∀ o, s.outcomes.find? (g.name n) = some o → Fitting g s.scheduler n o

theorem sound_start (g : Graph) : (start g).Sound g := by
  have hnone : ∀ k, (start g).outcomes.find? k = none := NameMap.find?_empty
  refine ⟨Scheduler.sound_new g, fun n => ?_, .nil, fun h => absurd rfl h, fun _ => rfl, fun k o h => ?_,
    fun n _ h => ?_, fun n _ o h => ?_⟩
  · refine iff_of_false List.not_mem_nil fun h => ?_
    rw [start, Scheduler.state_new] at h
    cases h
  · rw [hnone] at h
    cases h
  · rw [start, Scheduler.state_new] at h
    cases h
  · rw [hnone] at h
    cases h

section
variable {g : Graph} {s : RunState}

theorem taskName_eq (h : s.Sound g) (n : Nat) : s.taskName n = g.name n := by
  rw [taskName, h.scheduler.fits.graph]

theorem phase?_of_mem (h : s.Sound g) {w : Nat × Phase} (hw : w ∈ s.workers) : s.phase? w.1 = some w.2 :=
  NameMap.lookup_of_mem h.distinct hw

theorem Fitting.keep {sch sch' : Scheduler} (h : sch.Sound g)
    (hkeep : ∀ p, (sch.state p).isTerminal → sch'.state p = sch.state p) {n : Nat} {o : Outcome}
    (hf : Fitting g sch n o) : Fitting g sch' n o := by
  unfold Fitting at *
  cases hs : sch.state n with
  | pending =>
    rw [hs] at hf
    exact hf.elim
  | running =>
    rw [hs] at hf
    exact hf.elim
  | done =>
    rw [hkeep n (by rw [hs]; rfl), hs]
    rwa [hs] at hf
  | failed =>
    rw [hkeep n (by rw [hs]; rfl), hs]
    rwa [hs] at hf
  | skipped =>
    rw [hkeep n (by rw [hs]; rfl), hs]
    rw [hs] at hf
    obtain ⟨d, hd, ho⟩ := hf
    refine ⟨d, ?_, ho⟩
    rw [← hd]
    exact List.find?_congr fun p hp => by rw [hkeep p ((h.skipped n hs).1 p hp)]

/-! ## Moves of one worker -/

theorem sound_of_worker {t : RunState} (h : s.Sound g) (hsch : t.scheduler = s.scheduler)
    (hn : t.nodes = s.nodes) (ho : t.outcomes = s.outcomes) (ht : t.turn = s.turn)
    (hw : s.workers = [] → t.workers = []) : t.Sound g := by
  refine ⟨hsch ▸ h.scheduler, ?_, hn ▸ h.distinct, ?_, fun he => hw (h.idle (ht ▸ he)), ?_, ?_, ?_⟩
  · rw [hn, hsch]
    exact h.workers
  · rw [ht, hsch]
    exact h.swept
  · rw [ho]
    exact h.names
  · rw [ho, hsch]
    exact h.recorded
  · rw [ho, hsch]
    exact h.fitting

theorem workers_setPhase_nil (n : Nat) (p : Phase) (h : s.workers = []) : (s.setPhase n p).workers = [] := by
  rw [setPhase, h]
  rfl

/-! ## Passes -/

theorem outcomes_schedule (hg : g.Sound) (h : s.Sound g) (now : Moment) (k : String) :
    (∃ n d, n < g.size ∧ g.name n = k ∧ s.scheduler.state n = .pending ∧
      s.scheduler.advance.verdict n = some (.skip n d) ∧
      (s.schedule now).outcomes.find? k = some ⟨.error (.dependencyFailed (g.name d)), none, now⟩) ∨
    (∀ n d, n < g.size → s.scheduler.state n = .pending →
      s.scheduler.advance.verdict n = some (.skip n d) → g.name n ≠ k) ∧
      (s.schedule now).outcomes.find? k = s.outcomes.find? k := by
  have hfits := h.scheduler.fits
  have hname : ∀ n, ({ s with scheduler := s.scheduler.scheduleNext.1 } : RunState).taskName n = g.name n :=
    fun n => by rw [taskName, (Scheduler.fits_scheduleNext hfits).graph]
  have hmem : ∀ n d, Step.skip n d ∈ s.scheduler.scheduleNext.2 ↔
      n < g.size ∧ s.scheduler.state n = .pending ∧ s.scheduler.advance.verdict n = some (.skip n d) := by
    intro n d
    rw [Scheduler.verdict_advance hg hfits]
    exact Scheduler.mem_steps hg hfits
  rcases outcomes_takeAll now k s.scheduler.scheduleNext.2
    { s with scheduler := s.scheduler.scheduleNext.1 } with ⟨n, d, hm, hn, hf⟩ | ⟨hno, hf⟩
  · obtain ⟨hlt, hp, hv⟩ := (hmem n d).mp hm
    refine .inl ⟨n, d, hlt, (hname n).symm.trans hn, hp, hv, ?_⟩
    rw [skipOutcome, hname] at hf
    exact hf
  · refine .inr ⟨fun n d hlt hp hv => ?_, hf⟩
    rw [← hname]
    exact hno n d ((hmem n d).mpr ⟨hlt, hp, hv⟩)

theorem recorded_schedule (hg : g.Sound) (h : s.Sound g) (now : Moment) {n : Nat} (hn : n < g.size)
    (ht : (s.scheduler.advance.state n).isTerminal) : ∃ o, (s.schedule now).outcomes.find? (g.name n) = some o := by
  rcases outcomes_schedule hg h now (g.name n) with ⟨m, d, _, _, _, _, hf⟩ | ⟨hno, hf⟩
  · exact ⟨_, hf⟩
  · rw [hf]
    refine h.recorded n hn ?_
    rw [Scheduler.state_advance hg h.scheduler.fits hn] at ht
    -- only a skip would end a pending node here, and it would have been recorded
    cases hs : s.scheduler.state n with
    | pending =>
      rw [hs] at ht
      cases hv : s.scheduler.advance.verdict n with
      | none =>
        rw [hv] at ht
        cases ht
      | some v =>
        have hnode := Scheduler.node_of_verdict hv
        cases v with
        | launch m =>
          rw [hv] at ht
          cases ht
        | skip m d =>
          cases hnode
          exact absurd rfl (hno _ d hn hs hv)
    | running =>
      rw [hs] at ht
      cases ht
    | _ => rfl

theorem fitting_schedule (hg : g.Sound) (h : s.Sound g) (now : Moment) {n : Nat} (hn : n < g.size) {o : Outcome}
    (ho : (s.schedule now).outcomes.find? (g.name n) = some o) : Fitting g s.scheduler.advance n o := by
  have hfits := h.scheduler.fits
  rcases outcomes_schedule hg h now (g.name n) with ⟨m, d, hm, he, hp, hv, hf⟩ | ⟨-, hf⟩
  · cases Links.name_inj hg.links hm hn he
    rw [hf] at ho
    cases ho
    have hst := Scheduler.state_advance hg hfits hn
    rw [hp, hv] at hst
    unfold Fitting
    rw [hst]
    obtain ⟨-, -, hd⟩ := Scheduler.verdict_eq_skip.mp hv
    rw [(Scheduler.fits_advance hfits).graph] at hd
    exact ⟨d, hd, rfl⟩
  · exact (h.fitting n hn o (hf ▸ ho)).keep h.scheduler
      fun p => Scheduler.state_advance_of_terminal hg hfits

theorem sound_schedule (hg : g.Sound) (h : s.Sound g) (now : Moment) : (s.schedule now).Sound g := by
  have hsch := scheduler_schedule s now
  have hfits := h.scheduler.fits
  refine ⟨?_, fun n => ?_, ?_, fun _ n hn hp => ?_, fun he => (by cases he), fun k o hk => ?_, fun n hn ht => ?_,
    fun n hn o ho => ?_⟩
  · rw [hsch]
    exact Scheduler.sound_advance hg h.scheduler
  · rw [hsch, nodes_schedule, List.mem_append, h.workers, Scheduler.running_advance hg hfits, or_comm]
  · rw [nodes_schedule]
    refine List.nodup_append.mpr ⟨h.distinct, Scheduler.nodup_launches hg hfits, fun n hn m hm he => ?_⟩
    have hp := ((Scheduler.mem_launches hg hfits).mp hm).2.1
    rw [← he, (h.workers n).mp hn] at hp
    cases hp
  · rw [hsch] at hp ⊢
    exact (Scheduler.pending_advance_iff hg h.scheduler hn).mp hp
  · rcases outcomes_schedule hg h now k with ⟨n, d, hn, he, -⟩ | ⟨-, hf⟩
    · exact ⟨n, hn, he⟩
    · exact h.names k o (hf ▸ hk)
  · rw [hsch] at ht
    exact recorded_schedule hg h now hn ht
  · rw [hsch]
    exact fitting_schedule hg h now hn ho

/-! ## Collecting -/

theorem scheduler_collect (s : RunState) (n : Nat) (o : Outcome) : (s.collect n o).scheduler =
    s.scheduler.ended n (if o.isSuccess then .done else .failed) := by
  cases h : o.isSuccess <;> simp only [collect, settle, record, emit, h] <;> rfl

theorem phase?_collect (s : RunState) (n : Nat) (o : Outcome) (m : Nat) :
    (s.collect n o).phase? m = if m = n then none else s.phase? m := lookup_filter_ne n m s.workers

theorem outcomes_collect (s : RunState) (n : Nat) (o : Outcome) (k : String) :
    (s.collect n o).outcomes.find? k = if k = s.taskName n then some o else s.outcomes.find? k := by
  have hname : ((s.settle n o).emit (finalEvent (s.taskName n) o)).taskName n = s.taskName n := by
    cases h : o.isSuccess <;> simp only [settle, h] <;> rfl
  simp only [collect, record, NameMap.find?_insert, hname]
  rfl

theorem nodup_nodes_collect (h : s.Sound g) (n : Nat) (o : Outcome) : (s.collect n o).nodes.Nodup :=
  h.distinct.sublist (List.filter_sublist.map _)

theorem moves_of_collect (o : Outcome) :
    NodeState.Moves .running (if o.isSuccess then .done else .failed) := by
  cases o.isSuccess
  · exact .fail
  · exact .finish

theorem running_of_phase? (h : s.Sound g) {n : Nat} {p : Phase} (hp : s.phase? n = some p) :
    s.scheduler.state n = .running := (h.workers n).mp (mem_nodes.mpr ⟨p, hp⟩)

theorem lt_of_phase? (h : s.Sound g) {n : Nat} {p : Phase} (hp : s.phase? n = some p) : n < g.size :=
  Scheduler.lt_of_ne_pending h.scheduler.fits (by rw [running_of_phase? h hp]; simp)

theorem sound_collect (hg : g.Sound) (h : s.Sound g) {n : Nat} {o : Outcome} (hr : s.scheduler.state n = .running) :
    (s.collect n o).Sound g := by
  have hsch := scheduler_collect s n o
  have hmv : NodeState.Moves .running (if o.isSuccess then .done else .failed) := moves_of_collect o
  have hstate := Scheduler.state_ended hr (if o.isSuccess then .done else .failed)
  have hn : n < g.size := Scheduler.lt_of_ne_pending h.scheduler.fits (by rw [hr]; simp)
  have hout : ∀ k, (s.collect n o).outcomes.find? k = if k = g.name n then some o else s.outcomes.find? k :=
    fun k => by rw [outcomes_collect, taskName_eq h]
  have hkeep : ∀ p, (s.scheduler.state p).isTerminal →
      (s.scheduler.ended n (if o.isSuccess then .done else .failed)).state p = s.scheduler.state p :=
    fun p => Scheduler.state_of_moves (Scheduler.moves_ended hr hmv)
  -- of `n` the worker goes and an outcome comes; what is said of the other nodes stands
  refine ⟨?_, fun m => ?_, nodup_nodes_collect h n o, fun ht => absurd rfl ht, fun he => (by cases he),
    fun k p hk => ?_, fun m hm ht => ?_, fun m hm p hp => ?_⟩
  · rw [hsch]
    exact Scheduler.sound_ended h.scheduler hr hmv
  · rw [mem_nodes, phase?_collect, hsch, hstate]
    by_cases hmn : m = n
    · rw [if_pos hmn, if_pos hmn]
      cases o.isSuccess <;> simp
    · rw [if_neg hmn, if_neg hmn, ← mem_nodes, h.workers]
  · rw [hout] at hk
    split at hk
    · rename_i he
      exact ⟨n, hn, he.symm⟩
    · exact h.names k p hk
  · rw [hout]
    by_cases hmn : m = n
    · rw [hmn, if_pos rfl]
      exact ⟨o, rfl⟩
    · rw [hsch, hstate, if_neg hmn] at ht
      rw [if_neg fun he => hmn (Links.name_inj hg.links hm hn he)]
      exact h.recorded m hm ht
  · rw [hout] at hp
    rw [hsch]
    by_cases hmn : m = n
    · rw [hmn, if_pos rfl] at hp
      cases hp
      unfold Fitting
      rw [hstate, if_pos hmn]
      cases o.isSuccess <;> rfl
    · rw [if_neg fun he => hmn (Links.name_inj hg.links hm hn he)] at hp
      exact (h.fitting m hm p hp).keep h.scheduler hkeep

/-! ## Every course -/

theorem sound_moved (hg : g.Sound) {permits : Option Nat} {now : Moment} {m : Move} {t : RunState}
    (h : s.Sound g) (hm : Moved permits now s m t) : t.Sound g := by
  cases hm with
  | schedule _ => exact sound_schedule hg h now
  | acquire _ _ =>
    exact sound_of_worker h rfl (nodes_setPhase s _ _) rfl rfl (workers_setPhase_nil _ _)
  | finish _ => exact sound_of_worker h rfl (nodes_setPhase s _ _) rfl rfl (workers_setPhase_nil _ _)
  | collect _ hp => exact sound_collect hg h (running_of_phase? h hp)
  | close ht hw =>
    exact ⟨h.scheduler, h.workers, h.distinct, fun _ => h.swept (by rw [ht]; simp), fun _ => hw, h.names, h.recorded,
      h.fitting⟩

theorem sound_follow (hg : g.Sound) {permits : Option Nat} {ms : List (Moment × Move)} {t : RunState}
    (h : (start g).follow? permits ms = some t) : t.Sound g :=
  follow_invariant (Q := fun _ => True) (fun _ _ _ _ _ => sound_moved hg) (fun _ _ => trivial)
    (sound_start g) h

/-- When a pass has left nothing to wait for every node is over: of what is not over, something whose
predecessors are all over would be running. -/
theorem terminal_of_idle (hg : g.Sound) (h : s.Sound g) (ht : s.turn ≠ .schedule) (hw : s.workers = []) :
    ∀ n < g.size, (s.scheduler.state n).isTerminal := by
  refine hg.induction fun n hn ih => ?_
  cases hs : s.scheduler.state n with
  | pending =>
    obtain ⟨p, hp, hf⟩ := h.swept ht n hn hs
    rw [ih p hp] at hf
    cases hf
  | running =>
    have hm := (h.workers n).mpr hs
    rw [nodes, hw] at hm
    cases hm
  | _ => rfl

theorem terminal_of_ended (hg : g.Sound) (h : s.Sound g) (he : s.turn = .ended) :
    ∀ n < g.size, (s.scheduler.state n).isTerminal :=
  terminal_of_idle hg h (by rw [he]; simp) (h.idle he)

theorem keys_of_idle {tasks : NameMap Task} (hg : g.Sound) (hd : g.Describes tasks) (h : s.Sound g)
    (ht : s.turn ≠ .schedule) (hw : s.workers = []) : s.outcomes.keys = tasks.keys := by
  refine NameMap.keys_eq fun k => ?_
  rw [NameMap.mem_keys, Graph.mem_keys_iff hd]
  constructor
  · rintro ⟨o, ho⟩
    exact h.names k o ho
  · rintro ⟨n, hn, rfl⟩
    exact h.recorded n hn (terminal_of_idle hg h ht hw n hn)

end

end Casework.RunState
