import Casework.Proofs.Run.Interleaving

/-!
# The life of a node

While steps of a pass are still to be taken, the scheduler is ahead of the outcomes and the events. What a node
has come to is still told by four things that go together: its state, the phase of its worker, its outcome and
its events.
-/

namespace Casework

/-- The stages of the node of the task `a`, whose worker brings one of the results `R`: its state, the phase of
its worker, its outcome and its events, the latest first. -/
inductive Life (R : Except TaskError String → Prop) (a : String) :
    NodeState → Option Phase → Option Outcome → List Event → Prop
  | pending : Life R a .pending none none []
  | waiting : Life R a .running (some .waiting) none []
  | working {started : Moment} : Life R a .running (some (.working started)) none [.started a]
  | finished {o : Outcome} : R o.result → Life R a .running (some (.finished o)) none [.started a]
  | done {o : Outcome} {out : String} : R o.result → o.result = .ok out →
    Life R a .done none (some o) [.completed a, .started a]
  | failed {o : Outcome} {e : TaskError} : R o.result → o.result = .error e →
    Life R a .failed none (some o) [.failed a e.message, .started a]
  | dropped : Life R a .skipped none none []
  | skipped {o : Outcome} {d : String} : o.result = .error (.dependencyFailed d) →
    Life R a .skipped none (some o) [.skipped a d]

namespace Life

variable {R : Except TaskError String → Prop} {a : String} {st : NodeState} {p : Option Phase} {q : Option Outcome}
  {es : List Event}

theorem settle (h : Life R a st p q es) (v : Option Step) : Life R a (st.settle v) p q es := by
  cases h with
  | pending =>
    cases v with
    | none => exact .pending
    | some v =>
      cases v with
      | launch n => exact .pending
      | skip n d => exact .dropped
  | waiting => exact .waiting
  | working => exact .working
  | finished hr => exact .finished hr
  | done hr ho => exact .done hr ho
  | failed hr ho => exact .failed hr ho
  | dropped => exact .dropped
  | skipped ho => exact .skipped ho

theorem launch (h : Life R a .pending p q es) : Life R a .running (some .waiting) q es := by
  cases h
  exact .waiting

theorem skip (h : Life R a .skipped p none es) {o : Outcome} {d : String}
    (ho : o.result = .error (.dependencyFailed d)) : Life R a .skipped p (some o) (.skipped a d :: es) := by
  cases h
  exact .skipped ho

theorem begin (h : Life R a st (some .waiting) q es) (now : Moment) :
    Life R a st (some (.working now)) q (.started a :: es) := by
  cases h
  exact .working

theorem finish {started : Moment} (h : Life R a st (some (.working started)) q es) {o : Outcome} (hr : R o.result) :
    Life R a st (some (.finished o)) q es := by
  cases h
  exact .finished hr

theorem collect {o : Outcome} (h : Life R a st (some (.finished o)) q es) :
    Life R a (if o.isSuccess then .done else .failed) none (some o) (RunState.finalEvent a o :: es) := by
  cases h with
  | finished hr =>
    unfold Outcome.isSuccess RunState.finalEvent
    cases ho : o.result with
    | ok out => exact .done hr ho
    | error e => exact .failed hr ho

theorem running (h : Life R a st p q es) (hp : p ≠ none) : st = .running := by
  cases h <;> first | rfl | exact absurd rfl hp

theorem phase_eq_none (h : Life R a st p q es) (hst : st ≠ .running) : p = none := by
  cases h <;> first | rfl | exact absurd rfl hst

theorem outcome_eq_none (h : Life R a st p q es) (hst : st = .pending ∨ st = .running) : q = none := by
  cases h <;> first | rfl | simp at hst

theorem outcome_ne_none (h : Life R a st p q es) (ht : st.isTerminal = true) (hq : st = .skipped → q ≠ none) :
    q ≠ none := by
  cases h with
  | done | failed => simp
  | dropped | skipped => exact hq rfl
  | _ => cases ht

end Life

namespace NodeState

theorem settle_eq_skipped {st : NodeState} {v : Option Step} (h : st.settle v = .skipped) :
    st = .skipped ∨ st = .pending ∧ ∃ n d, v = some (.skip n d) := by
  cases st with
  | pending =>
    cases v with
    | none => cases h
    | some v =>
      cases v with
      | launch n => cases h
      | skip n d => exact .inr ⟨rfl, n, d, rfl⟩
  | skipped => exact .inl rfl
  | _ => cases h

theorem settle_eq_pending {st : NodeState} {v : Option Step} (h : st.settle v = .pending) :
    st = .pending ∧ (v = none ∨ ∃ n, v = some (.launch n)) := by
  cases st with
  | pending =>
    cases v with
    | none => exact ⟨rfl, .inl rfl⟩
    | some v =>
      cases v with
      | launch n => exact ⟨rfl, .inr ⟨n, rfl⟩⟩
      | skip n d => cases h
  | _ => cases h

end NodeState

namespace RunState

def told (s : RunState) (a : String) : List Event := s.events.filter fun e => e.task = a

theorem told_emit (s : RunState) (e : Event) (a : String) :
    (s.emit e).told a = if e.task = a then e :: s.told a else s.told a := by
  by_cases h : e.task = a <;> simp [told, emit, h]

theorem task_finalEvent (a : String) (o : Outcome) : (finalEvent a o).task = a := by
  unfold finalEvent
  cases o.result <;> rfl

theorem events_collect (s : RunState) (n : Nat) (o : Outcome) :
    (s.collect n o).events = finalEvent (s.taskName n) o :: s.events := by
  cases h : o.isSuccess <;> simp [collect, settle, record, emit, h]

theorem told_collect (s : RunState) (n : Nat) (o : Outcome) (a : String) : (s.collect n o).told a =
    if s.taskName n = a then finalEvent (s.taskName n) o :: s.told a else s.told a := by
  have hemit := s.told_emit (finalEvent (s.taskName n) o) a
  rw [task_finalEvent] at hemit
  rw [← hemit, told, told, events_collect]
  rfl

def Lives (R : String → Except TaskError String → Prop) (g : Graph) (s : RunState) (n : Nat) : Prop :=
  Life (R (g.name n)) (g.name n) (s.scheduler.state n) (s.phase? n) (s.outcomes.find? (g.name n)) (s.told (g.name n))

section
variable {R : String → Except TaskError String → Prop} {g : Graph} {s t : RunState} {n d : Nat}

theorem Lives.congr (h : s.Lives R g n) (hst : t.scheduler.state n = s.scheduler.state n)
    (hp : t.phase? n = s.phase? n) (ho : t.outcomes.find? (g.name n) = s.outcomes.find? (g.name n))
    (ht : t.told (g.name n) = s.told (g.name n)) : t.Lives R g n := by
  unfold Lives
  rw [hst, hp, ho, ht]
  exact h

/-! ## Steps of the coordinator -/

theorem lives_swept (hg : g.Sound) (hs : s.scheduler.Fits g) (hn : n < g.size) (h : s.Lives R g n) :
    s.swept.Lives R g n := by
  have hlife := h.settle (s.scheduler.scheduleNext.1.verdict n)
  rw [← (Scheduler.scheduleNext_spec hg hs).1 n hn] at hlife
  exact hlife

theorem phase?_launch (s : RunState) (now : Moment) (n m : Nat) :
    (s.take now (.launch n)).phase? m = (s.phase? m).or (if m = n then some .waiting else none) := by
  have h := lookup_waiting [n] m
  simp only [List.map_cons, List.map_nil, List.mem_singleton] at h
  rw [phase?, take, List.lookup_append, h]
  rfl

theorem state_launch (hs : s.scheduler.Fits g) (hn : n < g.size) (now : Moment) (m : Nat) :
    (s.take now (.launch n)).scheduler.state m = if m = n then .running else s.scheduler.state m := by
  apply Scheduler.state_markStarted
  rw [hs.size]
  exact hn

theorem lives_launch (hs : s.scheduler.Fits g) (hn : n < g.size) (hp : s.scheduler.state n = .pending) (now : Moment)
    {m : Nat} (h : s.Lives R g m) : (s.take now (.launch n)).Lives R g m := by
  have hstate := state_launch hs hn now m
  have hphase := s.phase?_launch now n m
  by_cases hmn : m = n
  · subst hmn
    unfold Lives at h ⊢
    have hnone : s.phase? m = none := h.phase_eq_none (by simp [hp])
    rw [hp] at h
    rw [hstate, hphase, hnone, if_pos rfl, if_pos rfl]
    exact h.launch
  · apply h.congr
    · simp [hstate, hmn]
    · simp [hphase, hmn]
    · rfl
    · rfl

theorem outcomes_skip (hname : ∀ k, s.taskName k = g.name k) (now : Moment) (k : String) :
    (s.take now (.skip n d)).outcomes.find? k =
      if k = g.name n then some ⟨.error (.dependencyFailed (g.name d)), none, now⟩ else s.outcomes.find? k := by
  rw [← hname, ← hname]
  exact NameMap.find?_insert _ _ _ _

theorem told_skip (hname : ∀ k, s.taskName k = g.name k) (now : Moment) (a : String) :
    (s.take now (.skip n d)).told a =
      if g.name n = a then .skipped (g.name n) (g.name d) :: s.told a else s.told a := by
  rw [← hname, ← hname]
  exact s.told_emit _ _

theorem lives_skip (hl : g.toLinks.Sound) (hname : ∀ k, s.taskName k = g.name k) (hn : n < g.size)
    (hk : s.scheduler.state n = .skipped) (ho : s.outcomes.find? (g.name n) = none) (now : Moment) {m : Nat}
    (hm : m < g.size) (h : s.Lives R g m) : (s.take now (.skip n d)).Lives R g m := by
  have hout := outcomes_skip (n := n) (d := d) hname now (g.name m)
  have htold := told_skip (n := n) (d := d) hname now (g.name m)
  by_cases hmn : m = n
  · subst hmn
    have hst : (s.take now (.skip m d)).scheduler.state m = .skipped := hk
    unfold Lives at h ⊢
    rw [hk, ho] at h
    rw [hst, hout, htold, if_pos rfl, if_pos rfl]
    exact h.skip rfl
  · have hne : g.name m ≠ g.name n := fun he => hmn (Links.name_inj hl hm hn he)
    apply h.congr
    · rfl
    · rfl
    · simp [hout, hne]
    · simp [htold, Ne.symm hne]

theorem lives_collect (hl : g.toLinks.Sound) (hname : ∀ k, s.taskName k = g.name k) (hn : n < g.size)
    (hr : s.scheduler.state n = .running) {o : Outcome} (hp : s.phase? n = some (.finished o)) {m : Nat}
    (hm : m < g.size) (h : s.Lives R g m) : (s.collect n o).Lives R g m := by
  have hstate := Scheduler.state_ended hr (if o.isSuccess then .done else .failed) m
  rw [← scheduler_collect] at hstate
  have hphase := phase?_collect s n o m
  have hout := outcomes_collect s n o (g.name m)
  have htold := told_collect s n o (g.name m)
  rw [hname] at hout htold
  by_cases hmn : m = n
  · subst hmn
    unfold Lives at h ⊢
    rw [hp] at h
    rw [hstate, hphase, hout, htold, if_pos rfl, if_pos rfl, if_pos rfl, if_pos rfl]
    exact h.collect
  · have hne : g.name m ≠ g.name n := fun he => hmn (Links.name_inj hl hm hn he)
    apply h.congr
    · simp [hstate, hmn]
    · simp [hphase, hmn]
    · simp [hout, hne]
    · simp [htold, Ne.symm hne]

/-! ## Steps of a worker -/

theorem told_begin (hname : ∀ k, s.taskName k = g.name k) (now : Moment) (a : String) :
    ((s.setPhase n (.working now)).emit (.started (s.taskName n))).told a =
      if g.name n = a then .started (g.name n) :: s.told a else s.told a := by
  rw [hname]
  exact told_emit _ _ _

theorem lives_begin (hl : g.toLinks.Sound) (hname : ∀ k, s.taskName k = g.name k) (hn : n < g.size)
    (hp : s.phase? n = some .waiting) (now : Moment) {m : Nat} (hm : m < g.size) (h : s.Lives R g m) :
    ((s.setPhase n (.working now)).emit (.started (s.taskName n))).Lives R g m := by
  have hphase : ((s.setPhase n (.working now)).emit (.started (s.taskName n))).phase? m = _ :=
    phase?_setPhase s n m (.working now)
  have htold := told_begin (n := n) hname now (g.name m)
  by_cases hmn : m = n
  · subst hmn
    unfold Lives at h ⊢
    rw [hp] at h hphase
    rw [hphase, htold, if_pos rfl, if_pos rfl]
    exact h.begin now
  · have hne : g.name m ≠ g.name n := fun he => hmn (Links.name_inj hl hm hn he)
    apply h.congr
    · rfl
    · rw [hphase, if_neg hmn]
    · rfl
    · rw [htold, if_neg (Ne.symm hne)]

theorem lives_finish {started : Moment} (hp : s.phase? n = some (.working started)) {o : Outcome}
    (hr : R (g.name n) o.result) {m : Nat} (h : s.Lives R g m) : (s.setPhase n (.finished o)).Lives R g m := by
  have hphase := phase?_setPhase s n m (.finished o)
  by_cases hmn : m = n
  · subst hmn
    unfold Lives at h ⊢
    rw [hp] at h hphase
    rw [hphase, if_pos rfl]
    exact h.finish hr
  · apply h.congr
    · rfl
    · simp [hphase, hmn]
    · rfl
    · rfl

end

end RunState

namespace OpenRun

/-! ## Steps still to be taken -/

/-- What the steps of a pass still stand for: the nodes to be launched are ready, those to be skipped are
decided but have no outcome yet, and any other pending node waits for something. -/
structure Owes (g : Graph) (s : RunState) (due : List Step) : Prop where
  startable : Scheduler.Startable g s.scheduler (Step.launches due)
  forward : (due.map Step.node).Pairwise fun a b => a ≠ b ∧ b ∉ g.preds a
  skips : ∀ n d, .skip n d ∈ due → n < g.size ∧ s.scheduler.state n = .skipped ∧
    s.outcomes.find? (g.name n) = none ∧ (g.preds n).find? (fun p => (s.scheduler.state p).isFailure) = some d
  dropped : ∀ n < g.size, s.scheduler.state n = .skipped → s.outcomes.find? (g.name n) = none →
    ∃ d, .skip n d ∈ due
  swept : s.turn ≠ .schedule → ∀ n < g.size, s.scheduler.state n = .pending →
    n ∈ Step.launches due ∨ ∃ p ∈ g.preds n, (s.scheduler.state p).isTerminal = false

section
variable {g : Graph} {s : RunState} {due : List Step} {n d : Nat}

theorem Owes.congr {t : RunState} (h : Owes g s due) (hsch : t.scheduler = s.scheduler)
    (ho : t.outcomes = s.outcomes) (ht : t.turn = s.turn) : Owes g t due := by
  refine ⟨?_, h.forward, ?_, ?_, ?_⟩
  · rw [hsch]
    exact h.startable
  · rw [hsch, ho]
    exact h.skips
  · rw [hsch, ho]
    exact h.dropped
  · rw [hsch, ht]
    exact h.swept

theorem owes_nil (hout : ∀ n < g.size, s.scheduler.state n = .skipped → s.outcomes.find? (g.name n) ≠ none)
    (hswept : s.turn ≠ .schedule → ∀ n < g.size, s.scheduler.state n = .pending →
      ∃ p ∈ g.preds n, (s.scheduler.state p).isTerminal = false) : Owes g s [] := by
  refine ⟨⟨.nil, by simp [Step.launches]⟩, .nil, by simp, fun n hn hk ho => ?_, fun ht n hn hp => ?_⟩
  · exact absurd ho (hout n hn hk)
  · exact .inr (hswept ht n hn hp)

theorem outcome_of_owes_nil (h : Owes g s []) (hn : n < g.size) (hk : s.scheduler.state n = .skipped) :
    s.outcomes.find? (g.name n) ≠ none := by
  intro ho
  obtain ⟨d, hd⟩ := h.dropped n hn hk ho
  cases hd

theorem owes_swept (hg : g.Sound) (hs : s.scheduler.Fits g)
    (hpend : ∀ n < g.size, s.scheduler.state n = .pending → s.outcomes.find? (g.name n) = none)
    (h : Owes g s []) : Owes g s.swept s.scheduler.scheduleNext.2 := by
  have hspec := (Scheduler.scheduleNext_spec hg hs).1
  have hgraph := (Scheduler.fits_scheduleNext hs).graph
  refine ⟨Scheduler.startable_scheduleNext hg hs, hg.forward.1.sublist (Scheduler.nodes_sublist hg hs),
    fun n d hd => ?_, fun n hn hk ho => ?_, fun _ n hn hp => ?_⟩
  · -- the pass has marked the task, and its outcome is still to come
    obtain ⟨hn, hp, hv⟩ : n < g.size ∧ s.scheduler.state n = .pending ∧
        s.scheduler.scheduleNext.1.verdict n = some (.skip n d) := (Scheduler.mem_steps hg hs).mp hd
    have hstate := hspec n hn
    obtain ⟨-, -, hfind⟩ := Scheduler.verdict_eq_skip.mp hv
    rw [hp, hv] at hstate
    rw [hgraph] at hfind
    exact ⟨hn, hstate, hpend n hn hp, hfind⟩
  · rw [RunState.swept, hspec n hn] at hk
    rcases NodeState.settle_eq_skipped hk with hs' | ⟨hp, m, d, hv⟩
    · have hno := outcome_of_owes_nil h hn hs'
      exact absurd ho hno
    · cases Scheduler.node_of_verdict hv
      exact ⟨d, (Scheduler.mem_steps hg hs).mpr ⟨hn, hp, hv⟩⟩
  · rw [RunState.swept, hspec n hn] at hp
    obtain ⟨hp, hv | ⟨m, hv⟩⟩ := NodeState.settle_eq_pending hp
    · rw [Scheduler.verdict_eq_none, hgraph] at hv
      exact .inr hv
    · cases Scheduler.node_of_verdict hv
      exact .inl ((Scheduler.mem_launches hg hs).mpr ⟨hn, hp, hv⟩)

theorem owes_launch (hs : s.scheduler.Sound g) (h : Owes g s (.launch n :: due)) (now : Moment) :
    Owes g (s.take now (.launch n)) due := by
  have hdue : Scheduler.Startable g s.scheduler (n :: Step.launches due) := h.startable
  obtain ⟨hn, hp, -⟩ := hdue.2 n List.mem_cons_self
  have hstate := RunState.state_launch hs.fits hn now
  refine ⟨(Scheduler.sound_markStarted hs hdue).2, (List.pairwise_cons.mp h.forward).2, fun m d hd => ?_,
    fun m hm hk ho => ?_, fun ht m hm hmp => ?_⟩
  · obtain ⟨hm, hk, ho, hfind⟩ := h.skips m d (List.mem_cons_of_mem _ hd)
    have hmn : m ≠ n := by
      intro he
      rw [he, hp] at hk
      cases hk
    -- `n` goes from pending to running, neither of which is a failure to blame
    refine ⟨hm, by rw [hstate, if_neg hmn, hk], ho, ?_⟩
    rw [← hfind]
    refine List.find?_congr fun q _ => ?_
    by_cases hq : q = n
    · simp [hstate, hq, hp, NodeState.isFailure]
    · simp [hstate, hq]
  · rw [hstate] at hk
    split at hk
    · cases hk
    · obtain ⟨d, hd⟩ := h.dropped m hm hk ho
      exact ⟨d, by simpa using hd⟩
  · rw [hstate] at hmp
    split at hmp
    · cases hmp
    · rename_i hmn
      rcases h.swept ht m hm hmp with hl | ⟨q, hq, hf⟩
      · rcases List.mem_cons.mp hl with hl | hl
        · exact absurd hl hmn
        · exact .inl hl
      · refine .inr ⟨q, hq, ?_⟩
        by_cases hqn : q = n
        · simp [hstate, hqn, NodeState.isTerminal]
        · simp [hstate, hqn, hf]

theorem owes_skip (hl : g.toLinks.Sound) (hname : ∀ k, s.taskName k = g.name k) (h : Owes g s (.skip n d :: due))
    (now : Moment) : Owes g (s.take now (.skip n d)) due := by
  have hn := (h.skips n d List.mem_cons_self).1
  obtain ⟨hhead, hforward⟩ := List.pairwise_cons.mp h.forward
  have hout := RunState.outcomes_skip (n := n) (d := d) hname now
  refine ⟨h.startable, hforward, fun m e he => ?_, fun m hm hk ho => ?_, h.swept⟩
  · obtain ⟨hm, hk, ho, hfind⟩ := h.skips m e (List.mem_cons_of_mem _ he)
    have hne : g.name m ≠ g.name n := by
      intro heq
      have hmn := Links.name_inj hl hm hn heq
      exact (hhead m (List.mem_map.mpr ⟨_, he, rfl⟩)).1 hmn.symm
    exact ⟨hm, hk, by rw [hout, if_neg hne, ho], hfind⟩
  · rw [hout] at ho
    split at ho
    · cases ho
    · rename_i hne
      obtain ⟨e, he⟩ := h.dropped m hm hk ho
      rcases List.mem_cons.mp he with he | he
      · cases he
        exact absurd rfl hne
      · exact ⟨e, he⟩

end

/-! ## The invariant -/

structure Sound (R : String → Except TaskError String → Prop) (g : Graph) (x : OpenRun) : Prop where
  scheduler : x.run.scheduler.Sound g
  distinct : x.run.nodes.Nodup
  within : ∀ n ∈ x.run.nodes, n < g.size
  lives : ∀ n < g.size, x.run.Lives R g n
  owes : Owes g x.run x.due
  idle : x.run.turn = .ended → x.run.workers = []
  settled : x.run.turn ≠ .collect → x.due = []

section
variable {R : String → Except TaskError String → Prop} {g : Graph} {s : RunState} {due : List Step} {n : Nat}

theorem sound_start (R : String → Except TaskError String → Prop) (g : Graph) : (start g).Sound R g := by
  have hnew : ∀ n, (start g).run.scheduler.state n = .pending := Scheduler.state_new g
  refine ⟨Scheduler.sound_new g, .nil, by simp [start, RunState.start, RunState.nodes], fun n _ => ?_,
    owes_nil (fun n _ h => ?_) fun h => absurd rfl h, fun _ => rfl, fun _ => rfl⟩
  · unfold RunState.Lives
    rw [hnew]
    exact .pending
  · rw [hnew] at h
    cases h

theorem taskName_eq (h : Sound R g ⟨s, due⟩) (n : Nat) : s.taskName n = g.name n := by
  rw [RunState.taskName, h.scheduler.fits.graph]

theorem lt_of_phase? (h : Sound R g ⟨s, due⟩) {p : Phase} (hp : s.phase? n = some p) : n < g.size :=
  h.within n (RunState.mem_nodes.mpr ⟨p, hp⟩)

theorem running_of_phase? (h : Sound R g ⟨s, due⟩) {p : Phase} (hp : s.phase? n = some p) :
    s.scheduler.state n = .running := by
  apply (h.lives n (lt_of_phase? h hp)).running
  simp [hp]

theorem sound_pass (hg : g.Sound) (h : Sound R g ⟨s, []⟩) :
    Sound R g ⟨s.swept, s.scheduler.scheduleNext.2⟩ := by
  have hfits := h.scheduler.fits
  refine ⟨Scheduler.sound_scheduleNext hg h.scheduler, h.distinct, h.within, fun n hn => ?_, ?_,
    fun he => (by cases he), fun he => absurd rfl he⟩
  · exact RunState.lives_swept hg hfits hn (h.lives n hn)
  · apply owes_swept hg hfits _ h.owes
    intro n hn hp
    exact (h.lives n hn).outcome_eq_none (.inl hp)

theorem not_mem_nodes (h : Sound R g ⟨s, due⟩) (hst : s.scheduler.state n ≠ .running) :
    n ∉ s.nodes := by
  intro hm
  obtain ⟨p, hp⟩ := RunState.mem_nodes.mp hm
  exact hst (running_of_phase? h hp)

theorem sound_launch (h : Sound R g ⟨s, .launch n :: due⟩) (now : Moment) :
    Sound R g ⟨s.take now (.launch n), due⟩ := by
  have hdue : Scheduler.Startable g s.scheduler (n :: Step.launches due) := h.owes.startable
  obtain ⟨hn, hp, -⟩ := hdue.2 n List.mem_cons_self
  have hnodes : (s.take now (.launch n)).nodes = s.nodes ++ [n] := List.map_append
  have hfree : n ∉ s.nodes := not_mem_nodes h (by simp [hp])
  have hcollect : s.turn = .collect := by
    by_cases ht : s.turn = .collect
    · exact ht
    · cases h.settled ht
  refine ⟨(Scheduler.sound_markStarted h.scheduler hdue).1, ?_, fun m hm => ?_, fun m hm => ?_,
    owes_launch h.scheduler h.owes now, fun he => ?_, fun he => absurd hcollect he⟩
  · rw [hnodes]
    refine List.nodup_append.mpr ⟨h.distinct, by simp, fun a ha b hb he => ?_⟩
    rw [List.mem_singleton.mp hb] at he
    exact hfree (he ▸ ha)
  · rw [hnodes] at hm
    rcases List.mem_append.mp hm with hm | hm
    · exact h.within m hm
    · rw [List.mem_singleton.mp hm]
      exact hn
  · exact RunState.lives_launch h.scheduler.fits hn hp now (h.lives m hm)
  · have he : s.turn = .ended := he
    rw [hcollect] at he
    cases he

theorem sound_skip {d : Nat} (hg : g.Sound) (h : Sound R g ⟨s, .skip n d :: due⟩) (now : Moment) :
    Sound R g ⟨s.take now (.skip n d), due⟩ := by
  obtain ⟨hn, hk, ho, -⟩ := h.owes.skips n d List.mem_cons_self
  have hname := taskName_eq h
  refine ⟨h.scheduler, h.distinct, h.within, fun m hm => ?_, owes_skip hg.links hname h.owes now, h.idle,
    fun he => (by cases h.settled he)⟩
  exact RunState.lives_skip hg.links hname hn hk ho now hm (h.lives m hm)

theorem sound_begin (hg : g.Sound) (h : Sound R g ⟨s, due⟩) (hp : s.phase? n = some .waiting) (now : Moment) :
    Sound R g ⟨(s.setPhase n (.working now)).emit (.started (s.taskName n)), due⟩ := by
  have hnodes : ((s.setPhase n (.working now)).emit (.started (s.taskName n))).nodes = s.nodes :=
    RunState.nodes_setPhase s n _
  refine ⟨h.scheduler, hnodes ▸ h.distinct, hnodes ▸ h.within, fun m hm => ?_, h.owes.congr rfl rfl rfl,
    fun he => RunState.workers_setPhase_nil n _ (h.idle he), h.settled⟩
  exact RunState.lives_begin hg.links (taskName_eq h) (lt_of_phase? h hp) hp now hm (h.lives m hm)

theorem sound_finish (h : Sound R g ⟨s, due⟩) {started : Moment} (hp : s.phase? n = some (.working started))
    {o : Outcome} (hr : R (g.name n) o.result) : Sound R g ⟨s.setPhase n (.finished o), due⟩ := by
  have hnodes : (s.setPhase n (.finished o)).nodes = s.nodes := RunState.nodes_setPhase s n _
  refine ⟨h.scheduler, hnodes ▸ h.distinct, hnodes ▸ h.within, fun m hm => ?_, h.owes.congr rfl rfl rfl,
    fun he => RunState.workers_setPhase_nil n _ (h.idle he), h.settled⟩
  exact RunState.lives_finish hp hr (h.lives m hm)

theorem sound_collect (hg : g.Sound) (h : Sound R g ⟨s, []⟩) {o : Outcome} (hp : s.phase? n = some (.finished o)) :
    Sound R g ⟨s.collect n o, []⟩ := by
  have hr := running_of_phase? h hp
  have hn := lt_of_phase? h hp
  have hmoves := RunState.moves_of_collect o
  have hnodes : (s.collect n o).nodes.Sublist s.nodes := List.filter_sublist.map _
  have hsch := RunState.scheduler_collect s n o
  refine ⟨?_, h.distinct.sublist hnodes, fun m hm => h.within m (hnodes.subset hm), fun m hm => ?_,
    owes_nil (fun m hm hk ho => ?_) fun he => absurd rfl he, fun he => (by cases he), fun _ => rfl⟩
  · rw [hsch]
    exact Scheduler.sound_ended h.scheduler hr hmoves
  · exact RunState.lives_collect hg.links (taskName_eq h) hn hr hp hm (h.lives m hm)
  · rw [RunState.outcomes_collect] at ho
    rw [hsch, Scheduler.state_ended hr] at hk
    split at ho
    · cases ho
    · split at hk
      · cases hs : o.isSuccess <;> simp [hs] at hk
      · exact outcome_of_owes_nil h.owes hm hk ho

theorem sound_close (h : Sound R g ⟨s, []⟩) (ht : s.turn = .collect) (hw : s.workers = []) :
    Sound R g ⟨{ s with turn := .ended }, []⟩ := by
  refine ⟨h.scheduler, h.distinct, h.within, h.lives, ?_, fun _ => hw, fun _ => rfl⟩
  have hswept := h.owes.swept (by simp [ht])
  exact ⟨h.owes.startable, h.owes.forward, h.owes.skips, h.owes.dropped, fun _ => hswept⟩

def Brings (R : String → Except TaskError String → Prop) (g : Graph) (m : Move) : Prop :=
  ∀ n r, m = .finish n r → R (g.name n) r

theorem brings_any (g : Graph) (m : Move) : Brings (fun _ _ => True) g m := by
  intro n r _
  trivial

theorem sound_moved (hg : g.Sound) {permits : Option Nat} {now : Moment} {m : Move} {x y : OpenRun}
    (hq : Brings R g m) (h : x.Sound R g) (hm : Moved permits now x m y) : y.Sound R g := by
  cases hm with
  | pass _ => exact sound_pass hg h
  | @take s st due =>
    cases st with
    | launch n => exact sound_launch h now
    | skip n d => exact sound_skip hg h now
  | acquire hp _ => exact sound_begin hg h hp now
  | finish hp => exact sound_finish h hp (hq _ _ rfl)
  | collect _ hp => exact sound_collect hg h hp
  | close ht hw => exact sound_close h ht hw

theorem sound_follow (hg : g.Sound) {permits : Option Nat} {ms : List (Moment × Move)} {x : OpenRun}
    (hms : ∀ m ∈ ms, Brings R g m.2) (h : (start g).follow? permits ms = some x) : x.Sound R g :=
  follow_invariant (fun _ _ _ _ hq hs hm => sound_moved hg hq hs hm) hms (sound_start R g) h

theorem follow_sound (hg : g.Sound) {permits : Option Nat} {P : OpenRun → Prop}
    (hstep : ∀ now x m y, x.Sound R g → P x → Moved permits now x m y → P y) (hstart : P (start g))
    {ms : List (Moment × Move)} {x : OpenRun} (hms : ∀ m ∈ ms, Brings R g m.2)
    (h : (start g).follow? permits ms = some x) : P x := by
  have hboth : ∀ now x m y, Brings R g m → x.Sound R g ∧ P x → Moved permits now x m y → y.Sound R g ∧ P y := by
    intro now x m y hq hx hm
    exact ⟨sound_moved hg hq hx.1 hm, hstep now x m y hx.1 hx.2 hm⟩
  exact (follow_invariant hboth hms ⟨sound_start R g, hstart⟩ h).2

theorem terminal_of_idle (hg : g.Sound) (h : Sound R g ⟨s, []⟩) (ht : s.turn ≠ .schedule) (hw : s.workers = []) :
    ∀ n < g.size, (s.scheduler.state n).isTerminal := by
  refine hg.induction fun n hn ih => ?_
  have hphase : s.phase? n = none := by simp [RunState.phase?, hw]
  have hlife := h.lives n hn
  unfold RunState.Lives at hlife
  rw [hphase] at hlife
  cases hs : s.scheduler.state n with
  | pending =>
    rcases h.owes.swept ht n hn hs with hl | ⟨p, hp, hf⟩
    · cases hl
    · rw [ih p hp] at hf
      cases hf
  | running =>
    rw [hs] at hlife
    cases hlife
  | _ => rfl

theorem outcome_of_idle (hg : g.Sound) (h : Sound R g ⟨s, []⟩) (ht : s.turn ≠ .schedule) (hw : s.workers = [])
    (hn : n < g.size) : s.outcomes.find? (g.name n) ≠ none := by
  have hterm := terminal_of_idle hg h ht hw n hn
  exact (h.lives n hn).outcome_ne_none hterm (outcome_of_owes_nil h.owes hn)

end

end OpenRun

end Casework
