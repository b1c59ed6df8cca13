import Casework.Run.State
import Casework.Proofs.Schedule.Safety

/-!
# Courses of a run

A course is a list of timed moves, each possible when it is made. All along it the workers are the
running nodes, the outcomes belong to the nodes that are over, and each outcome fits its node's state.
-/

namespace Casework.RunState

def follow? (permits : Option Nat) : RunState → List (Moment × Move) → Option RunState
  | s, [] => some s
  | s, (now, m) :: ms =>
    match s.step? permits now m with
    | some t => follow? permits t ms
    | none => none

def Obeys (f : String → Except TaskError String) (g : Graph) (m : Move) : Prop :=
  ∀ n r, m = .finish n r → r = f (g.name n)

inductive Moved (permits : Option Nat) (now : Moment) (s : RunState) : Move → RunState → Prop
  | schedule : s.turn = .schedule → Moved permits now s .schedule (s.schedule now)
  | acquire {n : Nat} : s.phase? n = some .waiting → s.hasPermit permits = true →
    Moved permits now s (.acquire n) ((s.setPhase n (.working now)).emit (.started (s.taskName n)))
  | finish {n : Nat} {r : Except TaskError String} {started : Moment} :
    s.phase? n = some (.working started) →
    Moved permits now s (.finish n r) (s.setPhase n (.finished ⟨r, some started, now⟩))
  | collect {n : Nat} {o : Outcome} : s.turn = .collect → s.phase? n = some (.finished o) →
    Moved permits now s (.collect n) (s.collect n o)
  | close : s.turn = .collect → s.workers = [] → Moved permits now s .close { s with turn := .ended }

theorem moved_of_step? {permits : Option Nat} {now : Moment} {s t : RunState} {m : Move}
    (h : s.step? permits now m = some t) : Moved permits now s m t := by
  cases m with
  | schedule =>
    simp only [step?] at h
    split at h
    · cases h
      exact .schedule (by assumption)
    · cases h
  | acquire n =>
    simp only [step?] at h
    split at h
    · rename_i hp
      split at h
      · cases h
        exact .acquire hp (by assumption)
      · cases h
    · cases h
  | finish n r =>
    simp only [step?] at h
    split at h
    · cases h
      exact .finish (by assumption)
    · cases h
  | collect n =>
    simp only [step?] at h
    split at h
    · cases h
      exact .collect (by assumption) (by assumption)
    · cases h
  | close =>
    simp only [step?] at h
    split at h
    · rename_i hc
      cases h
      exact .close hc.1 hc.2
    · cases h

/-- What holds at first and is kept by moves of a kind `Q` holds after every course of such moves. -/
theorem follow_invariant {permits : Option Nat} {P : RunState → Prop} {Q : Move → Prop}
    (hstep : ∀ now s m t, Q m → P s → Moved permits now s m t → P t) :
    ∀ {ms : List (Moment × Move)} {s t : RunState}, (∀ x ∈ ms, Q x.2) → P s →
      s.follow? permits ms = some t → P t
  | [], s, t, _, hs, h => by
    cases h
    exact hs
  | (now, m) :: ms, s, t, hq, hs, h => by
    rw [follow?] at h
    split at h
    · rename_i u hu
      have hu := hstep now s m u (hq _ List.mem_cons_self) hs (moved_of_step? hu)
      exact follow_invariant hstep (fun x hx => hq x (List.mem_cons_of_mem _ hx)) hu h
    · cases h

theorem follow?_append {permits : Option Nat} : ∀ {ms ms' : List (Moment × Move)} {s t : RunState},
    s.follow? permits ms = some t → s.follow? permits (ms ++ ms') = t.follow? permits ms'
  | [], _, s, t, h => by
    cases h
    rfl
  | (now, m) :: ms, ms', s, t, h => by
    rw [follow?] at h
    rw [List.cons_append, follow?]
    cases hu : s.step? permits now m with
    | none =>
      rw [hu] at h
      cases h
    | some u =>
      rw [hu] at h
      exact follow?_append h

/-! ## Workers -/

def nodes (s : RunState) : List Nat := s.workers.map (·.1)

theorem nodes_setPhase (s : RunState) (n : Nat) (p : Phase) : (s.setPhase n p).nodes = s.nodes := by
  simp only [nodes, setPhase, List.map_map]
  refine List.map_congr_left fun w _ => ?_
  by_cases h : w.1 = n <;> simp [h]

theorem lookup_setPhase (n m : Nat) (p : Phase) (ws : List (Nat × Phase)) :
    (ws.map fun w => if w.1 = n then (n, p) else w).lookup m =
      if m = n then (ws.lookup m).map fun _ => p else ws.lookup m := by
  induction ws with
  | nil => simp
  | cons w ws ih =>
    obtain ⟨k, q⟩ := w
    rw [List.map_cons]
    by_cases hk : k = n
    · subst hk
      by_cases hm : m = k
      · simp [hm]
      · simp [hm, List.lookup_cons, beq_eq_false_iff_ne.mpr hm, ih]
    · by_cases hm : m = k
      · subst hm
        simp [hk]
      · simp only [hk, if_false, List.lookup_cons, beq_eq_false_iff_ne.mpr hm, ih]

theorem phase?_setPhase (s : RunState) (n m : Nat) (p : Phase) : (s.setPhase n p).phase? m =
    if m = n then (s.phase? m).map fun _ => p else s.phase? m := lookup_setPhase n m p s.workers

theorem phase?_setPhase_cases {s : RunState} {n m : Nat} {p q : Phase} (h : (s.setPhase n p).phase? m = some q) :
    m = n ∧ q = p ∨ s.phase? m = some q := by
  rw [phase?_setPhase] at h
  split at h
  · obtain ⟨_, -, hq⟩ := Option.map_eq_some_iff.mp h
    exact .inl ⟨by assumption, hq.symm⟩
  · exact .inr h

theorem lookup_filter_ne (n m : Nat) (ws : List (Nat × Phase)) :
    (ws.filter fun w => w.1 ≠ n).lookup m = if m = n then none else ws.lookup m := by
  induction ws with
  | nil => simp
  | cons w ws ih =>
    obtain ⟨k, q⟩ := w
    by_cases hk : k = n
    · subst hk
      by_cases hm : m = k
      · simpa [hm] using ih
      · simpa [hm, List.lookup_cons, beq_eq_false_iff_ne.mpr hm] using ih
    · by_cases hm : m = k
      · subst hm
        simp [hk]
      · simpa [hk, List.lookup_cons, beq_eq_false_iff_ne.mpr hm] using ih

theorem mem_nodes {s : RunState} {n : Nat} : n ∈ s.nodes ↔ ∃ p, s.phase? n = some p := by
  unfold nodes phase?
  induction s.workers with
  | nil => simp
  | cons w ws ih =>
    obtain ⟨k, q⟩ := w
    by_cases hk : n = k
    · simp [hk]
    · rw [List.map_cons, List.mem_cons, List.lookup_cons, beq_eq_false_iff_ne.mpr hk, ih]
      simp [hk]

theorem lookup_waiting (ns : List Nat) (m : Nat) :
    (ns.map fun n => (n, Phase.waiting)).lookup m = if m ∈ ns then some .waiting else none := by
  induction ns with
  | nil => rfl
  | cons n ns ih =>
    rw [List.map_cons, List.lookup_cons, ih]
    by_cases h : m = n
    · simp [h]
    · simp [h, beq_eq_false_iff_ne.mpr h]

theorem exists_worker {s : RunState} (hd : s.nodes.Nodup) (hw : s.workers ≠ []) (cap : Option Nat) :
    (∃ n, s.phase? n = some .waiting ∧ s.hasPermit (permitsOf cap) = true) ∨
    (∃ n started, s.phase? n = some (.working started)) ∨ ∃ n o, s.phase? n = some (.finished o) := by
  obtain ⟨w, hw⟩ := List.exists_mem_of_ne_nil s.workers hw
  have hphase : s.phase? w.1 = some w.2 := NameMap.lookup_of_mem hd hw
  cases hwp : w.2 with
  | working started => exact .inr (.inl ⟨w.1, started, hwp ▸ hphase⟩)
  | finished o => exact .inr (.inr ⟨w.1, o, hwp ▸ hphase⟩)
  | waiting =>
    cases hp : s.hasPermit (permitsOf cap) with
    | true => exact .inl ⟨w.1, hwp ▸ hphase, rfl⟩
    | false =>
      -- somebody holds the permit that is missed
      have hpos : 0 < s.workingCount := by
        cases cap with
        | none => cases hp
        | some p =>
          simp only [permitsOf, Option.map_some, hasPermit, decide_eq_false_iff_not] at hp
          omega
      obtain ⟨v, hv, hwork⟩ := List.countP_pos_iff.mp hpos
      have hphase : s.phase? v.1 = some v.2 := NameMap.lookup_of_mem hd hv
      cases hvp : v.2 with
      | working started => exact .inr (.inl ⟨v.1, started, hvp ▸ hphase⟩)
      | _ =>
        rw [hvp] at hwork
        cases hwork

/-! ## Passes -/

def takeAll (now : Moment) (s : RunState) (steps : List Step) : RunState := steps.foldl (take now) s

theorem takeAll_cons (now : Moment) (s : RunState) (st : Step) (steps : List Step) :
    takeAll now s (st :: steps) = takeAll now (take now s st) steps := rfl

theorem scheduler_takeAll (now : Moment) : ∀ (steps : List Step) (s : RunState),
    (takeAll now s steps).scheduler = s.scheduler.startAll (Step.launches steps)
  | [], _ => rfl
  | .launch _ :: steps, s => by
    rw [takeAll_cons, scheduler_takeAll now steps]
    rfl
  | .skip _ _ :: steps, s => by
    rw [takeAll_cons, scheduler_takeAll now steps]
    rfl

theorem workers_takeAll (now : Moment) : ∀ (steps : List Step) (s : RunState),
    (takeAll now s steps).workers = s.workers ++ (Step.launches steps).map fun n => (n, .waiting)
  | [], s => (List.append_nil _).symm
  | .launch n :: steps, s => by
    rw [takeAll_cons, workers_takeAll now steps]
    exact List.append_assoc _ _ _
  | .skip _ _ :: steps, s => by
    rw [takeAll_cons, workers_takeAll now steps]
    rfl

def skipOutcome (s : RunState) (now : Moment) (d : Nat) : Outcome :=
  ⟨.error (.dependencyFailed (s.taskName d)), none, now⟩

theorem outcomes_takeAll (now : Moment) (k : String) : ∀ (steps : List Step) (s : RunState),
    (∃ n d, .skip n d ∈ steps ∧ s.taskName n = k ∧
      (takeAll now s steps).outcomes.find? k = some (s.skipOutcome now d)) ∨
    (∀ n d, .skip n d ∈ steps → s.taskName n ≠ k) ∧
      (takeAll now s steps).outcomes.find? k = s.outcomes.find? k
  | [], s => .inr ⟨fun _ _ h => absurd h List.not_mem_nil, rfl⟩
  | st :: steps, s => by
    have hname : (take now s st).taskName = s.taskName := by cases st <;> rfl
    have hskip : (take now s st).skipOutcome now = s.skipOutcome now := by
      funext d
      simp only [skipOutcome, hname]
    have ih := outcomes_takeAll now k steps (take now s st)
    rw [takeAll_cons]
    rw [hname, hskip] at ih
    rcases ih with ⟨n, d, hm, hn, hf⟩ | ⟨hno, hf⟩
    · exact .inl ⟨n, d, List.mem_cons_of_mem _ hm, hn, hf⟩
    · cases st with
      | launch m =>
        refine .inr ⟨fun n d h => ?_, hf⟩
        rcases List.mem_cons.mp h with h | h
        · cases h
        · exact hno n d h
      | skip m d =>
        have hins : (take now s (.skip m d)).outcomes.find? k =
            if k = s.taskName m then some (s.skipOutcome now d) else s.outcomes.find? k :=
          NameMap.find?_insert _ _ _ _
        rw [hins] at hf
        -- no later step of the pass records `k` again
        by_cases hk : s.taskName m = k
        · exact .inl ⟨m, d, List.mem_cons_self, hk, by rw [hf, if_pos hk.symm]⟩
        · refine .inr ⟨fun n e h => ?_, by rw [hf, if_neg (Ne.symm hk)]⟩
          rcases List.mem_cons.mp h with h | h
          · cases h
            exact hk
          · exact hno n e h

theorem scheduler_schedule (s : RunState) (now : Moment) :
    (s.schedule now).scheduler = s.scheduler.advance := scheduler_takeAll now _ _

theorem nodes_schedule (s : RunState) (now : Moment) :
    (s.schedule now).nodes = s.nodes ++ Step.launches s.scheduler.scheduleNext.2 := by
  have hw : (s.schedule now).workers = s.workers ++
      (Step.launches s.scheduler.scheduleNext.2).map fun n => (n, .waiting) := workers_takeAll now _ _
  simp [nodes, hw, Function.comp_def]

theorem phase?_schedule (s : RunState) (now : Moment) (m : Nat) : (s.schedule now).phase? m =
    (s.phase? m).or (if m ∈ Step.launches s.scheduler.scheduleNext.2 then some .waiting else none) := by
  have hw : (s.schedule now).workers = s.workers ++
      (Step.launches s.scheduler.scheduleNext.2).map fun n => (n, .waiting) := workers_takeAll now _ _
  rw [phase?, hw, List.lookup_append, lookup_waiting]
  rfl

end Casework.RunState
