import Casework.Proofs.Run.Invariant
import Mathlib

/-!
# The history of a node

What has happened to a node so far can be told from the state of the run. So along every course each node
is launched, begun, finished and collected, or else it is skipped, each of it once and in this order, and
the length of a course is fixed by how far the nodes have come.
-/

namespace Casework

/-! ## Passes seen by one node -/

theorem filter_node_filterMap {due : Nat → Option Step} (hdue : ∀ n st, due n = some st → st.node = n)
    {ns : List Nat} (hns : ns.Nodup) {n : Nat} (hn : n ∈ ns) :
    (ns.filterMap due).filter (fun st => st.node = n) = (due n).toList := by
  have hnone : ∀ ms : List Nat, n ∉ ms → (ms.filterMap due).filter (fun st => st.node = n) = [] := by
    intro ms hm
    rw [List.filter_eq_nil_iff]
    intro st hst
    obtain ⟨m, hmem, he⟩ := List.mem_filterMap.mp hst
    have hnode := hdue m st he
    simp only [decide_eq_true_eq, hnode]
    exact fun e => hm (e ▸ hmem)
  induction ns with
  | nil => cases hn
  | cons m ns ih =>
    obtain ⟨hm, hns⟩ := List.nodup_cons.mp hns
    rw [List.filterMap_cons]
    rcases List.mem_cons.mp hn with rfl | hn
    · cases hd : due n with
      | none => exact hnone ns hm
      | some st => simp [hdue n st hd, hnone ns hm]
    · have hne : m ≠ n := fun e => hm (e ▸ hn)
      cases hd : due m with
      | none => exact ih hns hn
      | some st => simp [hdue m st hd, hne, ih hns hn]

theorem Scheduler.steps_of_node {g : Graph} {s : Scheduler} (hg : g.Sound) (hs : s.Fits g) {n : Nat}
    (hn : n < g.size) : s.scheduleNext.2.filter (fun st => st.node = n) =
      (if s.state n = .pending then s.advance.verdict n else none).toList := by
  rw [(scheduleNext_spec hg hs).2, filter_node_filterMap ?_ (hg.perm.nodup_iff.mpr List.nodup_range)
    ((mem_order hg).mpr hn), verdict_advance hg hs]
  intro m st h
  split at h
  · exact node_of_verdict h
  · cases h

/-! ## Marks -/

/-- What can happen to a node in a run. It is begun when its worker has got a permit and dispatches the
task, and finished when the result is there. -/
inductive Mark where
  | launched
  | skipped
  | begun
  | finished
  | collected
  deriving DecidableEq, Repr

namespace RunState

def markOf : Step → Mark
  | .launch _ => .launched
  | .skip .. => .skipped

def marks (s : RunState) (n : Nat) : Move → List Mark
  | .schedule => (s.scheduler.scheduleNext.2.filter fun st => st.node = n).map markOf
  | .acquire k => if k = n then [.begun] else []
  | .finish k _ => if k = n then [.finished] else []
  | .collect k => if k = n then [.collected] else []
  | .close => []

def history (permits : Option Nat) (n : Nat) : RunState → List (Moment × Move) → List Mark
  | _, [] => []
  | s, (now, m) :: ms =>
    match s.step? permits now m with
    | some t => s.marks n m ++ history permits n t ms
    | none => []

def marksOf : NodeState → Option Phase → List Mark
  | .pending, _ => []
  | .skipped, _ => [.skipped]
  | .running, some (.working _) => [.launched, .begun]
  | .running, some (.finished _) => [.launched, .begun, .finished]
  | .running, _ => [.launched]
  | .done, _ | .failed, _ => [.launched, .begun, .finished, .collected]

theorem marksOf_prefix (st : NodeState) (p : Option Phase) :
    marksOf st p <+: [.skipped] ∨ marksOf st p <+: [.launched, .begun, .finished, .collected] := by
  unfold marksOf
  split
  · exact .inl List.nil_prefix
  · exact .inl List.prefix_rfl
  · exact .inr ⟨[.finished, .collected], rfl⟩
  · exact .inr ⟨[.collected], rfl⟩
  · exact .inr ⟨[.begun, .finished, .collected], rfl⟩
  · exact .inr List.prefix_rfl
  · exact .inr List.prefix_rfl

def passed (s : RunState) (n : Nat) : List Mark := marksOf (s.scheduler.state n) (s.phase? n)

section
variable {g : Graph} {s t : RunState} {permits : Option Nat}

theorem phase?_eq_none_of_pending (h : s.Sound g) {n : Nat} (hn : s.scheduler.state n = .pending) :
    s.phase? n = none := by
  cases hp : s.phase? n with
  | none => rfl
  | some p =>
    rw [running_of_phase? h hp] at hn
    cases hn

theorem passed_schedule (hg : g.Sound) (h : s.Sound g) (now : Moment) {n : Nat} (hn : n < g.size) :
    (s.schedule now).passed n = s.passed n ++ s.marks n .schedule := by
  have hfits := h.scheduler.fits
  have hstate := Scheduler.state_advance hg hfits hn
  have hphase := phase?_schedule s now n
  have hlaunch := Scheduler.mem_launches hg hfits (n := n)
  rw [← Scheduler.verdict_advance hg hfits] at hlaunch
  unfold passed
  rw [marks, Scheduler.steps_of_node hg hfits hn, scheduler_schedule, hstate, hphase]
  -- a pass acts on pending nodes only
  cases hs : s.scheduler.state n with
  | pending =>
    rw [phase?_eq_none_of_pending h hs, Option.none_or, if_pos rfl]
    cases hv : s.scheduler.advance.verdict n with
    | none => rfl
    | some st =>
      have hnode := Scheduler.node_of_verdict hv
      cases st with
      | launch m =>
        cases hnode
        rw [if_pos (hlaunch.mpr ⟨hn, hs, hv⟩)]
        rfl
      | skip m d => rfl
  | running =>
    obtain ⟨p, hp⟩ := mem_nodes.mp ((h.workers n).mpr hs)
    rw [hp, Option.some_or, if_neg (by simp)]
    exact (List.append_nil _).symm
  | _ => exact (List.append_nil _).symm

theorem passed_setPhase (h : s.Sound g) {k : Nat} {p q : Phase} (hk : s.phase? k = some p) {m : Mark}
    (hm : marksOf .running (some q) = marksOf .running (some p) ++ [m]) (n : Nat) :
    (s.setPhase k q).passed n = s.passed n ++ if k = n then [m] else [] := by
  have hr := running_of_phase? h hk
  rw [passed, phase?_setPhase]
  change marksOf (s.scheduler.state n) _ = _
  by_cases hkn : k = n
  · subst hkn
    rw [if_pos rfl, if_pos rfl, passed, hk, hr]
    exact hm
  · rw [if_neg (Ne.symm hkn), if_neg hkn, List.append_nil]
    rfl

theorem passed_collect (h : s.Sound g) {k : Nat} {o : Outcome} (hk : s.phase? k = some (.finished o)) (n : Nat) :
    (s.collect k o).passed n = s.passed n ++ if k = n then [.collected] else [] := by
  have hr := running_of_phase? h hk
  rw [passed, phase?_collect, scheduler_collect, Scheduler.state_ended hr]
  by_cases hkn : k = n
  · subst hkn
    rw [if_pos rfl, if_pos rfl, if_pos rfl, passed, hk, hr]
    cases o.isSuccess <;> rfl
  · rw [if_neg (Ne.symm hkn), if_neg (Ne.symm hkn), if_neg hkn, List.append_nil]
    rfl

theorem passed_moved (hg : g.Sound) (h : s.Sound g) {now : Moment} {m : Move} (hm : Moved permits now s m t)
    {n : Nat} (hn : n < g.size) : t.passed n = s.passed n ++ s.marks n m := by
  cases hm with
  | schedule _ => exact passed_schedule hg h now hn
  | acquire hp _ => exact passed_setPhase h hp rfl n
  | finish hp => exact passed_setPhase h hp rfl n
  | collect _ hp => exact passed_collect h hp n
  | close _ _ => exact (List.append_nil _).symm

theorem passed_follow (hg : g.Sound) {n : Nat} (hn : n < g.size) : ∀ {ms : List (Moment × Move)} {s t : RunState},
    s.Sound g → s.follow? permits ms = some t → t.passed n = s.passed n ++ history permits n s ms
  | [], s, t, _, h => by
    cases h
    exact (List.append_nil _).symm
  | (now, m) :: ms, s, t, hs, h => by
    rw [follow?] at h
    rw [history]
    cases hu : s.step? permits now m with
    | none =>
      rw [hu] at h
      cases h
    | some u =>
      rw [hu] at h
      have hm := moved_of_step? hu
      rw [passed_follow hg hn (sound_moved hg hs hm) h, passed_moved hg hs hm hn, List.append_assoc]

theorem history_start (hg : g.Sound) {n : Nat} (hn : n < g.size) {ms : List (Moment × Move)}
    (h : (start g).follow? permits ms = some s) : history permits n (start g) ms = s.passed n := by
  have hstart : (start g).passed n = [] := by
    rw [passed, start, Scheduler.state_new]
    rfl
  rw [passed_follow hg hn (sound_start g) h, hstart, List.nil_append]

/-! ## Lengths -/

def worth (g : Graph) (c : Mark → Nat) (s : RunState) : Nat :=
  ∑ n ∈ Finset.range g.size, ((s.passed n).map c).sum

def gain (c : Mark → Nat) : Move → Nat
  | .acquire _ => c .begun
  | .finish .. => c .finished
  | .collect _ => c .collected
  | .schedule | .close => 0

theorem sum_mark {c : Mark → Nat} {k : Nat} (hk : k < g.size) (m : Mark) :
    ∑ n ∈ Finset.range g.size, ((if k = n then [m] else []).map c).sum = c m := by
  rw [Finset.sum_eq_single_of_mem k (Finset.mem_range.mpr hk)]
  · simp
  · intro n _ hn
    rw [if_neg (Ne.symm hn)]
    rfl

theorem worth_moved (hg : g.Sound) (h : s.Sound g) {c : Mark → Nat} (hl : c .launched = 0) (hk : c .skipped = 0)
    {now : Moment} {m : Move} (hm : Moved permits now s m t) : worth g c t = worth g c s + gain c m := by
  have hsum : worth g c t = worth g c s + ∑ n ∈ Finset.range g.size, ((s.marks n m).map c).sum := by
    rw [worth, worth, ← Finset.sum_add_distrib]
    refine Finset.sum_congr rfl fun n hn => ?_
    rw [passed_moved hg h hm (Finset.mem_range.mp hn), List.map_append, List.sum_append]
  have hlt : ∀ {k p}, s.phase? k = some p → k < g.size := lt_of_phase? h
  rw [hsum]
  congr 1
  cases hm with
  | schedule _ =>
    refine Finset.sum_eq_zero fun n _ => List.sum_eq_zero fun x hx => ?_
    simp only [marks, List.mem_map] at hx
    obtain ⟨_, ⟨st, -, rfl⟩, rfl⟩ := hx
    cases st with
    | launch k => exact hl
    | skip k d => exact hk
  | acquire hp _ => exact sum_mark (hlt hp) _
  | finish hp => exact sum_mark (hlt hp) _
  | collect _ hp => exact sum_mark (hlt hp) _
  | close _ _ => exact Finset.sum_const_zero

theorem worth_le {c : Mark → Nat} {b : Nat} (hs : c .skipped ≤ b)
    (hb : c .launched + c .begun + c .finished + c .collected ≤ b) : worth g c s ≤ g.size * b := by
  have hle : ∀ n, ((s.passed n).map c).sum ≤ b := by
    intro n
    rcases marksOf_prefix (s.scheduler.state n) (s.phase? n) with hp | hp
    · have := (hp.sublist.map c).sum_le_sum fun _ _ => Nat.zero_le _
      simp only [List.map_cons, List.map_nil, List.sum_cons, List.sum_nil] at this
      exact this.trans hs
    · have := (hp.sublist.map c).sum_le_sum fun _ _ => Nat.zero_le _
      simp only [List.map_cons, List.map_nil, List.sum_cons, List.sum_nil] at this
      exact this.trans (by omega)
  have := Finset.sum_le_card_nsmul (Finset.range g.size) _ b fun n _ => hle n
  simpa [worth] using this

theorem worth_start {c : Mark → Nat} : worth g c (start g) = 0 := by
  refine Finset.sum_eq_zero fun n _ => ?_
  rw [passed, start, Scheduler.state_new]
  rfl

def Turns : Move → Turn → Turn → Prop
  | .schedule, a, b => a = .schedule ∧ b = .collect
  | .acquire _, a, b | .finish .., a, b => b = a
  | .collect _, a, b => a = .collect ∧ b = .schedule
  | .close, a, b => a = .collect ∧ b = .ended

theorem turns_moved {now : Moment} {m : Move} (hm : Moved permits now s m t) : Turns m s.turn t.turn := by
  cases hm with
  | schedule ht => exact ⟨ht, rfl⟩
  | acquire _ _ => rfl
  | finish _ => rfl
  | collect ht _ => exact ⟨ht, rfl⟩
  | close ht _ => exact ⟨ht, rfl⟩

theorem follow_countP (hg : g.Sound) {q : Move → Bool} {φ : RunState → Nat}
    (hstep : ∀ now s m t, s.Sound g → Moved permits now s m t → φ t = φ s + (q m).toNat) :
    ∀ {ms : List (Moment × Move)} {s t : RunState}, s.Sound g → s.follow? permits ms = some t →
      φ t = φ s + ms.countP fun x => q x.2
  | [], s, t, _, h => by
    cases h
    rfl
  | (now, m) :: ms, s, t, hs, h => by
    rw [follow?] at h
    split at h
    · rename_i u hu
      have hm := moved_of_step? hu
      rw [follow_countP hg hstep (sound_moved hg hs hm) h, hstep now s m u hs hm]
      simp only [List.countP_cons]
      cases q m
      · rfl
      · exact Nat.add_right_comm _ _ _
    · cases h

/-- If marks and turns have such a worth that each move of a kind adds one and the others nothing, the worth
of what has happened is the number of these moves. -/
theorem worth_eq_countP (hg : g.Sound) {q : Move → Bool} {c : Mark → Nat} {τ : Turn → Nat}
    (hl : c .launched = 0) (hk : c .skipped = 0) (hschedule : τ .collect = τ .schedule + (q .schedule).toNat)
    (hacquire : ∀ k, c .begun = (q (.acquire k)).toNat) (hfinish : ∀ k r, c .finished = (q (.finish k r)).toNat)
    (hcollect : ∀ k, τ .schedule + c .collected = τ .collect + (q (.collect k)).toNat)
    (hclose : τ .ended = τ .collect + (q .close).toNat) {ms : List (Moment × Move)}
    (h : (start g).follow? permits ms = some s) :
    worth g c s + τ s.turn = τ .schedule + ms.countP fun x => q x.2 := by
  -- a move changes what its node and the turn are worth by as much as it counts itself
  have hstep : ∀ now s m t, s.Sound g → Moved permits now s m t →
      worth g c t + τ t.turn = worth g c s + τ s.turn + (q m).toNat := by
    intro now s m t hs hm
    have ht := turns_moved hm
    rw [worth_moved hg hs hl hk hm]
    cases m with
    | schedule =>
      rw [ht.1, ht.2, gain]
      omega
    | acquire k => rw [ht, gain, hacquire k, Nat.add_right_comm]
    | finish k r => rw [ht, gain, hfinish k r, Nat.add_right_comm]
    | collect k =>
      have := hcollect k
      rw [ht.1, ht.2, gain]
      omega
    | close =>
      rw [ht.1, ht.2, gain]
      omega
  have hrun := follow_countP hg (φ := fun s => worth g c s + τ s.turn) hstep (sound_start g) h
  rw [worth_start, Nat.zero_add] at hrun
  exact hrun

def passWorth : Mark → Nat
  | .collected => 1
  | _ => 0

/-- A collection counts twice, as it gives the turn back to the pass. -/
def moveWorth : Mark → Nat
  | .launched | .skipped => 0
  | .begun | .finished => 1
  | .collected => 2

def turnWorth : Turn → Nat
  | .schedule => 0
  | .collect => 1
  | .ended => 2

def passes (ms : List (Moment × Move)) : Nat := ms.countP fun x => x.2 matches .schedule

theorem passes_le (hg : g.Sound) {ms : List (Moment × Move)} (h : (start g).follow? permits ms = some s) :
    passes ms ≤ g.size + 1 := by
  have hcount : worth g passWorth s + min 1 (turnWorth s.turn) = 0 + passes ms :=
    worth_eq_countP hg (q := fun m => m matches .schedule) (τ := fun t => min 1 (turnWorth t)) rfl rfl rfl
      (fun _ => rfl) (fun _ _ => rfl) (fun _ => rfl) rfl h
  have hle : worth g passWorth s ≤ g.size * 1 := worth_le (by decide) (by decide)
  omega

theorem length_le (hg : g.Sound) {ms : List (Moment × Move)} (h : (start g).follow? permits ms = some s) :
    ms.length ≤ 4 * g.size + 2 := by
  have hcount : worth g moveWorth s + turnWorth s.turn = 0 + ms.countP fun _ => true :=
    worth_eq_countP hg (q := fun _ => true) rfl rfl rfl (fun _ => rfl) (fun _ _ => rfl) (fun _ => rfl) rfl h
  have hle : worth g moveWorth s ≤ g.size * 4 := worth_le (by decide) (by decide)
  have hturn : turnWorth s.turn ≤ 2 := by cases s.turn <;> decide
  rw [List.countP_true] at hcount
  omega

end

end RunState

end Casework
