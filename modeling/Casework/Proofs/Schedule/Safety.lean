import Casework.Proofs.Schedule.Pass
import Mathlib.Logic.Relation

/-!
# Safety of the scheduler

As long as every launch is started before anything else happens and only running nodes end, no node
runs before all its predecessors are done, none is skipped without a failure among them, none waits
longer than it must, and what is over stays as it is.
-/

namespace Casework

inductive NodeState.Moves : NodeState → NodeState → Prop
  | start : Moves .pending .running
  | skip : Moves .pending .skipped
  | finish : Moves .running .done
  | fail : Moves .running .failed

theorem NodeState.Moves.isTerminal_eq_false {a b : NodeState} (h : a.Moves b) : a.isTerminal = false := by
  cases h <;> rfl

namespace Scheduler

/-- One operation of a lawful use. The list holds the launches of the last pass that are still to be
started; the next pass, and the end of a node, wait for them. -/
inductive Use : Scheduler × List Nat → Scheduler × List Nat → Prop
  | pass (s : Scheduler) : Use (s, []) (s.scheduleNext.1, Step.launches s.scheduleNext.2)
  | start (s : Scheduler) (n : Nat) (due : List Nat) : Use (s, n :: due) (s.markStarted n, due)
  | finish (s : Scheduler) (n : Nat) : s.state n = .running → Use (s, []) (s.markDone n, [])
  | fail (s : Scheduler) (n : Nat) : s.state n = .running → Use (s, []) (s.markFailed n, [])

def Reached (g : Graph) (x : Scheduler × List Nat) : Prop := Relation.ReflTransGen Use (new g, []) x

/-! ## The invariant -/

structure Sound (g : Graph) (s : Scheduler) : Prop where
  fits : s.Fits g
  started : ∀ n, s.state n = .running ∨ s.state n = .done ∨ s.state n = .failed →
    ∀ p ∈ g.preds n, s.state p = .done
  skipped : ∀ n, s.state n = .skipped →
    (∀ p ∈ g.preds n, (s.state p).isTerminal) ∧ ∃ p ∈ g.preds n, (s.state p).isFailure
  active_sorted : s.active.Pairwise (· < ·)
  mem_active : ∀ n, n ∈ s.active ↔ s.state n = .running

structure Tracks (g : Graph) (s : Scheduler) : Prop where
  fits : s.Fits g
  active_sorted : s.active.Pairwise (· < ·)
  mem_active : ∀ n, n ∈ s.active ↔ s.state n = .running

theorem Sound.tracks {g : Graph} {s : Scheduler} (h : s.Sound g) : s.Tracks g :=
  ⟨h.fits, h.active_sorted, h.mem_active⟩

def Startable (g : Graph) (s : Scheduler) (due : List Nat) : Prop :=
  due.Nodup ∧ ∀ n ∈ due, n < g.size ∧ s.state n = .pending ∧ ∀ p ∈ g.preds n, s.state p = .done

theorem state_new (g : Graph) (n : Nat) : (new g).state n = .pending := by
  simp only [new, state, Array.getD_eq_getD_getElem?, Array.getElem?_replicate]
  split <;> rfl

theorem sound_new (g : Graph) : (new g).Sound g := by
  refine ⟨fits_new g, fun n h => ?_, fun n h => ?_, .nil, fun n => ?_⟩
  · rw [state_new] at h
    rcases h with h | h | h <;> cases h
  · rw [state_new] at h
    cases h
  · rw [state_new]
    simp [new]

section
variable {g : Graph} {s t : Scheduler}

theorem state_of_moves (hmoves : ∀ n, t.state n = s.state n ∨ (s.state n).Moves (t.state n)) {n : Nat}
    (h : (s.state n).isTerminal) : t.state n = s.state n := by
  rcases hmoves n with he | hm
  · exact he
  · rw [hm.isTerminal_eq_false] at h
    cases h

theorem Sound.of_moves (h : s.Sound g) (ht : t.Fits g)
    (hmoves : ∀ n, t.state n = s.state n ∨ (s.state n).Moves (t.state n))
    (hstart : ∀ n, s.state n = .pending → t.state n = .running → ∀ p ∈ g.preds n, t.state p = .done)
    (hskip : ∀ n, s.state n = .pending → t.state n = .skipped →
      (∀ p ∈ g.preds n, (t.state p).isTerminal) ∧ ∃ p ∈ g.preds n, (t.state p).isFailure)
    (hsorted : t.active.Pairwise (· < ·)) (hmem : ∀ n, n ∈ t.active ↔ t.state n = .running) :
    t.Sound g := by
  have hdone : ∀ p, s.state p = .done → t.state p = .done := fun p hp => by
    rw [state_of_moves hmoves (by rw [hp]; rfl), hp]
  have hkeep : ∀ p, (s.state p).isTerminal → t.state p = s.state p := fun p => state_of_moves hmoves
  refine ⟨ht, fun n hn => ?_, fun n hn => ?_, hsorted, hmem⟩
  · -- it has just been started, or it had been before the move
    have hs : s.state n = .pending ∧ t.state n = .running ∨
        (s.state n = .running ∨ s.state n = .done ∨ s.state n = .failed) := by
      rcases hmoves n with he | hm
      · rw [he] at hn
        exact .inr hn
      · generalize s.state n = a, t.state n = b at hn hm
        cases hm with
        | start => exact .inl ⟨rfl, rfl⟩
        | skip => rcases hn with hn | hn | hn <;> cases hn
        | finish => exact .inr (.inl rfl)
        | fail => exact .inr (.inl rfl)
    rcases hs with ⟨hp, hr⟩ | hs
    · exact hstart n hp hr
    · exact fun p hp => hdone p (h.started n hs p hp)
  · rcases hmoves n with he | hm
    · obtain ⟨hall, p, hp, hf⟩ := h.skipped n (he ▸ hn)
      refine ⟨fun q hq => ?_, p, hp, ?_⟩
      · rw [hkeep q (hall q hq)]
        exact hall q hq
      · rw [hkeep p (hall p hp)]
        exact hf
    · refine hskip n ?_ hn
      rw [hn] at hm
      generalize s.state n = a at hm
      cases hm
      rfl

/-! ## Operations -/

theorem moves_settle (st : NodeState) (v : Option Step) : st.settle v = st ∨ st.Moves (st.settle v) := by
  cases st with
  | pending =>
    cases v with
    | none => exact .inl rfl
    | some v =>
      cases v with
      | launch n => exact .inl rfl
      | skip n d => exact .inr .skip
  | _ => exact .inl rfl

theorem moves_scheduleNext (hg : g.Sound) (hs : s.Fits g) (n : Nat) :
    s.scheduleNext.1.state n = s.state n ∨ (s.state n).Moves (s.scheduleNext.1.state n) := by
  by_cases hn : n < g.size
  · rw [(scheduleNext_spec hg hs).1 n hn]
    exact moves_settle _ _
  · rw [state_of_le hs (Nat.not_lt.mp hn), state_of_le (fits_scheduleNext hs) (Nat.not_lt.mp hn)]
    exact .inl rfl

theorem running_of_scheduleNext (hg : g.Sound) (hs : s.Fits g) {n : Nat} :
    s.scheduleNext.1.state n = .running ↔ s.state n = .running := by
  rcases moves_scheduleNext hg hs n with he | hm
  · rw [he]
  · by_cases hn : n < g.size
    · rw [(scheduleNext_spec hg hs).1 n hn]
      cases s.state n with
      | pending => cases s.scheduleNext.1.verdict n with
        | none => exact iff_of_false (by simp [NodeState.settle]) (by simp)
        | some v => cases v <;> exact iff_of_false (by simp [NodeState.settle]) (by simp)
      | _ => rfl
    · rw [state_of_le hs (Nat.not_lt.mp hn), state_of_le (fits_scheduleNext hs) (Nat.not_lt.mp hn)]

theorem sound_scheduleNext (hg : g.Sound) (h : s.Sound g) : s.scheduleNext.1.Sound g := by
  have hfits := fits_scheduleNext h.fits
  have hactive : s.scheduleNext.1.active = s.active := (sweep_frame _ _).2.1
  refine h.of_moves hfits (moves_scheduleNext hg h.fits) (fun n hp hr => ?_) (fun n hp hk => ?_) ?_ fun n => ?_
  · -- a pass starts nothing by itself
    rw [running_of_scheduleNext hg h.fits, hp] at hr
    cases hr
  · have hn : n < g.size := lt_of_ne_pending hfits (by rw [hk]; simp)
    have hv := (scheduleNext_spec hg h.fits).1 n hn
    rw [hk, hp] at hv
    cases hd : s.scheduleNext.1.verdict n with
    | none =>
      rw [hd] at hv
      cases hv
    | some v =>
      rw [hd] at hv
      cases v with
      | launch m => cases hv
      | skip m d =>
        obtain ⟨-, hall, hfind⟩ := verdict_eq_skip.mp hd
        rw [hfits.graph] at hall hfind
        have hf := List.find?_some hfind
        exact ⟨hall, d, List.mem_of_find?_eq_some hfind, hf⟩
  · rw [hactive]
    exact h.active_sorted
  · rw [hactive, h.mem_active, running_of_scheduleNext hg h.fits]

theorem startable_scheduleNext (hg : g.Sound) (hs : s.Fits g) :
    Startable g s.scheduleNext.1 (Step.launches s.scheduleNext.2) := by
  refine ⟨nodup_launches hg hs, fun n hn => ?_⟩
  obtain ⟨hlt, -, hv⟩ := (mem_launches hg hs).mp hn
  have hd := (verdict_eq_launch.mp hv).2
  rw [(fits_scheduleNext hs).graph] at hd
  exact ⟨hlt, state_launched hg hs hn, hd⟩

theorem moves_markStarted (hs : s.Fits g) {n : Nat} (hn : n < g.size) (hp : s.state n = .pending) (m : Nat) :
    (s.markStarted n).state m = s.state m ∨ (s.state m).Moves ((s.markStarted n).state m) := by
  rw [state_markStarted (hs.size ▸ hn)]
  split
  · rename_i h
    rw [h, hp]
    exact .inr .start
  · exact .inl rfl

theorem fits_markStarted (hs : s.Fits g) (n : Nat) : (s.markStarted n).Fits g :=
  ⟨hs.graph, (size_setState s n _).trans hs.size⟩

theorem sound_markStarted (h : s.Sound g) {n : Nat} {due : List Nat} (hd : Startable g s (n :: due)) :
    (s.markStarted n).Sound g ∧ Startable g (s.markStarted n) due := by
  obtain ⟨hn, hp, hpn⟩ := hd.2 n List.mem_cons_self
  obtain ⟨hnd, hdue⟩ := List.nodup_cons.mp hd.1
  have hstate := state_markStarted (s := s) (h.fits.size ▸ hn)
  have hmoves := moves_markStarted h.fits hn hp
  have hdone : ∀ p, s.state p = .done → (s.markStarted n).state p = .done := fun p hq => by
    rw [state_of_moves hmoves (by rw [hq]; rfl), hq]
  constructor
  · refine h.of_moves (fits_markStarted h.fits n) hmoves (fun m hm hr => ?_) (fun m hm hk => ?_)
      (insertNode_sorted h.active_sorted) fun m => ?_
    · rw [hstate] at hr
      split at hr
      · rename_i he
        subst he
        exact fun p hpm => hdone p (hpn p hpm)
      · rw [hm] at hr
        cases hr
    · rw [hstate] at hk
      split at hk
      · cases hk
      · rw [hm] at hk
        cases hk
    · rw [hstate, markStarted, mem_insertNode, h.mem_active]
      by_cases hm : m = n <;> simp [hm]
  · refine ⟨hdue, fun m hm => ?_⟩
    obtain ⟨hlt, hmp, hpm⟩ := hd.2 m (List.mem_cons_of_mem _ hm)
    refine ⟨hlt, ?_, fun p hq => hdone p (hpm p hq)⟩
    rw [hstate, if_neg (fun e : m = n => hnd (e ▸ hm)), hmp]

def ended (s : Scheduler) (n : Nat) (st : NodeState) : Scheduler :=
  { s.setState n st with active := s.active.erase n }

theorem state_ended {n : Nat} (hr : s.state n = .running) (st : NodeState) (m : Nat) :
    (s.ended n st).state m = if m = n then st else s.state m := by
  have hn : n < s.states.size := by
    refine Classical.byContradiction fun hn => ?_
    rw [state_of_size_le (Nat.not_lt.mp hn)] at hr
    cases hr
  exact state_setState hn st m

theorem moves_ended {n : Nat} (hr : s.state n = .running) {st : NodeState}
    (hst : NodeState.Moves .running st) (m : Nat) :
    (s.ended n st).state m = s.state m ∨ (s.state m).Moves ((s.ended n st).state m) := by
  rw [state_ended hr]
  split
  · rename_i h
    rw [h, hr]
    exact .inr hst
  · exact .inl rfl

theorem sound_ended (h : s.Sound g) {n : Nat} (hr : s.state n = .running) {st : NodeState}
    (hst : NodeState.Moves .running st) : (s.ended n st).Sound g := by
  have hstate := state_ended hr st
  have hrun : st ≠ .running := by cases hst <;> simp
  refine h.of_moves ⟨h.fits.graph, (size_setState s n _).trans h.fits.size⟩ (moves_ended hr hst)
    (fun m hm hx => ?_) (fun m hm hx => ?_) (h.active_sorted.sublist List.erase_sublist) fun m => ?_
  · rw [hstate, if_neg (fun e => by rw [e, hr] at hm; cases hm), hm] at hx
    cases hx
  · rw [hstate, if_neg (fun e => by rw [e, hr] at hm; cases hm), hm] at hx
    cases hx
  · have hnd : s.active.Nodup := h.active_sorted.imp Nat.ne_of_lt
    rw [ended, hnd.mem_erase_iff, h.mem_active]
    change _ ↔ (s.ended n st).state m = .running
    rw [hstate]
    by_cases hm : m = n <;> simp [hm, hrun]

end

/-! ## Lawful use -/

section
variable {g : Graph} (hg : g.Sound)
include hg

omit hg in
theorem sound_startAll : ∀ {due : List Nat} {s : Scheduler}, s.Sound g → Startable g s due →
    (s.startAll due).Sound g
  | [], _, h, _ => h
  | _ :: _, _, h, hd => (sound_startAll (sound_markStarted h hd).1 (sound_markStarted h hd).2 :)

theorem sound_advance {s : Scheduler} (h : s.Sound g) : s.advance.Sound g :=
  sound_startAll (sound_scheduleNext hg h) (startable_scheduleNext hg h.fits)

theorem sound_use {x y : Scheduler × List Nat} (h : x.1.Sound g ∧ Startable g x.1 x.2) (hu : Use x y) :
    y.1.Sound g ∧ Startable g y.1 y.2 := by
  cases hu with
  | pass s => exact ⟨sound_scheduleNext hg h.1, startable_scheduleNext hg h.1.fits⟩
  | start s n due => exact sound_markStarted h.1 h.2
  | finish s n hr => exact ⟨sound_ended h.1 hr .finish, .nil, fun _ h => absurd h List.not_mem_nil⟩
  | fail s n hr => exact ⟨sound_ended h.1 hr .fail, .nil, fun _ h => absurd h List.not_mem_nil⟩

theorem moves_use {x y : Scheduler × List Nat} (h : x.1.Sound g ∧ Startable g x.1 x.2) (hu : Use x y)
    (n : Nat) : y.1.state n = x.1.state n ∨ (x.1.state n).Moves (y.1.state n) := by
  cases hu with
  | pass s => exact moves_scheduleNext hg h.1.fits n
  | start s m due =>
    obtain ⟨hm, hp, -⟩ := h.2.2 m List.mem_cons_self
    exact moves_markStarted h.1.fits hm hp n
  | finish s m hr => exact moves_ended hr .finish n
  | fail s m hr => exact moves_ended hr .fail n

theorem sound_reached {x : Scheduler × List Nat} (h : Reached g x) :
    x.1.Sound g ∧ Startable g x.1 x.2 := by
  induction h with
  | refl => exact ⟨sound_new g, .nil, fun _ h => absurd h List.not_mem_nil⟩
  | tail _ hu ih => exact sound_use hg ih hu

theorem state_of_terminal {x y : Scheduler × List Nat} (h : x.1.Sound g ∧ Startable g x.1 x.2)
    (hu : Relation.ReflTransGen Use x y) {n : Nat} (hn : (x.1.state n).isTerminal) :
    y.1.state n = x.1.state n := by
  have hxy : (y.1.Sound g ∧ Startable g y.1 y.2) ∧ y.1.state n = x.1.state n := by
    induction hu with
    | refl => exact ⟨h, rfl⟩
    | tail _ hu ih =>
      refine ⟨sound_use hg ih.1 hu, ?_⟩
      rw [state_of_moves (moves_use hg ih.1 hu) (by rw [ih.2]; exact hn), ih.2]
  exact hxy.2

omit hg in
theorem reached_startAll : ∀ {due : List Nat} {s : Scheduler}, Reached g (s, due) →
    Reached g (s.startAll due, [])
  | [], _, h => h
  | n :: due, s, h => (reached_startAll (h.tail (Use.start s n due)) :)

omit hg in
theorem reached_advance {s : Scheduler} (h : Reached g (s, [])) : Reached g (s.advance, []) :=
  reached_startAll (h.tail (.pass s))

theorem running_advance {s : Scheduler} (hs : s.Fits g) {n : Nat} : s.advance.state n = .running ↔
    n ∈ Step.launches s.scheduleNext.2 ∨ s.state n = .running := by
  rw [advance, state_startAll (lt_size_launches hg hs), ← running_of_scheduleNext hg hs]
  by_cases hn : n ∈ Step.launches s.scheduleNext.2 <;> simp [hn]

theorem state_advance_of_terminal {s : Scheduler} (hs : s.Fits g) {n : Nat} (h : (s.state n).isTerminal) :
    s.advance.state n = s.state n := by
  by_cases hn : n < g.size
  · rw [state_advance hg hs hn]
    generalize s.state n = a at h
    cases a <;> first | rfl | cases h
  · rw [state_of_le hs (Nat.not_lt.mp hn)] at h
    cases h

/-- Once the launches of a pass are started, exactly those nodes wait that have something to wait for. -/
theorem pending_advance_iff {s : Scheduler} (h : s.Sound g) {n : Nat} (hn : n < g.size) :
    s.advance.state n = .pending ↔ ∃ p ∈ g.preds n, (s.advance.state p).isTerminal = false := by
  have hgraph := (fits_advance h.fits).graph
  have hover : ∀ p, (s.state p).isTerminal → (s.advance.state p).isTerminal := fun p ht => by
    rw [state_advance_of_terminal hg h.fits ht]
    exact ht
  rw [state_advance hg h.fits hn]
  cases hs : s.state n with
  | pending =>
    rw [← hgraph, ← verdict_eq_none]
    cases s.advance.verdict n with
    | none => exact iff_of_true rfl rfl
    | some v => cases v <;> exact iff_of_false (by simp [NodeState.advance]) (by simp)
  | skipped =>
    refine iff_of_false (by simp [NodeState.advance]) fun ⟨p, hp, hf⟩ => ?_
    rw [hover p ((h.skipped n hs).1 p hp)] at hf
    cases hf
  | _ =>
    refine iff_of_false (by simp [NodeState.advance]) fun ⟨p, hp, hf⟩ => ?_
    rw [hover p (by rw [h.started n (by simp [hs]) p hp]; rfl)] at hf
    cases hf

end

theorem Tracks.allDone_iff {g : Graph} {s : Scheduler} (h : s.Tracks g) :
    s.allDone = true ↔ ∀ n < g.size, (s.state n).isTerminal := by
  have hall : s.states.all NodeState.isTerminal = true ↔ ∀ n < g.size, (s.state n).isTerminal := by
    rw [Array.all_eq_true, ← h.fits.size]
    refine forall₂_congr fun n hn => ?_
    simp [state, hn]
  rw [allDone, Bool.and_eq_true, hall, List.isEmpty_iff]
  refine and_iff_right_of_imp fun ht => List.eq_nil_iff_forall_not_mem.mpr fun n hn => ?_
  have hr := (h.mem_active n).mp hn
  have hover := ht n (lt_of_ne_pending h.fits (by rw [hr]; simp))
  rw [hr] at hover
  cases hover

theorem allDone_iff {g : Graph} {s : Scheduler} (h : s.Sound g) :
    s.allDone = true ↔ ∀ n < g.size, (s.state n).isTerminal := h.tracks.allDone_iff

/-- In every state of a lawful use: what runs or has run waited for all its predecessors to be done; what
is skipped has a failure among predecessors that are all over; when a pass has been made and its launches
are started, a node is pending just if it has a predecessor that is not over; and a state goes from
pending to running to its end, or from pending to skipped, and stays there. -/
theorem safe_of_reached {tasks : NameMap Task} {g : Graph} (hb : Graph.build tasks = .ok g)
    {s : Scheduler} {due : List Nat} (h : Reached g (s, due)) :
    (∀ n, s.state n = .running ∨ s.state n = .done ∨ s.state n = .failed →
      ∀ p ∈ g.preds n, s.state p = .done) ∧
    (∀ n, s.state n = .skipped → (∀ p ∈ g.preds n, (s.state p).isTerminal) ∧
      ∃ p ∈ g.preds n, s.state p = .failed ∨ s.state p = .skipped) ∧
    (due = [] → Reached g (s.advance, []) ∧ ∀ n < g.size,
      (s.advance.state n = .pending ↔ ∃ p ∈ g.preds n, ¬ (s.advance.state p).isTerminal)) ∧
    (∀ y, Use (s, due) y → ∀ n, y.1.state n = s.state n ∨ (s.state n).Moves (y.1.state n)) ∧
    ∀ y, Relation.ReflTransGen Use (s, due) y → ∀ n, (s.state n).isTerminal →
      y.1.state n = s.state n := by
  have hg := Graph.sound_build hb
  have hs := sound_reached hg h
  refine ⟨hs.1.started, fun n hn => ?_, fun hdue => ?_, fun y => moves_use hg hs, fun y hy n =>
    state_of_terminal hg hs hy⟩
  · obtain ⟨hall, p, hp, hf⟩ := hs.1.skipped n hn
    refine ⟨hall, p, hp, ?_⟩
    generalize s.state p = a at hf
    cases a with
    | failed => exact .inl rfl
    | skipped => exact .inr rfl
    | _ => cases hf
  · subst hdue
    refine ⟨reached_advance h, fun n hn => ?_⟩
    rw [pending_advance_iff hg hs.1 hn]
    simp only [Bool.not_eq_true]

theorem safe_after_failed_import : Graph.build Graph.fork = .ok Graph.forkGraph ∧
    Reached Graph.forkGraph ((new Graph.forkGraph).advance.markFailed 1, []) ∧
    (((new Graph.forkGraph).advance.markFailed 1).advance.state 3 = .pending ↔
      ∃ p ∈ Graph.forkGraph.preds 3,
        ¬ (((new Graph.forkGraph).advance.markFailed 1).advance.state p).isTerminal) := by
  have h : Reached Graph.forkGraph ((new Graph.forkGraph).advance.markFailed 1, []) :=
    (reached_advance .refl).tail (.fail _ 1 (by decide))
  exact ⟨Graph.build_fork, h, ((safe_of_reached Graph.build_fork h).2.2.1 rfl).2 3 (by decide)⟩

end Scheduler

end Casework
