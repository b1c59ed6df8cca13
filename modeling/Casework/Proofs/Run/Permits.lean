import Casework.Proofs.Run.Life

/-!
# Permits

A worker waits for a permit before it works, and gives it back when it has finished, collected or not. So no
more workers work at once than there are permits, and what waits for a permit never waits for good: until all
tasks have outcomes somebody can move.
-/

namespace Casework

namespace RunState

def Within (permits : Option Nat) (s : RunState) : Prop := ∀ p, permits = some p → s.workingCount ≤ p

theorem countP_setPhase {ws : List (Nat × Phase)} (hd : (ws.map (·.1)).Nodup) {n : Nat} {p : Phase} (q : Phase)
    (h : ws.lookup n = some p) :
    (ws.map fun w => if w.1 = n then (n, q) else w).countP (fun w => w.2.isWorking) + p.isWorking.toNat =
      ws.countP (fun w => w.2.isWorking) + q.isWorking.toNat := by
  induction ws with
  | nil => cases h
  | cons w ws ih =>
    obtain ⟨k, r⟩ := w
    obtain ⟨hk, hd⟩ := List.nodup_cons.mp hd
    have htoNat : ∀ b : Bool, (if b = true then 1 else 0) = b.toNat := by decide
    by_cases hkn : k = n
    · subst hkn
      rw [List.lookup_cons_self] at h
      cases h
      -- the node has no second worker
      have hrest : ws.map (fun w => if w.1 = k then (k, q) else w) = ws := by
        refine (List.map_congr_left fun w hw => ?_).trans (List.map_id' ws)
        have hwk : w.1 ≠ k := fun he => hk (List.mem_map.mpr ⟨w, hw, he⟩)
        exact if_neg hwk
      rw [List.map_cons, if_pos rfl, hrest, List.countP_cons, List.countP_cons, htoNat, htoNat]
      dsimp only
      omega
    · have hne : (n == k) = false := beq_eq_false_iff_ne.mpr (Ne.symm hkn)
      rw [List.lookup_cons, hne] at h
      have hws := ih hd h
      rw [List.map_cons, if_neg hkn, List.countP_cons, List.countP_cons]
      omega

section
variable {permits : Option Nat} {s : RunState} {n : Nat}

theorem workingCount_setPhase (hd : s.nodes.Nodup) {p : Phase} (q : Phase) (h : s.phase? n = some p) :
    (s.setPhase n q).workingCount + p.isWorking.toNat = s.workingCount + q.isWorking.toNat :=
  countP_setPhase hd q h

theorem within_begin (hd : s.nodes.Nodup) (hp : s.phase? n = some .waiting) (hq : s.hasPermit permits = true)
    (now : Moment) : Within permits ((s.setPhase n (.working now)).emit (.started (s.taskName n))) := by
  intro p hpermits
  have hcount : (s.setPhase n (.working now)).workingCount + 0 = s.workingCount + 1 :=
    workingCount_setPhase hd (.working now) hp
  rw [hpermits] at hq
  have hfree : s.workingCount < p := of_decide_eq_true hq
  show (s.setPhase n (.working now)).workingCount ≤ p
  omega

theorem within_finish (hd : s.nodes.Nodup) {started : Moment} (hp : s.phase? n = some (.working started))
    (o : Outcome) (h : Within permits s) : Within permits (s.setPhase n (.finished o)) := by
  intro p hpermits
  have hcount : (s.setPhase n (.finished o)).workingCount + 1 = s.workingCount + 0 :=
    workingCount_setPhase hd (.finished o) hp
  have hle := h p hpermits
  omega

theorem within_take (now : Moment) (st : Step) (h : Within permits s) : Within permits (s.take now st) := by
  cases st with
  | launch n =>
    intro p hpermits
    have hcount : (s.take now (.launch n)).workingCount = s.workingCount := by
      simp [take, workingCount, Phase.isWorking]
    rw [hcount]
    exact h p hpermits
  | skip n d => exact h

theorem within_collect (n : Nat) (o : Outcome) (h : Within permits s) : Within permits (s.collect n o) := by
  intro p hpermits
  have hcount : (s.collect n o).workingCount ≤ s.workingCount := List.filter_sublist.countP_le
  exact hcount.trans (h p hpermits)

end

end RunState

namespace OpenRun

section
variable {R : String → Except TaskError String → Prop} {g : Graph} {permits : Option Nat} {x : OpenRun}

theorem within_moved {now : Moment} {m : Move} {y : OpenRun} (h : x.Sound R g) (hw : x.run.Within permits)
    (hm : Moved permits now x m y) : y.run.Within permits := by
  cases hm with
  | pass _ => exact hw
  | take => exact RunState.within_take now _ hw
  | acquire hp hq => exact RunState.within_begin h.distinct hp hq now
  | finish hp => exact RunState.within_finish h.distinct hp _ hw
  | collect _ _ => exact RunState.within_collect _ _ hw
  | close _ _ => exact hw

theorem within_follow (hg : g.Sound) {ms : List (Moment × Move)} (hms : ∀ m ∈ ms, Brings R g m.2)
    (h : (start g).follow? permits ms = some x) : x.run.Within permits := by
  have hstart : (start g).run.Within permits := fun p _ => Nat.zero_le p
  exact follow_sound hg (fun _ _ _ _ => within_moved) hstart hms h

def Enabled (permits : Option Nat) (x : OpenRun) (m : Move) : Prop := ∀ now, (x.step? permits now m).isSome = true

/-- The coordinator can go on with its passes, or a worker can begin, can finish with any result, or can be
collected. -/
def Live (permits : Option Nat) (x : OpenRun) : Prop :=
  x.Enabled permits .schedule ∨ (∃ n, x.Enabled permits (.acquire n)) ∨
    (∃ n, ∀ r, x.Enabled permits (.finish n r)) ∨ ∃ n, x.Enabled permits (.collect n)

theorem live_of_missing (hg : g.Sound) (cap : Option Nat) (h : x.Sound R g)
    (hmissing : ∃ n < g.size, x.run.outcomes.find? (g.name n) = none) : x.Live (RunState.permitsOf cap) := by
  obtain ⟨s, due⟩ := x
  cases due with
  | cons st due => exact .inl fun now => rfl
  | nil =>
    obtain ⟨n, hn, hnone⟩ := hmissing
    by_cases ht : s.turn = .schedule
    · refine .inl fun now => ?_
      simp [step?, ht]
    · have hw : s.workers ≠ [] := fun hw => outcome_of_idle hg h ht hw hn hnone
      have hcollect : s.turn = .collect := by
        cases hturn : s.turn with
        | schedule => exact absurd hturn ht
        | collect => rfl
        | ended => exact absurd (h.idle hturn) hw
      -- some worker can go on: one that waits gets a permit unless another one holds it
      rcases RunState.exists_worker h.distinct hw cap with ⟨n, hp, hq⟩ | ⟨n, started, hp⟩ | ⟨n, o, hp⟩
      · refine .inr (.inl ⟨n, fun now => ?_⟩)
        simp [step?, RunState.step?, hp, hq]
      · refine .inr (.inr (.inl ⟨n, fun r now => ?_⟩))
        simp [step?, RunState.step?, hp]
      · refine .inr (.inr (.inr ⟨n, fun now => ?_⟩))
        simp [step?, RunState.step?, hcollect, hp]

end

/-- In every state that a run comes to, whatever the workers bring, no more of them work at once than the cap
says, or one where it is zero; and until every task has an outcome the run is live. -/
theorem live_within_cap {tasks : NameMap Task} {g : Graph} (hb : Graph.build tasks = .ok g) {cap : Option Nat}
    {ms : List (Moment × Move)} {x : OpenRun} (hx : (start g).follow? (RunState.permitsOf cap) ms = some x) :
    (∀ m, cap = some m → x.run.workingCount ≤ max m 1) ∧
    ((∃ a ∈ tasks.keys, x.run.outcomes.find? a = none) → x.Live (RunState.permitsOf cap)) := by
  have hg := Graph.sound_build hb
  have hd := Graph.describes_build hb
  have hms : ∀ m ∈ ms, Brings (fun _ _ => True) g m.2 := fun m _ => brings_any g m.2
  refine ⟨fun m hm => ?_, fun ⟨a, ha, hnone⟩ => ?_⟩
  · have hwithin := within_follow hg hms hx
    rw [hm] at hwithin
    rw [Nat.max_comm]
    exact hwithin (max 1 m) rfl
  · obtain ⟨n, hn, rfl⟩ := (Graph.mem_keys_iff hd).mp ha
    exact live_of_missing hg cap (sound_follow hg hms hx) ⟨n, hn, hnone⟩

def forkContention : List (Moment × Move) :=
  [Move.schedule, .schedule, .acquire 1, .finish 1 (.ok ""), .collect 1, .schedule, .schedule, .acquire 0,
    .schedule].map (⟨0, 0⟩, ·)

theorem fork_live_within_cap : Graph.build Graph.fork = .ok Graph.forkGraph ∧ ∃ x,
    (start Graph.forkGraph).follow? (RunState.permitsOf (some 0)) forkContention = some x ∧
    (x.run.workers.map fun w => (w.1, w.2.isWaiting)) = [(0, false), (2, true)] ∧
    x.run.outcomes.find? "report" = none ∧ x.run.workingCount ≤ max 0 1 ∧ x.Live (RunState.permitsOf (some 0)) := by
  obtain ⟨x, hx, hstate⟩ := Option.map_eq_some_iff.mp (show
    ((start Graph.forkGraph).follow? (RunState.permitsOf (some 0)) forkContention).map
      (fun x => ((x.run.workers.map fun w => (w.1, w.2.isWaiting)), (x.run.outcomes.find? "report").isNone)) =
        some ([(0, false), (2, true)], true) by decide)
  obtain ⟨hworkers, hout⟩ := Prod.mk.inj hstate
  have hnone := Option.isNone_iff_eq_none.mp hout
  obtain ⟨hcap, hlive⟩ := live_within_cap Graph.build_fork hx
  exact ⟨Graph.build_fork, x, hx, hworkers, hnone, hcap 0 rfl, hlive ⟨"report", by decide, hnone⟩⟩

end OpenRun

end Casework
