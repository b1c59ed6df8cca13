import Casework.Proofs.Backend.Results
import Casework.Proofs.Run.Timeline

/-!
# How workers wait

Work that is carried on comes to its end or to a wait, and after each wait there is less to wait for. A plugin waits
no more often than it has steps, and other work no more often than it runs processes.
-/

namespace Casework

/-! ## How often work waits -/

namespace Work

/-- The work waits at most `n` times, whatever it is answered. -/
def Within : Work → Nat → Prop
  | finish _, _ => True
  | check _ next, n => ∀ found, Within (next found) n
  | process _ next, n => ∃ m < n, ∀ r, Within (next r) m
  | call p next, n => p.length ≤ n ∧ ∀ e, Within (next e) (n - p.length)

theorem Within.mono {w : Work} {m n : Nat} (h : w.Within m) (hmn : m ≤ n) : w.Within n := by
  induction w generalizing m n with
  | finish _ => trivial
  | check c next ih => exact fun found => ih found (h found) hmn
  | process i next ih =>
    obtain ⟨k, hk, hnext⟩ := h
    exact ⟨k, by omega, hnext⟩
  | call p next ih => exact ⟨h.1.trans hmn, fun e => ih e (h.2 e) (by omega)⟩

end Work

namespace Timeline

theorem le_foldl_max (l : List Nat) (b : Nat) : b ≤ l.foldl max b ∧ ∀ n ∈ l, n ≤ l.foldl max b := by
  induction l generalizing b with
  | nil => exact ⟨le_rfl, fun _ h => absurd h List.not_mem_nil⟩
  | cons k l ih =>
    obtain ⟨hb, hl⟩ := ih (max b k)
    rw [List.foldl_cons]
    refine ⟨(le_max_left b k).trans hb, fun n hn => ?_⟩
    rcases List.mem_cons.mp hn with rfl | hn
    · exact (le_max_right b n).trans hb
    · exact hl n hn

theorem two_le_waitLimit (r : Registry) : 2 ≤ waitLimit r := (le_foldl_max _ 2).1

theorem length_le_waitLimit {r : Registry} {name : String} {p : Plugin} (h : r.find? name = some p) :
    p.length ≤ waitLimit r :=
  (le_foldl_max _ 2).2 _ (List.mem_map_of_mem (NameMap.find?_eq_some.mp h))

end Timeline

namespace Context

variable (c : Context) (t : Task)

theorem within_process (i : Invocation) (f : Capture → Except TaskError String) {n : Nat} (hn : 0 < n) :
    (Work.process i fun r => .finish (f r)).Within n := ⟨0, hn, fun _ => trivial⟩

theorem within_pluginWork : (c.pluginWork t).Within (Timeline.waitLimit c.plugins) := by
  have htwo := Timeline.two_le_waitLimit c.plugins
  unfold pluginWork
  split
  · rename_i p hp
    exact ⟨Timeline.length_le_waitLimit hp, fun _ => trivial⟩
  · split
    · trivial
    · intro found
      cases found with
      | true => exact within_process _ _ (by omega)
      | false => trivial

theorem within_scriptWork : (c.scriptWork t).Within 1 := by
  intro found
  dsimp only
  split
  · exact within_process _ _ Nat.one_pos
  · trivial

theorem within_dockerWork : (c.dockerWork t).Within 1 := by
  unfold dockerWork
  split
  · trivial
  · exact within_process _ _ Nat.one_pos

theorem within_dockerfileWork : (c.dockerfileWork t).Within 2 := by
  unfold dockerfileWork buildWork
  split
  · trivial
  · intro found
    dsimp only
    split
    · refine ⟨1, by decide, fun r => ?_⟩
      cases r with
      | ok _ => exact within_process _ _ Nat.one_pos
      | error _ => trivial
    · trivial

theorem within_dispatch : (c.dispatch t).Within (Timeline.waitLimit c.plugins) := by
  have htwo := Timeline.two_le_waitLimit c.plugins
  unfold dispatch
  cases t.kind with
  | error e => trivial
  | ok k =>
    cases k with
    | plugin => exact c.within_pluginWork t
    | script => exact (c.within_scriptWork t).mono (by omega)
    | docker => exact (c.within_dockerWork t).mono (by omega)
    | dockerfile => exact (c.within_dockerfileWork t).mono htwo

end Context

namespace Timeline

inductive Costs : List Wait → Nat → Prop
  | nil : Costs [] 0
  | cons {w : Wait} {ws : List Wait} {m n : Nat} : w.rest.Within m → w.late.Within m → Costs ws n →
    Costs (w :: ws) (m + 1 + n)

theorem Costs.concat {ws : List Wait} {w : Wait} {m n : Nat} (h : Costs ws n) (hrest : w.rest.Within m)
    (hlate : w.late.Within m) : Costs (ws ++ [w]) (n + (m + 1)) := by
  induction h with
  | nil =>
    rw [Nat.zero_add]
    exact .cons hrest hlate .nil
  | cons hr hl _ ih =>
    rw [Nat.add_assoc]
    exact .cons hr hl ih

theorem Costs.remove {as bs : List Wait} {w : Wait} {n : Nat} (h : Costs (as ++ w :: bs) n) :
    ∃ m k, w.rest.Within m ∧ w.late.Within m ∧ Costs (as ++ bs) k ∧ n = m + 1 + k := by
  induction as generalizing n with
  | nil =>
    obtain - | @⟨_, _, m, k, hrest, hlate, hbs⟩ := h
    exact ⟨m, k, hrest, hlate, hbs, rfl⟩
  | cons a as ih =>
    obtain - | @⟨_, _, i, j, hrest, hlate, hrem⟩ := h
    obtain ⟨m, k, hr, hl, hk, rfl⟩ := ih hrem
    exact ⟨m, i + 1 + k, hr, hl, .cons hrest hlate hk, by omega⟩

/-! ## Workers that are carried on -/

structure Steady (x y : Timeline) : Prop where
  runner : y.runner = x.runner
  tasks : y.tasks = x.tasks
  run : y.run = x.run
  now : y.now = x.now
  groups : ∀ group, x.groupSize group ≤ y.groupSize group

theorem Steady.trans {x y z : Timeline} (h : x.Steady y) (h' : y.Steady z) : x.Steady z :=
  ⟨h'.runner.trans h.runner, h'.tasks.trans h.tasks, h'.run.trans h.run, h'.now.trans h.now,
    fun group => (h.groups group).trans (h'.groups group)⟩

theorem steady_of_groups {x y : Timeline} (hr : y.runner = x.runner) (ht : y.tasks = x.tasks) (hrun : y.run = x.run)
    (hn : y.now = x.now) (hg : y.groups = x.groups) : x.Steady y :=
  ⟨hr, ht, hrun, hn, fun group => by rw [groupSize, groupSize, hg]⟩

theorem steady_join (x : Timeline) (host : Host) (group : String) (ws : List Wait) : x.Steady { x with
    host, groups := x.groups.insert group (x.groupSize group + 1), waits := ws } := by
  refine ⟨rfl, rfl, rfl, rfl, fun other => ?_⟩
  unfold groupSize
  rw [NameMap.find?_insert]
  split
  · subst other
    exact Nat.le_succ _
  · exact le_rfl

/-- Work of which the results are in `Q` is carried on from `x` to its end, or to a wait that is not its last of
`n`. -/
inductive Driven (node : Nat) (Q : Except TaskError String → Prop) (n : Nat) (x : Timeline) : Timeline → Prop
  | finished {y : Timeline} {r : Except TaskError String} : x.Steady y → y.waits = x.waits → Q r →
    Driven node Q n x (y.move (.finish node r))
  | waits {y : Timeline} {v : Wait} {m : Nat} : x.Steady y → y.waits = x.waits ++ [v] → v.node = node → m < n →
    v.rest.Within m → v.late.Within m → (∀ r, v.rest.Yields r ∨ v.late.Yields r → Q r) → Driven node Q n x y

section
variable {x y z : Timeline} {node m n : Nat} {Q Q' : Except TaskError String → Prop}

theorem Driven.after (h : Driven node Q m y z) (hxy : x.Steady y) (hw : y.waits = x.waits) (hQ : ∀ r, Q r → Q' r)
    (hmn : m ≤ n) : Driven node Q' n x z := by
  cases h with
  | finished hyz hwaits hr => exact .finished (hxy.trans hyz) (hwaits.trans hw) (hQ _ hr)
  | waits hyz hwaits hnode hlt hrest hlate hyields =>
    exact .waits (hxy.trans hyz) (by rw [hwaits, hw]) hnode (hlt.trans_le hmn) hrest hlate
      fun r hr => hQ r (hyields r hr)

theorem proceed_spec (node : Nat) (next : PluginEnd → Work) : ∀ (p : Plugin) (x : Timeline) {n : Nat},
    (Work.call p next).Within n →
    (∃ y e, x.proceed node next p = (y, some e) ∧ x.Steady y ∧ y.waits = x.waits) ∨
    (∃ y, x.proceed node next p = (y, none) ∧ Driven node (Work.call p next).Yields n x y)
  | [], x, n, _ => .inl ⟨x, .ok, rfl, steady_of_groups rfl rfl rfl rfl rfl, rfl⟩
  | s :: p, x, n, h => by
    obtain ⟨hlength, hnext⟩ := h
    rw [List.length_cons] at hlength hnext
    have hrest : (Work.call p next).Within (n - 1) :=
      ⟨by omega, fun e => (hnext e).mono (by omega)⟩
    rw [proceed]
    cases hs : s.perform x.host x.runner.context.store with
    | mk host e =>
      have hx : x.Steady { x with host } := steady_of_groups rfl rfl rfl rfl rfl
      cases e with
      | next =>
        rcases proceed_spec node next p { x with host } hrest with ⟨y, e, hy, hsteady, hw⟩ | ⟨y, hy, hdriven⟩
        · exact .inl ⟨y, e, hy, hx.trans hsteady, hw⟩
        · exact .inr ⟨y, hy, hdriven.after hx rfl (fun _ h => h) (Nat.sub_le _ _)⟩
      | ended e => exact .inl ⟨_, e, rfl, hx, rfl⟩
      | sleeps ms =>
        refine .inr ⟨_, rfl, .waits (m := n - 1) (steady_of_groups rfl rfl rfl rfl rfl) rfl rfl (by omega) hrest hrest ?_⟩
        rintro r (hr | hr) <;> exact hr
      | gathers group members timeout =>
        have hlate : (next (.failed [timeoutText])).Within (n - 1) := (hnext _).mono (by omega)
        refine .inr ⟨_, rfl, .waits (m := n - 1) (steady_join x host group _) rfl rfl (by omega) hrest hlate ?_⟩
        rintro r (hr | hr)
        · exact hr
        · exact ⟨_, hr⟩

theorem drive_spec (node : Nat) : ∀ (w : Work) (x : Timeline) {n : Nat}, w.Within n →
    Driven node w.Yields n x (x.drive node w)
  | .finish r, x, n, _ => .finished (steady_of_groups rfl rfl rfl rfl rfl) rfl rfl
  | .check c next, x, n, h =>
    (drive_spec node (next _) x (h _)).after (steady_of_groups rfl rfl rfl rfl rfl) rfl (fun _ hr => ⟨_, hr⟩) le_rfl
  | .process i next, x, n, h => by
    obtain ⟨m, hm, hnext⟩ := h
    refine .waits (m := m) (steady_of_groups rfl rfl rfl rfl rfl) rfl rfl hm (hnext _) (hnext _) ?_
    rintro r (hr | hr) <;> exact ⟨_, hr⟩
  | .call p next, x, n, h => by
    rw [drive]
    rcases proceed_spec node next p x h with ⟨y, e, hy, hsteady, hw⟩ | ⟨y, hy, hdriven⟩
    · rw [hy]
      exact (drive_spec node (next e) y (h.2 e)).after hsteady hw (fun _ hr => ⟨e, hr⟩) (Nat.sub_le _ _)
    · rw [hy]
      exact hdriven

end

/-! ## What is due -/

theorem firstDue?_eq_some {x : Timeline} {w : Wait} : ∀ {ws rest : List Wait}, x.firstDue? ws = some (w, rest) →
    x.isDue w = true ∧ ∃ as bs, ws = as ++ w :: bs ∧ rest = as ++ bs
  | [], _, h => by cases h
  | v :: ws, rest, h => by
    rw [firstDue?] at h
    split at h
    · cases h
      exact ⟨by assumption, [], ws, rfl, rfl⟩
    · obtain ⟨⟨w', rest'⟩, hfirst, heq⟩ := Option.map_eq_some_iff.mp h
      cases heq
      obtain ⟨hdue, as, bs, rfl, rfl⟩ := firstDue?_eq_some hfirst
      exact ⟨hdue, v :: as, bs, rfl, rfl⟩

theorem isSome_firstDue? (x : Timeline) (ws : List Wait) : (x.firstDue? ws).isSome = ws.any x.isDue := by
  induction ws with
  | nil => rfl
  | cons w ws ih =>
    rw [firstDue?, List.any_cons]
    split
    · rename_i hw
      rw [hw]
      rfl
    · rename_i hw
      rw [Option.isSome_map, ih, Bool.eq_false_iff.mpr hw, Bool.false_or]

def idle (x : Timeline) : Nat := if x.waits.any x.isDue then 0 else 1

theorem idle_le_one (x : Timeline) : x.idle ≤ 1 := by
  unfold idle
  split <;> omega

theorem isDue_mono {x y : Timeline} (hn : x.now ≤ y.now) (hg : ∀ group, x.groupSize group ≤ y.groupSize group)
    {w : Wait} (h : x.isDue w = true) : y.isDue w = true := by
  unfold isDue isGathered at *
  rw [Bool.or_eq_true, decide_eq_true_eq] at *
  refine h.imp (fun hle => hle.trans hn) fun hgathered => ?_
  cases hr : w.reason with
  | gathering group members =>
    simp only [hr, decide_eq_true_eq] at hgathered ⊢
    exact hgathered.trans (hg group)
  | _ =>
    rw [hr] at hgathered
    cases hgathered

theorem idle_mono {x y : Timeline} (hw : x.waits ⊆ y.waits) (hn : x.now ≤ y.now)
    (hg : ∀ group, x.groupSize group ≤ y.groupSize group) : y.idle ≤ x.idle := by
  unfold idle
  by_cases hx : x.waits.any x.isDue = true
  · obtain ⟨w, hmem, hdue⟩ := List.any_eq_true.mp hx
    rw [if_pos (List.any_eq_true.mpr ⟨w, hw hmem, isDue_mono hn hg hdue⟩)]
    exact Nat.zero_le _
  · rw [if_neg hx]
    exact idle_le_one y

end Timeline

end Casework
