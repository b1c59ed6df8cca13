import Casework.Proofs.Graph.Acceptance

/-!
# The task that is named for a cycle

Whatever placing leaves over waits for something left over. So the walk from one such node to the next never comes to
an end of its way, meets a node again after as many steps as there are such nodes, and the node that it meets again
lies on a cycle. Placing never lowers a degree that is nothing.
-/

namespace Casework

namespace Placement

/-! ## Placing with a check -/

def release? (p : Placement) (n : Nat) : Option Placement :=
  if 0 < p.degrees.getD n 0 then some (p.release n) else none

def place? (l : Links) (p : Placement) (n : Nat) : Option Placement :=
  (l.succs n).foldlM release? { p with placed := n :: p.placed }

def advance? (l : Links) : Nat → Placement → Option Placement
  | 0, p => some p
  | fuel + 1, p =>
    match p.ready with
    | [] => some p
    | n :: rest => (place? l { p with ready := rest } n).bind (advance? l fuel)

def run? (l : Links) : Option Placement := advance? l l.size (start l)

theorem foldlM_release? : ∀ {ks : List Nat} {p : Placement}, ks.Nodup → (∀ k ∈ ks, 0 < p.degrees.getD k 0) →
    ks.foldlM release? p = some (ks.foldl release p)
  | [], _, _, _ => rfl
  | k :: ks, p, hn, h => by
    obtain ⟨hk, hks⟩ := List.nodup_cons.mp hn
    have hhead : release? p k = some (p.release k) := if_pos (h k List.mem_cons_self)
    have htail : ∀ m ∈ ks, 0 < (p.release k).degrees.getD m 0 := by
      intro m hm
      have hne : m ≠ k := by
        rintro rfl
        exact hk hm
      rw [degrees_release, if_neg hne]
      exact h m (List.mem_cons_of_mem _ hm)
    rw [List.foldlM_cons, hhead, List.foldl_cons]
    exact foldlM_release? hks htail

section
variable {l : Links} (hl : l.Sound)
include hl

theorem place?_eq {p : Placement} {n : Nat} {rest : List Nat} (h : Valid l p) (hr : p.ready = n :: rest) :
    place? l { p with ready := rest } n = some (place l { p with ready := rest } n) := by
  obtain ⟨-, hnp, -⟩ := (h.mem_ready n).mp (by rw [hr]; exact List.mem_cons_self)
  refine foldlM_release? ((hl.succs_sorted n).imp Nat.ne_of_lt) ?_
  intro m hm
  have hpred : n ∈ l.preds m := (hl.mem_succs m n).mp hm
  change 0 < p.degrees.getD m 0
  rw [h.degree]
  refine Nat.pos_of_ne_zero fun hz => ?_
  exact hnp (Links.waiting_eq_zero.mp hz n hpred)

theorem advance?_eq : ∀ (fuel : Nat) {p : Placement}, Valid l p → advance? l fuel p = some (advance l fuel p)
  | 0, _, _ => rfl
  | fuel + 1, p, h => by
    unfold advance? advance
    cases hr : p.ready with
    | nil => rfl
    | cons n rest =>
      simp only [place?_eq hl h hr, Option.bind_some]
      exact advance?_eq fuel (valid_place hl h hr).1

theorem run?_eq : run? l = some (run l) := advance?_eq hl _ (valid_start l)

/-! ## What is left over -/

theorem mem_remaining_run {n : Nat} : n ∈ remaining l (run l) ↔ n < l.size ∧ n ∉ (run l).placed := by
  have hv := valid_run hl
  rw [remaining, List.mem_filter, List.mem_range, decide_eq_true_iff, hv.degree]
  refine and_congr_right fun hn => ?_
  constructor
  · intro hw hnp
    rw [Links.waiting_eq_zero.mpr (hv.built.closed n hnp)] at hw
    exact Nat.lt_irrefl 0 hw
  · intro hnp
    refine Nat.pos_of_ne_zero fun hz => ?_
    have hready : n ∈ (run l).ready := (hv.mem_ready n).mpr ⟨hn, hnp, Links.waiting_eq_zero.mp hz⟩
    rw [ready_run hl] at hready
    cases hready

theorem exists_pred_remaining {n : Nat} (h : n ∈ remaining l (run l)) :
    ∃ p ∈ l.preds n, p ∈ remaining l (run l) := by
  obtain ⟨hn, hnp⟩ := (mem_remaining_run hl).mp h
  by_cases hall : ∀ p ∈ l.preds n, p ∈ (run l).placed
  · have hready : n ∈ (run l).ready := ((valid_run hl).mem_ready n).mpr ⟨hn, hnp, hall⟩
    rw [ready_run hl] at hready
    cases hready
  · push Not at hall
    obtain ⟨p, hp, hpp⟩ := hall
    exact ⟨p, hp, (mem_remaining_run hl).mpr ⟨hl.preds_lt n p hp, hpp⟩⟩

theorem remaining_run_ne_nil (h : (run l).placed.length ≠ l.size) : remaining l (run l) ≠ [] := by
  intro hnil
  have hb := (valid_run hl).built
  have hsub : List.range l.size ⊆ (run l).placed := by
    intro n hn
    by_cases hnp : n ∈ (run l).placed
    · exact hnp
    · have hleft := (mem_remaining_run hl).mpr ⟨List.mem_range.mp hn, hnp⟩
      rw [hnil] at hleft
      cases hleft
  have hle := (List.nodup_range.subperm hsub).length_le
  rw [List.length_range] at hle
  exact h (Nat.le_antisymm hb.length_le hle)

end

end Placement

/-! ## The walk with a check -/

/-- The walk, one node a pass: nothing if a node has no predecessor in `left`, or if the passes do not suffice. -/
def walk? (l : Links) (left : List Nat) : Nat → List Nat → Nat → Option Nat
  | 0, _, _ => none
  | passes + 1, seen, n =>
    if n ∈ seen then some n else ((l.preds n).find? left.contains).bind (walk? l left passes (n :: seen))

def nodeOnCycle? (l : Links) (left : List Nat) : Option Nat :=
  left.head?.bind (walk? l left (left.length + 1) [])

section
variable {l : Links} {left : List Nat}

theorem walk?_eq (hpred : ∀ n ∈ left, ∃ p ∈ l.preds n, p ∈ left) : ∀ {passes n : Nat} {seen unseen : List Nat},
    seen.Nodup → seen ⊆ left → unseen.Nodup → (∀ m ∈ left, m ∈ unseen ↔ m ∉ seen) → n ∈ left →
    left.length < passes + seen.length → walk? l left passes seen n = some (walkBack l left unseen n)
  | 0, n, seen, unseen, hs, hsub, _, _, _, hpasses => by
    have hle := (hs.subperm hsub).length_le
    omega
  | passes + 1, n, seen, unseen, hs, hsub, hu, hmem, hn, hpasses => by
    rw [walk?, walkBack]
    by_cases hseen : n ∈ seen
    · have hnot : n ∉ unseen := fun h => (hmem n hn).mp h hseen
      rw [if_pos hseen, dif_neg hnot]
    · have hin : n ∈ unseen := (hmem n hn).mpr hseen
      rw [if_neg hseen, dif_pos hin]
      cases hfind : (l.preds n).find? left.contains with
      | none =>
        -- what is left has a predecessor that is left
        obtain ⟨p, hp, hpl⟩ := hpred n hn
        exact absurd (List.contains_iff_mem.mpr hpl) (List.find?_eq_none.mp hfind p hp)
      | some p =>
        have hp : p ∈ left := List.contains_iff_mem.mp (List.find?_some hfind)
        rw [Option.bind_some]
        refine walk?_eq hpred (List.nodup_cons.mpr ⟨hseen, hs⟩) (List.cons_subset.mpr ⟨hn, hsub⟩) (hu.erase n) ?_ hp ?_
        · intro m hm
          rw [hu.mem_erase_iff, hmem m hm, List.mem_cons, not_or]
        · rw [List.length_cons]
          omega

theorem reaches_of_walk? : ∀ {passes n c : Nat} {seen : List Nat}, (∀ m ∈ seen, l.Reaches m n) →
    walk? l left passes seen n = some c → l.Reaches c c
  | 0, _, _, _, _, h => by cases h
  | passes + 1, n, c, seen, hs, h => by
    rw [walk?] at h
    by_cases hseen : n ∈ seen
    · rw [if_pos hseen] at h
      cases h
      exact hs n hseen
    · rw [if_neg hseen, Option.bind_eq_some_iff] at h
      obtain ⟨p, hfind, hwalk⟩ := h
      have hp : p ∈ l.preds n := List.mem_of_find?_eq_some hfind
      refine reaches_of_walk? ?_ hwalk
      intro m hm
      rcases List.mem_cons.mp hm with rfl | hm
      · exact .single hp
      · exact (hs m hm).tail hp

theorem nodeOnCycle?_eq (hpred : ∀ n ∈ left, ∃ p ∈ l.preds n, p ∈ left) (hlt : ∀ n ∈ left, n < l.size)
    (hne : left ≠ []) : nodeOnCycle? l left = some (nodeOnCycle l left) ∧
      l.Reaches (nodeOnCycle l left) (nodeOnCycle l left) := by
  cases left with
  | nil => exact absurd rfl hne
  | cons n rest =>
    have hunseen : ∀ m ∈ n :: rest, m ∈ List.range l.size ↔ m ∉ ([] : List Nat) := by
      intro m hm
      simp [hlt m hm]
    have hwalk : walk? l (n :: rest) ((n :: rest).length + 1) [] n = some (nodeOnCycle l (n :: rest)) :=
      walk?_eq hpred List.nodup_nil (List.nil_subset _) List.nodup_range hunseen List.mem_cons_self (Nat.lt_succ_self _)
    refine ⟨hwalk, reaches_of_walk? ?_ hwalk⟩
    intro m hm
    cases hm

end

theorem nodeOnCycle?_remaining {l : Links} (hl : l.Sound) (h : (Placement.run l).placed.length ≠ l.size) :
    nodeOnCycle? l ((Placement.run l).remaining l) = some (nodeOnCycle l ((Placement.run l).remaining l)) ∧
      l.Reaches (nodeOnCycle l ((Placement.run l).remaining l)) (nodeOnCycle l ((Placement.run l).remaining l)) := by
  refine nodeOnCycle?_eq ?_ ?_ (Placement.remaining_run_ne_nil hl h)
  · intro n hn
    exact Placement.exists_pred_remaining hl hn
  · intro n hn
    exact ((Placement.mem_remaining_run hl).mp hn).1

/-! ## Building with a check -/

namespace Graph

/-- The answer of `build`, got by placing and walking with their checks. -/
def build? (tasks : NameMap Task) : Option (Except WorkflowError Graph) :=
  match Links.ofTasks tasks with
  | .error e => some (.error e)
  | .ok l => do
    let p ← Placement.run? l
    if p.placed.length = l.size then return .ok ⟨l, p.placed.reverse⟩
    else return .error (.cyclicDependency (l.name (← nodeOnCycle? l (p.remaining l))))

theorem build?_eq (tasks : NameMap Task) : build? tasks = some (build tasks) := by
  unfold build?
  cases hlinks : Links.ofTasks tasks with
  | error e =>
    unfold build
    rw [hlinks]
    rfl
  | ok l =>
    have hl := Links.sound_ofTasks hlinks
    rw [build_of_links hlinks, ofLinks]
    simp only [Placement.run?_eq hl, Option.bind_eq_bind, Option.bind_some]
    by_cases hlen : (Placement.run l).placed.length = l.size
    · rw [if_pos hlen, if_pos hlen]
      rfl
    · rw [if_neg hlen, if_neg hlen, (nodeOnCycle?_remaining hl hlen).1]
      rfl

theorem reaches_of_cyclicDependency {tasks : NameMap Task} {a : String}
    (h : build tasks = .error (.cyclicDependency a)) : Relation.TransGen (Requires tasks) a a := by
  cases hlinks : Links.ofTasks tasks with
  | error e =>
    obtain ⟨b, c, -, rfl⟩ := Links.ofTasks_error hlinks
    unfold build at h
    rw [hlinks] at h
    cases h
  | ok l =>
    have hl := Links.sound_ofTasks hlinks
    have hd := Links.describes_ofTasks hlinks
    rw [build_of_links hlinks, ofLinks] at h
    by_cases hlen : (Placement.run l).placed.length = l.size
    · rw [if_pos hlen] at h
      cases h
    · rw [if_neg hlen] at h
      cases h
      refine Relation.TransGen.lift l.name ?_ _ _ (nodeOnCycle?_remaining hl hlen).2
      intro n p hp
      exact ((hd.mem_preds n p).mp hp).2.2

/-- Where all requirements are tasks and they have a cycle, building comes through all its checks to an error that
names a task which requires itself, at once or by way of others. -/
theorem cyclicDependency_on_cycle {tasks : NameMap Task} (hr : Resolved tasks) (hc : Cyclic tasks) :
    ∃ a, build? tasks = some (.error (.cyclicDependency a)) ∧ build tasks = .error (.cyclicDependency a) ∧
      Relation.TransGen (Requires tasks) a a := by
  rcases build_cases tasks with ⟨a, b, hf, -⟩ | ⟨-, -, a, hb⟩ | ⟨-, hn, -⟩
  · exact absurd hr hf.not_resolved
  · exact ⟨a, by rw [build?_eq, hb], hb, reaches_of_cyclicDependency hb⟩
  · exact absurd hc hn

def loop : NameMap Task := .ofList [
  ("archive", (Task.plugin "count").requiring ["report"]),
  ("carve", (Task.plugin "count").requiring ["index", "import"]),
  ("import", Task.plugin "count"),
  ("index", (Task.plugin "count").requiring ["import", "timeline"]),
  ("report", (Task.plugin "count").requiring ["carve"]),
  ("timeline", (Task.plugin "count").requiring ["index"])]

theorem build_loop : build loop = .error (.cyclicDependency "index") := by decide +kernel

theorem loop_on_cycle : Resolved loop ∧ Cyclic loop ∧ build? loop = some (.error (.cyclicDependency "index")) ∧
    Relation.TransGen (Requires loop) "index" "index" := by
  have hloop : Resolved loop ∧ Cyclic loop := by
    rcases build_cases loop with ⟨a, b, -, hb⟩ | ⟨hr, hc, -⟩ | ⟨-, -, g, hb⟩
    · rw [build_loop] at hb
      cases hb
    · exact ⟨hr, hc⟩
    · rw [build_loop] at hb
      cases hb
  obtain ⟨a, hchecked, hb, ha⟩ := cyclicDependency_on_cycle hloop.1 hloop.2
  rw [build_loop] at hb
  cases hb
  exact ⟨hloop.1, hloop.2, hchecked, ha⟩

end Graph

end Casework
