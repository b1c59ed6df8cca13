import Casework.Proofs.Graph.Filling

/-!
# The tables of a graph

A graph keeps its tasks by number and their numbers by name, and who is required by whom in both directions. The
tables of each pair are inverse to each other, and the lists in them are increasing and stay within the graph.
-/

namespace Casework

/-! ## Numbers by name -/

def numbering (names : List String) : NameMap Nat := .ofList names.zipIdx

theorem lastGiven?_zipIdx {names : List String} (h : names.Nodup) (start : Nat) (a : String) :
    NameMap.lastGiven? (names.zipIdx start) a = (names.idxOf? a).map (· + start) := by
  induction names generalizing start with
  | nil => rfl
  | cons b names ih =>
    obtain ⟨hb, hnames⟩ := List.nodup_cons.mp h
    rw [List.zipIdx_cons, NameMap.lastGiven?_cons, ih hnames, List.idxOf?_cons]
    by_cases hab : a = b
    · subst hab
      have hnone : names.idxOf? a = none := List.idxOf?_eq_none_iff.mpr hb
      simp [hnone]
    · rw [if_neg hab, if_neg (by simpa using Ne.symm hab), Option.or_none, Option.map_map]
      congr 1
      funext n
      exact Nat.add_right_comm n start 1

theorem find?_numbering {names : List String} (h : names.Nodup) (a : String) :
    (numbering names).find? a = names.idxOf? a := by
  rw [numbering, NameMap.find?_ofList, lastGiven?_zipIdx h]
  cases names.idxOf? a <;> rfl

namespace Graph

structure Represents (g : Graph) (tasks : NameMap Task) : Prop where
  increasing : (g.names.toList.map Text.encode).Pairwise (· < ·)
  named : ∀ a, a ∈ g.names.toList ↔ a ∈ tasks.keys
  indexed : ∀ a, (numbering g.names.toList).find? a = g.node? a
  node_name : ∀ n < g.size, g.node? (g.name n) = some n
  node_other : ∀ a, a ∉ tasks.keys → g.node? a = none
  rows : g.predecessors.size = g.size ∧ g.successors.size = g.size
  mem_preds : ∀ n < g.size, ∀ p < g.size, p ∈ g.preds n ↔ Requires tasks (g.name n) (g.name p)
  mem_succs : ∀ n p, n ∈ g.succs p ↔ p ∈ g.preds n
  preds_sorted : ∀ n, (g.preds n).Pairwise (· < ·)
  succs_sorted : ∀ p, (g.succs p).Pairwise (· < ·)
  preds_lt : ∀ n, ∀ p ∈ g.preds n, p < g.size
  succs_lt : ∀ p, ∀ n ∈ g.succs p, n < g.size
  loopless : ∀ n, n ∉ g.preds n ∧ n ∉ g.succs n

section
variable {tasks : NameMap Task} {g : Graph}

theorem successors_size (h : build tasks = .ok g) : g.successors.size = g.size := by
  obtain ⟨pss, -, hlen, hg⟩ := Links.ofTasks_ok (build_ok h).1
  rw [hg, Links.size]
  simp [Links.reversed, hlen]

theorem Sound.not_mem_preds (hs : g.Sound) (n : Nat) : n ∉ g.preds n := by
  intro hn
  refine hs.induction (P := fun n => n ∉ g.preds n) (fun m _ ih hm => ih m hm hm) n ?_ hn
  exact hs.links.preds_lt n n hn

/-- However the tasks are listed while the tables are filled, the graph of an accepted workflow has its tasks by number
in the order of their bytes and gives each its number back, and no other name has one. A task is among the predecessors
of another just if that requires it, and then the other is among its successors; each list is increasing, within the
graph, and without the task that it belongs to. -/
theorem represents_of_build (h : build tasks = .ok g) :
    g.Represents tasks ∧ ∀ es : List (String × Task), es.Perm tasks.entries → buildListed es = .ok g := by
  have hs := sound_build h
  have hd := describes_build h
  have hnodup : g.names.toList.Nodup := hs.links.names_sorted.imp fun hlt => String.ne_of_lt hlt
  refine ⟨?_, fun es hes => (buildListed_eq hes).trans h⟩
  constructor
  case increasing => exact List.pairwise_map.mpr (hs.links.names_sorted.imp Text.encode_lt_encode.mpr)
  case named =>
    intro a
    rw [hd.names]
  case indexed => exact find?_numbering hnodup
  case node_name => exact fun n hn => Links.node?_name hs.links hn
  case node_other =>
    intro a ha
    rw [← hd.names] at ha
    exact List.idxOf?_eq_none_iff.mpr ha
  case rows => exact ⟨hs.links.preds_size, successors_size h⟩
  case mem_preds => exact fun n hn p hp => (requires_iff hd hn hp).symm
  case mem_succs => exact hs.links.mem_succs
  case preds_sorted => exact hs.links.preds_sorted
  case succs_sorted => exact hs.links.succs_sorted
  case preds_lt => exact hs.links.preds_lt
  case succs_lt => exact fun p n hn => Links.lt_of_mem_preds hs.links ((hs.links.mem_succs n p).mp hn)
  case loopless =>
    intro n
    rw [hs.links.mem_succs]
    exact ⟨hs.not_mem_preds n, hs.not_mem_preds n⟩

theorem fork_represents : forkGraph.Represents fork ∧ buildListed fork.entries.reverse = .ok forkGraph := by
  obtain ⟨hrepresents, hlisted⟩ := represents_of_build build_fork
  exact ⟨hrepresents, hlisted _ (List.reverse_perm fork.entries)⟩

end

end Graph

end Casework
