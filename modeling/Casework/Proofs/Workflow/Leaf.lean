import Casework.Proofs.Graph.Chains
import Casework.Proofs.Graph.Choice
import Casework.Proofs.Run.Progress
import Casework.Proofs.Workflow.Cache

/-!
# A new task that nothing requires

A task is added that requires only what is there. The workflow stays accepted, the new task is put somewhere into the
order and into the levels, and all else is as before: the order and the levels of the others, and how they end.
-/

namespace Casework

structure NewLeaf (tasks : NameMap Task) (x : String) (t : Task) : Prop where
  resolved : Resolved tasks
  fresh : x ∉ tasks.keys
  known : ∀ b ∈ t.requires, b ∈ tasks.keys

theorem requires_insert_of_ne {tasks : NameMap Task} {x a b : String} {t : Task} (ha : a ≠ x) :
    Requires (tasks.insert x t) a b ↔ Requires tasks a b := by
  rw [Requires, NameMap.find?_insert, if_neg ha]
  rfl

theorem requires_insert_self {tasks : NameMap Task} {x b : String} {t : Task} :
    Requires (tasks.insert x t) x b ↔ b ∈ t.requires := by
  simp [Requires]

namespace NewLeaf

section
variable {tasks : NameMap Task} {x : String} {t : Task} (h : NewLeaf tasks x t)
include h

theorem ne_of_mem {a : String} (ha : a ∈ tasks.keys) : a ≠ x := by
  rintro rfl
  exact h.fresh ha

theorem requires_iff {a b : String} (ha : a ∈ tasks.keys) :
    Requires (tasks.insert x t) a b ↔ Requires tasks a b := requires_insert_of_ne (h.ne_of_mem ha)

theorem mem_keys_of_requires {a b : String} (hab : Requires (tasks.insert x t) a b) : b ∈ tasks.keys := by
  by_cases ha : a = x
  · subst ha
    exact h.known b (requires_insert_self.mp hab)
  · exact h.resolved a b ((requires_insert_of_ne ha).mp hab)

theorem mem_keys_of_transGen {a b : String} (hab : Relation.TransGen (Requires (tasks.insert x t)) a b) :
    b ∈ tasks.keys := by
  cases hab with
  | single hab => exact h.mem_keys_of_requires hab
  | tail _ hcb => exact h.mem_keys_of_requires hcb

theorem transGen_iff {a b : String} (ha : a ∈ tasks.keys) :
    Relation.TransGen (Requires (tasks.insert x t)) a b ↔ Relation.TransGen (Requires tasks) a b := by
  constructor
  · intro hab
    induction hab with
    | single hab => exact .single ((h.requires_iff ha).mp hab)
    | tail hac hcb ih => exact ih.tail ((h.requires_iff (h.mem_keys_of_transGen hac)).mp hcb)
  · have hmono : ∀ a b, Requires tasks a b → Requires (tasks.insert x t) a b := by
      intro a b hab
      exact (h.requires_iff hab.mem_keys).mpr hab
    exact Relation.TransGen.mono hmono a b

/-! ## The workflow stays accepted -/

theorem resolved_insert : Resolved (tasks.insert x t) := by
  intro a b hab
  exact NameMap.mem_keys_insert.mpr (.inr (h.mem_keys_of_requires hab))

theorem not_cyclic_insert (hc : ¬ Cyclic tasks) : ¬ Cyclic (tasks.insert x t) := by
  rintro ⟨a, ha⟩
  exact hc ⟨a, (h.transGen_iff (h.mem_keys_of_transGen ha)).mp ha⟩

theorem build_insert (hc : ¬ Cyclic tasks) : ∃ g, Graph.build (tasks.insert x t) = .ok g := by
  rcases Graph.build_cases (tasks.insert x t) with ⟨a, b, hf, -⟩ | ⟨-, hcyc, -⟩ | ⟨-, -, hb⟩
  · exact absurd h.resolved_insert hf.not_resolved
  · exact absurd hcyc (h.not_cyclic_insert hc)
  · exact hb

/-! ## The order -/

theorem ready_iff {done : List String} {a : String} (ha : a ≠ x) :
    Ready (tasks.insert x t) done a ↔ Ready tasks (done.filter (· ≠ x)) a := by
  have hmem : ∀ {b : String}, b ≠ x → (b ∈ done ↔ b ∈ done.filter (· ≠ x)) := by
    intro b hb
    simp [hb]
  rw [Ready, Ready, NameMap.mem_keys_insert, or_iff_right ha, hmem ha]
  refine and_congr_right fun _ => and_congr_right fun _ => forall_congr' fun b => ?_
  rw [requires_insert_of_ne ha]
  exact forall_congr' fun hab => hmem (h.ne_of_mem (h.resolved a b hab))

theorem leastFirst_filter : ∀ {names done : List String}, LeastFirst (tasks.insert x t) done names →
    LeastFirst tasks (done.filter (· ≠ x)) (names.filter (· ≠ x))
  | [], done, hl => by
    intro a ha
    exact hl a ((h.ready_iff (h.ne_of_mem ha.1)).mpr ha)
  | a :: names, done, ⟨ha, hmin, hl⟩ => by
    have ih := leastFirst_filter hl
    by_cases hax : a = x
    · simpa [hax] using ih
    · rw [List.filter_cons_of_pos (by simpa using hax)] at ih ⊢
      refine ⟨(h.ready_iff hax).mp ha, ?_, ih⟩
      intro b hb
      exact hmin b ((h.ready_iff (h.ne_of_mem hb.1)).mpr hb)

theorem orderedNames_filter {g g' : Graph} (hb : Graph.build tasks = .ok g)
    (hb' : Graph.build (tasks.insert x t) = .ok g') : g'.orderedNames.filter (· ≠ x) = g.orderedNames :=
  leastFirst_unique (h.leastFirst_filter (Graph.leastFirst_orderedNames hb')) (Graph.leastFirst_orderedNames hb)

/-! ## The levels -/

theorem chain_iff {a : String} {c : List String} (ha : a ∈ tasks.keys) :
    Chain (tasks.insert x t) (a :: c) ↔ Chain tasks (a :: c) := by
  induction c generalizing a with
  | nil =>
    rw [chain_singleton, chain_singleton, NameMap.mem_keys_insert]
    exact iff_of_true (.inr ha) ha
  | cons b c ih =>
    rw [chain_cons_cons, chain_cons_cons, h.requires_iff ha]
    exact and_congr_right fun hab => ih (h.resolved a b hab)

theorem chainLengths_insert {a : String} (ha : a ∈ tasks.keys) :
    chainLengths (tasks.insert x t) a = chainLengths tasks a := by
  ext k
  refine exists_congr fun c => ?_
  rw [h.chain_iff ha]

theorem depthAt_eq {g g' : Graph} (hb : Graph.build tasks = .ok g)
    (hb' : Graph.build (tasks.insert x t) = .ok g') {a : String} (ha : a ∈ tasks.keys) :
    g'.depthAt a = g.depthAt a := by
  have hold := Graph.isGreatest_depthAt (Graph.sound_build hb) (Graph.describes_build hb) ha
  have hnew := Graph.isGreatest_depthAt (Graph.sound_build hb') (Graph.describes_build hb')
    (NameMap.mem_keys_insert.mpr (.inr ha))
  rw [h.chainLengths_insert ha] at hnew
  exact hnew.unique hold

theorem levels_filter {g g' : Graph} (hb : Graph.build tasks = .ok g)
    (hb' : Graph.build (tasks.insert x t) = .ok g') (k : Nat) :
    (g'.levels.getD k []).filter (· ≠ x) = g.levels.getD k [] := by
  have hg := Graph.sound_build hb
  have hg' := Graph.sound_build hb'
  have hperm := Graph.orderedNames_perm hg (Graph.describes_build hb)
  rw [Graph.levels_getD hg, Graph.levels_getD hg', List.filter_comm, h.orderedNames_filter hb hb']
  apply List.filter_congr
  intro a ha
  rw [h.depthAt_eq hb hb' (hperm.mem_iff.mp ha)]

/-! ## The outcomes -/

variable {f f' : String → Except TaskError String} (hf : ∀ a ∈ tasks.keys, f' a = f a)
include hf

theorem cleared_iff {a : String} (ha : a ∈ tasks.keys) : Cleared (tasks.insert x t) f' a ↔ Cleared tasks f a := by
  refine forall_congr' fun b => ?_
  rw [h.transGen_iff ha]
  refine forall_congr' fun hab => ?_
  rw [hf b (h.mem_keys_of_transGen ((h.transGen_iff ha).mpr hab))]

theorem succeeds_iff {a : String} (ha : a ∈ tasks.keys) :
    Succeeds (tasks.insert x t) f' a ↔ Succeeds tasks f a := by
  rw [Succeeds, Succeeds, h.cleared_iff hf ha, hf a ha]

theorem blamed_iff {a d : String} (ha : a ∈ tasks.keys) :
    Blamed (tasks.insert x t) f' a d ↔ Blamed tasks f a d := by
  have hreq : ∀ b, Requires (tasks.insert x t) a b ↔ Requires tasks a b := fun b => h.requires_iff ha
  have hsucc : ∀ b, Requires tasks a b → (Succeeds (tasks.insert x t) f' b ↔ Succeeds tasks f b) := by
    intro b hab
    exact h.succeeds_iff hf (h.resolved a b hab)
  unfold Blamed
  simp only [hreq]
  constructor
  · rintro ⟨had, hno, hmin⟩
    refine ⟨had, (hsucc d had).not.mp hno, ?_⟩
    intro b hab hb
    exact hmin b hab ((hsucc b hab).not.mpr hb)
  · rintro ⟨had, hno, hmin⟩
    refine ⟨had, (hsucc d had).not.mpr hno, ?_⟩
    intro b hab hb
    exact hmin b hab ((hsucc b hab).not.mp hb)

theorem expected_iff {a : String} {r : Except TaskError String} (ha : a ∈ tasks.keys) :
    Expected (tasks.insert x t) f' a r ↔ Expected tasks f a r := by
  simp only [Expected, h.cleared_iff hf ha, h.blamed_iff hf ha, hf a ha]

end

end NewLeaf

/-- `s` is how a run of `g` ends in which the results of the tasks are those of `f`. -/
def RunState.EndOf (f : String → Except TaskError String) (g : Graph) (s : RunState) : Prop :=
  ∃ cap ms, (start g).follow? (permitsOf cap) ms = some s ∧ (∀ y ∈ ms, Obeys f g y.2) ∧ s.turn = .ended

theorem RunState.exists_endOf {g : Graph} (hg : g.Sound) (f : String → Except TaskError String) :
    ∃ s, EndOf f g s := by
  have hstart : (start g).follow? (permitsOf none) [] = some (start g) := rfl
  obtain ⟨ms, s, hobeys, hms, he⟩ := exists_ended hg f hstart (Nat.le_add_left _ _)
  exact ⟨s, none, ms, hms, hobeys, he⟩

theorem RunState.expected_of_endOf {tasks : NameMap Task} {f : String → Except TaskError String} {g : Graph}
    {s : RunState} (hb : Graph.build tasks = .ok g) (hs : EndOf f g s) : ∀ a ∈ tasks.keys, ∃ o,
      s.outcomes.find? a = some o ∧ Expected tasks f a o.result := by
  obtain ⟨cap, ms, hms, hobeys, he⟩ := hs
  have hg := Graph.sound_build hb
  have hd := Graph.describes_build hb
  obtain ⟨hsound, hfaith⟩ := faithful_follow hg hobeys hms
  intro a ha
  obtain ⟨n, hn, rfl⟩ := (Graph.mem_keys_iff hd).mp ha
  obtain ⟨o, ho, hexp, -⟩ := expected_of_ended hg hd hsound hfaith he n hn
  exact ⟨o, ho, hexp⟩

namespace Workflow

open RunState (EndOf)

/-- A workflow that is accepted stays so with a new task that requires only what is there. Without the new task its
order is the old one, and so is each of its levels. Where the old tasks give the results that they gave, they end as
they ended, however the runs go and whatever the new task does; and runs do end. -/
theorem leaf_disturbs_nobody {tasks : NameMap Task} {g : Graph} (hb : Graph.build tasks = .ok g) {x : String}
    {t : Task} (hx : x ∉ tasks.keys) (ht : ∀ b ∈ t.requires, b ∈ tasks.keys) :
    ∃ g', Graph.build (tasks.insert x t) = .ok g' ∧
      (∀ w : Workflow, w.tasks = tasks → (w.insertTask x t).setupGraph.2 = .ok g') ∧
      g'.orderedNames.filter (· ≠ x) = g.orderedNames ∧
      (∀ k, (g'.levels.getD k []).filter (· ≠ x) = g.levels.getD k []) ∧
      ∀ f f' : String → Except TaskError String, (∀ a ∈ tasks.keys, f' a = f a) → (∃ s', EndOf f' g' s') ∧
        ∀ s s', EndOf f g s → EndOf f' g' s' → ∀ a ∈ tasks.keys, ∃ o o', s.outcomes.find? a = some o ∧
          s'.outcomes.find? a = some o' ∧ o'.result = o.result ∧ o'.status = o.status := by
  have hleaf : NewLeaf tasks x t := ⟨(Graph.describes_build hb).resolved, hx, ht⟩
  obtain ⟨g', hb'⟩ := hleaf.build_insert (Graph.not_cyclic_of_build hb)
  refine ⟨g', hb', ?_, hleaf.orderedNames_filter hb hb', hleaf.levels_filter hb hb', ?_⟩
  · intro w hw
    have hc : (w.insertTask x t).Current := current_of_none rfl
    rw [setupGraph_eq hc, insertTask, hw]
    exact hb'
  · intro f f' hf
    refine ⟨RunState.exists_endOf (Graph.sound_build hb') f', ?_⟩
    intro s s' hs hs' a ha
    obtain ⟨o, ho, hexp⟩ := RunState.expected_of_endOf hb hs a ha
    obtain ⟨o', ho', hexp'⟩ := RunState.expected_of_endOf hb' hs' a (NameMap.mem_keys_insert.mpr (.inr ha))
    have he : o'.result = o.result := expected_unique ((hleaf.expected_iff hf ha).mp hexp') hexp
    exact ⟨o, o', ho, ho', he, status_congr he⟩

def indexing : Task := (Task.plugin "count").requiring ["import"]

def indexResult (a : String) : Except TaskError String :=
  if a = "index" then .error (.panicked "no index") else RunState.forkResult a

theorem fork_leaf_disturbs_nobody : "index" ∉ Graph.fork.keys ∧ (∀ b ∈ indexing.requires, b ∈ Graph.fork.keys) ∧
    ∃ g' s s' o', Graph.build (Graph.fork.insert "index" indexing) = .ok g' ∧
      g'.orderedNames = ["import", "hotfixes", "index", "plaso", "report"] ∧
      g'.orderedNames.filter (· ≠ "index") = Graph.forkGraph.orderedNames ∧
      EndOf RunState.forkResult Graph.forkGraph s ∧ EndOf indexResult g' s' ∧
      s'.outcomes.find? "report" = some o' ∧ o'.status = .skipped := by
  have hx : "index" ∉ Graph.fork.keys := by decide
  have ht : ∀ b ∈ indexing.requires, b ∈ Graph.fork.keys := by decide
  obtain ⟨g', hb', -, horder, -, hruns⟩ := leaf_disturbs_nobody Graph.build_fork hx ht
  have hnames : g'.orderedNames = ["import", "hotfixes", "index", "plaso", "report"] := by
    have h : (Graph.build (Graph.fork.insert "index" indexing)).map Graph.orderedNames =
        .ok ["import", "hotfixes", "index", "plaso", "report"] := by decide +kernel
    rw [hb'] at h
    exact Except.ok.inj h
  obtain ⟨s, hs, he⟩ := Option.map_eq_some_iff.mp (show ((RunState.start Graph.forkGraph).follow?
    (RunState.permitsOf none) (RunState.forkCourse [1, 2, 0])).map
      (fun s => (s.turn, (s.outcomes.find? "report").map Outcome.status)) = some (.ended, some .skipped) by decide)
  obtain ⟨hturn, hstatus⟩ := Prod.mk.inj he
  have hend : EndOf RunState.forkResult Graph.forkGraph s := ⟨none, _, hs, RunState.obeys_forkCourse _, hturn⟩
  have hagree : ∀ a ∈ Graph.fork.keys, indexResult a = RunState.forkResult a := by
    intro a ha
    have hne : a ≠ "index" := by
      rintro rfl
      exact hx ha
    exact if_neg hne
  obtain ⟨⟨s', hend'⟩, hsame⟩ := hruns _ _ hagree
  obtain ⟨o, o', ho, ho', -, hsts⟩ := hsame s s' hend hend' "report" (by decide)
  rw [ho] at hstatus
  exact ⟨hx, ht, g', s, s', o', hb', hnames, horder, hend, hend', ho', hsts.trans (Option.some.inj hstatus)⟩

end Workflow

end Casework
