import Casework.Proofs.Graph.Placement
import Casework.Proofs.Text.Utf8

/-!
# The order of a graph

The order of an accepted graph holds every node once, each after its predecessors, and of all orders of
the tasks that respect the requirements it comes first.
-/

namespace Casework

def InOrder (tasks : NameMap Task) (names : List String) : Prop :=
  ∀ a b, Requires tasks a b → names.idxOf b < names.idxOf a

instance (tasks : NameMap Task) (names : List String) : Decidable (InOrder tasks names) :=
  decidable_of_iff (∀ e ∈ tasks.entries, ∀ b ∈ e.2.requires, names.idxOf b < names.idxOf e.1)
    ⟨fun h a b ⟨t, ht, hb⟩ => h (a, t) (NameMap.find?_eq_some.mp ht) b hb,
      fun h e he b hb => h e.1 b ⟨e.2, NameMap.find?_eq_some.mpr he, hb⟩⟩

theorem idxOf_lt_idxOf_iff {early late : List String} {a b : String} (ha : a ∉ early) :
    (early ++ a :: late).idxOf b < (early ++ a :: late).idxOf a ↔ b ∈ early := by
  rw [List.idxOf_append_of_notMem ha, List.idxOf_cons_self]
  by_cases hb : b ∈ early
  · rw [List.idxOf_append_of_mem hb]
    have := List.idxOf_lt_length_of_mem hb
    simp only [hb, iff_true]
    omega
  · rw [List.idxOf_append_of_notMem hb]
    simp only [hb, iff_false]
    omega

namespace Graph

/-- What an accepted graph gives to all that walk it. -/
structure Sound (g : Graph) : Prop where
  links : g.toLinks.Sound
  built : g.toLinks.Built g.order.reverse
  perm : g.order.Perm (List.range g.size)

/-! ## Accepted graphs -/

section
variable {tasks : NameMap Task} {g : Graph}

theorem ofLinks_ok {l : Links} (h : ofLinks l = .ok g) :
    (Placement.run l).placed.length = l.size ∧ g = ⟨l, (Placement.run l).placed.reverse⟩ := by
  simp only [ofLinks] at h
  split at h
  · rename_i hlen
    cases h
    exact ⟨hlen, rfl⟩
  · cases h

theorem build_ok (h : build tasks = .ok g) :
    Links.ofTasks tasks = .ok g.toLinks ∧ ofLinks g.toLinks = .ok g := by
  unfold build at h
  cases hl : Links.ofTasks tasks with
  | error e =>
    rw [hl] at h
    cases h
  | ok l =>
    rw [hl] at h
    have ho : ofLinks l = .ok g := h
    obtain ⟨-, rfl⟩ := ofLinks_ok ho
    exact ⟨rfl, ho⟩

theorem sound_build (h : build tasks = .ok g) : g.Sound := by
  obtain ⟨hl, ho⟩ := build_ok h
  have hs := Links.sound_ofTasks hl
  obtain ⟨hlen, he⟩ := ofLinks_ok ho
  have hb := (Placement.valid_run hs).built
  have horder : g.order = (Placement.run g.toLinks).placed.reverse := congrArg Graph.order he
  refine ⟨hs, ?_, ?_⟩
  · rw [horder, List.reverse_reverse]
    exact hb
  · rw [horder]
    exact (List.reverse_perm _).trans (hb.perm hlen)

theorem describes_build (h : build tasks = .ok g) : g.Describes tasks :=
  Links.describes_ofTasks (build_ok h).1

theorem order_first (h : build tasks = .ok g) {ns : List Nat} (hc : g.Completes [] ns) :
    g.order = ns ∨ g.order < ns := by
  obtain ⟨hl, ho⟩ := build_ok h
  have horder : g.order = (Placement.run g.toLinks).placed.reverse := congrArg Graph.order (ofLinks_ok ho).2
  rw [horder]
  exact Placement.advance_first (Links.sound_ofTasks hl) _ (Placement.valid_start _) hc

end

/-! ## Nodes and names -/

section
variable {tasks : NameMap Task} {g : Graph} (hs : g.Sound) (hd : g.Describes tasks)

include hs in
theorem Sound.induction {P : Nat → Prop} (step : ∀ n < g.size, (∀ p ∈ g.preds n, P p) → P n) :
    ∀ n < g.size, P n := by
  have hall : ∀ {done : List Nat}, g.Built done → ∀ n ∈ done, P n := by
    intro done
    induction done with
    | nil => exact fun _ n hn => absurd hn List.not_mem_nil
    | cons m done ih =>
      intro hb n hn
      rcases List.mem_cons.mp hn with rfl | hn
      · exact step n hb.1 fun p hp => ih hb.2.2.2 p (hb.2.2.1 p hp)
      · exact ih hb.2.2.2 n hn
  intro n hn
  exact hall hs.built n (List.mem_reverse.mpr (hs.perm.mem_iff.mpr (List.mem_range.mpr hn)))

include hd in
theorem mem_keys_iff {a : String} : a ∈ tasks.keys ↔ ∃ n, n < g.size ∧ g.name n = a := by
  rw [← hd.names]
  exact Links.mem_names

include hd in
theorem keys_eq_map : tasks.keys = (List.range g.size).map g.name := by
  rw [← hd.names]
  refine List.ext_getElem? fun n => ?_
  by_cases hn : n < g.size
  · rw [Links.names_getElem? hn]
    simp [hn]
  · have hn' : g.names.size ≤ n := Nat.not_lt.mp hn
    simp [hn, hn']

include hs hd in
theorem orderedNames_perm : g.orderedNames.Perm tasks.keys := by
  rw [keys_eq_map hd]
  exact hs.perm.map _

include hd in
theorem requires_iff {n p : Nat} (hn : n < g.size) (hp : p < g.size) :
    Requires tasks (g.name n) (g.name p) ↔ p ∈ g.preds n := by
  rw [hd.mem_preds]
  exact ⟨fun h => ⟨hn, hp, h⟩, fun h => h.2.2⟩

include hs in
theorem name_mem_map {ns : List Nat} (hns : ∀ n ∈ ns, n < g.size) {n : Nat} (hn : n < g.size) :
    g.name n ∈ ns.map g.name ↔ n ∈ ns := by
  rw [List.mem_map]
  constructor
  · rintro ⟨m, hm, he⟩
    rw [← Links.name_inj hs.links (hns m hm) hn he]
    exact hm
  · exact fun h => ⟨n, h, rfl⟩

include hs hd in
theorem inOrder_orderedNames : InOrder tasks g.orderedNames := by
  intro a b hab
  obtain ⟨n, hn, rfl⟩ := (mem_keys_iff hd).mp hab.mem_keys
  obtain ⟨p, hp, rfl⟩ := (mem_keys_iff hd).mp (hd.resolved _ _ hab)
  have hpn : p ∈ g.preds n := (requires_iff hd hn hp).mp hab
  obtain ⟨early, late, ho⟩ := List.append_of_mem (hs.perm.mem_iff.mpr (List.mem_range.mpr hn))
  have hb := hs.built
  rw [ho, List.reverse_append, List.reverse_cons, List.append_assoc] at hb
  obtain ⟨hne, hpe⟩ := hb.preds_of_append
  have hearly : ∀ m ∈ early, m < g.size := fun m hm =>
    List.mem_range.mp (hs.perm.mem_iff.mp (by rw [ho]; exact List.mem_append_left _ hm))
  rw [orderedNames, ho, List.map_append, List.map_cons, idxOf_lt_idxOf_iff, name_mem_map hs hearly hp]
  · simpa using hpe p hpn
  · rw [name_mem_map hs hearly hn]
    simpa using hne

include hs hd in
theorem exists_completes {names : List String} (hp : names.Perm tasks.keys) (ho : InOrder tasks names) :
    ∃ ns, names = ns.map g.name ∧ (∀ n ∈ ns, n < g.size) ∧ g.Completes [] ns := by
  have hget : ∀ n < g.size, (g.node? (g.name n)).getD 0 = n := fun n hn => by
    rw [Links.node?_name hs.links hn]
    rfl
  have hnodes : (names.map fun a => (g.node? a).getD 0).Perm (List.range g.size) := by
    refine (hp.map _).trans ?_
    rw [keys_eq_map hd, List.map_map]
    refine .of_eq ((List.map_congr_left fun n hn => ?_).trans (List.map_id _))
    exact hget n (List.mem_range.mp hn)
  have hlt : ∀ n ∈ names.map (fun a => (g.node? a).getD 0), n < g.size := fun n hn =>
    List.mem_range.mp (hnodes.mem_iff.mp hn)
  have hnames : names = (names.map fun a => (g.node? a).getD 0).map g.name := by
    rw [List.map_map]
    refine ((List.map_congr_left fun a ha => ?_).trans (List.map_id _)).symm
    obtain ⟨n, hn, rfl⟩ := (mem_keys_iff hd).mp (hp.mem_iff.mp ha)
    exact congrArg g.name (hget n hn)
  refine ⟨_, hnames, hlt, Links.completes_of_perm hnodes fun early n late he p hpn => ?_⟩
  -- the order is one of names: a required name has a smaller index, so it stands in `early`
  have he : names.map (fun a => (g.node? a).getD 0) = early ++ n :: late := he
  rw [he] at hnames hlt hnodes
  have hn : n < g.size := hlt n (by simp)
  have hearly : ∀ m ∈ early, m < g.size := fun m hm => hlt m (List.mem_append_left _ hm)
  have hne : n ∉ early := fun h =>
    (List.nodup_append.mp (hnodes.nodup_iff.mpr List.nodup_range)).2.2 n h n (by simp) rfl
  have hlt' := ho _ _ ((hd.mem_preds n p).mp hpn).2.2
  rw [hnames, List.map_append, List.map_cons, idxOf_lt_idxOf_iff] at hlt'
  · exact (name_mem_map hs hearly (hs.links.preds_lt n p hpn)).mp hlt'
  · rwa [name_mem_map hs hearly hn]

include hs in
theorem encode_name_le {p q : Nat} (hpq : p ≤ q) (hq : q < g.size) :
    Text.encode (g.name p) ≤ Text.encode (g.name q) := by
  rcases Nat.lt_or_eq_of_le hpq with hlt | rfl
  · exact List.le_of_lt (Text.encode_lt_encode.mpr (Links.name_lt_name hs.links hlt hq))
  · exact List.le_refl _

include hs in
theorem map_name_le {ns ns' : List Nat} (h : ns = ns' ∨ ns < ns') (hlt : ∀ n ∈ ns', n < g.size) :
    (ns.map g.name).map Text.encode ≤ (ns'.map g.name).map Text.encode := by
  rcases h with rfl | hlex
  · exact List.le_refl _
  · refine List.le_of_lt ?_
    induction hlex with
    | nil => exact .nil
    | rel hnm =>
      exact .rel (Text.encode_lt_encode.mpr (Links.name_lt_name hs.links hnm (hlt _ List.mem_cons_self)))
    | cons _ ih => exact .cons (ih fun n hn => hlt n (List.mem_cons_of_mem _ hn))

end

/-! ## The least order of the tasks -/

theorem size_eq {tasks : NameMap Task} {g : Graph} (hd : g.Describes tasks) : g.size = tasks.size := by
  have h := congrArg List.length hd.names
  simpa [Links.size, NameMap.keys, NameMap.size] using h

/-- The order holds every node once, no task stands before what it requires, and any other sequence of
the tasks of which this is true comes later, names compared by their bytes and place by place. -/
theorem order_is_least {tasks : NameMap Task} {g : Graph} (h : build tasks = .ok g) :
    g.order.Perm (List.range tasks.size) ∧ g.orderedNames.Perm tasks.keys ∧
      InOrder tasks g.orderedNames ∧
      ∀ names : List String, names.Perm tasks.keys → InOrder tasks names →
        g.orderedNames.map Text.encode ≤ names.map Text.encode := by
  have hs := sound_build h
  have hd := describes_build h
  refine ⟨?_, ?_, inOrder_orderedNames hs hd, fun names hp ho => ?_⟩
  · rw [← size_eq hd]
    exact hs.perm
  · rw [keys_eq_map hd]
    exact hs.perm.map _
  · obtain ⟨ns, rfl, hlt, hc⟩ := exists_completes hs hd hp ho
    exact map_name_le hs (order_first h hc) hlt

def fork : NameMap Task := .ofList [
  ("report", (Task.plugin "count").requiring ["plaso", "hotfixes"]),
  ("plaso", (Task.plugin "count").requiring ["import", "import"]),
  ("hotfixes", (Task.plugin "count").requiring ["import"]),
  ("import", Task.plugin "count")]

def forkGraph : Graph :=
  ⟨⟨#["hotfixes", "import", "plaso", "report"], #[[1], [], [1], [0, 2]], #[[3], [0, 2], [3], []]⟩,
    [1, 0, 2, 3]⟩

theorem build_fork : build fork = .ok forkGraph := by decide +kernel

theorem fork_order_is_least :
    build fork = .ok forkGraph ∧ ["import", "plaso", "hotfixes", "report"].Perm fork.keys ∧
      InOrder fork ["import", "plaso", "hotfixes", "report"] ∧
      forkGraph.orderedNames.map Text.encode ≤
        ["import", "plaso", "hotfixes", "report"].map Text.encode := by
  have hp : ["import", "plaso", "hotfixes", "report"].Perm fork.keys := by decide
  have ho : InOrder fork ["import", "plaso", "hotfixes", "report"] := by decide
  exact ⟨build_fork, hp, ho, (order_is_least build_fork).2.2.2 _ hp ho⟩

end Graph

end Casework
