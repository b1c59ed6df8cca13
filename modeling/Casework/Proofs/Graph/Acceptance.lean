import Casework.Proofs.Graph.Order
import Mathlib.Data.Fintype.EquivFin
import Mathlib.Logic.Relation

/-!
# Accepted workflows

A workflow has a graph just if all that its tasks require are tasks and no task requires itself by way of
others. What is refused is refused for the first requirement that is no task, and only where there is none
for a cycle.
-/

namespace Casework

def Resolved (tasks : NameMap Task) : Prop := ∀ a b, Requires tasks a b → b ∈ tasks.keys

def Cyclic (tasks : NameMap Task) : Prop := ∃ a, Relation.TransGen (Requires tasks) a a

/-- `a` is the first task by bytes with a requirement that is no task, and `b` is its first such
requirement. -/
structure FirstUnresolved (tasks : NameMap Task) (a b : String) : Prop where
  missing : ∃ t, tasks.find? a = some t ∧ t.requires.find? (· ∉ tasks.keys) = some b
  first : ∀ a' b', Requires tasks a' b' → b' ∉ tasks.keys → Text.encode a ≤ Text.encode a'

section
variable {tasks : NameMap Task} {a b : String}

theorem FirstUnresolved.requires (h : FirstUnresolved tasks a b) : Requires tasks a b ∧ b ∉ tasks.keys := by
  obtain ⟨t, ht, hb⟩ := h.missing
  have hno := List.find?_some hb
  exact ⟨⟨t, ht, List.mem_of_find?_eq_some hb⟩, by simpa using hno⟩

theorem FirstUnresolved.not_resolved (h : FirstUnresolved tasks a b) : ¬ Resolved tasks := by
  intro hr
  obtain ⟨hab, hb⟩ := h.requires
  exact hb (hr a b hab)

theorem FirstUnresolved.unique {a' b' : String} (h : FirstUnresolved tasks a b)
    (h' : FirstUnresolved tasks a' b') : a = a' ∧ b = b' := by
  have ha : a = a' := by
    have hle := h.first a' b' h'.requires.1 h'.requires.2
    have hge := h'.first a b h.requires.1 h.requires.2
    rcases Std.lt_trichotomy a a' with hlt | he | hlt
    · exact absurd (Text.encode_lt_encode.mpr hlt) hge
    · exact he
    · exact absurd (Text.encode_lt_encode.mpr hlt) hle
  subst ha
  obtain ⟨t, ht, hb⟩ := h.missing
  obtain ⟨t', ht', hb'⟩ := h'.missing
  rw [ht] at ht'
  cases ht'
  rw [hb] at hb'
  exact ⟨rfl, Option.some.inj hb'⟩

end

namespace Links

/-! ## Unresolved requirements -/

theorem resolve_error {names : List String} {task : String} {e : WorkflowError} :
    ∀ {ds : List String}, resolve names task ds = .error e →
      ∃ d, ds.find? (· ∉ names) = some d ∧ e = .unknownDependency task d
  | [], h => by cases h
  | d :: ds, h => by
    rw [resolve] at h
    rw [List.find?_cons]
    cases hi : names.idxOf? d with
    | none =>
      rw [hi] at h
      have hd : d ∉ names := List.idxOf?_eq_none_iff.mp hi
      cases h
      exact ⟨d, by simp [hd], rfl⟩
    | some i =>
      rw [hi] at h
      have hd : d ∈ names := List.isSome_idxOf?.mp (by rw [hi]; rfl)
      cases hr : resolve names task ds with
      | ok ps =>
        simp only [hr] at h
        cases h
      | error e' =>
        simp only [hr] at h
        cases h
        simpa [hd] using resolve_error hr

theorem resolveAll_error {names : List String} {e : WorkflowError} :
    ∀ {ts : List (String × Task)}, resolveAll names ts = .error e →
      ∃ early a t late d, ts = early ++ (a, t) :: late ∧ (∀ x ∈ early, ∀ b ∈ x.2.requires, b ∈ names) ∧
        t.requires.find? (· ∉ names) = some d ∧ e = .unknownDependency a d
  | [], h => by cases h
  | (a, t) :: ts, h => by
    rw [resolveAll] at h
    cases hr : resolve names a t.requires with
    | error e' =>
      simp only [hr] at h
      cases h
      obtain ⟨d, hd, rfl⟩ := resolve_error hr
      exact ⟨[], a, t, ts, d, rfl, by simp, hd, rfl⟩
    | ok ps =>
      cases hts : resolveAll names ts with
      | ok pss =>
        simp only [hr, hts] at h
        cases h
      | error e' =>
        simp only [hr, hts] at h
        cases h
        obtain ⟨early, a', t', late, d, rfl, hearly, hd, he⟩ := resolveAll_error hts
        refine ⟨(a, t) :: early, a', t', late, d, rfl, fun x hx => ?_, hd, he⟩
        rcases List.mem_cons.mp hx with rfl | hx
        · exact (resolve_ok hr).1
        · exact hearly x hx

theorem ofTasks_error {tasks : NameMap Task} {e : WorkflowError} (h : ofTasks tasks = .error e) :
    ∃ a b, FirstUnresolved tasks a b ∧ e = .unknownDependency a b := by
  unfold ofTasks at h
  cases hp : resolveAll tasks.keys tasks.entries with
  | ok pss =>
    rw [hp] at h
    cases h
  | error e' =>
    rw [hp] at h
    cases h
    obtain ⟨early, a, t, late, d, hts, hearly, hd, he⟩ := resolveAll_error hp
    have ht : (a, t) ∈ tasks.entries := by simp [hts]
    refine ⟨a, d, ⟨⟨t, NameMap.find?_eq_some.mpr ht, hd⟩, fun a' b' hab hb => ?_⟩, he⟩
    obtain ⟨t', ht', hb'⟩ := hab
    have hm : (a', t') ∈ early ++ (a, t) :: late := hts ▸ NameMap.find?_eq_some.mp ht'
    have hs := tasks.sorted
    rw [hts] at hs
    obtain ⟨-, hs, -⟩ := List.pairwise_append.mp hs
    -- no entry before `a` has an unresolved requirement, and those behind it have greater names
    rcases List.mem_append.mp hm with hm | hm
    · exact absurd (hearly _ hm b' hb') hb
    · rcases List.mem_cons.mp hm with hm | hm
      · cases hm
        exact List.le_refl _
      · have hlt : a < a' := (List.pairwise_cons.mp hs).1 _ hm
        exact List.le_of_lt (Text.encode_lt_encode.mpr hlt)

theorem resolved_of_ofTasks {tasks : NameMap Task} {l : Links} (h : ofTasks tasks = .ok l) :
    Resolved tasks := (describes_ofTasks h).resolved

end Links

/-! ## Cycles -/

def Links.Reaches (l : Links) : Nat → Nat → Prop := Relation.TransGen fun n p => p ∈ l.preds n

theorem Links.wellFounded_reaches {l : Links} (ha : ∀ n, ¬ l.Reaches n n) :
    WellFounded fun p n : Fin l.size => l.Reaches n.1 p.1 := by
  have htrans : IsTrans (Fin l.size) fun p n => l.Reaches n.1 p.1 := ⟨fun _ _ _ hpq hqn => hqn.trans hpq⟩
  have hirrefl : Std.Irrefl fun p n : Fin l.size => l.Reaches n.1 p.1 := ⟨fun n => ha n.1⟩
  exact Finite.wellFounded_of_trans_of_irrefl _

namespace Placement

/-- Without a cycle the nodes can be gone through from what is required to what requires it, and on this way
nothing is left over: it would be ready. -/
theorem mem_placed_run {l : Links} (hl : l.Sound) (ha : ∀ n, ¬ l.Reaches n n) :
    ∀ n < l.size, n ∈ (run l).placed := by
  have hv := valid_run hl
  have hall : ∀ n : Fin l.size, n.1 ∈ (run l).placed := by
    intro n
    induction n using (Links.wellFounded_reaches ha).induction with
    | _ n ih =>
      by_cases hn : n.1 ∈ (run l).placed
      · exact hn
      · have hready : n.1 ∈ (run l).ready := by
          refine (hv.mem_ready n.1).mpr ⟨n.2, hn, fun p hp => ?_⟩
          exact ih ⟨p, hl.preds_lt n.1 p hp⟩ (.single hp)
        rw [ready_run hl] at hready
        cases hready
  exact fun n hn => hall ⟨n, hn⟩

theorem length_run {l : Links} (hl : l.Sound) (ha : ∀ n, ¬ l.Reaches n n) :
    (run l).placed.length = l.size := by
  have hb := (valid_run hl).built
  have hsub : List.range l.size ⊆ (run l).placed := fun n hn =>
    mem_placed_run hl ha n (List.mem_range.mp hn)
  have hle := (List.nodup_range.subperm hsub).length_le
  rw [List.length_range] at hle
  exact Nat.le_antisymm hb.length_le hle

end Placement

namespace Graph

theorem build_of_links {tasks : NameMap Task} {l : Links} (h : Links.ofTasks tasks = .ok l) :
    build tasks = ofLinks l := by
  unfold build
  rw [h]
  rfl

theorem not_cyclic_of_build {tasks : NameMap Task} {g : Graph} (h : build tasks = .ok g) : ¬ Cyclic tasks := by
  rintro ⟨a, ha⟩
  have ho := inOrder_orderedNames (sound_build h) (describes_build h)
  have hdown : ∀ b, Relation.TransGen (Requires tasks) a b → g.orderedNames.idxOf b < g.orderedNames.idxOf a := by
    intro b hb
    induction hb with
    | single hab => exact ho _ _ hab
    | tail _ hbc ih => exact Nat.lt_trans (ho _ _ hbc) ih
  exact Nat.lt_irrefl _ (hdown a ha)

theorem ofLinks_of_not_cyclic {tasks : NameMap Task} {l : Links} (h : Links.ofTasks tasks = .ok l)
    (ha : ¬ Cyclic tasks) : ∃ g, ofLinks l = .ok g := by
  have hd := Links.describes_ofTasks h
  have hlen : (Placement.run l).placed.length = l.size := by
    refine Placement.length_run (Links.sound_ofTasks h) fun n hn => ha ⟨l.name n, ?_⟩
    refine Relation.TransGen.lift l.name (fun n p hp => ?_) n n hn
    exact ((hd.mem_preds n p).mp hp).2.2
  unfold ofLinks
  rw [if_pos hlen]
  exact ⟨_, rfl⟩

theorem ofLinks_error {l : Links} {e : WorkflowError} (h : ofLinks l = .error e) :
    ∃ a, e = .cyclicDependency a := by
  simp only [ofLinks] at h
  split at h
  · cases h
  · cases h
    exact ⟨_, rfl⟩

theorem build_cases (tasks : NameMap Task) :
    (∃ a b, FirstUnresolved tasks a b ∧ build tasks = .error (.unknownDependency a b)) ∨
    (Resolved tasks ∧ Cyclic tasks ∧ ∃ a, build tasks = .error (.cyclicDependency a)) ∨
    (Resolved tasks ∧ ¬ Cyclic tasks ∧ ∃ g, build tasks = .ok g) := by
  cases hl : Links.ofTasks tasks with
  | error e =>
    obtain ⟨a, b, hf, rfl⟩ := Links.ofTasks_error hl
    refine .inl ⟨a, b, hf, ?_⟩
    unfold build
    rw [hl]
    rfl
  | ok l =>
    have hr := Links.resolved_of_ofTasks hl
    have hb := build_of_links hl
    cases ho : ofLinks l with
    | ok g =>
      have hg : build tasks = .ok g := hb.trans ho
      exact .inr (.inr ⟨hr, not_cyclic_of_build hg, g, hg⟩)
    | error e =>
      obtain ⟨a, rfl⟩ := ofLinks_error ho
      refine .inr (.inl ⟨hr, Classical.byContradiction fun hc => ?_, a, hb.trans ho⟩)
      obtain ⟨g, hg⟩ := ofLinks_of_not_cyclic hl hc
      rw [ho] at hg
      cases hg

/-- A workflow is refused for its first requirement that is no task, whether or not there is a cycle as well;
where all requirements are tasks it is refused just if they have a cycle; and nothing else is refused. -/
theorem build_answers (tasks : NameMap Task) :
    (∀ a b, build tasks = .error (.unknownDependency a b) ↔ FirstUnresolved tasks a b) ∧
    ((∃ a b, build tasks = .error (.unknownDependency a b)) ↔ ¬ Resolved tasks) ∧
    ((∃ a, build tasks = .error (.cyclicDependency a)) ↔ Resolved tasks ∧ Cyclic tasks) ∧
    ((∃ g, build tasks = .ok g) ↔ Resolved tasks ∧ ¬ Cyclic tasks) := by
  rcases build_cases tasks with ⟨a, b, hf, hb⟩ | ⟨hr, hc, a, hb⟩ | ⟨hr, hc, g, hb⟩
  · have hno := hf.not_resolved
    refine ⟨fun a' b' => ?_, by simp [hb, hno], by simp [hb, hno], by simp [hb, hno]⟩
    rw [hb]
    constructor
    · intro h
      cases h
      exact hf
    · intro h
      obtain ⟨rfl, rfl⟩ := hf.unique h
      rfl
  · refine ⟨fun a' b' => ?_, by simp [hb, hr], by simp [hb, hr, hc], by simp [hb, hc]⟩
    rw [hb]
    exact iff_of_false (by simp) fun h => h.not_resolved hr
  · refine ⟨fun a' b' => ?_, by simp [hb, hr], by simp [hb, hc], by simp [hb, hr, hc]⟩
    rw [hb]
    exact iff_of_false (by simp) fun h => h.not_resolved hr

example : build (.ofList [("index", (Task.plugin "count").requiring ["index"]),
    ("report", (Task.plugin "count").requiring ["index", "hashes", "carve"])]) =
    .error (.unknownDependency "report" "hashes") := by decide +kernel

end Graph

end Casework
