import Casework.Proofs.Graph.Acceptance
import Mathlib.Data.List.Sort

/-!
# Filling in the links

The lists of both directions filled side by side, in the order in which the tasks give their requirements, and
sorted in the end. Whether a link is new is looked up in one direction only. What comes out is the links of the
tasks, so neither that order nor the order in which the tasks are listed has any effect.
-/

namespace Casework

structure Filling where
  predecessors : Array (List Nat)
  successors : Array (List Nat)

namespace Filling

def start (size : Nat) : Filling := ⟨Array.replicate size [], Array.replicate size []⟩

def enter (f : Filling) (n p : Nat) : Filling :=
  if p ∈ f.predecessors.getD n [] then f
  else ⟨f.predecessors.modify n (· ++ [p]), f.successors.modify p (· ++ [n])⟩

def enterAll (names : List String) (n : Nat) (task : String) : List String → Filling → Except WorkflowError Filling
  | [], f => .ok f
  | d :: ds, f =>
    match names.idxOf? d with
    | none => .error (.unknownDependency task d)
    | some p => enterAll names n task ds (f.enter n p)

def enterFrom (names : List String) : Nat → List (String × Task) → Filling → Except WorkflowError Filling
  | _, [], f => .ok f
  | n, (a, t) :: ts, f =>
    match enterAll names n a t.requires f with
    | .error e => .error e
    | .ok f => enterFrom names (n + 1) ts f

def toLinks (names : List String) (f : Filling) : Links :=
  ⟨names.toArray, f.predecessors.map (·.mergeSort), f.successors.map (·.mergeSort)⟩

end Filling

/-- The links of tasks that are listed in any order. -/
def Links.ofListing (es : List (String × Task)) : Except WorkflowError Links :=
  let names := (es.map (·.1)).mergeSort
  let tasks := names.map fun a => (a, (es.lookup a).getD default)
  (Filling.enterFrom names 0 tasks (.start names.length)).map (Filling.toLinks names)

def Graph.buildListed (es : List (String × Task)) : Except WorkflowError Graph := do ofLinks (← Links.ofListing es)

/-! ## Rows -/

structure Rows (rows : Array (List Nat)) (size : Nat) (R : Nat → Nat → Prop) : Prop where
  size : rows.size = size
  nodup : ∀ n, (rows.getD n []).Nodup
  mem : ∀ n p, p ∈ rows.getD n [] ↔ R n p

namespace Rows

variable {rows : Array (List Nat)} {size : Nat} {R R' : Nat → Nat → Prop}

theorem empty (size : Nat) : Rows (Array.replicate size []) size fun _ _ => False := by
  have hrow : ∀ n, (Array.replicate size ([] : List Nat)).getD n [] = [] := by
    intro n
    rw [Array.getD_eq_getD_getElem?, Array.getElem?_replicate]
    split <;> rfl
  refine ⟨Array.size_replicate, ?_, ?_⟩
  · intro n
    rw [hrow]
    exact List.nodup_nil
  · intro n p
    rw [hrow]
    exact iff_of_false List.not_mem_nil id

theorem congr (h : Rows rows size R) (he : ∀ n p, R n p ↔ R' n p) : Rows rows size R' :=
  ⟨h.size, h.nodup, fun n p => (h.mem n p).trans (he n p)⟩

theorem getD_append {n : Nat} (hn : n < rows.size) (p m : Nat) :
    (rows.modify n (· ++ [p])).getD m [] = if m = n then rows.getD n [] ++ [p] else rows.getD m [] := by
  simp only [Array.getD_eq_getD_getElem?, Array.getElem?_modify]
  by_cases hm : m = n
  · subst hm
    simp [hn]
  · simp [hm, Ne.symm hm]

theorem append (h : Rows rows size R) {n p : Nat} (hn : n < size) (hnew : ¬ R n p) :
    Rows (rows.modify n (· ++ [p])) size fun m q => R m q ∨ m = n ∧ q = p := by
  have hrow := getD_append (h.size.symm ▸ hn) p
  have hout : p ∉ rows.getD n [] := fun hp => hnew ((h.mem n p).mp hp)
  refine ⟨by rw [Array.size_modify, h.size], ?_, ?_⟩
  · intro m
    rw [hrow]
    split
    · exact List.nodup_append.mpr ⟨h.nodup n, List.nodup_singleton p, by
        intro a ha b hb he
        rw [List.mem_singleton.mp hb] at he
        exact hout (he ▸ ha)⟩
    · exact h.nodup m
  · intro m q
    rw [hrow]
    split
    · rename_i hm
      rw [List.mem_append, List.mem_singleton, h.mem, hm]
      simp
    · rename_i hm
      rw [h.mem]
      simp [hm]

theorem map_mergeSort (h : Rows rows size R) {rows' : Array (List Nat)} (hsize : rows'.size = size)
    (hsorted : ∀ n, (rows'.getD n []).Pairwise (· < ·)) (hmem : ∀ n p, p ∈ rows'.getD n [] ↔ R n p) :
    rows.map (·.mergeSort) = rows' := by
  apply Array.ext
  · rw [Array.size_map, h.size, hsize]
  · intro n hn hn'
    have hlt : n < rows.size := by
      rwa [Array.size_map] at hn
    have hrow : rows[n] = rows.getD n [] := by simp [hlt]
    have hrow' : rows'[n] = rows'.getD n [] := by simp [hn']
    have hnodup : (rows.getD n []).mergeSort.Nodup := (List.mergeSort_perm _ _).nodup_iff.mpr (h.nodup n)
    rw [Array.getElem_map, hrow, hrow']
    apply (List.sortedLE_mergeSort.sortedLT_of_nodup hnodup).pairwise.eq_of_mem_iff (hsorted n)
    intro p
    rw [List.mem_mergeSort, h.mem, hmem]

end Rows

namespace Filling

/-! ## Entering links -/

/-- The links entered so far are those of `E`, in both directions. -/
def Holds (f : Filling) (size : Nat) (E : Nat → Nat → Prop) : Prop :=
  Rows f.predecessors size E ∧ Rows f.successors size fun p n => E n p

section
variable {f : Filling} {size : Nat} {E : Nat → Nat → Prop}

theorem holds_start (size : Nat) : (start size).Holds size fun _ _ => False := ⟨.empty size, .empty size⟩

theorem Holds.congr {E' : Nat → Nat → Prop} (h : f.Holds size E) (he : ∀ n p, E n p ↔ E' n p) : f.Holds size E' :=
  ⟨h.1.congr he, h.2.congr fun p n => he n p⟩

theorem Holds.enter (h : f.Holds size E) {n p : Nat} (hn : n < size) (hp : p < size) :
    (f.enter n p).Holds size fun m q => E m q ∨ m = n ∧ q = p := by
  unfold Filling.enter
  split
  · rename_i hin
    have hold : E n p := (h.1.mem n p).mp hin
    apply h.congr
    intro m q
    constructor
    · exact .inl
    · rintro (hE | ⟨rfl, rfl⟩)
      · exact hE
      · exact hold
  · rename_i hout
    have hnew : ¬ E n p := fun hE => hout ((h.1.mem n p).mpr hE)
    exact ⟨h.1.append hn hnew, (h.2.append hp hnew).congr fun q m => or_congr_right and_comm⟩

theorem Holds.enterEach {n : Nat} (hn : n < size) : ∀ {ps : List Nat} {f : Filling} {E : Nat → Nat → Prop},
    f.Holds size E → (∀ p ∈ ps, p < size) → (ps.foldl (Filling.enter · n) f).Holds size fun m q => E m q ∨ m = n ∧ q ∈ ps
  | [], f, E, h, _ => h.congr fun m q => by simp
  | p :: ps, f, E, h, hps => by
    have ih := (h.enter hn (hps p List.mem_cons_self)).enterEach hn fun q hq => hps q (List.mem_cons_of_mem p hq)
    apply ih.congr
    intro m q
    rw [List.mem_cons, or_assoc, ← and_or_left]

end

/-! ## Tasks one by one -/

theorem enterAll_eq {names : List String} {n : Nat} {task : String} : ∀ (ds : List String) (f : Filling),
    enterAll names n task ds f = (Links.resolve names task ds).map fun ps => ps.foldl (enter · n) f
  | [], f => rfl
  | d :: ds, f => by
    rw [enterAll, Links.resolve]
    cases names.idxOf? d with
    | none => rfl
    | some p =>
      simp only [enterAll_eq ds]
      cases Links.resolve names task ds <;> rfl

theorem enterFrom_error {names : List String} {e : WorkflowError} : ∀ {ts : List (String × Task)} {n : Nat} {f : Filling},
    Links.resolveAll names ts = .error e → enterFrom names n ts f = .error e
  | [], _, _, h => by cases h
  | (a, t) :: ts, n, f, h => by
    rw [Links.resolveAll] at h
    rw [enterFrom, enterAll_eq]
    cases hr : Links.resolve names a t.requires with
    | error e' =>
      rw [hr] at h
      cases h
      rfl
    | ok ps =>
      cases hts : Links.resolveAll names ts with
      | error e' =>
        simp only [hr, hts] at h
        cases h
        exact enterFrom_error hts
      | ok pss =>
        simp only [hr, hts] at h
        cases h

theorem enterFrom_ok {names : List String} : ∀ {ts : List (String × Task)} {pss : List (List Nat)} {n : Nat}
    {f : Filling} {E : Nat → Nat → Prop}, Links.resolveAll names ts = .ok pss → f.Holds names.length E →
    n + ts.length ≤ names.length → ∃ f', enterFrom names n ts f = .ok f' ∧
      f'.Holds names.length fun m q => E m q ∨ n ≤ m ∧ q ∈ pss.getD (m - n) []
  | [], pss, n, f, E, hr, h, _ => by
    cases hr
    exact ⟨f, rfl, h.congr (by simp)⟩
  | (a, t) :: ts, pss, n, f, E, hr, h, hlen => by
    rw [Links.resolveAll] at hr
    rw [enterFrom, enterAll_eq]
    cases ha : Links.resolve names a t.requires with
    | error e =>
      rw [ha] at hr
      cases hr
    | ok ps =>
      cases hts : Links.resolveAll names ts with
      | error e =>
        simp only [ha, hts] at hr
        cases hr
      | ok qss =>
        simp only [ha, hts] at hr
        cases hr
        rw [List.length_cons] at hlen
        have hlt : ∀ p ∈ ps, p < names.length := by
          intro p hp
          obtain ⟨d, -, hd⟩ := ((Links.resolve_ok ha).2 p).mp hp
          exact (List.idxOf?_eq_some_iff.mp hd).1
        have hheld := h.enterEach (n := n) (by omega) hlt
        obtain ⟨f', hf', hheld⟩ := enterFrom_ok hts hheld (n := n + 1) (by omega)
        refine ⟨f', hf', hheld.congr ?_⟩
        intro m q
        rw [or_assoc, ← mem_sortNodes]
        apply or_congr_right
        -- the first list is that of `n`, the others are those of the nodes behind it
        rcases Nat.lt_trichotomy m n with hlt | rfl | hlt
        · have hne : m ≠ n := by omega
          have hle : ¬ n ≤ m ∧ ¬ n + 1 ≤ m := by omega
          simp [hne, hle]
        · have hle : ¬ m + 1 ≤ m := by omega
          simp [hle]
        · have hne : m ≠ n := by omega
          have hle : n ≤ m ∧ n + 1 ≤ m := by omega
          obtain ⟨k, hk⟩ : ∃ k, m - n = k + 1 := ⟨m - n - 1, by omega⟩
          have hk' : m - (n + 1) = k := by omega
          simp [hne, hle, hk, hk']

end Filling

/-! ## Listings -/

section
variable {tasks tasks' : NameMap Task} {es : List (String × Task)}

theorem NameMap.mergeSort_keys (h : es.Perm tasks.entries) : (es.map (·.1)).mergeSort = tasks.keys := by
  have hp : (es.map (·.1)).mergeSort.Perm tasks.keys := (List.mergeSort_perm _ _).trans (h.map _)
  have hs : (es.map (·.1)).mergeSort.Pairwise fun a b => decide (a ≤ b) = true := by
    apply List.pairwise_mergeSort
    · intro a b c hab hbc
      simpa using String.le_trans (by simpa using hab) (by simpa using hbc)
    · intro a b
      simpa using String.le_total a b
  refine hp.eq_of_pairwise (fun a b _ _ hab hba => ?_) hs ?_
  · exact Std.le_antisymm (by simpa using hab) (by simpa using hba)
  · exact tasks.keys_sorted.imp fun hlt => by simpa using Std.le_of_lt hlt

theorem NameMap.map_lookup (h : es.Perm tasks.entries) :
    tasks.keys.map (fun a => (a, (es.lookup a).getD default)) = tasks.entries := by
  have hnodup : (es.map (·.1)).Nodup := (h.map _).nodup_iff.mpr tasks.keys_nodup
  rw [keys, List.map_map]
  refine (List.map_congr_left ?_).trans (List.map_id _)
  intro e he
  simp [lookup_of_mem hnodup (h.mem_iff.mpr he)]

namespace Links

theorem ofListing_eq (h : es.Perm tasks.entries) : ofListing es = ofTasks tasks := by
  unfold ofListing
  simp only [NameMap.mergeSort_keys h, NameMap.map_lookup h]
  cases hr : resolveAll tasks.keys tasks.entries with
  | error e =>
    rw [Filling.enterFrom_error hr, ofTasks, hr]
    rfl
  | ok pss =>
    have hl : ofTasks tasks = .ok ⟨tasks.keys.toArray, pss.toArray, (reversed pss).toArray⟩ := by
      rw [ofTasks, hr]
      rfl
    have hs := sound_ofTasks hl
    have hlen : pss.length = tasks.keys.length := by simpa [size] using hs.preds_size
    obtain ⟨f, hf, hheld⟩ := Filling.enterFrom_ok hr (Filling.holds_start _) (n := 0) (by simp [NameMap.keys])
    have hpreds : f.predecessors.map (·.mergeSort) = pss.toArray :=
      hheld.1.map_mergeSort hlen hs.preds_sorted (by simp)
    have hsuccs : f.successors.map (·.mergeSort) = (reversed pss).toArray := by
      apply hheld.2.map_mergeSort (by simp [reversed, hlen]) hs.succs_sorted
      intro p n
      simpa [succs, preds] using hs.mem_succs n p
    rw [hf, hl]
    simp only [Except.map, Filling.toLinks, hpreds, hsuccs]

theorem ofTasks_congr (hkeys : tasks.keys = tasks'.keys) (hreq : ∀ a b, Requires tasks a b ↔ Requires tasks' a b)
    {l l' : Links} (h : ofTasks tasks = .ok l) (h' : ofTasks tasks' = .ok l') : l = l' := by
  obtain ⟨pss, hp, hlen, rfl⟩ := ofTasks_ok h
  obtain ⟨pss', hp', hlen', rfl⟩ := ofTasks_ok h'
  have hpss : pss = pss' := by
    apply List.ext_getElem
    · rw [hlen, hlen', hkeys]
    · intro n hn hn'
      obtain ⟨hs, -, hm⟩ := resolveAll_mem hp (hlen ▸ hn)
      obtain ⟨hs', -, hm'⟩ := resolveAll_mem hp' (hlen' ▸ hn')
      rw [List.getD_eq_getElem _ _ hn] at hs hm
      rw [List.getD_eq_getElem _ _ hn'] at hs' hm'
      apply hs.eq_of_mem_iff hs'
      intro p
      rw [hm, hm']
      simp only [hkeys, hreq]
  rw [hkeys, hpss]

end Links

end

def requirements (tasks : NameMap Task) : List (String × String) :=
  tasks.entries.flatMap fun e => e.2.requires.map (e.1, ·)

theorem requires_iff_mem {tasks : NameMap Task} {a b : String} : Requires tasks a b ↔ (a, b) ∈ requirements tasks := by
  simp [Requires, requirements, NameMap.find?_eq_some]

namespace Graph

theorem buildListed_eq {tasks : NameMap Task} {es : List (String × Task)} (h : es.Perm tasks.entries) :
    buildListed es = build tasks := by
  unfold buildListed build
  rw [Links.ofListing_eq h]

/-- Two sets of tasks with the same names, where each task requires the same others in whatever order and how often
soever, have the same graph, or the same task is named for a cycle, in whatever order the tasks are listed. -/
theorem build_of_requirements {tasks tasks' : NameMap Task} (hkeys : ∀ a, a ∈ tasks.keys ↔ a ∈ tasks'.keys)
    (hreq : ∀ a b, Requires tasks a b ↔ Requires tasks' a b) (hr : Resolved tasks) {es es' : List (String × Task)}
    (hes : es.Perm tasks.entries) (hes' : es'.Perm tasks'.entries) :
    buildListed es = buildListed es' ∧ buildListed es = build tasks ∧ buildListed es' = build tasks' ∧
      ((∃ g, build tasks = .ok g ∧ build tasks' = .ok g) ∨
        ∃ a, build tasks = .error (.cyclicDependency a) ∧ build tasks' = .error (.cyclicDependency a)) := by
  have hkeys := NameMap.keys_eq hkeys
  have hr' : Resolved tasks' := fun a b hab => hkeys ▸ hr a b ((hreq a b).mpr hab)
  have hlinks : ∀ {tasks : NameMap Task}, Resolved tasks → ∃ l, Links.ofTasks tasks = .ok l := by
    intro tasks hr
    cases hl : Links.ofTasks tasks with
    | ok l => exact ⟨l, rfl⟩
    | error e =>
      obtain ⟨a, b, hf, -⟩ := Links.ofTasks_error hl
      exact absurd hr hf.not_resolved
  obtain ⟨l, hl⟩ := hlinks hr
  obtain ⟨l', hl'⟩ := hlinks hr'
  have hsame : build tasks = build tasks' := by
    rw [build_of_links hl, build_of_links hl', Links.ofTasks_congr hkeys hreq hl hl']
  rw [buildListed_eq hes, buildListed_eq hes']
  refine ⟨hsame, rfl, rfl, ?_⟩
  rw [← hsame]
  rcases build_cases tasks with ⟨a, b, hf, -⟩ | ⟨-, -, a, hb⟩ | ⟨-, -, g, hb⟩
  · exact absurd hr hf.not_resolved
  · exact .inr ⟨a, hb, hb⟩
  · exact .inl ⟨g, hb, hb⟩

def otherFork : NameMap Task := .ofList [
  ("report", (Task.docker "report" "write").requiring ["hotfixes", "plaso", "hotfixes"]),
  ("plaso", (Task.dockerfile "plaso").requiring ["import"]),
  ("hotfixes", (Task.script "hotfixes").requiring ["import", "import"]),
  ("import", Task.script "import")]

theorem otherFork_build_of_requirements : (∀ a, a ∈ fork.keys ↔ a ∈ otherFork.keys) ∧
    (∀ a b, Requires fork a b ↔ Requires otherFork a b) ∧ Resolved fork ∧
    buildListed otherFork.entries.reverse = .ok forkGraph := by
  have hkeys : fork.keys = otherFork.keys := by decide +kernel
  have hpairs : ∀ x, x ∈ requirements fork ↔ x ∈ requirements otherFork := by
    intro x
    constructor
    · revert x
      decide +kernel
    · revert x
      decide +kernel
  have hreq : ∀ a b, Requires fork a b ↔ Requires otherFork a b := by
    intro a b
    rw [requires_iff_mem, requires_iff_mem, hpairs]
  have hr : Resolved fork := (describes_build build_fork).resolved
  obtain ⟨hlisted, hbuild, -⟩ := build_of_requirements (fun a => by rw [hkeys]) hreq hr (.refl fork.entries)
    (List.reverse_perm otherFork.entries)
  exact ⟨fun a => by rw [hkeys], hreq, hr, hlisted.symm.trans (hbuild.trans build_fork)⟩

end Graph

end Casework
