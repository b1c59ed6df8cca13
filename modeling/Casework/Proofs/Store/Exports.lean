import Mathlib.Data.List.Induction
import Mathlib.Data.List.Nodup
import Mathlib.Data.List.Perm.Subperm
import Casework.Proofs.Host.Growth
import Casework.Proofs.Store.Items
import Casework.Store.Traffic

/-!
# Destinations of exports

Two calls that store a file get one destination just when both have found their names free before either has made
the file. All other calls make files of their own, which hold what was written through their handles.
-/

namespace Casework

namespace Store

/-! ## Names for exports -/

theorem isName_exportName (path : String) : Path.IsName (exportName path) := by
  unfold exportName
  cases h : Path.fileName? path with
  | none => exact ⟨by decide, by decide, by decide⟩
  | some name => exact Path.isName_of_fileName? h

theorem digits_noSlash (n : Nat) : '/' ∉ (toString n).toList := by
  intro h
  have htext : (toString n).toList = Nat.toDigits 10 n := by simp
  rw [htext] at h
  exact absurd (Nat.isDigit_of_mem_toDigits (by omega) (Nat.le_refl 10) h) (by decide)

theorem isName_numbered {name : String} (h : Path.IsName name) (n : Nat) : Path.IsName (numbered name n) := by
  unfold numbered
  by_cases hn : n = 0
  · rw [if_pos hn]
    exact h
  rw [if_neg hn]
  have hmem : '_' ∈ (toString n ++ "_" ++ name).toList := by simp [String.toList_append]
  refine ⟨?_, ?_, ?_⟩
  · simp only [String.toList_append, List.mem_append, not_or]
    exact ⟨⟨digits_noSlash n, by decide⟩, h.noSlash⟩
  · unfold Path.isIdle
    rw [Bool.or_eq_false_iff, decide_eq_false_iff_not, decide_eq_false_iff_not]
    constructor
    · intro heq
      rw [heq] at hmem
      exact absurd hmem (by decide)
    · intro heq
      rw [heq] at hmem
      exact absurd hmem (by decide)
  · intro heq
    rw [heq] at hmem
    exact absurd hmem (by decide)

theorem numbered_injective (name : String) : Function.Injective (numbered name) := by
  intro m n h
  unfold numbered at h
  have hlen {k : Nat} (hk : k ≠ 0) : name ≠ toString k ++ "_" ++ name := by
    intro heq
    have := congrArg String.length heq
    simp [String.length_append] at this
  by_cases hm : m = 0
  · by_cases hn : n = 0
    · rw [hm, hn]
    · rw [if_pos hm, if_neg hn] at h
      exact absurd h (hlen hn)
  · by_cases hn : n = 0
    · rw [if_neg hm, if_pos hn] at h
      exact absurd h.symm (hlen hm)
    · rw [if_neg hm, if_neg hn] at h
      have hdigits : toString m = toString n := by
        rw [String.append_assoc, String.append_assoc] at h
        exact (String.append_left_inj _).1 h
      have hchars := congrArg String.toList hdigits
      simp only [Nat.toString_eq_ofList_toDigits, String.toList_ofList] at hchars
      have hread := congrArg (Nat.ofDigitChars 10 · 0) hchars
      simpa only [Nat.ofDigitChars_ten_toDigits] using hread

theorem le_length_of_numbered {name : String} {names : List String} {n : Nat} (h : ∀ k < n, numbered name k ∈ names) :
    n ≤ names.length := by
  have hsubset : (List.range n).map (numbered name) ⊆ names := by
    intro x hx
    obtain ⟨k, hk, rfl⟩ := List.mem_map.1 hx
    exact h k (List.mem_range.1 hk)
  have hnodup : ((List.range n).map (numbered name)).Nodup := List.nodup_range.map (numbered_injective name)
  have hlength := (List.subperm_of_subset hnodup hsubset).length_le
  simpa using hlength

theorem isName_filesDir : Path.IsName filesDir := ⟨by decide, by decide, by decide⟩

namespace Export

def entry (c : Export) (n : Nat) : String := numbered (exportName c.path) n

theorem isName_entry (c : Export) (n : Nat) : Path.IsName (c.entry n) := isName_numbered (isName_exportName c.path) n

theorem place_eq (c : Export) (n : Nat) :
    c.place n = Path.join (Path.join c.store.root filesDir) (c.entry n) :=
  Path.join_join c.store.root isName_filesDir.ne_empty (c.isName_entry n).relative

end Export

/-! ## The free name -/

theorem exists_of_lt_freeFrom (s : Store) (t : FileTree) (name : String) {fuel n k : Nat} (hle : n ≤ k)
    (hlt : k < s.freeFrom t name fuel n) : t.exists_ (Path.join s.root (candidate name k)) = true := by
  induction fuel generalizing n with
  | zero =>
    unfold freeFrom at hlt
    omega
  | succ fuel ih =>
    unfold freeFrom at hlt
    split at hlt
    · rename_i hn
      by_cases hk : k = n
      · rw [hk]
        exact hn
      · exact ih (by omega) hlt
    · omega

theorem freeFrom_spec (s : Store) (t : FileTree) (name : String) (fuel n : Nat) :
    s.freeFrom t name fuel n = n + fuel ∨
      t.exists_ (Path.join s.root (candidate name (s.freeFrom t name fuel n))) = false := by
  induction fuel generalizing n with
  | zero => exact .inl rfl
  | succ fuel ih =>
    unfold freeFrom
    split
    · rcases ih (n + 1) with h | h
      · left
        rw [h]
        omega
      · exact .inr h
    · rename_i hn
      exact .inr (by simpa using hn)

/-- Names that are taken belong to nodes of their own, so one of as many names as there are nodes, and one more, is
free. -/
theorem free_of_freeFrom (c : Export) (t : FileTree) :
    t.exists_ (c.place (c.store.freeFrom t (exportName c.path) (t.nodes.length + 1) 0)) = false := by
  rcases freeFrom_spec c.store t (exportName c.path) (t.nodes.length + 1) 0 with hall | hfree
  · exfalso
    have htaken : ∀ k < t.nodes.length + 1, numbered (exportName c.path) k ∈ t.nodes.filterMap fun e => e.1.getLast? := by
      intro k hk
      have hplace : t.exists_ (c.place k) = true := by
        apply exists_of_lt_freeFrom c.store t (exportName c.path) (Nat.zero_le k)
        rw [hall]
        omega
      rw [c.place_eq k] at hplace
      obtain ⟨dir, hdir⟩ := FileTree.named_of_exists (c.isName_entry k) hplace
      unfold FileTree.node? at hdir
      rw [if_neg (by simp), FileTree.lookup_isSome, List.any_eq_true] at hdir
      obtain ⟨e, he, haddress⟩ := hdir
      refine List.mem_filterMap.2 ⟨e, he, ?_⟩
      rw [of_decide_eq_true haddress, List.getLast?_concat]
      rfl
    have hnames := le_length_of_numbered htaken
    have hnodes := List.length_filterMap_le (fun e : Address × FileNode => e.1.getLast?) t.nodes
    omega
  · exact hfree

def Export.IsFirst (c : Export) (t : FileTree) (n : Nat) : Prop :=
  (∀ m < n, t.exists_ (c.place m) = true) ∧ t.exists_ (c.place n) = false

theorem Export.isFirst_freeFrom (c : Export) (t : FileTree) :
    c.IsFirst t (c.store.freeFrom t (exportName c.path) (t.nodes.length + 1) 0) :=
  ⟨fun m hlt => exists_of_lt_freeFrom c.store t (exportName c.path) (Nat.zero_le m) hlt, free_of_freeFrom c t⟩

theorem Export.storeFile_first (c : Export) (t : FileTree) : ∃ n, c.IsFirst t n ∧
    (∀ t' a, t.create (c.place n) = .ok (t', a) → c.store.storeFile t c.path = .ok (t', c.relative n)) ∧
    ∀ e, t.create (c.place n) = .error e → c.store.storeFile t c.path = .error (.io e) := by
  refine ⟨_, c.isFirst_freeFrom t, ?_, ?_⟩
  · intro t' a h
    unfold Export.place Export.relative at h
    unfold storeFile
    simp only [h]
    rfl
  · intro e h
    unfold Export.place Export.relative at h
    unfold storeFile
    simp only [h]

end Store

open Store (Export Stage Action)

namespace Exports

variable {t : FileTree} {calls : List Export} {x y : Exports} {i j k : Nat} {a b : Address}

/-! ## One step -/

inductive Moved (c : Export) (t t' : FileTree) : Stage → Stage → Prop where
  | taken {n : Nat} (ht : t' = t) (h : t.exists_ (c.place n) = true) : Moved c t t' (.probing n) (.probing (n + 1))
  | free {n : Nat} (ht : t' = t) (h : t.exists_ (c.place n) = false) : Moved c t t' (.probing n) (.found n)
  | made {n : Nat} {a : Address} (ht : t' = t.modify a fun _ => []) (h : t.resolve true (c.place n) = .ok a) :
    Moved c t t' (.found n) (.stored (c.relative n) a [])
  | refused {n : Nat} {e : StoreError} (ht : t' = t) : Moved c t t' (.found n) (.failed e)
  | wrote {p : String} {a : Address} {w b : Text.Bytes} (ht : t' = t.modify a (Machine.overwrite b w.length)) :
    Moved c t t' (.stored p a w) (.stored p a (w ++ b))

theorem moved_of_act? {c : Export} {t t' : FileTree} {s s' : Stage} {m : Action} (h : c.act? t s m = some (t', s')) :
    Moved c t t' s s' := by
  unfold Export.act? at h
  split at h
  · rename_i n
    cases h
    unfold Export.probe
    split
    · rename_i hn
      exact .taken rfl hn
    · rename_i hn
      exact .free rfl (by simpa using hn)
  · rename_i n
    have hmake := Option.some.inj h
    unfold Export.make at hmake
    split at hmake
    · rename_i hcreate
      cases hmake
      obtain ⟨hres, ht⟩ := FileTree.create_eq hcreate
      exact .made ht hres
    · cases hmake
      exact .refused rfl
  · cases h
    exact .wrote rfl
  · cases h

structure Stepped (x y : Exports) (k : Nat) (c : Export) (s s' : Stage) : Prop where
  before : x.calls[k]? = some (c, s)
  moved : Moved c x.tree y.tree s s'
  after : y.calls[k]? = some (c, s')
  others : ∀ i ≠ k, y.calls[i]? = x.calls[i]?

theorem stepped_of_step? {m : Nat × Action} (h : x.step? m = some y) : ∃ c s s', Stepped x y m.1 c s s' := by
  unfold step? at h
  split at h
  · cases h
  · rename_i c s hcall
    split at h
    · cases h
    · rename_i t s' hact
      cases h
      have hlt : m.1 < x.calls.length := (List.getElem?_eq_some_iff.1 hcall).1
      refine ⟨c, s, s', hcall, moved_of_act? hact, List.getElem?_set_self hlt, fun i hi => ?_⟩
      exact List.getElem?_set_ne (Ne.symm hi)

theorem follow?_append (ms ms' : List (Nat × Action)) :
    x.follow? (ms ++ ms') = (x.follow? ms).bind fun y => y.follow? ms' := by
  induction ms generalizing x with
  | nil => rfl
  | cons m ms ih =>
    rw [List.cons_append, follow?, follow?, Option.bind_assoc]
    apply Option.bind_congr
    intro y _
    exact ih

/-! ## One call by itself -/

theorem step?_probing {c : Export} {n : Nat} (hk : x.calls[k]? = some (c, .probing n)) :
    x.step? (k, .advance) = some ⟨x.tree, x.calls.set k (c, c.probe x.tree n)⟩ := by
  unfold step? Export.act?
  simp only [hk]

theorem step?_found {c : Export} {n : Nat} (hk : x.calls[k]? = some (c, .found n)) :
    x.step? (k, .advance) = some ⟨(c.make x.tree n).1, x.calls.set k (c, (c.make x.tree n).2)⟩ := by
  unfold step? Export.act?
  simp only [hk]

theorem follow?_probes {c : Export} {n N : Nat} (hk : x.calls[k]? = some (c, .probing n)) (hle : n ≤ N)
    (htaken : ∀ m, n ≤ m → m < N → x.tree.exists_ (c.place m) = true) (hfree : x.tree.exists_ (c.place N) = false) :
    ∃ m, x.follow? (List.replicate m (k, .advance)) = some ⟨x.tree, x.calls.set k (c, .found N)⟩ := by
  induction hd : N - n generalizing x n with
  | zero =>
    obtain rfl : n = N := by omega
    have hprobe : c.probe x.tree n = .found n := by simp [Export.probe, hfree]
    refine ⟨1, ?_⟩
    rw [List.replicate_one, follow?, step?_probing hk, hprobe, Option.bind_some, follow?]
  | succ d ih =>
    have hprobe : c.probe x.tree n = .probing (n + 1) := by
      simp [Export.probe, htaken n (Nat.le_refl n) (by omega)]
    have hlt : k < x.calls.length := (List.getElem?_eq_some_iff.1 hk).1
    obtain ⟨m, hm⟩ := ih (x := ⟨x.tree, x.calls.set k (c, .probing (n + 1))⟩) (n := n + 1)
      (List.getElem?_set_self hlt) (by omega) (fun m hn => htaken m (by omega)) hfree (by omega)
    refine ⟨m + 1, ?_⟩
    rw [List.replicate_succ, follow?, step?_probing hk, hprobe, Option.bind_some, hm, List.set_set]

theorem follow?_make {c : Export} {n : Nat} (hk : x.calls[k]? = some (c, .probing 0)) (hn : c.IsFirst x.tree n) :
    ∃ m, x.follow? (List.replicate m (k, .advance)) =
      some ⟨(c.make x.tree n).1, x.calls.set k (c, (c.make x.tree n).2)⟩ := by
  obtain ⟨m, hm⟩ := follow?_probes hk (Nat.zero_le n) (fun m _ => hn.1 m) hn.2
  have hlt : k < x.calls.length := (List.getElem?_eq_some_iff.1 hk).1
  refine ⟨m + 1, ?_⟩
  rw [List.replicate_succ', follow?_append, hm, Option.bind_some, follow?,
    step?_found (List.getElem?_set_self hlt), List.set_set, Option.bind_some, follow?]

theorem follow?_alone {c : Export} (hk : x.calls[k]? = some (c, .probing 0)) : ∃ m y,
    x.follow? (List.replicate m (k, .advance)) = some y ∧
      ((∃ t p a, c.store.storeFile x.tree c.path = .ok (t, p) ∧ y = ⟨t, x.calls.set k (c, .stored p a [])⟩) ∨
        ∃ e, c.store.storeFile x.tree c.path = .error e ∧ y = ⟨x.tree, x.calls.set k (c, .failed e)⟩) := by
  obtain ⟨n, hfirst, hok, herror⟩ := c.storeFile_first x.tree
  obtain ⟨m, hm⟩ := follow?_make hk hfirst
  refine ⟨m, _, hm, ?_⟩
  cases hcreate : x.tree.create (c.place n) with
  | error e =>
    have hmake : c.make x.tree n = (x.tree, .failed (.io e)) := by
      unfold Export.make
      simp only [hcreate]
    rw [hmake]
    exact .inr ⟨_, herror e hcreate, rfl⟩
  | ok out =>
    have hmake : c.make x.tree n = (out.1, .stored (c.relative n) out.2 []) := by
      unfold Export.make
      simp only [hcreate]
    rw [hmake]
    exact .inl ⟨_, _, _, hok out.1 out.2 hcreate, rfl⟩

/-! ## Who is where -/

def Heads (x : Exports) (i : Nat) (a : Address) : Prop :=
  ∃ c n, x.calls[i]? = some (c, .found n) ∧ x.tree.resolve true (c.place n) = .ok a

def Holds (x : Exports) (i : Nat) (a : Address) : Prop := ∃ c p w, x.calls[i]? = some (c, .stored p a w)

def Contend (x : Exports) (i j : Nat) : Prop := ∃ a, x.Heads i a ∧ x.Heads j a

theorem Moved.grown {c : Export} {t t' : FileTree} {s s' : Stage} (h : Moved c t t' s s') : t.Grown t' := by
  cases h with
  | made ht _ => exact ht ▸ FileTree.grown_modify _ _ _
  | wrote ht => exact ht ▸ FileTree.grown_modify _ _ _
  | taken ht _ => exact ht ▸ .refl t
  | free ht _ => exact ht ▸ .refl t
  | refused ht => exact ht ▸ .refl t

section
variable {c : Export} {s s' : Stage} (h : Stepped x y k c s s')
include h

theorem Stepped.holds_keep (hx : x.Holds i a) : y.Holds i a := by
  obtain ⟨d, p, w, hi⟩ := hx
  by_cases hik : i = k
  · subst hik
    cases Option.some.inj (h.before.symm.trans hi)
    cases h.moved with
    | wrote => exact ⟨_, _, _, h.after⟩
  · exact ⟨d, p, w, (h.others i hik).trans hi⟩

theorem Stepped.holds (hy : y.Holds i a) : x.Holds i a ∨ i = k ∧ x.Heads i a := by
  obtain ⟨d, p, w, hi⟩ := hy
  by_cases hik : i = k
  · subst hik
    cases Option.some.inj (h.after.symm.trans hi)
    cases h.moved with
    | made _ hres => exact .inr ⟨rfl, _, _, h.before, hres⟩
    | wrote => exact .inl ⟨_, _, _, h.before⟩
  · exact .inl ⟨d, p, w, (h.others i hik).symm.trans hi⟩

theorem Stepped.heads (hy : y.Heads i a) : x.Heads i a ∨ y.tree.node? a = none := by
  obtain ⟨d, n, hi, hres⟩ := hy
  by_cases hik : i = k
  · subst hik
    cases Option.some.inj (h.after.symm.trans hi)
    cases h.moved with
    | free ht hfree =>
      right
      rw [ht] at hres ⊢
      cases hn : x.tree.node? a with
      | none => rfl
      | some node =>
        rw [FileTree.exists_iff.2 ⟨a, node, hres, hn⟩] at hfree
        cases hfree
  · left
    refine ⟨d, n, (h.others i hik).symm.trans hi, ?_⟩
    exact h.moved.grown.resolve.1 hres

theorem Stepped.filled (hn : (y.tree.node? a).isSome) : (x.tree.node? a).isSome ∨ y.Holds k a := by
  have hkept {b : Address} {f : Text.Bytes → Text.Bytes} (ht : y.tree = x.tree.modify b f) (hy : y.Holds k b) :
      (x.tree.node? a).isSome ∨ y.Holds k a := by
    by_cases hab : a = b
    · exact .inr (hab ▸ hy)
    · left
      rwa [ht, FileTree.node?_modify_ne hab] at hn
  have hafter := h.after
  cases h.moved with
  | made ht _ => exact hkept ht ⟨_, _, _, hafter⟩
  | wrote ht => exact hkept ht ⟨_, _, _, hafter⟩
  | taken ht _ => exact .inl (ht ▸ hn)
  | free ht _ => exact .inl (ht ▸ hn)
  | refused ht => exact .inl (ht ▸ hn)

end

/-! ## All calls -/

/-- What holds of calls that began in the tree `t`, where `met` relates calls that have been about to make their
files at one address. -/
structure Sound (t : FileTree) (met : Nat → Nat → Prop) (x : Exports) : Prop where
  grown : t.Grown x.tree
  present : ∀ {i a}, x.Holds i a → (x.tree.node? a).isSome
  apart : ∀ {i j a}, i ≠ j → x.Holds i a → x.Holds j a → met i j
  ahead : ∀ {i j a}, i ≠ j → x.Holds i a → x.Heads j a → met i j
  vacant : ∀ {j a}, x.Heads j a → (x.tree.node? a).isSome → ∃ i ≠ j, x.Holds i a
  leads : ∀ {i : Nat} {c : Export} {p a w}, x.calls[i]? = some (c, .stored p a w) →
    ∃ n, p = c.relative n ∧ x.tree.resolve true (c.place n) = .ok a
  own : ∀ {i : Nat} {c : Export} {p a w}, x.calls[i]? = some (c, .stored p a w) → (∀ j ≠ i, ¬ met i j) →
    t.node? a = none ∧ x.tree.contentAt a = w

theorem start_calls {i : Nat} {c : Export} {s : Stage} (h : (start t calls).calls[i]? = some (c, s)) :
    s = .probing 0 := by
  unfold start at h
  rw [List.getElem?_map, Option.map_eq_some_iff] at h
  obtain ⟨_, _, h⟩ := h
  cases h
  rfl

theorem sound_start (met : Nat → Nat → Prop) : Sound t met (start t calls) where
  grown := .refl t
  present := by
    rintro i a ⟨c, p, w, hi⟩
    cases start_calls hi
  apart := by
    rintro i j a _ ⟨c, p, w, hi⟩ _
    cases start_calls hi
  ahead := by
    rintro i j a _ ⟨c, p, w, hi⟩ _
    cases start_calls hi
  vacant := by
    rintro j a ⟨c, n, hj, _⟩ _
    cases start_calls hj
  leads hi := by cases start_calls hi
  own hi := by cases start_calls hi

theorem overwrite_end (w b : Text.Bytes) : Machine.overwrite b w.length w = w ++ b := by
  simp [Machine.overwrite]

section
variable {met : Nat → Nat → Prop} {c : Export} {s s' : Stage}

theorem Sound.unmet_vacant (hx : Sound t met x) (hi : x.Heads i a) (hunmet : ∀ j ≠ i, ¬ met j i) :
    x.tree.node? a = none := by
  cases hn : x.tree.node? a with
  | none => rfl
  | some n =>
    obtain ⟨j, hji, hj⟩ := hx.vacant hi (by rw [hn]; rfl)
    exact absurd (hx.ahead hji hj hi) (hunmet j hji)

theorem Sound.initially_vacant (hx : Sound t met x) (hn : x.tree.node? a = none) : t.node? a = none := by
  cases ht : t.node? a with
  | none => rfl
  | some n =>
    have hsome := hx.grown.isSome (a := a) (by rw [ht]; rfl)
    rw [hn] at hsome
    cases hsome

variable (hsymm : ∀ i j, met i j → met j i) (hx : Sound t met x) (h : Stepped x y k c s s')
include hsymm hx h

theorem Sound.apart_step (hij : i ≠ j) (hi : y.Holds i a) (hj : y.Holds j a) : met i j := by
  rcases h.holds hi with hi | ⟨rfl, hi⟩
  · rcases h.holds hj with hj | ⟨rfl, hj⟩
    · exact hx.apart hij hi hj
    · exact hx.ahead hij hi hj
  · rcases h.holds hj with hj | ⟨rfl, hj⟩
    · exact hsymm _ _ (hx.ahead hij.symm hj hi)
    · exact absurd rfl hij

theorem Sound.own_step {d : Export} {p : String} {w : Text.Bytes} (hi : y.calls[i]? = some (d, .stored p a w))
    (hunmet : ∀ j ≠ i, ¬ met i j) : t.node? a = none ∧ y.tree.contentAt a = w := by
  by_cases hik : i = k
  · subst hik
    cases Option.some.inj (h.after.symm.trans hi)
    cases h.moved with
    | made ht hres =>
      have hnone : x.tree.node? a = none := by
        apply hx.unmet_vacant ⟨_, _, h.before, hres⟩
        exact fun j hj hmet => hunmet j hj (hsymm _ _ hmet)
      refine ⟨hx.initially_vacant hnone, ?_⟩
      rw [ht, FileTree.contentAt_modify (.inl hnone)]
    | wrote ht =>
      obtain ⟨hnone, hcontent⟩ := hx.own h.before hunmet
      refine ⟨hnone, ?_⟩
      rw [ht, FileTree.contentAt_modify (hx.grown.isFree (.inl hnone)), hcontent, overwrite_end]
  · obtain ⟨hnone, hcontent⟩ := hx.own ((h.others i hik).symm.trans hi) hunmet
    refine ⟨hnone, ?_⟩
    -- the call that moved has its file elsewhere
    have helse {b : Address} {f : Text.Bytes → Text.Bytes} (ht : y.tree = x.tree.modify b f) (hk : y.Holds k b) :
        y.tree.contentAt a = w := by
      have hab : a ≠ b := by
        rintro rfl
        exact hunmet k (Ne.symm hik) (hx.apart_step hsymm h hik ⟨d, p, w, hi⟩ hk)
      rw [ht, FileTree.contentAt_modify_ne hab, hcontent]
    have hafter := h.after
    cases h.moved with
    | made ht _ => exact helse ht ⟨_, _, _, hafter⟩
    | wrote ht => exact helse ht ⟨_, _, _, hafter⟩
    | taken ht _ => rw [ht, hcontent]
    | free ht _ => rw [ht, hcontent]
    | refused ht => rw [ht, hcontent]

theorem Sound.step (hmet : ∀ i j, i ≠ j → x.Contend i j → met i j) : Sound t met y := by
  have hpresent {i : Nat} {a : Address} (hi : y.Holds i a) : (y.tree.node? a).isSome := by
    rcases h.holds hi with hold | ⟨rfl, hheads⟩
    · exact h.moved.grown.isSome (hx.present hold)
    · obtain ⟨d, p, w, hi⟩ := hi
      cases Option.some.inj (h.after.symm.trans hi)
      cases h.moved with
      | made ht _ => exact ht ▸ FileTree.isSome_modify _ _ _
      | wrote ht => exact ht ▸ FileTree.isSome_modify _ _ _
  refine ⟨hx.grown.trans h.moved.grown, hpresent, hx.apart_step hsymm h, ?_, ?_, ?_, hx.own_step hsymm h⟩
  · -- a call that has just found its name free is not behind any other
    intro i j a hij hi hj
    rcases h.heads hj with hj | hnone
    · rcases h.holds hi with hi | ⟨rfl, hi⟩
      · exact hx.ahead hij hi hj
      · exact hmet _ _ hij ⟨a, hi, hj⟩
    · have hsome := hpresent hi
      rw [hnone] at hsome
      cases hsome
  · -- what a call found free and now is there, another call has made
    intro j a hj hsome
    rcases h.heads hj with hold | hnone
    · rcases h.filled hsome with hsome | hk
      · obtain ⟨i, hij, hi⟩ := hx.vacant hold hsome
        exact ⟨i, hij, h.holds_keep hi⟩
      · refine ⟨k, ?_, hk⟩
        rintro rfl
        obtain ⟨_, _, _, hk⟩ := hk
        obtain ⟨_, _, hj, _⟩ := hj
        cases hk.symm.trans hj
    · rw [hnone] at hsome
      cases hsome
  · intro i d p a w hi
    by_cases hik : i = k
    · subst hik
      cases Option.some.inj (h.after.symm.trans hi)
      have hgrown := h.moved.grown
      cases h.moved with
      | made _ hres => exact ⟨_, rfl, hgrown.resolve.2 hres⟩
      | wrote _ =>
        obtain ⟨n, hp, hres⟩ := hx.leads h.before
        exact ⟨n, hp, hgrown.resolve.2 hres⟩
    · obtain ⟨n, hp, hres⟩ := hx.leads ((h.others i hik).symm.trans hi)
      exact ⟨n, hp, h.moved.grown.resolve.2 hres⟩

end

/-- At some moment of the run both calls were about to make their files at one address. -/
def Met (t : FileTree) (calls : List Export) (moves : List (Nat × Action)) (i j : Nat) : Prop :=
  ∃ before after y, moves = before ++ after ∧ (start t calls).follow? before = some y ∧ y.Contend i j

variable {moves : List (Nat × Action)}

theorem Contend.symm (h : x.Contend i j) : x.Contend j i := by
  obtain ⟨a, hi, hj⟩ := h
  exact ⟨a, hj, hi⟩

theorem Met.symm (h : Met t calls moves i j) : Met t calls moves j i := by
  obtain ⟨before, after, y, hmoves, hy, hcontend⟩ := h
  exact ⟨before, after, y, hmoves, hy, hcontend.symm⟩

theorem Met.append (h : Met t calls moves i j) (more : List (Nat × Action)) : Met t calls (moves ++ more) i j := by
  obtain ⟨before, after, y, rfl, hy, hcontend⟩ := h
  exact ⟨before, after ++ more, y, List.append_assoc _ _ _, hy, hcontend⟩

theorem Sound.mono {met met' : Nat → Nat → Prop} (h : Sound t met x) (himp : ∀ i j, met i j → met' i j) :
    Sound t met' x where
  grown := h.grown
  present := h.present
  apart hij hi hj := himp _ _ (h.apart hij hi hj)
  ahead hij hi hj := himp _ _ (h.ahead hij hi hj)
  vacant := h.vacant
  leads := h.leads
  own hi hunmet := h.own hi fun j hj hmet => hunmet j hj (himp _ _ hmet)

theorem sound_of_run (h : (start t calls).follow? moves = some x) : Sound t (Met t calls moves) x := by
  induction moves using List.reverseRecOn generalizing x with
  | nil =>
    cases h
    exact sound_start _
  | append_singleton ms m ih =>
    rw [follow?_append, Option.bind_eq_some_iff] at h
    obtain ⟨y, hy, hlast⟩ := h
    rw [follow?, Option.bind_eq_some_iff] at hlast
    obtain ⟨z, hz, hlast⟩ := hlast
    cases hlast
    obtain ⟨c, s, s', hstep⟩ := stepped_of_step? hz
    refine Sound.step (fun i j hmet => hmet.symm) ((ih hy).mono fun i j hmet => hmet.append [m]) hstep ?_
    intro i j _ hcontend
    exact ⟨ms, [m], y, rfl, hy, hcontend⟩

/-- Where a call is about to make its file it makes it, unless it is refused. -/
def Aims (x : Exports) (i : Nat) (a : Address) : Prop :=
  x.Heads i a ∨ x.Holds i a ∨ ∃ c e, x.calls[i]? = some (c, .failed e)

theorem Aims.step {c : Export} {s s' : Stage} (hx : x.Aims i a) (h : Stepped x y k c s s') : y.Aims i a := by
  by_cases hik : i = k
  · subst hik
    rcases hx with ⟨d, n, hi, hres⟩ | hholds | ⟨d, e, hi⟩
    · cases Option.some.inj (h.before.symm.trans hi)
      have hafter := h.after
      cases h.moved with
      | made _ hres' =>
        cases hres.symm.trans hres'
        exact .inr (.inl ⟨_, _, _, hafter⟩)
      | refused _ => exact .inr (.inr ⟨_, _, hafter⟩)
    · exact .inr (.inl (h.holds_keep hholds))
    · cases Option.some.inj (h.before.symm.trans hi)
      cases h.moved
  · rcases hx with ⟨d, n, hi, hres⟩ | hholds | ⟨d, e, hi⟩
    · exact .inl ⟨d, n, (h.others i hik).trans hi, h.moved.grown.resolve.2 hres⟩
    · exact .inr (.inl (h.holds_keep hholds))
    · exact .inr (.inr ⟨d, e, (h.others i hik).trans hi⟩)

theorem Aims.follow (hx : x.Aims i a) (h : x.follow? moves = some y) : y.Aims i a := by
  induction moves generalizing x with
  | nil =>
    cases h
    exact hx
  | cons m ms ih =>
    rw [follow?, Option.bind_eq_some_iff] at h
    obtain ⟨z, hz, h⟩ := h
    obtain ⟨c, s, s', hstep⟩ := stepped_of_step? hz
    exact ih (hx.step hstep) h

theorem eq_of_aims {d : Export} {p : String} {w : Text.Bytes} (hx : x.Aims i a)
    (hi : x.calls[i]? = some (d, .stored p b w)) : b = a := by
  rcases hx with ⟨_, _, h, _⟩ | ⟨_, _, _, h⟩ | ⟨_, _, h⟩
  · cases h.symm.trans hi
  · cases h.symm.trans hi
    rfl
  · cases h.symm.trans hi

theorem Met.eq {c d : Export} {p q : String} {w v : Text.Bytes} (hmet : Met t calls moves i j)
    (h : (start t calls).follow? moves = some x) (hi : x.calls[i]? = some (c, .stored p a w))
    (hj : x.calls[j]? = some (d, .stored q b v)) : a = b := by
  obtain ⟨before, after, y, rfl, hy, r, hri, hrj⟩ := hmet
  rw [follow?_append, hy] at h
  have hai : x.Aims i r := Aims.follow (.inl hri) h
  have haj : x.Aims j r := Aims.follow (.inl hrj) h
  rw [eq_of_aims hai hi, eq_of_aims haj hj]

/-- Any number of calls that store a file run together on any handles. Two that succeed have one destination just if
at some moment both had found their names free, and both names led there; so have two calls on one store that are
given the same relative path. A call that meets no other in this way makes its file where nothing was at the start,
and the file holds what went through its handle. -/
theorem destinations_of_run (h : (start t calls).follow? moves = some x) (hij : i ≠ j) {c d : Export} {p q : String}
    {w v : Text.Bytes} (hi : x.calls[i]? = some (c, .stored p a w)) (hj : x.calls[j]? = some (d, .stored q b v)) :
    (a = b ↔ Met t calls moves i j) ∧
      (c.store = d.store → p = q → Met t calls moves i j) ∧
      ((∀ k ≠ i, ¬ Met t calls moves i k) → t.node? a = none ∧ x.tree.contentAt a = w) := by
  have hsound := sound_of_run h
  have hmet (hab : a = b) : Met t calls moves i j := by
    subst hab
    exact hsound.apart hij ⟨c, p, w, hi⟩ ⟨d, q, v, hj⟩
  refine ⟨⟨hmet, fun hm => hm.eq h hi hj⟩, fun hstore hpq => ?_, hsound.own hi⟩
  obtain ⟨m, rfl, hleads⟩ := hsound.leads hi
  obtain ⟨n, rfl, hleads'⟩ := hsound.leads hj
  have hplace : c.place m = d.place n := by
    unfold Export.place
    rw [hstore, hpq]
  rw [hplace] at hleads
  exact hmet (Except.ok.inj (hleads.symm.trans hleads'))

/-! ## Two tasks that store the same name -/

def systemCalls : List Export := [⟨Store.caseStore, "/evidence/SYSTEM"⟩, ⟨Store.caseStore, "SYSTEM"⟩]

def racingMoves : List (Nat × Action) :=
  [(0, .advance), (1, .advance), (0, .advance), (0, .write (Text.encode "one")), (1, .advance)]

theorem systemCalls_met : ∃ x a w v, (start Store.caseTree systemCalls).follow? racingMoves = some x ∧
    x.calls = [(⟨Store.caseStore, "/evidence/SYSTEM"⟩, .stored "files/SYSTEM" a w),
      (⟨Store.caseStore, "SYSTEM"⟩, .stored "files/SYSTEM" a v)] ∧
    Met Store.caseTree systemCalls racingMoves 0 1 := by
  have hrun : ((start Store.caseTree systemCalls).follow? racingMoves).map (·.calls) =
      some [(⟨Store.caseStore, "/evidence/SYSTEM"⟩,
          .stored "files/SYSTEM" ["case.store", "files", "SYSTEM"] (Text.encode "one")),
        (⟨Store.caseStore, "SYSTEM"⟩, .stored "files/SYSTEM" ["case.store", "files", "SYSTEM"] [])] := by
    decide +kernel
  obtain ⟨x, hx, hcalls⟩ := Option.map_eq_some_iff.1 hrun
  refine ⟨x, _, _, _, hx, hcalls, ?_⟩
  have hfirst : x.calls[0]? = some (⟨Store.caseStore, "/evidence/SYSTEM"⟩,
      .stored "files/SYSTEM" ["case.store", "files", "SYSTEM"] (Text.encode "one")) := by rw [hcalls]; rfl
  have hsecond : x.calls[1]? = some (⟨Store.caseStore, "SYSTEM"⟩,
      .stored "files/SYSTEM" ["case.store", "files", "SYSTEM"] []) := by rw [hcalls]; rfl
  exact (destinations_of_run hx (by decide) hfirst hsecond).2.1 rfl rfl

def reading (x : Exports) : List Stage × Text.Bytes :=
  (x.calls.map (·.2), x.tree.contentAt ["case.store", "files", "SYSTEM"])

theorem one_destination : ((start Store.caseTree systemCalls).follow? (racingMoves.take 4)).map reading =
      some ([.stored "files/SYSTEM" ["case.store", "files", "SYSTEM"] (Text.encode "one"), .found 0], Text.encode "one") ∧
    ((start Store.caseTree systemCalls).follow? racingMoves).map reading =
      some ([.stored "files/SYSTEM" ["case.store", "files", "SYSTEM"] (Text.encode "one"),
        .stored "files/SYSTEM" ["case.store", "files", "SYSTEM"] []], []) := by
  constructor <;> decide +kernel

end Exports

end Casework
