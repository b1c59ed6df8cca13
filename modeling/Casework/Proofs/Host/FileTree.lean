import Casework.Host.FileTree
import Casework.Proofs.Host.Path

/-!
# Nodes and paths

What a change of a node leaves as it was, and what resolving a path says about looking it up.
-/

namespace Casework

namespace FileTree

variable {t t' : FileTree} {a : Address}

/-! ## Nodes after a change -/

theorem lookup_cons_of_ne {b x : Address} (h : b ≠ x) (m : FileNode) (l : List (Address × FileNode)) :
    ((x, m) :: l).lookup b = l.lookup b := by
  rw [List.lookup_cons, beq_eq_false_iff_ne.2 h]

theorem lookup_map_put (b : Address) (n : FileNode) (l : List (Address × FileNode)) :
    (l.map fun e => if e.1 = a then (a, n) else e).lookup b =
      if b = a then (l.lookup a).map fun _ => n else l.lookup b := by
  induction l with
  | nil => split <;> rfl
  | cons e l ih =>
    obtain ⟨x, m⟩ := e
    rw [List.map_cons]
    by_cases hx : x = a
    · subst hx
      by_cases hb : b = x
      · simp [hb]
      · rw [if_pos rfl, lookup_cons_of_ne hb, ih, if_neg hb, if_neg hb, lookup_cons_of_ne hb]
    · rw [if_neg hx]
      by_cases hb : b = x
      · subst hb
        simp [hx]
      · rw [lookup_cons_of_ne hb, ih, lookup_cons_of_ne hb, lookup_cons_of_ne (Ne.symm hx)]

theorem lookup_isSome (l : List (Address × FileNode)) : (l.lookup a).isSome = l.any (·.1 = a) := by
  induction l with
  | nil => rfl
  | cons e l ih =>
    obtain ⟨x, m⟩ := e
    by_cases hx : a = x
    · simp [hx]
    · rw [lookup_cons_of_ne hx, ih]
      simp [Ne.symm hx]

theorem node?_put (ha : a ≠ []) (n : FileNode) (b : Address) :
    (t.put a n).node? b = if b = a then some n else t.node? b := by
  have hnodes : (t.put a n).nodes.lookup b = if b = a then some n else t.nodes.lookup b := by
    rw [put]
    cases hany : t.nodes.any (·.1 = a) with
    | true =>
      rw [if_pos rfl, lookup_map_put]
      obtain ⟨m, hm⟩ := Option.isSome_iff_exists.1 ((lookup_isSome t.nodes).trans hany)
      rw [hm]
      rfl
    | false =>
      have hnone : t.nodes.lookup a = none := by
        rw [← Option.not_isSome_iff_eq_none, lookup_isSome, hany]
        exact Bool.false_ne_true
      rw [if_neg Bool.false_ne_true, List.lookup_append]
      by_cases hb : b = a
      · simp [hb, hnone]
      · rw [lookup_cons_of_ne hb, if_neg hb]
        exact Option.or_none
  by_cases hb : b = []
  · subst hb
    rw [node?, node?, if_pos rfl, if_pos rfl, if_neg (Ne.symm ha)]
  · rw [node?, if_neg hb, hnodes, node?, if_neg hb]

/-! ## Places for files -/

def IsFree (t : FileTree) (a : Address) : Prop := t.node? a = none ∨ ∃ b mode, t.node? a = some (.file b mode)

theorem IsFree.ne_root (h : t.IsFree a) : a ≠ [] := by
  rintro rfl
  rcases h with h | ⟨b, mode, h⟩ <;> cases h

theorem IsFree.not_dir (h : t.IsFree a) : t.isDirAt a = false := by
  rcases h with h | ⟨b, mode, h⟩ <;> rw [isDirAt, h] <;> rfl

/-- The trees differ in nothing but what stands at `a`. -/
def AgreeOff (t t' : FileTree) (a : Address) : Prop := t'.cwd = t.cwd ∧ ∀ b ≠ a, t'.node? b = t.node? b

theorem agreeOff_put (ha : a ≠ []) (n : FileNode) : AgreeOff t (t.put a n) a := by
  refine ⟨rfl, fun b hb => ?_⟩
  rw [node?_put ha, if_neg hb]

theorem AgreeOff.trans {t'' : FileTree} (h : AgreeOff t t' a) (h' : AgreeOff t' t'' a) : AgreeOff t t'' a := by
  refine ⟨h'.1.trans h.1, fun b hb => ?_⟩
  rw [h'.2 b hb, h.2 b hb]

theorem walk_follow {fuel links : Nat} {d : Address} {ss : List String}
    (h : ∀ b target, t.walk false fuel links d ss = .ok b → t.node? b ≠ some (.link target)) :
    t.walk true fuel links d ss = t.walk false fuel links d ss := by
  induction fuel generalizing links d ss with
  | zero => cases ss <;> rfl
  | succ fuel ih =>
    cases ss with
    | nil => simp [walk]
    | cons s ss =>
      rw [walk] at h ⊢
      rw [walk]
      cases hd : t.isDirAt d with
      | false => simp
      | true =>
        by_cases hidle : Path.isIdle s
        · simp only [hd, hidle, Bool.not_true, Bool.false_eq_true, if_false, if_true] at h ⊢
          exact ih h
        by_cases hparent : s = ".."
        · simp only [hd, hparent, Bool.not_true, Bool.false_eq_true, if_false, if_true] at h ⊢
          exact ih h
        by_cases hsize : nameLimit < s.utf8ByteSize
        · simp [hidle, hparent, hsize]
        simp only [hd, hidle, hparent, hsize, Bool.not_true, Bool.false_eq_true, if_false] at h ⊢
        cases hn : t.node? (d ++ [s]) with
        | none => rfl
        | some n =>
          simp only [hn] at h
          cases n with
          | link target =>
            -- the two differ in a link that is the last segment, and there is none
            cases ss with
            | nil => exact absurd hn (h _ target rfl)
            | cons s' ss =>
              cases links with
              | zero => rfl
              | succ links => exact ih h
          | _ => exact ih h

/-! ## Files that change -/

def contentAt (t : FileTree) (a : Address) : Text.Bytes :=
  match t.node? a with
  | some (.file b _) => b
  | _ => []

theorem contentAt_of_file {b : Text.Bytes} {mode : Nat} (h : t.node? a = some (.file b mode)) : t.contentAt a = b := by
  rw [contentAt, h]

theorem modify_free (h : t.IsFree a) (f : Text.Bytes → Text.Bytes) :
    AgreeOff t (t.modify a f) a ∧ ∃ mode, (t.modify a f).node? a = some (.file (f (t.contentAt a)) mode) := by
  have ha := h.ne_root
  rcases h with h | ⟨b, mode, h⟩
  · refine ⟨?_, newFileMode, ?_⟩
    · simp only [modify, h]
      exact agreeOff_put ha _
    · simp only [modify, h, contentAt]
      rw [node?_put ha, if_pos rfl]
  · refine ⟨?_, mode, ?_⟩
    · simp only [modify, h]
      exact agreeOff_put ha _
    · simp only [modify, h, contentAt]
      rw [node?_put ha, if_pos rfl]

theorem contentAt_modify (h : t.IsFree a) (f : Text.Bytes → Text.Bytes) :
    (t.modify a f).contentAt a = f (t.contentAt a) := by
  obtain ⟨_, mode, hfile⟩ := modify_free h f
  exact contentAt_of_file hfile

/-! ## What a path leads to -/

theorem ok_bind {ε α β : Type} (x : α) (f : α → Except ε β) : ((.ok x : Except ε α) >>= f) = f x := rfl

theorem mapError_ok {ε δ α : Type} (x : α) (f : ε → δ) : (.ok x : Except ε α).mapError f = .ok x := rfl

theorem lookup_eq_ok {path : String} {n : FileNode} :
    t.lookup path = .ok (a, n) ↔ t.resolve true path = .ok a ∧ t.node? a = some n := by
  constructor
  · intro h
    unfold lookup at h
    cases hres : t.resolve true path with
    | error e =>
      rw [hres] at h
      cases h
    | ok b =>
      rw [hres] at h
      simp only [mapError_ok, ok_bind] at h
      split at h
      · rename_i hn
        cases h
        exact ⟨rfl, hn⟩
      · cases h
  · intro h
    rw [lookup, h.1]
    simp only [mapError_ok, ok_bind, h.2]

theorem get?_eq_some {path : String} {n : FileNode} :
    t.get? path = some n ↔ ∃ a, t.resolve true path = .ok a ∧ t.node? a = some n := by
  unfold get?
  constructor
  · intro h
    cases hlookup : t.lookup path with
    | error e =>
      rw [hlookup] at h
      cases h
    | ok found =>
      rw [hlookup] at h
      cases h
      exact ⟨found.1, lookup_eq_ok.1 hlookup⟩
  · intro h
    obtain ⟨a, ha⟩ := h
    rw [lookup_eq_ok.2 ha]
    rfl

theorem exists_iff {path : String} :
    t.exists_ path = true ↔ ∃ a n, t.resolve true path = .ok a ∧ t.node? a = some n := by
  rw [FileTree.exists_, Option.isSome_iff_exists, exists_comm]
  exact exists_congr fun _ => get?_eq_some

end FileTree

end Casework
