import Casework.Host.System
import Casework.Proofs.Host.Entries

/-!
# Trees of names

Whatever is put into a tree through paths stands under names, so a bare system and all that is laid out in it hold
nothing but names.
-/

namespace Casework

namespace Path

theorem isName_iff {s : String} : IsName s ↔ '/' ∉ s.toList ∧ isIdle s = false ∧ s ≠ ".." :=
  ⟨fun h => ⟨h.noSlash, h.notIdle, h.notParent⟩, fun h => ⟨h.1, h.2.1, h.2.2⟩⟩

instance (s : String) : Decidable (IsName s) := decidable_of_iff _ isName_iff.symm

end Path

namespace FileTree

variable {t t' : FileTree} {a : Address} {path : String}

/-- All that stands in the tree stands under names. -/
def Named (t : FileTree) : Prop := ∀ e ∈ t.nodes, ∀ n ∈ e.1, Path.IsName n

theorem isName_of_resolve {follow : Bool} (h : t.resolve follow path = .ok a) : ∀ n ∈ a, Path.IsName n := by
  obtain ⟨fuel, hwalk⟩ := walks_of_resolve h
  apply hwalk.isName
  · intro n hn
    cases hn
  · intro s hs
    exact Path.noSlash_of_mem_segments hs

namespace Named

theorem isName_of_isSome {d : Address} {n : String} (h : t.Named) (hn : (t.node? (d ++ [n])).isSome) : Path.IsName n := by
  have hne : d ++ [n] ≠ [] := by simp
  unfold node? at hn
  rw [if_neg hne, lookup_isSome, List.any_eq_true] at hn
  obtain ⟨e, he, haddress⟩ := hn
  apply h e he
  rw [of_decide_eq_true haddress]
  exact List.mem_append_right _ List.mem_cons_self

theorem put (h : t.Named) (ha : ∀ n ∈ a, Path.IsName n) (n : FileNode) : (t.put a n).Named := by
  intro e he
  unfold FileTree.put at he
  dsimp only at he
  split at he
  · obtain ⟨e', he', heq⟩ := List.mem_map.1 he
    split at heq
    · rw [← heq]
      exact ha
    · rw [← heq]
      exact h e' he'
  · rcases List.mem_append.1 he with he | he
    · exact h e he
    · rw [List.mem_singleton.1 he]
      exact ha

theorem modify (h : t.Named) (ha : ∀ n ∈ a, Path.IsName n) (f : Text.Bytes → Text.Bytes) : (t.modify a f).Named := by
  unfold FileTree.modify
  split
  · exact h.put ha _
  · exact h.put ha _
  · exact h

theorem create (h : t.Named) (hcreate : t.create path = .ok (t', a)) : t'.Named := by
  obtain ⟨hres, ht⟩ := create_eq hcreate
  rw [ht]
  exact h.modify (isName_of_resolve hres) _

theorem write {b : Text.Bytes} (h : t.Named) (hwrite : t.write path b = .ok t') : t'.Named := by
  unfold FileTree.write at hwrite
  cases hcreate : t.create path with
  | error e =>
    rw [hcreate] at hwrite
    cases hwrite
  | ok made =>
    rw [hcreate] at hwrite
    cases hwrite
    exact (h.create hcreate).modify (isName_of_resolve (create_eq hcreate).1) _

theorem makeDir (h : t.Named) (hmake : t.makeDir path = .ok t') : t'.Named := by
  unfold FileTree.makeDir at hmake
  cases hres : t.resolve false (withoutSlashes path) with
  | error e =>
    rw [hres] at hmake
    cases hmake
  | ok a =>
    rw [hres, ok_bind] at hmake
    split at hmake
    · cases hmake
    split at hmake
    · cases hmake
      exact h.put (isName_of_resolve hres) _
    · cases hmake

theorem makeLink {target : String} (h : t.Named) (hmake : t.makeLink target path = .ok t') : t'.Named := by
  unfold FileTree.makeLink at hmake
  cases hres : t.resolve false path with
  | error e =>
    rw [hres] at hmake
    cases hmake
  | ok a =>
    rw [hres, ok_bind] at hmake
    split at hmake
    · cases hmake
    split at hmake
    · cases hmake
      exact h.put (isName_of_resolve hres) _
    · cases hmake

theorem makeDirsFrom (h : t.Named) (fuel : Nat) (path : String) : (makeDirsFrom fuel t path).1.Named := by
  induction fuel generalizing t path with
  | zero => exact h
  | succ fuel ih =>
    unfold FileTree.makeDirsFrom
    split
    · exact h
    split
    · rename_i made hmake
      exact h.makeDir hmake
    · rename_i p _ _
      have hp := ih h p
      split
      · rename_i hrest
        rw [hrest] at hp
        exact hp
      · rename_i hrest
        rw [hrest] at hp
        split
        · rename_i hmake
          exact hp.makeDir hmake
        · exact hp
    · exact h

theorem makeDirs (h : t.Named) (path : String) : (t.makeDirs path).1.Named := h.makeDirsFrom _ path

theorem setMode (h : t.Named) (path : String) (mode : Nat) : (t.setMode path mode).Named := by
  unfold FileTree.setMode
  split
  · rename_i a b m hlookup
    exact h.put (isName_of_resolve ((lookup_eq_ok.1 hlookup).1)) _
  · exact h

theorem getD {r : Except OsError FileTree} (h : t.Named) (hr : ∀ t', r = .ok t' → t'.Named) :
    (r.toOption.getD t).Named := by
  cases r with
  | error e => exact h
  | ok t' => exact hr t' rfl

theorem layOut (h : t.Named) (e : FileEntry) : (t.layOut e).Named := by
  have hfile {base : FileTree} (hbase : base.Named) (b : Text.Bytes) (mode : Nat) :
      (((base.write e.path b).toOption.getD base).setMode e.path mode).Named :=
    (hbase.getD fun t' ht => hbase.write ht).setMode _ _
  have hlink {base : FileTree} (hbase : base.Named) (target : String) :
      ((base.makeLink target e.path).toOption.getD base).Named :=
    hbase.getD fun t' ht => hbase.makeLink ht
  unfold FileTree.layOut
  dsimp only
  split
  · apply hfile
    split
    · exact h.makeDirs _
    · exact h
  · apply hlink
    split
    · exact h.makeDirs _
    · exact h
  · apply makeDirs
    split
    · exact h.makeDirs _
    · exact h

theorem layOutAll (h : t.Named) (entries : List FileEntry) : (entries.foldl FileTree.layOut t).Named := by
  induction entries generalizing t with
  | nil => exact h
  | cons e entries ih => exact ih (h.layOut e)

end Named

theorem named_bare (cwd : String) : (bare cwd).Named := by
  have hsystem : Named ⟨systemNodes, "/"⟩ := by
    unfold Named
    decide +kernel
  exact hsystem.makeDirs cwd

end FileTree

end Casework
