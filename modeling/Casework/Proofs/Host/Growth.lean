import Casework.Proofs.Host.FileTree
import Casework.Proofs.Host.Walks

/-!
# Trees that gain files

Files that come into being, and files whose content changes, lead no path astray: a path leads to the same place as
before, and where it led to nothing it may now lead to a file.
-/

namespace Casework

namespace FileTree

variable {t t' t'' : FileTree} {a : Address}

/-- The trees differ in files only, of which `t'` may have more. -/
structure Grown (t t' : FileTree) : Prop where
  cwd : t'.cwd = t.cwd
  nodes : ∀ b, t'.node? b = t.node? b ∨ t.IsFree b ∧ ∃ content mode, t'.node? b = some (.file content mode)

theorem Grown.refl (t : FileTree) : Grown t t := ⟨rfl, fun _ => .inl rfl⟩

theorem Grown.trans (h : Grown t t') (h' : Grown t' t'') : Grown t t'' where
  cwd := h'.cwd.trans h.cwd
  nodes b := by
    rcases h.nodes b with heq | ⟨hfree, hfile⟩
    · rcases h'.nodes b with heq' | ⟨hfree', hfile'⟩
      · exact .inl (heq'.trans heq)
      · unfold IsFree at hfree' ⊢
        rw [heq] at hfree'
        exact .inr ⟨hfree', hfile'⟩
    · rcases h'.nodes b with heq' | ⟨_, hfile'⟩
      · rw [← heq'] at hfile
        exact .inr ⟨hfree, hfile⟩
      · exact .inr ⟨hfree, hfile'⟩

theorem grown_of_agreeOff {b : Text.Bytes} {mode : Nat} (hoff : AgreeOff t t' a) (hfree : t.IsFree a)
    (hfile : t'.node? a = some (.file b mode)) : Grown t t' where
  cwd := hoff.1
  nodes c := by
    by_cases hc : c = a
    · subst hc
      exact .inr ⟨hfree, b, mode, hfile⟩
    · exact .inl (hoff.2 c hc)

theorem grown_modify (t : FileTree) (a : Address) (f : Text.Bytes → Text.Bytes) : Grown t (t.modify a f) := by
  by_cases hfree : t.IsFree a
  · obtain ⟨hoff, mode, hfile⟩ := modify_free hfree f
    exact grown_of_agreeOff hoff hfree hfile
  · have hsame : t.modify a f = t := by
      unfold IsFree at hfree
      unfold modify
      cases hn : t.node? a with
      | none => exact absurd (.inl hn) hfree
      | some n =>
        cases n with
        | file b mode => exact absurd (.inr ⟨b, mode, hn⟩) hfree
        | _ => rfl
    rw [hsame]
    exact .refl t

section
variable (h : Grown t t')
include h

theorem Grown.isDirAt (b : Address) : t'.isDirAt b = t.isDirAt b := by
  rcases h.nodes b with heq | ⟨hfree, content, mode, hfile⟩
  · unfold FileTree.isDirAt
    rw [heq]
  · rw [hfree.not_dir]
    exact IsFree.not_dir (.inr ⟨content, mode, hfile⟩)

theorem Grown.isSome (hn : (t.node? a).isSome) : (t'.node? a).isSome := by
  rcases h.nodes a with heq | ⟨_, content, mode, hfile⟩
  · rw [heq]
    exact hn
  · rw [hfile]
    rfl

theorem Grown.isFree (hn : t.IsFree a) : t'.IsFree a := by
  rcases h.nodes a with heq | ⟨_, hfile⟩
  · unfold IsFree
    rw [heq]
    exact hn
  · exact .inr hfile

theorem Grown.link {target : String} : t'.node? a = some (.link target) ↔ t.node? a = some (.link target) := by
  rcases h.nodes a with heq | ⟨hfree, content, mode, hfile⟩
  · rw [heq]
  · constructor
    · intro hlink
      cases hfile.symm.trans hlink
    · intro hlink
      rcases hfree with hnone | ⟨_, _, hold⟩
      · cases hnone.symm.trans hlink
      · cases hold.symm.trans hlink

section
variable {follow : Bool} {fuel links : Nat} {d : Address} {ss : List String}

theorem Grown.walks (hwalk : Walks t follow a fuel links d ss) : Walks t' follow a fuel links d ss := by
  induction hwalk with
  | arrived => exact .arrived
  | idle hd hs _ ih => exact .idle ((h.isDirAt _).trans hd) hs ih
  | up hd _ ih => exact .up ((h.isDirAt _).trans hd) ih
  | @missing _ _ d s hd hs hn ha =>
    have hd' := (h.isDirAt d).trans hd
    rcases h.nodes (d ++ [s]) with heq | ⟨_, _, _, hfile⟩
    · exact .missing hd' hs (heq.trans hn) ha
    · rw [ha]
      exact .entered hd' hs hfile (by simp) .arrived
  | linkItself hd hs hn hfollow ha => exact .linkItself ((h.isDirAt _).trans hd) hs (h.link.2 hn) hfollow ha
  | linked hd hs hn hmore _ ih => exact .linked ((h.isDirAt _).trans hd) hs (h.link.2 hn) hmore ih
  | @entered _ _ d s _ _ hd hs hn hlink _ ih =>
    have hd' := (h.isDirAt d).trans hd
    rcases h.nodes (d ++ [s]) with heq | ⟨_, _, _, hfile⟩
    · exact .entered hd' hs (heq.trans hn) hlink ih
    · exact .entered hd' hs hfile (by simp) ih

/-- No walk leads on from a new file, so it goes no further than to where nothing was. -/
theorem Grown.walks_back (hwalk : Walks t' follow a fuel links d ss) : Walks t follow a fuel links d ss := by
  induction hwalk with
  | arrived => exact .arrived
  | idle hd hs _ ih => exact .idle ((h.isDirAt _).symm.trans hd) hs ih
  | up hd _ ih => exact .up ((h.isDirAt _).symm.trans hd) ih
  | @missing _ _ d s hd hs hn ha =>
    refine .missing ((h.isDirAt d).symm.trans hd) hs ?_ ha
    rw [← Option.not_isSome_iff_eq_none]
    intro hsome
    have hsome' := h.isSome hsome
    rw [hn] at hsome'
    cases hsome'
  | linkItself hd hs hn hfollow ha => exact .linkItself ((h.isDirAt _).symm.trans hd) hs (h.link.1 hn) hfollow ha
  | linked hd hs hn hmore _ ih => exact .linked ((h.isDirAt _).symm.trans hd) hs (h.link.1 hn) hmore ih
  | @entered _ _ d s _ _ hd hs hn hlink rest ih =>
    have hd' := (h.isDirAt d).symm.trans hd
    rcases h.nodes (d ++ [s]) with heq | ⟨hnone | ⟨_, _, hold⟩, content, mode, hfile⟩
    · exact .entered hd' hs (heq.symm.trans hn) hlink ih
    · obtain ⟨rfl, ha⟩ := rest.of_not_dir (IsFree.not_dir (.inr ⟨content, mode, hfile⟩))
      exact .missing hd' hs hnone ha
    · exact .entered hd' hs hold (by simp) ih

theorem Grown.walk : t'.walk follow fuel links d ss = .ok a ↔ t.walk follow fuel links d ss = .ok a := by
  rw [walk_eq_ok, walk_eq_ok]
  exact ⟨h.walks_back, h.walks⟩

end

theorem Grown.resolve {path : String} {follow : Bool} :
    t'.resolve follow path = .ok a ↔ t.resolve follow path = .ok a := by
  rw [resolve_eq, resolve_eq, h.cwd]
  split
  · rfl
  split
  · rfl
  split
  · rfl
  exact h.walk

end

structure Gained (t t' : FileTree) : Prop where
  cwd : t'.cwd = t.cwd
  nodes : ∀ b, t'.node? b = t.node? b ∨ t.node? b = none ∧ ∃ content mode, t'.node? b = some (.file content mode)

theorem Gained.refl (t : FileTree) : Gained t t := ⟨rfl, fun _ => .inl rfl⟩

theorem Gained.kept (h : Gained t t') (hn : (t.node? a).isSome) : t'.node? a = t.node? a := by
  rcases h.nodes a with heq | ⟨hnone, _⟩
  · exact heq
  · rw [hnone] at hn
    cases hn

theorem Gained.trans (h : Gained t t') (h' : Gained t' t'') : Gained t t'' where
  cwd := h'.cwd.trans h.cwd
  nodes b := by
    rcases h.nodes b with heq | ⟨hnone, content, mode, hfile⟩
    · rw [← heq]
      exact h'.nodes b
    · right
      refine ⟨hnone, content, mode, ?_⟩
      rw [h'.kept (by rw [hfile]; rfl), hfile]

theorem Gained.grown (h : Gained t t') : Grown t t' where
  cwd := h.cwd
  nodes b := by
    rcases h.nodes b with heq | ⟨hnone, hfile⟩
    · exact .inl heq
    · exact .inr ⟨.inl hnone, hfile⟩

theorem gained_of_agreeOff {b : Text.Bytes} {mode : Nat} (hoff : AgreeOff t t' a) (hn : t.node? a = none)
    (hfile : t'.node? a = some (.file b mode)) : Gained t t' where
  cwd := hoff.1
  nodes c := by
    by_cases hc : c = a
    · subst hc
      exact .inr ⟨hn, b, mode, hfile⟩
    · exact .inl (hoff.2 c hc)

/-! ## Making a file -/

theorem create_eq {path : String} (h : t.create path = .ok (t', a)) :
    t.resolve true path = .ok a ∧ t' = t.modify a (fun _ => []) := by
  unfold create fileAddress at h
  cases hres : t.resolve true path with
  | error e =>
    rw [hres] at h
    cases h
  | ok b =>
    rw [hres] at h
    simp only [ok_bind] at h
    cases hn : t.node? b with
    | none =>
      rw [hn] at h
      cases hdir : t.isDirAt b.dropLast with
      | false =>
        rw [hdir] at h
        cases h
      | true =>
        rw [hdir] at h
        cases h
        exact ⟨rfl, rfl⟩
    | some n =>
      rw [hn] at h
      cases n with
      | dir => cases h
      | _ =>
        cases h
        exact ⟨rfl, rfl⟩

theorem isSome_modify (t : FileTree) (a : Address) (f : Text.Bytes → Text.Bytes) : ((t.modify a f).node? a).isSome := by
  cases hn : t.node? a with
  | none =>
    obtain ⟨_, mode, hfile⟩ := modify_free (.inl hn) f
    rw [hfile]
    rfl
  | some n =>
    apply (grown_modify t a f).isSome
    rw [hn]
    rfl

theorem node?_modify_ne {b : Address} (h : b ≠ a) (f : Text.Bytes → Text.Bytes) :
    (t.modify a f).node? b = t.node? b := by
  unfold modify
  split
  · rename_i hn
    rw [node?_put (IsFree.ne_root (.inr ⟨_, _, hn⟩)), if_neg h]
  · rename_i hn
    rw [node?_put (IsFree.ne_root (.inl hn)), if_neg h]
  · rfl

theorem contentAt_modify_ne {b : Address} (h : b ≠ a) (f : Text.Bytes → Text.Bytes) :
    (t.modify a f).contentAt b = t.contentAt b := by
  unfold contentAt
  rw [node?_modify_ne h]

/-! ## Names that lead to something -/

/-- What a name leads to may be elsewhere, through a link, but the name itself stands in some directory. -/
theorem named_of_exists {name : String} (hname : Path.IsName name) {root : String}
    (h : t.exists_ (Path.join root name) = true) : ∃ dir, (t.node? (dir ++ [name])).isSome := by
  obtain ⟨a, n, hres, hn⟩ := exists_iff.1 h
  obtain ⟨_, _, hwalk⟩ := walks_of_resolve_join hname hres
  obtain ⟨_, _, dir, _, hlast⟩ := hwalk.parts
  refine ⟨dir, ?_⟩
  rcases (hlast.name_last hname).2 with ⟨target, hlink⟩ | hdir
  · rw [hlink]
    rfl
  · rw [← hdir, hn]
    rfl

end FileTree

end Casework
