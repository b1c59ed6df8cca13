import Casework.Proofs.Host.Growth

/-!
# Files at the end of a path

Where a path leads to a file, or to a place where nothing is yet, a file can be put there, and the path leads to it
from then on.
-/

namespace Casework

namespace FileTree

variable {t t' : FileTree} {a : Address}

/-- The path leads to a place for a file, whether or not there is one yet. -/
structure Leads (t : FileTree) (path : String) (a : Address) : Prop where
  free : t.IsFree a
  way : t.resolve true path = .ok a
  /-- Where there is no file yet, not even a link stands at the end of the path. -/
  vacant : t.node? a = none → t.resolve false path = .ok a

variable {path : String}

theorem resolve_follow (h : ∀ b target, t.resolve false path = .ok b → t.node? b ≠ some (.link target)) :
    t.resolve true path = t.resolve false path := by
  rw [resolve_eq] at h ⊢
  rw [resolve_eq]
  split
  · rfl
  split
  · rfl
  split
  · rfl
  rename_i hnul hempty hlong
  simp only [if_neg hnul, if_neg hempty, if_neg hlong] at h
  exact walk_follow h

theorem isDirAt_parent {follow : Bool} (hres : t.resolve follow path = .ok a) (h : t.node? a = none) :
    t.isDirAt a.dropLast = true := by
  obtain ⟨fuel, hwalk⟩ := walks_of_resolve hres
  have hne : a ≠ [] := IsFree.ne_root (.inl h)
  refine hwalk.dirs_above (fun b hb hne => absurd (List.prefix_nil.1 hb) hne) _ (List.dropLast_prefix a) fun heq => ?_
  have hlength := congrArg List.length heq
  have hpos := List.length_pos_iff.2 hne
  rw [List.length_dropLast] at hlength
  omega

theorem leads_of_vacant (hres : t.resolve false path = .ok a) (h : t.node? a = none) : t.Leads path a := by
  refine ⟨.inl h, ?_, fun _ => hres⟩
  rw [resolve_follow, hres]
  intro b target hb hlink
  cases hres.symm.trans hb
  rw [h] at hlink
  cases hlink

theorem fileAddress_of_free (hres : t.resolve true path = .ok a) (h : t.IsFree a) : t.fileAddress path = .ok a := by
  rw [FileTree.fileAddress, hres, ok_bind]
  rcases h with hn | ⟨b, mode, hn⟩
  · simp [hn, isDirAt_parent hres hn]
  · simp [hn]

section
variable (h : t.Leads path a)
include h

theorem Leads.keep {b : Text.Bytes} {mode : Nat} (hoff : AgreeOff t t' a) (h' : t'.node? a = some (.file b mode)) :
    t'.Leads path a := by
  have hgrown := grown_of_agreeOff hoff h.free h'
  refine ⟨.inr ⟨b, mode, h'⟩, hgrown.resolve.2 h.way, fun hn => ?_⟩
  rw [h'] at hn
  cases hn

theorem Leads.modify (f : Text.Bytes → Text.Bytes) : (t.modify a f).Leads path a := by
  obtain ⟨hoff, mode, hfile⟩ := modify_free h.free f
  exact h.keep hoff hfile

theorem Leads.openAppend : t.openAppend path = .ok (t.modify a id, a) := by
  rw [FileTree.openAppend, fileAddress_of_free h.way h.free]
  rfl

theorem Leads.append (b : Text.Bytes) : t.append path b = .ok ((t.modify a id).modify a (· ++ b)) := by
  rw [FileTree.append, h.openAppend]
  rfl

theorem Leads.write (b : Text.Bytes) :
    t.write path b = .ok ((t.modify a fun _ => []).modify a fun _ => b) := by
  rw [FileTree.write, FileTree.create, fileAddress_of_free h.way h.free]
  rfl

theorem Leads.exists_ : t.exists_ path = (t.node? a).isSome := by
  rw [Bool.eq_iff_iff, exists_iff, Option.isSome_iff_exists]
  constructor
  · rintro ⟨b, n, hres, hn⟩
    cases h.way.symm.trans hres
    exact ⟨n, hn⟩
  · rintro ⟨n, hn⟩
    exact ⟨a, n, h.way, hn⟩

theorem Leads.read (hsome : (t.node? a).isSome) : t.read path = .ok (t.contentAt a) := by
  rcases h.free with hn | ⟨b, mode, hn⟩
  · rw [hn] at hsome
    cases hsome
  · rw [FileTree.read, lookup_eq_ok.2 ⟨h.way, hn⟩, contentAt_of_file hn]
    rfl

end

theorem read_of_write {b : Text.Bytes} (h : t.write path b = .ok t')
    (hfile : ∀ n, t.get? path = some n → ∃ c mode, n = .file c mode) : t'.read path = .ok b := by
  cases hcreate : t.create path with
  | error e =>
    rw [FileTree.write, hcreate] at h
    cases h
  | ok made =>
    obtain ⟨t₁, a⟩ := made
    rw [FileTree.write, hcreate] at h
    cases h
    obtain ⟨hres, rfl⟩ := create_eq hcreate
    have hfree : t.IsFree a := by
      cases hn : t.node? a with
      | none => exact .inl hn
      | some n =>
        obtain ⟨c, mode, rfl⟩ := hfile n (get?_eq_some.2 ⟨a, hres, hn⟩)
        exact .inr ⟨c, mode, hn⟩
    obtain ⟨-, mode, hempty⟩ := modify_free hfree fun _ => []
    obtain ⟨-, mode', hwritten⟩ := modify_free (.inr ⟨_, _, hempty⟩) fun _ => b
    have hway := ((grown_modify t a fun _ => []).trans (grown_modify _ a fun _ => b)).resolve.2 hres
    rw [FileTree.read, lookup_eq_ok.2 ⟨hway, hwritten⟩]
    rfl

end FileTree

end Casework
