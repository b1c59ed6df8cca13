import Mathlib.Data.List.Induction
import Casework.Backend.CommandLine
import Casework.Proofs.Host.Components

/-!
# The store inside a container

The directory of the store is bound at the mount point. The path that the container is handed leads back to the store
when the mount point in it is taken for that directory.
-/

namespace Casework.Container

open Casework.Path (components IsName)

/-! ## Mount points -/

theorem trimSlashes_slash (p : String) : trimSlashes (p ++ "/") = trimSlashes p := by
  have hlast : (p ++ "/").toList.reverse = '/' :: p.toList.reverse := by simp
  rw [trimSlashes, hlast, List.dropWhile_cons_of_pos (by simp), trimSlashes]

theorem trimSlashes_of_last {p : String} (h : p.toList.getLast? ≠ some '/') : trimSlashes p = p := by
  have hself : p.toList.reverse.dropWhile (· = '/') = p.toList.reverse := by
    cases hp : p.toList.reverse with
    | nil => rfl
    | cons c cs =>
      have hc : c ≠ '/' := by
        rintro rfl
        rw [List.getLast?_eq_head?_reverse, hp] at h
        exact h rfl
      rw [List.dropWhile_cons_of_neg (by simpa using hc)]
  rw [trimSlashes, hself, List.reverse_reverse, String.ofList_toList]

theorem components_below {mountPoint name : String} (hmount : mountPoint ≠ "") (hname : IsName name) :
    components (trimSlashes mountPoint ++ "/" ++ name) = components mountPoint ++ [.normal name] := by
  have hlast : Path.named (Path.segments name) = [.normal name] := by
    rw [Path.segments_name hname, Path.named, List.filterMap_cons_some hname.componentOf?, List.filterMap_nil]
  obtain ⟨cs, rfl⟩ : ∃ cs, mountPoint = String.ofList cs := ⟨_, String.ofList_toList.symm⟩
  -- by the slashes at the end, of which the first may be the root
  induction cs using List.reverseRecOn with
  | nil => exact absurd rfl hmount
  | append_singleton cs c ih =>
    by_cases hc : c = '/'
    · subst hc
      have hsplit : String.ofList (cs ++ ['/']) = .ofList cs ++ "/" := String.ofList_append
      rw [hsplit, trimSlashes_slash]
      by_cases hcs : String.ofList cs = ""
      · rw [hcs]
        exact (Path.components_root name).trans (by rw [hlast]; rfl)
      · rw [ih hcs, Path.components_trailing hcs]
    · have hend : (String.ofList (cs ++ [c])).toList.getLast? ≠ some '/' := by
        rw [String.toList_ofList, List.getLast?_concat]
        exact fun h => hc (Option.some.inj h)
      rw [trimSlashes_of_last hend, Path.components_slash hmount, hlast]

/-! ## The store seen from inside -/

/-- With `hostDir` bound at `mountPoint`, the path `inner` of the container leads where `outer` leads outside of it. -/
def Denotes (hostDir mountPoint inner outer : String) : Prop :=
  ∃ rest, components inner = components mountPoint ++ rest ∧ components outer = components hostDir ++ rest

theorem isAbsolute_absolute {cwd : String} (hcwd : Path.isAbsolute cwd = true) (p : String) :
    Path.isAbsolute (Path.absolute cwd p) = true := by
  rw [Path.absolute]
  split
  · assumption
  · rename_i hp
    have hne : cwd ≠ "" := by
      rintro rfl
      cases hcwd
    rw [Path.join, Bool.eq_false_iff.2 hp, Bool.false_or, decide_eq_false hne, if_neg Bool.false_ne_true]
    split
    · rwa [Path.isAbsolute_append hne]
    · rwa [String.append_assoc, Path.isAbsolute_append hne]

theorem mountOf_name {cwd store dir name : String} (hdir : Path.parent? (Path.absolute cwd store) = some dir)
    (hname : Path.fileName? (Path.absolute cwd store) = some name) (mountPoint : String) :
    mountOf cwd store mountPoint = ⟨dir, trimSlashes mountPoint ++ "/" ++ name⟩ := by
  unfold mountOf
  dsimp only
  rw [hdir, hname]

theorem mountOf_no_name {cwd store : String} (hname : Path.fileName? (Path.absolute cwd store) = none)
    (mountPoint : String) : mountOf cwd store mountPoint = ⟨Path.absolute cwd store, mountPoint⟩ := by
  unfold mountOf
  dsimp only
  rw [hname]
  cases Path.parent? (Path.absolute cwd store) <;> rfl

/-- The directory that is bound is absolute, and the path inside is the mount point or one name behind it. Joined to
the directory, that name, or nothing, leads to the store, and so does the path when it is read inside. The engine is
given the very directory, mount point and path. -/
theorem mount_denotes_store {cwd : String} (hcwd : Path.isAbsolute cwd = true) (store image : String) (task : Task)
    {o : ContainerOptions} (hmount : o.mountPoint ≠ "") :
    let m := mountOf cwd store o.mountPoint
    Path.isAbsolute m.hostDir = true ∧
    (∃ rest, (m.inner = o.mountPoint ∧ rest = "" ∨ m.inner = trimSlashes o.mountPoint ++ "/" ++ rest ∧ IsName rest) ∧
      components (Path.join m.hostDir rest) = components (Path.join cwd store)) ∧
    Denotes m.hostDir o.mountPoint m.inner (Path.join cwd store) ∧
    ∃ between, runArgs cwd image task store o =
      ["run", "--rm", "-v", m.hostDir ++ ":" ++ o.mountPoint, "-w", o.mountPoint] ++ between ++ [m.inner] := by
  intro m
  have habs := isAbsolute_absolute hcwd store
  have hne : ∀ {p : String}, Path.isAbsolute p = true → p ≠ "" := by
    rintro p hp rfl
    cases hp
  have hargs : ∃ between, runArgs cwd image task store o =
      ["run", "--rm", "-v", m.hostDir ++ ":" ++ o.mountPoint, "-w", o.mountPoint] ++ between ++ [m.inner] :=
    ⟨o.runArgs ++ [image] ++ Text.words task.command ++ task.forwardedArgs, by simp [runArgs, volume, m]⟩
  rw [← Path.absolute_eq_join]
  cases hname : Path.fileName? (Path.absolute cwd store) with
  | none =>
    have hm : m = ⟨Path.absolute cwd store, o.mountPoint⟩ := mountOf_no_name hname _
    rw [hm] at hargs ⊢
    refine ⟨habs, ⟨"", .inl ⟨rfl, rfl⟩, ?_⟩, ⟨[], (List.append_nil _).symm, (List.append_nil _).symm⟩, hargs⟩
    exact Path.components_join_empty (hne habs)
  | some name =>
    obtain ⟨dir, hparent, hdir, hcomponents⟩ := Path.exists_parent habs hname
    have hisName := Path.isName_of_fileName? hname
    have hm : m = ⟨dir, trimSlashes o.mountPoint ++ "/" ++ name⟩ := mountOf_name hparent hname _
    rw [hm] at hargs ⊢
    refine ⟨hdir, ⟨name, .inr ⟨rfl, hisName⟩, ?_⟩, ⟨[.normal name], components_below hmount hisName, hcomponents⟩, hargs⟩
    rw [Path.components_join_name (hne hdir) hisName, hcomponents]

theorem dottedStore_denoted :
    mountOf "/tmp/w" "../cases//a.store/." "/data//" = ⟨"/tmp/w/../cases", "/data/a.store"⟩ ∧
    Denotes "/tmp/w/../cases" "/data//" "/data/a.store" (Path.join "/tmp/w" "../cases//a.store/.") := by
  have hm : mountOf "/tmp/w" "../cases//a.store/." "/data//" = ⟨"/tmp/w/../cases", "/data/a.store"⟩ := by decide +kernel
  have hcwd : Path.isAbsolute "/tmp/w" = true := by decide +kernel
  have hmount : ({ mountPoint := "/data//" } : ContainerOptions).mountPoint ≠ "" := by decide +kernel
  have hstore := (mount_denotes_store hcwd "../cases//a.store/." "alpine" (.docker "alpine" "ls") hmount).2.2.1
  rw [hm] at hstore
  exact ⟨hm, hstore⟩

end Casework.Container
