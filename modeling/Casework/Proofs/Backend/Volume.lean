import Casework.Backend.CommandLine
import Casework.Proofs.Host.Components

/-!
# The volume as the engine reads it

The engine takes the volume apart at its colons. The directory that is bound is written as it is, so it comes back just
if no name on the way to it has a colon.
-/

namespace Casework

namespace Path

theorem mem_split {c : Char} (hc : c ≠ '/') {cs : List Char} : c ∈ cs ↔ ∃ s ∈ split cs, c ∈ s := by
  induction cs with
  | nil => simp [split]
  | cons d cs ih =>
    rw [List.mem_cons, ih, split]
    split
    · rename_i hd
      subst hd
      simp [hc]
    · split
      · rename_i hnil
        exact absurd hnil (split_ne_nil cs)
      · rename_i hsplit
        simp [hsplit, or_assoc]

theorem mem_toList_iff {c : Char} (hc : c ≠ '/') (p : String) :
    c ∈ p.toList ↔ ∃ s ∈ segments p, c ∈ s.toList := by
  rw [mem_split hc]
  unfold segments
  constructor
  · intro h
    obtain ⟨s, hs, hmem⟩ := h
    refine ⟨.ofList s, List.mem_map_of_mem hs, ?_⟩
    rwa [String.toList_ofList]
  · intro h
    obtain ⟨s, hs, hmem⟩ := h
    obtain ⟨cs, hcs, rfl⟩ := List.mem_map.1 hs
    rw [String.toList_ofList] at hmem
    exact ⟨cs, hcs, hmem⟩

theorem normal_mem_components {name p : String} :
    .normal name ∈ components p ↔ name ∈ segments p ∧ isIdle name = false ∧ name ≠ ".." := by
  have hlead : .normal name ∉ (lead p).1.toList := by
    unfold lead
    split
    · simp
    split <;> simp
  rw [components_eq, List.mem_append, or_iff_right hlead, List.mem_filterMap]
  unfold componentOf?
  constructor
  · intro h
    obtain ⟨s, hs, hcomponent⟩ := h
    split at hcomponent
    · cases hcomponent
    split at hcomponent
    · cases hcomponent
    · rename_i hidle hparent
      cases hcomponent
      exact ⟨hs, Bool.eq_false_iff.2 hidle, hparent⟩
  · intro h
    obtain ⟨hs, hidle, hparent⟩ := h
    refine ⟨name, hs, ?_⟩
    rw [hidle, if_neg Bool.false_ne_true, if_neg hparent]

theorem mem_toList_iff_normal {c : Char} (hslash : c ≠ '/') (hdot : c ≠ '.') (p : String) :
    c ∈ p.toList ↔ ∃ name, .normal name ∈ components p ∧ c ∈ name.toList := by
  rw [mem_toList_iff hslash]
  constructor
  · intro h
    obtain ⟨s, hs, hmem⟩ := h
    refine ⟨s, normal_mem_components.2 ⟨hs, ?_, ?_⟩, hmem⟩
    · unfold isIdle
      rw [Bool.or_eq_false_iff, decide_eq_false_iff_not, decide_eq_false_iff_not]
      constructor
      · rintro rfl
        cases hmem
      · rintro rfl
        exact hdot (List.mem_singleton.1 hmem)
    · rintro rfl
      simp [hdot] at hmem
  · intro h
    obtain ⟨name, hname, hmem⟩ := h
    exact ⟨name, (normal_mem_components.1 hname).1, hmem⟩

end Path

namespace Container

/-! ## Reading a volume -/

structure Binding where
  hostDir : String
  inner : String
  options : Option String
  deriving DecidableEq, Repr

def fields (volume : String) : List String := (volume.toList.splitOn ':').map .ofList

/-- An engine refuses what has not two fields, or three with the options. -/
def readVolume? (volume : String) : Option Binding :=
  match fields volume with
  | [hostDir, inner] => some ⟨hostDir, inner, none⟩
  | [hostDir, inner, options] => some ⟨hostDir, inner, some options⟩
  | _ => none

theorem fields_self {s : String} (h : ':' ∉ s.toList) : fields s = [s] := by
  have hnone : ∀ c ∈ s.toList, (c == ':') = false := by
    intro c hc
    rw [beq_eq_false_iff_ne]
    rintro rfl
    exact h hc
  unfold fields List.splitOn
  rw [List.splitOnP_eq_singleton hnone, List.map_singleton, String.ofList_toList]

theorem fields_colon (s r : String) : fields (s ++ ":" ++ r) = fields s ++ fields r := by
  have htext : (s ++ ":" ++ r).toList = s.toList ++ ':' :: r.toList := by simp [String.toList_append]
  have hsplit := List.splitOnP_append_cons s.toList r.toList (p := (· == ':')) (beq_self_eq_true ':')
  unfold fields List.splitOn
  rw [htext, hsplit, List.map_append]

theorem fields_length_pos (s : String) : 0 < (fields s).length := by
  unfold fields List.splitOn
  rw [List.length_map]
  exact List.length_pos_iff.2 (List.splitOnP_ne_nil _ _)

theorem readVolume?_plain {hostDir inner : String} (hdir : ':' ∉ hostDir.toList) (hinner : ':' ∉ inner.toList) :
    readVolume? (volume hostDir inner) = some ⟨hostDir, inner, none⟩ := by
  unfold readVolume? volume
  rw [fields_colon, fields_self hdir, fields_self hinner]
  rfl

theorem readVolume?_shifted {x y inner : String} (hx : ':' ∉ x.toList) (hy : ':' ∉ y.toList) (hinner : ':' ∉ inner.toList) :
    readVolume? (volume (x ++ ":" ++ y) inner) = some ⟨x, y, some inner⟩ := by
  unfold readVolume? volume
  rw [fields_colon, fields_colon, fields_self hx, fields_self hy, fields_self hinner]
  rfl

theorem readVolume?_refused (x y z inner : String) :
    readVolume? (volume (x ++ ":" ++ y ++ ":" ++ z) inner) = none := by
  have hx := fields_length_pos x
  have hy := fields_length_pos y
  have hz := fields_length_pos z
  have hinner := fields_length_pos inner
  have hlength : 4 ≤ (fields (volume (x ++ ":" ++ y ++ ":" ++ z) inner)).length := by
    unfold volume
    rw [fields_colon, fields_colon, fields_colon]
    simp only [List.length_append]
    omega
  unfold readVolume?
  split
  · rename_i h
    rw [h] at hlength
    simp at hlength
  · rename_i h
    rw [h] at hlength
    simp at hlength
  · rfl

theorem exists_colon {s : String} (h : ':' ∈ s.toList) : ∃ x y, s = x ++ ":" ++ y ∧ ':' ∉ x.toList := by
  obtain ⟨front, back, hs, hfront⟩ := List.eq_append_cons_of_mem h
  refine ⟨.ofList front, .ofList back, ?_, ?_⟩
  · rw [← String.toList_inj, hs]
    simp [String.toList_append]
  · rwa [String.toList_ofList]

theorem readVolume?_iff {hostDir inner : String} (hinner : ':' ∉ inner.toList) :
    readVolume? (volume hostDir inner) = some ⟨hostDir, inner, none⟩ ↔ ':' ∉ hostDir.toList := by
  constructor
  · intro hread hcolon
    obtain ⟨x, y, rfl, hx⟩ := exists_colon hcolon
    by_cases hy : ':' ∈ y.toList
    · obtain ⟨y, z, rfl, _⟩ := exists_colon hy
      rw [← String.append_assoc, ← String.append_assoc, readVolume?_refused] at hread
      cases hread
    · rw [readVolume?_shifted hx hy hinner] at hread
      have hoptions := congrArg Binding.options (Option.some.inj hread)
      cases hoptions
  · intro hdir
    exact readVolume?_plain hdir hinner

/-- The engine is handed a volume that it reads as the directory of the store at the mount point, without options, if
and only if no name on the way to that directory has a colon. With one colon in it the engine binds what stands before
the colon where the rest says, and takes the mount point for options; with more it refuses the volume. -/
theorem volume_read_iff {o : ContainerOptions} (hmount : ':' ∉ o.mountPoint.toList) (cwd image store : String) (task : Task) :
    let hostDir := (mountOf cwd store o.mountPoint).hostDir
    ∃ v rest, runArgs cwd image task store o = ["run", "--rm", "-v", v] ++ rest ∧
      (readVolume? v = some ⟨hostDir, o.mountPoint, none⟩ ↔
        ∀ name, .normal name ∈ Path.components hostDir → ':' ∉ name.toList) ∧
      (∀ x y, hostDir = x ++ ":" ++ y → ':' ∉ x.toList → ':' ∉ y.toList →
        readVolume? v = some ⟨x, y, some o.mountPoint⟩) ∧
      ∀ x y z, hostDir = x ++ ":" ++ y ++ ":" ++ z → readVolume? v = none := by
  intro hostDir
  have hargs : ∃ rest, runArgs cwd image task store o = ["run", "--rm", "-v", volume hostDir o.mountPoint] ++ rest :=
    ⟨["-w", o.mountPoint] ++ o.runArgs ++ [image] ++ Text.words task.command ++ task.forwardedArgs ++
      [(mountOf cwd store o.mountPoint).inner], by simp [runArgs, hostDir]⟩
  obtain ⟨rest, hargs⟩ := hargs
  refine ⟨volume hostDir o.mountPoint, rest, hargs, ?_, ?_, ?_⟩
  · have hcolon := Path.mem_toList_iff_normal (c := ':') (by decide) (by decide) hostDir
    rw [readVolume?_iff hmount, hcolon]
    simp only [not_exists, not_and]
  · intro x y hdir hx hy
    rw [hdir]
    exact readVolume?_shifted hx hy hmount
  · intro x y z hdir
    rw [hdir]
    exact readVolume?_refused x y z _

theorem colonDirectory_misread : ∃ v rest,
    runArgs "/work" "alpine" (.docker "alpine" "ls") "a:b/case.store" {} = ["run", "--rm", "-v", v] ++ rest ∧
    readVolume? v = some ⟨"/work/a", "b", some "/store"⟩ := by
  have hmount : ':' ∉ ({} : ContainerOptions).mountPoint.toList := by decide
  have hdir : (mountOf "/work" "a:b/case.store" "/store").hostDir = "/work/a" ++ ":" ++ "b" := by decide +kernel
  obtain ⟨v, rest, hargs, _, hone, _⟩ := volume_read_iff hmount "/work" "alpine" "a:b/case.store" (.docker "alpine" "ls")
  exact ⟨v, rest, hargs, hone "/work/a" "b" hdir (by decide) (by decide)⟩

end Container

end Casework
