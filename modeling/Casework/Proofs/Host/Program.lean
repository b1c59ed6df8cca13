import Casework.Host.Program
import Casework.Proofs.Host.Entries
import Casework.Proofs.Text.Octets

/-!
# What the system is asked to start

A name with a slash is the path of a program itself. Any other name is looked for in the directories of the search path,
so it is a path only if that path has the current directory and nothing else.
-/

namespace Casework

namespace Program

open Text

/-- The paths that the system tries for the name of a program, one after the other. -/
def asked (env : NameMap String) (name : String) : List String := if hasSlash name then [name] else candidates env name

theorem hasSlash_iff {name : String} : hasSlash name = true ↔ '/' ∈ name.toList := by
  rw [hasSlash, List.contains_iff_mem]

theorem firstOf_ok {α : Type} {start : String → Except OsError α} {denied : Bool} {ps : List String} {r : α}
    (h : firstOf start denied ps = .ok r) : ∃ p ∈ ps, start p = .ok r := by
  induction ps generalizing denied with
  | nil => cases h
  | cons p ps ih =>
    rw [firstOf] at h
    cases hp : start p with
    | ok r' =>
      rw [hp] at h
      cases h
      exact ⟨p, List.mem_cons_self, hp⟩
    | error e =>
      rw [hp] at h
      dsimp only at h
      split at h
      · obtain ⟨q, hq, hstart⟩ := ih h
        exact ⟨q, List.mem_cons_of_mem _ hq, hstart⟩
      · cases h

theorem exists_asked_of_launch {t : FileTree} {env : NameMap String} {name : String} {args : List String}
    {r : Utility × List String} (h : launch t env name args = .ok r) : ∃ p ∈ asked env name, start t env p args = .ok r := by
  rw [launch] at h
  rw [asked]
  split at h
  · cases h
  split at h
  · rename_i hslash
    rw [if_pos hslash]
    exact ⟨name, List.mem_singleton.2 rfl, h⟩
  rename_i hslash
  rw [if_neg hslash]
  split at h
  · cases h
  · exact firstOf_ok h

theorem asked_self_iff (env : NameMap String) (p : String) :
    (asked env (toOctets p)).map pathOf = [p] ↔ '/' ∈ p.toList ∨ searchPath env = [""] := by
  by_cases hslash : '/' ∈ p.toList
  · have hname : hasSlash (toOctets p) = true := hasSlash_iff.2 (slash_mem_toOctets.2 hslash)
    rw [asked, if_pos hname, List.map_singleton, pathOf_toOctets]
    exact iff_of_true rfl (.inl hslash)
  · have hname : ¬ hasSlash (toOctets p) = true := fun h => hslash (slash_mem_toOctets.1 (hasSlash_iff.1 h))
    rw [asked, if_neg hname, candidates, List.map_map, or_iff_right hslash]
    constructor
    · intro h
      obtain ⟨d, hd, hcandidate⟩ := List.map_eq_singleton_iff.1 h
      rw [hd]
      by_cases hempty : d.isEmpty = true
      · rw [String.isEmpty_iff.1 hempty]
      -- a directory in front would put a slash into the path
      · rw [Function.comp_apply, if_neg hempty] at hcandidate
        refine absurd (hcandidate ▸ slash_mem_pathOf ?_) hslash
        simp [String.toList_append]
    · intro h
      rw [h, List.map_singleton]
      exact congrArg (fun q => [q]) (pathOf_toOctets p)

end Program

end Casework
