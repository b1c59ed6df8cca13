import Casework.Host.Path

/-!
# Names at the end of a path

A name has no slash and is neither idle nor the parent. It is the last segment of every path it is joined to.
-/

namespace Casework

namespace Path

theorem split_ne_nil (cs : List Char) : split cs ≠ [] := by
  cases cs with
  | nil => simp [split]
  | cons c cs =>
    rw [split]
    split
    · exact List.cons_ne_nil _ _
    · split <;> exact List.cons_ne_nil _ _

theorem split_slash (a b : List Char) : split (a ++ '/' :: b) = split a ++ split b := by
  induction a with
  | nil => simp [split]
  | cons c a ih =>
    rw [List.cons_append, split, split, ih]
    cases hs : split a with
    | nil => exact absurd hs (split_ne_nil a)
    | cons s ss => split <;> rfl

theorem split_name {cs : List Char} (h : '/' ∉ cs) : split cs = [cs] := by
  induction cs with
  | nil => rfl
  | cons c cs ih =>
    rw [List.mem_cons, not_or] at h
    rw [split, if_neg (Ne.symm h.1), ih h.2]

/-- A name that is a component of its own. -/
structure IsName (s : String) : Prop where
  noSlash : '/' ∉ s.toList
  notIdle : isIdle s = false
  notParent : s ≠ ".."

theorem IsName.ne_empty {s : String} (h : IsName s) : s ≠ "" := by
  rintro rfl
  exact absurd h.notIdle (by decide)

theorem segments_noSlash {s : String} (h : '/' ∉ s.toList) : segments s = [s] := by
  rw [segments, split_name h, List.map_singleton, String.ofList_toList]

theorem segments_name {s : String} (h : IsName s) : segments s = [s] := segments_noSlash h.noSlash

theorem IsName.relative {s : String} (h : IsName s) : isAbsolute s = false := by
  rw [isAbsolute]
  cases hs : s.toList with
  | nil => rfl
  | cons c cs =>
    have hc : '/' ≠ c := by
      intro hc
      exact h.noSlash (by rw [hs, hc]; exact List.mem_cons_self)
    simp [Ne.symm hc]

theorem segments_slash (p q : String) : segments (p ++ "/" ++ q) = segments p ++ segments q := by
  have htext : (p ++ "/" ++ q).toList = p.toList ++ '/' :: q.toList := by simp [String.toList_append]
  rw [segments, htext, split_slash, List.map_append]
  rfl

theorem segments_join (p q : String) : ∃ pre, segments (join p q) = pre ++ segments q := by
  unfold join
  split
  · exact ⟨[], rfl⟩
  split
  · rename_i hlast
    obtain ⟨cs, hcs⟩ := List.getLast?_eq_some_iff.1 hlast
    refine ⟨segments (.ofList cs), ?_⟩
    have hp : p = .ofList cs ++ "/" := by
      rw [← String.ofList_toList (s := p), hcs, String.ofList_append]
    rw [hp, segments_slash]
  · exact ⟨segments p, segments_slash p q⟩

theorem segments_absolute_join (cwd p q : String) :
    ∃ pre, segments (absolute cwd (join p q)) = pre ++ segments q := by
  obtain ⟨pre, hpre⟩ := segments_join p q
  unfold absolute
  split
  · exact ⟨pre, hpre⟩
  · obtain ⟨pre', hpre'⟩ := segments_join cwd (join p q)
    exact ⟨pre' ++ pre, by rw [hpre', hpre, List.append_assoc]⟩

theorem join_suffix (p q : String) : ∃ pre : String, join p q = pre ++ q := by
  rw [join]
  split
  · exact ⟨"", by simp⟩
  · split
    · exact ⟨p, rfl⟩
    · exact ⟨p ++ "/", rfl⟩

/-! ## Names in paths -/

theorem noSlash_of_mem_split {cs s : List Char} (h : s ∈ split cs) : '/' ∉ s := by
  induction cs generalizing s with
  | nil =>
    cases List.mem_singleton.1 h
    exact List.not_mem_nil
  | cons c cs ih =>
    rw [split] at h
    by_cases hc : c = '/'
    · rw [if_pos hc, List.mem_cons] at h
      rcases h with rfl | h
      · exact List.not_mem_nil
      · exact ih h
    · rw [if_neg hc] at h
      have hcons {s : List Char} (hs : '/' ∉ s) : '/' ∉ c :: s := by
        rw [List.mem_cons, not_or]
        exact ⟨Ne.symm hc, hs⟩
      cases hsplit : split cs with
      | nil =>
        rw [hsplit] at h
        cases List.mem_singleton.1 h
        exact hcons List.not_mem_nil
      | cons s' ss =>
        rw [hsplit] at h ih
        rcases List.mem_cons.1 h with rfl | h
        · exact hcons (ih List.mem_cons_self)
        · exact ih (List.mem_cons_of_mem _ h)

theorem mem_segments_of_mem_lead {p s : String} (h : s ∈ (lead p).2) : s ∈ segments p := by
  unfold lead at h
  split at h
  · exact List.mem_of_mem_drop h
  split at h
  · exact List.mem_of_mem_drop h
  · exact h

theorem getLast?_of_fileName? {p name : String} (h : fileName? p = some name) :
    (components p).getLast? = some (.normal name) := by
  unfold fileName? at h
  split at h
  · rename_i hn
    cases h
    exact hn
  · cases h

theorem isName_of_fileName? {p name : String} (h : fileName? p = some name) : IsName name := by
  have hmem := List.mem_of_getLast? (getLast?_of_fileName? h)
  unfold components at hmem
  rw [List.mem_append] at hmem
  rcases hmem with hmem | hmem
  · -- what a path starts with is the root or the directory itself
    unfold lead at hmem
    split at hmem
    · simp at hmem
    split at hmem
    · simp at hmem
    · simp at hmem
  · obtain ⟨s, hs, hcomp⟩ := List.mem_filterMap.1 hmem
    unfold componentOf? at hcomp
    split at hcomp
    · cases hcomp
    split at hcomp
    · cases hcomp
    rename_i hidle hparent
    cases hcomp
    obtain ⟨cs, hcs, hname⟩ := List.mem_map.1 (mem_segments_of_mem_lead hs)
    refine ⟨?_, by simpa using hidle, hparent⟩
    rw [← hname, String.toList_ofList]
    exact noSlash_of_mem_split hcs

theorem join_empty (q : String) : join "" q = q := by simp [join]

theorem join_slash {p q : String} (hq : isAbsolute q = false) (hp : p ≠ "") (h : p.toList.getLast? = some '/') :
    join p q = p ++ q := by
  simp [join, hq, hp, h]

theorem join_plain {p q : String} (hq : isAbsolute q = false) (hp : p ≠ "") (h : p.toList.getLast? ≠ some '/') :
    join p q = p ++ "/" ++ q := by
  simp [join, hq, hp, h]

theorem append_ne_empty (p : String) {q : String} (hq : q ≠ "") : p ++ q ≠ "" := by
  intro h
  apply hq
  have hlist := congrArg String.toList h
  rw [String.toList_append] at hlist
  exact String.toList_eq_nil_iff.1 (List.append_eq_nil_iff.1 hlist).2

end Path

end Casework
