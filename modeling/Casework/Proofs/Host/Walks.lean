import Casework.Host.FileTree
import Casework.Proofs.Host.Components

/-!
# Walks step by step

A walk that arrives takes one segment after the other. What a step can do is said once, as a relation, and all that
a walk keeps is shown by induction on it.
-/

namespace Casework

namespace FileTree

variable {t : FileTree} {follow : Bool} {fuel links : Nat} {a d : Address} {s : String} {ss : List String}

structure AsksEntry (s : String) : Prop where
  notIdle : Path.isIdle s = false
  notParent : s ≠ ".."
  short : s.utf8ByteSize ≤ nameLimit

/-- The walk arrives at `a`. -/
inductive Walks (t : FileTree) (follow : Bool) (a : Address) : Nat → Nat → Address → List String → Prop where
  | arrived {fuel links : Nat} : Walks t follow a fuel links a []
  | idle {fuel links : Nat} {d : Address} {s : String} {ss : List String} (hd : t.isDirAt d = true)
    (hs : Path.isIdle s = true) (rest : Walks t follow a fuel links d ss) : Walks t follow a (fuel + 1) links d (s :: ss)
  | up {fuel links : Nat} {d : Address} {ss : List String} (hd : t.isDirAt d = true)
    (rest : Walks t follow a fuel links d.dropLast ss) : Walks t follow a (fuel + 1) links d (".." :: ss)
  | missing {fuel links : Nat} {d : Address} {s : String} (hd : t.isDirAt d = true) (hs : AsksEntry s)
    (hn : t.node? (d ++ [s]) = none) (ha : a = d ++ [s]) : Walks t follow a (fuel + 1) links d [s]
  | linkItself {fuel links : Nat} {d : Address} {s target : String} (hd : t.isDirAt d = true) (hs : AsksEntry s)
    (hn : t.node? (d ++ [s]) = some (.link target)) (hfollow : follow = false) (ha : a = d ++ [s]) :
    Walks t follow a (fuel + 1) links d [s]
  | linked {fuel links : Nat} {d : Address} {s target : String} {ss : List String} (hd : t.isDirAt d = true)
    (hs : AsksEntry s) (hn : t.node? (d ++ [s]) = some (.link target)) (hmore : ss ≠ [] ∨ follow = true)
    (rest : Walks t follow a fuel links (if Path.isAbsolute target then [] else d) (Path.segments target ++ ss)) :
    Walks t follow a (fuel + 1) (links + 1) d (s :: ss)
  | entered {fuel links : Nat} {d : Address} {s : String} {ss : List String} {n : FileNode} (hd : t.isDirAt d = true)
    (hs : AsksEntry s) (hn : t.node? (d ++ [s]) = some n) (hlink : ∀ target, n ≠ .link target)
    (rest : Walks t follow a fuel links (d ++ [s]) ss) : Walks t follow a (fuel + 1) links d (s :: ss)

theorem walks_of_walk (h : t.walk follow fuel links d ss = .ok a) : Walks t follow a fuel links d ss := by
  have isDir {d : Address} (hd : ¬ (!t.isDirAt d) = true) : t.isDirAt d = true := by simpa using hd
  have asks {s : String} (hidle : ¬ Path.isIdle s = true) (hparent : ¬ s = "..") (hshort : ¬ nameLimit < s.utf8ByteSize) :
      AsksEntry s := ⟨Bool.eq_false_iff.2 hidle, hparent, Nat.le_of_not_lt hshort⟩
  -- one case for each way to go on; all others are errors
  fun_induction FileTree.walk t follow fuel links d ss with
  | case1 =>
    cases h
    exact .arrived
  | case4 _ _ _ _ _ hd hidle ih => exact .idle (isDir hd) hidle (ih h)
  | case5 _ _ _ _ hd _ ih => exact .up (isDir hd) (ih h)
  | case7 _ _ _ _ _ hd hidle hparent hshort _ _ hn hend =>
    simp only [Bool.and_eq_true, List.isEmpty_iff, Bool.not_eq_true'] at hend
    obtain ⟨rfl, hfollow⟩ := hend
    exact .linkItself (isDir hd) (asks hidle hparent hshort) hn hfollow (Except.ok.inj h).symm
  | case9 _ _ _ ss hd hidle hparent hshort _ _ hn hmore _ _ ih =>
    refine .linked (isDir hd) (asks hidle hparent hshort) hn ?_ (ih h)
    by_cases hss : ss = []
    · right
      simpa [hss] using hmore
    · exact .inl hss
  | case10 _ _ _ _ _ hd hidle hparent hshort _ _ hlink hn ih =>
    exact .entered (isDir hd) (asks hidle hparent hshort) hn hlink (ih h)
  | case11 _ _ _ _ _ hd hidle hparent hshort _ hn hend =>
    rw [List.isEmpty_iff.1 hend]
    exact .missing (isDir hd) (asks hidle hparent hshort) hn (Except.ok.inj h).symm
  | _ => cases h

theorem Walks.walk (h : Walks t follow a fuel links d ss) : t.walk follow fuel links d ss = .ok a := by
  induction h with
  | arrived => simp [FileTree.walk]
  | idle hd hs _ ih => simp [FileTree.walk, hd, hs, ih]
  | up hd _ ih =>
    have hs : Path.isIdle ".." = false := by decide
    simp [FileTree.walk, hd, hs, ih]
  | missing hd hs hn ha => simp [FileTree.walk, hd, hs.notIdle, hs.notParent, Nat.not_lt.2 hs.short, hn, ha]
  | linkItself hd hs hn hfollow ha =>
    simp [FileTree.walk, hd, hs.notIdle, hs.notParent, Nat.not_lt.2 hs.short, hn, hfollow, ha]
  | @linked _ _ _ _ _ ss hd hs hn hmore _ ih =>
    have hend : (ss.isEmpty && !follow) = false := by
      rw [Bool.and_eq_false_iff, List.isEmpty_eq_false_iff, Bool.not_eq_false']
      exact hmore
    simp [FileTree.walk, hd, hs.notIdle, hs.notParent, Nat.not_lt.2 hs.short, hn, hend, ih]
  | entered hd hs hn _ _ ih =>
    simp [FileTree.walk, hd, hs.notIdle, hs.notParent, Nat.not_lt.2 hs.short, hn, ih]

theorem walk_eq_ok : t.walk follow fuel links d ss = .ok a ↔ Walks t follow a fuel links d ss :=
  ⟨walks_of_walk, Walks.walk⟩

namespace Walks

/-! ## Walks in parts -/

theorem mono {fuel' : Nat} (h : Walks t follow a fuel links d ss) (hle : fuel ≤ fuel') :
    Walks t follow a fuel' links d ss := by
  have hpred {m n : Nat} (h : m + 1 ≤ n) : ∃ k, n = k + 1 ∧ m ≤ k := ⟨n - 1, by omega, by omega⟩
  induction h generalizing fuel' with
  | arrived => exact .arrived
  | idle hd hs _ ih =>
    obtain ⟨k, rfl, hk⟩ := hpred hle
    exact .idle hd hs (ih hk)
  | up hd _ ih =>
    obtain ⟨k, rfl, hk⟩ := hpred hle
    exact .up hd (ih hk)
  | missing hd hs hn ha =>
    obtain ⟨k, rfl, _⟩ := hpred hle
    exact .missing hd hs hn ha
  | linkItself hd hs hn hfollow ha =>
    obtain ⟨k, rfl, _⟩ := hpred hle
    exact .linkItself hd hs hn hfollow ha
  | linked hd hs hn hmore _ ih =>
    obtain ⟨k, rfl, hk⟩ := hpred hle
    exact .linked hd hs hn hmore (ih hk)
  | entered hd hs hn hlink _ ih =>
    obtain ⟨k, rfl, hk⟩ := hpred hle
    exact .entered hd hs hn hlink (ih hk)

theorem unique {b : Address} {fuel' : Nat} (h : Walks t follow a fuel links d ss)
    (h' : Walks t follow b fuel' links d ss) : a = b := by
  have hwalk := (h.mono (Nat.le_max_left fuel fuel')).walk
  have hwalk' := (h'.mono (Nat.le_max_right fuel fuel')).walk
  exact Except.ok.inj (hwalk.symm.trans hwalk')

theorem parts (h : Walks t follow a fuel links d (ss ++ [s])) :
    ∃ fuel' links' b, Walks t true b fuel links d ss ∧ Walks t follow a fuel' links' b [s] := by
  induction fuel generalizing links d ss with
  | zero => cases ss <;> cases h
  | succ fuel ih =>
    cases ss with
    | nil => exact ⟨_, _, d, .arrived, h⟩
    | cons x ss =>
      rw [List.cons_append] at h
      generalize hall : ss ++ [s] = all at h
      cases h with
      | idle hd hs rest =>
        subst hall
        obtain ⟨fuel', links', b, hpre, hlast⟩ := ih rest
        exact ⟨fuel', links', b, .idle hd hs hpre, hlast⟩
      | up hd rest =>
        subst hall
        obtain ⟨fuel', links', b, hpre, hlast⟩ := ih rest
        exact ⟨fuel', links', b, .up hd hpre, hlast⟩
      | missing => simp at hall
      | linkItself => simp at hall
      | linked hd hs hn _ rest =>
        subst hall
        rw [← List.append_assoc] at rest
        obtain ⟨fuel', links', b, hpre, hlast⟩ := ih rest
        exact ⟨fuel', links', b, .linked hd hs hn (.inr rfl) hpre, hlast⟩
      | entered hd hs hn hlink rest =>
        subst hall
        obtain ⟨fuel', links', b, hpre, hlast⟩ := ih rest
        exact ⟨fuel', links', b, .entered hd hs hn hlink hpre, hlast⟩

theorem arrived_eq (h : Walks t follow a fuel links d []) : a = d := by
  cases h
  rfl

theorem of_not_dir (hd : t.isDirAt d = false) (h : Walks t follow a fuel links d ss) : ss = [] ∧ a = d := by
  have hnot (hdir : t.isDirAt d = true) : ss = [] ∧ a = d := by
    rw [hd] at hdir
    cases hdir
  cases h with
  | arrived => exact ⟨rfl, rfl⟩
  | idle hdir => exact hnot hdir
  | up hdir => exact hnot hdir
  | missing hdir => exact hnot hdir
  | linkItself hdir => exact hnot hdir
  | linked hdir => exact hnot hdir
  | entered hdir => exact hnot hdir

theorem idle_last (hs : Path.isIdle s = true) (h : Walks t follow a fuel links d [s]) : a = d ∧ t.isDirAt d = true := by
  cases h with
  | idle hd _ rest => exact ⟨rest.arrived_eq, hd⟩
  | up => exact absurd hs (by decide)
  | missing _ hs' => exact absurd hs (by simp [hs'.notIdle])
  | linkItself _ hs' => exact absurd hs (by simp [hs'.notIdle])
  | linked _ hs' => exact absurd hs (by simp [hs'.notIdle])
  | entered _ hs' => exact absurd hs (by simp [hs'.notIdle])

/-! ## What walks keep -/

theorem dirs_above (hd : ∀ b, b <+: d → b ≠ d → t.isDirAt b = true) (h : Walks t follow a fuel links d ss) :
    ∀ b, b <+: a → b ≠ a → t.isDirAt b = true := by
  have hdown {d : Address} (hd : ∀ b, b <+: d → b ≠ d → t.isDirAt b = true) (hdir : t.isDirAt d = true) (s : String) :
      ∀ b, b <+: d ++ [s] → b ≠ d ++ [s] → t.isDirAt b = true := by
    intro b hb hne
    rcases List.prefix_concat_iff.1 hb with hb | hb
    · exact absurd hb hne
    · by_cases hbd : b = d
      · rw [hbd, hdir]
      · exact hd b hb hbd
  induction h with
  | arrived => exact hd
  | idle _ _ _ ih => exact ih hd
  | @up _ _ d _ hdir _ ih =>
    apply ih
    intro b hb hne
    by_cases hbd : b = d
    · rw [hbd, hdir]
    · exact hd b (hb.trans (List.dropLast_prefix d)) hbd
  | missing hdir _ _ ha => exact ha ▸ hdown hd hdir _
  | linkItself hdir _ _ _ ha => exact ha ▸ hdown hd hdir _
  | linked _ _ _ _ _ ih =>
    apply ih
    split
    · intro b hb hne
      exact absurd (List.prefix_nil.1 hb) hne
    · exact hd
  | entered hdir _ _ _ _ ih => exact ih (hdown hd hdir _)

theorem isDirAt (hs : Path.isIdle s = true ∨ s = "..") (h : Walks t follow a fuel links [] (ss ++ [s])) :
    t.isDirAt a = true := by
  obtain ⟨fuel', links', b, hpre, hlast⟩ := h.parts
  have habove : ∀ c, c <+: b → c ≠ b → t.isDirAt c = true := by
    apply hpre.dirs_above
    intro c hc hne
    exact absurd (List.prefix_nil.1 hc) hne
  rcases hs with hs | hs
  · obtain ⟨hab, hdir⟩ := hlast.idle_last hs
    rw [hab, hdir]
  · subst hs
    cases hlast with
    | idle _ hs => exact absurd hs (by decide)
    | up hdir rest =>
      rw [rest.arrived_eq]
      by_cases hb : b.dropLast = b
      · rw [hb, hdir]
      · exact habove _ (List.dropLast_prefix b) hb
    | missing _ hs => exact absurd rfl hs.notParent
    | linkItself _ hs => exact absurd rfl hs.notParent
    | linked _ hs => exact absurd rfl hs.notParent
    | entered _ hs => exact absurd rfl hs.notParent

theorem name_last (hs : Path.IsName s) (h : Walks t follow a fuel links d [s]) :
    t.isDirAt d = true ∧ ((∃ target, t.node? (d ++ [s]) = some (.link target)) ∨ a = d ++ [s]) := by
  cases h with
  | idle _ hidle => exact absurd hidle (by simp [hs.notIdle])
  | up => exact absurd rfl hs.notParent
  | missing hd _ _ ha => exact ⟨hd, .inr ha⟩
  | linkItself hd _ _ _ ha => exact ⟨hd, .inr ha⟩
  | linked hd _ hn => exact ⟨hd, .inl ⟨_, hn⟩⟩
  | entered hd _ _ _ rest => exact ⟨hd, .inr rest.arrived_eq⟩

theorem isName (hd : ∀ n ∈ d, Path.IsName n) (hss : ∀ s ∈ ss, '/' ∉ s.toList) (h : Walks t follow a fuel links d ss) :
    ∀ n ∈ a, Path.IsName n := by
  have hentry {d : Address} {s : String} (hd : ∀ n ∈ d, Path.IsName n) (hs : AsksEntry s) (hslash : '/' ∉ s.toList) :
      ∀ n ∈ d ++ [s], Path.IsName n := by
    intro n hn
    rcases List.mem_append.1 hn with hn | hn
    · exact hd n hn
    · rw [List.mem_singleton.1 hn]
      exact ⟨hslash, hs.notIdle, hs.notParent⟩
  induction h with
  | arrived => exact hd
  | idle _ _ _ ih => exact ih hd fun s hs => hss s (List.mem_cons_of_mem _ hs)
  | up _ _ ih => exact ih (fun n hn => hd n (List.dropLast_subset _ hn)) fun s hs => hss s (List.mem_cons_of_mem _ hs)
  | missing _ hs _ ha => exact ha ▸ hentry hd hs (hss _ List.mem_cons_self)
  | linkItself _ hs _ _ ha => exact ha ▸ hentry hd hs (hss _ List.mem_cons_self)
  | linked _ _ _ _ _ ih =>
    apply ih
    · split
      · intro n hn
        cases hn
      · exact hd
    · intro s hs
      rcases List.mem_append.1 hs with hs | hs
      · exact Path.noSlash_of_mem_segments hs
      · exact hss s (List.mem_cons_of_mem _ hs)
  | entered _ hs _ _ _ ih =>
    exact ih (hentry hd hs (hss _ List.mem_cons_self)) fun s hs => hss s (List.mem_cons_of_mem _ hs)

end Walks

/-! ## Paths -/

/-- A path with a slash at its end leads to a directory if it leads anywhere, so nothing is left to be checked there. -/
theorem resolve_eq (t : FileTree) (follow : Bool) (path : String) : t.resolve follow path =
    if path.toList.contains '\x00' then .error .nulInPath
    else if path = "" then .error .notFound
    else if pathLimit ≤ path.utf8ByteSize then .error .nameTooLong
    else t.walk follow ((Path.absolute t.cwd path).utf8ByteSize + linkLimit * pathLimit) linkLimit []
      (Path.segments (Path.absolute t.cwd path)) := by
  unfold resolve
  dsimp only
  congr 3
  generalize Path.absolute t.cwd path = full
  cases hwalk : t.walk follow (full.utf8ByteSize + linkLimit * pathLimit) linkLimit [] (Path.segments full) with
  | error e => rfl
  | ok b =>
    change (if _ then _ else Except.ok b) = _
    rw [if_neg]
    rintro ⟨hslash, -, hdir⟩
    obtain ⟨cs, hcs⟩ := List.getLast?_eq_some_iff.1 hslash
    have htext : full = .ofList cs ++ "/" ++ "" := by
      rw [← String.ofList_toList (s := full), hcs, String.ofList_append, String.append_empty]
    rw [htext, Path.segments_slash] at hwalk
    have hroot : t.isDirAt b = true := (walks_of_walk hwalk).isDirAt (.inl (by decide))
    rw [hroot] at hdir
    cases hdir

theorem walks_of_resolve {path : String} (h : t.resolve follow path = .ok a) :
    ∃ fuel, Walks t follow a fuel linkLimit [] (Path.segments (Path.absolute t.cwd path)) := by
  rw [resolve_eq] at h
  split at h
  · cases h
  split at h
  · cases h
  split at h
  · cases h
  exact ⟨_, walks_of_walk h⟩

theorem walks_of_resolve_join {root name : String} (hname : Path.IsName name)
    (h : t.resolve follow (Path.join root name) = .ok a) : ∃ fuel ss, Walks t follow a fuel linkLimit [] (ss ++ [name]) := by
  obtain ⟨fuel, hwalk⟩ := walks_of_resolve h
  obtain ⟨pre, hpre⟩ := Path.segments_absolute_join t.cwd root name
  rw [hpre, Path.segments_name hname] at hwalk
  exact ⟨fuel, pre, hwalk⟩

end FileTree

end Casework
