import Casework.Proofs.Host.Growth

/-!
# Entries of directories

A directory is listed by the names that stand in it. The path of a name in a directory leads to the entry of that name,
or through it if it is a link; paths that end in anything but a name lead to directories.
-/

namespace Casework

namespace FileTree

variable {t : FileTree} {a d : Address}

/-! ## Listings -/

theorem mem_childNames {name : String} : name ∈ t.childNames d ↔ (t.node? (d ++ [name])).isSome := by
  have hne : d ++ [name] ≠ [] := by simp
  unfold childNames node?
  rw [if_neg hne, lookup_isSome, List.mem_filterMap, List.any_eq_true]
  constructor
  · intro h
    obtain ⟨e, he, hname⟩ := h
    split at hname
    · rename_i hdir
      obtain ⟨front, hfront⟩ := List.getLast?_eq_some_iff.1 hname
      refine ⟨e, he, decide_eq_true ?_⟩
      rw [← hdir.1, hfront, List.dropLast_concat]
    · cases hname
  · intro h
    obtain ⟨e, he, haddress⟩ := h
    have haddress := of_decide_eq_true haddress
    refine ⟨e, he, ?_⟩
    rw [haddress, List.dropLast_concat, if_pos ⟨rfl, hne⟩, List.getLast?_concat]

theorem list_eq_ok {dir : String} {names : List String} (h : t.list dir = .ok names) :
    ∃ d, t.lookup dir = .ok (d, .dir) ∧ ∀ name, name ∈ names ↔ (t.node? (d ++ [name])).isSome := by
  unfold list at h
  cases hlookup : t.lookup dir with
  | error e =>
    rw [hlookup] at h
    cases h
  | ok found =>
    obtain ⟨d, n⟩ := found
    rw [hlookup, ok_bind] at h
    cases n with
    | dir =>
      cases h
      refine ⟨d, rfl, fun name => ?_⟩
      rw [List.mem_mergeSort, mem_childNames]
    | _ => cases h

theorem exists_list {dir : String} (h : t.isDir dir = true) : ∃ names, t.list dir = .ok names := by
  unfold isDir at h
  rw [beq_iff_eq] at h
  obtain ⟨d, hres, hn⟩ := get?_eq_some.1 h
  unfold list
  rw [lookup_eq_ok.2 ⟨hres, hn⟩, ok_bind]
  exact ⟨_, rfl⟩

/-! ## The entry of a name -/

theorem ne_empty_of_resolve {follow : Bool} {path : String} (h : t.resolve follow path = .ok a) : path ≠ "" := by
  rintro rfl
  cases h

theorem walks_entry {dir name : String} (hname : Path.IsName name) (hdir : t.resolve true dir = .ok d)
    (h : t.resolve true (Path.join dir name) = .ok a) : ∃ fuel links, Walks t true a fuel links d [name] := by
  have hne := Path.join_ne_empty t.cwd (ne_empty_of_resolve hdir)
  obtain ⟨fuel, hwalk⟩ := walks_of_resolve h
  obtain ⟨fuel', hwalk'⟩ := walks_of_resolve hdir
  rw [Path.absolute_eq_join, Path.join_join t.cwd (ne_empty_of_resolve hdir) hname.relative] at hwalk
  rw [Path.absolute_eq_join] at hwalk'
  obtain ⟨pre, hjoin, hpre⟩ := Path.segments_join_name hne hname
  rw [hjoin] at hwalk
  obtain ⟨fuelLast, linksLast, c, hfirst, hlast⟩ := hwalk.parts
  have hcd : c = d := by
    rcases hpre with hpre | hpre
    · rw [hpre] at hwalk'
      exact hfirst.unique hwalk'
    · rw [hpre] at hwalk'
      obtain ⟨_, _, b, hfront, hend⟩ := hwalk'.parts
      rw [(hend.idle_last (by decide)).1]
      exact hfirst.unique hfront
  exact ⟨fuelLast, linksLast, hcd ▸ hlast⟩

theorem isSome_entry {dir name : String} (hname : Path.IsName name) (hdir : t.resolve true dir = .ok d)
    (h : t.exists_ (Path.join dir name) = true) : (t.node? (d ++ [name])).isSome := by
  obtain ⟨a, n, hres, hn⟩ := exists_iff.1 h
  obtain ⟨_, _, hwalk⟩ := walks_entry hname hdir hres
  rcases (hwalk.name_last hname).2 with ⟨target, hlink⟩ | hentry
  · rw [hlink]
    rfl
  · rw [← hentry, hn]
    rfl

/-! ## Paths of files -/

theorem isExecutable_iff {path : String} :
    t.isExecutable path = true ↔ ∃ a n, t.resolve true path = .ok a ∧ t.node? a = some n ∧ isExecutableNode n = true := by
  unfold isExecutable
  rw [Option.any_eq_true, exists_comm]
  simp only [get?_eq_some]
  constructor
  · intro h
    obtain ⟨n, ⟨a, hres, hn⟩, hexecutable⟩ := h
    exact ⟨n, a, hres, hn, hexecutable⟩
  · intro h
    obtain ⟨n, a, hres, hn, hexecutable⟩ := h
    exact ⟨n, ⟨a, hres, hn⟩, hexecutable⟩

theorem exists_of_isExecutable {path : String} (h : t.isExecutable path = true) : t.exists_ path = true := by
  obtain ⟨a, n, hres, hn, _⟩ := isExecutable_iff.1 h
  exact exists_iff.2 ⟨a, n, hres, hn⟩

/-- A path of one component that leads to a file that may be executed is a name, whatever stands in front of it. -/
theorem isName_of_isExecutable {dir path : String} (hone : (Path.components path).length = 1)
    (h : t.isExecutable (Path.join dir path) = true) : Path.IsName path := by
  obtain ⟨a, n, hres, hn, hexecutable⟩ := isExecutable_iff.1 h
  obtain ⟨fuel, hwalk⟩ := walks_of_resolve hres
  obtain ⟨before, hbefore⟩ := Path.segments_absolute_join t.cwd dir path
  -- anything but a name at the end leads to a directory, which is not executed
  have hfile {pre : List String} {last : String} (hlast : Path.segments path = pre ++ [last]) :
      ¬ (Path.isIdle last = true ∨ last = "..") := by
    intro hs
    rw [hbefore, hlast, ← List.append_assoc] at hwalk
    have hdir := hwalk.isDirAt hs
    unfold isDirAt at hdir
    rw [hn, beq_iff_eq] at hdir
    cases hdir
    cases hexecutable
  have hslash : '/' ∉ path.toList := by
    intro hslash
    obtain ⟨pre, last, hlast, hidle⟩ := Path.idle_of_slash hone hslash
    exact hfile hlast (.inl hidle)
  have hself : Path.segments path = [] ++ [path] := Path.segments_noSlash hslash
  have hend := hfile hself
  rw [not_or, Bool.not_eq_true] at hend
  exact ⟨hslash, hend.1, hend.2⟩

end FileTree

end Casework
