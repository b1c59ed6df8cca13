import Casework.Plugin
import Casework.Proofs.Host.Names

/-!
# Plugins that are listed and plugins that are found

The directory lists its entries, and a command is looked up as a path. Both tell the same plugins, as a command that
leads to a file is the name of an entry, whatever its text.
-/

namespace Casework.PluginDirectory

variable {t : FileTree} {dir command path : String}

/-! ## Looking up a command -/

theorem candidate?_eq_some : candidate? dir command = some path ↔
    (command ≠ "" ∧ (Path.components command).length = 1) ∧ Path.join dir command = path := by
  rw [candidate?]
  split
  · rename_i h
    rw [Option.some_inj, and_iff_right h]
  · rename_i h
    exact iff_of_false (fun h => by cases h) (fun h' => h h'.1)

theorem locate_eq_some : locate t dir command = some path ↔ candidate? dir command = some path ∧ t.isExecutable path = true := by
  rw [locate, Option.filter_eq_some_iff]

/-- What is found is a file of that name: a text of one component that is no name leads to a directory. -/
theorem locate_iff : locate t dir command = some path ↔
    Path.IsName command ∧ Path.join dir command = path ∧ t.isExecutable path = true := by
  rw [locate_eq_some, candidate?_eq_some]
  constructor
  · intro h
    obtain ⟨⟨⟨_, hone⟩, rfl⟩, hexecutable⟩ := h
    exact ⟨FileTree.isName_of_isExecutable hone hexecutable, rfl, hexecutable⟩
  · intro h
    obtain ⟨hname, hpath, hexecutable⟩ := h
    have hone : (Path.components command).length = 1 := by rw [Path.components_name hname, List.length_singleton]
    exact ⟨⟨⟨hname.ne_empty, hone⟩, hpath⟩, hexecutable⟩

/-! ## Listing the directory -/

theorem mem_discover {names : List String} (hlist : t.list dir = .ok names) :
    command ∈ discover t dir ↔ command ∈ names ∧ t.isExecutable (Path.join dir command) = true := by
  unfold discover
  rw [hlist]
  exact List.mem_filter

/-- A command is found if and only if it is listed. What is found is the entry of that name in the directory, by the
path of the directory and the name. -/
theorem found_iff_listed (hnamed : t.Named) {names : List String} (hlist : t.list dir = .ok names) (command : String) :
    ((locate t dir command).isSome ↔ command ∈ discover t dir) ∧
    ∀ path, locate t dir command = some path →
      path = Path.join dir command ∧ Path.components path = Path.components dir ++ [.normal command] ∧ command ∈ names := by
  obtain ⟨d, hlookup, hnames⟩ := FileTree.list_eq_ok hlist
  have hdir := (FileTree.lookup_eq_ok.1 hlookup).1
  have hentry (hname : Path.IsName command) (h : t.isExecutable (Path.join dir command) = true) : command ∈ names :=
    (hnames command).2 (FileTree.isSome_entry hname hdir (FileTree.exists_of_isExecutable h))
  constructor
  · rw [mem_discover hlist, Option.isSome_iff_exists]
    constructor
    · intro h
      obtain ⟨path, hpath⟩ := h
      obtain ⟨hname, rfl, hexecutable⟩ := locate_iff.1 hpath
      exact ⟨hentry hname hexecutable, hexecutable⟩
    · intro h
      have hname := hnamed.isName_of_isSome ((hnames command).1 h.1)
      exact ⟨_, locate_iff.2 ⟨hname, rfl, h.2⟩⟩
  · intro path hpath
    obtain ⟨hname, rfl, hexecutable⟩ := locate_iff.1 hpath
    have hne := FileTree.ne_empty_of_resolve hdir
    exact ⟨rfl, Path.components_join_name hne hname, hentry hname hexecutable⟩

def pluginTree : FileTree :=
  [⟨"plugins/runnable", .file (Text.encode "#!/bin/sh\n") 0o755⟩, ⟨"plugins/README", .file (Text.encode "docs\n") 0o644⟩,
    ⟨"plugins/nested", .dir⟩, ⟨"plugins/again", .link "runnable"⟩, ⟨"plugins/gone", .link "absent"⟩,
    ⟨"plugins/above", .link ".."⟩].foldl FileTree.layOut (.bare "/work")

theorem pluginTree_found : pluginTree.Named ∧ (∃ names, pluginTree.list "plugins/." = .ok names) ∧
    "again" ∈ discover pluginTree "plugins/." ∧ "again/." ∉ discover pluginTree "plugins/." := by
  have hnamed : pluginTree.Named := (FileTree.named_bare "/work").layOutAll _
  have hlooked : pluginTree.isDir "plugins/." = true ∧
      locate pluginTree "plugins/." "again" = some "plugins/./again" ∧
      locate pluginTree "plugins/." "again/." = none := by decide +kernel
  obtain ⟨hdir, hfound, hmissing⟩ := hlooked
  obtain ⟨names, hlist⟩ := FileTree.exists_list hdir
  refine ⟨hnamed, ⟨names, hlist⟩, ?_, ?_⟩
  · apply (found_iff_listed hnamed hlist "again").1.1
    rw [hfound]
    rfl
  · intro hmem
    have hsome := (found_iff_listed hnamed hlist "again/.").1.2 hmem
    rw [hmissing] at hsome
    cases hsome

end Casework.PluginDirectory
