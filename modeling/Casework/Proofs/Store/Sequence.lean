import Casework.Proofs.Host.Entries
import Casework.Proofs.Store.Exports

/-!
# Exports one after another

A call takes the first of its names that is free, after no more tries than there are entries in the directory. What it
makes is a new entry, so whatever was there stays as it was, and no two calls are given the same path.
-/

namespace Casework

namespace Store

def exportOne (s : Store) (t : FileTree) (path : String) (b : Text.Bytes) : FileTree × Except StoreError String :=
  match s.storeFile t path with
  | .ok (t, relative) => ((t.write (Path.join s.root relative) b).toOption.getD t, .ok relative)
  | .error e => (t, .error e)

def exportEach (s : Store) : FileTree → List (String × Text.Bytes) → FileTree × List (Except StoreError String)
  | t, [] => (t, [])
  | t, (path, b) :: more =>
    let (t, answer) := s.exportOne t path b
    let (t, answers) := s.exportEach t more
    (t, answer :: answers)

/-- The files of the store are in the directory at `d`, and no link there leads to where nothing is. -/
structure FilesAt (s : Store) (t : FileTree) (d : Address) : Prop where
  dir : t.lookup (Path.join s.root filesDir) = .ok (d, .dir)
  links : ∀ name target a, Path.IsName name → t.node? (d ++ [name]) = some (.link target) →
    t.resolve true (Path.join (Path.join s.root filesDir) name) = .ok a → (t.node? a).isSome

variable {s : Store} {t t' : FileTree} {d : Address} {c : Export} {n : Nat} {b : Text.Bytes}

theorem FilesAt.gained (h : s.FilesAt t d) (hgained : t.Gained t') : s.FilesAt t' d := by
  have hgrown := hgained.grown
  obtain ⟨hres, hn⟩ := FileTree.lookup_eq_ok.1 h.dir
  refine ⟨FileTree.lookup_eq_ok.2 ⟨hgrown.resolve.2 hres, ?_⟩, ?_⟩
  · rw [hgained.kept (by rw [hn]; rfl), hn]
  · intro name target a hname hlink hres
    apply hgrown.isSome
    refine h.links name target a hname ?_ (hgrown.resolve.1 hres)
    rcases hgained.nodes (d ++ [name]) with heq | ⟨_, _, _, hfile⟩
    · rw [← heq, hlink]
    · rw [hfile] at hlink
      cases hlink

namespace Export

theorem components_relative (c : Export) (n : Nat) :
    Path.components (c.relative n) = [.normal filesDir, .normal (c.entry n)] := by
  have hjoin := Path.components_join_name isName_filesDir.ne_empty (c.isName_entry n)
  rw [Path.components_name isName_filesDir] at hjoin
  exact hjoin

/-! ## The search for a name -/

theorem IsFirst.freeFrom (h : c.IsFirst t n) {fuel k : Nat} (hk : k ≤ n) (hfuel : n ≤ k + fuel) :
    c.store.freeFrom t (exportName c.path) fuel k = n := by
  induction fuel generalizing k with
  | zero =>
    unfold Store.freeFrom
    omega
  | succ fuel ih =>
    unfold Store.freeFrom
    by_cases hkn : k = n
    · subst hkn
      have hfree : t.exists_ (Path.join c.store.root (candidate (exportName c.path) k)) = false := h.2
      rw [hfree, if_neg Bool.false_ne_true]
    · have htaken : t.exists_ (Path.join c.store.root (candidate (exportName c.path) k)) = true := h.1 k (by omega)
      rw [htaken, if_pos rfl]
      exact ih (by omega) (by omega)

theorem IsFirst.le_children (h : c.IsFirst t n) (hfiles : c.store.FilesAt t d) : n ≤ (t.childNames d).length := by
  have hdir := (FileTree.lookup_eq_ok.1 hfiles.dir).1
  apply le_length_of_numbered
  intro k hk
  have htaken := h.1 k hk
  rw [c.place_eq k] at htaken
  exact FileTree.mem_childNames.2 (FileTree.isSome_entry (c.isName_entry k) hdir htaken)

/-! ## One call -/

structure Made (c : Export) (d : Address) (n : Nat) (b : Text.Bytes) (t t' : FileTree) : Prop where
  vacant : t.node? (d ++ [c.entry n]) = none
  others : FileTree.AgreeOff t t' (d ++ [c.entry n])
  filled : ∃ mode, t'.node? (d ++ [c.entry n]) = some (.file b mode)
  way : t'.resolve true (c.place n) = .ok (d ++ [c.entry n])

theorem Made.gained (h : c.Made d n b t t') : t.Gained t' := by
  obtain ⟨mode, hfile⟩ := h.filled
  exact FileTree.gained_of_agreeOff h.others h.vacant hfile

section
variable (h : c.IsFirst t n) (hfiles : c.store.FilesAt t d)
include h hfiles

theorem IsFirst.resolve {a : Address} (hres : t.resolve true (c.place n) = .ok a) :
    a = d ++ [c.entry n] ∧ t.node? a = none := by
  have hnone : t.node? a = none := by
    cases hn : t.node? a with
    | none => rfl
    | some node =>
      have hexists := FileTree.exists_iff.2 ⟨a, node, hres, hn⟩
      rw [h.2] at hexists
      cases hexists
  rw [c.place_eq n] at hres
  obtain ⟨_, _, hwalk⟩ := FileTree.walks_entry (c.isName_entry n) (FileTree.lookup_eq_ok.1 hfiles.dir).1 hres
  rcases (hwalk.name_last (c.isName_entry n)).2 with ⟨target, hlink⟩ | hentry
  · have hsome := hfiles.links _ target a (c.isName_entry n) hlink hres
    rw [hnone] at hsome
    cases hsome
  · exact ⟨hentry, hnone⟩

theorem IsFirst.made {a : Address} (hcreate : t.create (c.place n) = .ok (t', a)) (b : Text.Bytes) :
    ∃ t'', t'.write (c.place n) b = .ok t'' ∧ c.Made d n b t t'' := by
  obtain ⟨hres, ht'⟩ := FileTree.create_eq hcreate
  obtain ⟨rfl, hnone⟩ := h.resolve hfiles hres
  obtain ⟨hcreated, mode, hempty⟩ := FileTree.modify_free (.inl hnone) fun _ => []
  rw [← ht'] at hcreated hempty
  have hway := (FileTree.gained_of_agreeOff hcreated hnone hempty).grown.resolve.2 hres
  have hleads : t'.Leads (c.place n) (d ++ [c.entry n]) := by
    refine ⟨.inr ⟨_, _, hempty⟩, hway, fun hgone => ?_⟩
    rw [hempty] at hgone
    cases hgone
  have hwrite := hleads.write b
  obtain ⟨hemptied, mode', hempty'⟩ := FileTree.modify_free hleads.free fun _ => []
  obtain ⟨hwritten, mode'', hfile⟩ := FileTree.modify_free (.inr ⟨_, _, hempty'⟩) fun _ => b
  have hoff := (hcreated.trans hemptied).trans hwritten
  refine ⟨_, hwrite, hnone, hoff, ⟨_, hfile⟩, ?_⟩
  exact (FileTree.gained_of_agreeOff hoff hnone hfile).grown.resolve.2 hres

end

/-- What one call does to the tree `t`, and answers. The `n`-th name is the first that is free, and the search for it
ends there. -/
structure Answered (c : Export) (d : Address) (n : Nat) (b : Text.Bytes) (t : FileTree)
    (out : FileTree × Except StoreError String) : Prop where
  first : c.IsFirst t n
  tries : n ≤ (t.childNames d).length
  search : ∀ fuel, n ≤ fuel → c.store.freeFrom t (exportName c.path) fuel 0 = n
  outcome : (∃ e, t.create (c.place n) = .error e ∧ out = (t, .error (.io e))) ∨
    ∃ t', c.Made d n b t t' ∧ out = (t', .ok (c.relative n))

theorem answered (hfiles : c.store.FilesAt t d) (b : Text.Bytes) :
    ∃ n, c.Answered d n b t (c.store.exportOne t c.path b) := by
  obtain ⟨n, hfirst, hok, herror⟩ := c.storeFile_first t
  refine ⟨n, hfirst, hfirst.le_children hfiles, fun fuel hfuel => hfirst.freeFrom (Nat.zero_le n) (by omega), ?_⟩
  cases hcreate : t.create (c.place n) with
  | error e =>
    left
    refine ⟨e, rfl, ?_⟩
    unfold exportOne
    rw [herror e hcreate]
  | ok out =>
    right
    obtain ⟨t'', hwrite, hmade⟩ := hfirst.made hfiles hcreate b
    refine ⟨t'', hmade, ?_⟩
    have hplace : Path.join c.store.root (c.relative n) = c.place n := rfl
    unfold exportOne
    simp only [hok out.1 out.2 hcreate, hplace, hwrite]
    rfl

end Export

theorem gained_exportOne (hfiles : s.FilesAt t d) (path : String) (b : Text.Bytes) :
    t.Gained (s.exportOne t path b).1 := by
  obtain ⟨n, hanswered⟩ := Export.answered (c := ⟨s, path⟩) hfiles b
  rcases hanswered.outcome with ⟨e, _, hout⟩ | ⟨t', hmade, hout⟩
  · rw [hout]
    exact .refl t
  · rw [hout]
    exact hmade.gained

/-! ## All calls -/

theorem exportEach_cons (s : Store) (t : FileTree) (path : String) (b : Text.Bytes) (more : List (String × Text.Bytes)) :
    s.exportEach t ((path, b) :: more) =
      ((s.exportEach (s.exportOne t path b).1 more).1,
        (s.exportOne t path b).2 :: (s.exportEach (s.exportOne t path b).1 more).2) := by
  rw [exportEach]

theorem exportEach_append (s : Store) (t : FileTree) (calls more : List (String × Text.Bytes)) :
    s.exportEach t (calls ++ more) =
      ((s.exportEach (s.exportEach t calls).1 more).1,
        (s.exportEach t calls).2 ++ (s.exportEach (s.exportEach t calls).1 more).2) := by
  induction calls generalizing t with
  | nil => rfl
  | cons e calls ih =>
    rw [List.cons_append, exportEach_cons, exportEach_cons, ih]
    rfl

theorem length_answers (s : Store) (t : FileTree) (calls : List (String × Text.Bytes)) :
    (s.exportEach t calls).2.length = calls.length := by
  induction calls generalizing t with
  | nil => rfl
  | cons e calls ih => rw [exportEach_cons, List.length_cons, List.length_cons, ih]

section
variable (hfiles : s.FilesAt t d) (calls : List (String × Text.Bytes))
include hfiles

theorem gained_exportEach : t.Gained (s.exportEach t calls).1 := by
  induction calls generalizing t with
  | nil => exact .refl t
  | cons e calls ih =>
    have hone := gained_exportOne hfiles e.1 e.2
    rw [exportEach_cons]
    exact hone.trans (ih (hfiles.gained hone))

theorem vacant_of_answer {relative : String} (h : .ok relative ∈ (s.exportEach t calls).2) :
    ∃ entry, Path.components relative = [.normal filesDir, .normal entry] ∧ t.node? (d ++ [entry]) = none := by
  induction calls generalizing t with
  | nil => cases h
  | cons e calls ih =>
    obtain ⟨n, hanswered⟩ := Export.answered (c := ⟨s, e.1⟩) hfiles e.2
    rw [exportEach_cons] at h
    rcases List.mem_cons.1 h with h | h
    · rcases hanswered.outcome with ⟨e, _, hout⟩ | ⟨t', hmade, hout⟩
      · rw [hout] at h
        cases h
      · rw [hout] at h
        cases h
        exact ⟨_, Export.components_relative _ n, hmade.vacant⟩
    · have hone := gained_exportOne hfiles e.1 e.2
      obtain ⟨entry, hcomponents, hnone⟩ := ih (hfiles.gained hone) h
      refine ⟨entry, hcomponents, ?_⟩
      cases hn : t.node? (d ++ [entry]) with
      | none => rfl
      | some node =>
        rw [hone.kept (by rw [hn]; rfl), hn] at hnone
        cases hnone

theorem nodup_answers : ((s.exportEach t calls).2.filterMap Except.toOption).Nodup := by
  induction calls generalizing t with
  | nil => exact List.nodup_nil
  | cons e calls ih =>
    have hone := gained_exportOne hfiles e.1 e.2
    have hrest := ih (hfiles.gained hone)
    obtain ⟨n, hanswered⟩ := Export.answered (c := ⟨s, e.1⟩) hfiles e.2
    rw [exportEach_cons]
    rcases hanswered.outcome with ⟨_, _, hout⟩ | ⟨t', hmade, hout⟩
    · rw [hout] at hrest ⊢
      exact hrest
    · -- the file is there when the other calls look for their names
      rw [hout] at hrest hone ⊢
      refine List.nodup_cons.2 ⟨fun hmem => ?_, hrest⟩
      obtain ⟨answer, hanswer, hrelative⟩ := List.mem_filterMap.1 hmem
      obtain rfl : answer = .ok (Export.relative ⟨s, e.1⟩ n) := by
        cases answer <;> cases hrelative
        rfl
      obtain ⟨entry, hcomponents, hnone⟩ := vacant_of_answer (hfiles.gained hone) calls hanswer
      rw [Export.components_relative] at hcomponents
      cases hcomponents
      obtain ⟨mode, hfile⟩ := hmade.filled
      rw [hnone] at hfile
      cases hfile

end

/-- Files are stored one after another, whatever paths they have. Each search for a name ends, after no more tries than
the directory has entries. A call that succeeds answers the first of its names that is free, which is one component
below the directory of files, and the file it makes is a new entry there. What is there at any time is as it was at the
end, and no path is given out twice. -/
theorem exportEach_never_clobbers (hfiles : s.FilesAt t d) (calls : List (String × Text.Bytes)) :
    ((s.exportEach t calls).2.filterMap Except.toOption).Nodup ∧
    (∀ earlier, earlier <+: calls → ∀ a, ((s.exportEach t earlier).1.node? a).isSome →
      (s.exportEach t calls).1.node? a = (s.exportEach t earlier).1.node? a) ∧
    ∀ earlier path b later, calls = earlier ++ (path, b) :: later → ∃ n,
      Path.components (Export.relative ⟨s, path⟩ n) = [.normal filesDir, .normal (numbered (exportName path) n)] ∧
      Export.Answered ⟨s, path⟩ d n b (s.exportEach t earlier).1 (s.exportOne (s.exportEach t earlier).1 path b) ∧
      (s.exportEach t calls).2[earlier.length]? = some (s.exportOne (s.exportEach t earlier).1 path b).2 := by
  refine ⟨nodup_answers hfiles calls, ?_, ?_⟩
  · intro earlier hearlier a ha
    obtain ⟨later, rfl⟩ := hearlier
    rw [exportEach_append]
    exact (gained_exportEach (hfiles.gained (gained_exportEach hfiles earlier)) later).kept ha
  · intro earlier path b later hcalls
    obtain ⟨n, hanswered⟩ := Export.answered (c := ⟨s, path⟩) (hfiles.gained (gained_exportEach hfiles earlier)) b
    refine ⟨n, Export.components_relative _ n, hanswered, ?_⟩
    rw [hcalls, exportEach_append, exportEach_cons, ← length_answers s t earlier,
      List.getElem?_append_right (Nat.le_refl _), Nat.sub_self]
    rfl

def crowdedTree : FileTree where
  nodes := [(["case.store"], .dir), (["case.store", "files"], .dir),
    (["case.store", "files", "SYSTEM"], .file (Text.encode "hive\n") 0o644),
    (["case.store", "files", "1_SYSTEM"], .dir), (["case.store", "files", "file"], .link "SYSTEM")]
  cwd := "/"

def crowdedExports : List (String × Text.Bytes) :=
  ["/evidence/SYSTEM", "1_SYSTEM", ".."].map fun path => (path, Text.encode path)

theorem crowdedExports_apart :
    (caseStore.exportEach crowdedTree crowdedExports).2.filterMap Except.toOption =
      ["files/2_SYSTEM", "files/1_1_SYSTEM", "files/1_file"] ∧
    ((caseStore.exportEach crowdedTree crowdedExports).2.filterMap Except.toOption).Nodup := by
  have hdir : crowdedTree.lookup (Path.join caseStore.root filesDir) = .ok (["case.store", "files"], .dir) := rfl
  have hway : crowdedTree.resolve true (Path.join (Path.join caseStore.root filesDir) "file") =
      .ok ["case.store", "files", "SYSTEM"] := rfl
  have hchildren : crowdedTree.childNames ["case.store", "files"] = ["SYSTEM", "1_SYSTEM", "file"] := by decide +kernel
  have hfiles : caseStore.FilesAt crowdedTree ["case.store", "files"] := by
    refine ⟨hdir, ?_⟩
    intro name target a _ hlink hres
    have hchild : name ∈ crowdedTree.childNames ["case.store", "files"] := by
      rw [FileTree.mem_childNames, hlink]
      rfl
    rw [hchildren] at hchild
    simp only [List.mem_cons, List.not_mem_nil, or_false] at hchild
    rcases hchild with rfl | rfl | rfl
    · cases hlink
    · cases hlink
    · cases hway.symm.trans hres
      decide +kernel
  exact ⟨by decide +kernel, (exportEach_never_clobbers hfiles crowdedExports).1⟩

end Store

end Casework
