import Casework.Proofs.Store.Items
import Casework.Store.Traffic

/-!
# The items file under concurrent calls

Whatever calls are under way, the file holds the lines of those that have written, whole and in the order of their
writes. Calls that are still to write, and calls that were refused, have left nothing in it.
-/

namespace Casework

open Store (Call lineOf)

namespace Traffic

variable {x y : Traffic} {t : FileTree} {a : Address}

/-! ## One call by itself -/

theorem written_finish (c : Call) (outcome : Except StoreError Json) :
    (x.finish c outcome).written = x.written ++ outcome.toOption.toList := by
  rw [finish, written, List.filterMap_append]
  cases outcome <;> rfl

theorem start_refused {c : Call} {e : StoreError} (h : c.prepared = .error e) : x.start c = x.finish c (.error e) := by
  rw [start, h]

theorem follow?_alone (s : Store) (unique : String) (record : Json) :
    let c : Call := ⟨s, unique, some record⟩
    match s.insert x.tree unique record with
    | .error e => x.follow? [.start c] = some (x.finish c (.error e))
    | .ok (t, id) => x.follow? [.start c, .write x.opened.length] =
        some (finish { x with tree := t } c (.ok (Store.withId record id))) := by
  intro c
  have hprepared : c.prepared = Store.prepare unique (some record) := rfl
  rw [Store.insert]
  cases hprep : Store.prepare unique (some record) with
  | error e =>
    simp only [follow?, step?, Option.bind_some]
    rw [start_refused (hprepared.trans hprep)]
  | ok prepared =>
    obtain ⟨id, j⟩ := prepared
    obtain rfl : j = Store.withId record id := Store.eq_withId_of_prepare hprep
    cases hopen : x.tree.openAppend s.itemsPath with
    | error e =>
      have happend (b : Text.Bytes) : x.tree.append s.itemsPath b = .error e := by
        rw [FileTree.append, hopen]
        rfl
      simp only [happend]
      rw [follow?, step?, Option.bind_some, start, hprepared, hprep]
      simp only [c, hopen]
      rfl
    | ok out =>
      obtain ⟨t, b⟩ := out
      have happend (l : Text.Bytes) : x.tree.append s.itemsPath l = .ok (t.modify b (· ++ l)) := by
        rw [FileTree.append, hopen]
        rfl
      have hstart : x.start c = { x with tree := t, opened := x.opened ++ [(c, b, Store.withId record id)] } := by
        rw [start, hprepared, hprep]
        simp only [c, hopen]
      -- the call that has just opened the file is the last one in the list
      have hlast (o : Call × Address × Json) : (x.opened ++ [o])[x.opened.length]? = some o := by simp
      have hrest (o : Call × Address × Json) : (x.opened ++ [o]).eraseIdx x.opened.length = x.opened := by
        simp [List.eraseIdx_append_of_length_le]
      simp only [happend]
      rw [follow?, step?, Option.bind_some, hstart, follow?, step?]
      simp only [hlast, hrest]
      rfl

/-! ## All calls -/

/-- What holds of calls on stores whose items file is at `a` in the tree `t`. -/
structure Sound (t : FileTree) (a : Address) (x : Traffic) : Prop where
  free : x.tree.IsFree a
  leads : ∀ s : Store, t.Leads s.itemsPath a → x.tree.Leads s.itemsPath a
  content : x.tree.contentAt a = x.written.flatMap lineOf
  opened : ∀ o ∈ x.opened, o.2.1 = a ∧ ∃ id, o.1.prepared = .ok (id, o.2.2)
  ended : ∀ e ∈ x.ended, e.2 = e.1.prepared.map (·.2)

theorem sound_init (hfree : t.IsFree a) (hempty : t.contentAt a = []) : Sound t a (init t) where
  free := hfree
  leads _ h := h
  content := hempty
  opened _ h := by cases h
  ended _ h := by cases h

theorem Sound.modify (h : Sound t a x) (f : Text.Bytes → Text.Bytes) :
    (x.tree.modify a f).IsFree a ∧ (∀ s : Store, t.Leads s.itemsPath a → (x.tree.modify a f).Leads s.itemsPath a) ∧
      (x.tree.modify a f).contentAt a = f (x.written.flatMap lineOf) := by
  obtain ⟨_, mode, hfile⟩ := FileTree.modify_free h.free f
  refine ⟨.inr ⟨_, mode, hfile⟩, fun s hs => (h.leads s hs).modify f, ?_⟩
  rw [FileTree.contentAt_modify h.free, h.content]

theorem Sound.start (h : Sound t a x) {c : Call} (hc : t.Leads c.store.itemsPath a) : Sound t a (x.start c) := by
  cases hprep : c.prepared with
  | error e =>
    rw [start_refused hprep]
    refine ⟨h.free, h.leads, ?_, h.opened, ?_⟩
    · rw [written_finish]
      exact h.content.trans (congrArg _ (List.append_nil _).symm)
    · refine List.forall_mem_append.2 ⟨h.ended, fun e' he' => ?_⟩
      cases List.mem_singleton.1 he'
      change _ = c.prepared.map _
      rw [hprep]
      rfl
  | ok prepared =>
    obtain ⟨name, record⟩ := prepared
    -- opening makes the file if it is not there, and leaves what it holds
    have hopen : x.tree.openAppend c.store.itemsPath = .ok (x.tree.modify a id, a) :=
      (h.leads c.store hc).openAppend
    have hstart : x.start c = { x with tree := x.tree.modify a id, opened := x.opened ++ [(c, a, record)] } := by
      rw [Traffic.start, hprep]
      simp only [hopen]
    obtain ⟨hfree, hleads, hcontent⟩ := h.modify id
    rw [hstart]
    refine ⟨hfree, hleads, hcontent, List.forall_mem_append.2 ⟨h.opened, fun o ho => ?_⟩, h.ended⟩
    cases List.mem_singleton.1 ho
    exact ⟨rfl, name, hprep⟩

theorem Sound.step (h : Sound t a x) {m : Move} (hm : ∀ c, m = .start c → t.Leads c.store.itemsPath a)
    (hstep : x.step? m = some y) : Sound t a y := by
  cases m with
  | start c =>
    cases hstep
    exact h.start (hm c rfl)
  | write k =>
    rw [step?] at hstep
    cases hk : x.opened[k]? with
    | none => simp [hk] at hstep
    | some o =>
      obtain ⟨c, b, record⟩ := o
      simp only [hk] at hstep
      cases hstep
      obtain ⟨rfl, id, hprep⟩ := h.opened _ (List.mem_of_getElem? hk)
      obtain ⟨hfree, hleads, hcontent⟩ := h.modify (· ++ lineOf record)
      -- one whole line is added, whichever of the calls that have the file open writes it
      refine ⟨hfree, hleads, ?_, fun o ho => h.opened o (List.mem_of_mem_eraseIdx ho), ?_⟩
      · rw [written_finish, List.flatMap_append]
        refine hcontent.trans (congrArg _ ?_)
        change lineOf record = [record].flatMap lineOf
        rw [List.flatMap_singleton]
      · refine List.forall_mem_append.2 ⟨h.ended, fun e he => ?_⟩
        cases List.mem_singleton.1 he
        change _ = c.prepared.map _
        rw [hprep]
        rfl

theorem Sound.follow {moves : List Move} (h : Sound t a x)
    (hm : ∀ c, Move.start c ∈ moves → t.Leads c.store.itemsPath a) (hf : x.follow? moves = some y) : Sound t a y := by
  induction moves generalizing x with
  | nil =>
    cases hf
    exact h
  | cons m ms ih =>
    rw [follow?, Option.bind_eq_some_iff] at hf
    obtain ⟨z, hz, hf⟩ := hf
    have hfirst : ∀ c, m = .start c → t.Leads c.store.itemsPath a := by
      rintro c rfl
      exact hm c List.mem_cons_self
    exact ih (h.step hfirst hz) (fun c hc => hm c (List.mem_cons_of_mem _ hc)) hf

/-- Whatever handles on a store insert records at the same time, and however their moves fall, a store that began
without records holds one line for each call that succeeded, in the order of the writes. It is the text of the record
of the call, without a line break and not blank, so that none is passed over. No other call adds a byte, and those that
fail are the ones whose value is no record. -/
theorem lines_of_traffic {s : Store} (hs : t.Leads s.itemsPath a) (hempty : t.contentAt a = []) {moves : List Move}
    (hcalls : ∀ c, Move.start c ∈ moves → t.Leads c.store.itemsPath a) (h : (init t).follow? moves = some x) :
    s.lines x.tree = .ok (x.written.map fun j => Text.encode j.compact) ∧
      s.all x.tree = Store.reread x.written ∧
      x.tree.contentAt a = x.written.flatMap lineOf ∧
      (∀ j ∈ x.written, '\n' ∉ j.compact.toList ∧ '\r' ∉ j.compact.toList ∧ Text.allBlank j.compact = false) ∧
      (∀ e ∈ x.ended, e.2 = e.1.prepared.map (·.2)) ∧
      ∀ c e, c.prepared = .error e → (x.start c).tree = x.tree := by
  have hsound : Sound t a x := (sound_init hs.free hempty).follow hcalls h
  have hrecords : ∀ j ∈ x.written, Store.IsRecord j := by
    intro j hj
    obtain ⟨⟨c, outcome⟩, he, hout⟩ := List.mem_filterMap.1 hj
    have hprep : outcome = c.prepared.map (·.2) := hsound.ended _ he
    cases hp : c.prepared with
    | error e =>
      rw [hp] at hprep
      subst hprep
      cases hout
    | ok prepared =>
      rw [hp] at hprep
      subst hprep
      cases hout
      exact Store.isRecord_of_prepare hp
  have hlines : s.lines x.tree = .ok (x.written.map fun j => Text.encode j.compact) := by
    rw [Store.lines_of_leads (hsound.leads s hs), hsound.content, Store.byteLines_lineOf]
  refine ⟨hlines, ?_, hsound.content, fun j hj => ⟨?_, ?_, ?_⟩, hsound.ended, fun c e hc => ?_⟩
  · rw [Store.all, hlines]
    exact Store.recordsOf_lines hrecords
  · intro hmem
    exact absurd (Json.unbroken_compact j _ hmem) (by decide)
  · intro hmem
    exact absurd (Json.unbroken_compact j _ hmem) (by decide)
  · obtain ⟨fs, rfl⟩ := hrecords j hj
    exact Json.allBlank_compact_obj fs
  · rw [start_refused hc]
    rfl

def crossingCalls : List Call :=
  [⟨Store.caseStore, "1", some (.obj [("type", .str "a"), ("x", .str "\r\n")])⟩,
    ⟨⟨"./case.store"⟩, "2", some (.obj [("type", .str "b")])⟩, ⟨Store.caseStore, "3", some (.obj [])⟩,
    ⟨⟨"./case.store"⟩, "4", none⟩]

theorem crossing_lines : ∃ x, (init Store.caseTree).follow? (crossingCalls.map .start ++ [.write 1, .write 0]) = some x ∧
    Store.caseStore.lines x.tree = .ok (["\x7b\"id\":\"b--2\",\"type\":\"b\"\x7d",
      "\x7b\"id\":\"a--1\",\"type\":\"a\",\"x\":\"\\r\\n\"\x7d"].map Text.encode) := by
  have hrun : ((init Store.caseTree).follow? (crossingCalls.map .start ++ [.write 1, .write 0])).map
      (fun x => x.written.map Json.compact) = some ["\x7b\"id\":\"b--2\",\"type\":\"b\"\x7d",
        "\x7b\"id\":\"a--1\",\"type\":\"a\",\"x\":\"\\r\\n\"\x7d"] := by decide +kernel
  obtain ⟨x, hx, hwritten⟩ := Option.map_eq_some_iff.1 hrun
  have hdotted : Store.caseTree.Leads (Store.itemsPath ⟨"./case.store"⟩) ["case.store", "items.jsonl"] :=
    Store.leads_of_new (by decide +kernel) Store.caseTree_items.2
  have hempty : Store.caseTree.contentAt ["case.store", "items.jsonl"] = [] := by decide +kernel
  have hcalls : ∀ c, Move.start c ∈ crossingCalls.map .start ++ [.write 1, .write 0] →
      Store.caseTree.Leads c.store.itemsPath ["case.store", "items.jsonl"] := by
    intro c hc
    simp only [crossingCalls, List.map_cons, List.map_nil, List.cons_append, List.nil_append, List.mem_cons,
      Move.start.injEq, reduceCtorEq, List.not_mem_nil, or_false] at hc
    rcases hc with rfl | rfl | rfl | rfl
    · exact Store.caseTree_leads
    · exact hdotted
    · exact Store.caseTree_leads
    · exact hdotted
  have hlines := (lines_of_traffic Store.caseTree_leads hempty hcalls hx).1
  refine ⟨x, hx, hlines.trans ?_⟩
  rw [← hwritten, List.map_map]
  rfl

end Traffic

end Casework
