import Casework.Proofs.Argument.Flags
import Casework.Proofs.NameMap
import Casework.Proofs.Text.Utf8
import Casework.Task

/-!
# The flags of a task

However the arguments of a task came together, one call after the other or from a document, it forwards the flags of
the last value of each key, the keys in the order of their bytes.
-/

namespace Casework.Task

open NameMap (lastGiven?)

/-- `args` are the flags of the last value given for each key, in blocks that stand in the order of the bytes of the
keys. -/
def Forwards (given : List (String × Value)) (args : List String) : Prop :=
  ∃ (keys : List String) (blocks : List (List String)),
    keys.Pairwise (fun a b => Text.encode a < Text.encode b) ∧ (∀ k, k ∈ keys ↔ k ∈ given.map (·.1)) ∧
    List.Forall₂ (fun k block => ∃ v, lastGiven? given k = some v ∧ Value.FlagsOf k v block) keys blocks ∧
    args = blocks.flatten

def withArguments (t : Task) (calls : List (String × Value)) : Task :=
  calls.foldl (fun t c => t.withArgument c.1 c.2) t

/-! ## Arguments in the order of their keys -/

section
variable {m : NameMap Value} {given : List (String × Value)} (h : ∀ k, m.find? k = lastGiven? given k)
include h

theorem mem_keys_of_given (k : String) : k ∈ m.keys ↔ k ∈ given.map (·.1) := by
  rw [NameMap.mem_keys, h, ← NameMap.lastGiven?_isSome, Option.isSome_iff_exists]

theorem forall₂_blocks_iff {blocks : List (List String)} :
    List.Forall₂ (fun k block => ∃ v, lastGiven? given k = some v ∧ Value.FlagsOf k v block) m.keys blocks ↔
      blocks = m.entries.map fun e => e.2.flags e.1 := by
  have hentry : ∀ e ∈ m.entries, ∀ block,
      (∃ v, lastGiven? given e.1 = some v ∧ Value.FlagsOf e.1 v block) ↔ block = e.2.flags e.1 := by
    intro e he block
    have hlast : lastGiven? given e.1 = some e.2 := by rw [← h, NameMap.find?_eq_some.2 he]
    simp only [hlast, Option.some.injEq, exists_eq_left', Value.flagsOf_iff]
  rw [NameMap.keys, List.forall₂_map_left_iff]
  exact forall₂_iff_eq_map hentry

theorem forwards_iff {args : List String} :
    Forwards given args ↔ args = m.entries.flatMap fun e => e.2.flags e.1 := by
  have hsorted : m.keys.Pairwise fun a b => Text.encode a < Text.encode b :=
    m.keys_sorted.imp Text.encode_lt_encode.2
  rw [List.flatMap_def]
  constructor
  · rintro ⟨keys, blocks, horder, hmem, hblocks, rfl⟩
    have hkeys : keys = m.keys := by
      refine NameMap.eq_of_sorted (horder.imp Text.encode_lt_encode.1) m.keys_sorted fun k => ?_
      rw [hmem, mem_keys_of_given h]
    rw [hkeys, forall₂_blocks_iff h] at hblocks
    rw [hblocks]
  · rintro rfl
    exact ⟨m.keys, _, hsorted, mem_keys_of_given h, (forall₂_blocks_iff h).2 rfl, rfl⟩

end

/-! ## Calls -/

theorem arguments_withArguments (t : Task) (calls : List (String × Value)) :
    (t.withArguments calls).arguments = calls.foldl (fun m c => m.insert c.1 c.2) t.arguments := by
  rw [withArguments]
  induction calls generalizing t with
  | nil => rfl
  | cons c calls ih => exact ih (t.withArgument c.1 c.2)

theorem find?_withArguments (t : Task) (calls : List (String × Value)) (k : String) :
    (t.withArguments calls).arguments.find? k = lastGiven? (t.arguments.entries ++ calls) k := by
  rw [arguments_withArguments, NameMap.find?_foldl_insert, NameMap.lastGiven?_append, NameMap.lastGiven?_entries]

theorem arguments_withArguments_congr (t : Task) {calls calls' : List (String × Value)}
    (h : ∀ k, calls.filter (·.1 = k) = calls'.filter (·.1 = k)) :
    (t.withArguments calls).arguments = (t.withArguments calls').arguments := by
  refine NameMap.ext_find? fun k => ?_
  rw [arguments_withArguments, arguments_withArguments, NameMap.find?_foldl_insert, NameMap.find?_foldl_insert]
  simp only [lastGiven?, h]

theorem forwardedArgs_of_split {t : Task} {e : String × Value} {before behind : List (String × Value)}
    (h : t.arguments.entries = before ++ e :: behind) : t.forwardedArgs =
      (before.flatMap fun e => e.2.flags e.1) ++ e.2.flags e.1 ++ behind.flatMap fun e => e.2.flags e.1 := by
  rw [forwardedArgs, h, List.flatMap_append, List.flatMap_cons, List.append_assoc]

theorem forwardedArgs_withArgument (t : Task) (k : String) : ∃ before behind : List String,
    ∀ v, (t.withArgument k v).forwardedArgs = before ++ v.flags k ++ behind := by
  obtain ⟨before, behind, hput⟩ := NameMap.put_split k t.arguments.entries
  exact ⟨_, _, fun v => forwardedArgs_of_split (t := t.withArgument k v) (e := (k, v)) (hput v)⟩

/-! ## Documents -/

open Yaml

def Reads (d : Document) (depth : Nat) (e : String × Node) (g : String × Value) : Prop :=
  g.1 = e.1 ∧ ∃ n n', (d.value depth e.2).run n = some (g.2, n')

theorem of_run_bind {α β : Type} {x : Decode α} {f : α → Decode β} {n n' : Nat} {b : β}
    (h : (x >>= f).run n = some (b, n')) : ∃ a m, x.run n = some (a, m) ∧ (f a).run m = some (b, n') := by
  rw [StateT.run_bind] at h
  obtain ⟨⟨a, m⟩, hx, hf⟩ := Option.bind_eq_some_iff.1 h
  exact ⟨a, m, hx, hf⟩

theorem forall₂_of_run_mapM {α β : Type} {f : α → Decode β} {l : List α} {l' : List β} {n n' : Nat}
    (h : (l.mapM f).run n = some (l', n')) : List.Forall₂ (fun a b => ∃ m m', (f a).run m = some (b, m')) l l' := by
  induction l generalizing l' n with
  | nil =>
    rw [List.mapM_nil] at h
    cases h
    exact .nil
  | cons a l ih =>
    rw [List.mapM_cons] at h
    obtain ⟨b, m, hb, h⟩ := of_run_bind h
    obtain ⟨bs, m', hbs, h⟩ := of_run_bind h
    cases h
    exact .cons ⟨_, _, hb⟩ (ih hbs)

theorem arguments_ofEntries {d : Document} {depth : Nat} {es : List (String × Node)} {t : Task} {n n' : Nat}
    (h : (ofEntries d depth es).run n = some (t, n')) :
    ∃ given, List.Forall₂ (Reads d depth) (es.filter fun e => !knownKeys.contains e.1) given ∧
      t.arguments = .ofList given := by
  obtain ⟨type, n₁, _, h⟩ := of_run_bind h
  obtain ⟨command, n₂, _, h⟩ := of_run_bind h
  obtain ⟨image, n₃, _, h⟩ := of_run_bind h
  obtain ⟨dockerfile, n₄, _, h⟩ := of_run_bind h
  obtain ⟨requires, n₅, _, h⟩ := of_run_bind h
  obtain ⟨given, n₆, hgiven, h⟩ := of_run_bind h
  cases h
  refine ⟨given, (forall₂_of_run_mapM hgiven).imp ?_, rfl⟩
  rintro e g ⟨m, m', hread⟩
  obtain ⟨v, m'', hv, hg⟩ := of_run_bind hread
  cases hg
  exact ⟨rfl, m, _, hv⟩

/-! ## What is forwarded -/

/-- What a task forwards is fixed by what was given for its arguments, in calls on any task or by a document. Calls for
different keys may change places, and a value of one key has its flags in a block in front of which and behind which
nothing depends on it. -/
theorem forwardedArgs_of_given (t : Task) (calls : List (String × Value)) :
    (∀ args, Forwards (t.arguments.entries ++ calls) args ↔ args = (t.withArguments calls).forwardedArgs) ∧
    (∀ d depth es n u n', (ofEntries d depth es).run n = some (u, n') →
      ∃ given, List.Forall₂ (Reads d depth) (es.filter fun e => !knownKeys.contains e.1) given ∧
        ∀ args, Forwards given args ↔ args = u.forwardedArgs) ∧
    (∀ calls', (∀ k, calls.filter (·.1 = k) = calls'.filter (·.1 = k)) →
      (t.withArguments calls').forwardedArgs = (t.withArguments calls).forwardedArgs) ∧
    ∀ k, ∃ before behind, ∀ v, ∃ block, Value.FlagsOf k v block ∧
      (t.withArgument k v).forwardedArgs = before ++ block ++ behind := by
  refine ⟨fun args => forwards_iff (find?_withArguments t calls), ?_, ?_, fun k => ?_⟩
  · intro d depth es n u n' hload
    obtain ⟨given, hreads, hargs⟩ := arguments_ofEntries hload
    refine ⟨given, hreads, fun args => forwards_iff fun k => ?_⟩
    rw [hargs, NameMap.find?_ofList]
  · intro calls' hplaces
    rw [forwardedArgs, forwardedArgs, arguments_withArguments_congr t hplaces]
  · obtain ⟨before, behind, hblocks⟩ := forwardedArgs_withArgument t k
    exact ⟨before, behind, fun v => ⟨v.flags k, (Value.flagsOf_iff k).2 rfl, hblocks v⟩⟩

def hashesCalls : List (String × Value) :=
  [("verbose", .bool false),
    ("filter", .seq [.map [(.str "type", .str "file"), (.str "size", .seq [.int 1]), (.str "deep", .bool false)],
      .tagged "x" (.seq [.null, .str "all"])]),
    ("verbose", .bool true)]

def quietEntries : List (String × Node) := [("type", .scalar none "script" .plain), ("quiet", .scalar none "true" .plain)]

theorem hashes_forwardedArgs_of_given :
    Forwards hashesCalls ["--filter=type=file,deep=false", "--filter=all", "--verbose"] ∧
    ((script "hashes").withArguments (hashesCalls[1] :: [hashesCalls[0], hashesCalls[2]])).forwardedArgs =
      ((script "hashes").withArguments hashesCalls).forwardedArgs ∧
    ∃ u given, (ofEntries default 4 quietEntries).run 0 = some (u, 0) ∧
      List.Forall₂ (Reads default 4) (quietEntries.drop 1) given ∧ Forwards given u.forwardedArgs := by
  have hgiven := forwardedArgs_of_given (script "hashes") hashesCalls
  refine ⟨(hgiven.1 _).2 (by decide +kernel), hgiven.2.2.1 _ fun k => ?_, ?_⟩
  · by_cases hfilter : k = "filter"
    · subst hfilter
      rfl
    · simp [hashesCalls, List.filter_cons, Ne.symm hfilter]
  · have hread : (ofEntries default 4 quietEntries).run 0 =
      some ({ type := "script", arguments := .ofList [("quiet", .bool true)] }, 0) := rfl
    obtain ⟨given, hreads, hforwards⟩ := hgiven.2.1 _ _ _ _ _ _ hread
    exact ⟨_, given, hread, hreads, (hforwards _).2 rfl⟩

end Casework.Task
