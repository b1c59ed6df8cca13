import Casework.Proofs.Argument.Forwarding
import Mathlib.Data.List.Infix

/-!
# What flags keep of a value

A text or a number that stands in a value, however deep, stands in one of its flags too, unless an entry of a mapping
is left out around it because its key or its value has no text.
-/

namespace Casework

namespace Value

/-- `x` stands somewhere in a value, under any tags, with no entry around it that is passed over. -/
inductive Occurs (passed : Value × Value → Prop) (x : Value) : Value → Prop
  | self : Occurs passed x x
  | tagged (tag : String) {v : Value} : Occurs passed x v → Occurs passed x (.tagged tag v)
  | item {v : Value} {vs : List Value} : v ∈ vs → Occurs passed x v → Occurs passed x (.seq vs)
  | key {e : Value × Value} {es : List (Value × Value)} :
    e ∈ es → ¬ passed e → Occurs passed x e.1 → Occurs passed x (.map es)
  | value {e : Value × Value} {es : List (Value × Value)} :
    e ∈ es → ¬ passed e → Occurs passed x e.2 → Occurs passed x (.map es)

def IsMuteEntry (e : Value × Value) : Prop := IsMute e.1 ∨ IsMute e.2

inductive DataText : Value → String → Prop
  | str (s : String) : DataText (.str s) s
  | int (i : Int) : DataText (.int i) (toString i)
  | float (x : Binary64) : DataText (.float x) (numberLayout.text x)

def ShownIn (key s f : String) : Prop := ∃ text : String, f = "--" ++ key ++ "=" ++ text ∧ s.toList <:+: text.toList

/-! ## Texts inside texts -/

theorem infix_intercalate {p : List Char} {ps : List (List Char)} (sep : List Char) (hp : p ∈ ps) :
    p <:+: sep.intercalate ps := by
  induction ps with
  | nil => cases hp
  | cons q ps ih =>
    cases ps with
    | nil =>
      cases List.mem_singleton.1 hp
      rw [List.intercalate_singleton]
    | cons r ps =>
      rw [List.intercalate_cons_cons]
      rcases List.mem_cons.1 hp with rfl | hp
      · rw [List.append_assoc]
        exact (List.prefix_append _ _).isInfix
      · exact (ih hp).trans (List.suffix_append _ _).isInfix

theorem pair_mem_pairTexts {e : Value × Value} {es : List (Value × Value)} {a b : String} (he : e ∈ es)
    (hkey : e.1.flagText? = some a) (hvalue : e.2.flagText? = some b) : a ++ "=" ++ b ∈ pairTexts es := by
  induction es with
  | nil => cases he
  | cons d es ih =>
    obtain ⟨k, v⟩ := d
    rcases List.mem_cons.1 he with rfl | he
    · rw [pairTexts_pair hkey hvalue]
      exact List.mem_cons_self
    · have hmem := ih he
      rw [pairTexts]
      split
      · exact List.mem_cons_of_mem _ hmem
      · exact hmem

theorem exists_pair {e : Value × Value} {es : List (Value × Value)} (he : e ∈ es) (hheard : ¬ IsMuteEntry e) :
    ∃ a b text, e.1.flagText? = some a ∧ e.2.flagText? = some b ∧ (map es).flagText? = some text ∧
      (a ++ "=" ++ b).toList <:+: text.toList := by
  rw [IsMuteEntry, not_or, isMute_iff, isMute_iff] at hheard
  obtain ⟨a, ha⟩ := Option.ne_none_iff_exists'.1 hheard.1
  obtain ⟨b, hb⟩ := Option.ne_none_iff_exists'.1 hheard.2
  refine ⟨a, b, _, ha, hb, rfl, ?_⟩
  rw [String.toList_intercalate]
  exact infix_intercalate _ (List.mem_map_of_mem (pair_mem_pairTexts he ha hb))

theorem mem_flagsOfItems (key : String) {f : String} {v : Value} {vs : List Value} (hv : v ∈ vs) (hf : f ∈ v.flags key) :
    f ∈ flagsOfItems key vs := by
  induction vs with
  | nil => cases hv
  | cons w vs ih =>
    rw [flagsOfItems]
    rcases List.mem_cons.1 hv with rfl | hv
    · exact List.mem_append_left _ hf
    · exact List.mem_append_right _ (ih hv)

section
variable {x v : Value} {s : String} (hx : x.flagText? = some s)
include hx

theorem Occurs.infix_flagText? (h : Occurs IsMuteEntry x v) {text : String} (hv : v.flagText? = some text) :
    s.toList <:+: text.toList := by
  induction h generalizing text with
  | self =>
    cases hx.symm.trans hv
    exact List.infix_refl _
  | tagged tag _ ih => exact ih hv
  | item _ _ _ => cases hv
  | key he hheard _ ih =>
    obtain ⟨a, b, text', ha, hb, htext, hpair⟩ := exists_pair he hheard
    cases htext.symm.trans hv
    refine (ih ha).trans (List.IsInfix.trans ?_ hpair)
    rw [String.toList_append, String.toList_append, List.append_assoc]
    exact (List.prefix_append _ _).isInfix
  | value he hheard _ ih =>
    obtain ⟨a, b, text', ha, hb, htext, hpair⟩ := exists_pair he hheard
    cases htext.symm.trans hv
    refine (ih hb).trans (List.IsInfix.trans ?_ hpair)
    rw [String.toList_append]
    exact (List.suffix_append _ _).isInfix

theorem Occurs.mem_flags (key : String) (h : Occurs IsMuteEntry x v) :
    (∀ f ∈ x.flags key, f ∈ v.flags key) ∨ ∃ f ∈ v.flags key, ShownIn key s f := by
  have hmap (es : List (Value × Value)) (h : Occurs IsMuteEntry x (.map es)) :
      ∃ f ∈ (map es).flags key, ShownIn key s f :=
    ⟨_, List.mem_singleton.2 rfl, _, rfl, h.infix_flagText? hx rfl⟩
  induction h with
  | self => exact .inl fun _ hf => hf
  | tagged tag _ ih => exact ih
  | item hmem _ ih =>
    rcases ih with hflags | ⟨f, hf, hshown⟩
    · exact .inl fun f hf => mem_flagsOfItems key hmem (hflags f hf)
    · exact .inr ⟨f, mem_flagsOfItems key hmem hf, hshown⟩
  | key he hheard hoccurs _ => exact .inr (hmap _ (.key he hheard hoccurs))
  | value he hheard hoccurs _ => exact .inr (hmap _ (.value he hheard hoccurs))

end

theorem DataText.flagText? {x : Value} {s : String} (h : DataText x s) : x.flagText? = some s := by
  cases h <;> rfl

theorem DataText.flags {x : Value} {s : String} (h : DataText x s) (key : String) :
    x.flags key = ["--" ++ key ++ "=" ++ s] := by
  cases h <;> rfl

end Value

namespace Task

open Value

/-- The flags of a key stand in one block, in which each text and each number of its value is shown, and `true` is
shown or is a flag of its own. Only an entry with null or a sequence for its key or its value may be left out, with
what stands in it. -/
theorem data_forwarded (t : Task) {key : String} {v : Value} (hv : t.arguments.find? key = some v) :
    (∃ before behind, t.forwardedArgs = before ++ v.flags key ++ behind) ∧
    (∀ x s, DataText x s → Occurs IsMuteEntry x v → ∃ f ∈ v.flags key, ShownIn key s f) ∧
    (Occurs IsMuteEntry (.bool true) v → ∃ f ∈ v.flags key, f = "--" ++ key ∨ ShownIn key "true" f) := by
  refine ⟨?_, fun x s hx hoccurs => ?_, fun hoccurs => ?_⟩
  · obtain ⟨before, behind, hentries⟩ := List.append_of_mem (NameMap.find?_eq_some.1 hv)
    exact ⟨_, _, forwardedArgs_of_split hentries⟩
  · rcases hoccurs.mem_flags hx.flagText? key with hflags | hshown
    · rw [hx.flags] at hflags
      exact ⟨_, List.forall_mem_singleton.1 hflags, s, rfl, List.infix_refl _⟩
    · exact hshown
  · have htrue : (Value.bool true).flagText? = some "true" := rfl
    rcases hoccurs.mem_flags htrue key with hflags | ⟨f, hf, hshown⟩
    · exact ⟨_, List.forall_mem_singleton.1 hflags, .inl rfl⟩
    · exact ⟨f, hf, .inr hshown⟩

def nestedFilter : Value :=
  .seq [.tagged "any" (.map [(.str "size", .map [(.str "least", .int 40)]), (.str "name", .null)]), .bool true]

theorem nestedFilter_forwarded :
    ∃ f ∈ ((script "hashes").withArgument "filter" nestedFilter).forwardedArgs, ShownIn "filter" "40" f := by
  have hfilter : ((script "hashes").withArgument "filter" nestedFilter).arguments.find? "filter" = some nestedFilter := rfl
  obtain ⟨⟨before, behind, hblock⟩, hdata, _⟩ := data_forwarded _ hfilter
  have hoccurs : Occurs IsMuteEntry (.int 40) nestedFilter :=
    .item List.mem_cons_self (.tagged _ (.value List.mem_cons_self (by simp [IsMuteEntry, isMute_iff, flagText?])
      (.value List.mem_cons_self (by simp [IsMuteEntry, isMute_iff, flagText?]) .self)))
  obtain ⟨f, hf, hshown⟩ := hdata (.int 40) "40" (.int 40) hoccurs
  rw [hblock]
  exact ⟨f, List.mem_append_left _ (List.mem_append_right _ hf), hshown⟩

def halfFilter : Value := .map [(.str "name", .null), (.str "size", .seq [.int 40])]

theorem halfFilter_left_out :
    Occurs (fun _ => False) (.str "name") halfFilter ∧ Occurs (fun _ => False) (.int 40) halfFilter ∧
    ∀ f ∈ ((script "hashes").withArgument "filter" halfFilter).forwardedArgs,
      ¬ "name".toList <:+: f.toList ∧ ¬ "40".toList <:+: f.toList := by
  refine ⟨.key List.mem_cons_self id .self, ?_, by decide +kernel⟩
  exact .value (List.mem_cons_of_mem _ List.mem_cons_self) id (.item List.mem_cons_self .self)

end Task

end Casework
