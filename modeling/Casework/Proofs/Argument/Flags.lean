import Mathlib.Data.List.Forall2
import Casework.Argument

/-!
# The flags of a value

A value is taken apart into its leaves, with sequences flattened and tags left aside at any depth, and each leaf adds
what `LeafFlags` says. Inside a flag a value stands with the text that `Renders` says.
-/

namespace Casework

theorem forall₂_iff_eq_map {α β : Type} {r : α → β → Prop} {f : α → β} {l : List α} (h : ∀ a ∈ l, ∀ b, r a b ↔ b = f a)
    {l' : List β} : List.Forall₂ r l l' ↔ l' = l.map f := by
  constructor
  · intro hl
    induction hl with
    | nil => rfl
    | cons hab _ ih =>
      obtain ⟨hfirst, hrest⟩ := List.forall_mem_cons.1 h
      rw [List.map_cons, (hfirst _).1 hab, ih hrest]
  · rintro rfl
    exact List.forall₂_map_right_iff.2 (List.forall₂_same.2 fun a ha => (h a ha _).2 rfl)

namespace Value

/-! ## Texts inside flags -/

inductive IsMute : Value → Prop
  | null : IsMute .null
  | seq (vs : List Value) : IsMute (.seq vs)
  | tagged (tag : String) {v : Value} : IsMute v → IsMute (.tagged tag v)

mutual

inductive Renders : Value → String → Prop
  | str (s : String) : Renders (.str s) s
  | int (i : Int) : Renders (.int i) (toString i)
  | float (x : Binary64) : Renders (.float x) (numberLayout.text x)
  | bool (b : Bool) : Renders (.bool b) (toString b)
  | map {es : List (Value × Value)} {ps : List String} : RendersPairs es ps → Renders (.map es) (",".intercalate ps)
  | tagged (tag : String) {v : Value} {s : String} : Renders v s → Renders (.tagged tag v) s

/-- The pairs that entries leave, in their order. An entry of which the key or the value is mute leaves none. -/
inductive RendersPairs : List (Value × Value) → List String → Prop
  | nil : RendersPairs [] []
  | pair {k v : Value} {a b : String} {es : List (Value × Value)} {ps : List String} :
    Renders k a → Renders v b → RendersPairs es ps → RendersPairs ((k, v) :: es) ((a ++ "=" ++ b) :: ps)
  | skip {k v : Value} {es : List (Value × Value)} {ps : List String} :
    IsMute k ∨ IsMute v → RendersPairs es ps → RendersPairs ((k, v) :: es) ps

end

theorem flagText?_of_isMute {v : Value} (h : IsMute v) : v.flagText? = none := by
  induction h with
  | null => rfl
  | seq vs => rfl
  | tagged tag _ ih => exact ih

theorem isMute_iff {v : Value} : IsMute v ↔ v.flagText? = none := by
  refine ⟨flagText?_of_isMute, fun h => ?_⟩
  match v with
  | .null => exact .null
  | .seq vs => exact .seq vs
  | .tagged tag v => exact .tagged tag (isMute_iff.2 h)
  | .bool _ | .int _ | .float _ | .str _ | .map _ => simp [flagText?] at h

theorem pairTexts_skip {k v : Value} (h : IsMute k ∨ IsMute v) (es : List (Value × Value)) :
    pairTexts ((k, v) :: es) = pairTexts es := by
  rw [pairTexts]
  rcases h with h | h
  · rw [flagText?_of_isMute h]
  · rw [flagText?_of_isMute h]
    cases k.flagText? <;> rfl

theorem pairTexts_pair {k v : Value} {a b : String} (hk : k.flagText? = some a) (hv : v.flagText? = some b)
    (es : List (Value × Value)) : pairTexts ((k, v) :: es) = (a ++ "=" ++ b) :: pairTexts es := by
  rw [pairTexts, hk, hv]

mutual

theorem flagText?_of_renders {v : Value} {s : String} (h : Renders v s) : v.flagText? = some s := by
  match h with
  | .str _ | .int _ | .float _ | .bool _ => rfl
  | .map hps => rw [flagText?, pairTexts_of_renders hps]
  | .tagged _ hv =>
    rw [flagText?]
    exact flagText?_of_renders hv

theorem pairTexts_of_renders {es : List (Value × Value)} {ps : List String} (h : RendersPairs es ps) :
    pairTexts es = ps := by
  match h with
  | .nil => rfl
  | .pair hk hv hps =>
    rw [pairTexts_pair (flagText?_of_renders hk) (flagText?_of_renders hv), pairTexts_of_renders hps]
  | .skip hmute hps => rw [pairTexts_skip hmute, pairTexts_of_renders hps]

end

mutual

theorem renders_flagText? : ∀ {v : Value} {s : String}, v.flagText? = some s → Renders v s
  | .str s, _, rfl => .str s
  | .int i, _, rfl => .int i
  | .float x, _, rfl => .float x
  | .bool b, _, rfl => .bool b
  | .map es, _, rfl => .map (renders_pairTexts es)
  | .tagged tag v, _, h => .tagged tag (renders_flagText? (v := v) h)

theorem renders_pairTexts : ∀ es : List (Value × Value), RendersPairs es (pairTexts es)
  | [] => .nil
  | (k, v) :: es => by
    have hrest := renders_pairTexts es
    cases hk : k.flagText? with
    | none =>
      have hmute : IsMute k ∨ IsMute v := .inl (isMute_iff.2 hk)
      rw [pairTexts_skip hmute]
      exact .skip hmute hrest
    | some a =>
      cases hv : v.flagText? with
      | none =>
        have hmute : IsMute k ∨ IsMute v := .inr (isMute_iff.2 hv)
        rw [pairTexts_skip hmute]
        exact .skip hmute hrest
      | some b =>
        rw [pairTexts_pair hk hv]
        exact .pair (renders_flagText? hk) (renders_flagText? hv) hrest

end

/-! ## Leaves -/

mutual

/-- What stands in a value outside of sequences, in order and without tags. -/
def leaves : Value → List Value
  | .tagged _ v => v.leaves
  | .seq vs => leavesOfItems vs
  | v => [v]

def leavesOfItems : List Value → List Value
  | [] => []
  | v :: vs => v.leaves ++ leavesOfItems vs

end

inductive LeafFlags (key : String) : Value → List String → Prop
  | null : LeafFlags key .null []
  | no : LeafFlags key (.bool false) []
  | yes : LeafFlags key (.bool true) ["--" ++ key]
  | str (s : String) : LeafFlags key (.str s) ["--" ++ key ++ "=" ++ s]
  | int (i : Int) : LeafFlags key (.int i) ["--" ++ key ++ "=" ++ toString i]
  | float (x : Binary64) : LeafFlags key (.float x) ["--" ++ key ++ "=" ++ numberLayout.text x]
  | map {es : List (Value × Value)} {ps : List String} : RendersPairs es ps →
    LeafFlags key (.map es) ["--" ++ key ++ "=" ++ ",".intercalate ps]

/-- The flags of a value are those of its leaves, one after the other. -/
def FlagsOf (key : String) (v : Value) (fs : List String) : Prop :=
  ∃ fss, List.Forall₂ (LeafFlags key) v.leaves fss ∧ fs = fss.flatten

section
variable (key : String)

theorem flags_of_leafFlags {v : Value} {fs : List String} (h : LeafFlags key v fs) : v.flags key = fs := by
  cases h with
  | map hps =>
    rw [← pairTexts_of_renders hps]
    rfl
  | _ => rfl

mutual

theorem leafFlags_flags : ∀ v : Value, ∀ w ∈ v.leaves, LeafFlags key w (w.flags key)
  | .tagged _ v => by
    rw [leaves]
    exact leafFlags_flags v
  | .seq vs => by
    rw [leaves]
    exact leafFlags_flags_items vs
  | .null => List.forall_mem_singleton.2 .null
  | .bool false => List.forall_mem_singleton.2 .no
  | .bool true => List.forall_mem_singleton.2 .yes
  | .str s => List.forall_mem_singleton.2 (.str s)
  | .int i => List.forall_mem_singleton.2 (.int i)
  | .float x => List.forall_mem_singleton.2 (.float x)
  | .map es => List.forall_mem_singleton.2 (.map (renders_pairTexts es))

theorem leafFlags_flags_items : ∀ vs : List Value, ∀ w ∈ leavesOfItems vs, LeafFlags key w (w.flags key)
  | [] => by
    rw [leavesOfItems]
    exact List.forall_mem_nil _
  | v :: vs => by
    rw [leavesOfItems]
    exact List.forall_mem_append.2 ⟨leafFlags_flags v, leafFlags_flags_items vs⟩

end

mutual

theorem flags_eq_flatMap_leaves : ∀ v : Value, v.flags key = v.leaves.flatMap (flags key)
  | .tagged _ v => by
    rw [flags, leaves]
    exact flags_eq_flatMap_leaves v
  | .seq vs => by
    rw [flags, leaves]
    exact flagsOfItems_eq_flatMap_leaves vs
  | .null | .bool _ | .str _ | .int _ | .float _ | .map _ => (List.flatMap_singleton ..).symm

theorem flagsOfItems_eq_flatMap_leaves : ∀ vs : List Value,
    flagsOfItems key vs = (leavesOfItems vs).flatMap (flags key)
  | [] => by rw [flagsOfItems, leavesOfItems, List.flatMap_nil]
  | v :: vs => by
    rw [flagsOfItems, leavesOfItems, List.flatMap_append, flags_eq_flatMap_leaves v, flagsOfItems_eq_flatMap_leaves vs]

end

theorem flagsOf_iff {v : Value} {fs : List String} : FlagsOf key v fs ↔ fs = v.flags key := by
  have hleaf : ∀ w ∈ v.leaves, ∀ gs, LeafFlags key w gs ↔ gs = w.flags key := by
    refine fun w hw gs => ⟨fun h => (flags_of_leafFlags key h).symm, ?_⟩
    rintro rfl
    exact leafFlags_flags key v w hw
  rw [FlagsOf, flags_eq_flatMap_leaves, List.flatMap_def]
  simp only [forall₂_iff_eq_map hleaf, exists_eq_left]

end

end Value

end Casework
