import Casework.Proofs.Host.Path

/-!
# Components of composed paths

What stands behind a slash adds its own components, idle segments add none, and a path that ends in a name has the
components of its parent and that name.
-/

namespace Casework.Path

/-! ## Segments -/

abbrev named (ss : List String) : List Component := ss.filterMap componentOf?

theorem componentOf?_idle {s : String} (h : isIdle s = true) : componentOf? s = none := by rw [componentOf?, if_pos h]

theorem componentOf?_eq_none {s : String} : componentOf? s = none ↔ isIdle s = true := by
  refine ⟨fun h => ?_, componentOf?_idle⟩
  by_cases hidle : isIdle s = true
  · exact hidle
  · rw [componentOf?, if_neg hidle] at h
    split at h <;> cases h

theorem IsName.componentOf? {s : String} (h : IsName s) : componentOf? s = some (.normal s) := by
  rw [Path.componentOf?, h.notIdle, if_neg Bool.false_ne_true, if_neg h.notParent]

theorem named_dropWhile (ss : List String) : named (ss.dropWhile isIdle) = named ss := by
  induction ss with
  | nil => rfl
  | cons s ss ih =>
    by_cases hs : isIdle s = true
    · rw [List.dropWhile_cons_of_pos hs, ih, named, named, List.filterMap_cons_none (componentOf?_idle hs)]
    · rw [List.dropWhile_cons_of_neg hs]

theorem segments_ne_nil (p : String) : segments p ≠ [] := by
  rw [segments]
  simpa using split_ne_nil p.toList

theorem segments_intercalate {ss : List String} (hne : ss ≠ []) (h : ∀ s ∈ ss, '/' ∉ s.toList) :
    segments ("/".intercalate ss) = ss := by
  induction ss with
  | nil => exact absurd rfl hne
  | cons s ss ih =>
    obtain ⟨hs, hss⟩ := List.forall_mem_cons.1 h
    have hself := segments_noSlash hs
    cases ss with
    | nil => rw [String.intercalate_singleton, hself]
    | cons t ss => rw [String.intercalate_cons_cons, segments_slash, hself, ih (List.cons_ne_nil _ _) hss, List.singleton_append]

theorem noSlash_of_mem_segments {p s : String} (h : s ∈ segments p) : '/' ∉ s.toList := by
  obtain ⟨cs, hcs, rfl⟩ := List.mem_map.1 h
  rw [String.toList_ofList]
  exact noSlash_of_mem_split hcs

/-! ## Composed paths -/

theorem isAbsolute_append {p : String} (hp : p ≠ "") (q : String) : isAbsolute (p ++ q) = isAbsolute p := by
  obtain ⟨c, cs, hcs⟩ := List.exists_cons_of_ne_nil fun h => hp (String.toList_eq_nil_iff.1 h)
  rw [isAbsolute, isAbsolute, String.toList_append, hcs]
  rfl

theorem segments_root (q : String) : segments ("/" ++ q) = "" :: segments q := segments_slash "" q

theorem isAbsolute_root (q : String) : isAbsolute ("/" ++ q) = true := by
  rw [isAbsolute, String.toList_append]
  rfl

theorem exists_root {p : String} (h : isAbsolute p = true) : ∃ q, p = "/" ++ q := by
  obtain ⟨cs, hcs⟩ := List.head?_eq_some_iff.1 (beq_iff_eq.1 h)
  refine ⟨.ofList cs, ?_⟩
  rw [← String.ofList_toList (s := p), hcs]
  exact (String.ofList_append : String.ofList (['/'] ++ cs) = .ofList ['/'] ++ .ofList cs)

/-- The segment in front of the others is idle where `lead` drops it. -/
theorem components_eq (p : String) : components p = (lead p).1.toList ++ named (segments p) := by
  rw [components, lead]
  split
  · rename_i habs
    obtain ⟨q, rfl⟩ := exists_root habs
    rw [segments_root]
    rfl
  split
  · rename_i hdot
    obtain ⟨ss, hss⟩ := List.head?_eq_some_iff.1 hdot
    rw [hss]
    rfl
  · rfl

theorem named_empty : named (segments "") = [] := rfl

theorem components_root (q : String) : components ("/" ++ q) = .root :: named (segments q) := by
  rw [components, lead, if_pos (isAbsolute_root q), segments_root]
  rfl

theorem components_slash {p : String} (hp : p ≠ "") (q : String) :
    components (p ++ "/" ++ q) = components p ++ named (segments q) := by
  have hlead : (lead (p ++ "/" ++ q)).1 = (lead p).1 := by
    have habs : isAbsolute (p ++ "/" ++ q) = isAbsolute p := by
      rw [String.append_assoc, isAbsolute_append hp]
    have hhead : (segments (p ++ "/" ++ q)).head? = (segments p).head? := by
      obtain ⟨s, ss, hss⟩ := List.exists_cons_of_ne_nil (segments_ne_nil p)
      rw [segments_slash, hss]
      rfl
    simp only [lead, habs, hhead]
    split
    · rfl
    split <;> rfl
  rw [components_eq, components_eq, hlead, segments_slash, named, List.filterMap_append, List.append_assoc]

theorem components_trailing {p : String} (hp : p ≠ "") : components (p ++ "/") = components p := by
  have hempty := components_slash hp ""
  rwa [String.append_empty, named_empty, List.append_nil] at hempty

theorem components_join {p q : String} (hp : p ≠ "") (hq : isAbsolute q = false) :
    components (join p q) = components p ++ named (segments q) := by
  by_cases hslash : p.toList.getLast? = some '/'
  · rw [join_slash hq hp hslash]
    obtain ⟨cs, hcs⟩ := List.getLast?_eq_some_iff.1 hslash
    obtain ⟨r, rfl⟩ : ∃ r : String, p = r ++ "/" :=
      ⟨.ofList cs, by rw [← String.ofList_toList (s := p), hcs, String.ofList_append]⟩
    by_cases hr : r = ""
    · subst hr
      exact components_root q
    · rw [components_slash hr, components_trailing hr]
  · rw [join_plain hq hp hslash, components_slash hp]

theorem components_join_name {p name : String} (hp : p ≠ "") (hname : IsName name) :
    components (join p name) = components p ++ [.normal name] := by
  rw [components_join hp hname.relative, segments_name hname, named, List.filterMap_cons_some hname.componentOf?,
    List.filterMap_nil]

theorem components_join_empty {p : String} (hp : p ≠ "") : components (join p "") = components p := by
  rw [components_join hp rfl, named_empty, List.append_nil]

theorem join_of_isAbsolute {q : String} (h : isAbsolute q = true) (p : String) : join p q = q := by simp [join, h]

theorem join_ne_empty (p : String) {q : String} (hq : q ≠ "") : join p q ≠ "" := by
  obtain ⟨pre, hpre⟩ := join_suffix p q
  rw [hpre]
  exact append_ne_empty pre hq

theorem getLast?_join (p : String) {q : String} (hq : q ≠ "") : (join p q).toList.getLast? = q.toList.getLast? := by
  obtain ⟨pre, hpre⟩ := join_suffix p q
  have hne : q.toList ≠ [] := fun h => hq (String.toList_eq_nil_iff.1 h)
  rw [hpre, String.toList_append, List.getLast?_append, Option.or_of_isSome (List.getLast?_isSome.2 hne)]

theorem join_join (p : String) {q r : String} (hq : q ≠ "") (hr : isAbsolute r = false) :
    join p (join q r) = join (join p q) r := by
  obtain ⟨more, hmore⟩ : ∃ more, ∀ p' : String, p' ≠ "" → p'.toList.getLast? = q.toList.getLast? →
      join p' r = p' ++ more := by
    by_cases hslash : q.toList.getLast? = some '/'
    · refine ⟨r, fun p' hp' hlast => ?_⟩
      exact join_slash hr hp' (hlast.trans hslash)
    · refine ⟨"/" ++ r, fun p' hp' hlast => ?_⟩
      rw [← String.append_assoc]
      exact join_plain hr hp' (hlast ▸ hslash)
  rw [hmore q hq rfl, hmore (join p q) (join_ne_empty p hq) (getLast?_join p hq)]
  unfold join
  rw [isAbsolute_append hq]
  split
  · rfl
  split
  · rw [String.append_assoc]
  · rw [String.append_assoc, String.append_assoc, String.append_assoc]

theorem segments_join_name {p name : String} (hp : p ≠ "") (hname : IsName name) :
    ∃ pre, segments (join p name) = pre ++ [name] ∧ (segments p = pre ∨ segments p = pre ++ [""]) := by
  by_cases hslash : p.toList.getLast? = some '/'
  · obtain ⟨cs, hcs⟩ := List.getLast?_eq_some_iff.1 hslash
    have htext : p = .ofList cs ++ "/" := by rw [← String.ofList_toList (s := p), hcs, String.ofList_append]
    have hself := segments_slash (.ofList cs) ""
    rw [String.append_empty, ← htext] at hself
    refine ⟨segments (.ofList cs), ?_, .inr hself⟩
    rw [join_slash hname.relative hp hslash, htext, segments_slash, segments_name hname]
  · refine ⟨segments p, ?_, .inl rfl⟩
    rw [join_plain hname.relative hp hslash, segments_slash, segments_name hname]

theorem absolute_eq_join (cwd p : String) : absolute cwd p = join cwd p := by
  rw [absolute, join]
  split
  · rename_i h
    rw [h, Bool.true_or, if_pos rfl]
  · rename_i h
    rw [Bool.eq_false_iff.2 h]

/-! ## Paths of few components -/

theorem components_name {name : String} (h : IsName name) : components name = [.normal name] := by
  have hdot : (segments name).head? ≠ some "." := by
    rw [segments_name h]
    intro hdot
    rw [Option.some.inj hdot] at h
    exact absurd h.notIdle (by decide)
  rw [components_eq, lead, h.relative, if_neg Bool.false_ne_true, if_neg hdot, segments_name h]
  exact List.filterMap_cons_some h.componentOf?

theorem components_ne_nil {p : String} (hp : p ≠ "") : components p ≠ [] := by
  rw [components_eq, lead]
  split
  · exact List.cons_ne_nil _ _
  rename_i hrel
  split
  · exact List.cons_ne_nil _ _
  rename_i hdot
  -- the first segment is neither empty nor a dot, so it adds a component
  obtain ⟨c, cs, hcs⟩ := List.exists_cons_of_ne_nil fun h => hp (String.toList_eq_nil_iff.1 h)
  have hc : c ≠ '/' := by
    rintro rfl
    exact hrel (by rw [isAbsolute, hcs]; rfl)
  obtain ⟨s, ss, hss⟩ := List.exists_cons_of_ne_nil (segments_ne_nil p)
  have hs : s ≠ "" := by
    rintro rfl
    rw [segments, hcs, split, if_neg hc] at hss
    split at hss <;> exact absurd (String.ofList_eq_empty_iff.1 (List.cons.inj hss).1) (List.cons_ne_nil _ _)
  have hidle : ¬ isIdle s = true := by
    rw [hss] at hdot
    rw [isIdle, Bool.or_eq_true, decide_eq_true_eq, decide_eq_true_eq]
    rintro (h | h)
    · exact hs h
    · exact hdot (congrArg some h)
  obtain ⟨x, hx⟩ := Option.ne_none_iff_exists'.1 (mt componentOf?_eq_none.1 hidle)
  have hnamed : named (s :: ss) = x :: named ss := List.filterMap_cons_some hx
  rw [hss, hnamed]
  exact List.cons_ne_nil _ _

theorem idle_of_slash {p : String} (hone : (components p).length = 1) (hslash : '/' ∈ p.toList) :
    ∃ pre last, segments p = pre ++ [last] ∧ isIdle last = true := by
  obtain ⟨back, front, hsplit, hback⟩ := List.eq_append_cons_of_mem (List.mem_reverse.2 hslash)
  have hp : p = .ofList front.reverse ++ "/" ++ .ofList back.reverse := by
    have htext := congrArg List.reverse hsplit
    rw [List.reverse_reverse, List.reverse_append, List.reverse_cons] at htext
    rw [← String.ofList_toList (s := p), htext, String.ofList_append, String.ofList_append]
  generalize hfront : String.ofList front.reverse = dir at hp
  generalize hlast : String.ofList back.reverse = last at hp
  have hself : segments last = [last] := by
    apply segments_noSlash
    rwa [← hlast, String.toList_ofList, List.mem_reverse]
  refine ⟨segments dir, last, by rw [hp, segments_slash, hself], ?_⟩
  refine Classical.byContradiction fun hidle => ?_
  -- an end with a name is one component, and what stands in front of the slash is another
  obtain ⟨x, hx⟩ := Option.ne_none_iff_exists'.1 (mt componentOf?_eq_none.1 hidle)
  have hnamed : named [last] = [x] := List.filterMap_cons_some hx
  by_cases hdir : dir = ""
  · rw [hp, hdir, String.empty_append, components_root, hself, hnamed] at hone
    cases hone
  · rw [hp, components_slash hdir, hself, hnamed, List.length_append, List.length_singleton] at hone
    exact components_ne_nil hdir (List.length_eq_zero_iff.1 (by omega))

/-! ## Paths that end in a name -/

theorem named_reverse (ss : List String) : named ss.reverse = (named ss).reverse := List.filterMap_reverse

theorem named_joined {back : List String} (h : ∀ s ∈ back, '/' ∉ s.toList) :
    named (segments (joined back)) = (named back).reverse := by
  by_cases hback : back = []
  · subst hback
    exact named_empty
  · have hne : back.reverse ≠ [] := fun h => hback (List.reverse_eq_nil_iff.1 h)
    rw [joined, segments_intercalate hne (fun s hs => h s (List.mem_reverse.1 hs)), named_reverse]

theorem exists_parent {p name : String} (habs : isAbsolute p = true) (h : fileName? p = some name) :
    ∃ dir, parent? p = some dir ∧ isAbsolute dir = true ∧ components p = components dir ++ [.normal name] := by
  obtain ⟨q, rfl⟩ := exists_root habs
  have hlead : lead ("/" ++ q) = (some .root, segments q) := by
    rw [lead, if_pos habs, segments_root]
    rfl
  have hlast := getLast?_of_fileName? h
  have hback : (named (segments q)).reverse = named (trimmedBack (segments q)) := by
    rw [trimmedBack, named_dropWhile, named_reverse]
  have hnoSlash : ∀ s ∈ trimmedBack (segments q), '/' ∉ s.toList := fun s hs =>
    noSlash_of_mem_segments (List.mem_reverse.1 ((List.dropWhile_sublist _).mem hs))
  have hfirst := List.head?_dropWhile_not isIdle (segments q).reverse
  rw [components_root] at hlast ⊢
  rw [parent?, hlead]
  rw [← trimmedBack] at hfirst
  cases hss : trimmedBack (segments q) with
  | nil =>
    rw [hss] at hback
    rw [List.reverse_eq_nil_iff.1 hback] at hlast
    cases hlast
  | cons s back =>
    -- the last segment that is not idle is the name, and the parent is written with those before it
    rw [hss] at hback hfirst hnoSlash
    obtain ⟨c, hc⟩ := Option.ne_none_iff_exists'.1 fun hnone => by
      rw [componentOf?_eq_none, hfirst] at hnone
      cases hnone
    have hcons : named (s :: back) = c :: named back := List.filterMap_cons_some hc
    rw [hcons, List.reverse_eq_cons_iff] at hback
    rw [hback, ← List.cons_append, List.getLast?_concat] at hlast
    cases hlast
    refine ⟨_, rfl, isAbsolute_root _, ?_⟩
    have hrest : ∀ s ∈ back.dropWhile isIdle, '/' ∉ s.toList := fun s hs =>
      hnoSlash s (List.mem_cons_of_mem _ ((List.dropWhile_sublist _).mem hs))
    rw [components_root, named_joined hrest, named_dropWhile, hback]
    rfl

end Casework.Path
