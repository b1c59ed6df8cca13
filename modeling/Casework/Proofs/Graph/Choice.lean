import Casework.Proofs.Graph.Order

/-!
# The choice of the next task

By name, and without numbers: the order of a graph takes of the tasks whose requirements are all placed always the
least, and there is one order that does.
-/

namespace Casework

def Ready (tasks : NameMap Task) (done : List String) (a : String) : Prop :=
  a ∈ tasks.keys ∧ a ∉ done ∧ ∀ b, Requires tasks a b → b ∈ done

/-- Behind `done` these are placed, each the least that can be, until none can be. -/
def LeastFirst (tasks : NameMap Task) : List String → List String → Prop
  | done, [] => ∀ a, ¬ Ready tasks done a
  | done, a :: names =>
    Ready tasks done a ∧ (∀ b, Ready tasks done b → a ≤ b) ∧ LeastFirst tasks (a :: done) names

theorem leastFirst_unique {tasks : NameMap Task} : ∀ {names names' done : List String},
    LeastFirst tasks done names → LeastFirst tasks done names' → names = names'
  | [], [], _, _, _ => rfl
  | [], a :: _, _, h, h' => absurd h'.1 (h a)
  | a :: _, [], _, h, h' => absurd h.1 (h' a)
  | a :: names, a' :: names', done, ⟨ha, hmin, h⟩, ⟨ha', hmin', h'⟩ => by
    have he : a = a' := Std.le_antisymm (hmin a' ha') (hmin' a ha)
    subst he
    rw [leastFirst_unique h h']

namespace Graph

section
variable {tasks : NameMap Task} {g : Graph} (hg : g.Sound) (hd : g.Describes tasks)
include hg hd

theorem ready_name_iff {p : Placement} (hp : p.Valid g.toLinks) {n : Nat} (hn : n < g.size) :
    Ready tasks (p.placed.map g.name) (g.name n) ↔ n ∈ p.ready := by
  have hlt := hp.built.lt
  rw [hp.mem_ready, Ready, name_mem_map hg hlt hn]
  constructor
  · rintro ⟨-, hnew, hreq⟩
    refine ⟨hn, hnew, ?_⟩
    intro q hq
    have hqs := hg.links.preds_lt n q hq
    exact (name_mem_map hg hlt hqs).mp (hreq _ ((requires_iff hd hn hqs).mpr hq))
  · rintro ⟨-, hnew, hpreds⟩
    refine ⟨(mem_keys_iff hd).mpr ⟨n, hn, rfl⟩, hnew, ?_⟩
    intro b hb
    obtain ⟨q, hq, rfl⟩ := (mem_keys_iff hd).mp (hd.resolved _ _ hb)
    exact List.mem_map_of_mem (hpreds q ((requires_iff hd hn hq).mp hb))

theorem not_ready_of_nil {p : Placement} (hp : p.Valid g.toLinks) (hr : p.ready = []) (a : String) :
    ¬ Ready tasks (p.placed.map g.name) a := by
  intro ha
  obtain ⟨n, hn, rfl⟩ := (mem_keys_iff hd).mp ha.1
  have hmem := (ready_name_iff hg hd hp hn).mp ha
  rw [hr] at hmem
  cases hmem

theorem ready_head {p : Placement} (hp : p.Valid g.toLinks) {n : Nat} {rest : List Nat} (hr : p.ready = n :: rest) :
    Ready tasks (p.placed.map g.name) (g.name n) ∧ ∀ b, Ready tasks (p.placed.map g.name) b → g.name n ≤ b := by
  have hn : n ∈ p.ready := by
    rw [hr]
    exact List.mem_cons_self
  refine ⟨(ready_name_iff hg hd hp ((hp.mem_ready n).mp hn).1).mpr hn, ?_⟩
  intro b hb
  obtain ⟨m, hm, rfl⟩ := (mem_keys_iff hd).mp hb.1
  have hmem := (ready_name_iff hg hd hp hm).mp hb
  have hs := hp.ready_sorted
  rw [hr] at hmem hs
  rcases List.mem_cons.mp hmem with rfl | hmem
  · exact Std.le_refl _
  · exact Std.le_of_lt (Links.name_lt_name hg.links ((List.pairwise_cons.mp hs).1 m hmem) hm)

theorem leastFirst_advance : ∀ (fuel : Nat) {p : Placement}, p.Valid g.toLinks → g.size ≤ p.placed.length + fuel →
    ∃ ns : List Nat, (Placement.advance g.toLinks fuel p).placed.reverse = p.placed.reverse ++ ns ∧
      LeastFirst tasks (p.placed.map g.name) (ns.map g.name)
  | 0, p, hp, hfuel => by
    have hr : p.ready = [] := Placement.advance_ready hg.links 0 hp hfuel
    exact ⟨[], (List.append_nil _).symm, not_ready_of_nil hg hd hp hr⟩
  | fuel + 1, p, hp, hfuel => by
    rw [Placement.advance]
    split
    · rename_i hr
      exact ⟨[], (List.append_nil _).symm, not_ready_of_nil hg hd hp hr⟩
    · rename_i n rest hr
      obtain ⟨hv, hplaced⟩ := Placement.valid_place hg.links hp hr
      obtain ⟨ns, hns, hleast⟩ := leastFirst_advance fuel hv (by rw [hplaced, List.length_cons]; omega)
      obtain ⟨hready, hmin⟩ := ready_head hg hd hp hr
      rw [hplaced] at hns hleast
      refine ⟨n :: ns, ?_, hready, hmin, hleast⟩
      rw [hns, List.reverse_cons, List.append_assoc]
      rfl

end

theorem leastFirst_orderedNames {tasks : NameMap Task} {g : Graph} (hb : build tasks = .ok g) :
    LeastFirst tasks [] g.orderedNames := by
  have hg := sound_build hb
  have hd := describes_build hb
  obtain ⟨-, ho⟩ := build_ok hb
  have horder : g.order = (Placement.run g.toLinks).placed.reverse := congrArg Graph.order (ofLinks_ok ho).2
  obtain ⟨ns, hns, hleast⟩ :=
    leastFirst_advance hg hd g.size (Placement.valid_start g.toLinks) (Nat.le_add_left _ _)
  have hrun : (Placement.run g.toLinks).placed.reverse = ns := hns
  rw [orderedNames, horder, hrun]
  exact hleast

end Graph

end Casework
