import Casework.Proofs.Run.Life
import Casework.Proofs.Run.Progress
import Casework.Proofs.Run.Waits
import Casework.Proofs.Workflow.Cache

/-!
# Every run in time ends

What is still to happen can be counted: the moves that are left, and two things for each wait, as time may have to pass
first and then the worker goes on. The limit of a run is this count at its beginning. All along, the workers that wait
are the nodes at work.
-/

namespace Casework

/-! ## What workers bring -/

namespace RunState

section
variable {g : Graph} (hg : g.Sound) {permits : Option Nat} {s t : RunState}

theorem lt_of_finish (hs : s.Sound g) {now : Moment} {n : Nat} {r : Except TaskError String}
    (h : Moved permits now s (.finish n r) t) : n < g.size := by
  obtain - | - | ⟨hp⟩ := h
  exact lt_of_phase? hs hp

include hg

theorem ne_finish_of_passed {n : Nat} (hn : n < g.size) {ms : List (Moment × Move)} (hs : s.Sound g)
    (hp : Mark.finished ∈ s.passed n) (h : s.follow? permits ms = some t) :
    ∀ m ∈ ms, ∀ k r, m.2 = .finish k r → g.name k ≠ g.name n := by
  induction ms generalizing s with
  | nil => exact fun _ hm => absurd hm List.not_mem_nil
  | cons m ms ih =>
    obtain ⟨now, m⟩ := m
    rw [follow?] at h
    split at h
    · rename_i u hu
      have hmoved := moved_of_step? hu
      have hpassed : Mark.finished ∈ u.passed n := by
        rw [passed_moved hg hs hmoved hn]
        exact List.mem_append_left _ hp
      have hrest := ih (sound_moved hg hs hmoved) hpassed h
      intro m' hm' k r he
      rcases List.mem_cons.mp hm' with rfl | hm'
      · obtain rfl : m = .finish k r := he
        intro hname
        cases Links.name_inj hg.links (lt_of_finish hs hmoved) hn hname
        obtain - | - | @⟨_, _, started, hphase⟩ := hmoved
        rw [passed, hphase, running_of_phase? hs hphase] at hp
        simp [marksOf] at hp
      · exact hrest m' hm' k r he
    · cases h

theorem exists_obeys {R : String → Except TaskError String → Prop} {f₀ : String → Except TaskError String}
    (hf₀ : ∀ a, R a (f₀ a)) {ms : List (Moment × Move)} (hs : s.Sound g)
    (hms : ∀ m ∈ ms, OpenRun.Brings R g m.2) (h : s.follow? permits ms = some t) :
    ∃ f, (∀ m ∈ ms, Obeys f g m.2) ∧ ∀ a, R a (f a) := by
  induction ms generalizing s with
  | nil => exact ⟨f₀, fun _ hm => absurd hm List.not_mem_nil, hf₀⟩
  | cons m ms ih =>
    obtain ⟨now, m⟩ := m
    rw [follow?] at h
    split at h
    · rename_i u hu
      have hmoved := moved_of_step? hu
      obtain ⟨f, hobeys, hR⟩ := ih (sound_moved hg hs hmoved) (fun k hk => hms k (List.mem_cons_of_mem _ hk)) h
      by_cases hm : ∃ n r, m = .finish n r
      · obtain ⟨n, r, rfl⟩ := hm
        have hu := sound_moved hg hs hmoved
        have hlt : n < g.size := lt_of_finish hs hmoved
        have hpassed : Mark.finished ∈ u.passed n := by
          rw [passed_moved hg hs hmoved hlt]
          simp [marks]
        have hr : R (g.name n) r := hms _ List.mem_cons_self n r rfl
        -- the rest of the course says nothing more about the task of `n`
        refine ⟨Function.update f (g.name n) r, fun k hk m r' he => ?_, fun a => ?_⟩
        · rcases List.mem_cons.mp hk with rfl | hk
          · cases he
            rw [Function.update_self]
          · rw [Function.update_of_ne (ne_finish_of_passed hg hlt hu hpassed h k hk m r' he)]
            exact hobeys k hk m r' he
        · by_cases ha : a = g.name n
          · rw [ha, Function.update_self]
            exact hr
          · rw [Function.update_of_ne ha]
            exact hR a
      · refine ⟨f, fun k hk n r he => ?_, hR⟩
        rcases List.mem_cons.mp hk with rfl | hk
        · exact absurd ⟨n, r, he⟩ hm
        · exact hobeys k hk n r he
    · cases h

end

end RunState

namespace Timeline

/-! ## The course of a run, and what is left of it -/

def begins (ms : List (Moment × Move)) : Nat := ms.countP fun m => m.2 matches .acquire _

def beginWorth : Mark → Nat
  | .begun => 1
  | _ => 0

theorem begins_le {g : Graph} (hg : g.Sound) {permits : Option Nat} {ms : List (Moment × Move)} {s : RunState}
    (h : (RunState.start g).follow? permits ms = some s) : begins ms ≤ g.size := by
  have hcount : RunState.worth g beginWorth s + 0 = 0 + begins ms :=
    RunState.worth_eq_countP hg (q := fun m => m matches .acquire _) (τ := fun _ => 0) rfl rfl rfl
      (fun _ => rfl) (fun _ _ => rfl) (fun _ => rfl) rfl h
  have hle : RunState.worth g beginWorth s ≤ g.size * 1 := RunState.worth_le (by decide) (by decide)
  omega

/-- The waits are those of the nodes at work, save the nodes in `hand`, and no worker brings anything but what its
task can come to. -/
structure Tended (g : Graph) (hand : List Nat) (ms : List (Moment × Move)) (x : Timeline) : Prop where
  course : (RunState.start g).follow? x.runner.permits ms = some x.run
  brings : ∀ m ∈ ms, OpenRun.Brings (x.runner.context.Answers x.tasks) g m.2
  working : ∀ n, n ∈ hand ++ x.waits.map Wait.node ↔ ∃ started, x.run.phase? n = some (.working started)
  distinct : (hand ++ x.waits.map Wait.node).Nodup
  origin : ∀ w ∈ x.waits, ∀ r, w.rest.Yields r ∨ w.late.Yields r →
    x.runner.context.Answers x.tasks (g.name w.node) r

/-- The fuel is enough for all that is left if what is in hand waits `extra` times. -/
def Funded (g : Graph) (extra : Nat) (ms : List (Moment × Move)) (fuel : Nat) (x : Timeline) : Prop :=
  ∃ n, Costs x.waits n ∧
    4 * g.size + 2 + 2 * (n + extra + waitLimit x.runner.context.plugins * g.size) + x.idle ≤
      fuel + ms.length + 2 * (waitLimit x.runner.context.plugins * begins ms)

section
variable {g : Graph} {hand hand' : List Nat} {ms : List (Moment × Move)} {x y : Timeline} {m : Move} {s : RunState}
  {node : Nat} {Q : Except TaskError String → Prop}

theorem move_of_step? (h : x.run.step? x.runner.permits x.moment m = some s) :
    x.move m = { x with run := s, peak := max x.peak s.workingCount } := by
  unfold move
  rw [h]

theorem Tended.sound (hg : g.Sound) (h : Tended g hand ms x) : x.run.Sound g := RunState.sound_follow hg h.course

theorem Tended.move (h : Tended g hand ms x) (hs : x.run.step? x.runner.permits x.moment m = some s)
    (hm : OpenRun.Brings (x.runner.context.Answers x.tasks) g m)
    (hw : ∀ n, n ∈ hand' ++ x.waits.map Wait.node ↔ ∃ started, s.phase? n = some (.working started))
    (hd : (hand' ++ x.waits.map Wait.node).Nodup) : Tended g hand' (ms ++ [(x.moment, m)]) (x.move m) := by
  rw [move_of_step? hs]
  refine ⟨?_, fun k hk => ?_, hw, hd, h.origin⟩
  · show (RunState.start g).follow? x.runner.permits _ = some s
    rw [RunState.follow?_append h.course, RunState.follow?, hs]
    rfl
  · rcases List.mem_append.mp hk with hk | hk
    · exact h.brings k hk
    · rw [List.mem_singleton.mp hk]
      exact hm

theorem begins_concat (ms : List (Moment × Move)) (k : Moment × Move) :
    begins (ms ++ [k]) = begins ms + begins [k] := List.countP_append ..

theorem Funded.move {extra extra' fuel fuel' : Nat} (h : Funded g extra ms fuel x)
    (hs : x.run.step? x.runner.permits x.moment m = some s)
    (hcost : fuel + 2 * extra' ≤
      fuel' + 1 + 2 * extra + 2 * (waitLimit x.runner.context.plugins * begins [(x.moment, m)])) :
    Funded g extra' (ms ++ [(x.moment, m)]) fuel' (x.move m) := by
  obtain ⟨n, hn, hle⟩ := h
  rw [move_of_step? hs]
  refine ⟨n, hn, ?_⟩
  show 4 * g.size + 2 + 2 * (n + extra' + waitLimit x.runner.context.plugins * g.size) + x.idle ≤ _
  rw [List.length_append, List.length_singleton, begins_concat,
    Nat.mul_add (waitLimit x.runner.context.plugins) (begins ms)]
  omega

theorem working_setPhase {n k : Nat} {p q : Phase} (hp : s.phase? n = some p) :
    (∃ started, (s.setPhase n q).phase? k = some (.working started)) ↔
      if k = n then q.isWorking = true else ∃ started, s.phase? k = some (.working started) := by
  rw [RunState.phase?_setPhase]
  split
  · subst k
    rw [hp]
    cases q <;> simp [Phase.isWorking]
  · exact Iff.rfl

theorem Tended.steady (h : Tended g hand ms x) (hxy : x.Steady y) (hw : y.waits = x.waits) : Tended g hand ms y := by
  obtain ⟨hrunner, htasks, hrun, -, -⟩ := hxy
  obtain ⟨hcourse, hbrings, hworking, hdistinct, horigin⟩ := h
  constructor
  · rw [hrunner, hrun]
    exact hcourse
  · rw [hrunner, htasks]
    exact hbrings
  · rw [hw, hrun]
    exact hworking
  · rw [hw]
    exact hdistinct
  · rw [hw, hrunner, htasks]
    exact horigin

theorem Funded.steady {extra fuel : Nat} (h : Funded g extra ms fuel x) (hxy : x.Steady y) (hw : y.waits = x.waits) :
    Funded g extra ms fuel y := by
  obtain ⟨n, hn, hle⟩ := h
  have hidle : y.idle ≤ x.idle := idle_mono (by rw [hw]; exact List.Subset.refl _) hxy.now.ge hxy.groups
  refine ⟨n, by rw [hw]; exact hn, ?_⟩
  rw [hxy.runner]
  omega

theorem Tended.finish (h : Tended g [node] ms x) {n fuel : Nat} (hf : Funded g n ms fuel x)
    {r : Except TaskError String} (hr : x.runner.context.Answers x.tasks (g.name node) r) :
    ∃ ms', Tended g [] ms' (x.move (.finish node r)) ∧ Funded g 0 ms' fuel (x.move (.finish node r)) := by
  obtain ⟨started, hphase⟩ := (h.working node).mp List.mem_cons_self
  have hs : x.run.step? x.runner.permits x.moment (.finish node r) =
      some (x.run.setPhase node (.finished ⟨r, some started, x.moment⟩)) := by
    simp only [RunState.step?, hphase]
  have hanswer : OpenRun.Brings (x.runner.context.Answers x.tasks) g (.finish node r) := by
    rintro k r' hk
    cases hk
    exact hr
  obtain ⟨hnot, hdistinct⟩ := List.nodup_cons.mp h.distinct
  refine ⟨_, h.move hs hanswer (fun k => ?_) hdistinct, hf.move hs (by omega)⟩
  rw [working_setPhase hphase, ← h.working]
  by_cases hk : k = node
  · subst k
    simpa [Phase.isWorking] using hnot
  · simp [hk]

theorem Tended.wait (h : Tended g [node] ms x) {m n fuel : Nat} (hf : Funded g n ms fuel x) (hxy : x.Steady y)
    {v : Wait} (hw : y.waits = x.waits ++ [v]) (hnode : v.node = node) (hm : m < n) (hrest : v.rest.Within m)
    (hlate : v.late.Within m) (hanswer : ∀ r, v.rest.Yields r ∨ v.late.Yields r →
      x.runner.context.Answers x.tasks (g.name node) r) : Tended g [] ms y ∧ Funded g 0 ms fuel y := by
  obtain ⟨hcourse, hbrings, hworking, hdistinct, horigin⟩ := h
  obtain ⟨k, hk, hle⟩ := hf
  have hnodes : y.waits.map Wait.node = x.waits.map Wait.node ++ [node] := by
    rw [hw, List.map_append, List.map_singleton, hnode]
  have hperm : ([] ++ y.waits.map Wait.node).Perm ([node] ++ x.waits.map Wait.node) := by
    rw [hnodes, List.nil_append]
    exact List.perm_append_comm
  have hidle : y.idle ≤ x.idle :=
    idle_mono (by rw [hw]; exact List.subset_append_left _ _) hxy.now.ge hxy.groups
  refine ⟨⟨?_, ?_, fun i => ?_, hperm.nodup_iff.mpr hdistinct, fun w hmem r hr => ?_⟩, k + (m + 1), ?_, ?_⟩
  · rw [hxy.runner, hxy.run]
    exact hcourse
  · rw [hxy.runner, hxy.tasks]
    exact hbrings
  · rw [hperm.mem_iff, hxy.run]
    exact hworking i
  · rw [hxy.runner, hxy.tasks]
    rw [hw] at hmem
    rcases List.mem_append.mp hmem with hmem | hmem
    · exact horigin w hmem r hr
    · obtain rfl := List.mem_singleton.mp hmem
      rw [hnode]
      exact hanswer r hr
  · rw [hw]
    exact hk.concat hrest hlate
  · rw [hxy.runner]
    omega

theorem Tended.driven (h : Tended g [node] ms x) {n fuel : Nat} (hf : Funded g n ms fuel x)
    (hQ : ∀ r, Q r → x.runner.context.Answers x.tasks (g.name node) r) (hd : Driven node Q n x y) :
    ∃ ms', Tended g [] ms' y ∧ Funded g 0 ms' fuel y := by
  cases hd with
  | finished hxy hw hr =>
    apply (h.steady hxy hw).finish (hf.steady hxy hw)
    rw [hxy.runner, hxy.tasks]
    exact hQ _ hr
  | waits hxy hw hnode hm hrest hlate hyields =>
    exact ⟨ms, h.wait hf hxy hw hnode hm hrest hlate fun r hr => hQ r (hyields r hr)⟩

end

/-! ## One thing after the other -/

section
variable {g : Graph} (hg : g.Sound) {ms : List (Moment × Move)} {x : Timeline} {fuel : Nat}

theorem Tended.coordinate {m : Move} {s : RunState} (h : Tended g [] ms x) (hf : Funded g 0 ms (fuel + 1) x)
    (hm : ∀ n r, m ≠ .finish n r) (hs : x.run.step? x.runner.permits x.moment m = some s)
    (hw : ∀ n started, s.phase? n = some (.working started) ↔ x.run.phase? n = some (.working started)) :
    ∃ ms', Tended g [] ms' (x.move m) ∧ Funded g 0 ms' fuel (x.move m) := by
  refine ⟨_, h.move hs (fun n r hr => absurd hr (hm n r)) (fun n => ?_) h.distinct, hf.move hs (by omega)⟩
  rw [h.working]
  simp only [hw]

theorem Tended.wake {w : Wait} {ws : List Wait} (h : Tended g [] ms x) (hf : Funded g 0 ms (fuel + 1) x)
    (hw : x.firstDue? x.waits = some (w, ws)) :
    ∃ ms', Tended g [] ms' ({ x with waits := ws }.wake w) ∧ Funded g 0 ms' fuel ({ x with waits := ws }.wake w) := by
  obtain ⟨hdue, as, bs, hwaits, rfl⟩ := firstDue?_eq_some hw
  obtain ⟨hcourse, hbrings, hworking, hdistinct, horigin⟩ := h
  obtain ⟨n, hn, hle⟩ := hf
  rw [hwaits] at hn
  obtain ⟨m, k, hrest, hlate, hk, rfl⟩ := hn.remove
  have hperm : x.waits.Perm (w :: (as ++ bs)) := by
    rw [hwaits]
    exact List.perm_middle
  have hnodes : ([] ++ x.waits.map Wait.node).Perm ([w.node] ++ (as ++ bs).map Wait.node) := hperm.map _
  -- what is due costs one wait, and after it time may have to pass
  have hidle : x.idle = 0 := by
    unfold idle
    rw [if_pos (List.any_eq_true.mpr ⟨w, hperm.mem_iff.mpr List.mem_cons_self, hdue⟩)]
  have hx : Tended g [w.node] ms { x with waits := as ++ bs } := by
    refine ⟨hcourse, hbrings, fun i => ?_, hnodes.nodup_iff.mp hdistinct, fun v hv r hr => ?_⟩
    · rw [← hnodes.mem_iff]
      exact hworking i
    · exact horigin v (hperm.mem_iff.mpr (List.mem_cons_of_mem _ hv)) r hr
  have hfx : Funded g m ms fuel { x with waits := as ++ bs } := by
    have hidle' := idle_le_one { x with waits := as ++ bs }
    refine ⟨k, hk, ?_⟩
    dsimp only at *
    omega
  have hanswer : ∀ r, w.rest.Yields r ∨ w.late.Yields r →
      x.runner.context.Answers x.tasks (g.name w.node) r :=
    horigin w (hperm.mem_iff.mpr List.mem_cons_self)
  have hresume := hx.driven hfx (fun r hr => hanswer r (.inl hr)) (drive_spec w.node w.rest _ hrest)
  have hgiveUp := hx.driven hfx (fun r hr => hanswer r (.inr hr)) (drive_spec w.node w.late _ hlate)
  unfold Timeline.wake
  cases w.reason with
  | gathering group members =>
    dsimp only
    split
    · exact hresume
    · exact hgiveUp
  | _ => exact hresume

theorem Tended.pass (h : Tended g [] ms x) (hf : Funded g 0 ms (fuel + 1) x) (hdue : x.firstDue? x.waits = none)
    {t : Nat} (ht : x.nextTime? = some t) : Tended g [] ms { x with now := t } ∧
      Funded g 0 ms fuel { x with now := t } := by
  obtain ⟨n, hn, hle⟩ := hf
  have hidle : x.idle = 1 := by
    unfold idle
    rw [← isSome_firstDue?, hdue]
    rfl
  have hidle' : ({ x with now := t } : Timeline).idle = 0 := by
    obtain ⟨w, hw, rfl⟩ := List.mem_map.mp (List.min?_mem ht)
    unfold idle
    rw [if_pos]
    refine List.any_eq_true.mpr ⟨w, hw, ?_⟩
    simp [isDue]
  refine ⟨⟨h.course, h.brings, h.working, h.distinct, h.origin⟩, n, hn, ?_⟩
  dsimp only at *
  omega

theorem Tended.schedule (h : Tended g [] ms x) (hf : Funded g 0 ms (fuel + 1) x) (ht : x.run.turn = .schedule) :
    ∃ ms', Tended g [] ms' (x.move .schedule) ∧ Funded g 0 ms' fuel (x.move .schedule) := by
  have hs : x.run.step? x.runner.permits x.moment .schedule = some (x.run.schedule x.moment) := by
    simp only [RunState.step?, ht, if_true]
  refine h.coordinate hf (fun n r hr => by cases hr) hs fun n started => ?_
  rw [RunState.phase?_schedule]
  cases x.run.phase? n with
  | some p => rfl
  | none =>
    rw [Option.none_or]
    split <;> simp

include hg

theorem Tended.collect (h : Tended g [] ms x) (hf : Funded g 0 ms (fuel + 1) x) (ht : x.run.turn = .collect) {n : Nat}
    (hn : x.firstFinished? = some n) :
    ∃ ms', Tended g [] ms' (x.move (.collect n)) ∧ Funded g 0 ms' fuel (x.move (.collect n)) := by
  obtain ⟨w, hw, rfl⟩ := Option.map_eq_some_iff.mp hn
  have hphase := RunState.phase?_of_mem (h.sound hg) (List.mem_of_find?_eq_some hw)
  have hfinished := List.find?_some hw
  cases hwp : w.2 with
  | finished o =>
    rw [hwp] at hphase
    have hs : x.run.step? x.runner.permits x.moment (.collect w.1) = some (x.run.collect w.1 o) := by
      simp only [RunState.step?, ht, hphase]
    refine h.coordinate hf (fun n r hr => by cases hr) hs fun k started => ?_
    rw [RunState.phase?_collect]
    split
    · subst k
      rw [hphase]
      simp
    · rfl
  | _ =>
    rw [hwp] at hfinished
    cases hfinished

theorem Tended.begin (h : Tended g [] ms x) (hf : Funded g 0 ms (fuel + 1) x) (hd : g.Describes x.tasks) {n : Nat}
    (hn : x.firstWaiting? = some n) : ∃ ms', Tended g [] ms' (x.begin n) ∧ Funded g 0 ms' fuel (x.begin n) := by
  have hsound := h.sound hg
  obtain ⟨s, hs⟩ := Option.isSome_iff_exists.mp (acquire_of_firstWaiting? hsound hn)
  obtain - | @⟨_, hp, -⟩ := RunState.moved_of_step? hs
  obtain ⟨t, ht⟩ := NameMap.mem_keys.mp ((Graph.mem_keys_iff hd).mpr ⟨n, RunState.lt_of_phase? hsound hp, rfl⟩)
  have hnot : n ∉ x.waits.map Wait.node := by
    intro hmem
    obtain ⟨started, hwork⟩ := (h.working n).mp hmem
    rw [hp] at hwork
    cases hwork
  have hworking : ∀ k, k ∈ [n] ++ x.waits.map Wait.node ↔
      ∃ started, ((x.run.setPhase n (.working x.moment)).emit (.started (x.run.taskName n))).phase? k =
        some (.working started) := by
    intro k
    show k ∈ n :: x.waits.map Wait.node ↔ ∃ started, (x.run.setPhase n _).phase? k = some (.working started)
    rw [working_setPhase hp, List.mem_cons]
    by_cases hk : k = n
    · simp [hk, Phase.isWorking]
    · rw [if_neg hk, ← h.working k]
      simp [hk]
  have hx := h.move hs (fun k r hr => by cases hr) hworking (List.nodup_cons.mpr ⟨hnot, h.distinct⟩)
  -- the move that begins the work pays for every wait of it
  have hfx : Funded g (waitLimit x.runner.context.plugins) (ms ++ [(x.moment, .acquire n)]) fuel
      (x.move (.acquire n)) := by
    apply hf.move hs
    show fuel + 1 + 2 * waitLimit x.runner.context.plugins ≤
      fuel + 1 + 2 * 0 + 2 * (waitLimit x.runner.context.plugins * 1)
    omega
  obtain ⟨hrunner, htasks, -⟩ := comes_move x (.acquire n)
  rw [Timeline.begin, RunState.taskName_eq hsound, ht, Option.getD_some]
  refine hx.driven hfx (fun r hr => ?_) (drive_spec n _ _ (Context.within_dispatch _ t))
  rw [hrunner, htasks]
  exact .inl ⟨t, ht, hr⟩

theorem Tended.workers_eq_nil (h : Tended g [] ms x) (hwaiting : x.firstWaiting? = none)
    (hfinished : x.firstFinished? = none) (htime : x.nextTime? = none) : x.run.workers = [] := by
  have hmem : ∀ {n p}, x.run.phase? n = some p → (n, p) ∈ x.run.workers := fun hp => by
    obtain ⟨l, l', hl, -⟩ := List.lookup_eq_some_iff.mp hp
    rw [hl]
    exact List.mem_append_right _ List.mem_cons_self
  refine Classical.byContradiction fun hw => ?_
  rcases RunState.exists_worker (h.sound hg).distinct hw x.runner.cap with ⟨n, hn, hp⟩ | ⟨n, started, hn⟩ | ⟨n, o, hn⟩
  · have hp : x.run.hasPermit x.runner.permits = true := hp
    rw [firstWaiting?, if_pos hp, Option.map_eq_none_iff, List.find?_eq_none] at hwaiting
    exact hwaiting _ (hmem hn) rfl
  · have hwait := (h.working n).mpr ⟨started, hn⟩
    rw [nextTime?, List.min?_eq_none_iff, List.map_eq_nil_iff] at htime
    rw [htime] at hwait
    cases hwait
  · rw [firstFinished?, Option.map_eq_none_iff, List.find?_eq_none] at hfinished
    exact hfinished _ (hmem hn) rfl

theorem Tended.step (h : Tended g [] ms x) (hf : Funded g 0 ms (fuel + 1) x) (hd : g.Describes x.tasks)
    (ht : x.run.turn ≠ .ended) : ∃ ms', Tended g [] ms' x.step ∧ Funded g 0 ms' fuel x.step := by
  have hcollect : x.run.turn ≠ .schedule → x.run.turn = .collect := by
    intro hs
    cases hturn : x.run.turn with
    | schedule => exact absurd hturn hs
    | collect => rfl
    | ended => exact absurd hturn ht
  unfold Timeline.step
  split
  · exact h.schedule hf (by assumption)
  · exact h.begin hg hf hd (by assumption)
  · exact h.collect hg hf (hcollect (by assumption)) (by assumption)
  · exact h.wake hf (by assumption)
  · exact ⟨ms, h.pass hf (by assumption) (by assumption)⟩
  · rename_i hwaiting hfinished _ htime hturn
    have hw := h.workers_eq_nil hg hwaiting hfinished htime
    have hs : x.run.step? x.runner.permits x.moment .close = some { x.run with turn := .ended } := by
      simp only [RunState.step?, hcollect hturn, hw, and_self, if_true]
    exact h.coordinate hf (fun n r hr => by cases hr) hs fun n started => Iff.rfl

theorem Tended.runFor (h : Tended g [] ms x) (hf : Funded g 0 ms fuel x) (hd : g.Describes x.tasks) :
    (runFor fuel x).run.turn = .ended ∧ ∃ ms', Tended g [] ms' (runFor fuel x) := by
  induction fuel generalizing ms x with
  | zero =>
    refine ⟨Classical.byContradiction fun ht => ?_, ms, h⟩
    obtain ⟨n, -, hle⟩ := hf
    obtain ⟨_, _, -, -, -, hlength⟩ := RunState.exists_longer hg (fun _ => .ok "") h.course ht
    have hbegins := Nat.mul_le_mul_left (waitLimit x.runner.context.plugins) (begins_le hg h.course)
    omega
  | succ fuel ih =>
    rw [Timeline.runFor]
    split
    · exact ⟨by assumption, ms, h⟩
    · obtain ⟨ms', h', hf'⟩ := h.step hg hf hd (by assumption)
      refine ih h' hf' ?_
      rw [(comes_step x).tasks]
      exact hd

end

end Timeline

/-! ## Runs of workflows -/

theorem Timeline.tended_start (r : Runner) (tasks : NameMap Task) (h : Host) (g : Graph) :
    Timeline.Tended g [] [] { runner := r, tasks, host := h, run := .start g } :=
  ⟨rfl, fun _ h => absurd h List.not_mem_nil, fun n => by simp [RunState.start, RunState.phase?], .nil,
    fun _ h => absurd h List.not_mem_nil⟩

theorem Timeline.funded_start (r : Runner) (tasks : NameMap Task) (h : Host) (g : Graph) :
    Timeline.Funded g 0 [] (Timeline.stepLimit r g) { runner := r, tasks, host := h, run := .start g } := by
  refine ⟨0, .nil, ?_⟩
  show 4 * g.size + 2 + 2 * (0 + 0 + waitLimit r.context.plugins * g.size) + 1 ≤
    g.size * (2 * waitLimit r.context.plugins + 4) + 3 + 0 + 2 * (waitLimit r.context.plugins * 0)
  have hcomm := Nat.mul_comm g.size (waitLimit r.context.plugins)
  rw [Nat.mul_add g.size, Nat.mul_left_comm g.size 2]
  omega

/-- A run for which there are permits ends, whatever the host answers, and its workers bring what their tasks can come
to. -/
theorem Workflow.ended_of_holdsPermits {w : Workflow} (hw : w.Current) {r : Runner} {g : Graph}
    (hb : Graph.build w.tasks = .ok g) (hp : r.holdsPermits = true) (h : Host) :
    ∃ x f ms, w.runWith r h = (w.setupGraph.1, .ok x) ∧
      (RunState.start g).follow? (RunState.permitsOf r.cap) ms = some x.run ∧
      (∀ m ∈ ms, RunState.Obeys f g m.2) ∧ x.run.turn = .ended ∧ ∀ a, r.context.Answers w.tasks a (f a) := by
  have hg := Graph.sound_build hb
  have hx := Timeline.tended_start r w.tasks h g
  obtain ⟨he, ms, hms⟩ := hx.runFor hg (Timeline.funded_start r w.tasks h g) (Graph.describes_build hb)
  obtain ⟨hrunner, htasks, -⟩ := Timeline.comes_runFor (Timeline.stepLimit r g)
    { runner := r, tasks := w.tasks, host := h, run := .start g }
  obtain ⟨hcourse, hbrings, -, -, -⟩ := hms
  rw [hrunner] at hcourse hbrings
  rw [htasks] at hbrings
  have hpanic : ∀ a, r.context.Answers w.tasks a (.error (.panicked "")) := fun a => .inr ⟨"", rfl⟩
  obtain ⟨f, hobeys, hanswers⟩ := RunState.exists_obeys hg hpanic (RunState.sound_start g) hbrings hcourse
  refine ⟨_, f, ms, ?_, hcourse, hobeys, he, hanswers⟩
  unfold Workflow.runWith
  rw [Workflow.setupGraph_eq hw, hb]
  dsimp only
  rw [if_pos hp]

end Casework
