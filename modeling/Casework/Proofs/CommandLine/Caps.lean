import Casework.Proofs.CommandLine.Accepted
import Casework.Proofs.CommandLine.Batch

/-!
# What comes of a cap

A run takes its permits from a counter that cannot hold all caps that are accepted. With a cap that it can hold a run
comes to its end, and the results do not depend on which one it is. With any other the program panics before it runs
anything.
-/

namespace Casework

/-! ## One cap -/

def CapFits (cap : Option Nat) : Prop := ∀ n ∈ cap, n ≤ Runner.permitLimit

instance (cap : Option Nat) : Decidable (CapFits cap) := inferInstanceAs (Decidable (∀ n ∈ cap, n ≤ Runner.permitLimit))

theorem capFits_iff {cap : Option Nat} :
    CapFits cap ↔ (RunState.permitsOf cap).all (· ≤ Runner.permitLimit) = true := by
  cases cap with
  | none => simp [CapFits, RunState.permitsOf]
  | some n =>
    have hone : 1 ≤ Runner.permitLimit := by decide
    simp [CapFits, RunState.permitsOf, hone]

theorem Workflow.runWith_of_beyond {w : Workflow} {g : Graph} {r : Runner} (hw : w.Current)
    (hb : Graph.build w.tasks = .ok g) (hcap : ¬ CapFits r.cap) (h : Host) :
    ∃ n, r.cap = some n ∧ w.runWith r h = (w.setupGraph.1, .error (.permits n)) := by
  have hno : ¬ r.holdsPermits = true := fun hp => hcap (capFits_iff.2 hp)
  cases hr : r.cap with
  | none =>
    rw [hr] at hcap
    exact absurd (fun n hn => (by cases hn)) hcap
  | some n =>
    refine ⟨n, rfl, ?_⟩
    have hone : 1 ≤ Runner.permitLimit := by decide
    have hlt : Runner.permitLimit < n := by
      rw [hr] at hcap
      simpa [CapFits] using hcap
    have hpermits : r.permits.getD 0 = n := by
      rw [Runner.permits, hr, RunState.permitsOf, Option.map_some, Option.getD_some]
      omega
    unfold Workflow.runWith
    rw [Workflow.setupGraph_eq hw, hb]
    dsimp only
    rw [if_neg hno, hpermits]

theorem RunResult.Settled.results_eq {tasks : NameMap Task} {f : String → Except TaskError String} {r r' : RunResult}
    (h : r.Settled tasks f) (h' : r'.Settled tasks f) :
    r'.outcomes.map Outcome.result = r.outcomes.map Outcome.result := by
  refine NameMap.ext_find? fun a => ?_
  rw [NameMap.find?_map, NameMap.find?_map]
  by_cases ha : a ∈ tasks.keys
  · obtain ⟨o, ho⟩ := NameMap.mem_keys.1 (h.keys ▸ ha)
    obtain ⟨o', ho'⟩ := NameMap.mem_keys.1 (h'.keys ▸ ha)
    rw [ho, ho', Option.map_some, Option.map_some, (h.settles a o ho).result_eq (h'.settles a o' ho')]
  · rw [NameMap.find?_eq_none.2 (by rwa [h'.keys]), NameMap.find?_eq_none.2 (by rwa [h.keys])]

namespace CommandLine

/-! ## Requests -/

theorem conclude_ne_panicCode (b : Batch) (report : Option String) : (conclude b report).code ≠ panicCode := by
  unfold conclude
  split
  · exact (by decide : (1 : Nat) ≠ panicCode)
  · split
    · exact (by decide : (1 : Nat) ≠ panicCode)
    · exact (by decide : (0 : Nat) ≠ panicCode)

theorem runStores_of_beyond {tasks : NameMap Task} {p : RunPlan} {b : Batch} (hb : Graph.build tasks = .ok p.graph)
    (hkeeps : b.Keeps tasks) (hcap : ¬ CapFits p.cap) (s : String) (ss : List String) :
    ∃ n, runStores .timed p b (s :: ss) = .error (b, .permits n) := by
  obtain ⟨hcurrent, rfl⟩ := hkeeps
  obtain ⟨n, -, hrun⟩ := Workflow.runWith_of_beyond (r := p.runner b.host s) hcurrent hb hcap b.host
  refine ⟨n, ?_⟩
  rw [runStores, runStore, Conduct.timed, hrun]

section
variable (clock : Moment) {h : Host} {args : List String} {config : Option String} {o : RunOptions} {c : Config}
  {w : Workflow} {g : Graph}

theorem program_eq (hparse : parse args = .ok ⟨config, .run o⟩)
    (hconfig : Config.load h.tree (config.getD h.env.configPath) = .ok c) :
    program clock h args = runCommand .timed clock h c o := by
  unfold program
  rw [hparse]
  dsimp only [serve]
  rw [hconfig]

theorem runCommand_of_beyond (hload : Workflow.load h.tree o.workflow = .ok w) (hbuild : Graph.build w.tasks = .ok g)
    (hstores : o.stores ≠ []) (hcap : ¬ CapFits (o.cap w (o.override c))) :
    runCommand .timed clock h c o = { host := h, code := panicCode } := by
  have hcurrent : w.Current := Workflow.current_of_none (cached_load hload)
  obtain ⟨s, ss, hss⟩ := List.exists_cons_of_ne_nil hstores
  obtain ⟨n, hrun⟩ := runStores_of_beyond (p := o.plan clock c w g) hbuild (keeps_setupGraph hcurrent h) hcap s ss
  unfold runCommand
  rw [hload]
  dsimp only
  rw [setupGraph_of_build hcurrent hbuild]
  dsimp only
  rw [plan_setupGraph hcurrent, hss, hrun]

theorem runCommand_of_fits (hload : Workflow.load h.tree o.workflow = .ok w) (hbuild : Graph.build w.tasks = .ok g)
    (hcap : CapFits (o.cap w (o.override c))) : ∃ b, runCommand .timed clock h c o = conclude b o.report ∧
      b.runs.map (·.store) = o.stores ∧ ∀ r ∈ b.runs, ∃ f, (∀ a e, f a = .error e → e.isDependencyFailure = false) ∧
        r.result.Of g (o.cap w (o.override c)) f := by
  have hcurrent : w.Current := Workflow.current_of_none (cached_load hload)
  have hpermits : ∀ h s, ((o.plan clock c w g).runner h s).holdsPermits = true := fun _ _ => capFits_iff.1 hcap
  obtain ⟨f, hbrings, hdirect⟩ := exists_brings hbuild hpermits (keeps_setupGraph hcurrent h) o.stores
  obtain ⟨runs, b, hb, hruns, -, hstores, hof⟩ := runStores_spec o.stores hbrings
  rw [List.nil_append] at hruns
  subst hruns
  refine ⟨b, runCommand_eq hload hcurrent hbuild hb, hstores, fun r hr => ?_⟩
  obtain ⟨i, hi, rfl⟩ := List.getElem_of_mem hr
  exact ⟨f i, hdirect i, hof i _ (List.getElem?_eq_getElem hi)⟩

end

/-- Each of the three sources takes just the caps below `2 ^ 64`. With a cap, or without one, a run of a valid workflow
comes to its end and has an outcome for each task if there are permits for the cap, and panics otherwise. However far a
run has come it can go on to its end, and two runs to which the tasks bring the same results have the same outcomes but
for their times, whatever their caps are. Of the caps of a request that of the command line counts before that of the
workflow, and that before the one of the settings. If there are permits for it all stores have their runs; if not, the
program panics and leaves everything as it was. -/
theorem runs_of_caps {w : Workflow} {g : Graph} (hw : w.Current) (hb : Graph.build w.tasks = .ok g) :
    (∀ n, (n < 2 ^ 64 ↔ ∃ text w, Workflow.parse? text = some w ∧ w.maxParallel = some n) ∧
      (n < 2 ^ 64 ↔ ∃ text c, Config.parse? text = some c ∧ c.maxParallel = some n) ∧
      (n < 2 ^ 64 ↔ ∃ args config o, parse args = .ok ⟨config, .run o⟩ ∧ o.maxParallel = some n)) ∧
    (∀ (r : Runner) (h : Host), if CapFits r.cap
      then ∃ x f, (w.runWith r h).2 = .ok x ∧ x.result.Of g r.cap f ∧ x.result.Settled w.tasks f ∧
        ∀ a, r.context.Answers w.tasks a (f a)
      else ∃ n ∈ r.cap, (w.runWith r h).2 = .error (.permits n)) ∧
    (∀ f : String → Except TaskError String, (∀ a e, f a = .error e → e.isDependencyFailure = false) →
      (∀ cap ms s, (RunState.start g).follow? (RunState.permitsOf cap) ms = some s →
        ∃ ms' t, (∀ m ∈ ms', RunState.Obeys f g m.2) ∧ s.follow? (RunState.permitsOf cap) ms' = some t ∧
          t.turn = .ended) ∧
      ∀ cap cap' r r', RunResult.Of g cap f r → RunResult.Of g cap' f r' →
        r'.outcomes.map Outcome.result = r.outcomes.map Outcome.result) ∧
    ∀ (clock : Moment) (h : Host) args config o c, parse args = .ok ⟨config, .run o⟩ →
      Config.load h.tree (config.getD h.env.configPath) = .ok c → Workflow.load h.tree o.workflow = .ok w →
      if CapFits ((o.maxParallel.or w.maxParallel).or c.maxParallel)
      then ∃ b, program clock h args = conclude b o.report ∧ (program clock h args).code ≠ panicCode ∧
        b.runs.map (·.store) = o.stores ∧ ∀ r ∈ b.runs, ∃ f, (∀ a e, f a = .error e → e.isDependencyFailure = false) ∧
          r.result.Of g ((o.maxParallel.or w.maxParallel).or c.maxParallel) f
      else program clock h args = { host := h, code := panicCode } := by
  refine ⟨fun n => ⟨⟨fun hn => ?_, ?_⟩, ⟨fun hn => ?_, ?_⟩, fun hn => ?_, ?_⟩, fun r h => ?_,
    fun f hf => ⟨fun cap ms s hs => ?_, fun cap cap' r r' hr hr' => ?_⟩,
    fun clock h args config o c hparse hconfig hload => ?_⟩
  · exact ⟨_, _, Workflow.parse?_capText hn, rfl⟩
  · rintro ⟨text, w, htext, hn⟩
    exact Workflow.maxParallel_lt htext hn
  · exact ⟨_, _, Config.parse?_capText hn, rfl⟩
  · rintro ⟨text, c, htext, hn⟩
    exact Config.maxParallel_lt htext hn
  · exact ⟨_, none, _, parse_cap (natural?_toString hn), rfl⟩
  · rintro ⟨args, config, o, hparse, hn⟩
    exact (run_of_parse hparse).2 n hn
  · split
    · rename_i hcap
      obtain ⟨x, f, ms, hrun, hcourse, hobeys, hended, hanswers⟩ :=
        Workflow.ended_of_holdsPermits hw hb (r := r) (capFits_iff.1 hcap) h
      have hof : x.result.Of g r.cap f := ⟨ms, x.run, hcourse, hobeys, hended, rfl⟩
      have hdirect : ∀ a e, f a = .error e → e.isDependencyFailure = false :=
        fun a e he => (he ▸ hanswers a).isDependencyFailure
      exact ⟨x, f, by rw [hrun], hof, settled_of hb hdirect hof, hanswers⟩
    · rename_i hcap
      obtain ⟨n, hn, hrun⟩ := Workflow.runWith_of_beyond hw hb hcap h
      exact ⟨n, hn, by rw [hrun]⟩
  · exact RunState.exists_ended (Graph.sound_build hb) f hs (Nat.le_add_left _ _)
  · exact (settled_of hb hf hr).results_eq (settled_of hb hf hr')
  · rw [program_eq clock hparse hconfig]
    split
    · rename_i hcap
      obtain ⟨b, hrun, hstores, hof⟩ := runCommand_of_fits clock (c := c) hload hb hcap
      exact ⟨b, hrun, by rw [hrun]; exact conclude_ne_panicCode b _, hstores, hof⟩
    · rename_i hcap
      exact runCommand_of_beyond clock hload hb (run_of_parse hparse).1 hcap

def wordsOf (n : Nat) : List String := ["run", "--max-parallel=" ++ toString n, "case.yaml", "case.store"]

theorem census_runs_of_caps :
    program ⟨0, 0⟩ censusHost (wordsOf (2 ^ 64 - 1)) = { host := censusHost, code := panicCode } ∧
    ∃ b, program ⟨0, 0⟩ censusHost (wordsOf (2 ^ 61 - 1)) = conclude b none ∧ b.runs.map (·.store) = ["case.store"] := by
  obtain ⟨w, hload, hbuild, hcap⟩ := census_load
  have hconfig : Config.load censusHost.tree ((none : Option String).getD censusHost.env.configPath) = .ok {} :=
    ok_of_toOption (by decide +kernel)
  have hcurrent : w.Current := Workflow.current_of_none (cached_load hload)
  obtain ⟨-, -, -, hprogram⟩ := runs_of_caps hcurrent hbuild
  have hparse : ∀ n < 2 ^ 64, parse (wordsOf n) =
      .ok ⟨none, .run { workflow := "case.yaml", stores := ["case.store"], maxParallel := some n }⟩ :=
    fun n hn => parse_cap (natural?_toString hn)
  have hgreedy := hprogram ⟨0, 0⟩ censusHost _ _ _ _ (hparse (2 ^ 64 - 1) (by decide)) hconfig hload
  have hmodest := hprogram ⟨0, 0⟩ censusHost _ _ _ _ (hparse (2 ^ 61 - 1) (by decide)) hconfig hload
  rw [hcap, if_neg (by decide)] at hgreedy
  rw [hcap, if_pos (by decide)] at hmodest
  obtain ⟨b, hb, -, hstores, -⟩ := hmodest
  exact ⟨hgreedy, b, hb, hstores⟩

end CommandLine

end Casework
