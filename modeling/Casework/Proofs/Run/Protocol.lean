import Casework.Proofs.Backend.Results
import Casework.Proofs.Run.Life
import Casework.Proofs.Workflow.Cache

/-!
# What the events tell

Each task is told of by its start and its end, or by its skip alone. Nothing starts before what it requires is
completed, and a skip comes after the end of all that its task requires, of which it names one that did not
succeed. This holds of every prefix of the events, so one event is added at a time.
-/

namespace Casework

namespace Event

def isFailure : Event → Bool
  | failed .. | skipped .. => true
  | _ => false

def Allowed (tasks : NameMap Task) (before : List Event) : Event → Prop
  | started a => ∀ b, Requires tasks a b → completed b ∈ before
  | skipped a d => (∀ b, Requires tasks a b → ∃ e ∈ before, e.task = b ∧ e.isFinal = true) ∧
    Requires tasks a d ∧ ∃ e ∈ before, e.task = d ∧ e.isFailure = true
  | completed _ | failed _ _ => True

/-- The events are about tasks, and each comes after what has to come before it. -/
def Ordered (tasks : NameMap Task) (es : List Event) : Prop :=
  ∀ early e late, es = early ++ e :: late → e.task ∈ tasks.keys ∧ e.Allowed tasks early

inductive Tells (a : String) (o : Outcome) : List Event → Prop
  | done : o.status = .done → Tells a o [started a, completed a]
  | failed {e : TaskError} : o.status = .failed → o.error? = some e → Tells a o [started a, failed a e.message]
  | skipped {d : String} : o.status = .skipped → o.error? = some (.dependencyFailed d) → Tells a o [skipped a d]

theorem ordered_nil (tasks : NameMap Task) : Ordered tasks [] := by
  intro early e late h
  simp at h

theorem Ordered.concat {tasks : NameMap Task} {es : List Event} {e : Event} (h : Ordered tasks es)
    (ht : e.task ∈ tasks.keys) (ha : e.Allowed tasks es) : Ordered tasks (es ++ [e]) := by
  intro early e' late he
  rcases List.eq_nil_or_concat late with rfl | ⟨late, e'', rfl⟩
  · obtain ⟨hes, he⟩ := List.append_inj' he rfl
    cases he
    exact ⟨ht, hes ▸ ha⟩
  · rw [List.concat_eq_append, ← List.cons_append, ← List.append_assoc] at he
    exact h early e' late (List.append_inj' he rfl).1

end Event

theorem Graph.exists_pred {tasks : NameMap Task} {g : Graph} (hd : g.Describes tasks) {n : Nat} (hn : n < g.size)
    {b : String} (h : Requires tasks (g.name n) b) : ∃ p ∈ g.preds n, p < g.size ∧ g.name p = b := by
  obtain ⟨p, hp, rfl⟩ := (mem_keys_iff hd).mp (hd.resolved _ _ h)
  exact ⟨p, (requires_iff hd hn hp).mp h, hp, rfl⟩

namespace Life

variable {R : Except TaskError String → Prop} {a : String} {st : NodeState} {p : Option Phase} {q : Option Outcome}
  {es : List Event}

theorem completed_mem (h : Life R a .done p q es) : Event.completed a ∈ es := by
  cases h
  exact List.mem_cons_self

theorem exists_final (h : Life R a st p q es) (ht : st.isTerminal = true) (hq : st = .skipped → q ≠ none) :
    ∃ e ∈ es, e.isFinal = true ∧ e.isFailure = st.isFailure := by
  cases h with
  | done => exact ⟨_, List.mem_cons_self, rfl, rfl⟩
  | failed => exact ⟨_, List.mem_cons_self, rfl, rfl⟩
  | skipped => exact ⟨_, List.mem_cons_self, rfl, rfl⟩
  | dropped => exact absurd rfl (hq rfl)
  | _ => cases ht

theorem tells (h : Life R a st p q es) (ht : st.isTerminal = true) (hq : st = .skipped → q ≠ none)
    (hR : ∀ e, R (.error e) → e.isDependencyFailure = false) : ∃ o, q = some o ∧ Event.Tells a o es.reverse := by
  cases h with
  | @done o out hr ho =>
    refine ⟨o, rfl, .done ?_⟩
    simp [Outcome.status, ho]
  | @failed o e hr ho =>
    rw [ho] at hr
    refine ⟨o, rfl, .failed ?_ ?_⟩
    · simp [Outcome.status, ho, hR e hr]
    · simp [Outcome.error?, ho]
  | @skipped o d ho =>
    refine ⟨o, rfl, .skipped ?_ ?_⟩
    · simp [Outcome.status, ho, TaskError.isDependencyFailure]
    · simp [Outcome.error?, ho]
  | dropped => exact absurd rfl (hq rfl)
  | _ => cases ht

end Life

namespace RunState

def stream (s : RunState) : List Event := s.events.reverse

theorem stream_emit (s : RunState) (e : Event) : (s.emit e).stream = s.stream ++ [e] := List.reverse_cons

theorem stream_collect (s : RunState) (n : Nat) (o : Outcome) :
    (s.collect n o).stream = s.stream ++ [finalEvent (s.taskName n) o] := by
  rw [stream, events_collect, List.reverse_cons]
  rfl

theorem mem_stream_of_told {s : RunState} {e : Event} {a : String} (h : e ∈ s.told a) : e ∈ s.stream ∧ e.task = a := by
  obtain ⟨hm, ha⟩ := List.mem_filter.mp h
  exact ⟨List.mem_reverse.mpr hm, of_decide_eq_true ha⟩

theorem filter_stream (s : RunState) (a : String) : (s.stream.filter fun e => e.task = a) = (s.told a).reverse :=
  List.filter_reverse

theorem allowed_finalEvent (tasks : NameMap Task) (before : List Event) (a : String) (o : Outcome) :
    (finalEvent a o).Allowed tasks before := by
  unfold finalEvent
  cases o.result <;> trivial

end RunState

namespace OpenRun

section
variable {R : String → Except TaskError String → Prop} {g : Graph} {s : RunState} {due : List Step} {n : Nat}

theorem completed_mem_stream (h : Sound R g ⟨s, due⟩) (hn : n < g.size) (hst : s.scheduler.state n = .done) :
    .completed (g.name n) ∈ s.stream := by
  have hlife := h.lives n hn
  unfold RunState.Lives at hlife
  rw [hst] at hlife
  exact (RunState.mem_stream_of_told hlife.completed_mem).1

/-- When a skip is taken, its node waits for nothing whose own skip is still to be taken. -/
theorem exists_final_of_pred (hg : g.Sound) {d : Nat} (h : Sound R g ⟨s, .skip n d :: due⟩) {p : Nat}
    (hp : p ∈ g.preds n) (hlt : p < g.size) : ∃ e ∈ s.stream, e.task = g.name p ∧ e.isFinal = true ∧
      e.isFailure = (s.scheduler.state p).isFailure := by
  obtain ⟨hn, hk, -, -⟩ := h.owes.skips n d List.mem_cons_self
  have hself : n ∉ g.preds n := hg.forward.2 n ((Scheduler.mem_order hg).mpr hn)
  have hlater := (List.pairwise_cons.mp h.owes.forward).1
  have hout : s.scheduler.state p = .skipped → s.outcomes.find? (g.name p) ≠ none := by
    intro hpk ho
    obtain ⟨e, he⟩ := h.owes.dropped p hlt hpk ho
    rcases List.mem_cons.mp he with he | he
    · cases he
      exact hself hp
    · exact (hlater p (List.mem_map.mpr ⟨_, he, rfl⟩)).2 hp
  have hterm := (h.scheduler.skipped n hk).1 p hp
  obtain ⟨e, he, hfinal, hfail⟩ := (h.lives p hlt).exists_final hterm hout
  obtain ⟨hmem, htask⟩ := RunState.mem_stream_of_told he
  exact ⟨e, hmem, htask, hfinal, hfail⟩

variable {tasks : NameMap Task}

theorem allowed_started (hd : g.Describes tasks) (h : Sound R g ⟨s, due⟩) {p : Phase} (hp : s.phase? n = some p) :
    (Event.started (g.name n)).Allowed tasks s.stream := by
  intro b hb
  obtain ⟨q, hq, hlt, rfl⟩ := Graph.exists_pred hd (lt_of_phase? h hp) hb
  have hdone := h.scheduler.started n (by simp [running_of_phase? h hp]) q hq
  exact completed_mem_stream h hlt hdone

theorem allowed_skipped (hg : g.Sound) (hd : g.Describes tasks) {d : Nat} (h : Sound R g ⟨s, .skip n d :: due⟩) :
    (Event.skipped (g.name n) (g.name d)).Allowed tasks s.stream := by
  obtain ⟨hn, -, -, hfind⟩ := h.owes.skips n d List.mem_cons_self
  have hm := List.mem_of_find?_eq_some hfind
  have hfailed := List.find?_some hfind
  obtain ⟨-, hlt, hreq⟩ := (hd.mem_preds n d).mp hm
  refine ⟨fun b hb => ?_, hreq, ?_⟩
  · obtain ⟨p, hp, hplt, rfl⟩ := Graph.exists_pred hd hn hb
    obtain ⟨e, he, htask, hfinal, -⟩ := exists_final_of_pred hg h hp hplt
    exact ⟨e, he, htask, hfinal⟩
  · obtain ⟨e, he, htask, -, hfail⟩ := exists_final_of_pred hg h hm hlt
    exact ⟨e, he, htask, hfail.trans hfailed⟩

theorem ordered_moved (hg : g.Sound) (hd : g.Describes tasks) {permits : Option Nat} {now : Moment} {m : Move}
    {x y : OpenRun} (h : x.Sound R g) (ho : Event.Ordered tasks x.run.stream) (hm : Moved permits now x m y) :
    Event.Ordered tasks y.run.stream := by
  have hkeys : ∀ n < g.size, g.name n ∈ tasks.keys := fun n hn => (Graph.mem_keys_iff hd).mpr ⟨n, hn, rfl⟩
  cases hm with
  | pass _ => exact ho
  | @take s st due =>
    cases st with
    | launch n => exact ho
    | skip n d =>
      have hn := (h.owes.skips n d List.mem_cons_self).1
      have hstream : (s.take now (.skip n d)).stream = s.stream ++ [.skipped (g.name n) (g.name d)] := by
        rw [← taskName_eq h, ← taskName_eq h]
        exact s.stream_emit _
      rw [hstream]
      exact ho.concat (hkeys n hn) (allowed_skipped hg hd h)
  | @acquire s due n hp _ =>
    rw [taskName_eq h, RunState.stream_emit]
    exact ho.concat (hkeys n (lt_of_phase? h hp)) (allowed_started hd h hp)
  | finish _ => exact ho
  | @collect s n o _ hp =>
    rw [RunState.stream_collect, taskName_eq h]
    refine ho.concat ?_ (RunState.allowed_finalEvent _ _ _ _)
    rw [RunState.task_finalEvent]
    exact hkeys n (lt_of_phase? h hp)
  | close _ _ => exact ho

theorem ordered_follow (hg : g.Sound) (hd : g.Describes tasks) {permits : Option Nat} {ms : List (Moment × Move)}
    {x : OpenRun} (hms : ∀ m ∈ ms, Brings R g m.2) (h : (start g).follow? permits ms = some x) :
    Event.Ordered tasks x.run.stream :=
  follow_sound hg (fun _ _ _ _ => ordered_moved hg hd) (Event.ordered_nil tasks) hms h

theorem tells_of_ended (hg : g.Sound) (hR : ∀ a e, R a (.error e) → e.isDependencyFailure = false)
    (h : Sound R g ⟨s, due⟩) (he : s.turn = .ended) (hn : n < g.size) :
    ∃ o, s.outcomes.find? (g.name n) = some o ∧
      Event.Tells (g.name n) o (s.stream.filter fun e => e.task = g.name n) := by
  have hdue : due = [] := h.settled (by simp [he])
  subst hdue
  have hterm := terminal_of_idle hg h (by simp [he]) (h.idle he) n hn
  rw [RunState.filter_stream]
  exact (h.lives n hn).tells hterm (outcome_of_owes_nil h.owes hn) (hR (g.name n))

end

/-- However workers and coordinator take turns, when a run has ended its events are about the tasks, each task
has an outcome and has been told of as its outcome says, and every event came after what has to come before it. -/
theorem events_of_ended {tasks : NameMap Task} {g : Graph} (hb : Graph.build tasks = .ok g) (c : Context)
    {cap : Option Nat} {ms : List (Moment × Move)} {x : OpenRun} (hms : ∀ m ∈ ms, Brings (c.Answers tasks) g m.2)
    (hx : (start g).follow? (RunState.permitsOf cap) ms = some x) (he : x.run.turn = .ended) :
    (∀ a ∈ tasks.keys, ∃ o, x.run.outcomes.find? a = some o ∧
      Event.Tells a o (x.run.stream.filter fun e => e.task = a)) ∧
    Event.Ordered tasks x.run.stream := by
  have hg := Graph.sound_build hb
  have hd := Graph.describes_build hb
  have hsound := sound_follow hg hms hx
  refine ⟨fun a ha => ?_, ordered_follow hg hd hms hx⟩
  obtain ⟨n, hn, rfl⟩ := (Graph.mem_keys_iff hd).mp ha
  exact tells_of_ended hg (fun a e => Context.Answers.isDependencyFailure) hsound he hn

def chain : NameMap Task := .ofList [
  ("summary", (Task.plugin "count").requiring ["report"]),
  ("report", (Task.plugin "count").requiring ["import"]),
  ("import", Task.plugin "fetch"),
  ("timeline", Task.plugin "count")]

def chainGraph : Graph :=
  ⟨⟨#["import", "report", "summary", "timeline"], #[[], [0], [1], []], #[[1], [2], [], []]⟩, [0, 1, 2, 3]⟩

theorem build_chain : Graph.build chain = .ok chainGraph := by decide +kernel

def chainContext : Context :=
  { store := "case", pluginDir := "", scriptsDir := "",
    plugins := .ofList [("count", []), ("fetch", [.fail ["disk full"]])] }

def chainError : TaskError := .pluginFailed "fetch" "disk full" ""

def chainCourse : List (Moment × Move) :=
  [Move.schedule, .schedule, .schedule, .acquire 0, .finish 0 (.error chainError), .collect 0, .schedule, .schedule,
    .acquire 3, .schedule, .finish 3 (.ok ""), .collect 3, .schedule, .close].map (⟨0, 0⟩, ·)

theorem brings_chainCourse : ∀ m ∈ chainCourse, Brings (chainContext.Answers chain) chainGraph m.2 := by
  have hfetch : (chainContext.dispatch (Task.plugin "fetch")).Yields (.error chainError) := ⟨.failed ["disk full"], rfl⟩
  have hcount : (chainContext.dispatch (Task.plugin "count")).Yields (.ok "") := ⟨.ok, rfl⟩
  intro m hm n r he
  obtain ⟨k, hk, rfl⟩ := List.mem_map.mp hm
  have hfinish : k = .finish 0 (.error chainError) ∨ k = .finish 3 (.ok "") := by
    simp only [List.mem_cons, List.not_mem_nil, or_false] at hk
    rcases hk with rfl | rfl | rfl | rfl | rfl | rfl | rfl | rfl | rfl | rfl | rfl | rfl | rfl | rfl <;>
      first | exact .inl rfl | exact .inr rfl | cases he
  rcases hfinish with rfl | rfl
  · cases he
    exact .inl ⟨_, rfl, hfetch⟩
  · cases he
    exact .inl ⟨_, rfl, hcount⟩

theorem chain_events_of_ended : Graph.build chain = .ok chainGraph ∧
    (∀ m ∈ chainCourse, Brings (chainContext.Answers chain) chainGraph m.2) ∧
    ∃ x, (start chainGraph).follow? (RunState.permitsOf (some 0)) chainCourse = some x ∧ x.run.turn = .ended ∧
      x.run.stream = [.started "import", .failed "import" chainError.message, .skipped "report" "import",
        .started "timeline", .skipped "summary" "report", .completed "timeline"] ∧
      Event.Ordered chain x.run.stream ∧ ∃ o, x.run.outcomes.find? "summary" = some o ∧
        Event.Tells "summary" o (x.run.stream.filter fun e => e.task = "summary") := by
  obtain ⟨x, hx, hends⟩ := Option.map_eq_some_iff.mp (show ((start chainGraph).follow? (RunState.permitsOf (some 0))
    chainCourse).map (fun x => (x.run.turn, x.run.stream)) = some (.ended, [.started "import",
      .failed "import" chainError.message, .skipped "report" "import", .started "timeline",
      .skipped "summary" "report", .completed "timeline"]) by decide)
  obtain ⟨he, hs⟩ := Prod.mk.inj hends
  obtain ⟨htells, ho⟩ := events_of_ended build_chain chainContext brings_chainCourse hx he
  exact ⟨build_chain, brings_chainCourse, x, hx, he, hs, ho, htells "summary" (by decide)⟩

end OpenRun

theorem Workflow.ordered_of_runWith {w : Workflow} (hw : w.Current) {r : Runner} {h : Host} {x : Timeline}
    (hx : (w.runWith r h).2 = .ok x) : Event.Ordered w.tasks x.events := by
  obtain ⟨g, hg, -, ms, hms⟩ := follow_of_runWith hx
  rw [setupGraph_eq hw] at hg
  obtain ⟨ms', hms', -⟩ := OpenRun.exists_follow? hms
  have hany : ∀ m ∈ ms', OpenRun.Brings (fun _ _ => True) g m.2 := fun m _ => OpenRun.brings_any g m.2
  exact OpenRun.ordered_follow (Graph.sound_build hg) (Graph.describes_build hg) hany hms'

end Casework
