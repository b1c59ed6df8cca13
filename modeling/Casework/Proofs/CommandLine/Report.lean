import Casework.CommandLine.Program
import Casework.Proofs.Json.RoundTrip

/-!
# Reports read back

A report is JSON. What it says of a store and of its tasks is read from the fields with these names, wherever in their
objects they stand, and it is the same before the report is written and after it has been read.
-/

namespace Casework

theorem mapM_map_some {α β γ : Type} {f : β → Option γ} {g : α → β} {k : α → γ} (h : ∀ a, f (g a) = some (k a))
    (l : List α) : (l.map g).mapM f = some (l.map k) := by
  induction l with
  | nil => rfl
  | cons a l ih =>
    rw [List.map_cons, List.mapM_cons, h, ih]
    rfl

namespace CommandLine

def rowOf? (j : Json) : Option (String × String) :=
  match j.field? "task", j.field? "status" with
  | some (.str task), some (.str status) => some (task, status)
  | _, _ => none

def entryOf? (j : Json) : Option (String × List (String × String)) :=
  match j.field? "store", j.field? "tasks" with
  | some (.str store), some (.arr rows) => (rows.mapM rowOf?).map (store, ·)
  | _, _ => none

def entriesOf? (j : Json) : Option (List (String × List (String × String))) :=
  match j with
  | .arr entries => entries.mapM entryOf?
  | _ => none

def rows (r : StoreRun) : List (String × String) := r.result.report.map fun e => (e.task, e.status.name)

/-! ## What is written -/

theorem rowOf?_taskJson (e : TaskReport) : rowOf? (taskJson e) = some (e.task, e.status.name) := rfl

theorem entryOf?_toJson (r : StoreRun) : entryOf? r.toJson = some (r.store, rows r) := by
  have hrows := mapM_map_some rowOf?_taskJson r.result.report
  change ((r.result.report.map taskJson).mapM rowOf?).map (r.store, ·) = _
  rw [hrows]
  rfl

theorem entriesOf?_report (runs : List StoreRun) :
    entriesOf? (.arr (runs.map StoreRun.toJson)) = some (runs.map fun r => (r.store, rows r)) :=
  mapM_map_some entryOf?_toJson runs

/-! ## What is read -/

section
variable (e : TaskReport) (r : StoreRun) (k : String)

theorem field?_taskJson : (taskJson e).settled.field? k = ((taskJson e).field? k).map Json.settled := by
  refine Json.field?_settled ?_ k
  exact (by decide : ["task", "status", "started", "ended", "error", "output_bytes"].Nodup)

theorem field?_toJson : r.toJson.settled.field? k = (r.toJson.field? k).map Json.settled := by
  refine Json.field?_settled ?_ k
  exact (by decide : ["store", "started", "ended", "tasks"].Nodup)

theorem rowOf?_settled : rowOf? (taskJson e).settled = some (e.task, e.status.name) := by
  rw [rowOf?, field?_taskJson, field?_taskJson]
  rfl

theorem entryOf?_settled : entryOf? r.toJson.settled = some (r.store, rows r) := by
  have hrows := mapM_map_some rowOf?_settled r.result.report
  rw [entryOf?, field?_toJson, field?_toJson]
  change ((Json.settledElements (r.result.report.map taskJson)).mapM rowOf?).map (r.store, ·) = _
  rw [Json.settledElements_eq_map, List.map_map]
  exact congrArg (Option.map (r.store, ·)) hrows

end

theorem entriesOf?_settled (runs : List StoreRun) :
    entriesOf? (Json.arr (runs.map StoreRun.toJson)).settled = some (runs.map fun r => (r.store, rows r)) := by
  change (Json.settledElements (runs.map StoreRun.toJson)).mapM entryOf? = _
  rw [Json.settledElements_eq_map, List.map_map]
  exact mapM_map_some entryOf?_settled runs

theorem legible_taskJson {e : TaskReport} (h : e.outputBytes ≤ Json.word64) : Json.Legible (taskJson e) := by
  have hstarted : Json.Legible (momentJson e.started) := by cases e.started <;> trivial
  have herror : Json.Legible ((e.error.map Json.str).getD .null) := by cases e.error <;> trivial
  have hbytes : Json.isWord e.outputBytes := by
    constructor
    · omega
    · exact_mod_cast h
  exact ⟨trivial, trivial, hstarted, trivial, herror, hbytes, trivial⟩

theorem nesting_taskJson (e : TaskReport) : (taskJson e).nesting ≤ 1 := by
  have hstarted : (momentJson e.started).nesting = 0 := by cases e.started <;> rfl
  have herror : ((e.error.map Json.str).getD .null).nesting = 0 := by cases e.error <;> rfl
  simp [taskJson, Json.nesting, Json.nestingFields, hstarted, herror]

theorem legible_toJson {r : StoreRun} (h : ∀ e ∈ r.result.report, e.outputBytes ≤ Json.word64) :
    Json.Legible r.toJson := by
  have hstarted : Json.Legible (momentJson r.result.started) := by cases r.result.started <;> trivial
  have hended : Json.Legible (momentJson r.result.ended) := by cases r.result.ended <;> trivial
  have htasks := Json.legible_arr_map fun e he => legible_taskJson (h e he)
  exact ⟨trivial, hstarted, hended, htasks, trivial⟩

theorem nesting_toJson (r : StoreRun) : r.toJson.nesting ≤ 3 := by
  have hstarted : (momentJson r.result.started).nesting = 0 := by cases r.result.started <;> rfl
  have hended : (momentJson r.result.ended).nesting = 0 := by cases r.result.ended <;> rfl
  have htasks := Json.nesting_arr_map_le fun e (_ : e ∈ r.result.report) => nesting_taskJson e
  simp only [StoreRun.toJson, Json.nesting, Json.nestingFields, hstarted, hended] at htasks ⊢
  omega

/-- Numbers of bytes that fit a word are read back as they were written, and all else always is. -/
theorem entriesOf?_reportText {runs : List StoreRun}
    (h : ∀ r ∈ runs, ∀ e ∈ r.result.report, e.outputBytes ≤ Json.word64) :
    (Json.parse? (reportText runs)).bind entriesOf? = some (runs.map fun r => (r.store, rows r)) := by
  have hlegible := Json.legible_arr_map fun r hr => legible_toJson (h r hr)
  have hnesting := Json.nesting_arr_map_le fun r (_ : r ∈ runs) => nesting_toJson r
  have hroom : (Json.arr (runs.map StoreRun.toJson)).nesting ≤ Json.depthLimit :=
    hnesting.trans (by decide)
  rw [reportText, Json.parse?_pretty hlegible, if_pos hroom, Option.bind_some, entriesOf?_settled]

end CommandLine

end Casework
