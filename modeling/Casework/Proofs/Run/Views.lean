import Casework.Proofs.Run.Confluence
import Mathlib.Tactic.TFAE

/-!
# The views of a result

Whether a run has succeeded, which tasks have not, the error that sums them up and the report are each read off the
outcomes by a pass of their own. All passes meet the same tasks that did not succeed, with the same messages.
-/

namespace Casework

/-! ## One outcome -/

namespace Outcome

variable {o : Outcome}

theorem isSuccess_iff_done : o.isSuccess = true ↔ o.status = .done := by
  rw [isSuccess_iff, status_eq_done]

theorem error?_eq_none : o.error? = none ↔ o.status = .done := by
  rw [status_eq_done, error?]
  cases o.result <;> simp

theorem isSome_error? : o.error?.isSome = true ↔ o.status ≠ .done := by
  rw [Option.isSome_iff_ne_none]
  exact not_congr error?_eq_none

theorem outputBytes_of_ne_done (h : o.status ≠ .done) : o.outputBytes = 0 := by
  rw [outputBytes, output?]
  cases hr : o.result with
  | ok out => exact absurd (status_eq_done.2 ⟨out, hr⟩) h
  | error e => rfl

end Outcome

namespace RunResult

variable (r : RunResult)

/-! ## The tasks that did not succeed -/

def misses : List (String × TaskError) := r.outcomes.entries.filterMap fun e => e.2.error?.map (e.1, ·)

theorem failed_eq_misses : r.failed = r.misses.map (·.1) := by
  rw [failed, misses, List.map_filterMap, ← List.filterMap_eq_map, List.filterMap_filter]
  refine List.filterMap_congr fun e _ => ?_
  rw [Outcome.isSuccess, Outcome.error?]
  cases e.2.result <;> rfl

theorem details_eq_misses : r.details = r.misses.map fun m => m.1 ++ ": " ++ m.2.message := by
  rw [details, misses, List.map_filterMap]
  refine List.filterMap_congr fun e _ => ?_
  rw [Option.map_map]
  rfl

theorem length_misses : r.misses.length = r.outcomes.entries.countP fun e => e.2.status ≠ .done := by
  rw [misses, List.length_filterMap_eq_countP]
  refine List.countP_congr fun e _ => ?_
  rw [Option.isSome_map, decide_eq_true_iff, Outcome.isSome_error?]

theorem misses_eq_nil : r.misses = [] ↔ ∀ e ∈ r.outcomes.entries, e.2.status = .done := by
  simp only [misses, List.filterMap_eq_nil_iff, Option.map_eq_none_iff, Outcome.error?_eq_none]

theorem error?_eq : r.error? = if r.misses.isEmpty then none else
    some (.tasksFailed r.misses.length r.outcomes.size
      ("; ".intercalate (r.misses.map fun m => m.1 ++ ": " ++ m.2.message))) := by
  rw [error?, details_eq_misses, List.isEmpty_map, List.length_map]

/-! ## The report -/

theorem report_tasks : r.report.map (·.task) = r.outcomes.keys := by
  rw [report, NameMap.keys, List.map_map]
  rfl

theorem exists_row {m : String × TaskError} (h : m ∈ r.misses) :
    ∃ row ∈ r.report, row.task = m.1 ∧ row.error = some m.2.message := by
  obtain ⟨⟨name, o⟩, he, hm⟩ := List.mem_filterMap.1 h
  obtain ⟨x, hx, rfl⟩ := Option.map_eq_some_iff.1 hm
  exact ⟨_, List.mem_map_of_mem he, rfl, congrArg (Option.map TaskError.message) hx⟩

theorem row_of_mem_report {row : TaskReport} (h : row ∈ r.report) :
    ∃ o, r.outcomes.find? row.task = some o ∧ row.status = o.status ∧
      (row.error.isSome = true ↔ row.status ≠ .done) ∧ (row.status ≠ .done → row.outputBytes = 0) := by
  obtain ⟨⟨name, o⟩, he, rfl⟩ := List.mem_map.1 h
  refine ⟨o, NameMap.find?_eq_some.2 he, rfl, ?_, Outcome.outputBytes_of_ne_done⟩
  rw [Option.isSome_map]
  exact Outcome.isSome_error?

/-! ## All views -/

/-- A result shows success in every view or in none. Its error counts the tasks that did not succeed, of all tasks
that the report lists, and tells of each in turn what the report says of it. The report has one row for each task, in
the order of their names, with an error just if the task is not done, and no output then. -/
theorem views_agree :
    [r.isSuccess = true, r.failed = [], r.error? = none, r.check = .ok (),
      ∀ name o, r.outcomes.find? name = some o → o.status = .done].TFAE ∧
    (∀ e, r.check = .error e ↔ r.error? = some e) ∧
    (∀ e, r.error? = some e → ∃ failed total details, e = .tasksFailed failed total details ∧
      failed = r.failed.length ∧ failed = r.outcomes.entries.countP (fun e => e.2.status ≠ .done) ∧ 1 ≤ failed ∧
      total = r.outcomes.size ∧ total = r.report.length ∧
      ∃ messages, List.Forall₂ (fun name message => ∃ row ∈ r.report, row.task = name ∧ row.error = some message)
          r.failed messages ∧
        details = "; ".intercalate (r.failed.zipWith (fun name message => name ++ ": " ++ message) messages)) ∧
    r.report.map (·.task) = r.outcomes.keys ∧ (r.report.map (·.task)).Pairwise (· < ·) ∧
    ∀ row ∈ r.report, ∃ o, r.outcomes.find? row.task = some o ∧ row.status = o.status ∧
      (row.error.isSome = true ↔ row.status ≠ .done) ∧ (row.status ≠ .done → row.outputBytes = 0) := by
  refine ⟨?_, fun e => ?_, fun e he => ?_, r.report_tasks, ?_, fun row => r.row_of_mem_report⟩
  · have hdone : (∀ name o, r.outcomes.find? name = some o → o.status = .done) ↔ r.misses = [] := by
      rw [misses_eq_nil, Prod.forall]
      simp only [NameMap.find?_eq_some]
    tfae_have 1 ↔ 5 := by
      rw [hdone, misses_eq_nil, isSuccess, List.all_eq_true]
      simp only [Outcome.isSuccess_iff_done]
    tfae_have 2 ↔ 5 := by rw [hdone, failed_eq_misses, List.map_eq_nil_iff]
    tfae_have 3 ↔ 5 := by
      rw [hdone, error?_eq, ← List.isEmpty_iff]
      cases r.misses.isEmpty <;> simp
    tfae_have 4 ↔ 3 := by
      rw [check]
      cases r.error? <;> simp
    tfae_finish
  · rw [check]
    cases r.error? <;> simp
  · rw [error?_eq] at he
    split at he
    · cases he
    · rename_i hmisses
      cases he
      refine ⟨_, _, _, rfl, ?_, r.length_misses, ?_, rfl, ?_, r.misses.map (·.2.message), ?_, ?_⟩
      · rw [failed_eq_misses, List.length_map]
      · exact List.length_pos_iff.2 fun hnil => hmisses (List.isEmpty_iff.2 hnil)
      · rw [report, List.length_map, NameMap.size]
      · rw [failed_eq_misses, List.forall₂_map_left_iff, List.forall₂_map_right_iff, List.forall₂_same]
        exact fun m hm => r.exists_row hm
      · rw [failed_eq_misses, List.zipWith_map, List.zipWith_self]
  · rw [report_tasks]
    exact r.outcomes.keys_sorted

def brokenHashes : RunResult :=
  { outcomes := .ofList [("hashes", ⟨.error (.pluginNotFound "foo"), some ⟨0, 0⟩, ⟨1, 0⟩⟩),
      ("report", ⟨.error (.dependencyFailed "hashes"), none, ⟨1, 0⟩⟩),
      ("files", ⟨.ok "12\n", some ⟨0, 0⟩, ⟨2, 0⟩⟩)] }

theorem brokenHashes_views_agree :
    brokenHashes.error? = some (.tasksFailed 2 3 "hashes: plugin 'foo' not found; report: dependency 'hashes' failed") ∧
      brokenHashes.failed = ["hashes", "report"] ∧ brokenHashes.isSuccess = false ∧
      brokenHashes.report.length = 3 ∧ brokenHashes.report.map (·.task) = ["files", "hashes", "report"] := by
  have herror : brokenHashes.error? =
      some (.tasksFailed 2 3 "hashes: plugin 'foo' not found; report: dependency 'hashes' failed") := by decide +kernel
  obtain ⟨hagree, -, htold, htasks, -⟩ := brokenHashes.views_agree
  obtain ⟨_, total, _, heq, -, -, -, -, htotal, -⟩ := htold _ herror
  cases heq
  refine ⟨herror, by decide +kernel, ?_, htotal.symm, htasks.trans (by decide +kernel)⟩
  have hsuccess : brokenHashes.isSuccess = true ↔ brokenHashes.error? = none := hagree.out 0 2
  rw [Bool.eq_false_iff, ne_eq, hsuccess, herror]
  exact Option.some_ne_none _

end RunResult

end Casework
