import LeadTime.Proofs.ColumnNames
import LeadTime.Proofs.Sql.Evaluation
import Mathlib

/-! What lead times mean. An anchor starts and reaches some of its stages; the layers of durations and of reports, read as
SQL, give the seconds between the stages that it reached, those seconds as they are reported, and their sum. -/
namespace LeadTime

open Sql

variable (start : ℚ) (times : ℕ → Option ℚ)

/-- The time of the nearest stage before this one that was reached, else the start. -/
def reachedBefore (stage : ℕ) : ℚ := ((List.range stage).reverse.findSome? times).getD start

/-- The seconds that a stage took, where it was reached. The first stage counts in both directions. -/
def seconds : ℕ → Option ℚ
  | 0 => (times 0).map fun time => |time - start|
  | stage + 1 => (times (stage + 1)).map fun time => time - reachedBefore start times (stage + 1)

def Formula.reported : Formula → Option ℚ → Option ℚ
  | .zeroFloor, s => some (max (s.getD 0) 0)
  | .nullPreserving, s => s.map (max · 0)

/-- The seconds of the stages that were reached, none of them negative, together. -/
def totalSeconds (stages : ℕ) : ℚ :=
  ∑ stage ∈ Finset.range stages with times stage ≠ none, max ((seconds start times stage).getD 0) 0

section Texts

end Texts

section Times

variable {start times}

end Times

namespace Layers

variable (l : Layers) (groups : String → Value)

def groupCells : Row := l.groupColumns.map fun column => (column, groups column)

def reportRow : Row :=
  l.groupCells groups ++
    (l.indices.map fun stage => (durationColumn stage, .ofNumber (l.formula.reported (seconds start times stage)))) ++
    [("t", .number (totalSeconds start times l.stages.length))]

theorem nodup_reportRow : ((l.reportRow start times groups).map Prod.fst).Nodup := by
  have hcolumns : (l.reportRow start times groups).map Prod.fst = l.reportColumns := by
    simp [reportRow, groupCells, reportColumns, secondsColumns, Function.comp_def]
  rw [hcolumns]
  exact l.nodup_reportColumns

section Cells

variable {l : Layers} {start times groups}

theorem get?_reportRow {stage : ℕ} (h : stage < l.stages.length) :
    (l.reportRow start times groups).get? (durationColumn stage) =
      some (.ofNumber (l.formula.reported (seconds start times stage))) := by
  have hi : stage ∈ l.indices := List.mem_range.2 h
  exact Row.get?_eq_some (l.nodup_reportRow start times groups)
    (List.mem_append_left _ (List.mem_append_right _ (List.mem_map_of_mem hi)))

end Cells

def merges : Layers where
  anchor := ⟨.prVelocity, .none⟩
  source := .table ⟨"public", "scm_pullrequests"⟩ "pr"
  chain := []
  conditions := []
  start := .column "pr" "pr_created_at"
  stages := [⟨.column "a0" "created_at", .min⟩, ⟨.column "c1" "created_at", .min⟩, ⟨.column "m2" "merged_at", .max⟩]
  trend := false
  stack := none
  formula := .nullPreserving

end Layers
end LeadTime
