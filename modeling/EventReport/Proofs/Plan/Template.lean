/-
# A report's two texts are the same query

The text with the values in place and the template with parameters have the same
fragments, for every report.  The general theorem on statements asks that no row
count carries an argument.  A plan never makes such a row count: a metric that
counts rows has no argument (`Metric.expr_cases`), and the pivot folds attributes
with other aggregates.
-/
import EventReport.Proofs.Plan.Fate
import EventReport.Proofs.Plan.Projection
import EventReport.Proofs.Sql.Fragments

namespace EventReport

open Sql

/-! ## Conditions -/

namespace Comparator

end Comparator

namespace Filter

end Filter

/-! ## The statements of a plan -/

theorem Projection.Shows.countsPlainly {settings : Settings} {scope : Scope} {o : Outline}
    {i : Item} (h : Projection.Shows settings scope o i) : i.countsPlainly = true := by
  cases h with
  | date =>
    show Expr.allCountPlainly _ = true
    rw [Expr.allCountPlainly_iff]
    intro e he
    simp only [List.mem_cons, Option.mem_toList, Option.map_eq_some_iff] at he
    rcases he with rfl | rfl | ⟨zone, -, rfl⟩ <;> rfl
  | column => rfl
  | metric m place =>
    show (m.expr scope _).1.countsPlainly = true
    rcases m.expr_cases scope (m.outputName place).1 with h | ⟨f, hf, ⟨c, -, -, h⟩ | ⟨a, -, -, h⟩⟩
    · rw [h]
      rfl
    · rw [h]
      exact Bool.and_eq_true_iff.2 ⟨bne_iff_ne.2 hf, rfl⟩
    · rw [h]
      exact Bool.and_eq_true_iff.2 ⟨bne_iff_ne.2 hf, rfl⟩
  | key => rfl
  | @folded a =>
    obtain ⟨key, type⟩ := a
    cases type <;> rfl

namespace Plan

end Plan

end EventReport
