import Mathlib.Order.Bounds.Basic
import Mathlib.Order.MinMax

/-!
# The ends of a list

The least and the greatest entry of a list, kept while it is walked.
-/

namespace Saml.Library.Ranking

variable {α : Type*} [LinearOrder α] {first bound : α} {rest : List α}

theorem foldl_min_le_iff : rest.foldl min first ≤ bound ↔ ∃ x ∈ first :: rest, x ≤ bound := by
  induction rest generalizing first with
  | nil => simp
  | cons next rest ih =>
      rw [List.foldl_cons, ih]
      simp only [List.mem_cons, exists_eq_or_imp, min_le_iff, or_assoc]

theorem foldl_max_lt_iff : rest.foldl max first < bound ↔ ∀ x ∈ first :: rest, x < bound := by
  induction rest generalizing first with
  | nil => simp
  | cons next rest ih =>
      rw [List.foldl_cons, ih]
      simp only [List.mem_cons, forall_eq_or_imp, max_lt_iff, and_assoc]

theorem foldl_max_mem : rest.foldl max first ∈ first :: rest := by
  induction rest generalizing first with
  | nil => exact List.mem_cons_self
  | cons next rest ih =>
      rw [List.foldl_cons]
      rcases List.mem_cons.mp (@ih (max first next)) with heq | hmem
      · rw [heq]
        rcases max_choice first next with hmax | hmax
        · rw [hmax]
          exact List.mem_cons_self
        · rw [hmax]
          exact List.mem_cons_of_mem _ List.mem_cons_self
      · exact List.mem_cons_of_mem _ (List.mem_cons_of_mem _ hmem)

/-- The greatest entry is kept. -/
theorem isGreatest_foldl_max : IsGreatest { x | x ∈ first :: rest } (rest.foldl max first) := by
  refine ⟨foldl_max_mem, ?_⟩
  intro x hx
  exact not_lt.mp fun hlt => lt_irrefl x (foldl_max_lt_iff.mp hlt x hx)

end Saml.Library.Ranking
