import Mathlib.Data.List.Sort

/-!
# Ordered queries

What a query with an `ORDER BY` may answer: its rows, in any order that its keys
allow.
-/

namespace OrderedQuery

variable {α : Type} {le : α → α → Prop}

structure Answers (le : α → α → Prop) (rows answer : List α) : Prop where
  perm : answer.Perm rows
  sorted : answer.Pairwise le

variable {rows answer : List α}

theorem Answers.mem_iff (h : Answers le rows answer) {a : α} : a ∈ answer ↔ a ∈ rows := h.perm.mem_iff

/-- Rows picked out of an answer are an answer about them alone. -/
theorem Answers.filter (h : Answers le rows answer) (p : α → Bool) : Answers le (rows.filter p) (answer.filter p) :=
  ⟨h.perm.filter p, h.sorted.filter p⟩

theorem answers_insertionSort (le : α → α → Prop) [DecidableRel le] (htotal : ∀ a b, le a b ∨ le b a)
    (htrans : ∀ a b c, le a b → le b c → le a c) (rows : List α) : Answers le rows (rows.insertionSort le) := by
  have : Std.Total le := ⟨htotal⟩
  have : IsTrans α le := ⟨htrans⟩
  exact ⟨List.perm_insertionSort le rows, List.pairwise_insertionSort le rows⟩

end OrderedQuery
