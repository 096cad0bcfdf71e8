import Mathlib.Data.List.DropRight

/-!
# Trimming

`trimBoth p l` is `l` without the elements of `p` at its two ends. It is `l`
itself exactly when neither end is in `p`.
-/

namespace Trimming

variable {α : Type} {p : α → Bool}

def trimBoth (p : α → Bool) (l : List α) : List α := (l.dropWhile p).rdropWhile p

theorem dropWhile_of_head {l : List α} (h : ∀ c, l.head? = some c → p c = false) : l.dropWhile p = l := by
  cases l with
  | nil => rfl
  | cons c l => rw [List.dropWhile_cons_of_neg (by simp [h c rfl])]

theorem trimBoth_self {l : List α} (hhead : ∀ c, l.head? = some c → p c = false)
    (hlast : ∀ c, l.getLast? = some c → p c = false) : trimBoth p l = l := by
  rw [trimBoth, dropWhile_of_head hhead, List.rdropWhile, dropWhile_of_head (by simpa using hlast),
    List.reverse_reverse]

theorem head?_trimBoth {l : List α} {c : α} (h : (trimBoth p l).head? = some c) : p c = false := by
  obtain ⟨trail, hsplit⟩ : trimBoth p l <+: l.dropWhile p := List.rdropWhile_prefix p _
  have hhead : (l.dropWhile p).head? = some c := by
    rw [← hsplit, List.head?_append, h]
    rfl
  have hnot := List.head?_dropWhile_not p l
  rw [hhead] at hnot
  exact hnot

theorem getLast?_trimBoth {l : List α} {c : α} (h : (trimBoth p l).getLast? = some c) : p c = false := by
  have hnot := List.head?_dropWhile_not p (l.dropWhile p).reverse
  rw [trimBoth, List.rdropWhile, List.getLast?_reverse] at h
  rw [h] at hnot
  exact hnot

theorem trimBoth_eq_self_iff {l : List α} : trimBoth p l = l ↔
    (∀ c, l.head? = some c → p c = false) ∧ ∀ c, l.getLast? = some c → p c = false := by
  constructor
  · intro h
    rw [← h]
    exact ⟨fun c hc => head?_trimBoth hc, fun c hc => getLast?_trimBoth hc⟩
  · intro h
    obtain ⟨hhead, hlast⟩ := h
    exact trimBoth_self hhead hlast

theorem trimBoth_trimBoth (l : List α) : trimBoth p (trimBoth p l) = trimBoth p l :=
  trimBoth_self (fun _ hc => head?_trimBoth hc) fun _ hc => getLast?_trimBoth hc

theorem trimBoth_append {lead : List α} (h : ∀ c ∈ lead, p c = true) (l : List α) :
    trimBoth p (lead ++ l) = trimBoth p l := by
  rw [trimBoth, List.dropWhile_append_of_pos h, trimBoth]

theorem trimBoth_split (l : List α) : ∃ lead trail, l = lead ++ (trimBoth p l ++ trail) ∧
    (∀ c ∈ lead, p c = true) ∧ ∀ c ∈ trail, p c = true := by
  refine ⟨l.takeWhile p, (l.dropWhile p).rtakeWhile p, ?_, ?_, ?_⟩
  · rw [trimBoth, List.rdropWhile_append_rtakeWhile, List.takeWhile_append_dropWhile]
  · exact fun c hc => List.mem_takeWhile_imp hc
  · exact fun c hc => List.mem_rtakeWhile_imp hc

end Trimming
