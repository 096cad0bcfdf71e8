import Mathlib.Data.List.Nodup
import Mathlib.Data.Option.Basic

/-!
# Two lists of the same things

`Matched R xs ys`: the elements of the one list are those of the other, one for
one, up to their order; `R` says what makes two elements the same.
-/

namespace Pairing

variable {α β α' β' κ : Type} {R : α → β → Prop} {S : α' → β' → Prop}

def Matched (R : α → β → Prop) (xs : List α) (ys : List β) : Prop :=
  ∃ l : List (α × β), xs.Perm (l.map (·.1)) ∧ ys.Perm (l.map (·.2)) ∧ ∀ p ∈ l, R p.1 p.2

namespace Matched

variable {xs : List α} {ys : List β}

theorem nil : Matched R [] [] := ⟨[], .refl _, .refl _, fun p hp => by cases hp⟩

theorem append_singleton (h : Matched R xs ys) {a : α} {b : β} (hab : R a b) : Matched R (xs ++ [a]) (ys ++ [b]) := by
  obtain ⟨l, hxs, hys, hl⟩ := h
  refine ⟨l ++ [(a, b)], ?_, ?_, fun p hp => ?_⟩
  · rw [List.map_append]
    exact hxs.append_right _
  · rw [List.map_append]
    exact hys.append_right _
  · rcases List.mem_append.mp hp with hp | hp
    · exact hl p hp
    · rw [List.mem_singleton.mp hp]
      exact hab

theorem map (h : Matched R xs ys) {f : α → α'} {g : β → β'}
    (hfg : ∀ a ∈ xs, ∀ b ∈ ys, R a b → S (f a) (g b)) : Matched S (xs.map f) (ys.map g) := by
  obtain ⟨l, hxs, hys, hl⟩ := h
  refine ⟨l.map (Prod.map f g), ?_, ?_, fun p hp => ?_⟩
  · rw [List.map_map]
    exact (hxs.map f).trans (.of_eq (List.map_map ..))
  · rw [List.map_map]
    exact (hys.map g).trans (.of_eq (List.map_map ..))
  · obtain ⟨q, hq, rfl⟩ := List.mem_map.mp hp
    exact hfg _ (hxs.mem_iff.mpr (List.mem_map_of_mem hq)) _ (hys.mem_iff.mpr (List.mem_map_of_mem hq)) (hl q hq)

theorem mono (h : Matched R xs ys) {R' : α → β → Prop} (hR : ∀ a ∈ xs, ∀ b ∈ ys, R a b → R' a b) : Matched R' xs ys := by
  have hmap := h.map (f := id) (g := id) hR
  rwa [List.map_id, List.map_id] at hmap

section
variable {p : α → Bool} {q : β → Bool} (hpq : ∀ a ∈ xs, ∀ b ∈ ys, R a b → p a = q b)
include hpq

theorem filter (h : Matched R xs ys) : Matched R (xs.filter p) (ys.filter q) := by
  obtain ⟨l, hxs, hys, hl⟩ := h
  have hsame : ∀ e ∈ l, p e.1 = q e.2 := fun e he =>
    hpq _ (hxs.mem_iff.mpr (List.mem_map_of_mem he)) _ (hys.mem_iff.mpr (List.mem_map_of_mem he)) (hl e he)
  refine ⟨l.filter (p ·.1), ?_, ?_, fun e he => hl e (List.mem_filter.mp he).1⟩
  · exact (hxs.filter p).trans (.of_eq List.filter_map)
  · refine (hys.filter q).trans (.of_eq ?_)
    rw [List.filter_map]
    exact congrArg _ (List.filter_congr fun e he => (hsame e he).symm)

theorem any (h : Matched R xs ys) : xs.any p = ys.any q := by
  obtain ⟨l, hxs, hys, hl⟩ := h.filter hpq
  have hlength : (xs.filter p).length = (ys.filter q).length := by
    rw [hxs.length_eq, hys.length_eq, List.length_map, List.length_map]
  rw [Bool.eq_iff_iff, List.any_eq_true, List.any_eq_true]
  have hne : (xs.filter p ≠ []) ↔ (ys.filter q ≠ []) := by
    rw [← List.length_pos_iff, ← List.length_pos_iff, hlength]
  simpa [List.filter_eq_nil_iff] using hne

/-- Where one element at most has the property, both lists find the same. -/
theorem find? (h : Matched R xs ys) (hone : ∀ b ∈ ys, ∀ b' ∈ ys, q b = true → q b' = true → b = b') :
    Option.Rel R (xs.find? p) (ys.find? q) := by
  obtain ⟨l, hxs, hys, hl⟩ := h
  cases hfind : xs.find? p with
  | none =>
    have hnone : ys.find? q = none := by
      refine List.find?_eq_none.mpr fun b hb hqb => ?_
      obtain ⟨e, he, rfl⟩ := List.mem_map.mp (hys.mem_iff.mp hb)
      have ha : e.1 ∈ xs := hxs.mem_iff.mpr (List.mem_map_of_mem he)
      exact List.find?_eq_none.mp hfind _ ha (by rw [hpq _ ha _ hb (hl e he), hqb])
    rw [hnone]
    exact .none
  | some a =>
    have ha := List.mem_of_find?_eq_some hfind
    have hpa := List.find?_some hfind
    obtain ⟨e, he, rfl⟩ := List.mem_map.mp (hxs.mem_iff.mp ha)
    have hb : e.2 ∈ ys := hys.mem_iff.mpr (List.mem_map_of_mem he)
    have hqb : q e.2 = true := by rw [← hpq _ ha _ hb (hl e he), hpa]
    obtain ⟨b, hfound⟩ := Option.isSome_iff_exists.mp (List.find?_isSome.mpr ⟨_, hb, hqb⟩)
    rw [hfound, hone b (List.mem_of_find?_eq_some hfound) _ hb (List.find?_some hfound) hqb]
    exact .some (hl e he)

end

/-- A key that both elements of a pair have is as unique on one side as on the other. -/
theorem nodup_key (h : Matched R xs ys) {key : α → κ} {key' : β → κ} (hkey : ∀ a b, R a b → key' b = key a)
    (hxs : (xs.map key).Nodup) : (ys.map key').Nodup := by
  obtain ⟨l, hperm, hperm', hl⟩ := h
  refine ((hperm'.map key').nodup_iff).mpr ?_
  have heq : (l.map (·.2)).map key' = (l.map (·.1)).map key := by
    rw [List.map_map, List.map_map]
    exact List.map_congr_left fun e he => hkey _ _ (hl e he)
  rw [heq]
  exact (hperm.map key).nodup_iff.mp hxs

end Matched

/-- An update of the first element with a property that no other has. -/
theorem modify_findIdx {p : α → Bool} {f : α → α} : ∀ {l : List α},
    (l.Pairwise fun a b => ¬ (p a = true ∧ p b = true)) →
    l.modify (l.findIdx p) f = l.map fun a => if p a then f a else a
  | [], _ => rfl
  | a :: l, h => by
    obtain ⟨hfirst, hrest⟩ := List.pairwise_cons.mp h
    by_cases hp : p a = true
    · have hother : l.map (fun a => if p a then f a else a) = l := by
        refine (List.map_congr_left fun b hb => ?_).trans (List.map_id _)
        have hpb : p b ≠ true := fun hpb => hfirst b hb ⟨hp, hpb⟩
        simp [hpb]
      rw [List.findIdx_cons, List.map_cons, hother]
      simp [hp]
    · rw [List.findIdx_cons, List.map_cons, ← modify_findIdx hrest]
      simp [hp]

end Pairing
