import Mathlib.Data.List.Nodup

/-!
# Tables with a key

The rows of a table as a list, and an `UPDATE` of the row that has a given key.
-/

namespace Tables

section
variable {α κ : Type} [BEq κ] [LawfulBEq κ] {key : α → κ} {rows : List α}

theorem any_key_iff {k : κ} : rows.any (fun r => key r == k) = true ↔ ∃ r ∈ rows, key r = k := by
  simp only [List.any_eq_true, beq_iff_eq]

theorem filter_key_eq (hkeys : (rows.map key).Nodup) {a : α} (ha : a ∈ rows) :
    rows.filter (fun b => key b == key a) = [a] := by
  induction rows with
  | nil => cases ha
  | cons b rows ih =>
    rw [List.map_cons, List.nodup_cons] at hkeys
    by_cases hb : key b = key a
    · have hab : a = b := by
        rcases List.mem_cons.mp ha with hab | hrows
        · exact hab
        · exact absurd (hb ▸ List.mem_map_of_mem hrows) hkeys.1
      have hrest : rows.filter (fun b => key b == key a) = [] := by
        refine List.filter_eq_nil_iff.mpr fun c hc hkey => hkeys.1 ?_
        rw [hb, ← beq_iff_eq.mp hkey]
        exact List.mem_map_of_mem hc
      rw [List.filter_cons_of_pos (by simp [hb]), hrest, hab]
    · have hrows : a ∈ rows := by
        rcases List.mem_cons.mp ha with rfl | hrows
        · exact absurd rfl hb
        · exact hrows
      rw [List.filter_cons_of_neg (by simp [hb]), ih hkeys.2 hrows]

end

/-! ## update -/

section
variable {α β κ : Type} [DecidableEq κ] {key : α → κ} {rows : List α}

def update (key : α → κ) (k : κ) (f : α → α) (rows : List α) : List α := rows.map fun r => if key r = k then f r else r

variable {k : κ} {f : α → α} {r : α}

theorem mem_update_of_ne (hr : r ∈ rows) (h : key r ≠ k) : r ∈ update key k f rows :=
  List.mem_map.mpr ⟨r, hr, if_neg h⟩

theorem mem_update_self (hr : r ∈ rows) (h : key r = k) : f r ∈ update key k f rows :=
  List.mem_map.mpr ⟨r, hr, if_pos h⟩

theorem of_mem_update (h : r ∈ update key k f rows) : (r ∈ rows ∧ key r ≠ k) ∨ ∃ r₀ ∈ rows, key r₀ = k ∧ f r₀ = r := by
  obtain ⟨r₀, hr₀, heq⟩ := List.mem_map.mp h
  by_cases hk : key r₀ = k
  · rw [if_pos hk] at heq
    exact .inr ⟨r₀, hr₀, hk, heq⟩
  · rw [if_neg hk] at heq
    exact .inl (heq ▸ ⟨hr₀, hk⟩)

theorem update_congr {g : α → α} (h : ∀ r ∈ rows, key r = k → f r = g r) : update key k f rows = update key k g rows := by
  refine List.map_congr_left fun r hr => ?_
  by_cases hk : key r = k
  · rw [if_pos hk, if_pos hk, h r hr hk]
  · rw [if_neg hk, if_neg hk]

theorem update_self (h : ∀ r ∈ rows, key r = k → f r = r) : update key k f rows = rows := by
  rw [update_congr h]
  simp [update]

theorem map_update {col : α → β} (h : ∀ r, col (f r) = col r) : (update key k f rows).map col = rows.map col := by
  unfold update
  rw [List.map_map]
  refine List.map_congr_left fun r _ => ?_
  by_cases hk : key r = k
  · simp [hk, h]
  · simp [hk]

/-- A `UNIQUE` column stays so when no other row has the value that is written. -/
theorem nodup_update {col : α → β} {v : β} (hkeys : (rows.map key).Nodup) (hcol : (rows.map col).Nodup)
    (hwritten : ∀ r, col (f r) = v) (hfree : ∀ r ∈ rows, key r ≠ k → col r ≠ v) :
    ((update key k f rows).map col).Nodup := by
  rw [List.Nodup, List.pairwise_map] at hkeys hcol ⊢
  refine List.pairwise_map.mpr ((hkeys.and hcol).imp_of_mem fun {a b} ha hb hab => ?_)
  obtain ⟨hkey, hne⟩ := hab
  by_cases hka : key a = k
  · have hkb : key b ≠ k := fun h => hkey (hka.trans h.symm)
    rw [if_pos hka, if_neg hkb, hwritten]
    exact (hfree b hb hkb).symm
  · by_cases hkb : key b = k
    · rw [if_neg hka, if_pos hkb, hwritten]
      exact hfree a ha hka
    · rw [if_neg hka, if_neg hkb]
      exact hne

theorem nodup_insert {col : α → β} (hcol : (rows.map col).Nodup) (hnew : ∀ a ∈ rows, col a ≠ col r) :
    ((rows ++ [r]).map col).Nodup := by
  rw [List.map_append, List.map_singleton]
  refine List.Nodup.append hcol (List.nodup_singleton _) fun v hv hr => ?_
  obtain ⟨a, ha, rfl⟩ := List.mem_map.mp hv
  exact hnew a ha (List.mem_singleton.mp hr)

end

end Tables
