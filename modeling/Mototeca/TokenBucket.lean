import Mathlib.Algebra.Order.Field.Basic
import Mathlib.Data.List.Count
import Mathlib.Tactic.Linarith

/-!
# Token buckets

A bucket of `burst` tokens refills at `rate` and loses a token at each call it
admits. What it holds is decided by the calls admitted so far: there is a token
for a call exactly when no window that begins at an admitted call is too full.
-/

namespace TokenBucket

variable {𝕜 : Type} [Field 𝕜] [LinearOrder 𝕜]

def refill (rate burst tokens elapsed : 𝕜) : 𝕜 := min burst (tokens + elapsed * rate)

/-- What is in the bucket at `t`, after calls were admitted at the times of the
list, the latest first. -/
def level (rate burst : 𝕜) : List 𝕜 → 𝕜 → 𝕜
  | [], _ => burst
  | s :: l, t => refill rate burst (level rate burst l s - 1) (t - s)

/-- A bucket that held `tokens` at `u` holds what the admitted calls leave. -/
structure Tracks (rate burst : 𝕜) (l : List 𝕜) (tokens u : 𝕜) : Prop where
  nonneg : 0 ≤ tokens
  level : ∀ t, u ≤ t → refill rate burst tokens (t - u) = level rate burst l t

def Full (rate burst : 𝕜) (l : List 𝕜) (now : 𝕜) : Prop := ∀ t, now ≤ t → level rate burst l t = burst

section
variable {rate burst : 𝕜} {l : List 𝕜}

theorem full_nil (now : 𝕜) : Full rate burst [] now := fun _ _ => rfl

theorem Full.mono {now now' : 𝕜} (h : Full rate burst l now) (hle : now ≤ now') : Full rate burst l now' :=
  fun t ht => h t (hle.trans ht)

variable [IsStrictOrderedRing 𝕜]

theorem le_level_iff : ∀ {l : List 𝕜} {c t : 𝕜}, l.Pairwise (· ≥ ·) → (∀ s ∈ l, s ≤ t) →
    (c ≤ level rate burst l t ↔
      c ≤ burst ∧ ∀ s ∈ l, (l.countP fun x => s ≤ x : ℕ) + c ≤ burst + rate * (t - s)) := by
  intro l
  induction l with
  | nil => intro c t _ _; simp [level]
  | cons s l ih =>
    intro c t hl ht
    obtain ⟨hs, hl⟩ := List.pairwise_cons.mp hl
    -- A level after `s` is one more at `s` itself, less what comes back since.
    have hshift : c ≤ level rate burst l s - 1 + (t - s) * rate ↔ c + 1 - (t - s) * rate ≤ level rate burst l s := by
      constructor <;> intro h <;> linarith
    rw [level, refill, le_min_iff, hshift, ih hl hs]
    have hcount : ∀ x ∈ l, ((s :: l).countP fun y => x ≤ y : ℕ) = l.countP (fun y => x ≤ y) + 1 := fun x hx => by
      rw [List.countP_cons, if_pos (by simpa using hs x hx)]
    refine and_congr_right fun _ => ⟨fun ⟨hb, h⟩ x hx => ?_, fun h => ⟨?_, fun x hx => ?_⟩⟩
    · rcases List.mem_cons.mp hx with rfl | hx
      · rw [List.countP_cons, if_pos (by simp), Nat.cast_add, Nat.cast_one]
        by_cases hx : x ∈ l
        · have := h x hx
          linarith
        · have hnone : l.countP (fun y => x ≤ y) = 0 := List.countP_eq_zero.mpr fun y hy hle => by
            have hle : x ≤ y := by simpa using hle
            exact hx (le_antisymm hle (hs y hy) ▸ hy)
          rw [hnone, Nat.cast_zero]
          linarith
      · rw [hcount x hx, Nat.cast_add, Nat.cast_one]
        have := h x hx
        linarith
    · have hself := h s (List.mem_cons_self ..)
      rw [List.countP_cons, if_pos (by simp), Nat.cast_add, Nat.cast_one] at hself
      have hcast : (0 : 𝕜) ≤ (l.countP fun y => s ≤ y : ℕ) := Nat.cast_nonneg _
      linarith
    · have hx' := h x (List.mem_cons_of_mem _ hx)
      rw [hcount x hx, Nat.cast_add, Nat.cast_one] at hx'
      linarith

theorem refill_refill (hrate : 0 ≤ rate) (tokens d : 𝕜) {e : 𝕜} (he : 0 ≤ e) :
    refill rate burst (refill rate burst tokens d) e = refill rate burst tokens (d + e) := by
  have hback : 0 ≤ e * rate := mul_nonneg he hrate
  unfold refill
  rcases le_total burst (tokens + d * rate) with h | h
  · rw [min_eq_left h, min_eq_left (by linarith), min_eq_left (by linarith)]
  · rw [min_eq_right h, add_mul, add_assoc]

namespace Tracks

variable {tokens u : 𝕜}

theorem fresh (hrate : 0 ≤ rate) (hburst : 0 ≤ burst) {now : 𝕜} (h : Full rate burst l now) :
    Tracks rate burst l burst now where
  nonneg := hburst
  level t ht := by
    rw [h t ht]
    exact min_eq_left (le_add_of_nonneg_right (mul_nonneg (sub_nonneg.mpr ht) hrate))

theorem refused (h : Tracks rate burst l tokens u) (hrate : 0 ≤ rate) (hburst : 0 ≤ burst) {t : 𝕜} (ht : u ≤ t) :
    Tracks rate burst l (refill rate burst tokens (t - u)) t where
  nonneg := le_min hburst (add_nonneg h.nonneg (mul_nonneg (sub_nonneg.mpr ht) hrate))
  level t' ht' := by
    rw [refill_refill hrate _ _ (sub_nonneg.mpr ht'), ← h.level t' (ht.trans ht')]
    rw [sub_add_sub_cancel']

theorem admitted (h : Tracks rate burst l tokens u) {t : 𝕜} (ht : u ≤ t)
    (hone : 1 ≤ refill rate burst tokens (t - u)) :
    Tracks rate burst (t :: l) (refill rate burst tokens (t - u) - 1) t where
  nonneg := sub_nonneg.mpr hone
  level t' _ := by rw [TokenBucket.level, h.level t ht]

/-- A bucket left alone for long enough is full. -/
theorem full (h : Tracks rate burst l tokens u) (hrate : 0 ≤ rate) {now : 𝕜} (hle : u ≤ now)
    (hidle : burst ≤ (now - u) * rate) : Full rate burst l now := by
  intro t ht
  rw [← h.level t (hle.trans ht)]
  refine min_eq_left ?_
  have hmore : (now - u) * rate ≤ (t - u) * rate := mul_le_mul_of_nonneg_right (by linarith) hrate
  linarith [h.nonneg]

end Tracks

end

end TokenBucket
