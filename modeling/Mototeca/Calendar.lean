import Mathlib.Data.Nat.Find

/-!
# The proleptic Gregorian calendar

Days are numbered from the first of January of the year 0. The calendar repeats
every 146097 days, which are 400 years.
-/

namespace Calendar

/-! ## Slots -/

/-- The slot that `n` falls into, where slot `i` goes from `start i` to `start (i + 1)`. -/
def slot (start : Nat → Nat) (bound n : Nat) : Nat := Nat.findGreatest (fun i => start i ≤ n) bound

section
variable (start : Nat → Nat) (bound : Nat) {n : Nat}

theorem slot_le (n : Nat) : slot start bound n ≤ bound := Nat.findGreatest_le bound

theorem start_slot_le (h : start 0 ≤ n) : start (slot start bound n) ≤ n :=
  Nat.findGreatest_spec (P := fun i => start i ≤ n) (Nat.zero_le bound) h

variable {start bound} in
theorem lt_start_slot (h : n < start (bound + 1)) : n < start (slot start bound n + 1) := by
  by_cases hslot : slot start bound n = bound
  · rw [hslot]
    exact h
  · have hle := slot_le start bound n
    have hnot : ¬ start (slot start bound n + 1) ≤ n :=
      Nat.findGreatest_is_greatest (P := fun i => start i ≤ n) (Nat.lt_succ_self _) (by omega)
    omega

end

/-! ## Years and months -/

def isLeap (y : Nat) : Bool := y % 4 == 0 && (y % 100 != 0 || y % 400 == 0)

def daysBeforeYear (y : Nat) : Nat := 365 * y + (y + 3) / 4 + (y + 399) / 400 - (y + 99) / 100

/-- The days before month `m` of a year, counted from 0. -/
def daysBeforeMonth (leap : Bool) (m : Nat) : Nat :=
  [0, 31, 59, 90, 120, 151, 181, 212, 243, 273, 304, 334, 365].getD m 365 + if leap && 2 ≤ m then 1 else 0

theorem div_succ {k : Nat} (hk : 0 < k) (y : Nat) :
    (y + 1 + (k - 1)) / k = (y + (k - 1)) / k + if y % k = 0 then 1 else 0 := by
  have hdiv : y = k * (y / k) + y % k := (Nat.div_add_mod y k).symm
  have hlt : y % k < k := Nat.mod_lt y hk
  generalize y / k = q at hdiv
  generalize y % k = r at hdiv hlt
  subst hdiv
  have hnext : k * q + r + 1 + (k - 1) = r + k * (q + 1) := by
    rw [Nat.mul_succ]
    omega
  rw [hnext, Nat.add_mul_div_left _ _ hk, Nat.div_eq_of_lt hlt]
  by_cases hr : r = 0
  · have hsame : k * q + r + (k - 1) = (k - 1) + k * q := by omega
    rw [hsame, Nat.add_mul_div_left _ _ hk, Nat.div_eq_of_lt (by omega), if_pos hr]
    omega
  · have hsame : k * q + r + (k - 1) = (r - 1) + k * (q + 1) := by
      rw [Nat.mul_succ]
      omega
    rw [hsame, Nat.add_mul_div_left _ _ hk, Nat.div_eq_of_lt (by omega), if_neg hr]
    omega

theorem daysBeforeYear_succ (y : Nat) :
    daysBeforeYear (y + 1) = daysBeforeYear y + daysBeforeMonth (isLeap y) 12 := by
  have hmonths : daysBeforeMonth (isLeap y) 12 = if isLeap y then 366 else 365 := by
    cases isLeap y <;> rfl
  have h₄ := div_succ (k := 4) (by decide) y
  have h₁₀₀ := div_succ (k := 100) (by decide) y
  have h₄₀₀ := div_succ (k := 400) (by decide) y
  have hless : (y + 99) / 100 ≤ (y + 3) / 4 := by omega
  have hyears : y % 400 = 0 → y % 100 = 0 := by omega
  have hcenturies : y % 100 = 0 → y % 4 = 0 := by omega
  rw [hmonths]
  unfold daysBeforeYear
  simp only [Nat.reduceSub] at h₄ h₁₀₀ h₄₀₀
  rw [h₄, h₁₀₀, h₄₀₀]
  generalize (y + 3) / 4 = a at *
  generalize (y + 99) / 100 = b at *
  generalize (y + 399) / 400 = c at *
  by_cases hy : y % 4 = 0
  · by_cases hcentury : y % 100 = 0
    · by_cases hfour : y % 400 = 0
      · simp [isLeap, hy, hcentury, hfour]
        omega
      · simp [isLeap, hy, hcentury, hfour]
        omega
    · have hfour : y % 400 ≠ 0 := fun h => hcentury (hyears h)
      simp [isLeap, hy, hcentury, hfour]
      omega
  · have hcentury : y % 100 ≠ 0 := fun h => hy (hcenturies h)
    have hfour : y % 400 ≠ 0 := fun h => hcentury (hyears h)
    simp [isLeap, hy, hcentury, hfour]
    omega

theorem daysBeforeYear_mono {y y' : Nat} (h : y ≤ y') : daysBeforeYear y ≤ daysBeforeYear y' := by
  induction y' with
  | zero =>
    obtain rfl : y = 0 := by omega
    exact Nat.le_refl _
  | succ y' ih =>
    by_cases hy : y = y' + 1
    · rw [hy]
    · have hle := ih (by omega)
      rw [daysBeforeYear_succ]
      omega

theorem daysBeforeMonth_mono (leap : Bool) {m m' : Nat} (h : m ≤ m') (hm' : m' ≤ 12) :
    daysBeforeMonth leap m ≤ daysBeforeMonth leap m' := by
  have hall : ∀ leap, ∀ m' < 13, ∀ m < m' + 1, daysBeforeMonth leap m ≤ daysBeforeMonth leap m' := by decide
  exact hall leap m' (by omega) m (by omega)

/-! ## Dates -/

structure Date where
  year : Int
  month : Nat
  day : Nat
  deriving DecidableEq

def Date.ofDays (n : Int) : Date :=
  let inCycle := (n % 146097).toNat
  let y := slot daysBeforeYear (inCycle / 365) inCycle
  let inYear := inCycle - daysBeforeYear y
  let m := slot (daysBeforeMonth (isLeap y)) 11 inYear
  ⟨400 * (n / 146097) + y, m + 1, inYear - daysBeforeMonth (isLeap y) m + 1⟩

/-- The number of a day, whose month may lie outside the year. -/
def toDays (year month day : Int) : Int :=
  let year := year + (month - 1) / 12
  146097 * (year / 400) + daysBeforeYear (year % 400).toNat +
    daysBeforeMonth (isLeap (year % 400).toNat) ((month - 1) % 12).toNat + (day - 1)

/-- `date` is the day of the cycle `c`, the year `y` in it, the month `m` and the day `d` counted from 0. -/
structure Date.Is (n : Int) (c : Int) (y m d : Nat) : Prop where
  date : Date.ofDays n = ⟨400 * c + y, m + 1, d + 1⟩
  year : y < 400
  month : m < 12
  number : n = 146097 * c + daysBeforeYear y + daysBeforeMonth (isLeap y) m + d
  inMonth : daysBeforeMonth (isLeap y) m + d < daysBeforeMonth (isLeap y) (m + 1)
  inYear : daysBeforeYear y + daysBeforeMonth (isLeap y) m + d < daysBeforeYear (y + 1)

theorem Date.exists_is (n : Int) : ∃ c y m d, Date.Is n c y m d := by
  obtain ⟨k, hk⟩ := Int.eq_ofNat_of_zero_le (Int.emod_nonneg n (by decide : (146097 : Int) ≠ 0))
  have hk' : k < 146097 := by omega
  have hn : n = 146097 * (n / 146097) + k := by omega
  have hcycle : daysBeforeYear 400 = 146097 := by decide
  have hbound : k < daysBeforeYear (k / 365 + 1) := by
    unfold daysBeforeYear
    omega
  have hyear : daysBeforeYear (slot daysBeforeYear (k / 365) k) ≤ k :=
    start_slot_le _ _ (by simp [daysBeforeYear])
  have hyear' := lt_start_slot hbound
  generalize hy : slot daysBeforeYear (k / 365) k = y at hyear hyear'
  have hy400 : y < 400 := by
    by_contra hge
    have := daysBeforeYear_mono (by omega : 400 ≤ y)
    omega
  have hlength : k - daysBeforeYear y < daysBeforeMonth (isLeap y) 12 := by
    rw [daysBeforeYear_succ] at hyear'
    omega
  have hmonth := start_slot_le (daysBeforeMonth (isLeap y)) 11
    (by cases isLeap y <;> exact Nat.zero_le (k - daysBeforeYear y))
  have hmonth' := lt_start_slot hlength
  have hm := slot_le (daysBeforeMonth (isLeap y)) 11 (k - daysBeforeYear y)
  generalize hmdef : slot (daysBeforeMonth (isLeap y)) 11 (k - daysBeforeYear y) = m at hmonth hmonth' hm
  refine ⟨n / 146097, y, m, k - daysBeforeYear y - daysBeforeMonth (isLeap y) m, ?_, hy400, by omega, ?_, ?_, ?_⟩
  · simp only [Date.ofDays, hk, Int.toNat_natCast, hy, hmdef]
  · omega
  · omega
  · omega

theorem toDays_ofDays (n : Int) :
    toDays (Date.ofDays n).year (Date.ofDays n).month (Date.ofDays n).day = n := by
  obtain ⟨c, y, m, d, h⟩ := Date.exists_is n
  have hmonth := h.month
  have hyear := h.year
  have hm : ((m + 1 : Nat) : Int) - 1 = m := by omega
  have hm₀ : (m : Int) / 12 = 0 := by omega
  have hm₁ : (m : Int) % 12 = m := by omega
  have hc : (400 * c + (y : Int)) / 400 = c := by omega
  have hy : (400 * c + (y : Int)) % 400 = y := by omega
  simp only [h.date, toDays, hm, hm₀, hm₁, Int.add_zero, hc, hy, Int.toNat_natCast]
  have hn := h.number
  omega

/-! ## The order of dates -/

def Date.Before (a b : Date) : Prop :=
  a.year < b.year ∨ a.year = b.year ∧ (a.month < b.month ∨ a.month = b.month ∧ a.day < b.day)

theorem lt_of_before {n n' : Int} (h : (Date.ofDays n).Before (Date.ofDays n')) : n < n' := by
  obtain ⟨c, y, m, d, hd⟩ := Date.exists_is n
  obtain ⟨c', y', m', d', hd'⟩ := Date.exists_is n'
  have hn := hd.number
  have hn' := hd'.number
  have hyear := hd.year
  have hyear' := hd'.year
  have hin := hd.inYear
  have hlast := daysBeforeYear_mono (by omega : y + 1 ≤ 400)
  have hcycle : daysBeforeYear 400 = 146097 := by decide
  rw [Date.Before, hd.date, hd'.date] at h
  simp only at h
  rcases h with hlt | ⟨heq, hrest⟩
  · by_cases hc : c < c'
    · omega
    · have hle := daysBeforeYear_mono (by omega : y + 1 ≤ y')
      omega
  · obtain rfl : c = c' := by omega
    obtain rfl : y = y' := by omega
    have hmonth := hd.inMonth
    rcases hrest with hm | ⟨hm, hday⟩
    · have hle := daysBeforeMonth_mono (isLeap y) (by omega : m + 1 ≤ m') (by have := hd'.month; omega)
      omega
    · obtain rfl : m = m' := by omega
      omega

theorem lt_iff_before {n n' : Int} : n < n' ↔ (Date.ofDays n).Before (Date.ofDays n') := by
  constructor
  · intro h
    by_contra hnot
    have hsame : ¬ (Date.ofDays n').Before (Date.ofDays n) := fun hb => by
      have := lt_of_before hb
      omega
    have hdates : Date.ofDays n = Date.ofDays n' := by
      unfold Date.Before at hnot hsame
      generalize Date.ofDays n = a at *
      generalize Date.ofDays n' = b at *
      cases a
      cases b
      simp only [Date.mk.injEq] at *
      omega
    have hnum := toDays_ofDays n
    rw [hdates, toDays_ofDays] at hnum
    omega
  · exact lt_of_before

theorem Date.bounds (n : Int) : 1 ≤ (Date.ofDays n).month ∧ (Date.ofDays n).month ≤ 12 ∧
    1 ≤ (Date.ofDays n).day ∧ (Date.ofDays n).day ≤ 31 := by
  obtain ⟨c, y, m, d, h⟩ := Date.exists_is n
  have hall : ∀ leap, ∀ m < 12, daysBeforeMonth leap (m + 1) ≤ daysBeforeMonth leap m + 31 := by decide
  have hle := hall (isLeap y) m h.month
  have hin := h.inMonth
  have hm := h.month
  rw [h.date]
  simp only
  omega

example : Date.ofDays 719528 = ⟨1970, 1, 1⟩ := by decide

/-! ## The first day of a month -/

def Date.MonthBefore (a b : Date) : Prop := a.year < b.year ∨ a.year = b.year ∧ a.month < b.month

instance (a b : Date) : Decidable (a.MonthBefore b) :=
  inferInstanceAs (Decidable (a.year < b.year ∨ a.year = b.year ∧ a.month < b.month))

theorem Date.Is.first {n c : Int} {y m d : Nat} (h : Date.Is n c y m d) :
    Date.ofDays (n - d) = ⟨400 * c + y, m + 1, 1⟩ := by
  obtain ⟨c', y', m', d', h'⟩ := Date.exists_is (n - d)
  have hn := h.number
  have hn' := h'.number
  have hin := h.inYear
  have hin' := h'.inYear
  have hyear := h.year
  have hyear' := h'.year
  have hlast := daysBeforeYear_mono (by omega : y + 1 ≤ 400)
  have hlast' := daysBeforeYear_mono (by omega : y' + 1 ≤ 400)
  have hcycle : daysBeforeYear 400 = 146097 := by decide
  obtain rfl : c' = c := by omega
  obtain rfl : y' = y := by
    by_contra hne
    rcases Nat.lt_or_gt_of_ne hne with hlt | hlt
    · have := daysBeforeYear_mono (by omega : y' + 1 ≤ y)
      omega
    · have := daysBeforeYear_mono (by omega : y + 1 ≤ y')
      omega
  have hmonth := h.month
  have hmonth' := h'.month
  have hinMonth := h.inMonth
  have hinMonth' := h'.inMonth
  obtain rfl : m' = m := by
    by_contra hne
    rcases Nat.lt_or_gt_of_ne hne with hlt | hlt
    · have := daysBeforeMonth_mono (isLeap y') (by omega : m' + 1 ≤ m) (by omega)
      omega
    · have := daysBeforeMonth_mono (isLeap y') (by omega : m + 1 ≤ m') (by omega)
      omega
  obtain rfl : d' = 0 := by omega
  exact h'.date

theorem ofDays_first (n : Int) :
    Date.ofDays (toDays (Date.ofDays n).year (Date.ofDays n).month 1) =
      ⟨(Date.ofDays n).year, (Date.ofDays n).month, 1⟩ := by
  obtain ⟨c, y, m, d, h⟩ := Date.exists_is n
  have hnumber := toDays_ofDays n
  have hfirst : toDays (Date.ofDays n).year (Date.ofDays n).month 1 = n - d := by
    rw [h.date] at hnumber ⊢
    unfold toDays at hnumber ⊢
    simp only at hnumber ⊢
    omega
  rw [hfirst, h.first, h.date]

/-- The days from the first of a month on are those of that month and of later ones. -/
theorem first_le_iff (n n' : Int) :
    toDays (Date.ofDays n).year (Date.ofDays n).month 1 ≤ n' ↔ ¬ (Date.ofDays n').MonthBefore (Date.ofDays n) := by
  have hdate := ofDays_first n
  have hbounds := Date.bounds n'
  have hlt : n' < toDays (Date.ofDays n).year (Date.ofDays n).month 1 ↔
      (Date.ofDays n').Before (Date.ofDays (toDays (Date.ofDays n).year (Date.ofDays n).month 1)) := lt_iff_before
  rw [hdate] at hlt
  rw [← Int.not_lt, hlt]
  unfold Date.Before Date.MonthBefore
  simp only
  omega

/-! ## Months by the clocks of a place -/

section
variable (day epoch : Int) (ahead : Int → Int)

/-- The date that clocks show at `t` where they are `ahead t` ahead of UTC. -/
def dateAt (t : Int) : Date := Date.ofDays ((t + ahead t) / day + epoch)

/-- Midnight of the first of that month, read as if it were of UTC. -/
def midnightOf (t : Int) : Int := (toDays (dateAt day epoch ahead t).year (dateAt day epoch ahead t).month 1 - epoch) * day

/-- The moment of that midnight. What clocks are ahead is looked up where a first look-up
puts the midnight. -/
def monthStart (t : Int) : Int :=
  midnightOf day epoch ahead t - ahead (midnightOf day epoch ahead t - ahead (midnightOf day epoch ahead t))

/-- Clocks are never a day from UTC, and nobody changes them within two days of the
beginning of the month. -/
structure Settled (t : Int) : Prop where
  near : ∀ u, -day < ahead u ∧ ahead u < day
  steady : ∀ u, midnightOf day epoch ahead t - 2 * day ≤ u → u ≤ midnightOf day epoch ahead t + 2 * day →
    ahead u = ahead (midnightOf day epoch ahead t)

variable {day epoch ahead} {t : Int}

theorem not_monthBefore_iff (hday : 0 < day) (u : Int) :
    ¬ (dateAt day epoch ahead u).MonthBefore (dateAt day epoch ahead t) ↔ midnightOf day epoch ahead t ≤ u + ahead u := by
  rw [midnightOf, ← Int.le_ediv_iff_mul_le hday, dateAt, dateAt, ← first_le_iff]
  generalize toDays _ _ 1 = first
  omega

theorem monthStart_le_iff (hday : 0 < day) (h : Settled day epoch ahead t) (u : Int) :
    monthStart day epoch ahead t ≤ u ↔ ¬ (dateAt day epoch ahead u).MonthBefore (dateAt day epoch ahead t) := by
  rw [not_monthBefore_iff hday, monthStart]
  have hsteady := h.steady
  generalize midnightOf day epoch ahead t = midnight at hsteady
  have hmidnight := h.near midnight
  have hu := h.near u
  rw [hsteady (midnight - ahead midnight) (by omega) (by omega)]
  by_cases hclose : midnight - 2 * day ≤ u ∧ u ≤ midnight + 2 * day
  · rw [hsteady u hclose.1 hclose.2]
    omega
  · omega

end

end Calendar
