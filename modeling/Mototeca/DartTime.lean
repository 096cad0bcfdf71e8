import Mathlib.Algebra.Group.Nat.Defs
import Mototeca.Calendar
import Mototeca.Dart

/-!
# DateTime

`DateTime.toIso8601String` and `DateTime.tryParse` of the Dart SDK on a device
whose time zone is a fixed offset from UTC. The texts of local times sort as
the times do, although their microseconds are left out when they are zero.
-/

namespace Mototeca.Mobile

open Calendar

/-! ## Digits -/

/-- The last `w` digits of `n`, with zeros in front. -/
def digits : Nat → Nat → List Char
  | 0, _ => []
  | w + 1, n => digits w (n / 10) ++ [(n % 10).digitChar]

def takeDigits (w : Nat) (text : List Char) : Option (Nat × List Char) :=
  if (text.take w).length == w && (text.take w).all Char.isDigit then
    some (Nat.ofDigitChars 10 (text.take w) 0, text.drop w)
  else none

/-! ## toIso8601String -/

/-- The microseconds of a day. -/
def dayLength : Int := 86400000000

/-- The number of 1970-01-01. -/
def epoch : Int := 719528

def yearText (year : Int) : List Char :=
  if -9999 ≤ year ∧ year ≤ 9999 then (if year < 0 then ['-'] else []) ++ digits 4 year.natAbs
  else (if year < 0 then '-' else '+') :: digits 6 year.natAbs

def clockText (micros : Nat) : List Char :=
  digits 2 (micros / 3600000000) ++ ':' :: (digits 2 (micros / 60000000 % 60) ++ ':' ::
    (digits 2 (micros / 1000000 % 60) ++ '.' :: (digits 3 (micros / 1000 % 1000) ++
      if micros % 1000 = 0 then [] else digits 3 (micros % 1000))))

section
variable (offset : Int)

/-- The microseconds that the fields of `t` show, counted from the epoch. -/
def shown (t : DateTime) : Int := if t.isUtc then t.microsecondsSinceEpoch else t.microsecondsSinceEpoch + offset

def dateOf (t : DateTime) : Date := Date.ofDays (shown offset t / dayLength + epoch)

def clockOf (t : DateTime) : Nat := (shown offset t % dayLength).toNat

def isoText (t : DateTime) : List Char :=
  yearText (dateOf offset t).year ++ '-' :: (digits 2 (dateOf offset t).month ++ '-' ::
    (digits 2 (dateOf offset t).day ++ 'T' :: (clockText (clockOf offset t) ++ if t.isUtc then ['Z'] else [])))

def DateTime.toIso8601String (t : DateTime) : String := String.ofList (isoText offset t)

end

/-! ## tryParse -/

def skip (c : Char) : List Char → List Char
  | [] => []
  | d :: text => if d == c then text else d :: text

/-- The microseconds of a clock time. A fraction counts up to its sixth digit. -/
def parseFraction (text : List Char) : Int × List Char :=
  match text with
  | c :: fraction =>
    let taken := fraction.takeWhile Char.isDigit
    if (c == '.' || c == ',') && taken != [] then
      (Nat.ofDigitChars 10 ((taken ++ List.replicate 6 '0').take 6) 0, fraction.dropWhile Char.isDigit)
    else (0, text)
  | [] => (0, [])

def parseClock (text : List Char) : Option (Int × List Char) :=
  (takeDigits 2 text).map fun (hour, text) =>
    match takeDigits 2 (skip ':' text) with
    | none => (3600000000 * hour, text)
    | some (minute, text) =>
      match takeDigits 2 (skip ':' text) with
      | none => (3600000000 * hour + 60000000 * minute, text)
      | some (second, text) =>
        let (fraction, text) := parseFraction text
        (3600000000 * hour + 60000000 * minute + 1000000 * second + fraction, text)

/-- Whether a zone is given, and how many minutes it is ahead of UTC. -/
def parseZone (text : List Char) : Option (Bool × Int) :=
  if text == [] then some (false, 0)
  else
    match skip ' ' text with
    | ['Z'] | ['z'] => some (true, 0)
    | sign :: zone =>
      if sign == '+' || sign == '-' then
        match takeDigits 2 zone with
        | none => none
        | some (hours, rest) =>
          let ahead : Int := if sign == '-' then -1 else 1
          if rest == [] then some (true, ahead * (60 * hours))
          else
            match takeDigits 2 (skip ':' rest) with
            | some (minutes, []) => some (true, ahead * (60 * hours + minutes))
            | _ => none
      else none
    | [] => none

def parseDate (w : Nat) (text : List Char) : Option ((Nat × Nat × Nat) × List Char) := do
  let (year, text) ← takeDigits w text
  let (month, text) ← takeDigits 2 (skip '-' text)
  let (day, text) ← takeDigits 2 (skip '-' text)
  return ((year, month, day), text)

def maxMicroseconds : Int := 8640000000000000000

/-- `year` has `w` digits; the regular expression tries six, five and four. -/
def parseWidth (offset sign : Int) (text : List Char) (w : Nat) : Option (Option DateTime) := do
  let ((year, month, day), text) ← parseDate w text
  let (clock, zone) ←
    match text with
    | [] => some (0, [])
    | c :: text => if c == ' ' || c == 'T' then parseClock text else none
  let (isUtc, ahead) ← parseZone zone
  let micros := (toDays (sign * year) month day - epoch) * dayLength + clock -
    if isUtc then 60000000 * ahead else offset
  return if -maxMicroseconds ≤ micros ∧ micros ≤ maxMicroseconds then some ⟨micros, isUtc⟩ else none

def DateTime.tryParse (offset : Int) (text : String) : Option DateTime :=
  let (sign, text) : Int × List Char :=
    match text.toList with
    | '+' :: text => (1, text)
    | '-' :: text => (-1, text)
    | text => (1, text)
  ([6, 5, 4].findSome? (parseWidth offset sign text)).join

/-! ## Digits read back -/

@[simp] theorem length_digits (w n : Nat) : (digits w n).length = w := by
  induction w generalizing n with
  | zero => rfl
  | succ w ih => rw [digits, List.length_append, ih, List.length_singleton]

theorem digits_isDigit (w n : Nat) : ∀ c ∈ digits w n, c.isDigit = true := by
  induction w generalizing n with
  | zero => simp [digits]
  | succ w ih =>
    intro c hc
    rcases List.mem_append.mp hc with hc | hc
    · exact ih _ c hc
    · rw [List.mem_singleton.mp hc, Nat.isDigit_digitChar, decide_eq_true_iff]
      exact Nat.mod_lt n (by decide)

theorem ofDigitChars_digits {w n : Nat} (h : n < 10 ^ w) : Nat.ofDigitChars 10 (digits w n) 0 = n := by
  induction w generalizing n with
  | zero =>
    rw [Nat.pow_zero] at h
    obtain rfl : n = 0 := by omega
    rfl
  | succ w ih =>
    rw [Nat.pow_succ] at h
    rw [digits, Nat.ofDigitChars_append, ih (by omega),
      Nat.ofDigitChars_cons_digitChar_of_lt_ten (Nat.mod_lt n (by decide)), Nat.ofDigitChars_nil]
    omega

theorem takeDigits_digits {w n : Nat} (h : n < 10 ^ w) (rest : List Char) :
    takeDigits w (digits w n ++ rest) = some (n, rest) := by
  have htake : (digits w n ++ rest).take w = digits w n := by
    rw [List.take_append_of_le_length (by simp), List.take_of_length_le (by simp)]
  have hdrop : (digits w n ++ rest).drop w = rest := by
    rw [List.drop_append_of_le_length (by simp), List.drop_of_length_le (by simp), List.nil_append]
  have hall : (digits w n).all Char.isDigit = true := List.all_eq_true.mpr (digits_isDigit w n)
  simp [takeDigits, htake, hdrop, hall, ofDigitChars_digits h]

/-- Fewer digits than asked for, and then something else. -/
theorem takeDigits_short {w k n : Nat} {c : Char} (h : k < w) (hc : c.isDigit = false) (rest : List Char) :
    takeDigits w (digits k n ++ c :: rest) = none := by
  have hmem : c ∈ (digits k n ++ c :: rest).take w := by
    obtain ⟨j, rfl⟩ : ∃ j, w = k + (j + 1) := ⟨w - k - 1, by omega⟩
    rw [List.take_append, length_digits, Nat.add_sub_cancel_left, List.take_succ_cons]
    simp
  have hall : ((digits k n ++ c :: rest).take w).all Char.isDigit = false := by
    rw [List.all_eq_false]
    exact ⟨c, hmem, by simp [hc]⟩
  simp [takeDigits, hall]

/-! ## The order of digits -/

theorem digitChar_lt_iff {a b : Nat} (ha : a < 10) (hb : b < 10) : a.digitChar < b.digitChar ↔ a < b := by
  have hall : ∀ a < 10, ∀ b < 10, a.digitChar < b.digitChar ↔ a < b := by decide
  exact hall a ha b hb

theorem digitChar_inj {a b : Nat} (ha : a < 10) (hb : b < 10) : a.digitChar = b.digitChar ↔ a = b := by
  have hall : ∀ a < 10, ∀ b < 10, a.digitChar = b.digitChar ↔ a = b := by decide
  exact hall a ha b hb

theorem digits_lt_iff {w n m : Nat} (hn : n < 10 ^ w) (hm : m < 10 ^ w) (u v : List Char) :
    digits w n ++ u < digits w m ++ v ↔ n < m ∨ n = m ∧ u < v := by
  induction w generalizing n m u v with
  | zero =>
    rw [Nat.pow_zero] at hn hm
    obtain rfl : n = 0 := by omega
    obtain rfl : m = 0 := by omega
    simp [digits]
  | succ w ih =>
    rw [Nat.pow_succ] at hn hm
    have hn₁ : n % 10 < 10 := Nat.mod_lt n (by decide)
    have hm₁ : m % 10 < 10 := Nat.mod_lt m (by decide)
    rw [digits, digits, List.append_assoc, List.append_assoc, ih (by omega) (by omega), List.singleton_append,
      List.singleton_append, List.cons_lt_cons_iff, digitChar_lt_iff hn₁ hm₁, digitChar_inj hn₁ hm₁]
    by_cases hdiv : n / 10 = m / 10
    · by_cases hmod : n % 10 = m % 10
      · obtain rfl : n = m := by omega
        simp
      · have hne : n ≠ m := by
          rintro rfl
          exact hmod rfl
        simp only [hdiv, hmod, hne, false_and, or_false, true_and, Nat.lt_irrefl, false_or]
        omega
    · have hne : n ≠ m := by
        rintro rfl
        exact hdiv rfl
      simp only [hdiv, hne, false_and, or_false]
      omega

theorem cons_lt_cons (c : Char) (u v : List Char) : c :: u < c :: v ↔ u < v := by
  rw [List.cons_lt_cons_iff]
  simp

/-- No microseconds come before any: the shorter text is a prefix of the longer. -/
theorem microsText_lt_iff {n m : Nat} (hn : n < 1000) (hm : m < 1000) :
    (if n = 0 then [] else digits 3 n) < (if m = 0 then [] else digits 3 m) ↔ n < m := by
  have hlt := digits_lt_iff (w := 3) hn hm [] []
  rw [List.append_nil, List.append_nil] at hlt
  by_cases hn₀ : n = 0
  · by_cases hm₀ : m = 0
    · simp [hn₀, hm₀]
    · simp [hn₀, hm₀, digits]
      omega
  · by_cases hm₀ : m = 0
    · simp [hn₀, hm₀]
    · rw [if_neg hn₀, if_neg hm₀, hlt]
      simp

theorem lt_of_div_lt {k a b : Nat} (h : a / k < b / k) : a < b := by
  by_contra hle
  exact absurd (Nat.div_le_div_right (c := k) (Nat.le_of_not_lt hle)) (Nat.not_le_of_lt h)

/-- Comparing quotients and then remainders is comparing the numbers. -/
theorem div_mod_lex (k a b : Nat) (p : Prop) :
    (a / k < b / k ∨ a / k = b / k ∧ (a % k < b % k ∨ a % k = b % k ∧ p)) ↔ a < b ∨ a = b ∧ p := by
  have ha := Nat.div_add_mod a k
  have hb := Nat.div_add_mod b k
  by_cases hdiv : a / k = b / k
  · rw [hdiv] at ha
    generalize k * (b / k) = c at ha hb
    simp only [hdiv, Nat.lt_irrefl, false_or, true_and]
    have hlt : a % k < b % k ↔ a < b := by omega
    have heq : a % k = b % k ↔ a = b := by omega
    rw [hlt, heq]
  · have hne : a ≠ b := by
      rintro rfl
      exact hdiv rfl
    simp only [hdiv, hne, false_and, or_false]
    constructor
    · exact lt_of_div_lt
    · intro h
      have hle := Nat.div_le_div_right (c := k) (Nat.le_of_lt h)
      omega

theorem clockText_lt_iff {a b : Nat} (ha : a < 86400000000) (hb : b < 86400000000) :
    clockText a < clockText b ↔ a < b := by
  have hhour : ∀ n : Nat, n / 3600000000 = n / 60000000 / 60 := fun n => (Nat.div_div_eq_div_mul n 60000000 60).symm
  have hminute : ∀ n : Nat, n / 60000000 = n / 1000000 / 60 := fun n => (Nat.div_div_eq_div_mul n 1000000 60).symm
  have hsecond : ∀ n : Nat, n / 1000000 = n / 1000 / 1000 := fun n => (Nat.div_div_eq_div_mul n 1000 1000).symm
  have hhours : ∀ n : Nat, n < 86400000000 → n / 3600000000 < 10 ^ 2 := fun n hn =>
    Nat.lt_trans (Nat.div_lt_of_lt_mul (by omega : n < 3600000000 * 24)) (by decide)
  have hsixty : ∀ n : Nat, n % 60 < 10 ^ 2 := fun n => Nat.lt_trans (Nat.mod_lt n (by decide)) (by decide)
  have hthousand : ∀ n : Nat, n % 1000 < 10 ^ 3 := fun n => Nat.mod_lt n (by decide)
  unfold clockText
  rw [digits_lt_iff (hhours a ha) (hhours b hb), cons_lt_cons, digits_lt_iff (hsixty _) (hsixty _), cons_lt_cons,
    digits_lt_iff (hsixty _) (hsixty _), cons_lt_cons, digits_lt_iff (hthousand _) (hthousand _),
    microsText_lt_iff (hthousand _) (hthousand _), hhour, hhour, div_mod_lex, hminute, hminute, div_mod_lex,
    hsecond, hsecond, div_mod_lex]
  have hlast := div_mod_lex 1000 a b False
  simpa using hlast

/-! ## The order of local times -/

/-- A `DateTime` whose year has four digits, on a device at `offset`. -/
structure FourDigitYear (offset : Int) (t : DateTime) : Prop where
  least : 0 ≤ (dateOf offset t).year
  most : (dateOf offset t).year ≤ 9999
  range : -maxMicroseconds ≤ t.microsecondsSinceEpoch ∧ t.microsecondsSinceEpoch ≤ maxMicroseconds

section
variable {offset : Int} {t t' : DateTime}

theorem yearText_eq (h : FourDigitYear offset t) :
    yearText (dateOf offset t).year = digits 4 (dateOf offset t).year.natAbs := by
  have hleast := h.least
  have hmost := h.most
  rw [yearText, if_pos (by omega), if_neg (by omega), List.nil_append]

theorem clockOf_lt (offset : Int) (t : DateTime) : clockOf offset t < 86400000000 := by
  unfold clockOf dayLength
  omega

theorem shown_eq (offset : Int) (t : DateTime) :
    shown offset t = shown offset t / dayLength * dayLength + clockOf offset t := by
  unfold clockOf dayLength
  omega

theorem date_lt (offset : Int) (t : DateTime) : (dateOf offset t).month < 10 ^ 2 ∧ (dateOf offset t).day < 10 ^ 2 := by
  have hbounds := Date.bounds (shown offset t / dayLength + epoch)
  have hpow : (10 : Nat) ^ 2 = 100 := rfl
  unfold dateOf
  omega

/-- The text of one local time is before that of another when its instant is. -/
theorem toIso8601String_lt_iff (h : FourDigitYear offset t) (h' : FourDigitYear offset t') (hlocal : t.isUtc = false)
    (hlocal' : t'.isUtc = false) :
    t.toIso8601String offset < t'.toIso8601String offset ↔ t.microsecondsSinceEpoch < t'.microsecondsSinceEpoch := by
  have hyear : ∀ {t}, FourDigitYear offset t → (dateOf offset t).year.natAbs < 10 ^ 4 := by
    intro t h
    have hleast := h.least
    have hmost := h.most
    have hpow : (10 : Nat) ^ 4 = 10000 := rfl
    omega
  have hclock := clockText_lt_iff (clockOf_lt offset t) (clockOf_lt offset t')
  have hdays : ∀ t t', shown offset t / dayLength + epoch < shown offset t' / dayLength + epoch ↔
      (dateOf offset t).Before (dateOf offset t') := fun t t' => lt_iff_before
  have hshown : t.microsecondsSinceEpoch < t'.microsecondsSinceEpoch ↔ shown offset t < shown offset t' := by
    simp [shown, hlocal, hlocal']
  have hmonth := date_lt offset t
  have hmonth' := date_lt offset t'
  rw [String.lt_iff, DateTime.toIso8601String, DateTime.toIso8601String, String.toList_ofList, String.toList_ofList, isoText, isoText,
    yearText_eq h, yearText_eq h', digits_lt_iff (hyear h) (hyear h'), cons_lt_cons,
    digits_lt_iff hmonth.1 hmonth'.1, cons_lt_cons, digits_lt_iff hmonth.2 hmonth'.2, cons_lt_cons]
  simp only [hlocal, hlocal', Bool.false_eq_true, ite_false, List.append_nil, hclock, hshown]
  have hleast := h.least
  have hleast' := h'.least
  have hlt := clockOf_lt offset t
  have hlt' := clockOf_lt offset t'
  have heq := shown_eq offset t
  have heq' := shown_eq offset t'
  unfold dayLength at heq heq'
  rcases Int.lt_trichotomy (shown offset t / dayLength) (shown offset t' / dayLength) with hd | hd | hd
  · have hbefore := (hdays t t').mp (by omega)
    unfold Date.Before at hbefore
    unfold dayLength at hd
    omega
  · have hdate : dateOf offset t = dateOf offset t' := by rw [dateOf, hd, ← dateOf]
    unfold dayLength at hd
    rw [hdate]
    omega
  · have hbefore := (hdays t' t).mp (by omega)
    unfold Date.Before at hbefore
    unfold dayLength at hd
    omega

end

/-! ## What was printed is read back -/

theorem parseDate_iso {y m d : Nat} (hy : y < 10 ^ 4) (hm : m < 10 ^ 2) (hd : d < 10 ^ 2) (rest : List Char) :
    parseDate 4 (digits 4 y ++ '-' :: (digits 2 m ++ '-' :: (digits 2 d ++ rest))) = some ((y, m, d), rest) := by
  simp [parseDate, takeDigits_digits hy, takeDigits_digits hm, takeDigits_digits hd, skip]

theorem parseDate_wide {w : Nat} (hw : 4 < w) (y : Nat) (rest : List Char) :
    parseDate w (digits 4 y ++ '-' :: rest) = none := by
  simp [parseDate, takeDigits_short hw]

/-- The digits of `digits 3` and perhaps three more, filled up to six. -/
theorem take_six {a b : Nat} (ha : a < 10 ^ 3) (hb : b < 10 ^ 3) :
    Nat.ofDigitChars 10 (((digits 3 a ++ if b = 0 then [] else digits 3 b) ++ List.replicate 6 '0').take 6) 0 =
      1000 * a + b := by
  by_cases hb₀ : b = 0
  · have htake : ((digits 3 a ++ []) ++ List.replicate 6 '0').take 6 = digits 3 a ++ List.replicate 3 '0' := by
      rw [List.append_nil, List.take_append, length_digits, List.take_of_length_le (by simp)]
      rfl
    rw [if_pos hb₀, htake, Nat.ofDigitChars_append, Nat.ofDigitChars_replicate_zero, ofDigitChars_digits ha]
    omega
  · have htake : ((digits 3 a ++ digits 3 b) ++ List.replicate 6 '0').take 6 = digits 3 a ++ digits 3 b := by
      rw [List.take_append_of_le_length (by simp), List.take_of_length_le (by simp)]
    rw [if_neg hb₀, htake, Nat.ofDigitChars_append, Nat.ofDigitChars_eq_ofDigitChars_zero, ofDigitChars_digits ha,
      ofDigitChars_digits hb, length_digits]

theorem parseFraction_text {a b : Nat} (ha : a < 10 ^ 3) (hb : b < 10 ^ 3) {rest : List Char}
    (hrest : ∀ c, rest.head? = some c → c.isDigit = false) :
    parseFraction ('.' :: (digits 3 a ++ ((if b = 0 then [] else digits 3 b) ++ rest))) =
      (((1000 * a + b : Nat) : Int), rest) := by
  have hall : ∀ c ∈ digits 3 a ++ (if b = 0 then [] else digits 3 b), c.isDigit = true := by
    intro c hc
    rcases List.mem_append.mp hc with hc | hc
    · exact digits_isDigit 3 a c hc
    · split at hc
      · cases hc
      · exact digits_isDigit 3 b c hc
  have hspan : rest.takeWhile Char.isDigit = [] ∧ rest.dropWhile Char.isDigit = rest := by
    cases rest with
    | nil => exact ⟨rfl, rfl⟩
    | cons c rest => simp [hrest c rfl]
  have htake : (digits 3 a ++ ((if b = 0 then [] else digits 3 b) ++ rest)).takeWhile Char.isDigit =
      digits 3 a ++ (if b = 0 then [] else digits 3 b) := by
    rw [← List.append_assoc, List.takeWhile_append_of_pos hall, hspan.1, List.append_nil]
  have hdrop : (digits 3 a ++ ((if b = 0 then [] else digits 3 b) ++ rest)).dropWhile Char.isDigit = rest := by
    rw [← List.append_assoc, List.dropWhile_append_of_pos hall, hspan.2]
  have hne : digits 3 a ++ (if b = 0 then [] else digits 3 b) ≠ [] := by
    simp [digits]
  unfold parseFraction
  simp only [htake, hdrop, take_six ha hb]
  simp [hne]

theorem parseClock_clockText {n : Nat} (hn : n < 86400000000) {rest : List Char}
    (hrest : ∀ c, rest.head? = some c → c.isDigit = false) :
    parseClock (clockText n ++ rest) = some ((n : Int), rest) := by
  have hhour : n / 3600000000 < 10 ^ 2 :=
    Nat.lt_trans (Nat.div_lt_of_lt_mul (by omega : n < 3600000000 * 24)) (by decide)
  have hsixty : ∀ n : Nat, n % 60 < 10 ^ 2 := fun n => Nat.lt_trans (Nat.mod_lt n (by decide)) (by decide)
  have hthousand : ∀ n : Nat, n % 1000 < 10 ^ 3 := fun n => Nat.mod_lt n (by decide)
  have hfraction := parseFraction_text (hthousand (n / 1000)) (hthousand n) hrest
  have hskip : ∀ text, skip ':' (':' :: text) = text := fun _ => rfl
  simp only [parseClock, clockText, List.append_assoc, List.cons_append, takeDigits_digits hhour,
    takeDigits_digits (hsixty _), hskip, Option.map_some, hfraction]
  have hsum : 3600000000 * (n / 3600000000) + 60000000 * (n / 60000000 % 60) + 1000000 * (n / 1000000 % 60) +
      (1000 * (n / 1000 % 1000) + n % 1000) = n := by
    have h₁ := Nat.div_add_mod n 1000
    have h₂ := Nat.div_add_mod (n / 1000) 1000
    have h₃ := Nat.div_add_mod (n / 1000 / 1000) 60
    have h₄ := Nat.div_add_mod (n / 1000 / 1000 / 60) 60
    simp only [Nat.div_div_eq_div_mul, Nat.reduceMul] at h₁ h₂ h₃ h₄
    omega
  generalize n / 3600000000 = hours at hsum
  generalize n / 60000000 % 60 = minutes at hsum
  generalize n / 1000000 % 60 = seconds at hsum
  generalize 1000 * (n / 1000 % 1000) + n % 1000 = micros at hsum
  refine congrArg (fun micros : Int => some (micros, rest)) ?_
  omega

theorem parseZone_utc (isUtc : Bool) : parseZone (if isUtc then ['Z'] else []) = some (isUtc, 0) := by
  cases isUtc <;> rfl

theorem shown_back (offset : Int) (t : DateTime) :
    shown offset t - (if t.isUtc then 0 else offset) = t.microsecondsSinceEpoch := by
  unfold shown
  cases t.isUtc <;> simp

section
variable {offset : Int} {t : DateTime}

theorem isoText_eq (h : FourDigitYear offset t) :
    isoText offset t = digits 4 (dateOf offset t).year.natAbs ++ '-' ::
      (digits 2 (dateOf offset t).month ++ '-' :: (digits 2 (dateOf offset t).day ++ 'T' ::
        (clockText (clockOf offset t) ++ if t.isUtc then ['Z'] else []))) := by
  rw [isoText, yearText_eq h]

/-- No sign comes before a year of four digits. -/
theorem isoText_head (h : FourDigitYear offset t) {c : Char} {text : List Char} (hc : isoText offset t = c :: text) :
    c.isDigit = true := by
  have hlength := length_digits 4 (dateOf offset t).year.natAbs
  have hdigits := digits_isDigit 4 (dateOf offset t).year.natAbs
  rw [isoText_eq h] at hc
  cases hd : digits 4 (dateOf offset t).year.natAbs with
  | nil => simp [hd] at hlength
  | cons c' l =>
    rw [hd, List.cons_append, List.cons.injEq] at hc
    exact hdigits c (by simp [hd, hc.1])

theorem zone_head (isUtc : Bool) : ∀ c, (if isUtc then ['Z'] else []).head? = some c → c.isDigit = false := by
  intro c hc
  cases isUtc with
  | false => cases hc
  | true =>
    cases hc
    rfl

theorem micros_back (offset : Int) (t : DateTime) :
    (toDays (dateOf offset t).year (dateOf offset t).month (dateOf offset t).day - epoch) * dayLength +
      clockOf offset t - (if t.isUtc then 0 else offset) = t.microsecondsSinceEpoch := by
  have hdays : toDays (dateOf offset t).year (dateOf offset t).month (dateOf offset t).day =
      shown offset t / dayLength + epoch := toDays_ofDays _
  rw [hdays, Int.add_sub_cancel, ← shown_eq]
  exact shown_back offset t

theorem parseWidth_iso (h : FourDigitYear offset t) : parseWidth offset 1 (isoText offset t) 4 = some (some t) := by
  have hleast := h.least
  have hmost := h.most
  have hrange := h.range
  have hpow : (10 : Nat) ^ 4 = 10000 := rfl
  have hyear : (dateOf offset t).year.natAbs < 10 ^ 4 := by omega
  have hyearInt : ((dateOf offset t).year.natAbs : Int) = (dateOf offset t).year := by omega
  obtain ⟨hmonth, hday⟩ := date_lt offset t
  have hclock := parseClock_clockText (clockOf_lt offset t) (zone_head t.isUtc)
  rw [isoText_eq h]
  simp only [parseWidth, parseDate_iso hyear hmonth hday, hclock, parseZone_utc, hyearInt, Option.bind_eq_bind,
    Option.bind_some, beq_self_eq_true, Bool.or_true, ite_true, Int.one_mul, Int.mul_zero, micros_back, hrange, and_self]
  rfl

theorem parseWidth_wide (h : FourDigitYear offset t) {w : Nat} (hw : 4 < w) :
    parseWidth offset 1 (isoText offset t) w = none := by
  rw [isoText_eq h]
  simp [parseWidth, parseDate_wide hw]

theorem tryParse_toIso8601String (h : FourDigitYear offset t) :
    DateTime.tryParse offset (t.toIso8601String offset) = some t := by
  rw [DateTime.tryParse, DateTime.toIso8601String, String.toList_ofList]
  split
  next sign text hmatch =>
    split at hmatch
    next hplus => exact absurd (isoText_head h hplus) (by decide)
    next hminus => exact absurd (isoText_head h hminus) (by decide)
    next =>
      obtain ⟨rfl, rfl⟩ := Prod.mk.inj hmatch
      simp [parseWidth_wide h (by decide : 4 < 6), parseWidth_wide h (by decide : 4 < 5), parseWidth_iso h]

end

end Mototeca.Mobile
