import Mathlib.Data.List.Basic

/-!
# The phone field

`PhoneInputFormatter` lays the digits of a phone out again after every edit and
puts the cursor back behind the digit it followed. A Dart string is indexed by
UTF-16 code units, so a cursor may also stand inside a surrogate pair.
-/

namespace Mototeca.Mobile

abbrev CodeUnits := List UInt16

def unit (c : Char) : UInt16 := c.toNat.toUInt16

structure TextSelection where
  baseOffset : Int
  extentOffset : Int
  deriving DecidableEq

/-- `TextRange.end`. -/
def TextSelection.endOffset (s : TextSelection) : Int :=
  if s.baseOffset < s.extentOffset then s.extentOffset else s.baseOffset

def TextSelection.collapsed (offset : Int) : TextSelection := ⟨offset, offset⟩

@[simp] theorem TextSelection.endOffset_collapsed (offset : Int) :
    (TextSelection.collapsed offset).endOffset = offset := if_neg (Int.lt_irrefl offset)

structure TextRange where
  start : Int
  stop : Int
  deriving DecidableEq

structure TextEditingValue where
  text : CodeUnits := []
  selection : TextSelection := .collapsed (-1)
  composing : TextRange := ⟨-1, -1⟩
  deriving DecidableEq

/-- `num.clamp`. -/
def clamp (n lower upper : Int) : Int :=
  if n < lower then lower else if upper < n then upper else n

/-! ## formatPhone -/

def maxDigits : Nat := 11

/-- `RegExp(r'\d')` on one code unit. -/
def isDigit (u : UInt16) : Bool := unit '0' ≤ u && u ≤ unit '9'

def digitsOf (text : CodeUnits) : CodeUnits := text.filter isDigit

def formatPhone (digits : CodeUnits) : CodeUnits :=
  if digits = [] then []
  else if digits.length ≤ 2 then unit '(' :: digits
  else
    let area := digits.take 2
    let number := digits.drop 2
    let split := if digits.length = maxDigits then 5 else 4
    let start := unit '(' :: area ++ [unit ')', unit ' ']
    if number.length ≤ split then start ++ number
    else start ++ number.take split ++ unit '-' :: number.drop split

/-! ## formatEditUpdate -/

/-- The loop of `_offsetAfterDigits`, at index `i` with `seen` digits behind it. -/
def scanDigits (count : Nat) : Nat → Nat → CodeUnits → Option Nat
  | _, _, [] => none
  | seen, i, u :: rest =>
    if isDigit u then
      if seen + 1 = count then some (i + 1) else scanDigits count (seen + 1) (i + 1) rest
    else scanDigits count seen (i + 1) rest

def offsetAfterDigits (formatted : CodeUnits) (count : Nat) : Nat :=
  if count = 0 then if formatted = [] then 0 else 1
  else (scanDigits count 0 0 formatted).getD formatted.length

def formatEditUpdate (_oldValue newValue : TextEditingValue) : TextEditingValue :=
  let digits := digitsOf newValue.text
  let trimmed := if digits.length > maxDigits then digits.take maxDigits else digits
  let formatted := formatPhone trimmed
  -- Keep the cursor after the same digit it followed before formatting.
  let cursor := clamp newValue.selection.endOffset 0 newValue.text.length
  let digitsBefore := clamp (digitsOf (newValue.text.take cursor.toNat)).length 0 trimmed.length
  { text := formatted
    selection := .collapsed (offsetAfterDigits formatted digitsBefore.toNat) }

/-- The digits before the cursor; none before a negative one, all of them before
one past the end. -/
def TextEditingValue.digitsBefore (value : TextEditingValue) : Nat :=
  (digitsOf (value.text.take value.selection.endOffset.toNat)).length

/-! ## The layout keeps the digits -/

theorem digitsOf_append (s t : CodeUnits) : digitsOf (s ++ t) = digitsOf s ++ digitsOf t :=
  List.filter_append s t

theorem digitsOf_cons_digit {u : UInt16} (s : CodeUnits) (h : isDigit u = true) :
    digitsOf (u :: s) = u :: digitsOf s := List.filter_cons_of_pos h

theorem digitsOf_cons_other {u : UInt16} (s : CodeUnits) (h : isDigit u = false) :
    digitsOf (u :: s) = digitsOf s := List.filter_cons_of_neg (by simp [h])

theorem digitsOf_digits {s : CodeUnits} (h : ∀ u ∈ s, isDigit u = true) : digitsOf s = s :=
  List.filter_eq_self.mpr h

section Layout

theorem not_isDigit_open : isDigit (unit '(') = false := by decide
theorem not_isDigit_close : isDigit (unit ')') = false := by decide
theorem not_isDigit_blank : isDigit (unit ' ') = false := by decide
theorem not_isDigit_hyphen : isDigit (unit '-') = false := by decide

theorem digitsOf_start (area : CodeUnits) :
    digitsOf (unit '(' :: area ++ [unit ')', unit ' ']) = digitsOf area := by
  rw [digitsOf_append, digitsOf_cons_other area not_isDigit_open,
    digitsOf_cons_other _ not_isDigit_close, digitsOf_cons_other _ not_isDigit_blank]
  exact List.append_nil _

theorem formatPhone_eq_cons {digits : CodeUnits} (h : digits ≠ []) :
    ∃ rest, formatPhone digits = unit '(' :: rest := by
  unfold formatPhone
  rw [if_neg h]
  by_cases harea : digits.length ≤ 2
  · exact ⟨digits, by rw [if_pos harea]⟩
  · rw [if_neg harea]
    dsimp only
    generalize (if digits.length = maxDigits then 5 else 4) = split
    by_cases hsplit : (digits.drop 2).length ≤ split
    · rw [if_pos hsplit]
      exact ⟨_, rfl⟩
    · rw [if_neg hsplit]
      exact ⟨_, rfl⟩

theorem digitsOf_formatPhone {digits : CodeUnits} (h : ∀ u ∈ digits, isDigit u = true) :
    digitsOf (formatPhone digits) = digits := by
  have harea := digitsOf_digits fun u hu => h u (List.mem_of_mem_take (i := 2) hu)
  have hnumber := digitsOf_digits fun u hu => h u (List.mem_of_mem_drop (i := 2) hu)
  unfold formatPhone
  by_cases hnil : digits = []
  · rw [if_pos hnil, hnil]
    rfl
  rw [if_neg hnil]
  by_cases hshort : digits.length ≤ 2
  · rw [if_pos hshort, digitsOf_cons_other _ not_isDigit_open, digitsOf_digits h]
  rw [if_neg hshort]
  dsimp only
  generalize (if digits.length = maxDigits then 5 else 4) = split
  by_cases hsplit : (digits.drop 2).length ≤ split
  · rw [if_pos hsplit, digitsOf_append, digitsOf_start, harea, hnumber, List.take_append_drop]
  · rw [if_neg hsplit, digitsOf_append, digitsOf_append, digitsOf_start,
      digitsOf_cons_other _ not_isDigit_hyphen, List.append_assoc, ← digitsOf_append,
      List.take_append_drop, harea, hnumber, List.take_append_drop]

end Layout

/-! ## The cursor after its digit -/

/-- The scan stops right behind the digit that brings the count up to `count`. -/
theorem scanDigits_spec {count : Nat} (text : CodeUnits) :
    ∀ seen i : Nat, seen < count → count ≤ seen + (digitsOf text).length →
      ∃ k, scanDigits count seen i text = some (i + k) ∧ k ≤ text.length ∧
        seen + (digitsOf (text.take k)).length = count := by
  induction text with
  | nil =>
    intro seen i hseen hcount
    exact absurd hcount (by simp [digitsOf]; omega)
  | cons u rest ih =>
    intro seen i hseen hcount
    by_cases hu : isDigit u = true
    · rw [digitsOf_cons_digit rest hu, List.length_cons] at hcount
      by_cases hlast : seen + 1 = count
      · refine ⟨1, by simp [scanDigits, hu, hlast], by simp, ?_⟩
        rw [List.take_succ_cons, List.take_zero, digitsOf_cons_digit [] hu]
        exact hlast
      · obtain ⟨k, hscan, hk, hbefore⟩ := ih (seen + 1) (i + 1) (by omega) (by omega)
        refine ⟨k + 1, ?_, by simpa using hk, ?_⟩
        · rw [scanDigits, if_pos hu, if_neg hlast, hscan]
          congr 1
          omega
        · rw [List.take_succ_cons, digitsOf_cons_digit _ hu, List.length_cons]
          omega
    · have hu : isDigit u = false := by simpa using hu
      rw [digitsOf_cons_other rest hu] at hcount
      obtain ⟨k, hscan, hk, hbefore⟩ := ih seen (i + 1) hseen hcount
      refine ⟨k + 1, ?_, by simpa using hk, ?_⟩
      · rw [scanDigits, if_neg (by simp [hu]), hscan]
        congr 1
        omega
      · rw [List.take_succ_cons, digitsOf_cons_other _ hu]
        exact hbefore

theorem offsetAfterDigits_formatPhone {digits : CodeUnits} {count : Nat}
    (h : ∀ u ∈ digits, isDigit u = true) (hcount : count ≤ digits.length) :
    offsetAfterDigits (formatPhone digits) count ≤ (formatPhone digits).length ∧
      (digitsOf ((formatPhone digits).take (offsetAfterDigits (formatPhone digits) count))).length =
        count := by
  unfold offsetAfterDigits
  by_cases hzero : count = 0
  · rw [if_pos hzero]
    by_cases hnil : digits = []
    · subst hnil
      simp [formatPhone, digitsOf, hzero]
    · obtain ⟨rest, hrest⟩ := formatPhone_eq_cons hnil
      rw [hrest, if_neg (by simp), hzero]
      refine ⟨by simp, ?_⟩
      rw [List.take_succ_cons, digitsOf_cons_other _ not_isDigit_open]
      rfl
  · rw [if_neg hzero]
    obtain ⟨k, hscan, hk, hbefore⟩ := scanDigits_spec (formatPhone digits) 0 0
      (Nat.pos_of_ne_zero hzero) (by rw [digitsOf_formatPhone h]; omega)
    rw [hscan]
    simp only [Nat.zero_add, Option.getD_some] at hbefore ⊢
    exact ⟨hk, hbefore⟩

/-! ## One edit -/

theorem take_clamp {α : Type} (n : Int) (l : List α) :
    l.take (clamp n 0 l.length).toNat = l.take n.toNat := by
  unfold clamp
  by_cases hneg : n < 0
  · rw [if_pos hneg, Int.toNat_of_nonpos (Int.le_of_lt hneg)]
    rfl
  rw [if_neg hneg]
  by_cases hpast : (l.length : Int) < n
  · rw [if_pos hpast, Int.toNat_natCast, List.take_length, List.take_of_length_le (by omega)]
  · rw [if_neg hpast]

theorem clamp_natCast (n upper : Nat) : (clamp n 0 upper).toNat = min n upper := by
  unfold clamp
  by_cases hpast : (upper : Int) < n
  · rw [if_neg (by omega), if_pos hpast]
    omega
  · rw [if_neg (by omega), if_neg hpast]
    omega

theorem TextEditingValue.digitsBefore_le (value : TextEditingValue) :
    value.digitsBefore ≤ (digitsOf value.text).length :=
  List.Sublist.length_le ((List.take_sublist _ value.text).filter _)

def phoneOf (text : CodeUnits) : CodeUnits := (digitsOf text).take maxDigits

theorem isDigit_of_mem_phoneOf {text : CodeUnits} : ∀ u ∈ phoneOf text, isDigit u = true := by
  intro u hu
  exact (List.mem_filter.mp (List.mem_of_mem_take hu)).2

theorem formatEditUpdate_eq (oldValue newValue : TextEditingValue) :
    formatEditUpdate oldValue newValue =
      { text := formatPhone (phoneOf newValue.text)
        selection := .collapsed
          (offsetAfterDigits (formatPhone (phoneOf newValue.text))
            (min maxDigits newValue.digitsBefore)) } := by
  have htrimmed : (if (digitsOf newValue.text).length > maxDigits
      then (digitsOf newValue.text).take maxDigits else digitsOf newValue.text) =
      phoneOf newValue.text := by
    by_cases hlong : (digitsOf newValue.text).length > maxDigits
    · exact if_pos hlong
    · rw [if_neg hlong]
      exact (List.take_of_length_le (Nat.le_of_not_lt hlong)).symm
  have hbefore : (clamp newValue.digitsBefore 0 (phoneOf newValue.text).length).toNat =
      min maxDigits newValue.digitsBefore := by
    have hle := newValue.digitsBefore_le
    rw [clamp_natCast, phoneOf, List.length_take]
    omega
  simp only [formatEditUpdate, htrimmed, take_clamp]
  rw [← hbefore]
  rfl

/-- The cursor after an edit stands in the text, behind as many of the digits kept
as it stood behind in what was typed. -/
theorem formatEditUpdate_cursor (oldValue newValue : TextEditingValue) :
    0 ≤ (formatEditUpdate oldValue newValue).selection.endOffset ∧
      (formatEditUpdate oldValue newValue).selection.endOffset ≤
        (formatEditUpdate oldValue newValue).text.length ∧
      (formatEditUpdate oldValue newValue).digitsBefore = min maxDigits newValue.digitsBefore := by
  have hcount : min maxDigits newValue.digitsBefore ≤ (phoneOf newValue.text).length := by
    have hle := newValue.digitsBefore_le
    rw [phoneOf, List.length_take]
    omega
  obtain ⟨hle, hbefore⟩ := offsetAfterDigits_formatPhone isDigit_of_mem_phoneOf hcount
  have htext : (formatEditUpdate oldValue newValue).text = formatPhone (phoneOf newValue.text) := by
    rw [formatEditUpdate_eq]
  have hoffset : (formatEditUpdate oldValue newValue).selection.endOffset =
      (offsetAfterDigits (formatPhone (phoneOf newValue.text))
        (min maxDigits newValue.digitsBefore) : Nat) := by
    rw [formatEditUpdate_eq, TextSelection.endOffset_collapsed]
  rw [TextEditingValue.digitsBefore, htext, hoffset]
  exact ⟨by omega, by omega, hbefore⟩

theorem digitsOf_formatEditUpdate (oldValue newValue : TextEditingValue) :
    digitsOf (formatEditUpdate oldValue newValue).text = phoneOf newValue.text := by
  rw [formatEditUpdate_eq]
  exact digitsOf_formatPhone isDigit_of_mem_phoneOf

/-- Every edit keeps the first eleven digits in order and the cursor behind the digit
it followed; a text already laid out stays as it is, cursor included. -/
theorem formatEditUpdate_keeps_digits (oldValue newValue : TextEditingValue) :
    let formatted := formatEditUpdate oldValue newValue
    digitsOf formatted.text = (digitsOf newValue.text).take 11 ∧
      formatted.selection.baseOffset = formatted.selection.extentOffset ∧
      0 ≤ formatted.selection.endOffset ∧
      formatted.selection.endOffset ≤ formatted.text.length ∧
      formatted.digitsBefore = min 11 newValue.digitsBefore ∧
      ∀ previous, formatEditUpdate previous formatted = formatted := by
  intro formatted
  have hdigits : digitsOf formatted.text = phoneOf newValue.text :=
    digitsOf_formatEditUpdate oldValue newValue
  obtain ⟨hnonneg, hle, hbefore⟩ := formatEditUpdate_cursor oldValue newValue
  refine ⟨hdigits, rfl, hnonneg, hle, hbefore, ?_⟩
  intro previous
  have hphone : phoneOf formatted.text = phoneOf newValue.text := by
    rw [phoneOf, hdigits, phoneOf, List.take_take, Nat.min_self]
  have hsame : min maxDigits formatted.digitsBefore = min maxDigits newValue.digitsBefore := by
    rw [hbefore]
    omega
  rw [formatEditUpdate_eq, hphone, hsame]
  exact (formatEditUpdate_eq oldValue newValue).symm

example :
    (formatEditUpdate {} { text := "31998891997999".toList.map unit, selection := .collapsed 8 }) =
      { text := "(31) 99889-1997".toList.map unit, selection := .collapsed 12 } := by decide

end Mototeca.Mobile
