import Mathlib.Algebra.Group.Nat.Defs
import Mathlib.Data.List.TakeWhile
import Mototeca.Dart
import Mototeca.Trimming

/-!
# Money and numbers in text fields

`formatCents` and `parseCents` of `models/service_record.dart`, and `int.parse`
of the Dart VM, whose literals may have a sign, blanks around them or a `0x`.
`parseCents` deletes `R`, `$`, dots and blanks wherever they stand.
-/

namespace Mototeca.Mobile

/-! ## `int` -/

/-- The value of an `int` expression, which is kept to 64 bits. -/
def wrapInt (n : Int) : Int := n.bmod 18446744073709551616

def intText (n : Int) : List Char :=
  if n < 0 then '-' :: Nat.toDigits 10 n.natAbs else Nat.toDigits 10 n.natAbs

def trimChars (l : List Char) : List Char := ((l.dropWhile isWhitespace).reverse.dropWhile isWhitespace).reverse

def isHexDigit (c : Char) : Bool := c.isDigit || ('a' ≤ c && c ≤ 'f') || ('A' ≤ c && c ≤ 'F')

def hexValue (digits : List Char) : Nat :=
  digits.foldl (fun n c =>
    16 * n + (if c.isDigit then c.toNat - 48 else if c ≤ 'F' then c.toNat - 55 else c.toNat - 87)) 0

/-- The digits of an `int` literal. A positive hexadecimal one may use all 64 bits. -/
def parseUnsigned (negative : Bool) (digits : List Char) : Option Int :=
  match digits with
  | '0' :: 'x' :: hex | '0' :: 'X' :: hex =>
    if hex == [] || !hex.all isHexDigit then none
    else if negative then (some (-(hexValue hex : Int))).filter fun n => minInt ≤ n
    else if hexValue hex < 18446744073709551616 then some (wrapInt (hexValue hex))
    else none
  | _ =>
    if digits == [] || !digits.all Char.isDigit then none
    else
      let n := Nat.ofDigitChars 10 digits 0
      (some (if negative then -(n : Int) else n)).filter fun n => minInt ≤ n && n ≤ maxInt

/-- `int.parse`, with `none` for its `FormatException`. -/
def intParse (text : List Char) : Option Int :=
  match trimChars text with
  | '-' :: digits => parseUnsigned true digits
  | '+' :: digits => parseUnsigned false digits
  | digits => parseUnsigned false digits

/-! ## formatCents and parseCents -/

def padLeft (n : Nat) (text : List Char) : List Char := List.replicate (n - text.length) '0' ++ text

def padRight (n : Nat) (text : List Char) : List Char := text ++ List.replicate (n - text.length) '0'

def formatCents (cents : Int) : String :=
  String.ofList ('R' :: '$' :: ' ' :: (intText (cents.tdiv 100) ++ ',' :: padLeft 2 (intText (cents % 100))))

/-- `\s` of a `RegExp`. -/
def isRegExpSpace (c : Char) : Bool := isWhitespace c && c.toNat != 0x85

/-- Whether `RegExp(r'[R$\s.]')` does not match it. -/
def isKept (c : Char) : Bool := !(c == 'R' || c == '$' || isRegExpSpace c || c == '.')

def leftOf (raw : String) : List Char := (trim raw).toList.filter isKept

def reaisOf (part : List Char) : Option Int := intParse (if part == [] then ['0'] else part)

def centavosOf (part : List Char) : Option Int := intParse ((padRight 2 part).take 2)

def parseCents (raw : String) : Except Thrown (Option Int) :=
  let cleaned := (leftOf raw).map fun c => if c == ',' then '.' else c
  if cleaned == [] then .ok none
  else
    match cleaned.splitOn '.' with
    | [part] =>
      match reaisOf part with
      | some reais => .ok (some (wrapInt (reais * 100)))
      | none => .error .formatException
    | [part, fraction] =>
      match reaisOf part with
      | some reais =>
        match centavosOf fraction with
        | some centavos => .ok (some (wrapInt (reais * 100 + centavos)))
        | none => .error .formatException
      | none => .error .formatException
    | _ => .error .formatException

/-! ## Brazilian money -/

/-- Digits, as they are or in thousands parted by dots. -/
inductive Grouped : List Char → List Char → Prop
  | plain {digits : List Char} (hne : digits ≠ []) (hdigits : ∀ c ∈ digits, c.isDigit = true) : Grouped digits digits
  | dotted {head : List Char} {groups : List (List Char)} (hhead : 1 ≤ head.length ∧ head.length ≤ 3)
    (hgroups : ∀ g ∈ groups, g.length = 3) (hdigits : ∀ c ∈ head ++ groups.flatten, c.isDigit = true) :
    Grouped (head ++ groups.flatMap fun g => '.' :: g) (head ++ groups.flatten)

/-- A whole amount, and up to two digits after a comma. -/
inductive Amount : List Char → Nat → Prop
  | whole {text digits : List Char} (h : Grouped text digits) : Amount text (Nat.ofDigitChars 10 digits 0 * 100)
  | cents {text digits fraction : List Char} (h : Grouped text digits)
    (hlength : fraction.length = 1 ∨ fraction.length = 2) (hfraction : ∀ c ∈ fraction, c.isDigit = true) :
    Amount (text ++ ',' :: fraction)
      (Nat.ofDigitChars 10 digits 0 * 100 + Nat.ofDigitChars 10 (padRight 2 fraction) 0)

/-- An amount with blanks around it and perhaps `R$` before it. -/
inductive IsMoney (raw : String) : Nat → Prop
  | bare {n : Nat} (h : Amount (trimChars raw.toList) n) : IsMoney raw n
  | prefixed {rest : List Char} {n : Nat} (hraw : trimChars raw.toList = 'R' :: '$' :: rest)
    (h : Amount (trimChars rest) n) : IsMoney raw n

/-! ## Texts that are no numbers -/

/-- Digits of a literal whose value fits an `int` under its sign. -/
inductive Unsigned (negative : Bool) : List Char → Prop
  | decimal {digits : List Char} (hne : digits ≠ []) (hdigits : ∀ c ∈ digits, c.isDigit = true)
    (hrange : Nat.ofDigitChars 10 digits 0 < if negative then 9223372036854775809 else 9223372036854775808) :
    Unsigned negative digits
  | hex {x : Char} {digits : List Char} (hx : x = 'x' ∨ x = 'X') (hne : digits ≠ [])
    (hdigits : ∀ c ∈ digits, isHexDigit c = true)
    (hrange : hexValue digits < if negative then 9223372036854775809 else 18446744073709551616) :
    Unsigned negative ('0' :: x :: digits)

/-- What `int.parse` reads, without the blanks around it. -/
inductive Literal : List Char → Prop
  | bare {digits : List Char} (h : Unsigned false digits) : Literal digits
  | plus {digits : List Char} (h : Unsigned false digits) : Literal ('+' :: digits)
  | minus {digits : List Char} (h : Unsigned true digits) : Literal ('-' :: digits)

/-- One literal, or two around a comma; nothing before the comma is a zero. -/
inductive Readable : List Char → Prop
  | whole {part : List Char} (hcomma : ',' ∉ part) (hpart : Literal (trimChars part)) : Readable part
  | cents {part fraction : List Char} (hcomma : ',' ∉ part ∧ ',' ∉ fraction)
    (hpart : part = [] ∨ Literal (trimChars part)) (hfraction : Literal (trimChars ((padRight 2 fraction).take 2))) :
    Readable (part ++ ',' :: fraction)

/-! ## Trimming -/

theorem toList_trim (s : String) : (trim s).toList = trimChars s.toList := by
  rw [trim, trimChars, String.toList_ofList]

theorem isWhitespace_graphic {c : Char} (h : 33 ≤ c.toNat ∧ c.toNat ≤ 126) : isWhitespace c = false := by
  unfold isWhitespace isSpace
  simp only [Bool.or_eq_false_iff, Bool.and_eq_false_iff, decide_eq_false_iff_not, beq_eq_false_iff_ne]
  omega

theorem trimChars_eq (l : List Char) : trimChars l = Trimming.trimBoth isWhitespace l := rfl

theorem trimChars_append {lead : List Char} (h : ∀ c ∈ lead, isWhitespace c = true) (l : List Char) :
    trimChars (lead ++ l) = trimChars l := by
  rw [trimChars_eq, trimChars_eq, Trimming.trimBoth_append h]

theorem trimChars_self {l : List Char} (hhead : ∀ c, l.head? = some c → isWhitespace c = false)
    (hlast : ∀ c, l.getLast? = some c → isWhitespace c = false) : trimChars l = l := by
  rw [trimChars_eq, Trimming.trimBoth_self hhead hlast]

/-! ## Reading digits -/

theorem digit_plain {c : Char} (h : c.isDigit = true) :
    isWhitespace c = false ∧ isKept c = true ∧ c ≠ ',' := by
  have hd : 48 ≤ c.toNat ∧ c.toNat ≤ 57 := by
    rw [Char.isDigit, Bool.and_eq_true, decide_eq_true_iff, decide_eq_true_iff] at h
    exact ⟨by simpa using UInt32.le_iff_toNat_le.mp h.1, by simpa using UInt32.le_iff_toNat_le.mp h.2⟩
  have hspace : isWhitespace c = false := isWhitespace_graphic ⟨by omega, by omega⟩
  have hne : ∀ d : Char, d.toNat < 48 ∨ 57 < d.toNat → c ≠ d := by
    rintro d hdigit rfl
    omega
  refine ⟨hspace, ?_, hne ',' (by decide)⟩
  simp [isKept, isRegExpSpace, hspace, hne 'R' (by decide), hne '$' (by decide), hne '.' (by decide)]

theorem trimChars_digits {digits : List Char} (h : ∀ c ∈ digits, c.isDigit = true) : trimChars digits = digits :=
  trimChars_self (fun c hc => (digit_plain (h c (List.mem_of_head? hc))).1)
    fun c hc => (digit_plain (h c (List.mem_of_getLast? hc))).1

theorem parseUnsigned_digits {digits : List Char} (hne : digits ≠ []) (h : ∀ c ∈ digits, c.isDigit = true)
    (hmax : (Nat.ofDigitChars 10 digits 0 : Int) ≤ maxInt) :
    parseUnsigned false digits = some (Nat.ofDigitChars 10 digits 0 : Int) := by
  have hall : digits.all Char.isDigit = true := List.all_eq_true.mpr h
  have hmin : minInt ≤ (Nat.ofDigitChars 10 digits 0 : Int) := by
    have : minInt ≤ 0 := by decide
    omega
  unfold parseUnsigned
  split
  · exact absurd (h 'x' (by simp)) (by decide)
  · exact absurd (h 'X' (by simp)) (by decide)
  · simp [hne, hall, hmin, hmax]

theorem parseUnsigned_hex {negative : Bool} {x : Char} {hex : List Char} (hx : x = 'x' ∨ x = 'X') :
    (parseUnsigned negative ('0' :: x :: hex)).isSome = true ↔
      hex ≠ [] ∧ (∀ c ∈ hex, isHexDigit c = true) ∧
        hexValue hex < if negative then 9223372036854775809 else 18446744073709551616 := by
  have hbody : parseUnsigned negative ('0' :: x :: hex) =
      if hex == [] || !hex.all isHexDigit then none
      else if negative then (some (-(hexValue hex : Int))).filter fun n => minInt ≤ n
      else if hexValue hex < 18446744073709551616 then some (wrapInt (hexValue hex)) else none := by
    rcases hx with rfl | rfl <;> rfl
  rw [hbody, ← List.all_eq_true]
  by_cases hne : hex = []
  · simp [hne]
  by_cases hall : hex.all isHexDigit = true
  · have hmin : minInt ≤ -(hexValue hex : Int) ↔ hexValue hex < 9223372036854775809 := by
      unfold minInt
      omega
    cases negative <;> simp [hne, hall, Option.filter, hmin]
  · simp [hne, hall]

theorem parseUnsigned_decimal {negative : Bool} {digits : List Char}
    (hx : ∀ x hex, digits = '0' :: x :: hex → ¬ (x = 'x' ∨ x = 'X')) :
    (parseUnsigned negative digits).isSome = true ↔
      digits ≠ [] ∧ (∀ c ∈ digits, c.isDigit = true) ∧
        Nat.ofDigitChars 10 digits 0 < if negative then 9223372036854775809 else 9223372036854775808 := by
  rw [← List.all_eq_true]
  unfold parseUnsigned
  split
  · exact absurd (.inl rfl) (hx _ _ rfl)
  · exact absurd (.inr rfl) (hx _ _ rfl)
  · by_cases hne : digits = []
    · simp [hne]
    by_cases hall : digits.all Char.isDigit = true
    · have hmin : minInt ≤ -(Nat.ofDigitChars 10 digits 0 : Int) ↔
          Nat.ofDigitChars 10 digits 0 < 9223372036854775809 := by
        unfold minInt
        omega
      have hmax : (minInt ≤ (Nat.ofDigitChars 10 digits 0 : Int) ∧ (Nat.ofDigitChars 10 digits 0 : Int) ≤ maxInt) ↔
          Nat.ofDigitChars 10 digits 0 < 9223372036854775808 := by
        unfold minInt maxInt
        omega
      have hneg : -(Nat.ofDigitChars 10 digits 0 : Int) ≤ maxInt := by
        unfold maxInt
        omega
      cases negative <;> simp [hne, hall, Option.filter, hmin, hmax, hneg]
    · simp [hne, hall]

theorem parseUnsigned_isSome_iff (negative : Bool) (digits : List Char) :
    (parseUnsigned negative digits).isSome = true ↔ Unsigned negative digits := by
  by_cases hx : ∃ x hex, digits = '0' :: x :: hex ∧ (x = 'x' ∨ x = 'X')
  · obtain ⟨x, hex, rfl, hx⟩ := hx
    rw [parseUnsigned_hex hx]
    constructor
    · intro h
      exact .hex hx h.1 h.2.1 h.2.2
    · intro h
      cases h with
      | decimal hne hdigits hrange =>
        rcases hx with rfl | rfl
        · exact absurd (hdigits 'x' (by simp)) (by decide)
        · exact absurd (hdigits 'X' (by simp)) (by decide)
      | hex _ hne hdigits hrange => exact ⟨hne, hdigits, hrange⟩
  · rw [parseUnsigned_decimal fun x hex heq h => hx ⟨x, hex, heq, h⟩]
    constructor
    · intro h
      exact .decimal h.1 h.2.1 h.2.2
    · intro h
      cases h with
      | decimal hne hdigits hrange => exact ⟨hne, hdigits, hrange⟩
      | hex h => exact absurd ⟨_, _, rfl, h⟩ hx

theorem unsigned_head {negative : Bool} {c : Char} {digits : List Char} (h : Unsigned negative (c :: digits)) :
    c ≠ '+' ∧ c ≠ '-' := by
  have hc : c.isDigit = true := by
    cases h with
    | decimal hne hdigits hrange => exact hdigits c (by simp)
    | hex => rfl
  constructor
  · rintro rfl
    exact absurd hc (by decide)
  · rintro rfl
    exact absurd hc (by decide)

theorem intParse_isSome_iff (text : List Char) : (intParse text).isSome = true ↔ Literal (trimChars text) := by
  unfold intParse
  split
  next digits heq =>
    rw [heq, parseUnsigned_isSome_iff]
    constructor
    · intro h
      exact .minus h
    · intro h
      cases h with
      | bare h => exact absurd rfl (unsigned_head h).2
      | minus h => exact h
  next digits heq =>
    rw [heq, parseUnsigned_isSome_iff]
    constructor
    · intro h
      exact .plus h
    · intro h
      cases h with
      | bare h => exact absurd rfl (unsigned_head h).1
      | plus h => exact h
  next hminus hplus =>
    rw [parseUnsigned_isSome_iff]
    constructor
    · intro h
      exact .bare h
    · intro h
      generalize trimChars text = digits at h hplus hminus
      cases h with
      | bare h => exact h
      | plus h => exact absurd rfl (hplus _)
      | minus h => exact absurd rfl (hminus _)

theorem intParse_digits {lead digits : List Char} (hlead : ∀ c ∈ lead, isWhitespace c = true) (hne : digits ≠ [])
    (h : ∀ c ∈ digits, c.isDigit = true) (hmax : (Nat.ofDigitChars 10 digits 0 : Int) ≤ maxInt) :
    intParse (lead ++ digits) = some (Nat.ofDigitChars 10 digits 0 : Int) := by
  unfold intParse
  rw [trimChars_append hlead, trimChars_digits h]
  split
  · exact absurd (h '-' (by simp)) (by decide)
  · exact absurd (h '+' (by simp)) (by decide)
  · exact parseUnsigned_digits hne h hmax

theorem wrapInt_self {n : Int} (hmin : minInt ≤ n) (hmax : n ≤ maxInt) : wrapInt n = n := by
  unfold minInt at hmin
  unfold maxInt at hmax
  exact Int.bmod_eq_of_le (by omega) (by omega)

/-! ## The pieces around a comma -/

theorem splitOn_cleaned {left : List Char} (h : '.' ∉ left) :
    (left.map fun c => if c == ',' then '.' else c).splitOn '.' = left.splitOn ',' := by
  induction left with
  | nil => rfl
  | cons c left ih =>
    rw [List.mem_cons, not_or] at h
    rw [List.map_cons, List.splitOn_cons_eq_if_modifyHead, List.splitOn_cons_eq_if_modifyHead, ih h.2]
    by_cases hc : c = ','
    · simp [hc]
    · simp [hc, Ne.symm h.1]

theorem comma_cases (l : List Char) : ',' ∉ l ∨ (∃ part fraction, l = part ++ ',' :: fraction ∧ ',' ∉ part ∧ ',' ∉ fraction) ∨
    ∃ a b c, l = a ++ ',' :: (b ++ ',' :: c) ∧ ',' ∉ a ∧ ',' ∉ b := by
  by_cases hl : ',' ∈ l
  · obtain ⟨a, rest, rfl, ha⟩ := List.eq_append_cons_of_mem hl
    by_cases hrest : ',' ∈ rest
    · obtain ⟨b, c, rfl, hb⟩ := List.eq_append_cons_of_mem hrest
      exact .inr (.inr ⟨a, b, c, rfl, ha, hb⟩)
    · exact .inr (.inl ⟨a, rest, rfl, ha, hrest⟩)
  · exact .inl hl

theorem splitOn_cents {part fraction : List Char} (hpart : ',' ∉ part) (hfraction : ',' ∉ fraction) :
    (part ++ ',' :: fraction).splitOn ',' = [part, fraction] := by
  rw [List.splitOn_append_cons_self_of_not_mem hpart, List.splitOn_eq_singleton hfraction]

theorem readable_whole_iff {part : List Char} (hcomma : ',' ∉ part) : Readable part ↔ Literal (trimChars part) := by
  constructor
  · intro h
    cases h with
    | whole hcomma hpart => exact hpart
    | cents => simp at hcomma
  · intro h
    exact .whole hcomma h

theorem readable_cents_iff {part fraction : List Char} (hpart : ',' ∉ part) (hfraction : ',' ∉ fraction) :
    Readable (part ++ ',' :: fraction) ↔
      (part = [] ∨ Literal (trimChars part)) ∧ Literal (trimChars ((padRight 2 fraction).take 2)) := by
  constructor
  · intro h
    generalize heq : part ++ ',' :: fraction = l at h
    cases h with
    | whole hcomma => simp [← heq] at hcomma
    | cents hcomma hread hcents =>
      have hsplit := congrArg (List.splitOn ',') heq
      rw [splitOn_cents hpart hfraction, splitOn_cents hcomma.1 hcomma.2] at hsplit
      simp only [List.cons.injEq, and_true] at hsplit
      rw [hsplit.1, hsplit.2]
      exact ⟨hread, hcents⟩
  · intro h
    exact .cents ⟨hpart, hfraction⟩ h.1 h.2

theorem not_readable_many {a b c : List Char} (ha : ',' ∉ a) (hb : ',' ∉ b) :
    ¬ Readable (a ++ ',' :: (b ++ ',' :: c)) := by
  intro h
  generalize heq : a ++ ',' :: (b ++ ',' :: c) = l at h
  cases h with
  | whole hcomma => simp [← heq] at hcomma
  | cents hcomma =>
    have hsplit := congrArg (List.splitOn ',') heq
    rw [List.splitOn_append_cons_self_of_not_mem ha, List.splitOn_append_cons_self_of_not_mem hb,
      splitOn_cents hcomma.1 hcomma.2] at hsplit
    simp only [List.cons.injEq] at hsplit
    exact List.splitOn_ne_nil _ _ hsplit.2.2

/-! ## parseCents on each kind of text -/

theorem dot_notMem_leftOf (s : String) : '.' ∉ leftOf s := by
  intro h
  have hkept := (List.mem_filter.mp h).2
  simp [isKept] at hkept

theorem parseCents_blank {s : String} (h : leftOf s = []) : parseCents s = .ok none := by
  simp [parseCents, h]

theorem parseCents_whole {s : String} (hne : leftOf s ≠ []) (hcomma : ',' ∉ leftOf s) :
    parseCents s =
      (reaisOf (leftOf s)).elim (.error .formatException) fun reais => .ok (some (wrapInt (reais * 100))) := by
  simp only [parseCents, splitOn_cleaned (dot_notMem_leftOf s), List.splitOn_eq_singleton hcomma]
  cases reaisOf (leftOf s) <;> simp [hne]

theorem parseCents_cents {s : String} {part fraction : List Char} (h : leftOf s = part ++ ',' :: fraction)
    (hpart : ',' ∉ part) (hfraction : ',' ∉ fraction) :
    parseCents s =
      (reaisOf part).elim (.error .formatException) fun reais =>
        (centavosOf fraction).elim (.error .formatException) fun centavos =>
          .ok (some (wrapInt (reais * 100 + centavos))) := by
  have hne : leftOf s ≠ [] := by simp [h]
  have hsplit : (leftOf s).splitOn ',' = [part, fraction] := by rw [h, splitOn_cents hpart hfraction]
  simp only [parseCents, splitOn_cleaned (dot_notMem_leftOf s), hsplit]
  cases reaisOf part <;> cases centavosOf fraction <;> simp [hne]

theorem parseCents_many {s : String} {a b c : List Char} (h : leftOf s = a ++ ',' :: (b ++ ',' :: c))
    (ha : ',' ∉ a) (hb : ',' ∉ b) : parseCents s = .error .formatException := by
  have hne : leftOf s ≠ [] := by simp [h]
  have hsplit : (leftOf s).splitOn ',' = a :: b :: c.splitOn ',' := by
    rw [h, List.splitOn_append_cons_self_of_not_mem ha, List.splitOn_append_cons_self_of_not_mem hb]
  simp only [parseCents, splitOn_cleaned (dot_notMem_leftOf s), hsplit]
  cases hrest : c.splitOn ',' with
  | nil => exact absurd hrest (List.splitOn_ne_nil _ _)
  | cons => simp [hne]

theorem reaisOf_isSome_iff (part : List Char) :
    (reaisOf part).isSome = true ↔ part = [] ∨ Literal (trimChars part) := by
  unfold reaisOf
  by_cases h : part = []
  · simp only [h, beq_self_eq_true, ↓reduceIte, true_or, iff_true]
    rfl
  · simp [h, intParse_isSome_iff]

theorem parseCents_error_iff (s : String) :
    parseCents s = .error .formatException ↔ leftOf s ≠ [] ∧ ¬ Readable (leftOf s) := by
  by_cases hne : leftOf s = []
  · simp [parseCents_blank hne, hne]
  rcases comma_cases (leftOf s) with hcomma | ⟨part, fraction, hleft, hpart, hfraction⟩ | ⟨a, b, c, hleft, ha, hb⟩
  · have hreais := reaisOf_isSome_iff (leftOf s)
    rw [parseCents_whole hne hcomma, readable_whole_iff hcomma]
    cases h : reaisOf (leftOf s) <;> simp_all
  · have hreais := reaisOf_isSome_iff part
    have hcents := intParse_isSome_iff ((padRight 2 fraction).take 2)
    rw [parseCents_cents hleft hpart hfraction, hleft, readable_cents_iff hpart hfraction, ← hreais, ← hcents]
    cases h : reaisOf part <;> cases h' : centavosOf fraction <;> simp [centavosOf] at * <;> simp_all
  · rw [parseCents_many hleft ha hb, hleft]
    simp [not_readable_many ha hb]

/-! ## What is left of money -/

theorem grouped_digits {text digits : List Char} (h : Grouped text digits) :
    text.filter isKept = digits ∧ digits ≠ [] ∧ ∀ c ∈ digits, c.isDigit = true := by
  cases h with
  | plain hne hdigits =>
    exact ⟨List.filter_eq_self.mpr fun c hc => (digit_plain (hdigits c hc)).2.1, hne, hdigits⟩
  | @dotted head groups hhead hgroups hdigits =>
    have hkept : ∀ l : List Char, (∀ c ∈ l, c ∈ head ++ groups.flatten) → l.filter isKept = l := by
      intro l hl
      exact List.filter_eq_self.mpr fun c hc => (digit_plain (hdigits c (hl c hc))).2.1
    have hrest : (groups.flatMap fun g => '.' :: g).filter isKept = groups.flatten := by
      have heach : ∀ g ∈ groups, ('.' :: g).filter isKept = g := by
        intro g hg
        rw [List.filter_cons_of_neg (by decide)]
        exact hkept g fun c hc => List.mem_append_right _ (List.mem_flatten.mpr ⟨g, hg, hc⟩)
      clear hgroups hdigits hkept
      induction groups with
      | nil => rfl
      | cons g groups ih =>
        rw [List.flatMap_cons, List.filter_append, heach g (by simp), List.flatten_cons,
          ih fun g' hg' => heach g' (List.mem_cons_of_mem _ hg')]
    refine ⟨?_, ?_, hdigits⟩
    · rw [List.filter_append, hkept head fun c hc => List.mem_append_left _ hc, hrest]
    · intro hnil
      rw [List.append_eq_nil_iff] at hnil
      simp [hnil.1] at hhead

theorem filter_money {s : String} {n : Nat} (h : IsMoney s n) :
    ∃ lead text, (∀ c ∈ lead, isWhitespace c = true) ∧ Amount text n ∧ leftOf s = lead ++ text.filter isKept := by
  cases h with
  | bare h =>
    refine ⟨[], _, by simp, h, ?_⟩
    rw [leftOf, toList_trim, List.nil_append]
  | @prefixed rest n hraw h =>
    obtain ⟨lead, trail, hrest, hlead, htrail⟩ := Trimming.trimBoth_split (p := isWhitespace) rest
    rw [← trimChars_eq] at hrest
    have hnone : trail = [] := by
      -- the trimmed text ends in no blank, so neither does what follows the prefix
      by_contra hne
      have hlast : (trimChars s.toList).getLast? = some (trail.getLast hne) := by
        have hraw' : trimChars s.toList = ('R' :: '$' :: (lead ++ trimChars rest)) ++ trail := by
          rw [hraw, List.cons_append, List.cons_append, List.append_assoc, ← hrest]
        rw [hraw', List.getLast?_append, List.getLast?_eq_some_getLast hne, Option.some_or]
      exact absurd (htrail _ (List.getLast_mem hne)) (by simp [Trimming.getLast?_trimBoth hlast])
    refine ⟨lead.filter isKept, _, fun c hc => hlead c (List.mem_filter.mp hc).1, h, ?_⟩
    rw [hnone, List.append_nil] at hrest
    rw [leftOf, toList_trim, hraw, List.filter_cons_of_neg (by decide), List.filter_cons_of_neg (by decide),
      ← List.filter_append, ← hrest]

theorem reaisOf_digits {lead digits : List Char} (hlead : ∀ c ∈ lead, isWhitespace c = true) (hne : digits ≠ [])
    (h : ∀ c ∈ digits, c.isDigit = true) (hmax : (Nat.ofDigitChars 10 digits 0 : Int) ≤ maxInt) :
    reaisOf (lead ++ digits) = some (Nat.ofDigitChars 10 digits 0 : Int) := by
  have hnonempty : lead ++ digits ≠ [] := by simp [hne]
  simp only [reaisOf, beq_iff_eq, hnonempty, ↓reduceIte]
  exact intParse_digits hlead hne h hmax

theorem padRight_digits {fraction : List Char} (h : ∀ c ∈ fraction, c.isDigit = true) :
    ∀ c ∈ padRight 2 fraction, c.isDigit = true := by
  intro c hc
  rcases List.mem_append.mp hc with hc | hc
  · exact h c hc
  · rw [List.eq_of_mem_replicate hc]
    rfl

theorem centavosOf_digits {fraction : List Char} (hlength : fraction.length = 1 ∨ fraction.length = 2)
    (h : ∀ c ∈ fraction, c.isDigit = true) (hmax : (Nat.ofDigitChars 10 (padRight 2 fraction) 0 : Int) ≤ maxInt) :
    centavosOf fraction = some (Nat.ofDigitChars 10 (padRight 2 fraction) 0 : Int) := by
  have htwo : (padRight 2 fraction).length = 2 := by
    rw [padRight, List.length_append, List.length_replicate]
    omega
  have hne : padRight 2 fraction ≠ [] := by
    intro hnil
    simp [hnil] at htwo
  have hparse : intParse ([] ++ padRight 2 fraction) = some (Nat.ofDigitChars 10 (padRight 2 fraction) 0 : Int) :=
    intParse_digits (by simp) hne (padRight_digits h) hmax
  rw [centavosOf, List.take_of_length_le htwo.le]
  exact hparse

theorem comma_notMem_digits {digits : List Char} (h : ∀ c ∈ digits, c.isDigit = true) : ',' ∉ digits := by
  intro hmem
  exact absurd (h ',' hmem) (by decide)

theorem parseCents_money {s : String} {n : Nat} (h : IsMoney s n) (hmax : (n : Int) ≤ maxInt) :
    parseCents s = .ok (some n) := by
  obtain ⟨lead, text, hlead, hamount, hleft⟩ := filter_money h
  have hminInt : minInt ≤ (n : Int) := by
    have : minInt ≤ 0 := by decide
    omega
  have hpart : ∀ {digits : List Char}, (∀ c ∈ digits, c.isDigit = true) → ',' ∉ lead ++ digits := by
    intro digits hdigits hmem
    rcases List.mem_append.mp hmem with hmem | hmem
    · exact absurd (hlead ',' hmem) (by decide)
    · exact comma_notMem_digits hdigits hmem
  cases hamount with
  | @whole text digits hgrouped =>
    obtain ⟨hkept, hne, hdigits⟩ := grouped_digits hgrouped
    rw [hkept] at hleft
    have hnonempty : leftOf s ≠ [] := by simp [hleft, hne]
    have hread := reaisOf_digits hlead hne hdigits (by omega)
    rw [parseCents_whole hnonempty (by rw [hleft]; exact hpart hdigits), hleft, hread]
    exact congrArg (fun n => Except.ok (some n)) (wrapInt_self hminInt hmax)
  | @cents text digits fraction hgrouped hlength hfraction =>
    obtain ⟨hkept, hne, hdigits⟩ := grouped_digits hgrouped
    have hcomma : isKept ',' = true := by decide
    rw [List.filter_append, hkept, List.filter_cons_of_pos hcomma,
      List.filter_eq_self.mpr fun c hc => (digit_plain (hfraction c hc)).2.1, ← List.append_assoc] at hleft
    have hread := reaisOf_digits hlead hne hdigits (by omega)
    have hcents := centavosOf_digits hlength hfraction (by omega)
    rw [parseCents_cents hleft (hpart hdigits) (comma_notMem_digits hfraction), hread, hcents]
    exact congrArg (fun n => Except.ok (some n)) (wrapInt_self hminInt hmax)

/-! ## Exactly money -/

structure AcceptsExactly (s : String) : Prop where
  null : parseCents s = .ok none ↔ trim s = ""
  value : ∀ n : Int, parseCents s = .ok (some n) ↔ n ≤ maxInt ∧ ∃ cents : Nat, (cents : Int) = n ∧ IsMoney s cents
  throws : parseCents s = .error .formatException ↔
    trim s ≠ "" ∧ ¬ ∃ cents : Nat, (cents : Int) ≤ maxInt ∧ IsMoney s cents

theorem parseCents_trimmed {s : String} (h : trim s = "") : parseCents s = .ok none :=
  parseCents_blank (by rw [leftOf, h]; rfl)

theorem not_money_of_parseCents {s : String} {result : Except Thrown (Option Int)} (h : parseCents s = result)
    (hresult : ∀ n, result ≠ .ok (some n)) : ¬ ∃ cents : Nat, (cents : Int) ≤ maxInt ∧ IsMoney s cents := by
  rintro ⟨cents, hmax, hmoney⟩
  exact hresult cents (h ▸ parseCents_money hmoney hmax)

/-- A text that is no money within 64 bits, and is not read as an amount. -/
theorem AcceptsExactly.of_unread {s : String} {result : Except Thrown (Option Int)} (h : parseCents s = result)
    (hresult : ∀ n, result ≠ .ok (some n)) (hnull : result = .ok none ↔ trim s = "")
    (hthrows : result = .error .formatException ↔ trim s ≠ "") : AcceptsExactly s where
  null := by rw [h, hnull]
  value n := by
    constructor
    · intro hn
      exact absurd (h.symm.trans hn) (hresult n)
    · rintro ⟨hmax, cents, rfl, hmoney⟩
      exact absurd ⟨cents, hmax, hmoney⟩ (not_money_of_parseCents h hresult)
  throws := by rw [h, hthrows, and_iff_left (not_money_of_parseCents h hresult)]

theorem AcceptsExactly.of_money {s : String} {cents : Nat} (hmax : (cents : Int) ≤ maxInt) (hmoney : IsMoney s cents) :
    AcceptsExactly s := by
  have hparse := parseCents_money hmoney hmax
  have hblank : trim s ≠ "" := by
    intro h
    simp [parseCents_trimmed h] at hparse
  refine ⟨by simp [hparse, hblank], fun n => ?_, ?_⟩
  · constructor
    · intro h
      simp only [hparse, Except.ok.injEq, Option.some.injEq] at h
      exact ⟨h ▸ hmax, cents, h, hmoney⟩
    · rintro ⟨hmax', cents', rfl, hmoney'⟩
      exact parseCents_money hmoney' hmax'
  · rw [hparse]
    constructor
    · intro h
      cases h
    · rintro ⟨-, hnot⟩
      exact absurd ⟨cents, hmax, hmoney⟩ hnot

/-- `parseCents` is right about blank texts, money that fits, and texts that keep
their nonsense once `R`, `$`, dots and blanks are gone. -/
theorem acceptsExactly_iff (s : String) :
    AcceptsExactly s ↔ trim s = "" ∨ (∃ cents : Nat, (cents : Int) ≤ maxInt ∧ IsMoney s cents) ∨
      (leftOf s ≠ [] ∧ ¬ Readable (leftOf s)) := by
  constructor
  · intro h
    by_cases hblank : trim s = ""
    · exact .inl hblank
    by_cases hmoney : ∃ cents : Nat, (cents : Int) ≤ maxInt ∧ IsMoney s cents
    · exact .inr (.inl hmoney)
    exact .inr (.inr ((parseCents_error_iff s).mp (h.throws.mpr ⟨hblank, hmoney⟩)))
  · rintro (hblank | ⟨cents, hmax, hmoney⟩ | hleft)
    · exact .of_unread (parseCents_trimmed hblank) (by simp) (by simp [hblank]) (by simp [hblank])
    · exact .of_money hmax hmoney
    · have hparse := (parseCents_error_iff s).mpr hleft
      have hblank : trim s ≠ "" := by
        intro h
        simp [parseCents_trimmed h] at hparse
      exact .of_unread hparse (by simp) (by simp [hblank]) (by simp [hblank])

theorem amount_chars {text : List Char} {n : Nat} (h : Amount text n) :
    ∀ c ∈ text.filter isKept, c.isDigit = true ∨ c = ',' := by
  intro c hc
  cases h with
  | whole h =>
    rw [(grouped_digits h).1] at hc
    exact .inl ((grouped_digits h).2.2 c hc)
  | cents h _ hfraction =>
    rw [List.filter_append, (grouped_digits h).1, List.filter_cons_of_pos (by decide)] at hc
    rcases List.mem_append.mp hc with hc | hc
    · exact .inl ((grouped_digits h).2.2 c hc)
    · rcases List.mem_cons.mp hc with rfl | hc
      · exact .inr rfl
      · exact .inl (hfraction c (List.mem_filter.mp hc).1)

/-- One real less five centavos. -/
theorem negative_centavos : parseCents "1,-5" = .ok (some 95) ∧ ¬ AcceptsExactly "1,-5" := by
  have hparse : parseCents "1,-5" = .ok (some 95) := by decide
  refine ⟨hparse, fun h => ?_⟩
  obtain ⟨-, cents, -, hmoney⟩ := (h.value 95).mp hparse
  obtain ⟨lead, text, hlead, hamount, hleft⟩ := filter_money hmoney
  have hmem : '-' ∈ lead ++ text.filter isKept := by
    rw [← hleft]
    decide
  rcases List.mem_append.mp hmem with hmem | hmem
  · exact absurd (hlead '-' hmem) (by decide)
  · exact absurd (amount_chars hamount '-' hmem) (by decide)

/-! ## Printed and read back -/

theorem intText_natCast (n : Nat) : intText n = Nat.toDigits 10 n := by
  rw [intText, if_neg (by omega), Int.natAbs_natCast]

theorem intParse_intText {n : Nat} (hmax : (n : Int) ≤ maxInt) : intParse (intText n) = some (n : Int) := by
  have hparse : intParse ([] ++ Nat.toDigits 10 n) = some (Nat.ofDigitChars 10 (Nat.toDigits 10 n) 0 : Int) :=
    intParse_digits (by simp) Nat.toDigits_ne_nil (fun _ hc => isDigit_of_mem hc)
      (by rw [Nat.ofDigitChars_ten_toDigits]; exact hmax)
  rw [Nat.ofDigitChars_ten_toDigits] at hparse
  rw [intText_natCast]
  exact hparse

/-- The centavos of `formatCents`. -/
theorem padLeft_toDigits {n : Nat} (h : n < 100) :
    (padLeft 2 (Nat.toDigits 10 n)).length = 2 ∧ (∀ c ∈ padLeft 2 (Nat.toDigits 10 n), c.isDigit = true) ∧
      Nat.ofDigitChars 10 (padLeft 2 (Nat.toDigits 10 n)) 0 = n := by
  have hlength : (Nat.toDigits 10 n).length ≤ 2 := (Nat.length_toDigits_le_iff (by decide) (by decide)).mpr h
  refine ⟨?_, ?_, ?_⟩
  · rw [padLeft, List.length_append, List.length_replicate]
    omega
  · intro c hc
    rcases List.mem_append.mp hc with hc | hc
    · rw [List.eq_of_mem_replicate hc]
      rfl
    · exact isDigit_of_mem hc
  · rw [padLeft, Nat.ofDigitChars_append, Nat.ofDigitChars_replicate_zero, Nat.mul_zero,
      Nat.ofDigitChars_ten_toDigits]

theorem toList_formatCents (n : Nat) :
    (formatCents n).toList =
      'R' :: '$' :: ' ' :: (Nat.toDigits 10 (n / 100) ++ ',' :: padLeft 2 (Nat.toDigits 10 (n % 100))) := by
  have hdiv : (n : Int).tdiv 100 = ((n / 100 : Nat) : Int) := rfl
  have hmod : (n : Int) % 100 = ((n % 100 : Nat) : Int) := rfl
  rw [formatCents, String.toList_ofList, hdiv, hmod, intText_natCast, intText_natCast]

theorem isMoney_formatCents (n : Nat) : IsMoney (formatCents n) n := by
  have hprinted := toList_formatCents n
  obtain ⟨hlength, hdigits, hvalue⟩ := padLeft_toDigits (Nat.mod_lt n (by decide : 0 < 100))
  generalize padLeft 2 (Nat.toDigits 10 (n % 100)) = fraction at hprinted hlength hdigits hvalue
  have hpad : padRight 2 fraction = fraction := by
    rw [padRight, hlength, Nat.sub_self, List.replicate_zero, List.append_nil]
  have hamount : Amount (Nat.toDigits 10 (n / 100) ++ ',' :: fraction) n := by
    have h := Amount.cents (.plain Nat.toDigits_ne_nil fun _ hc => isDigit_of_mem (n := n / 100) hc) (.inr hlength) hdigits
    rw [hpad, hvalue, Nat.ofDigitChars_ten_toDigits, Nat.div_add_mod'] at h
    exact h
  have hplain : ∀ c ∈ Nat.toDigits 10 (n / 100) ++ ',' :: fraction, isWhitespace c = false := by
    intro c hc
    rcases List.mem_append.mp hc with hc | hc
    · exact (digit_plain (isDigit_of_mem hc)).1
    · rcases List.mem_cons.mp hc with rfl | hc
      · rfl
      · exact (digit_plain (hdigits c hc)).1
  have hne : Nat.toDigits 10 (n / 100) ++ ',' :: fraction ≠ [] := by simp
  generalize Nat.toDigits 10 (n / 100) ++ ',' :: fraction = amount at *
  have htrim : trimChars amount = amount :=
    trimChars_self (fun c hc => hplain c (List.mem_of_head? hc)) fun c hc => hplain c (List.mem_of_getLast? hc)
  have hblank : trimChars ([' '] ++ amount) = trimChars amount := trimChars_append (by simp; decide) amount
  refine @IsMoney.prefixed _ (' ' :: amount) _ ?_ ?_
  · rw [hprinted]
    refine trimChars_self (by simp; decide) fun c hc => hplain c ?_
    rw [List.getLast?_cons_cons, List.getLast?_cons_cons, List.getLast?_cons_of_ne_nil hne] at hc
    exact List.mem_of_getLast? hc
  · rw [← htrim, ← hblank] at hamount
    exact hamount

theorem parseCents_formatCents {n : Nat} (hmax : (n : Int) ≤ maxInt) :
    parseCents (formatCents n) = .ok (some (n : Int)) :=
  parseCents_money (isMoney_formatCents n) hmax

end Mototeca.Mobile
