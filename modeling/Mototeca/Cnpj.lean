import Mathlib.Data.Int.ModEq
import Mathlib.Data.Nat.ModEq
import Mathlib.Tactic.Ring
import Mototeca.CheckDigits
import Mototeca.DemoBackend
import Mototeca.Login
import Mototeca.RecordsSound

/-!
# CNPJ numbers

`ValidateCNPJ` and the demo backend's copy of it accept the same numbers. Two
accepted numbers do not differ in one digit, but where both remainders turn over
between 0 and 1.
-/

namespace Mototeca

open CheckDigits

/-! ## The server -/

def cnpjDigits : Nat := 14

def firstWeights : List Nat := [5, 4, 3, 2, 9, 8, 7, 6, 5, 4, 3, 2]
def secondWeights : List Nat := [6, 5, 4, 3, 2, 9, 8, 7, 6, 5, 4, 3, 2]

/-- `int(r - '0')`. -/
def digit (c : Char) : Nat := c.toNat - '0'.toNat

def digitList (s : String) : List Nat := s.toList.map digit

/-- The two comparisons of `ValidateCNPJ`. -/
def checkDigitsMatch (digits : List Nat) : Bool :=
  digits.getD 12 0 == checkDigit (weigh firstWeights (digits.take 12)) &&
    digits.getD 13 0 == checkDigit (weigh secondWeights (digits.take 13))

/-- `ValidateCNPJ`, of the digits that `NormalizeCNPJ` leaves. -/
def validateCNPJ (cnpj : String) : Option String :=
  refuse (cnpj.toList.length != cnpjDigits) ("CNPJ deve ter " ++ toString cnpjDigits ++ " dígitos") <|>
  refuse (cnpj.toList.head?.any fun c => cnpj.toList.count c == cnpjDigits) "CNPJ inválido" <|>
  refuse (!checkDigitsMatch (digitList cnpj)) "CNPJ inválido"

/-! ## The demo -/

/-- `_checkDigitsMatch`, which parses each digit. -/
def Mobile.checkDigitsMatch (cnpj : String) : Bool :=
  let digits := digitList cnpj
  if digits.all fun d => d == digits.head?.getD 0 then false
  else
    let check (upTo : Nat) (weights : List Nat) : Nat :=
      let sum := ((List.range upTo).map fun i => digits.getD i 0 * weights.getD i 0).sum
      if sum % 11 < 2 then 0 else 11 - sum % 11
    digits.getD 12 0 == check 12 [5, 4, 3, 2, 9, 8, 7, 6, 5, 4, 3, 2] &&
      digits.getD 13 0 == check 13 [6, 5, 4, 3, 2, 9, 8, 7, 6, 5, 4, 3, 2]

/-- `_requireValidCNPJ`. -/
def Mobile.requireValidCNPJ (cnpj : String) : Except Mobile.DemoError Unit :=
  if cnpj.toList.length != 14 || !Mobile.checkDigitsMatch cnpj then
    .error (.failure 400 "invalid_argument" "CNPJ inválido")
  else .ok ()

/-! ## The same numbers -/

theorem weigh_eq_range (weights : List Nat) : ∀ (digits : List Nat) (n : Nat), weights.length = n → n ≤ digits.length →
    weigh weights (digits.take n) = ((List.range n).map fun i => digits.getD i 0 * weights.getD i 0).sum := by
  induction weights with
  | nil =>
    intro digits n hn _
    simp [← hn, weigh]
  | cons w weights ih =>
    intro digits n hn hle
    cases digits with
    | nil => simp [← hn] at hle
    | cons d digits =>
      obtain rfl : n = weights.length + 1 := by simpa using hn.symm
      have hrest := ih digits weights.length rfl (by simpa using hle)
      simp only [weigh] at hrest
      rw [List.range_succ_eq_map, weigh, List.take_succ_cons, List.zipWith_cons_cons, List.sum_cons, hrest,
        List.map_cons, List.sum_cons, List.map_map]
      rfl

abbrev IsDigits (s : String) : Prop := ∀ c ∈ s.toList, ('0' ≤ c && c ≤ '9') = true

theorem isDigits_onlyDigits (raw : String) : IsDigits (onlyDigits raw) := by
  intro c hc
  rw [onlyDigits, String.toList_ofList] at hc
  exact (List.mem_filter.mp hc).2

theorem digit_range {c : Char} (h : ('0' ≤ c && c ≤ '9') = true) : 48 ≤ c.toNat ∧ c.toNat ≤ 57 := by
  simp only [Bool.and_eq_true, decide_eq_true_eq] at h
  exact h

theorem digit_inj {c c' : Char} (h : ('0' ≤ c && c ≤ '9') = true) (h' : ('0' ≤ c' && c' ≤ '9') = true)
    (he : digit c = digit c') : c = c' := by
  have hc := digit_range h
  have hc' := digit_range h'
  have hzero : '0'.toNat = 48 := rfl
  unfold digit at he
  exact Char.toNat_inj.mp (by omega)

theorem all_same_iff {s : String} (hs : IsDigits s) {c : Char} {cs : List Char} (hcons : s.toList = c :: cs) :
    ((digitList s).all fun d => d == (digitList s).head?.getD 0) = (s.toList.count c == s.toList.length) := by
  have hhead : (digitList s).head?.getD 0 = digit c := by simp [digitList, hcons]
  have hmem : ∀ c' ∈ s.toList, digit c' = digit c ↔ c = c' := by
    intro c' h
    exact ⟨fun he => digit_inj (hs c (hcons ▸ List.mem_cons_self)) (hs c' h) he.symm, fun he => by rw [he]⟩
  rw [hhead, Bool.eq_iff_iff, beq_iff_eq, List.count_eq_length, digitList, List.all_map, List.all_eq_true]
  simp only [Function.comp_apply, beq_iff_eq]
  exact forall₂_congr hmem

theorem validateCNPJ_eq_none {s : String} : validateCNPJ s = none ↔
    s.toList.length = 14 ∧ (∀ c, s.toList.head? = some c → s.toList.count c ≠ 14) ∧
      checkDigitsMatch (digitList s) = true := by
  have hsame : (s.toList.head?.any fun c => s.toList.count c == 14) = false ↔
      ∀ c, s.toList.head? = some c → s.toList.count c ≠ 14 := by
    cases s.toList.head? <;> simp
  simp [validateCNPJ, cnpjDigits, refuse_eq_none, hsame]

/-- The demo accepts the numbers that the server accepts, however they are typed. -/
theorem requireValidCNPJ_ok_iff (raw : String) :
    Mobile.requireValidCNPJ (normalizeCNPJ raw) = .ok () ↔ validateCNPJ (normalizeCNPJ raw) = none := by
  have hs : IsDigits (normalizeCNPJ raw) := isDigits_onlyDigits raw
  generalize normalizeCNPJ raw = s at hs ⊢
  rw [validateCNPJ_eq_none]
  by_cases hlen : s.toList.length = 14
  · cases hcons : s.toList with
    | nil => simp [hcons] at hlen
    | cons c cs =>
      have hdigits : (digitList s).length = 14 := by rw [digitList, List.length_map, hlen]
      have hall := all_same_iff hs hcons
      rw [hlen] at hall
      have hfirst := weigh_eq_range firstWeights (digitList s) 12 rfl (by omega)
      have hsecond := weigh_eq_range secondWeights (digitList s) 13 rfl (by omega)
      have hmatch : Mobile.checkDigitsMatch s = (!(s.toList.count c == 14) && checkDigitsMatch (digitList s)) := by
        unfold Mobile.checkDigitsMatch checkDigitsMatch
        dsimp only
        rw [hall, hfirst, hsecond]
        by_cases hcount : (s.toList.count c == 14) = true
        · rw [if_pos hcount, hcount]
          rfl
        · rw [if_neg hcount, Bool.eq_false_iff.mpr hcount]
          rfl
      rw [← hcons, Mobile.requireValidCNPJ, hmatch, hlen, hcons]
      by_cases hcount : (c :: cs).count c = 14 <;> cases checkDigitsMatch (digitList s) <;> simp [hcount]
  · simp [Mobile.requireValidCNPJ, hlen]

/-! ## One wrong digit -/

def firstRemainder (s : String) : Nat := weigh firstWeights ((digitList s).take 12) % 11

def secondRemainder (s : String) : Nat := weigh secondWeights ((digitList s).take 13) % 11

theorem digitList_set {s typed : String} {i : Nat} {c : Char} (h : typed.toList = s.toList.set i c) :
    digitList typed = (digitList s).set i (digit c) := by
  rw [digitList, h, List.map_set, digitList]

theorem getD_lt_ten {s : String} (hs : IsDigits s) (i : Nat) : (digitList s).getD i 0 < 10 := by
  rw [List.getD_eq_getElem?_getD]
  cases h : (digitList s)[i]? with
  | none => simp
  | some d =>
    obtain ⟨c, hc, rfl⟩ := List.mem_map.mp (List.mem_of_getElem? h)
    have := digit_range (hs c hc)
    have hzero : '0'.toNat = 48 := rfl
    simp only [Option.getD_some, digit]
    omega

/-- Fourteen equal digits match only when they are zeros. -/
theorem same_digits_match {d : Nat} (hd : d < 10) (h : checkDigitsMatch (List.replicate 14 d) = true) : d = 0 := by
  have hall : ∀ d < 10, checkDigitsMatch (List.replicate 14 d) = true → d = 0 := by decide
  exact hall d hd h

theorem same_remainders {s : String} (hs : IsDigits s) {c : Char} (hcount : s.toList.count c = s.toList.length)
    (hlen : s.toList.length = 14) (h : checkDigitsMatch (digitList s) = true) :
    firstRemainder s = 0 ∧ secondRemainder s = 0 := by
  have hlist : s.toList = List.replicate 14 c := by
    rw [List.eq_replicate_iff]
    exact ⟨hlen, fun b hb => (List.count_eq_length.mp hcount b hb).symm⟩
  have hdigits : digitList s = List.replicate 14 (digit c) := by
    rw [digitList, hlist, List.map_replicate]
  have hd : digit c < 10 := by
    have := getD_lt_ten hs 0
    rwa [hdigits] at this
  rw [hdigits] at h
  have hzero := same_digits_match hd h
  rw [hzero] at hdigits
  rw [firstRemainder, secondRemainder, hdigits]
  exact ⟨rfl, rfl⟩

section
variable {s typed : String} {i : Nat} {c : Char}

/-- Beside the first twelve digits a wrong one is a wrong check digit. -/
theorem wrong_check_digit (hlen : s.toList.length = 14) (hi : i = 12 ∨ i = 13) (hset : typed.toList = s.toList.set i c)
    (hne : digit c ≠ (digitList s).getD i 0) (h : checkDigitsMatch (digitList s) = true) :
    checkDigitsMatch (digitList typed) = false := by
  have hdigits : (digitList s).length = 14 := by rw [digitList, List.length_map, hlen]
  simp only [checkDigitsMatch, Bool.and_eq_true, beq_iff_eq] at h
  rw [Bool.eq_false_iff]
  intro hmatch
  simp only [checkDigitsMatch, Bool.and_eq_true, beq_iff_eq, digitList_set hset, List.take_set] at hmatch
  rcases hi with rfl | rfl
  · rw [weigh_set_of_le _ _ _ _ (by decide), ← h.1] at hmatch
    exact hne (by simpa [hdigits] using hmatch.1)
  · rw [weigh_set_of_le secondWeights _ _ _ (by decide), ← h.2] at hmatch
    exact hne (by simpa [hdigits] using hmatch.2)

theorem weights_prime : ∀ i < 12, ¬ 11 ∣ firstWeights.getD i 0 ∧ ¬ 11 ∣ secondWeights.getD i 0 := by
  decide

theorem wrong_digit_match_iff (hs : IsDigits s) (hlen : s.toList.length = 14) (hi : i < 12)
    (hset : typed.toList = s.toList.set i c) (hc : digit c < 10) (hne : digit c ≠ (digitList s).getD i 0)
    (h : checkDigitsMatch (digitList s) = true) :
    checkDigitsMatch (digitList typed) = true ↔
      (firstRemainder s < 2 ∧ firstRemainder typed < 2) ∧ secondRemainder s < 2 ∧ secondRemainder typed < 2 := by
  have hdigits : (digitList s).length = 14 := by rw [digitList, List.length_map, hlen]
  have hget₁ : ((digitList s).take 12).getD i 0 = (digitList s).getD i 0 := by
    simp [List.getD_eq_getElem?_getD, hi]
  have hget₂ : ((digitList s).take 13).getD i 0 = (digitList s).getD i 0 := by
    simp [List.getD_eq_getElem?_getD, Nat.lt_succ_of_lt hi]
  have hfirst := checkDigit_set_iff firstWeights ((digitList s).take 12) i (digit c) (by simp [hdigits, hi])
    (by simpa [firstWeights] using hi) (weights_prime i hi).1 (hget₁ ▸ getD_lt_ten hs i) hc (hget₁ ▸ hne)
  have hsecond := checkDigit_set_iff secondWeights ((digitList s).take 13) i (digit c) (by simp [hdigits]; omega)
    (by simp [secondWeights]; omega) (weights_prime i hi).2 (hget₂ ▸ getD_lt_ten hs i) hc (hget₂ ▸ hne)
  simp only [checkDigitsMatch, Bool.and_eq_true, beq_iff_eq] at h
  simp only [checkDigitsMatch, Bool.and_eq_true, beq_iff_eq, firstRemainder, secondRemainder, digitList_set hset,
    List.take_set]
  rw [← hfirst, ← hsecond, ← h.1, ← h.2]
  have h12 : ((digitList s).set i (digit c)).getD 12 0 = (digitList s).getD 12 0 := by
    simp [List.getD_eq_getElem?_getD, List.getElem?_set_ne (by omega : i ≠ 12)]
  have h13 : ((digitList s).set i (digit c)).getD 13 0 = (digitList s).getD 13 0 := by
    simp [List.getD_eq_getElem?_getD, List.getElem?_set_ne (by omega : i ≠ 13)]
  rw [h12, h13]
  exact and_congr eq_comm eq_comm

/-- The weights of a place add up to 11 in three places, and are equal in none. -/
theorem weights_opposed : ∀ i < 12, ¬ (11 : Int) ∣ secondWeights.getD i 0 - firstWeights.getD i 0 ∧
    (11 ∣ secondWeights.getD i 0 + firstWeights.getD i 0 → i = 0 ∨ i = 4 ∨ i = 8) := by
  decide

theorem turned {d e r r' w : Nat} (h : r + r' = 1) (hmod : (r' + d * w) % 11 = (r + e * w) % 11) :
    (11 : Int) ∣ (2 * r - 1) + (e - d) * w := by
  have hdvd := Nat.modEq_iff_dvd.mp hmod
  have hsum : (r : Int) + r' = 1 := by exact_mod_cast h
  have heq : ((r + e * w : Nat) : Int) - (r' + d * w : Nat) = (2 * r - 1) + (e - d) * w := by
    rw [← hsum]
    push_cast
    ring
  exact heq ▸ hdvd

/-- A wrong digit moves both sums by its weights: both remainders turn over where the weights are opposed. -/
theorem places {d e r r' t t' : Nat} (hi : i < 12) (hr : r + r' = 1) (ht : t + t' = 1)
    (hfirst : (r' + d * firstWeights.getD i 0) % 11 = (r + e * firstWeights.getD i 0) % 11)
    (hsecond : (t' + d * secondWeights.getD i 0) % 11 = (t + e * secondWeights.getD i 0) % 11) :
    (i = 0 ∨ i = 4 ∨ i = 8) ∧ r ≠ t := by
  obtain ⟨hdiffer, hopposed⟩ := weights_opposed i hi
  have hdvd := Int.dvd_sub (Dvd.dvd.mul_right (turned hr hfirst) (secondWeights.getD i 0))
    (Dvd.dvd.mul_right (turned ht hsecond) (firstWeights.getD i 0))
  have heq : ((2 * r - 1) + (e - d) * (firstWeights.getD i 0)) * (secondWeights.getD i 0) -
      ((2 * t - 1) + (e - d) * (secondWeights.getD i 0)) * (firstWeights.getD i 0) =
        (2 * r - 1 : Int) * secondWeights.getD i 0 - (2 * t - 1) * firstWeights.getD i 0 := by
    ring
  rw [heq] at hdvd
  generalize firstWeights.getD i 0 = w at *
  generalize secondWeights.getD i 0 = w' at *
  obtain rfl | rfl : r = 0 ∨ r = 1 := by omega
  all_goals
    obtain rfl | rfl : t = 0 ∨ t = 1 := by omega
    all_goals omega

theorem remainders_place (hs : IsDigits s) (hlen : s.toList.length = 14) (hi : i < 12)
    (hset : typed.toList = s.toList.set i c) (hdigit : digit c < 10) (hother : digit c ≠ (digitList s).getD i 0)
    (h₁ : firstRemainder s < 2) (h₁' : firstRemainder typed < 2) (h₂ : secondRemainder s < 2)
    (h₂' : secondRemainder typed < 2) :
    (i = 0 ∨ i = 4 ∨ i = 8) ∧ firstRemainder s + firstRemainder typed = 1 ∧
      secondRemainder s + secondRemainder typed = 1 ∧ firstRemainder s ≠ secondRemainder s := by
  have hdigits : (digitList s).length = 14 := by rw [digitList, List.length_map, hlen]
  have hfirst := weigh_set firstWeights ((digitList s).take 12) i (digit c) (by simp [hdigits, hi])
    (by simpa [firstWeights] using hi)
  have hsecond := weigh_set secondWeights ((digitList s).take 13) i (digit c) (by simp [hdigits]; omega)
    (by simp [secondWeights]; omega)
  have hget₁ : ((digitList s).take 12).getD i 0 = (digitList s).getD i 0 := by
    simp [List.getD_eq_getElem?_getD, hi]
  have hget₂ : ((digitList s).take 13).getD i 0 = (digitList s).getD i 0 := by
    simp [List.getD_eq_getElem?_getD, Nat.lt_succ_of_lt hi]
  have hd := getD_lt_ten hs i
  have hapart₁ : firstRemainder typed ≠ firstRemainder s := by
    rw [firstRemainder, digitList_set hset, List.take_set]
    exact weigh_set_mod_ne (by simp [hdigits, hi]) (by simpa [firstWeights] using hi) (weights_prime i hi).1
      (hget₁ ▸ hd) hdigit (hget₁ ▸ hother)
  have hapart₂ : secondRemainder typed ≠ secondRemainder s := by
    rw [secondRemainder, digitList_set hset, List.take_set]
    exact weigh_set_mod_ne (by simp [hdigits]; omega) (by simp [secondWeights]; omega) (weights_prime i hi).2
      (hget₂ ▸ hd) hdigit (hget₂ ▸ hother)
  have hsum₁ : firstRemainder s + firstRemainder typed = 1 := by omega
  have hsum₂ : secondRemainder s + secondRemainder typed = 1 := by omega
  rw [hget₁] at hfirst
  rw [hget₂] at hsecond
  have hplace : (i = 0 ∨ i = 4 ∨ i = 8) ∧ firstRemainder s ≠ secondRemainder s := by
    apply places hi hsum₁ hsum₂
    · rw [firstRemainder, firstRemainder, digitList_set hset, List.take_set, Nat.mod_add_mod, Nat.mod_add_mod, hfirst]
    · rw [secondRemainder, secondRemainder, digitList_set hset, List.take_set, Nat.mod_add_mod, Nat.mod_add_mod, hsecond]
  exact ⟨hplace.1, hsum₁, hsum₂, hplace.2⟩

end

/-- A wrong digit passes in three places only, where both remainders go between 0 and 1. -/
theorem one_wrong_digit {s typed : String} {i : Nat} {c : Char} (hvalid : validateCNPJ s = none) (hs : IsDigits s)
    (htyped : IsDigits typed) (hset : typed.toList = s.toList.set i c) (hne : typed ≠ s) :
    validateCNPJ typed = none ↔ (i = 0 ∨ i = 4 ∨ i = 8) ∧ firstRemainder s + firstRemainder typed = 1 ∧
      secondRemainder s + secondRemainder typed = 1 := by
  obtain ⟨hlen, -, hmatch⟩ := validateCNPJ_eq_none.mp hvalid
  have hi : i < s.toList.length := by
    by_contra hle
    exact hne (String.toList_inj.mp (hset.trans (List.set_eq_of_length_le (by omega))))
  have hlen' : typed.toList.length = 14 := by rw [hset, List.length_set, hlen]
  have hc : ('0' ≤ c && c ≤ '9') = true := htyped c (hset ▸ List.mem_set hi c)
  have hdigit : digit c < 10 := by
    have := digit_range hc
    have hzero : '0'.toNat = 48 := rfl
    unfold digit
    omega
  have hold : (digitList s).getD i 0 = digit s.toList[i] := by
    simp [digitList, List.getD_eq_getElem?_getD, hi]
  have hother : digit c ≠ (digitList s).getD i 0 := by
    intro he
    have hsame : c = s.toList[i] := digit_inj hc (hs _ (List.getElem_mem hi)) (he.trans hold)
    rw [hsame, List.set_getElem_self] at hset
    exact hne (String.toList_inj.mp hset)
  by_cases h12 : i < 12
  · have hiff := wrong_digit_match_iff hs hlen h12 hset hdigit hother hmatch
    constructor
    · intro h
      obtain ⟨⟨h₁, h₁'⟩, h₂, h₂'⟩ := hiff.mp (validateCNPJ_eq_none.mp h).2.2
      obtain ⟨hplace, hsum₁, hsum₂, -⟩ := remainders_place hs hlen h12 hset hdigit hother h₁ h₁' h₂ h₂'
      exact ⟨hplace, hsum₁, hsum₂⟩
    · intro h
      obtain ⟨-, hsum₁, hsum₂⟩ := h
      have hpass : checkDigitsMatch (digitList typed) = true := hiff.mpr (by omega)
      refine validateCNPJ_eq_none.mpr ⟨hlen', fun first _ hcount => ?_, hpass⟩
      -- Zeros throughout would leave both remainders of `s` at 1.
      obtain ⟨hfirst, hsecond⟩ := same_remainders htyped (hcount.trans hlen'.symm) hlen' hpass
      obtain ⟨-, -, -, hapart⟩ := remainders_place hs hlen h12 hset hdigit hother (by omega) (by omega) (by omega)
        (by omega)
      omega
  · have h : i = 12 ∨ i = 13 := by omega
    have hfail := wrong_check_digit hlen h hset hother hmatch
    refine ⟨fun hnone => ?_, fun h => absurd h.1 (by omega)⟩
    rw [(validateCNPJ_eq_none.mp hnone).2.2] at hfail
    cases hfail

theorem one_wrong_digit_passes : validateCNPJ "88387380000100" = none ↔ (0 = 0 ∨ 0 = 4 ∨ 0 = 8) ∧
    firstRemainder "68387380000100" + firstRemainder "88387380000100" = 1 ∧
      secondRemainder "68387380000100" + secondRemainder "88387380000100" = 1 :=
  one_wrong_digit (c := '8') (by decide) (List.all_eq_true.mp (by decide)) (List.all_eq_true.mp (by decide))
    (by decide) (by decide)

end Mototeca
