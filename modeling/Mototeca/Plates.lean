import Mototeca.Odometer
import Mototeca.ServerSound
import Mototeca.Trimming

/-!
# Plates on the two sides

The app trims a plate, raises it to upper case and then takes the separators out;
the server takes the separators out first and trims nothing. The two spellings
agree unless white space other than blanks stands at an end of what is left, or
the two case tables differ on a character.
-/

namespace Mototeca

open Mobile (Dart isWhitespace toUpper_other)
open Trimming (trimBoth)

/-! ## Case tables -/

def isSeparator (c : Char) : Bool := c == '-' || c == ' '

def isBlank (c : Char) : Bool := isWhitespace c || isSeparator c

/-- Both sides map character by character, the app perhaps to several; blanks
stay as they are, nothing else becomes one, and upper case stays. -/
structure CaseTables (dart : Dart) (P : Platform) (upper : Char → List Char) : Prop where
  toUpperCase : ∀ text, dart.toUpperCase text = String.ofList (text.toList.flatMap upper)
  ne_nil : ∀ c, upper c ≠ []
  blank : ∀ c, isBlank c = true → upper c = [c] ∧ P.toUpper c = c
  graphic : ∀ c, isBlank c = false → (∀ u ∈ upper c, isBlank u = false) ∧ isBlank (P.toUpper c) = false
  again : ∀ c, (upper c).flatMap upper = upper c ∧ P.toUpper (P.toUpper c) = P.toUpper c

def unseparated (l : List Char) : List Char := l.filter fun c => !isSeparator c

/-- No white space at either end of what the separators leave, and the same upper
case on both sides for each character of it. -/
structure PlainPlate (P : Platform) (upper : Char → List Char) (raw : String) : Prop where
  head : ∀ c, (unseparated raw.toList).head? = some c → isWhitespace c = false
  last : ∀ c, (unseparated raw.toList).getLast? = some c → isWhitespace c = false
  upper : ∀ c ∈ unseparated raw.toList, upper c = [P.toUpper c]

/-- App and server agree on `raw`, both spellings are final, and a plate is valid on
one side when it is on the other. -/
structure NormalizedAlike (dart : Dart) (P : Platform) (raw : String) : Prop where
  same : Mobile.normalizePlate dart raw = normalizePlate P raw
  app : Mobile.normalizePlate dart (Mobile.normalizePlate dart raw) = Mobile.normalizePlate dart raw
  server : normalizePlate P (normalizePlate P raw) = normalizePlate P raw
  valid : Mobile.isValidPlate dart raw = true ↔ matchesPlate (normalizePlate P raw) = true

/-! ## Characters -/

theorem isUpperASCII_eq (c : Char) : isUpperASCII c = c.isUpper := by
  have hupper : c.isUpper = decide (65 ≤ c.val ∧ c.val ≤ 90) := rfl
  have hascii : isUpperASCII c = (decide (65 ≤ c.val) && decide (c.val ≤ 90)) := rfl
  rw [hupper, hascii, Bool.decide_and]

theorem matchesPlate_eq (s : String) : matchesPlate s = Mobile.matchesPlate s.toList := by
  rw [matchesPlate]
  generalize s.toList = l
  split
  · simp only [Mobile.matchesPlate, isUpperOrDigit, Mobile.isPlateChar, isUpperASCII_eq]
    rfl
  · rename_i hne
    unfold Mobile.matchesPlate
    split
    · exact (hne _ _ _ _ _ _ _ rfl).elim
    · rfl

theorem map_eq_flatMap_iff {α β : Type} {f : α → β} {g : α → List β} (hg : ∀ a, g a ≠ []) (l : List α) :
    l.map f = l.flatMap g ↔ ∀ a ∈ l, g a = [f a] := by
  have hlength (l : List α) : l.length ≤ (l.flatMap g).length := by
    induction l with
    | nil => exact Nat.le_refl 0
    | cons a l ih =>
      have hpos := List.length_pos_iff.mpr (hg a)
      rw [List.flatMap_cons, List.length_append, List.length_cons]
      omega
  induction l with
  | nil => exact iff_of_true rfl nofun
  | cons a l ih =>
    rw [List.map_cons, List.flatMap_cons, List.forall_mem_cons]
    constructor
    · intro h
      obtain ⟨b, rest, hga⟩ := List.exists_cons_of_ne_nil (hg a)
      rw [hga, List.cons_append, List.cons.injEq] at h
      have hrest : rest = [] := by
        have hlen := congrArg List.length h.2
        rw [List.length_append, List.length_map] at hlen
        have := hlength l
        exact List.eq_nil_of_length_eq_zero (by omega)
      rw [hrest, List.nil_append] at h
      exact ⟨by rw [hga, hrest, h.1], ih.mp h.2⟩
    · intro h
      obtain ⟨ha, hl⟩ := h
      rw [ha, ih.mpr hl, List.singleton_append]

/-- A map to non-empty lists that changes nothing of a list changes nothing of a
part of it only when the part is all of it. -/
theorem eq_of_flatMap_part {α : Type} {g : α → List α} (hg : ∀ a, g a ≠ []) {lead part trail : List α}
    (h : (lead ++ (part ++ trail)).flatMap g = part.flatMap g) : lead = [] ∧ trail = [] := by
  rw [List.flatMap_append, List.flatMap_append] at h
  have hlen := congrArg List.length h
  simp only [List.length_append] at hlen
  have hnil (l : List α) (hl : (l.flatMap g).length = 0) : l = [] := by
    cases l with
    | nil => rfl
    | cons a l =>
      rw [List.flatMap_cons, List.length_append] at hl
      exact absurd (List.eq_nil_of_length_eq_zero (by omega)) (hg a)
  exact ⟨hnil lead (by omega), hnil trail (by omega)⟩

/-! ## The two spellings -/

section
variable {dart : Dart} {P : Platform} {upper : Char → List Char}

theorem toList_normalizePlate (raw : String) :
    (normalizePlate P raw).toList = (unseparated raw.toList).map P.toUpper := by
  have hfilter : (raw.toList.filter fun c => c != '-' && c != ' ') = unseparated raw.toList := by
    refine List.filter_congr fun c _ => ?_
    rw [isSeparator, Bool.not_or]
    rfl
  rw [normalizePlate, mapUpper, String.toList_ofList, String.toList_ofList, hfilter]

theorem not_isSeparator {c : Char} (h : isBlank c = false) : isSeparator c = false ∧ isWhitespace c = false := by
  rw [isBlank, Bool.or_eq_false_iff] at h
  exact ⟨h.2, h.1⟩

/-- Upper case neither adds nor takes away a separator. -/
theorem unseparated_flatMap (hu : CaseTables dart P upper) (l : List Char) :
    unseparated (l.flatMap upper) = (unseparated l).flatMap upper := by
  induction l with
  | nil => rfl
  | cons c l ih =>
    rw [unseparated, List.flatMap_cons, List.filter_append]
    by_cases hc : isBlank c = true
    · by_cases hsep : isSeparator c = true
      · rw [(hu.blank c hc).1, unseparated, List.filter_cons_of_neg (by simp [hsep])]
        rw [List.filter_cons_of_neg (by simp [hsep])]
        exact ih
      · rw [(hu.blank c hc).1, unseparated, List.filter_cons_of_pos (by simp [hsep]),
          List.filter_cons_of_pos (by simp [hsep]), List.flatMap_cons, (hu.blank c hc).1]
        exact congrArg (c :: ·) ih
    · have hc : isBlank c = false := by simpa using hc
      have hkeep : (upper c).filter (fun c => !isSeparator c) = upper c := by
        refine List.filter_eq_self.mpr fun u hmem => ?_
        rw [(not_isSeparator ((hu.graphic c hc).1 u hmem)).1]
        rfl
      rw [hkeep, unseparated, List.filter_cons_of_pos (by simp [(not_isSeparator hc).1]), List.flatMap_cons]
      exact congrArg (upper c ++ ·) ih

theorem toList_normalizePlate_app (hu : CaseTables dart P upper) (raw : String) :
    (Mobile.normalizePlate dart raw).toList = (unseparated (trimBoth isWhitespace raw.toList)).flatMap upper := by
  have htrim : (Mobile.trim raw).toList = trimBoth isWhitespace raw.toList := by
    rw [Mobile.toList_trim, Mobile.trimChars_eq]
  have hfilter (l : List Char) : (l.filter (· != '-')).filter (· != ' ') = unseparated l := by
    rw [List.filter_filter]
    refine List.filter_congr fun c _ => ?_
    rw [isSeparator, Bool.not_or, Bool.and_comm]
    rfl
  rw [Mobile.normalizePlate, Mobile.removeAll, Mobile.removeAll, String.toList_ofList, String.toList_ofList,
    hu.toUpperCase, String.toList_ofList, hfilter, htrim, unseparated_flatMap hu]

theorem normalizePlate_again (hu : CaseTables dart P upper) (raw : String) :
    normalizePlate P (normalizePlate P raw) = normalizePlate P raw := by
  rw [← String.toList_inj, toList_normalizePlate, toList_normalizePlate]
  have hkeep : unseparated ((unseparated raw.toList).map P.toUpper) = (unseparated raw.toList).map P.toUpper := by
    refine List.filter_eq_self.mpr fun u hmem => ?_
    obtain ⟨c, hc, rfl⟩ := List.mem_map.mp hmem
    have hsep : isSeparator c = false := by simpa using (List.mem_filter.mp hc).2
    by_cases hblank : isBlank c = true
    · rw [(hu.blank c hblank).2, hsep]
      rfl
    · rw [(not_isSeparator (hu.graphic c (by simpa using hblank)).2).1]
      rfl
  rw [hkeep, List.map_map]
  refine List.map_congr_left fun c _ => ?_
  exact (hu.again c).2

theorem unseparated_unseparated (l : List Char) : unseparated (unseparated l) = unseparated l := by
  simp [unseparated]

/-- Trimming takes only white space away, so it takes none of what is left between
two characters that are no white space. -/
theorem unseparated_trimBoth {l : List Char} (hhead : ∀ c, (unseparated l).head? = some c → isWhitespace c = false)
    (hlast : ∀ c, (unseparated l).getLast? = some c → isWhitespace c = false) :
    unseparated (trimBoth isWhitespace l) = unseparated l := by
  obtain ⟨lead, trail, hsplit, hlead, htrail⟩ := Trimming.trimBoth_split (p := isWhitespace) l
  generalize trimBoth isWhitespace l = part at hsplit
  have happend : unseparated l = unseparated lead ++ (unseparated part ++ unseparated trail) := by
    rw [hsplit, unseparated, List.filter_append, List.filter_append]
    rfl
  have hlead' : unseparated lead = [] := by
    cases hl : unseparated lead with
    | nil => rfl
    | cons c rest =>
      have hc : c ∈ lead := List.mem_of_mem_filter (hl ▸ List.mem_cons_self .. : c ∈ unseparated lead)
      have hgraphic := hhead c (by rw [happend, hl]; rfl)
      rw [hlead c hc] at hgraphic
      cases hgraphic
  have htrail' : unseparated trail = [] := by
    cases hl : (unseparated trail).getLast? with
    | none => exact List.getLast?_eq_none_iff.mp hl
    | some c =>
      have hc : c ∈ trail := List.mem_of_mem_filter (List.mem_of_getLast? hl)
      have hgraphic := hlast c (by rw [happend, List.getLast?_append, List.getLast?_append, hl]; rfl)
      rw [htrail c hc] at hgraphic
      cases hgraphic
  rw [happend, hlead', htrail', List.nil_append, List.append_nil]

theorem trimBoth_flatMap (hu : CaseTables dart P upper) {l : List Char}
    (hhead : ∀ c, (unseparated l).head? = some c → isWhitespace c = false)
    (hlast : ∀ c, (unseparated l).getLast? = some c → isWhitespace c = false) :
    trimBoth isWhitespace ((unseparated l).flatMap upper) = (unseparated l).flatMap upper := by
  have hgraphic (c : Char) (hc : c ∈ unseparated l) (hws : isWhitespace c = false) : ∀ u ∈ upper c,
      isWhitespace u = false := by
    have hsep : isSeparator c = false := by simpa using (List.mem_filter.mp hc).2
    intro u hmem
    exact (not_isSeparator ((hu.graphic c (by rw [isBlank, hws, hsep]; rfl)).1 u hmem)).2
  refine Trimming.trimBoth_self (fun u hfirst => ?_) fun u hfinal => ?_
  · cases hl : unseparated l with
    | nil =>
      rw [hl] at hfirst
      cases hfirst
    | cons c rest =>
      obtain ⟨b, more, hb⟩ := List.exists_cons_of_ne_nil (hu.ne_nil c)
      rw [hl, List.flatMap_cons, hb] at hfirst
      obtain rfl : b = u := Option.some.inj hfirst
      exact hgraphic c (by rw [hl]; exact List.mem_cons_self ..) (hhead c (by rw [hl]; rfl)) b
        (by rw [hb]; exact List.mem_cons_self ..)
  · cases hl : (unseparated l).getLast? with
    | none =>
      rw [List.getLast?_eq_none_iff.mp hl] at hfinal
      cases hfinal
    | some c =>
      obtain ⟨before, hbefore⟩ := List.getLast?_eq_some_iff.mp hl
      rw [hbefore, List.flatMap_append, List.flatMap_singleton, List.getLast?_append] at hfinal
      cases hend : (upper c).getLast? with
      | none => exact absurd (List.getLast?_eq_none_iff.mp hend) (hu.ne_nil c)
      | some b =>
        rw [hend, Option.some_or] at hfinal
        obtain rfl : b = u := Option.some.inj hfinal
        exact hgraphic c (List.mem_of_getLast? hl) (hlast c hl) b (List.mem_of_getLast? hend)

theorem flatMap_again (hu : CaseTables dart P upper) (l : List Char) :
    (l.flatMap upper).flatMap upper = l.flatMap upper := by
  rw [List.flatMap_assoc]
  exact congrArg l.flatMap (funext fun c => (hu.again c).1)

theorem PlainPlate.alike (hu : CaseTables dart P upper) {raw : String} (h : PlainPlate P upper raw) :
    NormalizedAlike dart P raw := by
  have hsame : Mobile.normalizePlate dart raw = normalizePlate P raw := by
    rw [← String.toList_inj, toList_normalizePlate_app hu, unseparated_trimBoth h.head h.last, toList_normalizePlate]
    exact ((map_eq_flatMap_iff hu.ne_nil _).mpr h.upper).symm
  refine ⟨hsame, ?_, normalizePlate_again hu raw, ?_⟩
  · rw [← String.toList_inj, toList_normalizePlate_app hu, toList_normalizePlate_app hu,
      unseparated_trimBoth h.head h.last, trimBoth_flatMap hu h.head h.last, unseparated_flatMap hu,
      unseparated_unseparated, flatMap_again hu]
  · rw [matchesPlate_eq, Mobile.isValidPlate, hsame]

/-- A spelling that the app keeps has no white space at its ends. -/
theorem trimBoth_of_again (hu : CaseTables dart P upper) {raw : String}
    (h : Mobile.normalizePlate dart (Mobile.normalizePlate dart raw) = Mobile.normalizePlate dart raw) :
    trimBoth isWhitespace (Mobile.normalizePlate dart raw).toList = (Mobile.normalizePlate dart raw).toList := by
  rw [← String.toList_inj, toList_normalizePlate_app hu] at h
  have hfixed : (Mobile.normalizePlate dart raw).toList.flatMap upper = (Mobile.normalizePlate dart raw).toList := by
    rw [toList_normalizePlate_app hu, flatMap_again hu]
  have hplain : unseparated (Mobile.normalizePlate dart raw).toList = (Mobile.normalizePlate dart raw).toList := by
    rw [toList_normalizePlate_app hu, unseparated_flatMap hu, unseparated_unseparated]
  generalize (Mobile.normalizePlate dart raw).toList = text at h hfixed hplain
  obtain ⟨lead, trail, hsplit, -, -⟩ := Trimming.trimBoth_split (p := isWhitespace) text
  have hpart : unseparated (trimBoth isWhitespace text) = trimBoth isWhitespace text := by
    refine List.filter_eq_self.mpr fun c hc => ?_
    have hmem : c ∈ text := by
      rw [hsplit]
      exact List.mem_append_right _ (List.mem_append_left _ hc)
    exact List.filter_eq_self.mp hplain c hmem
  rw [hpart] at h
  have hparts : (lead ++ (trimBoth isWhitespace text ++ trail)).flatMap upper =
      (trimBoth isWhitespace text).flatMap upper := by rw [← hsplit, hfixed, h]
  obtain ⟨rfl, rfl⟩ := eq_of_flatMap_part hu.ne_nil hparts
  rw [List.nil_append, List.append_nil] at hsplit
  exact hsplit.symm

theorem NormalizedAlike.plain (hu : CaseTables dart P upper) {raw : String} (h : NormalizedAlike dart P raw) :
    PlainPlate P upper raw := by
  have htrim := trimBoth_of_again hu h.app
  rw [h.same, toList_normalizePlate] at htrim
  obtain ⟨hfirst, hfinal⟩ := Trimming.trimBoth_eq_self_iff.mp htrim
  -- White space is its own upper case, so it would stand at the end of the spelling too.
  have hws (c : Char) (hupper : isWhitespace (P.toUpper c) = false) : isWhitespace c = false := by
    cases hc : isWhitespace c with
    | false => rfl
    | true =>
      have hblank : isBlank c = true := by rw [isBlank, hc, Bool.true_or]
      rw [(hu.blank c hblank).2, hc] at hupper
      cases hupper
  have hhead (c : Char) (hc : (unseparated raw.toList).head? = some c) : isWhitespace c = false :=
    hws c (hfirst _ (by rw [List.head?_map, hc]; rfl))
  have hlast (c : Char) (hc : (unseparated raw.toList).getLast? = some c) : isWhitespace c = false :=
    hws c (hfinal _ (by rw [List.getLast?_map, hc]; rfl))
  refine ⟨hhead, hlast, (map_eq_flatMap_iff hu.ne_nil _).mp ?_⟩
  have hsame := String.toList_inj.mpr h.same
  rw [toList_normalizePlate_app hu, unseparated_trimBoth hhead hlast, toList_normalizePlate] at hsame
  exact hsame.symm

/-- The two sides agree on a plate exactly when no white space is left at its ends
and their case tables agree on it. -/
theorem normalizedAlike_iff (hu : CaseTables dart P upper) (raw : String) :
    NormalizedAlike dart P raw ↔ PlainPlate P upper raw :=
  ⟨fun h => h.plain hu, fun h => h.alike hu⟩

end

/-! ## A tab before a plate -/

theorem toUpper_letter {c : Char} (h : 97 ≤ c.toNat ∧ c.toNat ≤ 122) : c.toUpper.toNat = c.toNat - 32 := by
  have hall : ∀ n < 123, 97 ≤ n → (Char.ofNat n).toUpper.toNat = n - 32 := by decide
  have hc := hall c.toNat (by omega) h.1
  rwa [Char.ofNat_toNat] at hc

theorem isBlank_letter {c : Char} (h : 65 ≤ c.toNat ∧ c.toNat ≤ 122) : isBlank c = false := by
  have hne (d : Char) (hd : d.toNat < 65) : (c == d) = false := by
    refine beq_eq_false_iff_ne.mpr fun hc => ?_
    rw [hc] at h
    omega
  rw [isBlank, Mobile.isWhitespace_graphic ⟨by omega, by omega⟩, Bool.false_or, isSeparator, hne '-' (by decide),
    hne ' ' (by decide), Bool.or_false]

theorem isBlank_toUpper (c : Char) : isBlank c.toUpper = isBlank c := by
  by_cases h : 97 ≤ c.toNat ∧ c.toNat ≤ 122
  · have hupper := toUpper_letter h
    rw [isBlank_letter ⟨by omega, by omega⟩, isBlank_letter ⟨by omega, by omega⟩]
  · rw [toUpper_other h]

theorem toUpper_toUpper (c : Char) : c.toUpper.toUpper = c.toUpper := by
  by_cases h : 97 ≤ c.toNat ∧ c.toNat ≤ 122
  · have hupper := toUpper_letter h
    exact toUpper_other fun hagain => by omega
  · rw [toUpper_other h, toUpper_other h]

theorem toUpper_blank {c : Char} (h : isBlank c = true) : c.toUpper = c := by
  refine toUpper_other fun hletter => ?_
  rw [isBlank_letter ⟨by omega, by omega⟩] at h
  cases h

theorem caseTables_ascii : CaseTables Mobile.sampleDart plain fun c => [c.toUpper] where
  toUpperCase text := congrArg String.ofList List.map_eq_flatMap
  ne_nil c := List.cons_ne_nil _ _
  blank c h := ⟨congrArg (fun u => [u]) (toUpper_blank h), toUpper_blank h⟩
  graphic c h := by
    have hupper : isBlank c.toUpper = false := (isBlank_toUpper c).trans h
    refine ⟨fun u hu => ?_, hupper⟩
    rw [List.mem_singleton.mp hu, hupper]
  again c := ⟨congrArg (fun u => [u]) (toUpper_toUpper c), toUpper_toUpper c⟩

theorem normalizedAlike_iff_tab : NormalizedAlike Mobile.sampleDart plain "\tABC1D23" ↔
    PlainPlate plain (fun c => [c.toUpper]) "\tABC1D23" :=
  normalizedAlike_iff caseTables_ascii "\tABC1D23"

/-- The app takes the plate, the server refuses it. -/
theorem tab_not_normalizedAlike : Mobile.normalizePlate Mobile.sampleDart "\tABC1D23" ≠ normalizePlate plain "\tABC1D23" ∧
    Mobile.isValidPlate Mobile.sampleDart "\tABC1D23" = true ∧
      matchesPlate (normalizePlate plain "\tABC1D23") = false ∧
      ¬ NormalizedAlike Mobile.sampleDart plain "\tABC1D23" := by
  have hne : Mobile.normalizePlate Mobile.sampleDart "\tABC1D23" ≠ normalizePlate plain "\tABC1D23" := by decide +kernel
  exact ⟨hne, by decide +kernel, by decide +kernel, fun h => hne h.same⟩

end Mototeca
