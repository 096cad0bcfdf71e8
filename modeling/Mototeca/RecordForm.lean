import Mototeca.Money
import Mototeca.Oficina

/-!
# The form of NewRecordScreen

Its text controllers as the screen opens, and what `_save` makes of them. A
correction opened and saved as it is sends the record's own fields back.
-/

namespace Mototeca.Mobile

/-! ## The controllers -/

structure PartDraft where
  name : String
  quantity : String
  cost : String

def costText (costCents : Option Int) : String := (costCents.map formatCents).getD ""

def PartDraft.empty : PartDraft := ⟨"", "1", ""⟩

def PartDraft.ofPart (part : Part) : PartDraft :=
  ⟨part.name, String.ofList (intText part.quantity), costText part.costCents⟩

def PartDraft.isBlank (draft : PartDraft) : Bool := trim draft.name == ""

/-- `selectedOps` is a set that keeps the order its operations came in; `files`
are the photos and the invoice picked. -/
structure RecordForm where
  plate : String
  mechanic : String
  mileage : String
  cost : String
  notes : String
  parts : List PartDraft
  selectedOps : List ServiceOperation
  vehicle : Option VehicleSummary
  vehicleLabel : String
  revising : Option ServiceRecord
  files : List OutboxAttachment

def RecordForm.opened (initialPlate : Option String) (revising : Option ServiceRecord) : RecordForm where
  plate := (revising.map (·.vehicle.plate)).getD (initialPlate.getD "")
  mechanic := (revising.bind (·.mechanicName)).getD ""
  mileage := (revising.map fun record => String.ofList (intText record.mileageKm)).getD ""
  cost := costText (revising.bind (·.costCents))
  notes := (revising.bind (·.notes)).getD ""
  parts :=
    ((revising.map (·.parts)).getD []).map .ofPart ++
      if (revising.map (·.parts.isEmpty)).getD true then [.empty] else []
  selectedOps := ((revising.map (·.operations)).getD []).eraseDups
  vehicle := revising.map (·.vehicle)
  vehicleLabel := ""
  revising
  files := []

/-! ## _save -/

def readInt (text : String) : Except Thrown Int :=
  match intParse (trim text).toList with
  | some n => .ok n
  | none => .error .formatException

def PartDraft.read (draft : PartDraft) : Except Thrown Part := do
  let quantity ← readInt draft.quantity
  let costCents ← parseCents draft.cost
  return ⟨trim draft.name, quantity, costCents⟩

def RecordForm.collectParts (form : RecordForm) : Except Thrown (List Part) :=
  (form.parts.filter fun draft => !draft.isBlank).mapM PartDraft.read

def RecordForm.read (form : RecordForm) : Except Thrown Draft := do
  let mileage ← readInt form.mileage
  let costCents ← parseCents form.cost
  let parts ← form.collectParts
  return ⟨form.selectedOps, mileage, form.mechanic, costCents, form.notes, parts⟩

def RecordForm.newRecord (form : RecordForm) (draft : Draft) : NewRecord :=
  ⟨form.plate, form.vehicle, form.vehicleLabel, form.revising.map (·.id), draft, form.files⟩

/-- The guards of `_save` that stand before its `int.parse` are in `save`: where
the form is not ready or does not read, nothing is sent. -/
def Oficina.saveForm (dart : Dart) (s : Oficina) (form : RecordForm) (now : DateTime) : Option Oficina :=
  match form.read with
  | .ok draft => s.save dart (form.newRecord draft) now
  | .error _ => none

/-! ## What a record says -/

open ServiceRecordRepository in
/-- The correction that repeats every field of the record. -/
def ServiceRecord.repeated (record : ServiceRecord) (token : Option String) : HttpRequest :=
  ⟨revisePath, token, .json (.map (
    [("recordId", .string record.id), ("operations", .list (record.operations.map fun o => .string o.wire)),
      ("mileageKm", .num (.int record.mileageKm))] ++
    entry "mechanicName" (record.mechanicName.map .string) ++
    entry "costCents" (record.costCents.map fun c => .num (.int c)) ++
    entry "notes" (record.notes.map .string) ++
    if record.parts.isEmpty then [] else [("parts", .list (record.parts.map Part.toJson))]))⟩

/-- A number that the server keeps and an `int` holds. -/
def Counts (least n : Int) : Prop := least ≤ n ∧ n ≤ maxInt

def Plain (text : String) : Prop := text ≠ "" ∧ trim text = text

structure Part.Decoded (part : Part) : Prop where
  name : Plain part.name
  quantity : Counts 1 part.quantity
  costCents : ∀ cents, part.costCents = some cents → Counts 0 cents

structure ServiceRecord.Decoded (record : ServiceRecord) : Prop where
  operations : record.operations.Nodup
  mileageKm : Counts 0 record.mileageKm
  costCents : ∀ cents, record.costCents = some cents → Counts 0 cents
  mechanicName : ∀ name, record.mechanicName = some name → Plain name
  notes : ∀ notes, record.notes = some notes → Plain notes
  parts : ∀ part ∈ record.parts, part.Decoded

/-! ## Printed and read back -/

theorem readInt_intText {n : Int} (h : Counts 0 n) : readInt (String.ofList (intText n)) = .ok n := by
  obtain ⟨k, rfl⟩ := Int.eq_ofNat_of_zero_le h.1
  have hdigits : trimChars (intText (k : Int)) = intText k := by
    rw [intText_natCast]
    exact trimChars_digits fun _ hc => isDigit_of_mem hc
  simp [readInt, toList_trim, hdigits, intParse_intText h.2]

theorem parseCents_costText {costCents : Option Int} (h : ∀ cents, costCents = some cents → Counts 0 cents) :
    parseCents (costText costCents) = .ok costCents := by
  cases costCents with
  | none => rfl
  | some cents =>
    obtain ⟨k, rfl⟩ := Int.eq_ofNat_of_zero_le (h cents rfl).1
    exact parseCents_formatCents (h _ rfl).2

theorem counts_zero {n : Int} (h : Counts 1 n) : Counts 0 n := by
  have hle := h.1
  exact ⟨by omega, h.2⟩

theorem not_isBlank_ofPart {part : Part} (h : part.Decoded) : (PartDraft.ofPart part).isBlank = false := by
  simp [PartDraft.isBlank, PartDraft.ofPart, h.name.2, h.name.1]

theorem read_ofPart {part : Part} (h : part.Decoded) : (PartDraft.ofPart part).read = .ok part := by
  simp only [PartDraft.read, PartDraft.ofPart, readInt_intText (counts_zero h.quantity), parseCents_costText h.costCents,
    h.name.2]
  rfl

theorem mapM_read {parts : List Part} (h : ∀ part ∈ parts, part.Decoded) :
    (parts.map PartDraft.ofPart).mapM PartDraft.read = .ok parts := by
  induction parts with
  | nil => rfl
  | cons part parts ih =>
    rw [List.map_cons, List.mapM_cons, read_ofPart (h part (by simp)),
      ih fun part' hpart' => h part' (List.mem_cons_of_mem _ hpart')]
    rfl

theorem filter_ofPart {parts : List Part} (h : ∀ part ∈ parts, part.Decoded) :
    (parts.map PartDraft.ofPart).filter (fun draft => !draft.isBlank) = parts.map PartDraft.ofPart := by
  refine List.filter_eq_self.mpr fun draft hdraft => ?_
  obtain ⟨part, hpart, rfl⟩ := List.mem_map.mp hdraft
  rw [not_isBlank_ofPart (h part hpart)]
  rfl

section
variable {record : ServiceRecord} (initialPlate : Option String)

/-- The row added to a record without parts is blank, so `_collectParts` drops it. -/
theorem collectParts_opened (h : ∀ part ∈ record.parts, part.Decoded) :
    (RecordForm.opened initialPlate (some record)).collectParts = .ok record.parts := by
  cases hparts : record.parts with
  | nil => simp [RecordForm.collectParts, RecordForm.opened, hparts]; rfl
  | cons part parts =>
    rw [hparts] at h
    have hform : (RecordForm.opened initialPlate (some record)).parts = (part :: parts).map .ofPart := by
      simp [RecordForm.opened, hparts]
    rw [RecordForm.collectParts, hform, filter_ofPart h, mapM_read h]

theorem eraseDups_of_nodup {l : List ServiceOperation} (h : l.Nodup) : l.eraseDups = l := by
  induction l with
  | nil => rfl
  | cons o l ih =>
    rw [List.nodup_cons] at h
    have hfilter : l.filter (fun o' => !o' == o) = l := by
      refine List.filter_eq_self.mpr fun o' ho' => ?_
      have hne : o' ≠ o := by
        rintro rfl
        exact h.1 ho'
      simp [hne]
    rw [List.eraseDups_cons, hfilter, ih h.2]

theorem read_opened (h : record.Decoded) :
    (RecordForm.opened initialPlate (some record)).read =
      .ok ⟨record.operations, record.mileageKm, record.mechanicName.getD "", record.costCents,
        record.notes.getD "", record.parts⟩ := by
  have hmileage := readInt_intText h.mileageKm
  have hcost := parseCents_costText h.costCents
  have hparts := collectParts_opened initialPlate h.parts
  have hops := eraseDups_of_nodup h.operations
  unfold RecordForm.read
  rw [hparts]
  simp only [RecordForm.opened, Option.map_some, Option.getD_some, Option.bind_some, hmileage, hcost, hops]
  rfl

end

open ServiceRecordRepository

theorem textEntry_getD {key : String} {text : Option String} (h : ∀ t, text = some t → Plain t) :
    textEntry key (some (text.getD "")) = entry key (text.map .string) := by
  cases text with
  | none => simp [textEntry, Option.filter, trim]
  | some t => simp [textEntry, Option.filter, (h t rfl).1, (h t rfl).2]

theorem revise_repeated {record : ServiceRecord} (h : record.Decoded) (token : Option String) :
    revise token record.id ⟨record.operations, record.mileageKm, some (record.mechanicName.getD ""),
      record.costCents, some (record.notes.getD ""), record.parts⟩ = record.repeated token := by
  simp [revise, ServiceRecord.repeated, Fields.toJson, textEntry_getD h.mechanicName, textEntry_getD h.notes]

/-- A correction opened and saved as it is sends what the record says. -/
theorem untouched_correction {dart : Dart} {s : Oficina} {record : ServiceRecord} (h : record.Decoded)
    (hoperations : record.operations ≠ []) (hsession : s.session ≠ none) (initialPlate : Option String)
    (now : DateTime) :
    (s.saveForm dart (.opened initialPlate (some record)) now).map (·.requests) =
      some (s.requests ++ [⟨.screen s.saves.length, record.repeated s.session⟩]) := by
  have hnone : s.session.isNone = false := by simpa [Option.isSome_iff_ne_none] using hsession
  have hempty : record.operations.isEmpty = false := by simpa using hoperations
  rw [Oficina.saveForm, read_opened initialPlate h, ← revise_repeated h]
  simp [Oficina.save, RecordForm.newRecord, RecordForm.opened, NewRecord.formReady, hnone, hempty,
    Oficina.startSave, Oficina.sendRequest, Draft.fields]

/-! ## A record -/

def publishedRecord : ServiceRecord where
  id := "7f1c"
  vehicle := ⟨"ABC1D23", "Honda", "CG 160", 2021⟩
  workshopName := "Moto Center BH"
  mechanicName := some "Davi"
  operations := [.oilChange, .brakes]
  mileageKm := 12000
  costCents := some 124550
  notes := none
  parts := [⟨"Filtro", 2, some 990⟩, ⟨"Pastilha", 1, none⟩]
  attachments := []
  createdAt := sampleNow
  revisesRecordId := none
  supersededByRecordId := none

def shopSignedIn : Oficina := { Oficina.init with session := some "token" }

theorem counts_of_le {least n : Int} (h : least ≤ n) (hmax : n ≤ 1000000) : Counts least n := by
  refine ⟨h, ?_⟩
  unfold maxInt
  omega

theorem publishedRecord_decoded : publishedRecord.Decoded where
  operations := by decide
  mileageKm := counts_of_le (by decide) (by decide)
  costCents := by
    rintro cents ⟨⟩
    exact counts_of_le (by decide) (by decide)
  mechanicName := by
    rintro name ⟨⟩
    exact ⟨by decide, by decide⟩
  notes := by
    intro notes h
    cases h
  parts := by
    intro part hpart
    simp only [publishedRecord, List.mem_cons, List.not_mem_nil, or_false] at hpart
    rcases hpart with rfl | rfl
    · refine ⟨⟨by decide, by decide⟩, counts_of_le (by decide) (by decide), ?_⟩
      rintro cents ⟨⟩
      exact counts_of_le (by decide) (by decide)
    · exact ⟨⟨by decide, by decide⟩, counts_of_le (by decide) (by decide), by simp⟩

theorem publishedRecord_untouched :
    (shopSignedIn.saveForm sampleDart (.opened none (some publishedRecord)) sampleNow).map (·.requests) =
      some [⟨.screen 0, publishedRecord.repeated (some "token")⟩] :=
  untouched_correction publishedRecord_decoded (by decide) (by decide) none sampleNow

/-- Without operations `_save` asks for one; signed out it queues a new record. -/
theorem correction_not_sent :
    ({ publishedRecord with operations := [] } : ServiceRecord).Decoded ∧
      shopSignedIn.saveForm sampleDart (.opened none (some { publishedRecord with operations := [] })) sampleNow = none ∧
      publishedRecord.Decoded ∧
      (Oficina.init.saveForm sampleDart (.opened none (some publishedRecord)) sampleNow).map (·.requests) = some [] := by
  have hempty : ({ publishedRecord with operations := [] } : ServiceRecord).Decoded :=
    { publishedRecord_decoded with operations := List.nodup_nil }
  refine ⟨hempty, ?_, publishedRecord_decoded, ?_⟩
  · rw [Oficina.saveForm, read_opened none hempty]
    rfl
  · rw [Oficina.saveForm, read_opened none publishedRecord_decoded]
    rfl

end Mototeca.Mobile
