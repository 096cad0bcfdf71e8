import Mathlib.Algebra.Group.Nat.Defs
import Mototeca.DemoBackend
import Mototeca.Loading
import Mototeca.ServerSound
import Mototeca.ToProto

/-!
# The server's tables and the demo's lists

`Mirrors` relates a database to a demo backend that holds the same workshops,
vehicles and records under ids of its own. What the server then answers for a
record is what the demo keeps of it.
-/

namespace Mototeca

open ProtoJson
open Mobile (Json JsonMap DemoBackend DemoRecord DemoVehicle DemoWorkshop)

/-- The demo's ids for the ids of the server. -/
structure Names where
  record : UUID → String
  workshop : UUID → String

def ServiceType.json (t : ServiceType) : Json := enumJson serviceTypeNames (operationToProto ⟨t.label⟩)

def phaseJson (phase : Option String) : Option Json :=
  (nonzero 0 (phaseToProto phase)).map (enumJson photoPhaseNames)

def PartRow.json (p : PartRow) : JsonMap := members (Servicev1.Part.fields ⟨p.name, p.quantity, p.costCents⟩)

def VehicleRow.demo (v : VehicleRow) : DemoVehicle := ⟨v.plate, v.make, v.model, v.year⟩

/-- `r` is the demo's record of `row`. -/
structure SameRecord (n : Names) (d : DB) (row : ServiceRecordRow) (r : DemoRecord) : Prop where
  uuid : validID row.id = true ∧ canonicalID row.id = row.id
  id : r.id = n.record row.id
  plate : ∃ v ∈ d.vehicles, v.id = row.vehicleID ∧ r.plate = v.plate
  workshopId : r.workshopId = n.workshop row.workshopID
  workshopName : ∃ w ∈ d.workshops, w.id = row.workshopID ∧ r.workshopName = w.name
  mechanic : ∀ m, row.mechanicID = some m → d.hasMechanic m = true
  mechanicName : r.mechanicName = (d.mechanicName row.mechanicID).map .string
  operations : r.operations.Perm ((d.operationsOf row.id).map (·.type.json))
  mileageKm : r.mileageKm = row.mileageKm
  mileageKm_fits : DB.fitsInteger row.mileageKm = true
  costCents : r.costCents = row.costCents
  costCents_fits : row.costCents.all DB.fitsInteger = true
  notes : r.notes = row.notes.map .string
  parts : r.parts.Perm ((d.partsOf row.id).map (·.json))
  parts_fit : ∀ p ∈ d.partsOf row.id, DB.fitsInteger p.quantity = true ∧ p.costCents.all DB.fitsInteger = true
  attachments : (r.attachments.map fun a => (a.url, a.kind, a.phase.map Json.string)).Perm
    ((d.attachmentsOf row.id).map fun a => (a.url, a.kind, phaseJson a.phase))
  createdAt : r.createdAt.microsecondsSinceEpoch * 1000 = row.createdAt
  revises : (d.predecessor row.id).map (·.map n.record) = some r.revisesRecordId
  supersededBy : r.supersededByRecordId = row.supersededBy.map n.record

structure Mirrors (n : Names) (d : DB) (s : DemoBackend) : Prop where
  schema : Schema d
  records : ∃ l : List (ServiceRecordRow × DemoRecord), d.serviceRecords.Perm (l.map (·.1)) ∧
    s.records.Perm (l.map (·.2)) ∧ ∀ p ∈ l, SameRecord n d p.1 p.2
  recordNames : (s.records.map (·.id)).Nodup
  sequence : ∀ r ∈ s.records, ∀ k : Nat, r.id = "record-" ++ toString k → k ≤ s.sequence
  vehicles : ∀ plate, s.vehicleByPlate plate = (d.vehicleByPlate plate).map VehicleRow.demo
  years : ∀ v ∈ d.vehicles, DB.fitsInteger v.year = true
  mechanicIDs : (d.mechanics.map (·.id)).Nodup
  workshopIDs : (d.workshops.map (·.id)).Nodup
  workshops : ∀ w ∈ d.workshops, s.workshopById (n.workshop w.id) = .ok ⟨n.workshop w.id, w.name⟩
  workshopNames : (d.workshops.map fun w => n.workshop w.id).Nodup

theorem recordId_inj {j k : Nat} (h : "record-" ++ toString j = "record-" ++ toString k) : j = k := by
  have hlist := congrArg String.toList h
  rw [String.toList_append, String.toList_append] at hlist
  have hdigits : Nat.toDigits 10 j = Nat.toDigits 10 k := by
    rw [← Nat.toList_repr, ← Nat.toList_repr]
    exact List.append_cancel_left hlist
  rw [← Nat.ofDigitChars_ten_toDigits (n := j), hdigits, Nat.ofDigitChars_ten_toDigits]

/-! ## What both answer for a record -/

/-- Both texts are for one id, or there is none. -/
def Named (n : Names) (server demo : Option String) : Prop :=
  ∃ id : Option UUID, server = id.map idText ∧ demo = id.map n.record

/-- The message and the demo's record agree in every field. The vehicle is the
one of the plate, and the ids of attachments are not compared. -/
structure Shows (n : Names) (m : Servicev1.ServiceRecord) (r : DemoRecord) : Prop where
  id : Named n (some m.id) (some r.id)
  vehicle : m.vehicle.plate = r.plate
  workshopName : m.workshopName = r.workshopName
  mechanicName : m.mechanicName.map .string = r.mechanicName
  operations : (m.operations.map (enumJson serviceTypeNames)).Perm r.operations
  mileageKm : m.mileageKm = r.mileageKm
  costCents : m.costCents = r.costCents
  notes : m.notes.map .string = r.notes
  parts : (m.parts.map fun p => members p.fields).Perm r.parts
  attachments : (m.attachments.map fun a => (a.url, a.kind, (nonzero 0 a.phase).map (enumJson photoPhaseNames))).Perm
    (r.attachments.map fun a => (a.url, a.kind, a.phase.map Json.string))
  createdAt : m.createdAt = timestampNew (r.createdAt.microsecondsSinceEpoch * 1000)
  revisesRecordId : Named n m.revisesRecordId r.revisesRecordId
  supersededByRecordId : Named n m.supersededByRecordId r.supersededByRecordId

section
variable {n : Names} {d : DB} {s : DemoBackend} {row : ServiceRecordRow} {r : DemoRecord}

theorem parts_json {parts : List Part} {rows : List PartRow}
    (hperm : parts.Perm (rows.map fun p => ⟨p.name, p.quantity, p.costCents⟩))
    (hfit : ∀ p ∈ rows, DB.fitsInteger p.quantity = true ∧ p.costCents.all DB.fitsInteger = true) :
    (parts.map fun p => members (Servicev1.Part.fields ⟨p.name, int32 p.quantity, int32Ptr p.costCents⟩)).Perm
      (rows.map (·.json)) := by
  refine (hperm.map _).trans ?_
  rw [List.map_map]
  refine .of_eq (List.map_congr_left fun p hp => ?_)
  obtain ⟨hquantity, hcost⟩ := hfit p hp
  show members (Servicev1.Part.fields ⟨p.name, int32 p.quantity, int32Ptr p.costCents⟩) = p.json
  rw [int32_of_fits hquantity, int32Ptr_fits hcost]
  rfl

theorem Mirrors.shows (h : Mirrors n d s) (hsame : SameRecord n d row r) {revises : Option UUID} {record : ServiceRecord}
    (hp : d.predecessor row.id = some revises) (hrecord : Describes d row revises record) :
    Shows n (toProto record) r where
  id := ⟨some row.id, by simp [toProto, hrecord.id], by simp [hsame.id]⟩
  vehicle := by
    obtain ⟨v, hv, hsummary⟩ := hrecord.vehicle
    obtain ⟨v', hv', hid, hplate⟩ := hsame.plate
    obtain ⟨hmem, hvid⟩ := vehicle_some hv
    rw [hplate, h.schema.vehicle_eq hv' hmem (hid.trans hvid.symm)]
    simp [toProto, hsummary, vehicleToProto]
  workshopName := by
    obtain ⟨w, hw, hid, hname⟩ := hrecord.workshopName
    obtain ⟨w', hw', hid', hname'⟩ := hsame.workshopName
    rw [hname', List.inj_on_of_nodup_map h.workshopIDs hw' hw (hid'.trans hid.symm)]
    exact hname
  mechanicName := by rw [hsame.mechanicName, ← hrecord.mechanicName]; rfl
  operations := by
    refine .trans ?_ hsame.operations.symm
    simpa [toProto, ServiceType.json, Function.comp_def] using
      hrecord.operations.map fun op => enumJson serviceTypeNames (operationToProto op)
  mileageKm := by
    rw [hsame.mileageKm, ← hrecord.mileageKm]
    exact int32_of_fits (hrecord.mileageKm ▸ hsame.mileageKm_fits)
  costCents := by
    rw [hsame.costCents, ← hrecord.costCents]
    exact int32Ptr_fits (hrecord.costCents ▸ hsame.costCents_fits)
  notes := by rw [hsame.notes, ← hrecord.notes]; rfl
  parts := by
    refine .trans ?_ hsame.parts.symm
    simpa [toProto, Function.comp_def] using parts_json hrecord.parts hsame.parts_fit
  attachments := by
    refine .trans ?_ hsame.attachments.symm
    simpa [toProto, phaseJson, Function.comp_def] using hrecord.attachments.map fun a =>
      (a.url, a.kind, phaseJson a.phase)
  createdAt := by rw [hsame.createdAt, ← hrecord.createdAt]; rfl
  revisesRecordId := by
    have hnamed := hsame.revises
    rw [hp] at hnamed
    exact ⟨revises, by simp [toProto, hrecord.revisesRecordID], (Option.some.inj hnamed).symm⟩
  supersededByRecordId := ⟨row.supersededBy, by simp [toProto, hrecord.supersededByID], hsame.supersededBy⟩

end

/-! ## Records by their names -/

section
variable {n : Names} {d : DB} {s : DemoBackend}

theorem Mirrors.record_of_row (h : Mirrors n d s) {row : ServiceRecordRow} (hrow : row ∈ d.serviceRecords) :
    ∃ r, s.recordById (n.record row.id) = .ok r ∧ SameRecord n d row r := by
  obtain ⟨l, hrows, hrecords, hsame⟩ := h.records
  obtain ⟨p, hp, rfl⟩ := List.mem_map.mp (hrows.mem_iff.mp hrow)
  have hmem : p.2 ∈ s.records := hrecords.mem_iff.mpr (List.mem_map_of_mem hp)
  have hfind : s.records.find? (·.id == n.record p.1.id) = some p.2 := by
    rw [← (hsame p hp).id]
    exact find?_key_eq_some h.recordNames hmem
  refine ⟨p.2, ?_, hsame p hp⟩
  rw [DemoBackend.recordById, hfind]

theorem Mirrors.name_inj (h : Mirrors n d s) {row row' : ServiceRecordRow} (hrow : row ∈ d.serviceRecords)
    (hrow' : row' ∈ d.serviceRecords) (he : n.record row.id = n.record row'.id) : row = row' := by
  obtain ⟨l, hrows, hrecords, hsame⟩ := h.records
  obtain ⟨p, hp, rfl⟩ := List.mem_map.mp (hrows.mem_iff.mp hrow)
  obtain ⟨q, hq, rfl⟩ := List.mem_map.mp (hrows.mem_iff.mp hrow')
  have hnames : (l.map (·.2.id)).Nodup := by
    have hmap := (hrecords.map (·.id)).nodup_iff.mp h.recordNames
    rwa [List.map_map] at hmap
  have hid : p.2.id = q.2.id := by rw [(hsame p hp).id, (hsame q hq).id, he]
  rw [List.inj_on_of_nodup_map hnames hp hq hid]

end

/-! ## The current records of a bike -/

theorem max?_perm {l l' : List Int} (h : l.Perm l') : l.max? = l'.max? := by
  refine Option.ext fun a => ?_
  rw [List.max?_eq_some_iff, List.max?_eq_some_iff]
  simp only [h.mem_iff]

theorem greatest_eq (l : List Int) : Mobile.greatest l = l.max? := by
  cases l with
  | nil => rfl
  | cons a l =>
    have hmax : (fun a b : Int => if a > b then a else b) = max := by
      funext a b
      omega
    rw [Mobile.greatest, hmax, List.max?_cons']

theorem highest_eq (l : List Int) : DemoBackend.highest l = l.max? := by
  cases l with
  | nil => rfl
  | cons a l =>
    rw [List.max?_cons', DemoBackend.highest, List.foldl_cons]
    induction l generalizing a with
    | nil => rfl
    | cons b l ih =>
      have hmax : max a b = if b > a then b else a := by omega
      rw [List.foldl_cons, List.foldl_cons, hmax]
      by_cases hlt : b > a
      · simpa [hlt] using ih b
      · simpa [hlt] using ih a

section
variable {n : Names} {d : DB} {s : DemoBackend} {v : VehicleRow}

theorem Mirrors.current (h : Mirrors n d s) (hv : v ∈ d.vehicles) : ∃ l : List (ServiceRecordRow × DemoRecord),
    (d.currentRecords v.id).Perm (l.map (·.1)) ∧ (s.currentRecords v.plate).Perm (l.map (·.2)) ∧
      ∀ p ∈ l, SameRecord n d p.1 p.2 := by
  obtain ⟨l, hrows, hrecords, hsame⟩ := h.records
  refine ⟨l.filter fun p => p.1.vehicleID == v.id && p.1.supersededBy.isNone, ?_, ?_, fun p hp =>
    hsame p (List.mem_filter.mp hp).1⟩
  · exact (hrows.filter _).trans (.of_eq List.filter_map)
  · refine (Listing.lists_descending _).perm.trans ((hrecords.filter _).trans (.of_eq ?_))
    rw [List.filter_map]
    refine congrArg _ (List.filter_congr fun p hp => ?_)
    have hp := hsame p hp
    obtain ⟨v', hv', hid, hplate⟩ := hp.plate
    have hbike : (p.2.plate == v.plate) = (p.1.vehicleID == v.id) := by
      rw [hplate, ← hid]
      by_cases he : v' = v
      · simp [he]
      · have hne : v'.plate ≠ v.plate := fun e => he (h.schema.vehicle_eq_of_plate hv' hv e)
        have hne' : v'.id ≠ v.id := fun e => he (h.schema.vehicle_eq hv' hv e)
        simp [hne, hne']
    simp only [Function.comp_apply, hbike, hp.supersededBy, Option.isNone_map]

end

/-! ## A bike with many records -/

def digits : Nat → Nat → Bytes
  | 0, _ => []
  | width + 1, n => digits width (n / 10) ++ [UInt8.ofNat (48 + n % 10)]

def digitsValue (b : Bytes) : Nat := b.foldl (fun n b => 10 * n + (b.toNat - 48)) 0

theorem digits_length (width n : Nat) : (digits width n).length = width := by
  induction width generalizing n with
  | zero => rfl
  | succ width ih => simp [digits, ih]

theorem mem_digits {width n : Nat} {b : UInt8} (h : b ∈ digits width n) : 48 ≤ b ∧ b ≤ 57 := by
  induction width generalizing n with
  | zero => cases h
  | succ width ih =>
    rcases List.mem_append.mp h with h | h
    · exact ih h
    · obtain rfl := List.mem_singleton.mp h
      have hdigit : (UInt8.ofNat (48 + n % 10)).toNat = 48 + n % 10 := by
        rw [UInt8.toNat_ofNat']
        omega
      rw [UInt8.le_iff_toNat_le, UInt8.le_iff_toNat_le, hdigit]
      exact ⟨Nat.le_add_right 48 _, show 48 + n % 10 ≤ 57 by omega⟩

theorem digitsValue_digits (width n : Nat) (h : n < 10 ^ width) : digitsValue (digits width n) = n := by
  induction width generalizing n with
  | zero =>
    obtain rfl : n = 0 := Nat.lt_one_iff.mp h
    rfl
  | succ width ih =>
    have hdiv : n / 10 < 10 ^ width := by
      rw [Nat.div_lt_iff_lt_mul (by decide)]
      rwa [Nat.pow_succ] at h
    have hlast : (UInt8.ofNat (48 + n % 10)).toNat - 48 = n % 10 := by
      have hlt : n % 10 < 10 := Nat.mod_lt n (by decide)
      rw [UInt8.toNat_ofNat']
      omega
    have hrest : digitsValue (digits width (n / 10)) = n / 10 := ih _ hdiv
    rw [digitsValue, digits, List.foldl_append, List.foldl_cons, List.foldl_nil, hlast]
    rw [digitsValue] at hrest
    rw [hrest]
    omega

def serial (n : Nat) : UUID := ascii "00000000-0000-0000-0000-" ++ digits 12 n

theorem validID_serial (n : Nat) : validID (serial n) = true := by
  have hdigits : ((digits 12 n).zipIdx 24).all (fun p => if isHyphenAt p.2 then p.1 == 45 else isHex p.1) = true := by
    refine List.all_eq_true.mpr fun ⟨b, i⟩ hp => ?_
    obtain ⟨hi, -, hb⟩ := List.mem_zipIdx hp
    have hrange : 48 ≤ b ∧ b ≤ 57 := mem_digits (hb ▸ List.getElem_mem _)
    have hhyphen : isHyphenAt i = false := by
      simp only [isHyphenAt, Bool.or_eq_false_iff, beq_eq_false_iff_ne]
      omega
    simp [hhyphen, isHex, hrange.1, hrange.2]
  simp only [validID, serial, List.length_append, digits_length, List.zipIdx_append, List.all_append, Bool.and_eq_true]
  exact ⟨by decide, by decide, hdigits⟩

theorem canonicalID_serial (n : Nat) : canonicalID (serial n) = serial n := by
  have hdigits : (digits 12 n).map (fun b => if 65 ≤ b && b ≤ 70 then b + 32 else b) = digits 12 n := by
    refine (List.map_congr_left fun b hb => ?_).trans (List.map_id _)
    have hlt : ¬ 65 ≤ b := fun h => absurd (UInt8.le_trans h (mem_digits hb).2) (by decide)
    simp [hlt]
  rw [canonicalID, serial, List.map_append, hdigits]
  rfl

def serialNumber (id : UUID) : Nat := digitsValue (id.drop 24)

theorem serialNumber_serial {n : Nat} (h : n < 10 ^ 12) : serialNumber (serial n) = n := digitsValue_digits 12 n h

def longNames : Names := ⟨fun id => "record-" ++ toString (serialNumber id), idText⟩

def longRow (km : Int) (n : Nat) : ServiceRecordRow :=
  ⟨serial n, uuid "3", uuid "1", none, km, none, none, none, 1000 * n⟩

def longRecord (km : Int) (t : ServiceType) (n : Nat) : DemoRecord where
  id := "record-" ++ toString n
  plate := "ABC1D23"
  workshopId := idText (uuid "1")
  workshopName := "Oficina A"
  mechanicName := none
  operations := [t.json]
  mileageKm := km
  costCents := none
  notes := none
  parts := []
  attachments := []
  createdAt := ⟨n, false⟩
  revisesRecordId := none
  supersededByRecordId := none

/-- A bike with one record for each number below `n`, all with one mileage and one operation. -/
def longDB (n : Nat) (km : Int := 0) (t : ServiceType := .other) : DB :=
  { garage.db with
    serviceRecords := (List.range n).map (longRow km)
    operations := (List.range n).map fun i => ⟨serial i, t⟩ }

def longDemo (n : Nat) (km : Int := 0) (t : ServiceType := .other) : DemoBackend where
  workshops := garage.db.workshops.map fun w => ⟨idText w.id, w.name⟩
  vehicles := garage.db.vehicles.map VehicleRow.demo
  records := (List.range n).map (longRecord km t)
  sequence := n

theorem serial_inj {n m : Nat} (hn : n < 10 ^ 12) (hm : m < 10 ^ 12) (h : serial n = serial m) : n = m := by
  rw [← serialNumber_serial hn, h, serialNumber_serial hm]

section
variable {n : Nat} {km : Int} {t : ServiceType} (hn : n ≤ 10 ^ 12)
include hn

theorem long_schema : Schema (longDB n km t) where
  recordIDs := by
    rw [longDB, List.map_map]
    refine List.Nodup.map_on (fun i hi j hj h => ?_) List.nodup_range
    exact serial_inj ((List.mem_range.mp hi).trans_le hn) ((List.mem_range.mp hj).trans_le hn) h
  vehicleIDs := garage.schema.vehicleIDs
  plates := garage.schema.plates
  plateText := garage.schema.plateText
  recordVehicle := by simp [longDB, longRow, garage]
  recordWorkshop := by simp [longDB, longRow, garage, DB.hasWorkshop]
  supersededBy := by simp [longDB, longRow]
  supersededOnce := by simp [longDB, longRow]
  operationRecord := by
    intro o ho
    obtain ⟨i, hi, rfl⟩ := List.mem_map.mp ho
    exact ⟨longRow km i, List.mem_map_of_mem hi, rfl⟩
  partRecord := by simp [longDB, garage]
  attachmentRecord := by simp [longDB, garage]

theorem long_operationsOf {i : Nat} (hi : i < n) : (longDB n km t).operationsOf (serial i) = [⟨serial i, t⟩] := by
  have hone : (List.range n).filter (fun j => serial j == serial i) = [i] := by
    refine List.perm_singleton.mp ((List.perm_ext_iff_of_nodup (List.nodup_range.filter _) (List.nodup_singleton i)).mpr
      fun j => ?_)
    simp only [List.mem_filter, List.mem_range, beq_iff_eq, List.mem_singleton]
    constructor
    · rintro ⟨hj, h⟩
      exact serial_inj (hj.trans_le hn) (hi.trans_le hn) h
    · rintro rfl
      exact ⟨hi, rfl⟩
  rw [DB.operationsOf, longDB, List.filter_map]
  exact congrArg (List.map _) hone

omit hn in
theorem long_predecessor (id : UUID) : (longDB n km t).predecessor id = some none := by
  have hnone : (longDB n km t).serviceRecords.filter (·.supersededBy == some id) = [] := by simp [longDB, longRow]
  rw [DB.predecessor, hnone]
  rfl

theorem long_sameRecord (hkm : DB.fitsInteger km = true) {i : Nat} (hi : i < n) :
    SameRecord longNames (longDB n km t) (longRow km i) (longRecord km t i) where
  uuid := ⟨validID_serial i, canonicalID_serial i⟩
  id := by simp [longRecord, longRow, longNames, serialNumber_serial (hi.trans_le hn)]
  plate := ⟨_, List.mem_cons_self .., rfl, rfl⟩
  workshopId := rfl
  workshopName := ⟨_, List.mem_cons_self .., rfl, rfl⟩
  mechanic := by simp [longRow]
  mechanicName := rfl
  operations := by
    rw [longRow, long_operationsOf hn hi]
    exact .refl _
  mileageKm := rfl
  mileageKm_fits := hkm
  costCents := rfl
  costCents_fits := rfl
  notes := rfl
  parts := .refl _
  parts_fit := by simp [longDB, garage, DB.partsOf]
  attachments := .refl _
  createdAt := Int.mul_comm ..
  revises := by
    rw [long_predecessor (n := n)]
    rfl
  supersededBy := rfl

theorem long_mirrors (hkm : DB.fitsInteger km = true) : Mirrors longNames (longDB n km t) (longDemo n km t) where
  schema := long_schema hn
  records := by
    refine ⟨(List.range n).map fun i => (longRow km i, longRecord km t i), ?_, ?_, ?_⟩
    · rw [List.map_map]
      exact .of_eq rfl
    · rw [List.map_map]
      exact .of_eq rfl
    · intro p hp
      obtain ⟨i, hi, rfl⟩ := List.mem_map.mp hp
      exact long_sameRecord hn hkm (List.mem_range.mp hi)
  recordNames := by
    rw [longDemo, List.map_map]
    exact List.Nodup.map (fun i j h => recordId_inj h) List.nodup_range
  sequence := by
    intro r hr k hk
    obtain ⟨i, hi, rfl⟩ := List.mem_map.mp hr
    rw [← recordId_inj hk]
    exact (List.mem_range.mp hi).le
  vehicles := fun plate => List.find?_map
  years := show ∀ v ∈ garage.db.vehicles, DB.fitsInteger v.year = true by decide
  mechanicIDs := List.nodup_nil
  workshopIDs := show (garage.db.workshops.map (·.id)).Nodup by decide
  workshops := show ∀ w ∈ garage.db.workshops, (longDemo 0).workshopById (longNames.workshop w.id) = _ by decide +kernel
  workshopNames := show (garage.db.workshops.map fun w => longNames.workshop w.id).Nodup by decide +kernel

end

end Mototeca
