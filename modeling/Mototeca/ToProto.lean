import Mototeca.ApiClient
import Mototeca.ProtoJson
import Mototeca.Tokens

/-!
# A service record on the wire

`ToProto` turns a record into its message, the proto3 JSON mapping writes the
message, and the app's `ServiceRecord.fromJson` reads the object by hand. The
app gets every field back for every record that the server can store.
-/

namespace Mototeca

open ProtoJson
open Mobile (Json JsonMap Thrown Dart asString asInt asMap asList)

/-! ## The messages -/

namespace Servicev1

structure VehicleSummary where
  plate : String
  make : String
  model : String
  year : Int
  deriving DecidableEq

structure Part where
  name : String
  quantity : Int
  costCents : Option Int
  deriving DecidableEq

structure Attachment where
  id : String
  url : String
  kind : String
  phase : Int
  deriving DecidableEq

structure Timestamp where
  seconds : Int
  nanos : Int
  deriving DecidableEq

/-- The vehicle and the creation time are always set. -/
structure ServiceRecord where
  id : String
  vehicle : VehicleSummary
  workshopName : String
  mechanicName : Option String
  operations : List Int
  mileageKm : Int
  costCents : Option Int
  notes : Option String
  parts : List Part
  attachments : List Attachment
  createdAt : Timestamp
  revisesRecordId : Option String
  supersededByRecordId : Option String
  deriving DecidableEq

end Servicev1

/-! ## ToProto -/

/-- The conversion of a Go `int` to `int32`. -/
def int32 (n : Int) : Int := (n + 2147483648) % 4294967296 - 2147483648

def int32Ptr (v : Option Int) : Option Int := v.map int32

/-- An id as a Go string of its ASCII bytes. -/
def idText (id : UUID) : String := String.ofList (id.map fun b => Char.ofNat b.toNat)

def vehicleToProto (v : VehicleSummary) : Servicev1.VehicleSummary := ⟨v.plate, v.make, v.model, int32 v.year⟩

def phaseToProto : Option String → Int
  | none => 0
  | some "before" => 1
  | some "after" => 2
  | some _ => 0

/-- An operation that is not in the table gives the zero value. -/
def operationToProto (op : Operation) : Int := ((operationProtoPairs.find? (·.1 == op)).map (·.2)).getD 0

/-- `timestamppb.New`. -/
def timestampNew (t : Time) : Servicev1.Timestamp := ⟨t / second, t % second⟩

def toProto (r : ServiceRecord) : Servicev1.ServiceRecord where
  id := idText r.id
  vehicle := vehicleToProto r.vehicle
  workshopName := r.workshopName
  mechanicName := r.mechanicName
  operations := r.operations.map operationToProto
  mileageKm := int32 r.mileageKm
  costCents := int32Ptr r.costCents
  notes := r.notes
  parts := r.parts.map fun p => ⟨p.name, int32 p.quantity, int32Ptr p.costCents⟩
  attachments := r.attachments.map fun a => ⟨idText a.id, a.url, a.kind, phaseToProto a.phase⟩
  createdAt := timestampNew r.createdAt
  revisesRecordId := r.revisesRecordID.map idText
  supersededByRecordId := r.supersededByID.map idText

/-! ## The proto3 JSON mapping -/

def pad (width : Nat) (n : Int) : String :=
  let digits := (Nat.repr n.toNat).toList
  String.ofList (List.replicate (width - digits.length) '0' ++ digits)

/-- The proleptic Gregorian date of a day counted from 1970-01-01. -/
def civil (day : Int) : Int × Int × Int :=
  let era := (day + 719468) / 146097
  let doe := (day + 719468) % 146097
  let yoe := (doe - doe / 1460 + doe / 36524 - doe / 146096) / 365
  let doy := doe - (365 * yoe + yoe / 4 - yoe / 100)
  let mp := (5 * doy + 2) / 153
  let month := if mp < 10 then mp + 3 else mp - 9
  (yoe + era * 400 + (if month ≤ 2 then 1 else 0), month, doy - (153 * mp + 2) / 5 + 1)

/-- Three, six or nine digits, or none. -/
def fraction (nanos : Int) : String :=
  if nanos = 0 then ""
  else if nanos % 1000000 = 0 then "." ++ pad 3 (nanos / 1000000)
  else if nanos % 1000 = 0 then "." ++ pad 6 (nanos / 1000)
  else "." ++ pad 9 nanos

/-- RFC 3339 in UTC, of the years 1 to 9999. -/
def timestampText (ts : Servicev1.Timestamp) : Option String :=
  if ts.seconds < -62135596800 ∨ 253402300799 < ts.seconds then none
  else
    let (year, month, day) := civil (ts.seconds / 86400)
    let clock := ts.seconds % 86400
    some (pad 4 year ++ "-" ++ pad 2 month ++ "-" ++ pad 2 day ++ "T" ++ pad 2 (clock / 3600) ++ ":" ++
      pad 2 (clock / 60 % 60) ++ ":" ++ pad 2 (clock % 60) ++ fraction ts.nanos ++ "Z")

example : timestampText ⟨1772600767, 89000000⟩ = some "2026-03-04T05:06:07.089Z" := by decide +kernel

/-- The name of an enum value, or its number where it has none. -/
def enumJson (names : List (Int × String)) (n : Int) : Json :=
  match names.find? (·.1 == n) with
  | some p => .string p.2
  | none => .num (.int n)

def serviceTypeNames : List (Int × String) :=
  [(0, "SERVICE_TYPE_UNSPECIFIED"), (1, "SERVICE_TYPE_OIL_CHANGE"), (2, "SERVICE_TYPE_SCHEDULED_REVIEW"),
    (3, "SERVICE_TYPE_BRAKES"), (4, "SERVICE_TYPE_CHAIN_AND_SPROCKET"), (5, "SERVICE_TYPE_TIRES"),
    (6, "SERVICE_TYPE_ELECTRICAL"), (7, "SERVICE_TYPE_SPARK_PLUGS"), (8, "SERVICE_TYPE_SUSPENSION"),
    (9, "SERVICE_TYPE_CLUTCH"), (10, "SERVICE_TYPE_FUEL_INJECTION"), (11, "SERVICE_TYPE_BODYWORK"),
    (12, "SERVICE_TYPE_OTHER")]

def photoPhaseNames : List (Int × String) :=
  [(0, "PHOTO_PHASE_UNSPECIFIED"), (1, "PHOTO_PHASE_BEFORE"), (2, "PHOTO_PHASE_AFTER")]

def integer (n : Int) : Json := .num (.int n)

def object (fields : List (String × Option Json)) : Json := .map (members fields)

def repeated {α : Type} [DecidableEq α] (encode : α → Json) (l : List α) : Option Json :=
  (nonzero [] l).map fun l => .list (l.map encode)

namespace Servicev1

def VehicleSummary.fields (v : VehicleSummary) : List (String × Option Json) :=
  [("plate", (nonzero "" v.plate).map .string), ("make", (nonzero "" v.make).map .string),
    ("model", (nonzero "" v.model).map .string), ("year", (nonzero 0 v.year).map integer)]

def Part.fields (p : Part) : List (String × Option Json) :=
  [("name", (nonzero "" p.name).map .string), ("quantity", (nonzero 0 p.quantity).map integer),
    ("costCents", p.costCents.map integer)]

def Attachment.fields (a : Attachment) : List (String × Option Json) :=
  [("id", (nonzero "" a.id).map .string), ("url", (nonzero "" a.url).map .string),
    ("kind", (nonzero "" a.kind).map .string), ("phase", (nonzero 0 a.phase).map (enumJson photoPhaseNames))]

def ServiceRecord.fields (r : ServiceRecord) (createdAt : String) : List (String × Option Json) :=
  [("id", (nonzero "" r.id).map .string), ("vehicle", some (object r.vehicle.fields)),
    ("workshopName", (nonzero "" r.workshopName).map .string), ("mechanicName", r.mechanicName.map .string),
    ("operations", repeated (enumJson serviceTypeNames) r.operations),
    ("mileageKm", (nonzero 0 r.mileageKm).map integer), ("costCents", r.costCents.map integer),
    ("notes", r.notes.map .string), ("parts", repeated (fun p => object p.fields) r.parts),
    ("attachments", repeated (fun a => object a.fields) r.attachments), ("createdAt", some (.string createdAt)),
    ("revisesRecordId", r.revisesRecordId.map .string), ("supersededByRecordId", r.supersededByRecordId.map .string)]

/-- `protojson.Marshal`, which refuses a timestamp out of range. -/
def ServiceRecord.marshal (r : ServiceRecord) : Option JsonMap :=
  (timestampText r.createdAt).map fun createdAt => members (r.fields createdAt)

end Servicev1

/-! ## What the app reads -/

@[simp] theorem asString_map (x : Option String) : asString (x.map .string) = .ok x := by
  cases x <;> rfl

@[simp] theorem asInt_map (x : Option Int) : asInt (x.map integer) = .ok x := by
  cases x <;> rfl

theorem asMap_object (fields : List (String × Option Json)) :
    asMap (some (object fields)) = .ok (some (members fields)) := rfl

theorem asList_repeated {α : Type} [DecidableEq α] (encode : α → Json) (l : List α) :
    ∃ raw, asList (repeated encode l) = .ok raw ∧ raw.getD [] = l.map encode := by
  unfold repeated nonzero
  split
  · rename_i h
    exact ⟨none, rfl, by rw [h]; rfl⟩
  · exact ⟨some (l.map encode), rfl, rfl⟩

theorem eachMap_objects {α β : Type} {f : JsonMap → Except Thrown β} {fields : α → List (String × Option Json)}
    {back : α → β} {l : List α} {raw : Option (List Json)} (hraw : raw.getD [] = l.map fun a => object (fields a))
    (h : ∀ a ∈ l, f (members (fields a)) = .ok (back a)) : Mobile.eachMap f raw = .ok (l.map back) := by
  rw [Mobile.eachMap, hraw]
  exact mapM_encoded h

section
variable (v : Servicev1.VehicleSummary) (p : Servicev1.Part) (a : Servicev1.Attachment)

theorem vehicleFromJson :
    Mobile.VehicleSummary.fromJson (members v.fields) = .ok ⟨v.plate, v.make, v.model, v.year⟩ := by
  have hkeys : (v.fields.map (·.1)).Nodup := by simp [Servicev1.VehicleSummary.fields]
  unfold Mobile.VehicleSummary.fromJson
  rw [lookup_members hkeys "plate" rfl, lookup_members hkeys "make" rfl, lookup_members hkeys "model" rfl,
    lookup_members hkeys "year" rfl]
  simp only [asString_map, asInt_map, bind, Except.bind, getD_nonzero]
  rfl

variable {p a}

theorem partFromJson (hquantity : p.quantity ≠ 0) :
    Mobile.Part.fromJson (members p.fields) = .ok ⟨p.name, p.quantity, p.costCents⟩ := by
  have hkeys : (p.fields.map (·.1)).Nodup := by simp [Servicev1.Part.fields]
  unfold Mobile.Part.fromJson
  rw [lookup_members hkeys "name" rfl, lookup_members hkeys "quantity" rfl, lookup_members hkeys "costCents" rfl,
    nonzero_of_ne hquantity]
  simp only [asString_map, asInt_map, bind, Except.bind, getD_nonzero]
  rfl

theorem attachmentFromJson (hkind : a.kind ≠ "") {phase : Option String}
    (hphase : asString ((nonzero 0 a.phase).map (enumJson photoPhaseNames)) = .ok phase) :
    Mobile.Attachment.fromJson (members a.fields) = .ok ⟨a.id, a.url, a.kind, phase⟩ := by
  have hkeys : (a.fields.map (·.1)).Nodup := by simp [Servicev1.Attachment.fields]
  unfold Mobile.Attachment.fromJson
  rw [lookup_members hkeys "id" rfl, lookup_members hkeys "url" rfl, lookup_members hkeys "kind" rfl,
    lookup_members hkeys "phase" rfl, hphase, nonzero_of_ne hkind]
  simp only [asString_map, bind, Except.bind, getD_nonzero]
  rfl

end

/-! ## The same record -/

/-- The operation that an entry of the app's list stands for. -/
def operationOf : Mobile.ServiceOperation → Operation
  | .oilChange => .oilChange
  | .scheduledReview => .scheduledReview
  | .brakes => .brakes
  | .chainAndSprocket => .chainAndSprocket
  | .tires => .tires
  | .electrical => .electrical
  | .sparkPlugs => .sparkPlugs
  | .suspension => .suspension
  | .clutch => .clutch
  | .fuelInjection => .fuelInjection
  | .bodywork => .bodywork
  | .other => .other

/-- The app's name of a stored phase. -/
def phaseName (phase : String) : String := if phase = "before" then "PHOTO_PHASE_BEFORE" else "PHOTO_PHASE_AFTER"

structure Agrees (r : ServiceRecord) (m : Mobile.ServiceRecord) : Prop where
  id : m.id = idText r.id
  vehicle : m.vehicle = ⟨r.vehicle.plate, r.vehicle.make, r.vehicle.model, r.vehicle.year⟩
  workshopName : m.workshopName = r.workshopName
  mechanicName : m.mechanicName = r.mechanicName
  operations : m.operations.map operationOf = r.operations
  mileageKm : m.mileageKm = r.mileageKm
  costCents : m.costCents = r.costCents
  notes : m.notes = r.notes
  parts : m.parts = r.parts.map fun p => ⟨p.name, p.quantity, p.costCents⟩
  attachments : m.attachments = r.attachments.map fun a => ⟨idText a.id, a.url, a.kind, a.phase.map phaseName⟩
  createdAt : m.createdAt.microsecondsSinceEpoch * 1000 = r.createdAt ∧ m.createdAt.isUtc = true
  revisesRecordId : m.revisesRecordId = r.revisesRecordID.map idText
  supersededByRecordId : m.supersededByRecordId = r.supersededByID.map idText

/-- A record that the server can store: `Validate` and the columns bound it. -/
structure StoredRecord extends ServiceRecord where
  operations_valid : ∀ op ∈ operations, op.valid = true
  mileageKm_range : 0 ≤ mileageKm ∧ mileageKm ≤ maxMileageKm
  costCents_range : badCost costCents = false
  parts_range : ∀ p ∈ parts, (1 ≤ p.quantity ∧ p.quantity ≤ maxPartQty) ∧ badCost p.costCents = false
  attachments_kind : ∀ a ∈ attachments, a.kind = "photo" ∨ a.kind = "invoice"
  attachments_phase : ∀ a ∈ attachments, a.phase = none ∨ a.phase = some "before" ∨ a.phase = some "after"
  year_range : DB.fitsInteger vehicle.year = true
  createdAt_micros : createdAt % 1000 = 0
  createdAt_range : (timestampText (timestampNew createdAt)).isSome = true

/-- `DateTime.tryParse` reads the RFC 3339 text of a time of whole microseconds. -/
def ParsesUtc (dart : Dart) (t : Time) : Prop :=
  ∀ text ∈ timestampText (timestampNew t), dart.tryParse text = some ⟨t / 1000, true⟩

theorem int32_of_fits {n : Int} (h : DB.fitsInteger n = true) : int32 n = n := by
  simp only [DB.fitsInteger, Bool.and_eq_true, decide_eq_true_eq] at h
  unfold int32
  omega

theorem int32_of_range {n m : Int} (h : 0 ≤ n ∧ n ≤ m) (hm : m ≤ 2147483647) : int32 n = n := by
  unfold int32
  omega

theorem int32Ptr_fits {cost : Option Int} (h : cost.all DB.fitsInteger = true) : int32Ptr cost = cost := by
  cases cost with
  | none => rfl
  | some c => exact congrArg some (int32_of_fits h)

theorem int32Ptr_cost {cost : Option Int} (h : badCost cost = false) : int32Ptr cost = cost := by
  cases cost with
  | none => rfl
  | some c =>
    have hc : 0 ≤ c ∧ c ≤ 100000000 := by simpa [badCost, maxCostCents] using h
    rw [int32Ptr, Option.map_some, int32_of_range hc (by decide)]

theorem phase_wire {phase : Option String} (h : phase = none ∨ phase = some "before" ∨ phase = some "after") :
    asString ((nonzero 0 (phaseToProto phase)).map (enumJson photoPhaseNames)) = .ok (phase.map phaseName) := by
  rcases h with rfl | rfl | rfl <;> rfl

/-- The entry of the app's list for an operation. -/
def entryOf (op : Operation) : Option Mobile.ServiceOperation :=
  Mobile.ServiceOperation.values.find? fun x => operationOf x == op

theorem operation_wire {op : Operation} (h : op.valid = true) :
    (asString (some (enumJson serviceTypeNames (operationToProto op)))).map Mobile.ServiceOperation.fromWire =
        .ok (entryOf op) ∧
      (entryOf op).map operationOf = some op := by
  have hmem : op ∈ Operation.validOperations := by simpa [Operation.valid] using h
  simp only [Operation.validOperations, List.mem_cons, List.not_mem_nil, or_false] at hmem
  rcases hmem with rfl | rfl | rfl | rfl | rfl | rfl | rfl | rfl | rfl | rfl | rfl | rfl <;> exact ⟨rfl, rfl⟩

theorem listFromWire_operations {ops : List Operation} (h : ∀ op ∈ ops, op.valid = true) {raw : Option (List Json)}
    (hraw : raw.getD [] = (ops.map operationToProto).map (enumJson serviceTypeNames)) :
    ∃ entries, Mobile.ServiceOperation.listFromWire raw = .ok entries ∧ entries.map operationOf = ops := by
  have hentries : (((ops.map operationToProto).map (enumJson serviceTypeNames)).mapM fun value =>
      (asString (some value)).map Mobile.ServiceOperation.fromWire) = .ok (ops.map entryOf) := by
    rw [List.map_map]
    exact mapM_encoded fun op hop => (operation_wire (h op hop)).1
  refine ⟨ops.filterMap entryOf, ?_, ?_⟩
  · rw [Mobile.ServiceOperation.listFromWire, hraw, hentries]
    simp only [bind, Except.bind, pure, Except.pure, List.filterMap_map, Function.id_comp]
  · rw [List.map_filterMap]
    calc ops.filterMap (fun op => (entryOf op).map operationOf)
        = ops.filterMap some := List.filterMap_congr fun op hop => (operation_wire (h op hop)).2
      _ = ops := List.filterMap_some

/-! ## The round trip -/

section
variable (r : StoredRecord)

theorem parts_wire {raw : Option (List Json)}
    (hraw : raw.getD [] = (toProto r.toServiceRecord).parts.map fun p => object p.fields) :
    Mobile.eachMap Mobile.Part.fromJson raw = .ok (r.parts.map fun p => ⟨p.name, p.quantity, p.costCents⟩) := by
  have hsame : (toProto r.toServiceRecord).parts = r.parts.map fun p => ⟨p.name, p.quantity, p.costCents⟩ :=
    List.map_congr_left fun p hp => by
      obtain ⟨hquantity, hcost⟩ := r.parts_range p hp
      have hle : 0 ≤ p.quantity ∧ p.quantity ≤ 1000 := ⟨by omega, hquantity.2⟩
      rw [int32_of_range hle (by decide), int32Ptr_cost hcost]
  rw [hsame, List.map_map] at hraw
  refine eachMap_objects hraw fun p hp => partFromJson ?_
  have := (r.parts_range p hp).1
  show p.quantity ≠ 0
  omega

theorem attachments_wire {raw : Option (List Json)}
    (hraw : raw.getD [] = (toProto r.toServiceRecord).attachments.map fun a => object a.fields) :
    Mobile.eachMap Mobile.Attachment.fromJson raw =
      .ok (r.attachments.map fun a => ⟨idText a.id, a.url, a.kind, a.phase.map phaseName⟩) := by
  have hfields : (toProto r.toServiceRecord).attachments.map (fun a => object a.fields) =
      r.attachments.map fun a =>
        object (⟨idText a.id, a.url, a.kind, phaseToProto a.phase⟩ : Servicev1.Attachment).fields :=
    List.map_map
  refine eachMap_objects (hraw.trans hfields) fun a ha => attachmentFromJson ?_ (phase_wire (r.attachments_phase a ha))
  rcases r.attachments_kind a ha with h | h
  · simp [h]
  · simp [h]

/-- The app reads back every field of a stored record. -/
theorem fromJson_toProto (dart : Dart) (now : Mobile.DateTime) (hparse : ParsesUtc dart r.createdAt) :
    ∃ json m, (toProto r.toServiceRecord).marshal = some json ∧ Mobile.ServiceRecord.fromJson dart now json = .ok m ∧
      Agrees r.toServiceRecord m := by
  obtain ⟨text, htext⟩ := Option.isSome_iff_exists.mp r.createdAt_range
  have hkeys : (((toProto r.toServiceRecord).fields text).map (·.1)).Nodup := by simp [Servicev1.ServiceRecord.fields]
  have hmileage : int32 r.mileageKm = r.mileageKm := int32_of_range r.mileageKm_range (by decide)
  have hyear : int32 r.vehicle.year = r.vehicle.year := int32_of_fits r.year_range
  have hcost : int32Ptr r.costCents = r.costCents := int32Ptr_cost r.costCents_range
  obtain ⟨rawOperations, hasOperations, hrawOperations⟩ :=
    asList_repeated (enumJson serviceTypeNames) (toProto r.toServiceRecord).operations
  obtain ⟨entries, hentries, hoperations⟩ := listFromWire_operations r.operations_valid hrawOperations
  obtain ⟨rawParts, hasParts, hrawParts⟩ :=
    asList_repeated (fun p : Servicev1.Part => object p.fields) (toProto r.toServiceRecord).parts
  obtain ⟨rawAttachments, hasAttachments, hrawAttachments⟩ :=
    asList_repeated (fun a : Servicev1.Attachment => object a.fields) (toProto r.toServiceRecord).attachments
  refine ⟨members ((toProto r.toServiceRecord).fields text), {
    id := idText r.id
    vehicle := ⟨r.vehicle.plate, r.vehicle.make, r.vehicle.model, r.vehicle.year⟩
    workshopName := r.workshopName
    mechanicName := r.mechanicName
    operations := entries
    mileageKm := r.mileageKm
    costCents := r.costCents
    notes := r.notes
    parts := r.parts.map fun p => ⟨p.name, p.quantity, p.costCents⟩
    attachments := r.attachments.map fun a => ⟨idText a.id, a.url, a.kind, a.phase.map phaseName⟩
    createdAt := ⟨r.createdAt / 1000, true⟩
    revisesRecordId := r.revisesRecordID.map idText
    supersededByRecordId := r.supersededByID.map idText }, ?_, ?_, ?_⟩
  · exact Option.map_eq_some_iff.mpr ⟨text, htext, rfl⟩
  · unfold Mobile.ServiceRecord.fromJson
    rw [lookup_members hkeys "id" rfl, lookup_members hkeys "vehicle" rfl, lookup_members hkeys "workshopName" rfl,
      lookup_members hkeys "mechanicName" rfl, lookup_members hkeys "operations" rfl,
      lookup_members hkeys "mileageKm" rfl, lookup_members hkeys "costCents" rfl, lookup_members hkeys "notes" rfl,
      lookup_members hkeys "parts" rfl, lookup_members hkeys "attachments" rfl, lookup_members hkeys "createdAt" rfl,
      lookup_members hkeys "revisesRecordId" rfl, lookup_members hkeys "supersededByRecordId" rfl,
      hasOperations, hasParts, hasAttachments, asMap_object]
    simp only [asString_map, asInt_map, bind, Except.bind, Option.getD_some, vehicleFromJson, hentries,
      parts_wire r hrawParts, attachments_wire r hrawAttachments, getD_nonzero]
    have hasText : asString (some (Json.string text)) = .ok (some text) := rfl
    rw [hasText]
    simp only [Option.getD_some, hparse text htext, toProto, vehicleToProto, hmileage, hyear, hcost, pure, Except.pure]
  · exact {
      id := rfl
      vehicle := rfl
      workshopName := rfl
      mechanicName := rfl
      operations := hoperations
      mileageKm := rfl
      costCents := rfl
      notes := rfl
      parts := rfl
      attachments := rfl
      createdAt := ⟨Int.ediv_mul_cancel (Int.dvd_of_emod_eq_zero r.createdAt_micros), rfl⟩
      revisesRecordId := rfl
      supersededByRecordId := rfl }

end

/-! ## A record with empty and absent fields -/

def sparseRecord : StoredRecord where
  id := ascii "00000000-0000-0000-0000-000000000007"
  workshopID := ascii "00000000-0000-0000-0000-000000000001"
  vehicle := ⟨"ABC1D23", "Honda", "", 2024⟩
  workshopName := "Oficina A"
  mechanicName := some ""
  operations := [.oilChange, .other]
  mileageKm := 0
  costCents := some 0
  notes := none
  parts := [⟨"", 1, none⟩, ⟨"Filtro", 2, some 4500⟩]
  attachments := [⟨[], "", "photo", some "after"⟩, ⟨[], "/b.pdf", "invoice", none⟩]
  createdAt := 1772600767089000000
  revisesRecordID := none
  supersededByID := none
  operations_valid := by decide +kernel
  mileageKm_range := by decide
  costCents_range := by decide
  parts_range := by decide
  attachments_kind := by decide
  attachments_phase := by decide
  year_range := by decide
  createdAt_micros := by decide
  createdAt_range := by decide +kernel

def utcDart : Dart where
  jsonDecode _ := none
  tryParse text := if text == "2026-03-04T05:06:07.089Z" then some ⟨1772600767089000, true⟩ else none
  toIso8601String _ := "2026-03-04T05:06:07.089Z"
  toUpperCase text := String.ofList (text.toList.map Char.toUpper)
  mediaType _ := true

theorem utcDart_parses : ParsesUtc utcDart sparseRecord.createdAt := by
  intro text htext
  have hsome : timestampText (timestampNew sparseRecord.createdAt) = some "2026-03-04T05:06:07.089Z" := by
    decide +kernel
  obtain rfl : "2026-03-04T05:06:07.089Z" = text := Option.some.inj (hsome.symm.trans htext)
  decide +kernel

theorem sparseRecord_fromJson : ParsesUtc utcDart sparseRecord.createdAt ∧
    ∃ json m, (toProto sparseRecord.toServiceRecord).marshal = some json ∧
      Mobile.ServiceRecord.fromJson utcDart ⟨0, false⟩ json = .ok m ∧ Agrees sparseRecord.toServiceRecord m :=
  ⟨utcDart_parses, fromJson_toProto sparseRecord utcDart ⟨0, false⟩ utcDart_parses⟩

end Mototeca
