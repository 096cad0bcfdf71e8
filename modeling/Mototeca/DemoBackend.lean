import Mototeca.ApiClient
import Mototeca.Listing

/-!
# The app's demo backend

`DemoBackend` answers the app from memory in place of the API. Modelled is what
it does with service records and with the figures of an owner's bike. A request
is the JSON object that the API would get.
-/

namespace Mototeca.Mobile

open Listing

/-! ## State -/

inductive DemoError where
  | failure (status : Nat) (code message : String)
  | stateError
  | thrown (t : Thrown)
  deriving DecidableEq

structure DemoWorkshop where
  id : String
  name : String
  deriving DecidableEq

structure DemoVehicle where
  plate : String
  make : String
  model : String
  year : Int
  deriving DecidableEq

/-- What was sent as `mechanicName`, `operations`, `notes` and `parts` is kept as it came. -/
structure DemoRecord where
  id : String
  plate : String
  workshopId : String
  workshopName : String
  mechanicName : Option Json
  operations : List Json
  mileageKm : Int
  costCents : Option Int
  notes : Option Json
  parts : List JsonMap
  attachments : List Attachment
  createdAt : DateTime
  revisesRecordId : Option String
  supersededByRecordId : Option String

structure DemoBackend where
  workshops : List DemoWorkshop
  vehicles : List DemoVehicle
  records : List DemoRecord
  sequence : Nat

def orThrow {α : Type} : Except Thrown α → Except DemoError α
  | .ok a => .ok a
  | .error t => .error (.thrown t)

def isWire (wire : String) : Json → Bool
  | .string s => s == wire
  | _ => false

/-- `records.map((r) => r['mileageKm']).reduce((a, b) => a > b ? a : b)`, if there are any. -/
def greatest : List Int → Option Int
  | [] => none
  | a :: l => some (l.foldl (fun a b => if a > b then a else b) a)

namespace DemoBackend

variable (s : DemoBackend)

def workshopId : Option String → Except DemoError String
  | some token =>
    if "demo-w-".toList.isPrefixOf token.toList then .ok (String.ofList (token.toList.drop 7))
    else .error (.failure 401 "unauthenticated" "entre como oficina para continuar")
  | none => .error (.failure 401 "unauthenticated" "entre como oficina para continuar")

def workshopById (id : String) : Except DemoError DemoWorkshop :=
  match s.workshops.find? (·.id == id) with
  | some w => .ok w
  | none => .error .stateError

/-- `sort` is by time; the order of records of one moment is not fixed. -/
def currentRecords (plate : String) : List DemoRecord :=
  descending (·.createdAt.microsecondsSinceEpoch)
    (s.records.filter fun r => r.plate == plate && r.supersededByRecordId.isNone)

def recordById (id : String) : Except DemoError DemoRecord :=
  match s.records.find? (·.id == id) with
  | some r => .ok r
  | none => .error (.failure 404 "not_found" "registro não encontrado")

/-! ## Writing records -/

def validDraft (request : JsonMap) : Except DemoError Int := do
  let operations ← orThrow (asList (request.lookup "operations"))
  if (operations.getD []).isEmpty then .error (.failure 400 "invalid_argument" "selecione ao menos uma operação")
  else
    let mileageKm ← orThrow (asInt (request.lookup "mileageKm"))
    let mileageKm := mileageKm.getD 0
    if mileageKm < 0 ∨ 2000000 < mileageKm then
      .error (.failure 400 "invalid_argument" "quilometragem deve estar entre 0 e 2000000 km")
    else .ok mileageKm

/-- A part is copied as the map it came as. -/
def asParts : List Json → Except Thrown (List JsonMap)
  | [] => .ok []
  | .map m :: parts => (asParts parts).map (m :: ·)
  | _ :: _ => .error .typeError

def newRecord (request : JsonMap) (workshop : DemoWorkshop) (plate : String) (now : DateTime) :
    Except DemoError DemoRecord := do
  let operations ← orThrow (asList (request.lookup "operations"))
  let mileageKm ← orThrow (asInt (request.lookup "mileageKm"))
  let costCents ← orThrow (asInt (request.lookup "costCents"))
  let parts ← orThrow (asList (request.lookup "parts"))
  let parts ← orThrow (asParts (parts.getD []))
  return {
    id := "record-" ++ toString (s.sequence + 1), plate, workshopId := workshop.id, workshopName := workshop.name
    mechanicName := request.lookup "mechanicName", operations := operations.getD [], mileageKm := mileageKm.getD 0
    costCents, notes := request.lookup "notes", parts, attachments := [], createdAt := now
    revisesRecordId := none, supersededByRecordId := none }

def confirms : Option Json → Bool
  | some (.bool true) => true
  | _ => false

def vehicleByPlate (plate : String) : Option DemoVehicle := s.vehicles.find? (·.plate == plate)

/-- `fold(null, (a, b) => a == null || b > a ? b : a)`. -/
def highest (mileages : List Int) : Option Int :=
  mileages.foldl (fun a b => match a with
    | none => some b
    | some a => if b > a then some b else some a) none

/-- The checks of `_createRecord`. -/
def admitCreate (dart : Dart) (request : JsonMap) (token : Option String) : Except DemoError (DemoWorkshop × String) := do
  let id ← workshopId token
  let workshop ← s.workshopById id
  let plate ← orThrow (asString (request.lookup "plate"))
  let plate := normalizePlate dart (plate.getD "")
  if (s.vehicleByPlate plate).isNone then
    .error (.failure 404 "not_found" "moto não cadastrada — cadastre a placa antes")
  else
    let mileageKm ← validDraft request
    let highest := highest ((s.currentRecords plate).map (·.mileageKm))
    if !confirms (request.lookup "confirmLowerMileage") && highest.any (mileageKm < ·) then
      .error (.failure 400 "failed_precondition" ("quilometragem menor que a última registrada para esta moto (" ++
        toString (highest.getD 0) ++ " km)"))
    else .ok (workshop, plate)

/-- `_createRecord`. An id is used up even if the rest of the record throws. -/
def createRecord (dart : Dart) (now : DateTime) (request : JsonMap) (token : Option String) :
    Except DemoError DemoRecord × DemoBackend :=
  match s.admitCreate dart request token with
  | .error e => (.error e, s)
  | .ok (workshop, plate) =>
    match s.newRecord request workshop plate now with
    | .error e => (.error e, { s with sequence := s.sequence + 1 })
    | .ok record => (.ok record, { s with records := s.records ++ [record], sequence := s.sequence + 1 })

/-- The checks of `_reviseRecord`. -/
def admitRevise (request : JsonMap) (token : Option String) : Except DemoError (DemoWorkshop × DemoRecord) := do
  let id ← workshopId token
  let workshop ← s.workshopById id
  let recordId ← orThrow (asString (request.lookup "recordId"))
  let original ← s.recordById (recordId.getD "")
  if original.workshopId ≠ workshop.id then .error (.failure 404 "not_found" "registro não encontrado")
  else if original.supersededByRecordId.isSome then
    .error (.failure 400 "failed_precondition" "este registro já foi corrigido — revise a correção")
  else
    let _ ← validDraft request
    .ok (workshop, original)

/-- `original['supersededByRecordId'] = id`, on the record itself. -/
def markSuperseded (original id : String) (r : DemoRecord) : DemoRecord :=
  if r.id = original then { r with supersededByRecordId := some id } else r

def reviseRecord (now : DateTime) (request : JsonMap) (token : Option String) :
    Except DemoError DemoRecord × DemoBackend :=
  match s.admitRevise request token with
  | .error e => (.error e, s)
  | .ok (workshop, original) =>
    match s.newRecord request workshop original.plate now with
    | .error e => (.error e, { s with sequence := s.sequence + 1 })
    | .ok record =>
      let correction := { record with revisesRecordId := some original.id, attachments := original.attachments }
      (.ok correction, {
        s with
        records := s.records.map (markSuperseded original.id correction.id) ++ [correction]
        sequence := s.sequence + 1 })

/-! ## The figures of an owner's bike -/

def oilChangeIntervalKm : Int := 3000

structure DemoReminder where
  text : String
  isDue : Bool
  dueAtKm : Int
  deriving DecidableEq

def reminder (serviceCount : Nat) (currentKm : Int) : Option Int → DemoReminder
  | none =>
    if serviceCount = 0 then ⟨"Sem serviços registrados", false, 0⟩
    else ⟨"Sem troca de óleo registrada", true, 0⟩
  | some lastOilKm =>
    let dueAt := lastOilKm + oilChangeIntervalKm
    let remaining := dueAt - currentKm
    if remaining ≤ 0 then ⟨"Troca de óleo atrasada em " ++ toString (-remaining) ++ " km", true, dueAt⟩
    else if remaining ≤ 600 then ⟨"Troca de óleo em " ++ toString remaining ++ " km", true, dueAt⟩
    else ⟨"Em dia · próxima troca em " ++ toString remaining ++ " km", false, dueAt⟩

/-- What `_ownedVehicleJson` answers, with the record itself as the last service. -/
structure OwnedVehicleJson where
  vehicle : DemoVehicle
  currentMileageKm : Int
  serviceCount : Nat
  lastService : Option DemoRecord
  reminder : String
  reminderIsDue : Bool
  nextOilChangeKm : Int
  oilChangeIntervalKm : Int

def ownedVehicleJson (v : DemoVehicle) : OwnedVehicleJson :=
  let history := s.currentRecords v.plate
  let currentKm := (greatest (history.map (·.mileageKm))).getD 0
  let oilChanges := history.filter fun r => r.operations.any (isWire "SERVICE_TYPE_OIL_CHANGE")
  let lastOilKm := greatest (oilChanges.map (·.mileageKm))
  let reminder := reminder history.length currentKm lastOilKm
  { vehicle := v, currentMileageKm := currentKm, serviceCount := history.length, lastService := history.head?
    reminder := reminder.text, reminderIsDue := reminder.isDue, nextOilChangeKm := reminder.dueAtKm
    oilChangeIntervalKm := if reminder.dueAtKm > 0 then oilChangeIntervalKm else 0 }

end DemoBackend

end Mototeca.Mobile
