import Mototeca.DemoBackend
import Mototeca.Odometer

/-!
# The bikes of the demo backend

What `DemoBackend` does with vehicles and their owners: registration, claim,
release and the lookups. Records and figures are those of the backend with
these bikes.
-/

namespace Mototeca.Mobile

/-! ## State -/

/-- A bike with what only a shop or its owner is told. -/
structure DemoBike extends DemoVehicle where
  id : String
  chassi : String
  ownerId : Option String
  deriving DecidableEq

structure DemoGarage where
  workshops : List DemoWorkshop
  bikes : List DemoBike
  records : List DemoRecord
  sequence : Nat

def chassiSuffixLength : Nat := 6

def utf16Size (c : Char) : Nat := if c.toNat < 0x10000 then 1 else 2

def utf16Length : List Char → Nat
  | [] => 0
  | c :: chars => utf16Size c + utf16Length chars

/-- `String.length`, in UTF-16 code units. -/
def stringLength (s : String) : Nat := utf16Length s.toList

def matchesChassi (s : String) : Bool := s.toList.length == 17 && s.toList.all isPlateChar

namespace DemoGarage

variable (s : DemoGarage)

def backend : DemoBackend := ⟨s.workshops, s.bikes.map (·.toDemoVehicle), s.records, s.sequence⟩

def bikeByPlate (plate : String) : Option DemoBike := s.bikes.find? (·.plate == plate)

/-! ## Sessions -/

/-- `_requireSession`, `_workshopId` and `_ownerId` differ in the prefix and the message. -/
def tokenAfter (start message : String) : Option String → Except DemoError String
  | some token =>
    if start.toList.isPrefixOf token.toList then .ok (String.ofList (token.toList.drop start.length))
    else .error (.failure 401 "unauthenticated" message)
  | none => .error (.failure 401 "unauthenticated" message)

def requireSession : Option String → Except DemoError String := tokenAfter "demo-" "entre para continuar"

def workshopId : Option String → Except DemoError String :=
  tokenAfter "demo-w-" "entre como oficina para continuar"

def ownerId : Option String → Except DemoError String :=
  tokenAfter "demo-o-" "entre como proprietário para continuar"

/-! ## Registration -/

def invalid (message : String) : DemoError := .failure 400 "invalid_argument" message

/-- `as String? ?? ''`. -/
def textOf (request : JsonMap) (name : String) : Except DemoError String :=
  (orThrow (asString (request.lookup name))).map (·.getD "")

/-- `_requireText`, with the text it lets through, trimmed. -/
def requireText (value : Option Json) (message : String) : Except DemoError String :=
  match value with
  | some (.string text) => if trim text == "" then .error (invalid message) else .ok (trim text)
  | _ => .error (invalid message)

/-- The checks of `_createVehicle`, in the year `now`. -/
def admitVehicle (dart : Dart) (now : Int) (request : JsonMap) (token : Option String) : Except DemoError DemoBike := do
  let _ ← requireSession token
  let plate ← textOf request "plate"
  let plate := normalizePlate dart plate
  let chassi ← textOf request "chassi"
  let chassi := dart.toUpperCase (trim chassi)
  let year ← orThrow (asInt (request.lookup "year"))
  let year := year.getD 0
  if !matchesPlate plate.toList then .error (invalid "placa inválida: use o formato ABC1234 ou ABC1D23")
  else if !matchesChassi chassi then .error (invalid "chassi deve ter 17 letras ou números")
  else
    let make ← requireText (request.lookup "make") "marca é obrigatória (até 60 caracteres)"
    let model ← requireText (request.lookup "model") "modelo é obrigatório (até 60 caracteres)"
    if year < 1950 || year > now + 1 then
      .error (invalid ("ano deve estar entre 1950 e " ++ toString (now + 1)))
    else if s.bikes.any (·.plate == plate) then
      .error (.failure 409 "already_exists" "esta placa já está cadastrada")
    else if s.bikes.any (·.chassi == chassi) then
      .error (.failure 409 "already_exists" "este chassi já está cadastrado em outra placa")
    else .ok {
      plate, make, model, year, id := "vehicle-" ++ toString (s.sequence + 1), chassi, ownerId := none }

def createVehicle (dart : Dart) (now : Int) (request : JsonMap) (token : Option String) :
    Except DemoError DemoBike × DemoGarage :=
  match s.admitVehicle dart now request token with
  | .error e => (.error e, s)
  | .ok bike => (.ok bike, { s with bikes := s.bikes ++ [bike], sequence := s.sequence + 1 })

/-! ## Claim and release -/

/-- `vehicle['ownerId'] = ownerId`, on the first bike that `p` finds. -/
def handOver (p : DemoBike → Bool) (ownerId : Option String) : DemoGarage :=
  { s with bikes := s.bikes.modify (s.bikes.findIdx p) fun bike => { bike with ownerId } }

/-- The checks of `_claimVehicle`, and who claims which bike. -/
def admitClaim (dart : Dart) (request : JsonMap) (token : Option String) : Except DemoError (String × DemoBike) := do
  let ownerId ← ownerId token
  let plate ← textOf request "plate"
  let plate := normalizePlate dart plate
  let suffix ← textOf request "chassiSuffix"
  let suffix := dart.toUpperCase (trim suffix)
  if stringLength suffix != chassiSuffixLength then
    .error (invalid ("informe os " ++ toString chassiSuffixLength ++ " últimos caracteres do chassi"))
  else
    match s.bikeByPlate plate with
    | none => .error (.failure 404 "not_found" "nenhuma moto cadastrada com esta placa")
    | some bike =>
      if !suffix.toList.isSuffixOf bike.chassi.toList then
        .error (.failure 403 "permission_denied" "o final do chassi não confere com esta placa")
      else if bike.ownerId.any (· != ownerId) then
        .error (.failure 400 "failed_precondition" "esta moto já está vinculada a outro proprietário")
      else .ok (ownerId, bike)

def claimVehicle (dart : Dart) (request : JsonMap) (token : Option String) :
    Except DemoError DemoBackend.OwnedVehicleJson × DemoGarage :=
  match s.admitClaim dart request token with
  | .error e => (.error e, s)
  | .ok (ownerId, bike) =>
    (.ok (s.backend.ownedVehicleJson bike.toDemoVehicle), s.handOver (·.plate == bike.plate) (some ownerId))

/-- The checks of `_releaseVehicle`, and whose bike of which plate it is. -/
def admitRelease (dart : Dart) (request : JsonMap) (token : Option String) : Except DemoError (String × String) := do
  let ownerId ← ownerId token
  let plate ← textOf request "plate"
  let plate := normalizePlate dart plate
  if s.bikes.any fun bike => bike.plate == plate && bike.ownerId == some ownerId then .ok (ownerId, plate)
  else .error (.failure 404 "not_found" "esta moto não está vinculada a você")

def releaseVehicle (dart : Dart) (request : JsonMap) (token : Option String) : Except DemoError Unit × DemoGarage :=
  match s.admitRelease dart request token with
  | .error e => (.error e, s)
  | .ok (ownerId, plate) =>
    (.ok (), s.handOver (fun bike => bike.plate == plate && bike.ownerId == some ownerId) none)

/-! ## Records -/

/-- `_createRecord` and `_reviseRecord` leave shops and bikes as they are. -/
def withRecords (written : DemoBackend) : DemoGarage :=
  { s with records := written.records, sequence := written.sequence }

def createRecord (dart : Dart) (now : DateTime) (request : JsonMap) (token : Option String) :
    Except DemoError DemoRecord × DemoGarage :=
  let answer := s.backend.createRecord dart now request token
  (answer.1, s.withRecords answer.2)

def reviseRecord (now : DateTime) (request : JsonMap) (token : Option String) : Except DemoError DemoRecord × DemoGarage :=
  let answer := s.backend.reviseRecord now request token
  (answer.1, s.withRecords answer.2)

/-! ## Lookups -/

/-- `_getVehicle`; `_vehicleJson` leaves the owner out. -/
def getVehicle (dart : Dart) (request : JsonMap) (token : Option String) : Except DemoError DemoBike := do
  let _ ← workshopId token
  let plate ← textOf request "plate"
  let plate := normalizePlate dart plate
  match s.bikeByPlate plate with
  | none => .error (.failure 404 "not_found" "nenhuma moto cadastrada com esta placa")
  | some bike => .ok bike

/-- `ListMyVehicles`. The session is looked at once for each bike, so not at all without any. -/
def listMyVehicles (token : Option String) : Except DemoError (List DemoBackend.OwnedVehicleJson) :=
  match s.bikes with
  | [] => .ok []
  | bikes => do
    let ownerId ← ownerId token
    return (bikes.filter (·.ownerId == some ownerId)).map fun bike => s.backend.ownedVehicleJson bike.toDemoVehicle

end DemoGarage

end Mototeca.Mobile
