import Mototeca.Records

/-!
# Vehicles and their owners

`internal/vehicle` (registration) and `internal/owner` (claim and release).
-/

namespace Mototeca

open ReadCommitted

/-! ## Vehicle registration -/

def isUpperASCII (c : Char) : Bool := 'A' ≤ c && c ≤ 'Z'

def isDigitASCII (c : Char) : Bool := '0' ≤ c && c ≤ '9'

def isUpperOrDigit (c : Char) : Bool := isUpperASCII c || isDigitASCII c

def matchesPlate (s : String) : Bool :=
  match s.toList with
  | [a, b, c, d, e, f, g] =>
    isUpperASCII a && isUpperASCII b && isUpperASCII c && isDigitASCII d && isUpperOrDigit e && isDigitASCII f &&
      isDigitASCII g
  | _ => false

def matchesChassi (s : String) : Bool := s.toList.length == 17 && s.toList.all isUpperOrDigit

/-- `plateSeparators.Replace`, then `strings.ToUpper`. -/
def normalizePlate (P : Platform) (raw : String) : String :=
  mapUpper P.toUpper (String.ofList (raw.toList.filter fun c => c != '-' && c != ' '))

structure VehicleInput where
  plate : String
  chassi : String
  make : String
  model : String
  year : Int
  deriving DecidableEq

namespace VehicleInput

def maxNameLength : Nat := 60

def normalized (P : Platform) (input : VehicleInput) : VehicleInput :=
  ⟨normalizePlate P input.plate, mapUpper P.toUpper (trimSpace input.chassi), trimSpace input.make,
    trimSpace input.model, input.year⟩

def validate (currentYear : Int) (input : VehicleInput) : Option String :=
  refuse (!matchesPlate input.plate) "placa inválida: use o formato ABC1234 ou ABC1D23" <|>
  refuse (!matchesChassi input.chassi) "chassi deve ter 17 letras ou números" <|>
  refuse (input.make == "" || input.make.length > maxNameLength)
    ("marca é obrigatória (até " ++ toString maxNameLength ++ " caracteres)") <|>
  refuse (input.model == "" || input.model.length > maxNameLength)
    ("modelo é obrigatório (até " ++ toString maxNameLength ++ " caracteres)") <|>
  refuse (input.year < 1950 || input.year > currentYear + 1)
    ("ano deve estar entre 1950 e " ++ toString (currentYear + 1))

end VehicleInput

inductive VehicleError where
  | duplicatePlate
  | duplicateChassi
  | sql (stmt : Stmt)
  deriving DecidableEq

def VehicleInput.row (P : Platform) (input : VehicleInput) (id : UUID) : VehicleRow :=
  ⟨id, normalizePlate P input.plate, input.chassi, input.make, input.model, input.year, none⟩

/-- What Postgres answers for a new row: the parameters come first, then the unique
indexes in the order they are checked. -/
def DB.vehicleConflict (d : DB) (v : VehicleRow) : Option VehicleError :=
  if !v.storable then some (.sql .insertVehicle)
  else if (d.vehicle v.id).isSome || (d.vehicleByPlate v.plate).isSome then some .duplicatePlate
  else if d.vehicles.any (·.chassi == v.chassi) then some .duplicateChassi
  else none

def createVehicle (P : Platform) (input : VehicleInput) : Sql VehicleError UUID :=
  .stmt .insertVehicle
    (fun o _ => [.vehicle (o 0), .plate (normalizePlate P input.plate), .chassi input.chassi])
    (fun o d => if (d.vehicleConflict (input.row P (o 0))).isNone then [.insertVehicle (input.row P (o 0))] else [])
    fun o d =>
      match d.vehicleConflict (input.row P (o 0)) with
      | none => .ret (o 0)
      | some e => .fail e

/-! ## Claim and release -/

def chassiSuffixLength : Nat := 6

def normalizeChassiSuffix (P : Platform) (raw : String) : String := mapUpper P.toUpper (trimSpace raw)

def matchesChassiSuffix (s : String) : Bool :=
  s.toList.length == chassiSuffixLength && s.toList.all isUpperOrDigit

def validateChassiSuffix (suffix : String) : Option String :=
  refuse (!matchesChassiSuffix suffix)
    ("informe os " ++ toString chassiSuffixLength ++ " últimos caracteres do chassi")

structure OwnedVehicle where
  vehicle : VehicleSummary
  currentMileageKm : Int
  serviceCount : Nat
  lastServiceID : Option UUID
  lastOilChangeKm : Option Int
  deriving DecidableEq

def DB.hasOilChange (d : DB) (r : ServiceRecordRow) : Bool := d.operations.contains ⟨r.id, .oilChange⟩

def DB.ownedVehicle (d : DB) (v : VehicleRow) : OwnedVehicle :=
  let current := d.currentRecords v.id
  { vehicle := ⟨v.plate, v.make, v.model, v.year⟩
    currentMileageKm := ((current.map (·.mileageKm)).max?).getD 0
    serviceCount := current.length
    lastServiceID := ((current.insertionSort fun a b => b.createdAt ≤ a.createdAt).head?).map (·.id)
    lastOilChangeKm := ((current.filter d.hasOilChange).map (·.mileageKm)).max? }

inductive OwnerError where
  | vehicleNotFound
  | vehicleClaimed
  | chassiMismatch
  | sql (stmt : Stmt)
  deriving DecidableEq

/-- `SELECT … FROM vehicles WHERE plate = $1 FOR UPDATE`, whose parameter is text. -/
def lockClaimed (plate : String) : Sql OwnerError (Option VehicleRow) :=
  if DB.storable plate then
    Prog.queryForUpdate .lockClaimed (fun d : DB => ((d.vehicleByPlate plate).map fun v => Key.vehicle v.id).toList)
      fun d => d.vehicleByPlate plate
  else .fail (.sql .lockClaimed)

/-- The locks of `UPDATE vehicles SET current_owner_id = $1 WHERE id = $2`. -/
def ownerKeys (vehicleID ownerID : UUID) : List Key := [⟨.vehicle vehicleID, .noKeyUpdate⟩, ⟨.owner ownerID, .keyShare⟩]

/-- `owner.Repository.Claim` up to its commit. -/
def claim (ownerID : UUID) (plate chassiSuffix : String) : Sql OwnerError OwnedVehicle := do
  let found ← lockClaimed plate
  match found with
  | none => .fail .vehicleNotFound
  | some v =>
    if !chassiSuffix.toList.isSuffixOf v.chassi.toList then .fail .chassiMismatch
    else if v.currentOwnerID.any (· != ownerID) then .fail .vehicleClaimed
    else do
      Prog.write .setCurrentOwner (.sql .setCurrentOwner) (fun _ _ => ownerKeys v.id ownerID)
        (fun _ d => d.owners.contains ownerID) (fun _ _ => [Change.setCurrentOwner v.id (some ownerID)]) fun _ => ()
      let owned ← Prog.query .ownedVehicle fun d : DB => (d.vehicle v.id).map d.ownedVehicle
      match owned with
      | none => .fail .vehicleNotFound
      | some o => .ret o

def DB.heldByPlate (d : DB) (plate : String) (ownerID : UUID) : Option VehicleRow :=
  d.vehicles.find? fun v => v.plate == plate && v.currentOwnerID == some ownerID

/-- `owner.Repository.Release`: one conditional `UPDATE`, refused when it matches no row. -/
def release (ownerID : UUID) (plate : String) : Sql OwnerError Unit :=
  if DB.storable plate then
    .stmt .releaseOwner (fun _ d => ((d.heldByPlate plate ownerID).map fun v => ⟨.vehicle v.id, .noKeyUpdate⟩).toList)
      (fun _ d => ((d.heldByPlate plate ownerID).map fun v => Change.setCurrentOwner v.id none).toList)
      fun _ d => if (d.heldByPlate plate ownerID).isSome then .ret () else .fail .vehicleNotFound
  else .fail (.sql .releaseOwner)

end Mototeca
