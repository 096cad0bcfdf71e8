import Mathlib.Data.List.Sort
import Mototeca.GoText
import Mototeca.Rely

/-!
# The Postgres schema after migration 0004

One list of rows per table, in insertion order, with the columns that the
modelled queries read or write. A uuid is the text it scans as. The checks of
each `INSERT` and `UPDATE` are the constraints of `db/migrations`.
-/

namespace Mototeca

open ReadCommitted

abbrev UUID := Bytes

/-- Nanoseconds since the Unix epoch. -/
abbrev Time := Int

/-- The `service_type` enum, in its declared order. -/
inductive ServiceType where
  | oilChange | scheduledReview | brakes | chainAndSprocket | tires | electrical
  | sparkPlugs | suspension | clutch | fuelInjection | bodywork | other
  deriving DecidableEq

namespace ServiceType

def label : ServiceType → String
  | oilChange => "oil_change"
  | scheduledReview => "scheduled_review"
  | brakes => "brakes"
  | chainAndSprocket => "chain_and_sprocket"
  | tires => "tires"
  | electrical => "electrical"
  | sparkPlugs => "spark_plugs"
  | suspension => "suspension"
  | clutch => "clutch"
  | fuelInjection => "fuel_injection"
  | bodywork => "bodywork"
  | other => "other"

def all : List ServiceType :=
  [oilChange, scheduledReview, brakes, chainAndSprocket, tires, electrical, sparkPlugs, suspension, clutch,
    fuelInjection, bodywork, other]

def parse (s : String) : Option ServiceType := all.find? fun t => t.label == s

def rank (t : ServiceType) : Nat := all.idxOf t

end ServiceType

structure WorkshopRow where
  id : UUID
  name : String
  deriving DecidableEq

structure MechanicRow where
  id : UUID
  workshopID : UUID
  name : String
  deriving DecidableEq

structure VehicleRow where
  id : UUID
  plate : String
  chassi : String
  make : String
  model : String
  year : Int
  currentOwnerID : Option UUID
  deriving DecidableEq

structure ServiceRecordRow where
  id : UUID
  vehicleID : UUID
  workshopID : UUID
  mechanicID : Option UUID
  mileageKm : Int
  costCents : Option Int
  notes : Option String
  supersededBy : Option UUID
  createdAt : Time
  deriving DecidableEq

structure OperationRow where
  serviceRecordID : UUID
  type : ServiceType
  deriving DecidableEq

structure PartRow where
  serviceRecordID : UUID
  name : String
  quantity : Int
  costCents : Option Int
  deriving DecidableEq

structure AttachmentRow where
  id : UUID
  serviceRecordID : UUID
  url : String
  kind : String
  phase : Option String
  createdAt : Time
  deriving DecidableEq

/-- The database. `owners` is the column `owners.id`. -/
structure DB where
  owners : List UUID
  workshops : List WorkshopRow
  mechanics : List MechanicRow
  vehicles : List VehicleRow
  serviceRecords : List ServiceRecordRow
  operations : List OperationRow
  parts : List PartRow
  attachments : List AttachmentRow
  deriving DecidableEq

inductive Change where
  | insertMechanic (m : MechanicRow)
  | insertVehicle (v : VehicleRow)
  | insertServiceRecord (r : ServiceRecordRow)
  | insertOperation (o : OperationRow)
  | insertPart (p : PartRow)
  | insertAttachment (a : AttachmentRow)
  | setSupersededBy (id new : UUID)
  | setCurrentOwner (id : UUID) (owner : Option UUID)
  deriving DecidableEq

namespace DB

def apply (d : DB) : Change → DB
  | .insertMechanic m => { d with mechanics := d.mechanics ++ [m] }
  | .insertVehicle v => { d with vehicles := d.vehicles ++ [v] }
  | .insertServiceRecord r => { d with serviceRecords := d.serviceRecords ++ [r] }
  | .insertOperation o => { d with operations := d.operations ++ [o] }
  | .insertPart p => { d with parts := d.parts ++ [p] }
  | .insertAttachment a => { d with attachments := d.attachments ++ [a] }
  | .setSupersededBy id new =>
    { d with serviceRecords := d.serviceRecords.map fun r =>
        if r.id = id then { r with supersededBy := some new } else r }
  | .setCurrentOwner id owner =>
    { d with vehicles := d.vehicles.map fun v => if v.id = id then { v with currentOwnerID := owner } else v }

/-! ## Reading rows -/

def serviceRecord (d : DB) (id : UUID) : Option ServiceRecordRow := d.serviceRecords.find? (·.id == id)

def vehicle (d : DB) (id : UUID) : Option VehicleRow := d.vehicles.find? (·.id == id)

def vehicleByPlate (d : DB) (plate : String) : Option VehicleRow := d.vehicles.find? (·.plate == plate)

def attachmentsOf (d : DB) (id : UUID) : List AttachmentRow := d.attachments.filter (·.serviceRecordID == id)

def currentRecords (d : DB) (vehicleID : UUID) : List ServiceRecordRow :=
  d.serviceRecords.filter fun r => r.vehicleID == vehicleID && r.supersededBy.isNone

def highestMileage (d : DB) (vehicleID : UUID) : Option Int :=
  ((d.currentRecords vehicleID).map (·.mileageKm)).max?

/-! ## Constraints -/

def fitsInteger (n : Int) : Bool := -2147483648 ≤ n && n ≤ 2147483647

/-- Postgres text cannot hold a NUL character. -/
def storable (s : String) : Bool := !s.toList.contains '\x00'

def hasWorkshop (d : DB) (id : UUID) : Bool := d.workshops.any (·.id == id)

def hasMechanic (d : DB) (id : UUID) : Bool := d.mechanics.any (·.id == id)

def acceptsMechanic (d : DB) (m : MechanicRow) : Bool :=
  !d.hasMechanic m.id && d.hasWorkshop m.workshopID && storable m.name

def acceptsServiceRecord (d : DB) (r : ServiceRecordRow) : Bool :=
  (d.serviceRecord r.id).isNone && (d.vehicle r.vehicleID).isSome && d.hasWorkshop r.workshopID &&
    r.mechanicID.all d.hasMechanic && fitsInteger r.mileageKm && r.costCents.all fitsInteger && r.notes.all storable

def acceptsOperation (d : DB) (o : OperationRow) : Bool :=
  (d.serviceRecord o.serviceRecordID).isSome && !d.operations.contains o

def acceptsPart (d : DB) (p : PartRow) : Bool :=
  (d.serviceRecord p.serviceRecordID).isSome && storable p.name && fitsInteger p.quantity &&
    p.costCents.all fitsInteger

/-- `CHECK (kind IN …)`, `CHECK (phase IN …)` and `attachments_phase_only_on_photos`. -/
def acceptsAttachment (d : DB) (a : AttachmentRow) : Bool :=
  (d.serviceRecord a.serviceRecordID).isSome && !d.attachments.any (·.id == a.id) && storable a.url &&
    (a.kind == "photo" || a.kind == "invoice") && a.phase.all (fun p => p == "before" || p == "after") &&
    (a.phase.isNone || a.kind == "photo")

/-- The foreign key and the unique index of `superseded_by`. -/
def acceptsSupersededBy (d : DB) (new : UUID) : Bool :=
  (d.serviceRecord new).isSome && !d.serviceRecords.any (·.supersededBy == some new)

end DB

def VehicleRow.storable (v : VehicleRow) : Bool :=
  DB.storable v.plate && DB.storable v.chassi && DB.storable v.make && DB.storable v.model && DB.fitsInteger v.year

/-- What a statement of the API can lock: a row, or a value of a unique column. -/
inductive Lockable where
  | owner (id : UUID)
  | workshop (id : UUID)
  | mechanic (id : UUID)
  | vehicle (id : UUID)
  | serviceRecord (id : UUID)
  | attachment (id : UUID)
  | plate (plate : String)
  | chassi (chassi : String)
  deriving DecidableEq

/-- `FOR KEY SHARE`, which a foreign key takes on the row it names, `FOR NO KEY UPDATE`,
which an `UPDATE` takes, and `FOR UPDATE`, which an inserted row has too. -/
inductive LockMode where
  | keyShare
  | noKeyUpdate
  | update
  deriving DecidableEq

/-- The table of conflicting row-level locks. -/
def LockMode.conflict : LockMode → LockMode → Bool
  | .keyShare, m => m == .update
  | .noKeyUpdate, m => m != .keyShare
  | .update, _ => true

structure Key where
  on : Lockable
  mode : LockMode
  deriving DecidableEq

namespace Key

abbrev mechanic (id : UUID) : Key := ⟨.mechanic id, .update⟩
abbrev vehicle (id : UUID) : Key := ⟨.vehicle id, .update⟩
abbrev serviceRecord (id : UUID) : Key := ⟨.serviceRecord id, .update⟩
abbrev attachment (id : UUID) : Key := ⟨.attachment id, .update⟩
abbrev plate (plate : String) : Key := ⟨.plate plate, .update⟩
abbrev chassi (chassi : String) : Key := ⟨.chassi chassi, .update⟩

end Key

instance : Locking Key where
  conflict k k' := decide (k.on = k'.on) && k.mode.conflict k'.mode
  symm k k' := by
    obtain ⟨x, m⟩ := k
    obtain ⟨x', m'⟩ := k'
    have hon : decide (x = x') = decide (x' = x) := decide_eq_decide.mpr eq_comm
    have hmode : m.conflict m' = m'.conflict m := by cases m <;> cases m' <;> rfl
    exact congrArg₂ _ hon hmode

/-- The locks that a row's foreign keys take on the rows they name. -/
def MechanicRow.references (m : MechanicRow) : List Key := [⟨.workshop m.workshopID, .keyShare⟩]

def ServiceRecordRow.references (r : ServiceRecordRow) : List Key :=
  ⟨.vehicle r.vehicleID, .keyShare⟩ :: ⟨.workshop r.workshopID, .keyShare⟩ ::
    (r.mechanicID.map fun m => ⟨.mechanic m, .keyShare⟩).toList

inductive Stmt where
  | selectRecords | selectOperations | selectParts | selectAttachments
  | lockRevised | vehicleByPlate | highestMileage | mechanicByName | insertMechanic | insertServiceRecord
  | insertOperation | insertPart | setSupersededBy | carryAttachments
  | lockAttached | countAttachments | insertAttachment
  | lockClaimed | setCurrentOwner | ownedVehicle | releaseOwner | insertVehicle
  deriving DecidableEq

/-- A transaction body of this server. `gen_random_uuid()` supplies a statement
with the ids of the rows it inserts. -/
abbrev Sql (E α : Type) := Prog Stmt DB Change Key (Nat → UUID) E α

/-- What the code takes from the Unicode tables, the database's locale and the calendar. -/
structure Platform where
  toUpper : Char → Char
  /-- Postgres `lower(text)`. -/
  lower : String → String
  /-- Whether `ORDER BY name` may put the first before the second. -/
  collate : String → String → Bool
  year : Time → Int

end Mototeca
