import Mathlib.Data.List.Sort
import Mototeca.Dart
import Mototeca.Tables

/-!
# The garage of the device

`LocalGarage` and the two tables it writes. The list of bikes that the app shows
is read back from the table behind a write, and `localCopy` decides by that list.
-/

namespace Mototeca.Mobile

/-! ## Plates -/

def isPlateChar (c : Char) : Bool := c.isUpper || c.isDigit

/-- `^[A-Z]{3}[0-9][A-Z0-9][0-9]{2}$` -/
def matchesPlate : List Char → Bool
  | [a, b, c, d, e, f, g] =>
    a.isUpper && b.isUpper && c.isUpper && d.isDigit && isPlateChar e && f.isDigit && g.isDigit
  | _ => false

def isValidPlate (dart : Dart) (raw : String) : Bool := matchesPlate (normalizePlate dart raw).toList

/-- `toUpperCase` leaves a text of upper-case letters and digits as it is. -/
def Dart.KeepsUpper (dart : Dart) : Prop := ∀ text, text.toList.all isPlateChar = true → dart.toUpperCase text = text

/-! ## Bikes and notes -/

structure LocalBike where
  id : Option Int
  plate : String
  label : String
  year : Option Int
  mileageKm : Int
  deriving DecidableEq

structure BikeColumns where
  plate : String
  label : String
  year : Option Int
  mileageKm : Int
  deriving DecidableEq

structure BikeRow extends BikeColumns where
  id : Int
  createdAt : String
  deriving DecidableEq

def LocalBike.fromRow (row : BikeRow) : LocalBike := ⟨some row.id, row.plate, row.label, row.year, row.mileageKm⟩

def LocalBike.toRow (dart : Dart) (bike : LocalBike) : BikeColumns :=
  ⟨normalizePlate dart bike.plate, trim bike.label, bike.year, bike.mileageKm⟩

structure MaintenanceNote where
  id : Option Int
  bikeId : Int
  doneOn : DateTime
  description : String
  mileageKm : Option Int
  costCents : Option Int
  deriving DecidableEq

structure NoteColumns where
  bikeId : Int
  doneOn : String
  description : String
  mileageKm : Option Int
  costCents : Option Int
  deriving DecidableEq

structure NoteRow extends NoteColumns where
  id : Int
  deriving DecidableEq

def MaintenanceNote.toRow (dart : Dart) (note : MaintenanceNote) : NoteColumns :=
  ⟨note.bikeId, dart.toIso8601String note.doneOn, trim note.description, note.mileageKm, note.costCents⟩

/-! ## The tables -/

inductive DatabaseException where
  | uniqueConstraint
  | checkConstraint
  | foreignKeyConstraint
  /-- The device does not take the write, as when its storage is full. -/
  | refused
  /-- It does not answer the query. -/
  | unanswered
  deriving DecidableEq

def DatabaseException.isUniqueConstraintError (error : DatabaseException) : Bool := error == .uniqueConstraint

/-- The rows in the order of their rowids, and the next value of each
`AUTOINCREMENT`. -/
structure GarageDb where
  bikes : List BikeRow
  notes : List NoteRow
  nextBike : Int
  nextNote : Int
  deriving DecidableEq

namespace GarageDb

def empty : GarageDb := ⟨[], [], 1, 1⟩

variable (db : GarageDb)

def queryBikes : List BikeRow :=
  db.bikes.insertionSort fun a b => a.createdAt < b.createdAt ∨ a.createdAt = b.createdAt ∧ a.id ≤ b.id

def insertBike (row : BikeColumns) (createdAt : String) : Except DatabaseException GarageDb :=
  if row.mileageKm < 0 then .error .checkConstraint
  else if db.bikes.any (·.plate == row.plate) then .error .uniqueConstraint
  else .ok { db with bikes := db.bikes ++ [⟨row, db.nextBike, createdAt⟩], nextBike := db.nextBike + 1 }

/-- An `UPDATE` that finds no row checks nothing. -/
def updateBike (id : Int) (row : BikeColumns) : Except DatabaseException GarageDb :=
  if !db.bikes.any (·.id == id) then .ok db
  else if row.mileageKm < 0 then .error .checkConstraint
  else if db.bikes.any fun other => other.id != id && other.plate == row.plate then .error .uniqueConstraint
  else .ok { db with bikes := Tables.update (·.id) id (fun r => { r with toBikeColumns := row }) db.bikes }

/-- The update of `saveNote`: `id = ? AND mileage_km < ?`. -/
def raiseBike (id km : Int) : Except DatabaseException GarageDb :=
  let behind (r : BikeRow) : Bool := r.id == id && r.mileageKm < km
  if db.bikes.any behind && km < 0 then .error .checkConstraint
  else .ok { db with bikes := db.bikes.map fun r => if behind r then { r with mileageKm := km } else r }

/-- The statement of `save`. -/
def writeBike (dart : Dart) (now : DateTime) (bike : LocalBike) : Except DatabaseException GarageDb :=
  match bike.id with
  | none => db.insertBike (bike.toRow dart) (dart.toIso8601String now)
  | some id => db.updateBike id (bike.toRow dart)

def deleteBike (id : Int) : GarageDb :=
  { db with bikes := db.bikes.filter (·.id != id), notes := db.notes.filter (·.bikeId != id) }

/-- The constraints on a row of `maintenance_notes` that is written. -/
def checkNote (row : NoteColumns) : Except DatabaseException Unit :=
  if row.mileageKm.any (· < 0) || row.costCents.any (· < 0) then .error .checkConstraint
  else if !db.bikes.any (·.id == row.bikeId) then .error .foreignKeyConstraint
  else .ok ()

def insertNote (row : NoteColumns) : Except DatabaseException GarageDb := do
  db.checkNote row
  return { db with notes := db.notes ++ [⟨row, db.nextNote⟩], nextNote := db.nextNote + 1 }

def updateNote (id : Int) (row : NoteColumns) : Except DatabaseException GarageDb := do
  if db.notes.any (·.id == id) then
    db.checkNote row
  return { db with notes := Tables.update (·.id) id (fun r => { r with toNoteColumns := row }) db.notes }

/-- The first statement of `saveNote`. -/
def writeNote (dart : Dart) (note : MaintenanceNote) : Except DatabaseException GarageDb :=
  match note.id with
  | none => db.insertNote (note.toRow dart)
  | some id => db.updateNote id (note.toRow dart)

def deleteNote (id : Int) : GarageDb := { db with notes := db.notes.filter (·.id != id) }

end GarageDb

/-! ## LocalGarage -/

inductive GarageThrown where
  | database (error : DatabaseException)
  | duplicatePlate (plate : String)
  | typeError
  deriving DecidableEq

structure GarageState where
  db : GarageDb
  bikes : List LocalBike
  loaded : Bool
  deriving DecidableEq

/-- When a call is made, and which of its writes the device does not take. The query of
`load` may fail too: number 0 before any write of the call, number 1 behind one. -/
structure Moment where
  now : DateTime
  refuses : Nat → Bool
  unanswered : Nat → Bool

/-- The `n`-th write of a call. -/
def Moment.write {α : Type} (m : Moment) (n : Nat) (result : Except DatabaseException α) : Except DatabaseException α :=
  if m.refuses n then .error .refused else result

namespace GarageState

def init : GarageState := ⟨.empty, [], false⟩

variable (dart : Dart) (m : Moment) (s : GarageState)

/-- What `load` leaves once it has its rows. -/
def reread : GarageState := { s with bikes := s.db.queryBikes.map .fromRow, loaded := true }

def load (query : Nat) : GarageState × Option GarageThrown :=
  if m.unanswered query then (s, some (.database .unanswered)) else (s.reread, none)

def ensureLoaded : GarageState × Option GarageThrown := if s.loaded then (s, none) else s.load m 0

def save (bike : LocalBike) : GarageState × Option GarageThrown :=
  match m.write 0 (s.db.writeBike dart m.now bike) with
  | .ok db => { s with db }.load m 1
  | .error error =>
    if !error.isUniqueConstraintError then (s, some (.database error))
    else (s, some (.duplicatePlate (normalizePlate dart bike.plate)))

def withPlate (plate : String) : Option LocalBike := s.bikes.find? (·.plate == plate)

/-- `_withPlate(plate)!`, once the save is done. -/
def savedCopy (plate : String) : GarageState × Option GarageThrown → GarageState × Except GarageThrown LocalBike
  | (s, some thrown) => (s, .error thrown)
  | (s, none) => (s, (s.withPlate plate).elim (.error .typeError) .ok)

def localCopy (bike : LocalBike) : GarageState × Except GarageThrown LocalBike :=
  match s.ensureLoaded m with
  | (s, some thrown) => (s, .error thrown)
  | (s, none) =>
    let plate := normalizePlate dart bike.plate
    match s.withPlate plate with
    | none => savedCopy plate (s.save dart m bike)
    | some existing =>
      if existing.mileageKm < bike.mileageKm then
        savedCopy plate (s.save dart m
          { id := existing.id, plate, label := existing.label, year := existing.year, mileageKm := bike.mileageKm })
      else (s, .ok existing)

def remove (id : Int) : GarageState × Option GarageThrown :=
  match m.write 0 (.ok (s.db.deleteBike id)) with
  | .ok db => { s with db }.load m 1
  | .error error => (s, some (.database error))

/-- What the transaction of `saveNote` does before it is committed. -/
def noteTransaction (note : MaintenanceNote) : Except DatabaseException GarageDb := do
  let db ← m.write 0 (s.db.writeNote dart note)
  match note.mileageKm with
  | some km => m.write 1 (db.raiseBike note.bikeId km)
  | none => return db

/-- An exception inside the transaction, or a commit that fails, rolls it back. One
behind it does not. -/
def saveNote (note : MaintenanceNote) : GarageState × Option GarageThrown :=
  match s.noteTransaction dart m note >>= fun db => m.write 2 (.ok db) with
  | .ok db => { s with db }.load m 1
  | .error error => (s, some (.database error))

def removeNote (id : Int) : GarageState × Option GarageThrown :=
  match m.write 0 (.ok (s.db.deleteNote id)) with
  | .ok db => ({ s with db }, none)
  | .error error => (s, some (.database error))

end GarageState

/-! ## Calls -/

inductive GarageOp where
  /-- The app is started again. -/
  | reopen
  | load
  /-- The edit form. -/
  | save (bike : LocalBike)
  | localCopy (bike : LocalBike)
  | remove (id : Int)
  | saveNote (note : MaintenanceNote)
  | removeNote (id : Int)

structure GarageCall extends Moment where
  op : GarageOp

namespace GarageState

variable (dart : Dart) (s : GarageState)

/-- The state a call leaves, and what it throws. -/
def call (c : GarageCall) : GarageState × Option GarageThrown :=
  match c.op with
  | .reopen => ({ s with bikes := [], loaded := false }, none)
  | .load => s.load c.toMoment 0
  | .save bike => s.save dart c.toMoment bike
  | .localCopy bike =>
    match s.localCopy dart c.toMoment bike with
    | (s, .ok _) => (s, none)
    | (s, .error thrown) => (s, some thrown)
  | .remove id => s.remove c.toMoment id
  | .saveNote note => s.saveNote dart c.toMoment note
  | .removeNote id => s.removeNote c.toMoment id

def run (calls : List GarageCall) : GarageState := calls.foldl (fun s c => (s.call dart c).1) s

end GarageState

end Mototeca.Mobile
