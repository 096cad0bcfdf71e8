import Mototeca.Schema

/-!
# Service records: input, validation and the Postgres repository

`internal/servicerecord`. A repository method is a transaction body; its SQL
statements are the body's statements, in the order of the source.
-/

namespace Mototeca

open ReadCommitted

/-! ## Types -/

/-- A Go `Operation`: any string, of which twelve are valid. -/
structure Operation where
  raw : String
  deriving DecidableEq

namespace Operation

def oilChange : Operation := ⟨"oil_change"⟩
def scheduledReview : Operation := ⟨"scheduled_review"⟩
def brakes : Operation := ⟨"brakes"⟩
def chainAndSprocket : Operation := ⟨"chain_and_sprocket"⟩
def tires : Operation := ⟨"tires"⟩
def electrical : Operation := ⟨"electrical"⟩
def sparkPlugs : Operation := ⟨"spark_plugs"⟩
def suspension : Operation := ⟨"suspension"⟩
def clutch : Operation := ⟨"clutch"⟩
def fuelInjection : Operation := ⟨"fuel_injection"⟩
def bodywork : Operation := ⟨"bodywork"⟩
def other : Operation := ⟨"other"⟩

def validOperations : List Operation :=
  [oilChange, scheduledReview, brakes, chainAndSprocket, tires, electrical, sparkPlugs, suspension, clutch,
    fuelInjection, bodywork, other]

def valid (o : Operation) : Bool := validOperations.contains o

end Operation

structure Part where
  name : String
  quantity : Int
  costCents : Option Int
  deriving DecidableEq

structure Attachment where
  id : UUID
  url : String
  kind : String
  phase : Option String
  deriving DecidableEq

structure VehicleSummary where
  plate : String
  make : String
  model : String
  year : Int
  deriving DecidableEq

structure ServiceRecord where
  id : UUID
  workshopID : UUID
  vehicle : VehicleSummary
  workshopName : String
  mechanicName : Option String
  operations : List Operation
  mileageKm : Int
  costCents : Option Int
  notes : Option String
  parts : List Part
  attachments : List Attachment
  createdAt : Time
  revisesRecordID : Option UUID
  supersededByID : Option UUID
  deriving DecidableEq

structure CreateInput where
  workshopID : Bytes
  plate : String
  mechanicName : Option String
  operations : List Operation
  mileageKm : Int
  costCents : Option Int
  notes : Option String
  parts : List Part
  revisesRecordID : Option Bytes
  confirmLowerMileage : Bool
  deriving DecidableEq

/-! ## CreateInput.Validate -/

def maxMileageKm : Int := 2000000
def maxCostCents : Int := 100000000
def maxNotesLength : Nat := 2000
def maxParts : Nat := 50
def maxPartName : Nat := 200
def maxPartQty : Int := 1000

def refuse (bad : Bool) (message : String) : Option String := if bad then some message else none

def checkOperations (seen : List Operation) : List Operation → Option String
  | [] => none
  | op :: ops =>
    if !op.valid then some ("operação desconhecida " ++ quote op.raw)
    else if seen.contains op then some ("operação " ++ quote op.raw ++ " repetida")
    else checkOperations (op :: seen) ops

def badCost (cost : Option Int) : Bool := cost.any fun c => c < 0 || c > maxCostCents

def checkPart (i : Nat) (part : Part) : Option String :=
  refuse (trimSpace part.name == "") ("peça " ++ toString i ++ ": nome é obrigatório") <|>
  refuse (byteLen part.name > maxPartName) ("peça " ++ toString i ++ ": nome muito longo") <|>
  refuse (part.quantity < 1 || part.quantity > maxPartQty)
    ("peça " ++ toString i ++ ": quantidade deve estar entre 1 e " ++ toString maxPartQty) <|>
  refuse (badCost part.costCents) ("peça " ++ toString i ++ ": valor fora do limite")

def checkParts (i : Nat) : List Part → Option String
  | [] => none
  | part :: parts => checkPart i part <|> checkParts (i + 1) parts

def CreateInput.validate (input : CreateInput) : Option String :=
  refuse (input.workshopID == []) "oficina é obrigatória" <|>
  refuse (input.operations == []) "selecione ao menos uma operação" <|>
  checkOperations [] input.operations <|>
  refuse (input.mileageKm < 0 || input.mileageKm > maxMileageKm)
    ("quilometragem deve estar entre 0 e " ++ toString maxMileageKm ++ " km") <|>
  refuse (badCost input.costCents) "valor fora do limite" <|>
  refuse (input.notes.any fun n => byteLen n > maxNotesLength)
    ("observações devem ter até " ++ toString maxNotesLength ++ " caracteres") <|>
  refuse (input.mechanicName.any fun m => trimSpace m == "") "nome do mecânico não pode ficar em branco" <|>
  refuse (input.parts.length > maxParts) ("um registro aceita até " ++ toString maxParts ++ " peças") <|>
  checkParts 1 input.parts

/-! ## Repository errors -/

def maxAttachmentsPerRecord : Nat := 20

/-- What the repository returns instead of a record. `sql` is an error of the
statement itself, `nilRecord` the panic of a row with no record to go to. -/
inductive RecordError where
  | recordNotFound
  | alreadySuperseded
  | vehicleNotFound
  | tooManyAttachments
  | lowerMileage (highestKm : Int)
  | nilRecord
  | sql (stmt : Stmt)
  deriving DecidableEq

/-! ## Loading records -/

/-- The scalar subquery of `selectRecords`: more than one row is an error. -/
def DB.predecessor (d : DB) (id : UUID) : Option (Option UUID) :=
  match (d.serviceRecords.filter (·.supersededBy == some id)).map (·.id) with
  | [] => some none
  | [p] => some (some p)
  | _ => none

def DB.selectRecords (d : DB) : List ServiceRecordRow → Option (List ServiceRecord)
  | [] => some []
  | sr :: rest =>
    match d.vehicle sr.vehicleID, d.workshops.find? (·.id == sr.workshopID) with
    | some v, some w =>
      match d.predecessor sr.id, d.selectRecords rest with
      | some revises, some records =>
        some (⟨sr.id, sr.workshopID, ⟨v.plate, v.make, v.model, v.year⟩, w.name,
          sr.mechanicID.bind fun m => (d.mechanics.find? (·.id == m)).map (·.name),
          [], sr.mileageKm, sr.costCents, sr.notes, [], [], sr.createdAt, revises, sr.supersededBy⟩ :: records)
      | _, _ => none
    | _, _ => d.selectRecords rest

def selectRecords (where_ : ServiceRecordRow → Bool) : Sql RecordError (List ServiceRecord) :=
  .stmt .selectRecords (fun _ _ => []) (fun _ _ => []) fun _ d =>
    match d.selectRecords (d.serviceRecords.filter where_) with
    | some records => .ret records
    | none => .fail (.sql .selectRecords)

/-- What the map from ids to records points at: the last record with the id. -/
def updateIndexed (id : UUID) (f : ServiceRecord → ServiceRecord) :
    List ServiceRecord → Option (List ServiceRecord)
  | [] => none
  | r :: rest =>
    match updateIndexed id f rest with
    | some rest' => some (r :: rest')
    | none => if r.id == id then some (f r :: rest) else none

/-- `eachRow`: `target` gives the id that a row scans and what it appends. -/
def eachRow {β : Type} (target : β → UUID × (ServiceRecord → ServiceRecord)) :
    List β → List ServiceRecord → Sql RecordError (List ServiceRecord)
  | [], records => .ret records
  | row :: rows, records =>
    match updateIndexed (target row).1 (target row).2 records with
    | some records' => eachRow target rows records'
    | none => .fail .nilRecord

def addOperation (o : OperationRow) : UUID × (ServiceRecord → ServiceRecord) :=
  (o.serviceRecordID, fun r => { r with operations := r.operations ++ [⟨o.type.label⟩] })

def addPart (p : PartRow) : UUID × (ServiceRecord → ServiceRecord) :=
  (p.serviceRecordID, fun r => { r with parts := r.parts ++ [⟨p.name, p.quantity, p.costCents⟩] })

def addAttachmentRow (a : AttachmentRow) : UUID × (ServiceRecord → ServiceRecord) :=
  (a.serviceRecordID, fun r => { r with attachments := r.attachments ++ [⟨a.id, a.url, a.kind, a.phase⟩] })

def hydrate (P : Platform) (records : List ServiceRecord) : Sql RecordError (List ServiceRecord) :=
  if records.isEmpty then .ret records
  else do
    let ids := records.map (·.id)
    let opRows ← Prog.query .selectOperations fun d : DB =>
      (d.operations.filter fun o => ids.contains o.serviceRecordID).insertionSort fun a b => a.type.rank ≤ b.type.rank
    let records ← eachRow addOperation opRows records
    let partRows ← Prog.query .selectParts fun d : DB =>
      (d.parts.filter fun p => ids.contains p.serviceRecordID).insertionSort fun a b => P.collate a.name b.name
    let records ← eachRow addPart partRows records
    let attachmentRows ← Prog.query .selectAttachments fun d : DB =>
      (d.attachments.filter fun a => ids.contains a.serviceRecordID).insertionSort fun a b => a.createdAt ≤ b.createdAt
    eachRow addAttachmentRow attachmentRows records

def findByID (P : Platform) (id : Bytes) : Sql RecordError (Option ServiceRecord) :=
  if !validID id then .ret none
  else do
    let records ← selectRecords (·.id == canonicalID id)
    if records.isEmpty then .ret none
    else do
      let records ← hydrate P records
      .ret records.head?

/-! ## Writing records -/

structure Revision where
  workshopID : Bytes
  recordID : Bytes
  deriving DecidableEq

def checkRevisable (rev : Revision) : Sql RecordError Unit :=
  if !validID rev.recordID then .fail .recordNotFound
  else do
    let found ← Prog.queryForUpdate .lockRevised
      (fun d : DB => ((d.serviceRecord (canonicalID rev.recordID)).map fun r => Key.serviceRecord r.id).toList)
      fun d => d.serviceRecord (canonicalID rev.recordID)
    match found with
    | none => .fail .recordNotFound
    | some r =>
      if r.workshopID ≠ rev.workshopID then .fail .recordNotFound
      else if r.supersededBy.isSome then .fail .alreadySuperseded
      else .ret ()

/-- `SELECT id FROM vehicles WHERE plate = $1`, whose parameter is text. -/
def selectVehicle (plate : String) : Sql RecordError (Option VehicleRow) :=
  if DB.storable plate then Prog.query .vehicleByPlate fun d : DB => d.vehicleByPlate plate
  else .fail (.sql .vehicleByPlate)

def checkMileage (vehicleID : UUID) (mileageKm : Int) : Sql RecordError Unit := do
  let highest ← Prog.query .highestMileage fun d : DB => d.highestMileage vehicleID
  match highest with
  | none => .ret ()
  | some h => if mileageKm < h then .fail (.lowerMileage h) else .ret ()

/-- `upsertMechanic`. The query may match several rows and returns one of them. -/
def upsertMechanic (P : Platform) (workshopID : UUID) : Option String → Sql RecordError (Option UUID)
  | none => .ret none
  | some name =>
    if trimSpace name == "" then .ret none
    else if !DB.storable (trimSpace name) then .fail (.sql .mechanicByName)
    else do
      let found ← Prog.query .mechanicByName fun d : DB =>
        d.mechanics.find? fun m => m.workshopID == workshopID && P.lower m.name == P.lower (trimSpace name)
      match found with
      | some m => .ret (some m.id)
      | none =>
        Prog.write .insertMechanic (.sql .insertMechanic)
          (fun o _ => Key.mechanic (o 0) :: MechanicRow.references ⟨o 0, workshopID, trimSpace name⟩)
          (fun o d => d.acceptsMechanic ⟨o 0, workshopID, trimSpace name⟩)
          (fun o _ => [Change.insertMechanic ⟨o 0, workshopID, trimSpace name⟩]) fun o => some (o 0)

def CreateInput.row (input : CreateInput) (now : Time) (vehicleID : UUID) (mechanicID : Option UUID) (id : UUID) :
    ServiceRecordRow :=
  ⟨id, vehicleID, input.workshopID, mechanicID, input.mileageKm, input.costCents, input.notes, none, now⟩

def insertServiceRecord (input : CreateInput) (now : Time) (vehicleID : UUID) (mechanicID : Option UUID) :
    Sql RecordError UUID :=
  .write .insertServiceRecord (.sql .insertServiceRecord)
    (fun o _ => Key.serviceRecord (o 0) :: (input.row now vehicleID mechanicID (o 0)).references)
    (fun o d => d.acceptsServiceRecord (input.row now vehicleID mechanicID (o 0)))
    (fun o _ => [Change.insertServiceRecord (input.row now vehicleID mechanicID (o 0))]) fun o => o 0

/-- The lock of the foreign key of operations, parts, attachments and `superseded_by`. -/
def recordReference (recordID : UUID) : Key := ⟨.serviceRecord recordID, .keyShare⟩

def insertOperations (recordID : UUID) : List Operation → Sql RecordError Unit
  | [] => .ret ()
  | op :: ops =>
    match ServiceType.parse op.raw with
    | none => Prog.write .insertOperation (.sql .insertOperation) (fun _ _ => []) (fun _ _ => false) (fun _ _ => [])
        fun _ => ()
    | some t => do
      Prog.write .insertOperation (.sql .insertOperation) (fun _ _ => [recordReference recordID])
        (fun _ d => d.acceptsOperation ⟨recordID, t⟩) (fun _ _ => [Change.insertOperation ⟨recordID, t⟩]) fun _ => ()
      insertOperations recordID ops

def Part.row (p : Part) (recordID : UUID) : PartRow := ⟨recordID, trimSpace p.name, p.quantity, p.costCents⟩

def insertParts (recordID : UUID) : List Part → Sql RecordError Unit
  | [] => .ret ()
  | part :: parts => do
    Prog.write .insertPart (.sql .insertPart) (fun _ _ => [recordReference recordID])
      (fun _ d => d.acceptsPart (part.row recordID)) (fun _ _ => [Change.insertPart (part.row recordID)]) fun _ => ()
    insertParts recordID parts

/-- The index of `superseded_by` is partial, so the `UPDATE` changes no key of the row. -/
def setSupersededBy (original new : UUID) : Sql RecordError Unit :=
  .write .setSupersededBy (.sql .setSupersededBy)
    (fun _ _ => [⟨.serviceRecord original, .noKeyUpdate⟩, recordReference new])
    (fun _ d => d.acceptsSupersededBy new) (fun _ _ => [Change.setSupersededBy original new]) fun _ => ()

/-- The rows of `INSERT INTO attachments … SELECT`, with the ids `gen_random_uuid()` gives them. -/
def carriedRows (o : Nat → UUID) (new : UUID) (rows : List AttachmentRow) : List AttachmentRow :=
  rows.zipIdx.map fun p => { p.1 with id := o p.2, serviceRecordID := new }

def freshIDs (d : DB) (rows : List AttachmentRow) : Bool :=
  decide (rows.map (·.id)).Nodup && rows.all fun a => !d.attachments.any (·.id == a.id)

def carryAttachments (original new : UUID) : Sql RecordError Unit :=
  .write .carryAttachments (.sql .carryAttachments)
    (fun o d => recordReference new ::
      (carriedRows o new (d.attachmentsOf original)).map fun a => Key.attachment a.id)
    (fun o d => (d.serviceRecord new).isSome && freshIDs d (carriedRows o new (d.attachmentsOf original)))
    (fun o d => (carriedRows o new (d.attachmentsOf original)).map Change.insertAttachment) fun _ => ()

/-- `Repository.write` up to its commit, which the end of the body is. -/
def write (P : Platform) (now : Time) (input : CreateInput) (rev : Option Revision) : Sql RecordError UUID := do
  match rev with
  | some r => checkRevisable r
  | none => .ret ()
  let vehicle ← selectVehicle input.plate
  match vehicle with
  | none => .fail .vehicleNotFound
  | some v => do
    if rev.isNone && !input.confirmLowerMileage then checkMileage v.id input.mileageKm else .ret ()
    let mechanicID ← upsertMechanic P input.workshopID input.mechanicName
    let recordID ← insertServiceRecord input now v.id mechanicID
    insertOperations recordID input.operations
    insertParts recordID input.parts
    match rev with
    | some r => do
      setSupersededBy (canonicalID r.recordID) recordID
      carryAttachments (canonicalID r.recordID) recordID
    | none => .ret ()
    .ret recordID

/-- `Repository.AddAttachment` up to its commit. -/
def addAttachment (now : Time) (workshopID recordID : Bytes) (a : Attachment) : Sql RecordError Attachment :=
  if !validID recordID then .fail .recordNotFound
  else do
    let found ← Prog.queryForUpdate .lockAttached
      (fun d : DB => ((d.serviceRecord (canonicalID recordID)).map fun r => Key.serviceRecord r.id).toList)
      fun d => d.serviceRecord (canonicalID recordID)
    match found with
    | none => .fail .recordNotFound
    | some r =>
      if r.workshopID ≠ workshopID then .fail .recordNotFound
      else do
        let count ← Prog.query .countAttachments fun d : DB => (d.attachmentsOf r.id).length
        if count ≥ maxAttachmentsPerRecord then .fail .tooManyAttachments
        else
          Prog.write .insertAttachment (.sql .insertAttachment)
            (fun o _ => [Key.attachment (o 0), recordReference r.id])
            (fun o d => d.acceptsAttachment ⟨o 0, r.id, a.url, a.kind, a.phase, now⟩)
            (fun o _ => [Change.insertAttachment ⟨o 0, r.id, a.url, a.kind, a.phase, now⟩])
            fun o => ⟨o 0, a.url, a.kind, a.phase⟩

end Mototeca
