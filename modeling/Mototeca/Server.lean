import Mototeca.Owners

/-!
# The API: handlers and the requests they serve

A handler is a transaction body whose errors are the ones the client sees.
Requests of every kind run side by side as the transactions of one machine.
-/

namespace Mototeca

open ReadCommitted

/-! ## Sessions -/

inductive Kind where
  | workshop
  | owner
  deriving DecidableEq

structure Subject where
  kind : Kind
  id : Bytes
  deriving DecidableEq

/-! ## Errors -/

inductive Code where
  | invalidArgument | notFound | alreadyExists | unauthenticated | permissionDenied | failedPrecondition
  | resourceExhausted | internal
  deriving DecidableEq

/-- An error answer: Connect's, or the upload route's with its HTTP status. -/
inductive Failure where
  | connect (code : Code) (message : String)
  | http (status : Nat) (code message : String)
  deriving DecidableEq

def subjectFrom (subject : Option Subject) : Option Subject := subject.filter (·.id != [])

/-- `require`: a session of the wanted kind, else `message`. -/
def require (subject : Option Subject) (want : Kind) (message : String) : Except Failure Bytes :=
  match subjectFrom subject with
  | some s => if s.kind = want then .ok s.id else .error (.connect .unauthenticated message)
  | none => .error (.connect .unauthenticated message)

def requireWorkshopID (subject : Option Subject) : Except Failure Bytes :=
  require subject .workshop "entre como oficina para continuar"

def requireOwnerID (subject : Option Subject) : Except Failure Bytes :=
  require subject .owner "entre como proprietário para continuar"

def requireSubject (subject : Option Subject) : Except Failure Subject :=
  match subjectFrom subject with
  | some s => .ok s
  | none => .error (.connect .unauthenticated "entre para continuar")

def withSession {α β : Type} (session : Except Failure α) (k : α → Sql Failure β) : Sql Failure β :=
  match session with
  | .ok a => k a
  | .error e => .fail e

/-! ## Service record handlers -/

structure RecordMsg where
  mechanicName : Option String
  operations : List Int
  mileageKm : Int
  costCents : Option Int
  notes : Option String
  parts : List Part
  deriving DecidableEq

structure CreateServiceRecordRequest extends RecordMsg where
  plate : String
  confirmLowerMileage : Bool
  deriving DecidableEq

structure ReviseServiceRecordRequest extends RecordMsg where
  recordID : Bytes
  deriving DecidableEq

def operationProtoPairs : List (Operation × Int) :=
  [(.oilChange, 1), (.scheduledReview, 2), (.brakes, 3), (.chainAndSprocket, 4), (.tires, 5), (.electrical, 6),
    (.sparkPlugs, 7), (.suspension, 8), (.clutch, 9), (.fuelInjection, 10), (.bodywork, 11), (.other, 12)]

/-- An unknown wire value gives the empty operation. -/
def operationFromProto (t : Int) : Operation :=
  ((operationProtoPairs.find? fun p => p.2 == t).map (·.1)).getD ⟨""⟩

def RecordMsg.input (msg : RecordMsg) (workshopID : Bytes) (plate : String) (revises : Option Bytes)
    (confirmLowerMileage : Bool) : CreateInput :=
  ⟨workshopID, plate, msg.mechanicName, msg.operations.map operationFromProto, msg.mileageKm, msg.costCents,
    msg.notes, msg.parts, revises, confirmLowerMileage⟩

def createError : RecordError → Failure
  | .lowerMileage highestKm => .connect .failedPrecondition
      ("quilometragem menor que a última registrada para esta moto (" ++ toString highestKm ++ " km)")
  | .vehicleNotFound => .connect .notFound "moto não cadastrada — cadastre a placa antes"
  | _ => .connect .internal "falha ao salvar o registro"

/-- `Handler.CreateServiceRecord` up to the commit. -/
def createServiceRecord (P : Platform) (now : Time) (workshopID : Bytes) (req : CreateServiceRecordRequest) :
    Sql Failure UUID :=
  let input := req.input workshopID (normalizePlate P req.plate) none req.confirmLowerMileage
  match input.validate with
  | some message => .fail (.connect .invalidArgument message)
  | none => (write P now input none).mapFail createError

def reviseError : RecordError → Failure
  | .recordNotFound => .connect .notFound "registro não encontrado"
  | .alreadySuperseded => .connect .failedPrecondition "este registro já foi corrigido — revise a correção"
  | _ => .connect .internal "falha ao corrigir o registro"

/-- `Handler.ReviseServiceRecord` up to the commit. The plate is read before the transaction begins. -/
def reviseServiceRecord (P : Platform) (now : Time) (workshopID : Bytes) (req : ReviseServiceRecordRequest) :
    Sql Failure UUID :=
  if req.recordID = [] then .fail (.connect .invalidArgument "informe o registro a corrigir")
  else do
    let original ← (findByID P req.recordID).mapFail fun _ => .connect .internal "falha ao corrigir o registro"
    match original with
    | none => .fail (.connect .notFound "registro não encontrado")
    | some original =>
      let input := req.input workshopID original.vehicle.plate (some req.recordID) false
      match input.validate with
      | some message => .fail (.connect .invalidArgument message)
      | none => (write P now input (some ⟨workshopID, req.recordID⟩)).mapFail reviseError

/-! ## The upload route -/

structure UploadRequest where
  pathID : Bytes
  kind : String
  phase : String
  /-- Where `Put` stored the file. -/
  url : String
  deriving DecidableEq

def phaseParams : List (String × String) := [("before", "before"), ("after", "after")]

/-- `attachmentKind`: the kind and phase to store, or the message that refuses the form. -/
def attachmentKind (kind rawPhase : String) : Except String (String × Option String) :=
  let kind := if kind == "" then "photo" else kind
  if kind != "photo" && kind != "invoice" then .error "kind deve ser \"photo\" ou \"invoice\""
  else if rawPhase == "" then .ok (kind, none)
  else
    match phaseParams.lookup rawPhase with
    | none => .error "phase deve ser \"before\" ou \"after\""
    | some phase => if kind != "photo" then .error "só fotos têm antes/depois" else .ok (kind, some phase)

def uploadError : RecordError → Failure
  | .recordNotFound => .http 404 "not_found" "registro não encontrado"
  | .tooManyAttachments => .http 400 "invalid_argument"
      ("um registro aceita até " ++ toString maxAttachmentsPerRecord ++ " arquivos")
  | _ => .http 500 "internal" "falha ao vincular o arquivo"

/-- `UploadHandler.authenticate`: the route reads the token itself. -/
def authenticateUpload : Option Subject → Except Failure Bytes
  | some ⟨.workshop, id⟩ => .ok id
  | _ => .error (.http 401 "unauthenticated" "entre como oficina para continuar")

/-- `UploadHandler.ServeHTTP`, for a request whose file was read and stored. -/
def upload (P : Platform) (now : Time) (workshopID : Bytes) (req : UploadRequest) : Sql Failure Attachment := do
  let record ← (findByID P req.pathID).mapFail fun _ => .http 500 "internal" "falha ao enviar o arquivo"
  match record with
  | none => .fail (.http 404 "not_found" "registro não encontrado")
  | some record =>
    if record.workshopID ≠ workshopID then .fail (.http 404 "not_found" "registro não encontrado")
    else
      match attachmentKind req.kind req.phase with
      | .error message => .fail (.http 400 "invalid_argument" message)
      | .ok (kind, phase) =>
        (addAttachment now workshopID record.id ⟨[], req.url, kind, phase⟩).mapFail uploadError

/-! ## Vehicle and owner handlers -/

def createVehicleError : VehicleError → Failure
  | .duplicatePlate => .connect .alreadyExists "esta placa já está cadastrada"
  | .duplicateChassi => .connect .alreadyExists "este chassi já está cadastrado em outra placa"
  | .sql _ => .connect .internal "falha ao cadastrar a moto"

/-- `Handler.CreateVehicle`. -/
def registerVehicle (P : Platform) (now : Time) (req : VehicleInput) : Sql Failure UUID :=
  let input := req.normalized P
  match input.validate (P.year now) with
  | some message => .fail (.connect .invalidArgument message)
  | none => (createVehicle P input).mapFail createVehicleError

structure ClaimVehicleRequest where
  plate : String
  chassiSuffix : String
  deriving DecidableEq

def claimError : OwnerError → Failure
  | .chassiMismatch => .connect .permissionDenied "o final do chassi não confere com esta placa"
  | .vehicleNotFound => .connect .notFound "nenhuma moto cadastrada com esta placa"
  | .vehicleClaimed => .connect .failedPrecondition "esta moto já está vinculada a outro proprietário"
  | .sql _ => .connect .internal "falha ao vincular a moto"

/-- `Handler.ClaimVehicle` up to the commit. -/
def claimVehicle (P : Platform) (ownerID : Bytes) (req : ClaimVehicleRequest) : Sql Failure OwnedVehicle :=
  let plate := normalizePlate P req.plate
  if plate == "" then .fail (.connect .invalidArgument "informe a placa")
  else
    let suffix := normalizeChassiSuffix P req.chassiSuffix
    match validateChassiSuffix suffix with
    | some message => .fail (.connect .invalidArgument message)
    | none => (claim ownerID plate suffix).mapFail claimError

def releaseError : OwnerError → Failure
  | .vehicleNotFound => .connect .notFound "esta moto não está vinculada a você"
  | _ => .connect .internal "falha ao desvincular a moto"

def releaseVehicle (P : Platform) (ownerID : Bytes) (plate : String) : Sql Failure Unit :=
  let plate := normalizePlate P plate
  if plate == "" then .fail (.connect .invalidArgument "informe a placa")
  else (release ownerID plate).mapFail releaseError

/-! ## The machine -/

inductive Call where
  | createServiceRecord (req : CreateServiceRecordRequest)
  | reviseServiceRecord (req : ReviseServiceRecordRequest)
  | upload (req : UploadRequest)
  | createVehicle (req : VehicleInput)
  | claimVehicle (req : ClaimVehicleRequest)
  | releaseVehicle (plate : String)
  deriving DecidableEq

/-- A call with the session that the token gave it and the `now()` of its transaction. -/
structure Request where
  subject : Option Subject
  now : Time
  call : Call
  deriving DecidableEq

inductive Reply where
  | record (id : UUID)
  | attachment (a : Attachment)
  | vehicle (id : UUID)
  | owned (v : OwnedVehicle)
  | released
  deriving DecidableEq

def serve (P : Platform) (q : Request) : Sql Failure Reply :=
  match q.call with
  | .createServiceRecord req => withSession (requireWorkshopID q.subject) fun id => do
      let record ← createServiceRecord P q.now id req
      .ret (.record record)
  | .reviseServiceRecord req => withSession (requireWorkshopID q.subject) fun id => do
      let record ← reviseServiceRecord P q.now id req
      .ret (.record record)
  | .upload req => withSession (authenticateUpload q.subject) fun id => do
      let stored ← upload P q.now id req
      .ret (.attachment stored)
  | .createVehicle req => withSession (requireSubject q.subject) fun _ => do
      let id ← registerVehicle P q.now req
      .ret (.vehicle id)
  | .claimVehicle req => withSession (requireOwnerID q.subject) fun id => do
      let owned ← claimVehicle P id req
      .ret (.owned owned)
  | .releaseVehicle plate => withSession (requireOwnerID q.subject) fun id => do
      releaseVehicle P id plate
      .ret .released

abbrev ServerState := State Stmt DB Change Key (Nat → UUID) Failure Request Reply

abbrev ServerEvent := Event (Nat → UUID) Request

def server (P : Platform) : Machine Stmt DB Change Key (Nat → UUID) Failure Request Reply :=
  ⟨DB.apply, serve P⟩

end Mototeca
