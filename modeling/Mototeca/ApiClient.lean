import Mototeca.Dart

/-!
# The app's API client

`ApiClient`, the models its answers are read into and `ServiceRecordRepository`.
A call is split at its `await`: what it sends, and what it makes of the answer.
-/

namespace Mototeca.Mobile

/-! ## ApiClient -/

inductive HttpBody where
  | json (body : Json)
  | multipart (fields : List (String × String)) (filename contentType : String) (bytes : Bytes)

/-- What goes out for `call` and `upload`; `token` is the session's, if any. -/
structure HttpRequest where
  path : String
  token : Option String
  body : HttpBody

/-- `body` is `none` where the bytes are no text in the charset of the answer,
so that `Response.body` throws `FormatException`. -/
structure HttpResponse where
  statusCode : Nat
  body : Option String

def decode (dart : Dart) (body : String) : JsonMap :=
  if body.isEmpty then []
  else
    match dart.jsonDecode body with
    | some (.map m) => m
    | _ => []

def complete (dart : Dart) (fallback : String) : Option HttpResponse → Except Thrown JsonMap
  | none => .error (.api .offline)
  | some response => do
    let some text := response.body | .error .formatException
    let body := decode dart text
    if response.statusCode ≠ 200 then
      let code ← asString (body.lookup "code")
      let message ← asString (body.lookup "message")
      .error (.api ⟨ApiErrorCode.parse code, message.getD fallback⟩)
    else .ok body

def callFailed : String := "Falha na comunicação com o servidor."

/-- For `upload` as for `call`: the two differ in the fallback text alone, and this asks for no text. -/
def rejected (dart : Dart) (token : Option String) (response : Option HttpResponse) : Bool :=
  match complete dart callFailed response with
  | .error (.api e) => e.isSessionExpired && token.isSome
  | _ => false

/-! ## Models -/

inductive ServiceOperation where
  | oilChange | scheduledReview | brakes | chainAndSprocket | tires | electrical | sparkPlugs | suspension | clutch
  | fuelInjection | bodywork | other
  deriving DecidableEq

namespace ServiceOperation

def wire : ServiceOperation → String
  | oilChange => "SERVICE_TYPE_OIL_CHANGE"
  | scheduledReview => "SERVICE_TYPE_SCHEDULED_REVIEW"
  | brakes => "SERVICE_TYPE_BRAKES"
  | chainAndSprocket => "SERVICE_TYPE_CHAIN_AND_SPROCKET"
  | tires => "SERVICE_TYPE_TIRES"
  | electrical => "SERVICE_TYPE_ELECTRICAL"
  | sparkPlugs => "SERVICE_TYPE_SPARK_PLUGS"
  | suspension => "SERVICE_TYPE_SUSPENSION"
  | clutch => "SERVICE_TYPE_CLUTCH"
  | fuelInjection => "SERVICE_TYPE_FUEL_INJECTION"
  | bodywork => "SERVICE_TYPE_BODYWORK"
  | other => "SERVICE_TYPE_OTHER"

def values : List ServiceOperation :=
  [oilChange, scheduledReview, brakes, chainAndSprocket, tires, electrical, sparkPlugs, suspension, clutch,
    fuelInjection, bodywork, other]

def fromWire (wire : Option String) : Option ServiceOperation :=
  values.find? fun operation => some operation.wire == wire

def listFromWire (raw : Option (List Json)) : Except Thrown (List ServiceOperation) := do
  let operations ← (raw.getD []).mapM fun value => (asString (some value)).map fromWire
  return operations.filterMap id

end ServiceOperation

structure Part where
  name : String
  quantity : Int
  costCents : Option Int
  deriving DecidableEq

def Part.fromJson (json : JsonMap) : Except Thrown Part := do
  let name ← asString (json.lookup "name")
  let quantity ← asInt (json.lookup "quantity")
  let costCents ← asInt (json.lookup "costCents")
  return ⟨name.getD "", quantity.getD 1, costCents⟩

/-- `'costCents': ?costCents` and its like. -/
def entry (key : String) (value : Option Json) : JsonMap := (value.map fun v => (key, v)).toList

def Part.toJson (part : Part) : Json :=
  .map ([("name", .string part.name), ("quantity", .num (.int part.quantity))] ++
    entry "costCents" (part.costCents.map fun c => .num (.int c)))

structure Attachment where
  id : String
  url : String
  kind : String
  phase : Option String
  deriving DecidableEq

def Attachment.fromJson (json : JsonMap) : Except Thrown Attachment := do
  let id ← asString (json.lookup "id")
  let url ← asString (json.lookup "url")
  let kind ← asString (json.lookup "kind")
  let phase ← asString (json.lookup "phase")
  return ⟨id.getD "", url.getD "", kind.getD "photo", phase⟩

structure VehicleSummary where
  plate : String
  make : String
  model : String
  year : Int
  deriving DecidableEq

def VehicleSummary.fromJson (json : JsonMap) : Except Thrown VehicleSummary := do
  let plate ← asString (json.lookup "plate")
  let make ← asString (json.lookup "make")
  let model ← asString (json.lookup "model")
  let year ← asInt (json.lookup "year")
  return ⟨plate.getD "", make.getD "", model.getD "", year.getD 0⟩

structure ServiceRecord where
  id : String
  vehicle : VehicleSummary
  workshopName : String
  mechanicName : Option String
  operations : List ServiceOperation
  mileageKm : Int
  costCents : Option Int
  notes : Option String
  parts : List Part
  attachments : List Attachment
  createdAt : DateTime
  revisesRecordId : Option String
  supersededByRecordId : Option String
  deriving DecidableEq

def eachMap {α : Type} (f : JsonMap → Except Thrown α) (raw : Option (List Json)) : Except Thrown (List α) :=
  (raw.getD []).mapM fun value =>
    match value with
    | .map m => f m
    | _ => .error .typeError

def ServiceRecord.fromJson (dart : Dart) (now : DateTime) (json : JsonMap) : Except Thrown ServiceRecord := do
  let id ← asString (json.lookup "id")
  let vehicle ← asMap (json.lookup "vehicle")
  let vehicle ← VehicleSummary.fromJson (vehicle.getD [])
  let workshopName ← asString (json.lookup "workshopName")
  let mechanicName ← asString (json.lookup "mechanicName")
  let operations ← asList (json.lookup "operations")
  let operations ← ServiceOperation.listFromWire operations
  let mileageKm ← asInt (json.lookup "mileageKm")
  let costCents ← asInt (json.lookup "costCents")
  let notes ← asString (json.lookup "notes")
  let parts ← asList (json.lookup "parts")
  let parts ← eachMap Part.fromJson parts
  let attachments ← asList (json.lookup "attachments")
  let attachments ← eachMap Attachment.fromJson attachments
  let createdAt ← asString (json.lookup "createdAt")
  let revisesRecordId ← asString (json.lookup "revisesRecordId")
  let supersededByRecordId ← asString (json.lookup "supersededByRecordId")
  return {
    id := id.getD "", vehicle, workshopName := workshopName.getD "", mechanicName, operations
    mileageKm := mileageKm.getD 0, costCents, notes, parts, attachments
    createdAt := (dart.tryParse (createdAt.getD "")).getD now, revisesRecordId, supersededByRecordId }

/-! ## ServiceRecordRepository -/

namespace ServiceRecordRepository

def service : String := "mototeca.service.v1.ServiceRecordService"
def createPath : String := service ++ "/CreateServiceRecord"
def revisePath : String := service ++ "/ReviseServiceRecord"

structure Fields where
  operations : List ServiceOperation
  mileageKm : Int
  mechanicName : Option String
  costCents : Option Int
  notes : Option String
  parts : List Part
  deriving DecidableEq

def textEntry (key : String) (text : Option String) : JsonMap :=
  entry key ((text.filter fun t => trim t != "").map fun t => .string (trim t))

def Fields.toJson (fields : Fields) : JsonMap :=
  [("operations", .list (fields.operations.map fun o => .string o.wire)),
    ("mileageKm", .num (.int fields.mileageKm))] ++
  textEntry "mechanicName" fields.mechanicName ++
  entry "costCents" (fields.costCents.map fun c => .num (.int c)) ++
  textEntry "notes" fields.notes ++
  if fields.parts.isEmpty then [] else [("parts", .list (fields.parts.map Part.toJson))]

def create (dart : Dart) (token : Option String) (plate : String) (fields : Fields) (confirmLowerMileage : Bool) :
    HttpRequest :=
  ⟨createPath, token, .json (.map ([("plate", .string (normalizePlate dart plate))] ++ fields.toJson ++
    if confirmLowerMileage then [("confirmLowerMileage", .bool true)] else []))⟩

def revise (token : Option String) (recordId : String) (fields : Fields) : HttpRequest :=
  ⟨revisePath, token, .json (.map ([("recordId", .string recordId)] ++ fields.toJson))⟩

/-- `create` and `revise` after the `await`. -/
def record (dart : Dart) (now : DateTime) (response : Option HttpResponse) : Except Thrown ServiceRecord := do
  let body ← complete dart callFailed response
  let record ← asMap (body.lookup "record")
  ServiceRecord.fromJson dart now (record.getD [])

def uploadAttachment (token : Option String) (recordId kind : String) (phase : Option String)
    (filename contentType : String) (bytes : Bytes) : HttpRequest :=
  ⟨"v1/service-records/" ++ recordId ++ "/attachments", token,
    .multipart ([("kind", kind)] ++ (phase.map fun p => ("phase", p)).toList) filename contentType bytes⟩

end ServiceRecordRepository

def HttpRequest.confirmsLowerMileage (request : HttpRequest) : Bool :=
  request.path == ServiceRecordRepository.createPath &&
    match request.body with
    | .json (.map m) =>
      match m.lookup "confirmLowerMileage" with
      | some (.bool true) => true
      | _ => false
    | _ => false

end Mototeca.Mobile
