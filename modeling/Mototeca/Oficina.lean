import Mototeca.Outbox

/-!
# The Oficina app

The tasks of the app that touch the outbox or create records, interleaved at
their awaits: the loops of `Outbox.flush`, the reloads, and the saves of
`NewRecordScreen`. An event completes what one task awaits; the network and
the API choose how.
-/

namespace Mototeca.Mobile

open ServiceRecordRepository

/-! ## Requests and answers -/

/-- What a request was sent for: the `create` of a draft, a file of a draft,
or a save on screen. -/
inductive Origin where
  | draft (id : Nat)
  | draftFile (id : Nat)
  | screen (k : Nat)
  deriving DecidableEq

structure Sent where
  origin : Origin
  request : HttpRequest

/-- `fromApi` is false for any other responder on the path. -/
structure Answer where
  fromApi : Bool
  response : HttpResponse

/-! ## Outbox.flush -/

/-- Where a flush stands. It takes its list at `ensured`; `ready` and `attaching`
are the heads of the loops over the drafts and over the files of one. -/
inductive FlushPhase where
  | ensuring (load : Load)
  | ensured
  | ready
  | creating (draft : QueuedDraft) (request : Nat)
  | attaching (draft : QueuedDraft) (record : ServiceRecord) (files : List OutboxAttachment)
  | uploading (draft : QueuedDraft) (record : ServiceRecord) (request : Nat) (files : List OutboxAttachment)
  | removing (draft : QueuedDraft)
  | reloading (load : Load)
  | finished
  | threw

/-- `left` are the drafts still to come, `sent` and `failed` the `FlushResult`. -/
structure Flush where
  phase : FlushPhase
  left : List QueuedDraft
  sent : Nat
  failed : Nat

/-! ## NewRecordScreen -/

structure Draft where
  operations : List ServiceOperation
  mileageKm : Int
  mechanicName : String
  costCents : Option Int
  notes : String
  parts : List Part

def Draft.fields (draft : Draft) : Fields :=
  ⟨draft.operations, draft.mileageKm, some draft.mechanicName, draft.costCents, some draft.notes, draft.parts⟩

/-- What `_save` reads from the screen, once the numbers typed are parsed. -/
structure NewRecord where
  plate : String
  vehicle : Option VehicleSummary
  vehicleLabel : String
  revising : Option String
  draft : Draft
  files : List OutboxAttachment

def NewRecord.formReady (screen : NewRecord) (offline : Bool) : Bool :=
  screen.vehicle.isSome || (offline && trim screen.plate != "")

def NewRecord.outboxDraft (dart : Dart) (screen : NewRecord) (now : DateTime) : OutboxDraft where
  plate := normalizePlate dart screen.plate
  vehicleLabel := if trim screen.vehicleLabel == "" then "Moto não identificada" else trim screen.vehicleLabel
  operations := screen.draft.operations
  mileageKm := screen.draft.mileageKm
  savedAt := now
  mechanicName := trim screen.draft.mechanicName
  costCents := screen.draft.costCents
  notes := trim screen.draft.notes
  parts := screen.draft.parts
  attachments := screen.files

/-- Where an online `_save` stands; `asking` is the question of `_confirmLowerMileage`. -/
inductive SavePhase where
  | creating (confirmLowerMileage : Bool) (request : Nat)
  | asking
  | revising (request : Nat)
  | uploading (record : ServiceRecord) (request : Nat) (left : List OutboxAttachment)
  | finished

structure Save where
  plate : String
  draft : Draft
  files : List OutboxAttachment
  phase : SavePhase

/-! ## The app -/

inductive LoadReason where
  | screen
  | add
  | discard (id : Nat)
  deriving DecidableEq

/-- The device, the app's memory, and what the API made of the requests. Tasks
and requests are numbered in the order they began; a `load` that is over has no
next query. `refused` are the requests processed without a new service record,
`removed` the drafts whose row a flush has deleted, and `confirmed` the saves
whose lower mileage the mechanic confirmed. -/
structure Oficina where
  db : OutboxDb
  outbox : Outbox
  session : Option String
  loads : List (LoadReason × Option Load)
  flushes : List Flush
  saves : List Save
  requests : List Sent
  created : List Nat
  refused : List Nat
  removed : List Nat
  confirmed : List Nat

/-- `signIn` is `_submit` once `login` has returned, `send` is `_send`,
`discard` and `save` run up to their delete, transaction or first request, and
`reply` answers the question of `_confirmLowerMileage`. `load` and `disk` are
the next query of a reload and of a flush, or its exception; `resume` goes on
from the head of a loop. -/
inductive Event where
  | restart
  | signIn (token : String)
  | signOut
  | send
  | openScreen
  | discard (id : Nat)
  | save (screen : NewRecord) (now : DateTime)
  | reply (k : Nat) (yes mounted : Bool)
  | saveAnswer (k : Nat) (answer : Option Answer) (mounted : Bool) (now : DateTime)
  | load (j : Nat) (ok : Bool)
  | resume (i : Nat)
  | flushAnswer (i : Nat) (answer : Option Answer) (now : DateTime)
  | disk (i : Nat) (ok : Bool)
  | api (r : Nat) (creates : Bool)

namespace Oficina

def init : Oficina :=
  { db := .empty, outbox := ⟨[], false⟩, session := none, loads := [], flushes := [], saves := [], requests := []
    created := [], refused := [], removed := [], confirmed := [] }

variable (dart : Dart) (s : Oficina)

def setFlush (i : Nat) (flush : Flush) : Oficina := { s with flushes := s.flushes.set i flush }

def setSave (k : Nat) (save : Save) : Oficina := { s with saves := s.saves.set k save }

def sendRequest (origin : Origin) (request : HttpRequest) : Oficina :=
  { s with requests := s.requests ++ [⟨origin, request⟩] }

/-- No task outlives the process, and the session is in memory only. -/
def restart : Oficina :=
  { s with
    outbox := ⟨[], false⟩, session := none
    loads := s.loads.map fun task => (task.1, none)
    flushes := s.flushes.map fun flush => { flush with phase := .threw }
    saves := s.saves.map fun save => { save with phase := .finished } }

def startLoad (reason : LoadReason) : Oficina := { s with loads := s.loads ++ [(reason, some .drafts)] }

def startFlush : Oficina :=
  { s with flushes := s.flushes ++ [⟨if s.outbox.loaded then .ensured else .ensuring .drafts, [], 0, 0⟩] }

/-- The client gets an answer to the request `r`; one from the API comes after
the API has processed it. A rejected token ends the session. -/
def hear (r : Nat) (answer : Option Answer) : Option Oficina :=
  match s.requests[r]? with
  | none => none
  | some sent =>
    if answer.any (·.fromApi) && !(s.created.contains r || s.refused.contains r) then none
    else if rejected dart sent.request.token (answer.map (·.response)) then some { s with session := none }
    else some s

/-- The files whose `MediaType` parses; the others are passed over at once. -/
def uploads (files : List OutboxAttachment) : List OutboxAttachment :=
  files.filter fun a => dart.mediaType a.contentType

def sendDraft (i : Nat) (flush : Flush) (draft : QueuedDraft) (left : List QueuedDraft) : Oficina :=
  (s.sendRequest (.draft draft.id) (create dart s.session draft.plate
    ⟨draft.operations, draft.mileageKm, some draft.mechanicName, draft.costCents, some draft.notes, draft.parts⟩
    true)).setFlush i { flush with phase := .creating draft s.requests.length, left }

def sendFile (i : Nat) (flush : Flush) (draft : QueuedDraft) (record : ServiceRecord) (a : OutboxAttachment)
    (files : List OutboxAttachment) : Oficina :=
  (s.sendRequest (.draftFile draft.id)
    (uploadAttachment s.session record.id a.kind a.phase a.filename a.contentType a.bytes)).setFlush i
    { flush with phase := .uploading draft record s.requests.length files }

def resume (i : Nat) : Option Oficina :=
  match s.flushes[i]? with
  | some flush =>
    match flush.phase, flush.left with
    | .ensured, _ => some (s.setFlush i { flush with phase := .ready, left := s.outbox.drafts })
    | .ready, [] => some (s.setFlush i { flush with phase := .finished })
    | .ready, draft :: left => some (s.sendDraft dart i flush draft left)
    | .attaching draft _ [], _ => some (s.setFlush i { flush with phase := .removing draft })
    | .attaching draft record (a :: files), _ => some (s.sendFile i flush draft record a files)
    | _, _ => none
  | none => none

/-- `on Object` counts whatever `create` throws; the uploads never throw. -/
def flushAnswer (i : Nat) (answer : Option Answer) (now : DateTime) : Option Oficina :=
  match s.flushes[i]? with
  | some flush =>
    match flush.phase with
    | .creating draft r =>
      (s.hear dart r answer).map fun s =>
        match record dart now (answer.map (·.response)) with
        | .ok record =>
          s.setFlush i { flush with phase := .attaching draft record (uploads dart draft.attachments) }
        | .error _ => s.setFlush i { flush with phase := .ready, failed := flush.failed + 1 }
    | .uploading draft record r files =>
      (s.hear dart r answer).map fun s => s.setFlush i { flush with phase := .attaching draft record files }
    | _ => none
  | none => none

def diskLoad (i : Nat) (flush : Flush) (ok : Bool) (load : Load) (again : Load → FlushPhase) (done threw : Flush) :
    Oficina :=
  if ok then
    match load.step dart s.db with
    | .ok (.inl load) => s.setFlush i { flush with phase := again load }
    | .ok (.inr drafts) => ({ s with outbox := .ofLoad drafts }).setFlush i done
    | .error _ => s.setFlush i threw
  else s.setFlush i threw

/-- `ensureLoaded` is outside the `try`, the delete and its reload inside. -/
def disk (i : Nat) (ok : Bool) : Option Oficina :=
  match s.flushes[i]? with
  | some flush =>
    let failed := { flush with phase := .ready, failed := flush.failed + 1 }
    match flush.phase with
    | .ensuring load =>
      some (s.diskLoad dart i flush ok load .ensuring { flush with phase := .ensured } { flush with phase := .threw })
    | .removing draft =>
      if ok then
        some (({ s with db := s.db.delete draft.id, removed := draft.id :: s.removed }).setFlush i
          { flush with phase := .reloading .drafts })
      else some (s.setFlush i failed)
    | .reloading load =>
      some (s.diskLoad dart i flush ok load .reloading { flush with phase := .ready, sent := flush.sent + 1 } failed)
    | _ => none
  | none => none

def loadStep (j : Nat) (ok : Bool) : Option Oficina :=
  match s.loads[j]? with
  | some (reason, some load) =>
    let next (load : Option Load) : Oficina := { s with loads := s.loads.set j (reason, load) }
    if ok then
      match load.step dart s.db with
      | .ok (.inl load) => some (next (some load))
      | .ok (.inr drafts) => some { next none with outbox := .ofLoad drafts }
      | .error _ => some (next none)
    else some (next none)
  | _ => none

def queue (screen : NewRecord) (now : DateTime) : Option Oficina :=
  (s.db.add dart (screen.outboxDraft dart now)).map fun db => ({ s with db }).startLoad .add

def sendCreate (k : Nat) (save : Save) (confirmLowerMileage : Bool) : Oficina :=
  (s.sendRequest (.screen k) (create dart s.session save.plate save.draft.fields confirmLowerMileage)).setSave k
    { save with phase := .creating confirmLowerMileage s.requests.length }

def startSave (save : Save) : Oficina := { s with saves := s.saves ++ [save] }

def save (screen : NewRecord) (now : DateTime) : Option Oficina :=
  let offline := s.session.isNone
  let k := s.saves.length
  if !screen.formReady offline || screen.draft.operations.isEmpty then none
  else if offline then s.queue dart screen now
  else
    match screen.revising, screen.vehicle with
    | some original, _ =>
      let save : Save := ⟨screen.plate, screen.draft, screen.files, .revising s.requests.length⟩
      some ((s.startSave save).sendRequest (.screen k) (revise s.session original screen.draft.fields))
    | none, some vehicle =>
      let save : Save := ⟨vehicle.plate, screen.draft, screen.files, .finished⟩
      some ((s.startSave save).sendCreate dart k save false)
    | none, none => none

def uploadScreen (k : Nat) (save : Save) (record : ServiceRecord) : List OutboxAttachment → Oficina
  | [] => s.setSave k { save with phase := .finished }
  | a :: left =>
    (s.sendRequest (.screen k)
      (uploadAttachment s.session record.id a.kind a.phase a.filename a.contentType a.bytes)).setSave k
      { save with phase := .uploading record s.requests.length left }

/-- Whether `_create` asks the mechanic: its first request was refused with
`failedPrecondition` and the screen is still there. -/
def asks (confirmLowerMileage mounted : Bool) : Thrown → Bool
  | .api e => !confirmLowerMileage && e.code == .failedPrecondition && mounted
  | _ => false

def saveAnswer (k : Nat) (answer : Option Answer) (mounted : Bool) (now : DateTime) : Option Oficina :=
  match s.saves[k]? with
  | some save =>
    let answered (r : Nat) (refused : Thrown → SavePhase) : Option Oficina :=
      (s.hear dart r answer).map fun s =>
        match record dart now (answer.map (·.response)) with
        | .ok record =>
          if mounted then s.uploadScreen k save record (uploads dart save.files)
          else s.setSave k { save with phase := .finished }
        | .error thrown => s.setSave k { save with phase := refused thrown }
    match save.phase with
    | .creating confirmLowerMileage r =>
      answered r fun thrown => if asks confirmLowerMileage mounted thrown then .asking else .finished
    | .revising r => answered r fun _ => .finished
    | .uploading record r left => (s.hear dart r answer).map fun s => s.uploadScreen k save record left
    | _ => none
  | none => none

/-- "Salvar assim" sends the record again with `confirmLowerMileage: true`. -/
def reply (k : Nat) (yes mounted : Bool) : Option Oficina :=
  match s.saves[k]? with
  | some save =>
    match save.phase with
    | .asking =>
      let s := if yes then { s with confirmed := k :: s.confirmed } else s
      if yes && mounted then some (s.sendCreate dart k save true)
      else some (s.setSave k { save with phase := .finished })
    | _ => none
  | none => none

/-- A request is processed at most once, and only the two calls that save a
record can make one. -/
def api (r : Nat) (creates : Bool) : Option Oficina :=
  match s.requests[r]? with
  | none => none
  | some sent =>
    if s.created.contains r || s.refused.contains r then none
    else if !creates then some { s with refused := r :: s.refused }
    else if sent.request.path == createPath || sent.request.path == revisePath then
      some { s with created := r :: s.created }
    else none

def step : Event → Option Oficina
  | .restart => some s.restart
  | .signIn token => some ({ s with session := some token }).startFlush
  | .signOut => some { s with session := none }
  | .send => some s.startFlush
  | .openScreen => some (if s.outbox.loaded then s else s.startLoad .screen)
  | .discard id => some (({ s with db := s.db.delete id }).startLoad (.discard id))
  | .save screen now => s.save dart screen now
  | .reply k yes mounted => s.reply dart k yes mounted
  | .saveAnswer k answer mounted now => s.saveAnswer dart k answer mounted now
  | .load j ok => s.loadStep dart j ok
  | .resume i => s.resume dart i
  | .flushAnswer i answer now => s.flushAnswer dart i answer now
  | .disk i ok => s.disk dart i ok
  | .api r creates => s.api r creates

end Oficina

/-! ## A draft -/

def sampleBody : String := "\x7b\"record\":\x7b\x7d\x7d"

def sampleTime : String := "2026-05-04T10:00:00.000"

def sampleNow : DateTime := ⟨1777888800000000, false⟩

def sampleDart : Dart where
  jsonDecode text := if text == sampleBody then some (.map [("record", .map [])]) else none
  tryParse text := if text == sampleTime then some sampleNow else none
  toIso8601String _ := sampleTime
  toUpperCase text := String.ofList (text.toList.map Char.toUpper)
  mediaType text := text == "image/jpeg"

def sampleScreen : NewRecord :=
  ⟨"ABC1D23", none, "", none, ⟨[.oilChange], 12000, "", none, "", []⟩, []⟩

def queued : List Event := [.save sampleScreen sampleNow, .load 0 true, .load 0 true, .load 0 true, .load 0 true]

end Mototeca.Mobile
