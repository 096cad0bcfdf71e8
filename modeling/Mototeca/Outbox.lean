import Mathlib.Data.List.Sort
import Mototeca.ApiClient

/-!
# The outbox on the device

The outbox tables of the app's SQLite database and what `Outbox` does with
them. A `load` is several queries; each is a step of its own.
-/

namespace Mototeca.Mobile

/-! ## Drafts -/

structure OutboxAttachment where
  kind : String
  phase : Option String
  filename : String
  contentType : String
  bytes : Bytes
  deriving DecidableEq

/-- A draft before it has a row; `QueuedDraft` is one with an id. -/
structure OutboxDraft where
  plate : String
  vehicleLabel : String
  operations : List ServiceOperation
  mileageKm : Int
  savedAt : DateTime
  mechanicName : String
  costCents : Option Int
  notes : String
  parts : List Part
  attachments : List OutboxAttachment
  deriving DecidableEq

structure QueuedDraft extends OutboxDraft where
  id : Nat
  deriving DecidableEq

/-! ## The tables -/

structure DraftRow where
  id : Nat
  plate : String
  vehicleLabel : String
  mileageKm : Int
  mechanicName : String
  costCents : Option Int
  notes : String
  savedAt : String
  deriving DecidableEq

structure OutboxOperationRow where
  draftId : Nat
  operation : String
  deriving DecidableEq

structure OutboxPartRow where
  id : Nat
  draftId : Nat
  name : String
  quantity : Int
  costCents : Option Int
  deriving DecidableEq

structure OutboxAttachmentRow extends OutboxAttachment where
  id : Nat
  draftId : Nat
  deriving DecidableEq

/-- The rows in the order of their rowids, and the next value of each
`AUTOINCREMENT`. -/
structure OutboxDb where
  drafts : List DraftRow
  operations : List OutboxOperationRow
  parts : List OutboxPartRow
  attachments : List OutboxAttachmentRow
  nextDraft : Nat
  nextPart : Nat
  nextAttachment : Nat

namespace OutboxDb

def empty : OutboxDb := ⟨[], [], [], [], 1, 1, 1⟩

variable (db : OutboxDb)

def nonNegative (n : Option Int) : Bool := n.all fun c => 0 ≤ c

def insertOperation (id : Nat) (operation : ServiceOperation) : Option OutboxDb :=
  if db.operations.contains ⟨id, operation.wire⟩ then none
  else some { db with operations := db.operations ++ [⟨id, operation.wire⟩] }

def insertPart (id : Nat) (part : Part) : Option OutboxDb :=
  if 0 < part.quantity && nonNegative part.costCents then
    some { db with
      parts := db.parts ++ [⟨db.nextPart, id, part.name, part.quantity, part.costCents⟩], nextPart := db.nextPart + 1 }
  else none

def insertAttachment (id : Nat) (attachment : OutboxAttachment) : Option OutboxDb :=
  if ["photo", "invoice"].contains attachment.kind && attachment.phase.all ["before", "after"].contains then
    some { db with
      attachments := db.attachments ++ [⟨attachment, db.nextAttachment, id⟩], nextAttachment := db.nextAttachment + 1 }
  else none

def insertDraft (dart : Dart) (draft : OutboxDraft) : Option OutboxDb :=
  if 0 ≤ draft.mileageKm && nonNegative draft.costCents then
    some { db with
      drafts := db.drafts ++ [⟨db.nextDraft, draft.plate, draft.vehicleLabel, draft.mileageKm, draft.mechanicName,
        draft.costCents, draft.notes, dart.toIso8601String draft.savedAt⟩]
      nextDraft := db.nextDraft + 1 }
  else none

/-- The transaction of `add`; `none` where a constraint fails and it rolls back. -/
def add (dart : Dart) (draft : OutboxDraft) : Option OutboxDb := do
  let id := db.nextDraft
  let db ← db.insertDraft dart draft
  let db ← draft.operations.foldlM (fun db operation => db.insertOperation id operation) db
  let db ← draft.parts.foldlM (fun db part => db.insertPart id part) db
  draft.attachments.foldlM (fun db attachment => db.insertAttachment id attachment) db

def delete (id : Nat) : OutboxDb :=
  { db with
    drafts := db.drafts.filter (·.id != id)
    operations := db.operations.filter (·.draftId != id)
    parts := db.parts.filter (·.draftId != id)
    attachments := db.attachments.filter (·.draftId != id) }

def ids : List Nat := db.drafts.map (·.id)

def queryDrafts : List DraftRow :=
  db.drafts.insertionSort fun a b => a.savedAt < b.savedAt ∨ a.savedAt = b.savedAt ∧ a.id ≤ b.id

def queryOperations (id : Nat) : List String := (db.operations.filter (·.draftId == id)).map (·.operation)

def queryParts (id : Nat) : List Part :=
  (db.parts.filter (·.draftId == id)).map fun p => ⟨p.name, p.quantity, p.costCents⟩

def queryAttachments (id : Nat) : List OutboxAttachment :=
  (db.attachments.filter (·.draftId == id)).map (·.toOutboxAttachment)

end OutboxDb

/-! ## Outbox.load -/

/-- Where a `load` stands: the query that is next, the rows still to read and
the drafts read. -/
inductive Load where
  | drafts
  | operations (row : DraftRow) (todo : List DraftRow) (read : List QueuedDraft)
  | parts (row : DraftRow) (operations : List String) (todo : List DraftRow) (read : List QueuedDraft)
  | attachments (row : DraftRow) (operations : List String) (parts : List Part) (todo : List DraftRow)
      (read : List QueuedDraft)

def Load.readNext (read : List QueuedDraft) : List DraftRow → Load ⊕ List QueuedDraft
  | [] => .inr read
  | row :: todo => .inl (.operations row todo read)

def readDraft (dart : Dart) (row : DraftRow) (operations : List String) (parts : List Part)
    (attachments : List OutboxAttachment) : Except Thrown QueuedDraft := do
  let some savedAt := dart.tryParse row.savedAt | .error .formatException
  let operations ← ServiceOperation.listFromWire (some (operations.map .string))
  return {
    plate := row.plate, vehicleLabel := row.vehicleLabel, operations, mileageKm := row.mileageKm, savedAt
    mechanicName := row.mechanicName, costCents := row.costCents, notes := row.notes, parts, attachments,
    id := row.id }

def Load.step (dart : Dart) (db : OutboxDb) : Load → Except Thrown (Load ⊕ List QueuedDraft)
  | .drafts => .ok (readNext [] db.queryDrafts)
  | .operations row todo read => .ok (.inl (.parts row (db.queryOperations row.id) todo read))
  | .parts row wires todo read => .ok (.inl (.attachments row wires (db.queryParts row.id) todo read))
  | .attachments row wires bought todo read => do
    let draft ← readDraft dart row wires bought (db.queryAttachments row.id)
    return readNext (read ++ [draft]) todo

structure Outbox where
  drafts : List QueuedDraft
  loaded : Bool

def Outbox.ofLoad (drafts : List QueuedDraft) : Outbox := ⟨drafts, true⟩

end Mototeca.Mobile
