import Mototeca.DartTime
import Mototeca.Oficina
import Mototeca.OrderedQuery
import Mototeca.Tables

/-!
# The outbox as a queue

`Outbox.add` and `Outbox.remove` called one after another. The four tables keep
every draft as it was given, and a `load` puts the drafts back together, oldest
first.
-/

namespace Mototeca.Mobile

open OrderedQuery

/-! ## The calls -/

/-- The SDK on a device at `offset` from UTC. -/
def Dart.clocked (dart : Dart) (offset : Int) : Dart :=
  { dart with tryParse := DateTime.tryParse offset, toIso8601String := DateTime.toIso8601String offset }

theorem clocked_tryParse (dart : Dart) (offset : Int) :
    (dart.clocked offset).tryParse = DateTime.tryParse offset := rfl

theorem clocked_toIso8601String (dart : Dart) (offset : Int) :
    (dart.clocked offset).toIso8601String = DateTime.toIso8601String offset := rfl

def OutboxDb.readRow (dart : Dart) (db : OutboxDb) (row : DraftRow) : Except Thrown QueuedDraft :=
  readDraft dart row (db.queryOperations row.id) (db.queryParts row.id) (db.queryAttachments row.id)

/-- `load` with nothing else going on between its queries. -/
def OutboxDb.load (dart : Dart) (db : OutboxDb) : Except Thrown (List QueuedDraft) :=
  db.queryDrafts.mapM (db.readRow dart)

inductive OutboxCall where
  | add (draft : OutboxDraft)
  | remove (id : Nat)

structure OutboxState where
  db : OutboxDb
  outbox : Outbox

namespace OutboxState

def init : OutboxState := ⟨.empty, ⟨[], false⟩⟩

variable (dart : Dart) (s : OutboxState)

def reload : OutboxState × Option Thrown :=
  match s.db.load dart with
  | .ok drafts => ({ s with outbox := .ofLoad drafts }, none)
  | .error thrown => (s, some thrown)

/-- The state a call leaves, and what it throws. -/
def call : OutboxCall → OutboxState × Option Thrown
  | .add draft =>
    match s.db.add dart draft with
    | some db => { s with db }.reload dart
    | none => (s, some .databaseException)
  | .remove id => { s with db := s.db.delete id }.reload dart

def run (calls : List OutboxCall) : OutboxState := calls.foldl (fun s c => (s.call dart c).1) s

end OutboxState

/-! ## The queue -/

/-- What the constraints of the outbox tables refuse. -/
def OutboxDraft.Violates (draft : OutboxDraft) : Prop :=
  ¬ draft.operations.Nodup ∨ draft.mileageKm < 0 ∨ (∃ cents, draft.costCents = some cents ∧ cents < 0) ∨
    (∃ part ∈ draft.parts, part.quantity < 1 ∨ ∃ cents, part.costCents = some cents ∧ cents < 0) ∨
    ∃ a ∈ draft.attachments, a.kind ∉ ["photo", "invoice"] ∨ ∃ phase, a.phase = some phase ∧ phase ∉ ["before", "after"]

/-- The drafts added and not removed, in the order they were added. -/
structure OutboxQueue where
  kept : List QueuedDraft
  next : Nat

open Classical in
noncomputable def OutboxQueue.call (q : OutboxQueue) : OutboxCall → OutboxQueue
  | .add draft => if draft.Violates then q else ⟨q.kept ++ [⟨draft, q.next⟩], q.next + 1⟩
  | .remove id => { q with kept := q.kept.filter (·.id != id) }

noncomputable def OutboxQueue.run (calls : List OutboxCall) : OutboxQueue := calls.foldl OutboxQueue.call ⟨[], 1⟩

/-- The order of sending: by the instant, and then as they were added. -/
def SentBefore (a b : QueuedDraft) : Prop :=
  a.savedAt.microsecondsSinceEpoch < b.savedAt.microsecondsSinceEpoch ∨
    a.savedAt.microsecondsSinceEpoch = b.savedAt.microsecondsSinceEpoch ∧ a.id < b.id

/-- A local time of the device, in years 0 to 9999. -/
structure SavedLocally (offset : Int) (t : DateTime) : Prop extends FourDigitYear offset t where
  isLocal : t.isUtc = false

/-! ## Children of one parent -/

section
variable {α β : Type} (key : α → Nat) {owner : β → Nat} {children : α → List β}

theorem filter_flatMap_of_ne (howner : ∀ a, ∀ b ∈ children a, owner b = key a) (p : Nat → Bool) (l : List α) :
    (l.flatMap children).filter (fun b => p (owner b)) = (l.filter fun a => p (key a)).flatMap children := by
  induction l with
  | nil => rfl
  | cons a l ih =>
    rw [List.flatMap_cons, List.filter_append, ih]
    by_cases ha : p (key a) = true
    · have hkeep : (children a).filter (fun b => p (owner b)) = children a :=
        List.filter_eq_self.mpr fun b hb => by rw [howner a b hb]; exact ha
      simp [hkeep, ha]
    · have hdrop : (children a).filter (fun b => p (owner b)) = [] :=
        List.filter_eq_nil_iff.mpr fun b hb => by rw [howner a b hb]; exact ha
      simp [hdrop, ha]

end

theorem owned_filter {β : Type} (children : QueuedDraft → List β) (p : Nat → Bool) (l : List QueuedDraft) :
    (l.flatMap fun d => (children d).map fun b => (d.id, b)).filter (fun b => p b.1) =
      (l.filter fun d => p d.id).flatMap fun d => (children d).map fun b => (d.id, b) := by
  refine filter_flatMap_of_ne (·.id) (fun d b hb => ?_) p l
  obtain ⟨b', -, rfl⟩ := List.mem_map.mp hb
  rfl

theorem owned_children {β : Type} (children : QueuedDraft → List β) {l : List QueuedDraft}
    (hkeys : (l.map (·.id)).Nodup) {d : QueuedDraft} (hd : d ∈ l) :
    ((l.flatMap fun d => (children d).map fun b => (d.id, b)).filter fun b => b.1 == d.id).map (·.2) = children d := by
  rw [owned_filter children (· == d.id), Tables.filter_key_eq hkeys hd, List.flatMap_singleton, List.map_map]
  exact List.map_id _

/-! ## add -/

theorem fromWire_wire (o : ServiceOperation) : ServiceOperation.fromWire (some o.wire) = some o := by
  cases o <;> rfl

theorem wire_injective {a b : ServiceOperation} (h : a.wire = b.wire) : a = b :=
  Option.some.inj (by rw [← fromWire_wire a, h, fromWire_wire])

def ownedPart (p : OutboxPartRow) : Nat × Part := (p.draftId, ⟨p.name, p.quantity, p.costCents⟩)

def ownedAttachment (a : OutboxAttachmentRow) : Nat × OutboxAttachment := (a.draftId, a.toOutboxAttachment)

def goodPart (part : Part) : Bool := 0 < part.quantity && OutboxDb.nonNegative part.costCents

def goodAttachment (a : OutboxAttachment) : Bool :=
  ["photo", "invoice"].contains a.kind && a.phase.all ["before", "after"].contains

section
variable (id : Nat)

theorem insertOperations_eq (operations : List ServiceOperation) (db : OutboxDb) :
    operations.foldlM (fun db operation => db.insertOperation id operation) db =
      if operations.Nodup ∧ ∀ o ∈ operations, (⟨id, o.wire⟩ : OutboxOperationRow) ∉ db.operations then
        some { db with operations := db.operations ++ operations.map fun o => ⟨id, o.wire⟩ }
      else none := by
  induction operations generalizing db with
  | nil => simp
  | cons o operations ih =>
    rw [List.foldlM_cons, OutboxDb.insertOperation]
    by_cases ho : (⟨id, o.wire⟩ : OutboxOperationRow) ∈ db.operations
    · simp [ho]
    · have hother : (∀ o' ∈ operations, (⟨id, o'.wire⟩ : OutboxOperationRow) ∉ db.operations ++ [⟨id, o.wire⟩]) ↔
          o ∉ operations ∧ ∀ o' ∈ operations, (⟨id, o'.wire⟩ : OutboxOperationRow) ∉ db.operations := by
        constructor
        · intro h
          exact ⟨fun hmem => h o hmem (by simp), fun o' ho' hmem => h o' ho' (by simp [hmem])⟩
        · rintro ⟨hnot, hrest⟩ o' ho' hmem
          rcases List.mem_append.mp hmem with hmem | hmem
          · exact hrest o' ho' hmem
          · have hwire : o'.wire = o.wire := by simpa using hmem
            exact hnot (wire_injective hwire ▸ ho')
      have hcontains : db.operations.contains (⟨id, o.wire⟩ : OutboxOperationRow) = false := by simpa using ho
      rw [hcontains]
      simp only [Bool.false_eq_true, ite_false, Option.bind_eq_bind, Option.bind_some, ih, hother, List.nodup_cons,
        List.forall_mem_cons, ho, not_false_eq_true, true_and, List.append_assoc, List.map_cons, List.singleton_append]
      by_cases hnot : o ∉ operations
      · simp [hnot]
      · simp [hnot]

theorem insertParts_eq (parts : List Part) (db : OutboxDb) :
    ∃ rows next, rows.map ownedPart = parts.map (fun p => (id, p)) ∧
      parts.foldlM (fun db part => db.insertPart id part) db =
        if parts.all goodPart then some { db with parts := db.parts ++ rows, nextPart := next } else none := by
  induction parts generalizing db with
  | nil => exact ⟨[], db.nextPart, rfl, by simp⟩
  | cons p parts ih =>
    obtain ⟨rows, next, hrows, hfold⟩ := ih { db with
      parts := db.parts ++ [⟨db.nextPart, id, p.name, p.quantity, p.costCents⟩], nextPart := db.nextPart + 1 }
    refine ⟨⟨db.nextPart, id, p.name, p.quantity, p.costCents⟩ :: rows, next, by rw [List.map_cons, hrows]; rfl, ?_⟩
    rw [List.foldlM_cons, OutboxDb.insertPart, ← goodPart]
    by_cases hp : goodPart p = true
    · simp [hp, hfold]
    · simp [hp]

theorem insertAttachments_eq (attachments : List OutboxAttachment) (db : OutboxDb) :
    ∃ rows next, rows.map ownedAttachment = attachments.map (fun a => (id, a)) ∧
      attachments.foldlM (fun db attachment => db.insertAttachment id attachment) db =
        if attachments.all goodAttachment then
          some { db with attachments := db.attachments ++ rows, nextAttachment := next }
        else none := by
  induction attachments generalizing db with
  | nil => exact ⟨[], db.nextAttachment, rfl, by simp⟩
  | cons a attachments ih =>
    obtain ⟨rows, next, hrows, hfold⟩ := ih { db with
      attachments := db.attachments ++ [⟨a, db.nextAttachment, id⟩], nextAttachment := db.nextAttachment + 1 }
    refine ⟨⟨a, db.nextAttachment, id⟩ :: rows, next, by rw [List.map_cons, hrows]; rfl, ?_⟩
    rw [List.foldlM_cons, OutboxDb.insertAttachment, ← goodAttachment]
    by_cases ha : goodAttachment a = true
    · simp [ha, hfold]
    · simp [ha]

end

theorem nonNegative_eq_false {n : Option Int} : OutboxDb.nonNegative n = false ↔ ∃ cents, n = some cents ∧ cents < 0 := by
  cases n with
  | none => simp [OutboxDb.nonNegative]
  | some cents => simp [OutboxDb.nonNegative]

theorem goodPart_eq_false {part : Part} :
    goodPart part = false ↔ part.quantity < 1 ∨ ∃ cents, part.costCents = some cents ∧ cents < 0 := by
  rw [goodPart, Bool.and_eq_false_iff, nonNegative_eq_false, decide_eq_false_iff_not]
  have hquantity : ¬ 0 < part.quantity ↔ part.quantity < 1 := by omega
  rw [hquantity]

theorem goodAttachment_eq_false {a : OutboxAttachment} :
    goodAttachment a = false ↔
      a.kind ∉ ["photo", "invoice"] ∨ ∃ phase, a.phase = some phase ∧ phase ∉ ["before", "after"] := by
  rw [goodAttachment, Bool.and_eq_false_iff]
  have hkind : ["photo", "invoice"].contains a.kind = false ↔ a.kind ∉ ["photo", "invoice"] := by
    rw [← Bool.not_eq_true, List.contains_iff_mem]
  have hphase : a.phase.all ["before", "after"].contains = false ↔
      ∃ phase, a.phase = some phase ∧ phase ∉ ["before", "after"] := by
    cases a.phase with
    | none => simp
    | some phase => simp
  rw [hkind, hphase]

theorem violates_iff (draft : OutboxDraft) :
    draft.Violates ↔ ¬ (draft.operations.Nodup ∧ (0 ≤ draft.mileageKm && OutboxDb.nonNegative draft.costCents) = true ∧
      draft.parts.all goodPart = true ∧ draft.attachments.all goodAttachment = true) := by
  have hmileage : decide (0 ≤ draft.mileageKm) = false ↔ draft.mileageKm < 0 := by
    rw [decide_eq_false_iff_not]
    omega
  simp only [OutboxDraft.Violates, Classical.not_and_iff_not_or_not, Bool.not_eq_true, Bool.and_eq_false_iff, hmileage,
    nonNegative_eq_false, List.all_eq_false, goodPart_eq_false, goodAttachment_eq_false, or_assoc]

/-- What `add` leaves behind: the rows of the draft after those there were. -/
structure Added (dart : Dart) (db : OutboxDb) (draft : OutboxDraft) (db' : OutboxDb) : Prop where
  drafts : db'.drafts = db.drafts ++ [⟨db.nextDraft, draft.plate, draft.vehicleLabel, draft.mileageKm,
    draft.mechanicName, draft.costCents, draft.notes, dart.toIso8601String draft.savedAt⟩]
  operations : db'.operations = db.operations ++ draft.operations.map fun o => ⟨db.nextDraft, o.wire⟩
  parts : db'.parts.map ownedPart = db.parts.map ownedPart ++ draft.parts.map fun p => (db.nextDraft, p)
  attachments : db'.attachments.map ownedAttachment =
    db.attachments.map ownedAttachment ++ draft.attachments.map fun a => (db.nextDraft, a)
  nextDraft : db'.nextDraft = db.nextDraft + 1

theorem add_cases (dart : Dart) {db : OutboxDb} (hfresh : ∀ row ∈ db.operations, row.draftId ≠ db.nextDraft)
    (draft : OutboxDraft) :
    (draft.Violates ∧ db.add dart draft = none) ∨
      ¬ draft.Violates ∧ ∃ db', db.add dart draft = some db' ∧ Added dart db draft db' := by
  rw [violates_iff, Classical.not_not]
  have hnew : ∀ o ∈ draft.operations, (⟨db.nextDraft, o.wire⟩ : OutboxOperationRow) ∉ db.operations :=
    fun o _ hmem => hfresh _ hmem rfl
  unfold OutboxDb.add OutboxDb.insertDraft
  by_cases hdraft : (0 ≤ draft.mileageKm && OutboxDb.nonNegative draft.costCents) = true
  · simp only [hdraft, ite_true, Option.bind_eq_bind, Option.bind_some, insertOperations_eq]
    by_cases hops : draft.operations.Nodup
    · simp only [hops, true_and, if_pos hnew, Option.bind_some]
      obtain ⟨partRows, nextPart, hpartRows, hparts⟩ := insertParts_eq db.nextDraft draft.parts _
      rw [hparts]
      by_cases hgood : draft.parts.all goodPart = true
      · simp only [hgood, ite_true, Option.bind_some, true_and]
        obtain ⟨fileRows, nextFile, hfileRows, hfiles⟩ := insertAttachments_eq db.nextDraft draft.attachments _
        rw [hfiles]
        by_cases hfile : draft.attachments.all goodAttachment = true
        · refine .inr ⟨hfile, _, by rw [if_pos hfile], ?_⟩
          exact ⟨rfl, rfl, by rw [List.map_append, hpartRows], by rw [List.map_append, hfileRows], rfl⟩
        · exact .inl ⟨hfile, by rw [if_neg hfile]⟩
      · exact .inl ⟨fun h => hgood h.1, by simp [hgood]⟩
    · exact .inl ⟨fun h => hops h.1, by simp [hops]⟩
  · exact .inl ⟨fun h => hdraft h.2.1, by simp [hdraft]⟩

/-! ## The rows a queue is stored as -/

def rowOf (offset : Int) (q : QueuedDraft) : DraftRow :=
  ⟨q.id, q.plate, q.vehicleLabel, q.mileageKm, q.mechanicName, q.costCents, q.notes, q.savedAt.toIso8601String offset⟩

structure Stores (offset : Int) (db : OutboxDb) (q : OutboxQueue) : Prop where
  drafts : db.drafts = q.kept.map (rowOf offset)
  operations : db.operations = q.kept.flatMap fun d => d.operations.map fun o => ⟨d.id, o.wire⟩
  parts : db.parts.map ownedPart = q.kept.flatMap fun d => d.parts.map fun p => (d.id, p)
  attachments : db.attachments.map ownedAttachment = q.kept.flatMap fun d => d.attachments.map fun a => (d.id, a)
  next : db.nextDraft = q.next
  ids : q.kept.Pairwise fun a b => a.id < b.id
  fresh : ∀ d ∈ q.kept, d.id < q.next
  times : ∀ d ∈ q.kept, SavedLocally offset d.savedAt

section
variable {dart : Dart} {offset : Int} {db db' : OutboxDb} {q : OutboxQueue}

theorem Stores.empty (offset : Int) : Stores offset .empty ⟨[], 1⟩ where
  drafts := rfl
  operations := rfl
  parts := rfl
  attachments := rfl
  next := rfl
  ids := .nil
  fresh := nofun
  times := nofun

theorem Stores.keys (h : Stores offset db q) : (q.kept.map (·.id)).Nodup := by
  rw [List.Nodup, List.pairwise_map]
  exact h.ids.imp Nat.ne_of_lt

theorem Stores.operations_fresh (h : Stores offset db q) : ∀ row ∈ db.operations, row.draftId ≠ db.nextDraft := by
  intro row hrow
  rw [h.operations, List.mem_flatMap] at hrow
  obtain ⟨d, hd, hrow⟩ := hrow
  obtain ⟨o, ho, rfl⟩ := List.mem_map.mp hrow
  rw [h.next]
  exact Nat.ne_of_lt (h.fresh d hd)

theorem Stores.add {draft : OutboxDraft} (h : Stores offset db q) (htime : SavedLocally offset draft.savedAt)
    (hadded : Added (dart.clocked offset) db draft db') :
    Stores offset db' ⟨q.kept ++ [⟨draft, q.next⟩], q.next + 1⟩ where
  drafts := by
    rw [hadded.drafts, h.drafts, h.next, List.map_append, clocked_toIso8601String]
    rfl
  operations := by rw [hadded.operations, h.operations, h.next, List.flatMap_append, List.flatMap_singleton]
  parts := by rw [hadded.parts, h.parts, h.next, List.flatMap_append, List.flatMap_singleton]
  attachments := by rw [hadded.attachments, h.attachments, h.next, List.flatMap_append, List.flatMap_singleton]
  next := by rw [hadded.nextDraft, h.next]
  ids := by
    rw [List.pairwise_append]
    refine ⟨h.ids, List.pairwise_singleton _ _, fun a ha b hb => ?_⟩
    rw [List.mem_singleton.mp hb]
    exact h.fresh a ha
  fresh := by
    intro d hd
    rcases List.mem_append.mp hd with hd | hd
    · exact Nat.lt_succ_of_lt (h.fresh d hd)
    · rw [List.mem_singleton.mp hd]
      exact Nat.lt_succ_self _
  times := by
    intro d hd
    rcases List.mem_append.mp hd with hd | hd
    · exact h.times d hd
    · rw [List.mem_singleton.mp hd]
      exact htime

theorem operation_owner (d : QueuedDraft) :
    ∀ row ∈ d.operations.map (fun o => (⟨d.id, o.wire⟩ : OutboxOperationRow)), row.draftId = d.id := by
  intro row hrow
  obtain ⟨o, -, rfl⟩ := List.mem_map.mp hrow
  rfl

theorem Stores.delete (h : Stores offset db q) (id : Nat) :
    Stores offset (db.delete id) { q with kept := q.kept.filter (·.id != id) } where
  drafts := by
    simp only [OutboxDb.delete, h.drafts, List.filter_map]
    rfl
  operations := by
    simp only [OutboxDb.delete, h.operations]
    exact filter_flatMap_of_ne (·.id) operation_owner (· != id) q.kept
  parts := by
    rw [← owned_filter _ (· != id), ← h.parts, List.filter_map]
    rfl
  attachments := by
    rw [← owned_filter _ (· != id), ← h.attachments, List.filter_map]
    rfl
  next := h.next
  ids := h.ids.filter _
  fresh d hd := h.fresh d (List.mem_of_mem_filter hd)
  times d hd := h.times d (List.mem_of_mem_filter hd)

/-! ## load -/

theorem listFromWire_wires (operations : List ServiceOperation) :
    ServiceOperation.listFromWire (some ((operations.map (·.wire)).map .string)) = .ok operations := by
  have hread : ((operations.map (·.wire)).map Json.string).mapM
      (fun value => (asString (some value)).map ServiceOperation.fromWire) = .ok (operations.map some) := by
    induction operations with
    | nil => rfl
    | cons o operations ih =>
      rw [List.map_cons, List.map_cons, List.mapM_cons, ih]
      simp only [asString, Except.map, fromWire_wire]
      rfl
  unfold ServiceOperation.listFromWire
  rw [Option.getD_some, hread]
  exact congrArg Except.ok (by rw [List.filterMap_map]; exact List.filterMap_some)

theorem Stores.readRow (h : Stores offset db q) {d : QueuedDraft} (hd : d ∈ q.kept) :
    db.readRow (dart.clocked offset) (rowOf offset d) = .ok d := by
  have hoperations : db.queryOperations d.id = d.operations.map (·.wire) := by
    rw [OutboxDb.queryOperations, h.operations,
      filter_flatMap_of_ne (·.id) operation_owner (· == d.id), Tables.filter_key_eq h.keys hd, List.flatMap_singleton,
      List.map_map]
    rfl
  have hparts : db.queryParts d.id = d.parts := by
    rw [← owned_children (·.parts) h.keys hd, ← h.parts, List.filter_map, List.map_map]
    rfl
  have hattachments : db.queryAttachments d.id = d.attachments := by
    rw [← owned_children (·.attachments) h.keys hd, ← h.attachments, List.filter_map, List.map_map]
    rfl
  have htime := tryParse_toIso8601String (h.times d hd).toFourDigitYear
  simp only [OutboxDb.readRow, readDraft, rowOf, clocked_tryParse, hoperations, hparts, hattachments, htime,
    listFromWire_wires]
  rfl

/-- The order of the query, on drafts. -/
def queriedBefore (a b : QueuedDraft) : Prop :=
  a.savedAt.microsecondsSinceEpoch < b.savedAt.microsecondsSinceEpoch ∨
    a.savedAt.microsecondsSinceEpoch = b.savedAt.microsecondsSinceEpoch ∧ a.id ≤ b.id

instance : DecidableRel queriedBefore := fun _ _ => inferInstanceAs (Decidable (_ ∨ _))

theorem savedAt_eq_iff {a b : DateTime} (ha : SavedLocally offset a) (hb : SavedLocally offset b) :
    a.toIso8601String offset = b.toIso8601String offset ↔ a.microsecondsSinceEpoch = b.microsecondsSinceEpoch := by
  constructor
  · intro h
    have hback := tryParse_toIso8601String ha.toFourDigitYear
    rw [h, tryParse_toIso8601String hb.toFourDigitYear] at hback
    rw [Option.some.inj hback]
  · intro h
    have hsame : a = b := by
      cases a
      cases b
      exact (DateTime.mk.injEq ..).mpr ⟨h, ha.isLocal.trans hb.isLocal.symm⟩
    rw [hsame]

/-- Sorting the rows by their texts sorts the drafts by their instants. -/
theorem Stores.queryDrafts (h : Stores offset db q) :
    db.queryDrafts = (q.kept.insertionSort queriedBefore).map (rowOf offset) := by
  rw [OutboxDb.queryDrafts, h.drafts]
  refine (List.map_insertionSort _ _ _ _ fun a ha b hb => ?_).symm
  have hlt := toIso8601String_lt_iff (h.times a ha).toFourDigitYear (h.times b hb).toFourDigitYear (h.times a ha).isLocal
    (h.times b hb).isLocal
  have heq := savedAt_eq_iff (h.times a ha) (h.times b hb)
  simp only [queriedBefore, rowOf, hlt, heq]

theorem Stores.answers (h : Stores offset db q) : Answers SentBefore q.kept (q.kept.insertionSort queriedBefore) := by
  have hsorted : Answers queriedBefore q.kept (q.kept.insertionSort queriedBefore) := by
    refine answers_insertionSort queriedBefore ?_ ?_ q.kept
    · intro a b
      unfold queriedBefore
      omega
    · intro a b c hab hbc
      unfold queriedBefore at *
      omega
  have hids : (q.kept.insertionSort queriedBefore).Pairwise fun a b => a.id ≠ b.id := by
    have hkeys := (hsorted.perm.map (·.id)).nodup_iff.mpr h.keys
    rwa [List.Nodup, List.pairwise_map] at hkeys
  refine ⟨hsorted.perm, (hsorted.sorted.and hids).imp fun {a b} hab => ?_⟩
  obtain ⟨hle, hne⟩ := hab
  unfold queriedBefore at hle
  unfold SentBefore
  omega

theorem mapM_ok {drafts : List QueuedDraft} {f : DraftRow → Except Thrown QueuedDraft}
    (hf : ∀ d ∈ drafts, f (rowOf offset d) = .ok d) : (drafts.map (rowOf offset)).mapM f = .ok drafts := by
  induction drafts with
  | nil => rfl
  | cons d drafts ih =>
    rw [List.map_cons, List.mapM_cons, hf d (by simp), ih fun d' hd' => hf d' (List.mem_cons_of_mem _ hd')]
    rfl

theorem Stores.load (h : Stores offset db q) :
    db.load (dart.clocked offset) = .ok (q.kept.insertionSort queriedBefore) := by
  rw [OutboxDb.load, h.queryDrafts]
  refine mapM_ok fun d hd => h.readRow ?_
  exact (List.perm_insertionSort queriedBefore q.kept).mem_iff.mp hd

end

/-- How the steps of a `load` end when no other task comes between them. -/
inductive Load.Ends (dart : Dart) (db : OutboxDb) : Load ⊕ List QueuedDraft → Except Thrown (List QueuedDraft) → Prop
  | read (drafts : List QueuedDraft) : Load.Ends dart db (.inr drafts) (.ok drafts)
  | threw {load : Load} {thrown : Thrown} (h : load.step dart db = .error thrown) :
    Load.Ends dart db (.inl load) (.error thrown)
  | next {load : Load} {next : Load ⊕ List QueuedDraft} {result : Except Thrown (List QueuedDraft)}
    (h : load.step dart db = .ok next) (hends : Load.Ends dart db next result) : Load.Ends dart db (.inl load) result

theorem readNext_ends (dart : Dart) (db : OutboxDb) (todo : List DraftRow) : ∀ read : List QueuedDraft,
    Load.Ends dart db (Load.readNext read todo) ((todo.mapM (db.readRow dart)).map (read ++ ·)) := by
  induction todo with
  | nil =>
    intro read
    show Load.Ends dart db (.inr read) (.ok (read ++ []))
    rw [List.append_nil]
    exact .read read
  | cons row todo ih =>
    intro read
    refine .next rfl (.next rfl ?_)
    rw [List.mapM_cons]
    cases hrow : db.readRow dart row with
    | error thrown => exact .threw (by rw [Load.step, ← OutboxDb.readRow, hrow]; rfl)
    | ok draft =>
      have hstep : (Load.attachments row (db.queryOperations row.id) (db.queryParts row.id) todo read).step dart db =
          .ok (Load.readNext (read ++ [draft]) todo) := by
        rw [Load.step, ← OutboxDb.readRow, hrow]
        rfl
      have hrest := ih (read ++ [draft])
      refine .next hstep ?_
      cases htodo : todo.mapM (db.readRow dart) with
      | error thrown =>
        rw [htodo] at hrest
        exact hrest
      | ok drafts =>
        rw [htodo] at hrest
        simp only [Except.map, List.append_assoc] at hrest
        exact hrest

theorem load_ends (dart : Dart) (db : OutboxDb) : Load.Ends dart db (.inl .drafts) (db.load dart) := by
  have hends := readNext_ends dart db db.queryDrafts []
  rw [← OutboxDb.load] at hends
  refine .next rfl ?_
  cases hload : db.load dart with
  | error thrown =>
    rw [hload] at hends
    exact hends
  | ok drafts =>
    rw [hload] at hends
    exact hends

/-! ## Runs of calls -/

section
variable {dart : Dart} {offset : Int} {s : OutboxState} {q : OutboxQueue}

theorem reload_eq (h : Stores offset s.db q) :
    s.reload (dart.clocked offset) = ({ s with outbox := .ofLoad (q.kept.insertionSort queriedBefore) }, none) := by
  rw [OutboxState.reload, h.load]

theorem call_violating (h : Stores offset s.db q) {draft : OutboxDraft} (hv : draft.Violates) :
    s.call (dart.clocked offset) (.add draft) = (s, some .databaseException) := by
  rcases add_cases (dart.clocked offset) h.operations_fresh draft with ⟨-, hadd⟩ | ⟨hnot, -⟩
  · rw [OutboxState.call, hadd]
  · exact absurd hv hnot

theorem call_stores (h : Stores offset s.db q) {c : OutboxCall}
    (htime : ∀ draft, c = .add draft → SavedLocally offset draft.savedAt) :
    Stores offset (s.call (dart.clocked offset) c).1.db (q.call c) ∧
      ∀ draft, c = .add draft → ¬ draft.Violates → (s.call (dart.clocked offset) c).2 = none := by
  cases c with
  | add draft =>
    rcases add_cases (dart.clocked offset) h.operations_fresh draft with ⟨hv, -⟩ | ⟨hnot, db', hadd, hadded⟩
    · rw [call_violating h hv, OutboxQueue.call, if_pos hv]
      exact ⟨h, fun draft' hc hnot => absurd (OutboxCall.add.inj hc ▸ hv) hnot⟩
    · have hstores : Stores offset ({ s with db := db' } : OutboxState).db _ := h.add (htime draft rfl) hadded
      rw [OutboxState.call, hadd, OutboxQueue.call, if_neg hnot]
      simp only [reload_eq hstores]
      exact ⟨hstores, fun _ _ _ => trivial⟩
  | remove id =>
    have hstores : Stores offset ({ s with db := s.db.delete id } : OutboxState).db _ := h.delete id
    rw [OutboxState.call, reload_eq hstores]
    exact ⟨hstores, nofun⟩

theorem run_stores (calls : List OutboxCall) : ∀ {s : OutboxState} {q : OutboxQueue}, Stores offset s.db q →
    (∀ draft, .add draft ∈ calls → SavedLocally offset draft.savedAt) →
      Stores offset (s.run (dart.clocked offset) calls).db (calls.foldl OutboxQueue.call q) := by
  induction calls with
  | nil => exact fun h _ => h
  | cons c calls ih =>
    intro s q h htimes
    refine ih (call_stores h fun draft hc => htimes draft (by simp [hc])).1 fun draft hd => htimes draft (List.mem_cons_of_mem _ hd)

end

/-- The outbox stores what it was given and loads it oldest first. -/
theorem outbox_keeps {offset : Int} {calls : List OutboxCall}
    (htimes : ∀ draft, .add draft ∈ calls → SavedLocally offset draft.savedAt) (dart : Dart) :
    let s := OutboxState.init.run (dart.clocked offset) calls
    (∃ drafts, s.reload (dart.clocked offset) = ({ s with outbox := .ofLoad drafts }, none) ∧
      Answers SentBefore (OutboxQueue.run calls).kept drafts) ∧
    ∀ draft,
      (draft.Violates → s.call (dart.clocked offset) (.add draft) = (s, some .databaseException)) ∧
      (¬ draft.Violates → SavedLocally offset draft.savedAt → (s.call (dart.clocked offset) (.add draft)).2 = none) := by
  have h : Stores offset (OutboxState.init.run (dart.clocked offset) calls).db (OutboxQueue.run calls) :=
    run_stores calls (Stores.empty offset) htimes
  refine ⟨⟨_, reload_eq h, h.answers⟩, fun draft => ⟨call_violating h, fun hnot htime => ?_⟩⟩
  exact (call_stores h fun draft' hc => OutboxCall.add.inj hc ▸ htime).2 draft rfl hnot

/-! ## Two drafts a microsecond text apart -/

def tyreChange (savedAt : DateTime) : OutboxDraft where
  plate := "ABC1D23"
  vehicleLabel := "Honda CG"
  operations := [.tires, .brakes]
  mileageKm := 18500
  savedAt
  mechanicName := ""
  costCents := some 24550
  notes := ""
  parts := [⟨"Pneu traseiro", 1, none⟩]
  attachments := [⟨"photo", some "after", "pneu.jpg", "image/jpeg", [1, 2, 3]⟩]

def threeDigits : DateTime := ⟨1777888800123000, false⟩

def sixDigits : DateTime := ⟨1777888800123456, false⟩

/-- The second is refused, for its repeated operation. -/
def tyreCalls : List OutboxCall :=
  [.add (tyreChange sixDigits), .add { tyreChange sixDigits with operations := [.tires, .tires] },
    .add (tyreChange threeDigits), .remove 7]

theorem savedLocally_of {t : DateTime} (hlocal : t.isUtc = false)
    (h : (0 ≤ (dateOf 0 t).year ∧ (dateOf 0 t).year ≤ 9999) ∧
      -maxMicroseconds ≤ t.microsecondsSinceEpoch ∧ t.microsecondsSinceEpoch ≤ maxMicroseconds) : SavedLocally 0 t :=
  ⟨⟨h.1.1, h.1.2, h.2⟩, hlocal⟩

theorem tyreCalls_times : ∀ draft, .add draft ∈ tyreCalls → SavedLocally 0 draft.savedAt := by
  have hsix : SavedLocally 0 sixDigits := savedLocally_of rfl (by decide +kernel)
  have hthree : SavedLocally 0 threeDigits := savedLocally_of rfl (by decide +kernel)
  intro draft hd
  simp only [tyreCalls, List.mem_cons, OutboxCall.add.injEq, reduceCtorEq, List.not_mem_nil, or_false] at hd
  rcases hd with rfl | rfl | rfl
  · exact hsix
  · exact hsix
  · exact hthree

theorem tyreCalls_kept :
    ∃ drafts, (OutboxState.init.run (sampleDart.clocked 0) tyreCalls).reload (sampleDart.clocked 0) =
        ({ OutboxState.init.run (sampleDart.clocked 0) tyreCalls with outbox := .ofLoad drafts }, none) ∧
      Answers SentBefore (OutboxQueue.run tyreCalls).kept drafts :=
  (outbox_keeps tyreCalls_times sampleDart).1

end Mototeca.Mobile
