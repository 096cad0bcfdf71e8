import Mototeca.Loading
import Mototeca.ServerSound

/-!
# Create and Revise are all-or-nothing, up to the re-read

`Repository.write` runs its transaction, commits, and then loads the record
again outside it. An error before the commit leaves the tables as they were. An
error of one of the four queries after it is reported too, with the record in
the history.
-/

namespace Mototeca

open ReadCommitted

/-! ## Create and Revise, with their points of failure -/

/-- What goes wrong during a call. The statements of the transaction and the
queries after its commit are numbered from 0. -/
inductive Fault where
  | nowhere
  | begin
  | statement (n : Nat)
  | commit
  | reread (n : Nat)
  deriving DecidableEq

inductive WriteError where
  | begin
  | commit
  | record (e : RecordError)
  deriving DecidableEq

/-- `gen_random_uuid()`: the text of a uuid, as Postgres prints it. -/
structure Generator where
  ids : Stmt → Nat → UUID
  valid : ∀ s n, validID (ids s n) = true
  canonical : ∀ s n, canonicalID (ids s n) = ids s n

namespace Repository

variable (P : Platform) (now : Time) (g : Generator) (fault : Fault)

/-- A `fault` of the commit rolls the transaction back. -/
def write (input : CreateInput) (rev : Option Revision) (d : DB) : Except WriteError (Option ServiceRecord) × DB :=
  if fault = .begin then (.error .begin, d)
  else
    match (Mototeca.write P now input rev).exec DB.apply RecordError.sql g.ids d (fun n => fault == .statement n) 0 [] with
    | .error e => (.error (.record e), d)
    | .ok (recordID, changes, _) =>
      if fault = .commit then (.error .commit, d)
      else
        let d' := changes.foldl DB.apply d
        match (findByID P recordID).exec DB.apply RecordError.sql g.ids d' (fun n => fault == .reread n) 0 [] with
        | .error e => (.error (.record e), d')
        | .ok (found, _, _) => (.ok found, d')

def create (input : CreateInput) (d : DB) : Except WriteError (Option ServiceRecord) × DB :=
  write P now g fault input none d

def revise (workshopID recordID : Bytes) (input : CreateInput) (d : DB) :
    Except WriteError (Option ServiceRecord) × DB :=
  write P now g fault input (some ⟨workshopID, recordID⟩) d

end Repository

/-! ## All or nothing -/

structure Gained (w : Written) (d d' : DB) : Prop where
  mechanics : d'.mechanics = d.mechanics ++ w.mechanic.toList
  serviceRecords : d'.serviceRecords =
    (match w.replaced with
      | none => d.serviceRecords
      | some (original, _) => d.serviceRecords.map (supersede original w.record.id)) ++ [w.record]
  operations : d'.operations = d.operations ++ w.operations.map fun t => ⟨w.record.id, t⟩
  parts : d'.parts = d.parts ++ w.parts.map fun p => p.row w.record.id
  attachments : d'.attachments = d.attachments ++ w.replaced.elim [] (·.2)
  others : d'.owners = d.owners ∧ d'.workshops = d.workshops ∧ d'.vehicles = d.vehicles

/-- The rows of `w` are what `input` and the record to revise ask for. -/
structure AskedFor (now : Time) (input : CreateInput) (rev : Option Revision) (d : DB) (w : Written) : Prop where
  record : ∃ v ∈ d.vehicles, v.plate = input.plate ∧ w.record = input.row now v.id w.record.mechanicID w.record.id
  mechanic : ∀ m ∈ w.mechanic, m.workshopID = input.workshopID ∧ w.record.mechanicID = some m.id
  operations : w.operations.map (·.label) = input.operations.map (·.raw)
  parts : w.parts = input.parts
  create : rev = none → w.replaced = none
  revise : ∀ r, rev = some r → ∃ ids, w.replaced = some (canonicalID r.recordID,
    carriedRows ids w.record.id (d.attachmentsOf (canonicalID r.recordID)))

def Unchanged (d d' : DB) : Prop :=
  d'.serviceRecords = d.serviceRecords ∧ d'.operations = d.operations ∧ d'.parts = d.parts ∧
    d'.attachments = d.attachments ∧ d'.mechanics = d.mechanics

instance (d d' : DB) : Decidable (Unchanged d d') := inferInstanceAs (Decidable (_ ∧ _))

/-- A returned record is what the tables gained; an error means that they gained nothing. -/
structure AllOrNothing (now : Time) (input : CreateInput) (rev : Option Revision) (d : DB)
    (result : Except WriteError (Option ServiceRecord) × DB) : Prop where
  all : ∀ found, result.1 = .ok found → ∃ record w, found = some record ∧ AskedFor now input rev d w ∧
    Gained w d result.2 ∧ Describes result.2 w.record (w.replaced.map (·.1)) record
  nothing : ∀ e, result.1 = .error e → Unchanged d result.2

/-! ## What the transaction accepts -/

def DB.mechanicByName (d : DB) (P : Platform) (workshopID : UUID) (name : String) : Option MechanicRow :=
  d.mechanics.find? fun m => m.workshopID == workshopID && P.lower m.name == P.lower (trimSpace name)

def newMechanic (P : Platform) (d : DB) (id workshopID : UUID) (name : Option String) : Option MechanicRow :=
  name.bind fun n =>
    if trimSpace n == "" || (d.mechanicByName P workshopID n).isSome then none
    else some ⟨id, workshopID, trimSpace n⟩

def mechanicOf (P : Platform) (d : DB) (id workshopID : UUID) (name : Option String) : Option UUID :=
  name.bind fun n =>
    if trimSpace n == "" then none
    else some (((d.mechanicByName P workshopID n).map (·.id)).getD id)

def CanRevise (d : DB) (rev : Revision) : Prop :=
  validID rev.recordID = true ∧ ∃ o, d.serviceRecord (canonicalID rev.recordID) = some o ∧
    o.workshopID = rev.workshopID ∧ o.supersededBy = none

/-- The database takes every row that the call would write. -/
structure Accepts (P : Platform) (now : Time) (g : Generator) (input : CreateInput) (rev : Option Revision) (d : DB)
    (v : VehicleRow) : Prop where
  revisable : ∀ r, rev = some r → CanRevise d r
  vehicle : d.vehicleByPlate input.plate = some v
  odometer : rev = none → input.confirmLowerMileage = false → ∀ n, d.highestMileage v.id = some n → n ≤ input.mileageKm
  mechanicText : ∀ n, input.mechanicName = some n → DB.storable (trimSpace n) = true
  mechanic : ∀ m, newMechanic P d (g.ids .insertMechanic 0) input.workshopID input.mechanicName = some m →
    d.acceptsMechanic m = true
  record : DB.acceptsServiceRecord
    { d with
      mechanics := d.mechanics ++
        (newMechanic P d (g.ids .insertMechanic 0) input.workshopID input.mechanicName).toList }
    (input.row now v.id (mechanicOf P d (g.ids .insertMechanic 0) input.workshopID input.mechanicName)
      (g.ids .insertServiceRecord 0)) = true
  operations : ∃ ts : List ServiceType,
    input.operations.map (fun op => ServiceType.parse op.raw) = ts.map some ∧ ts.Nodup
  parts : ∀ p ∈ input.parts, DB.storable (trimSpace p.name) = true ∧ DB.fitsInteger p.quantity = true ∧
    p.costCents.all DB.fitsInteger = true
  carried : ∀ r, rev = some r → freshIDs d (carriedRows (g.ids .carryAttachments) (g.ids .insertServiceRecord 0)
    (d.attachmentsOf (canonicalID r.recordID))) = true

def replacement (d : DB) (ids : Nat → UUID) (rev : Option Revision) (id : UUID) : Option (UUID × List AttachmentRow) :=
  rev.map fun r => (canonicalID r.recordID, carriedRows ids id (d.attachmentsOf (canonicalID r.recordID)))

/-- The rows of an accepted call, with `ts` for its operations. -/
def writtenBy (P : Platform) (now : Time) (g : Generator) (input : CreateInput) (rev : Option Revision) (d : DB)
    (v : VehicleRow) (ts : List ServiceType) : Written where
  mechanic := newMechanic P d (g.ids .insertMechanic 0) input.workshopID input.mechanicName
  record := input.row now v.id (mechanicOf P d (g.ids .insertMechanic 0) input.workshopID input.mechanicName)
    (g.ids .insertServiceRecord 0)
  operations := ts
  parts := input.parts
  replaced := replacement d (g.ids .carryAttachments) rev (g.ids .insertServiceRecord 0)

section
variable {P : Platform} {d : DB} {o : Stmt → Nat → UUID}

theorem runs_revisable (rev : Option Revision) (R : Unit → List Change → Prop) :
    (revisable rev).runs DB.apply o d R [] ↔ (∀ r, rev = some r → CanRevise d r) ∧ R () [] := by
  cases rev with
  | none => simp [revisable]
  | some r =>
    simp only [revisable, checkRevisable, Option.some.injEq, forall_eq', CanRevise]
    by_cases hid : validID r.recordID = true
    · simp only [hid, Bool.not_true, Bool.false_eq_true, ite_false, Prog.bind_eq, Prog.runs_bind,
        Prog.runs_queryForUpdate, List.foldl_nil, true_and]
      cases hr : d.serviceRecord (canonicalID r.recordID) with
      | none => simp
      | some row =>
        by_cases hw : row.workshopID = r.workshopID
        · cases hs : row.supersededBy with
          | none => simp [hw, hs]
          | some s => simp [hw, hs]
        · simp [hw]
    · simp [hid]

theorem runs_odometer (input : CreateInput) (rev : Option Revision) (vehicleID : UUID)
    (R : Unit → List Change → Prop) :
    (odometer input rev vehicleID).runs DB.apply o d R [] ↔
      (rev = none → input.confirmLowerMileage = false →
        ∀ n, d.highestMileage vehicleID = some n → n ≤ input.mileageKm) ∧
        R () [] := by
  unfold odometer
  cases rev with
  | some r => simp
  | none =>
    cases hc : input.confirmLowerMileage with
    | true => simp
    | false =>
      simp only [Option.isNone_none, Bool.not_false, Bool.and_self, ite_true, checkMileage, Prog.bind_eq,
        Prog.runs_bind, Prog.runs_query, List.foldl_nil, true_implies]
      cases hm : d.highestMileage vehicleID with
      | none => simp
      | some n =>
        by_cases hlt : input.mileageKm < n
        · simp [hlt]
        · simp only [hlt, ite_false, Prog.runs_ret, Option.some.injEq, forall_eq']
          exact ⟨fun h => ⟨by omega, h⟩, fun h => h.2⟩

theorem runs_upsertMechanic (workshopID : UUID) (name : Option String) (R : Option UUID → List Change → Prop) :
    (upsertMechanic P workshopID name).runs DB.apply o d R [] ↔
      (∀ n, name = some n → DB.storable (trimSpace n) = true) ∧
      (∀ m, newMechanic P d (o .insertMechanic 0) workshopID name = some m → d.acceptsMechanic m = true) ∧
        R (mechanicOf P d (o .insertMechanic 0) workshopID name)
          ((newMechanic P d (o .insertMechanic 0) workshopID name).toList.map .insertMechanic) := by
  cases name with
  | none => simp [upsertMechanic, newMechanic, mechanicOf]
  | some n =>
    simp only [upsertMechanic, newMechanic, mechanicOf, Option.bind_some, Option.some.injEq, forall_eq']
    cases hblank : trimSpace n == "" with
    | true =>
      have htext : DB.storable (trimSpace n) = true := by
        rw [beq_iff_eq.mp hblank]
        rfl
      simp [htext]
    | false =>
      cases htext : DB.storable (trimSpace n) with
      | false => simp
      | true =>
        simp only [Bool.false_eq_true, ite_false, Prog.bind_eq, Prog.runs_bind, Prog.runs_query, List.foldl_nil,
          Bool.false_or, Bool.not_true, true_and]
        unfold DB.mechanicByName
        cases d.mechanics.find? fun m => m.workshopID == workshopID && P.lower m.name == P.lower (trimSpace n) with
        | some m => simp
        | none => simp

theorem runs_selectVehicle (hd : Schema d) (plate : String) (R : Option VehicleRow → List Change → Prop)
    (hnone : ∀ w, ¬ R none w) :
    (selectVehicle plate).runs DB.apply o d R [] ↔ R (d.vehicleByPlate plate) [] := by
  unfold selectVehicle
  cases htext : DB.storable plate with
  | true => simp
  | false =>
    have hv : d.vehicleByPlate plate = none := vehicleByPlate_none.mpr fun v hv hp => by
      rw [← hp, hd.plateText v hv] at htext
      cases htext
    simpa [hv] using hnone []

theorem runs_insertOperations (id : UUID) (ops : List Operation) (R : Unit → List Change → Prop) : ∀ w : List Change,
    ((w.foldl DB.apply d).serviceRecord id).isSome = true →
    ((insertOperations id ops).runs DB.apply o d R w ↔
      ∃ ts : List ServiceType, ops.map (fun op => ServiceType.parse op.raw) = ts.map some ∧ ts.Nodup ∧
        (∀ t ∈ ts, ⟨id, t⟩ ∉ (w.foldl DB.apply d).operations) ∧
        R () (w ++ ts.map fun t => .insertOperation ⟨id, t⟩)) := by
  induction ops with
  | nil =>
    intro w _
    simp only [insertOperations, Prog.runs_ret, List.map_nil]
    refine ⟨fun h => ⟨[], rfl, List.nodup_nil, by simp, by simpa using h⟩, ?_⟩
    rintro ⟨ts, hts, -, -, h⟩
    obtain rfl : ts = [] := by simpa using hts.symm
    simpa using h
  | cons op ops ih =>
    intro w hw
    simp only [insertOperations]
    cases hp : ServiceType.parse op.raw with
    | none =>
      simp only [Prog.runs_write, Bool.false_eq_true, false_and, false_iff]
      rintro ⟨ts, hts, -⟩
      cases ts with
      | nil => simp at hts
      | cons t ts => simp [hp] at hts
    | some t =>
      have hview : (w ++ [Change.insertOperation ⟨id, t⟩]).foldl DB.apply d =
          { w.foldl DB.apply d with operations := (w.foldl DB.apply d).operations ++ [⟨id, t⟩] } := by
        simp [List.foldl_append, DB.apply]
      simp only [Prog.bind_eq, Prog.runs_bind, Prog.runs_write]
      rw [ih _ (by rw [hview]; exact hw), hview]
      simp only [DB.acceptsOperation, hw, Bool.true_and, Bool.not_eq_true', List.contains_eq_mem,
        decide_eq_false_iff_not]
      constructor
      · rintro ⟨hnew, ts, hts, hnd, hfree, hR⟩
        refine ⟨t :: ts, by simp [hp, hts], List.nodup_cons.mpr ⟨fun ht => ?_, hnd⟩, fun t' ht' => ?_,
          by simpa using hR⟩
        · exact hfree t ht (by simp)
        · rcases List.mem_cons.mp ht' with rfl | ht'
          · exact hnew
          · exact fun hm => hfree t' ht' (List.mem_append_left _ hm)
      · rintro ⟨ts, hts, hnd, hfree, hR⟩
        cases ts with
        | nil => simp at hts
        | cons t₀ ts =>
          obtain ⟨rfl, hts'⟩ : t = t₀ ∧ ops.map (fun op => ServiceType.parse op.raw) = ts.map some := by
            simpa [hp] using hts
          obtain ⟨ht, hnd⟩ := List.nodup_cons.mp hnd
          refine ⟨hfree t (List.mem_cons_self ..), ts, hts', hnd, fun t' ht' hm => ?_, by simpa using hR⟩
          rcases List.mem_append.mp hm with hm | hm
          · exact hfree t' (List.mem_cons_of_mem _ ht') hm
          · obtain rfl : t' = t := by simpa using hm
            exact ht ht'

theorem runs_insertParts (id : UUID) (parts : List Part) (R : Unit → List Change → Prop) : ∀ w : List Change,
    ((w.foldl DB.apply d).serviceRecord id).isSome = true →
    ((insertParts id parts).runs DB.apply o d R w ↔
      (∀ p ∈ parts, DB.storable (trimSpace p.name) = true ∧ DB.fitsInteger p.quantity = true ∧
        p.costCents.all DB.fitsInteger = true) ∧ R () (w ++ parts.map fun p => .insertPart (p.row id))) := by
  induction parts with
  | nil => intro w _; simp [insertParts]
  | cons part parts ih =>
    intro w hw
    have hview : ((w ++ [Change.insertPart (part.row id)]).foldl DB.apply d).serviceRecord id =
        (w.foldl DB.apply d).serviceRecord id := by
      simp [List.foldl_append, DB.apply, DB.serviceRecord]
    simp only [insertParts, Prog.bind_eq, Prog.runs_bind, Prog.runs_write]
    rw [ih _ (by rw [hview]; exact hw)]
    simp [DB.acceptsPart, Part.row, hw, and_assoc]


theorem runs_replaceOriginal (hd : Schema d) (rev : Option Revision) {w : Written} (hw : w.replaced = none)
    (hf : d.serviceRecord w.record.id = none) (hs : w.record.supersededBy = none) (R : List Change → Prop) :
    (replaceOriginal rev w.record.id).runs DB.apply o d (fun _ w => R w) w.changes ↔
      (∀ r, rev = some r → freshIDs d (carriedRows (o .carryAttachments) w.record.id
        (d.attachmentsOf (canonicalID r.recordID))) = true) ∧
      R { w with replaced := replacement d (o .carryAttachments) rev w.record.id }.changes := by
  have happend (q : Option (UUID × List AttachmentRow)) :
      { w with replaced := q }.changes = w.changes ++ { w with replaced := q }.replacedChanges := by
    simp [Written.changes, Written.mechanicChanges, Written.operationChanges, Written.partChanges,
      Written.replacedChanges, hw]
  rw [happend (replacement d (o .carryAttachments) rev w.record.id)]
  cases rev with
  | none => simp [replaceOriginal, replacement, Written.replacedChanges]
  | some r =>
    have hnew : ((w.changes.foldl DB.apply d).serviceRecord w.record.id).isSome = true := by
      rw [w.view, hw]
      simp [DB.serviceRecord]
    have hfree : (w.changes.foldl DB.apply d).acceptsSupersededBy w.record.id = true := by
      simp only [DB.acceptsSupersededBy, hnew, Bool.true_and, Bool.not_eq_true', List.any_eq_false, beq_iff_eq]
      rw [w.view, hw]
      intro r' hr'
      rcases List.mem_append.mp hr' with hr' | hr'
      · exact hd.fresh_supersededBy hf r' hr'
      · simp [List.mem_singleton.mp hr', hs]
    have hatt : (w.changes.foldl DB.apply d).attachments = d.attachments := by
      rw [w.view, hw]
      simp
    have hsome : (((w.changes.foldl DB.apply d).serviceRecord w.record.id).map
        (supersede (canonicalID r.recordID) w.record.id)).isSome = true := by
      rw [Option.isSome_map]
      exact hnew
    simp only [replaceOriginal, setSupersededBy, carryAttachments, Prog.runs_bind, Prog.runs_write, hfree, true_and,
      List.foldl_append, List.foldl_cons, List.foldl_nil, Option.some.injEq, forall_eq', Bool.and_eq_true,
      serviceRecord_supersede, hsome, replacement, Option.map_some, Written.replacedChanges]
    simp only [freshIDs, DB.attachmentsOf, DB.apply, hatt, List.append_assoc, List.singleton_append]
    exact Iff.rfl

theorem runs_children (hd : Schema d) (rev : Option Revision) {m : Option MechanicRow} {row : ServiceRecordRow}
    (hf : d.serviceRecord row.id = none) (hs : row.supersededBy = none) (ops : List Operation) (parts : List Part)
    (R : List Change → Prop) :
    (insertOperations row.id ops).runs DB.apply o d (fun _ w =>
        (insertParts row.id parts).runs DB.apply o d (fun _ w =>
          (replaceOriginal rev row.id).runs DB.apply o d (fun _ w => R w) w) w)
        (m.toList.map Change.insertMechanic ++ [Change.insertServiceRecord row]) ↔
      ∃ ts : List ServiceType, (ops.map (fun op => ServiceType.parse op.raw) = ts.map some ∧ ts.Nodup) ∧
        (∀ p ∈ parts, DB.storable (trimSpace p.name) = true ∧ DB.fitsInteger p.quantity = true ∧
          p.costCents.all DB.fitsInteger = true) ∧
        (∀ r, rev = some r → freshIDs d (carriedRows (o .carryAttachments) row.id
          (d.attachmentsOf (canonicalID r.recordID))) = true) ∧
        R (⟨m, row, ts, parts, replacement d (o .carryAttachments) rev row.id⟩ : Written).changes := by
  set w₀ : List Change := m.toList.map Change.insertMechanic ++ [Change.insertServiceRecord row] with hw₀
  have hview : w₀.foldl DB.apply d =
      { d with mechanics := d.mechanics ++ m.toList, serviceRecords := d.serviceRecords ++ [row] } := by
    rw [hw₀, List.foldl_append, foldl_insertMechanic]
    rfl
  have hnew : ((w₀.foldl DB.apply d).serviceRecord row.id).isSome = true := by
    rw [hview]
    simp [DB.serviceRecord]
  have hnone : ∀ t : ServiceType, (⟨row.id, t⟩ : OperationRow) ∉ d.operations := fun t ht => by
    obtain ⟨r, hr, hid⟩ := hd.operationRecord _ ht
    exact serviceRecord_none.mp hf r hr hid
  have hparts (ts : List ServiceType) := runs_insertParts (o := o) (d := d) row.id parts
    (fun _ w => (replaceOriginal rev row.id).runs DB.apply o d (fun _ w => R w) w)
    (w₀ ++ ts.map fun t => .insertOperation ⟨row.id, t⟩)
    (by rw [List.foldl_append, hview, foldl_insertOperation]; simp [DB.serviceRecord])
  have hrep (ts : List ServiceType) :=
    runs_replaceOriginal (o := o) (w := ⟨m, row, ts, parts, none⟩) hd rev rfl hf hs R
  have hw (ts : List ServiceType) : (⟨m, row, ts, parts, none⟩ : Written).changes =
      w₀ ++ (ts.map fun t => .insertOperation ⟨row.id, t⟩) ++ parts.map fun p => .insertPart (p.row row.id) := by
    simp [Written.changes, Written.mechanicChanges, Written.operationChanges, Written.partChanges,
      Written.replacedChanges, w₀]
  simp only [hw] at hrep
  rw [runs_insertOperations _ _ _ _ hnew]
  simp only [hparts, hrep, hview]
  constructor
  · rintro ⟨ts, hts, hnd, -, h⟩
    exact ⟨ts, ⟨hts, hnd⟩, h⟩
  · rintro ⟨ts, ⟨hts, hnd⟩, h⟩
    exact ⟨ts, hts, hnd, fun t _ => hnone t, h⟩

theorem runs_write_iff (hd : Schema d) (now : Time) (g : Generator) (input : CreateInput) (rev : Option Revision)
    (R : UUID → List Change → Prop) :
    (write P now input rev).runs DB.apply g.ids d R [] ↔
      ∃ v ts, Accepts P now g input rev d v ∧ input.operations.map (fun op => ServiceType.parse op.raw) = ts.map some ∧
        R (g.ids .insertServiceRecord 0) (writtenBy P now g input rev d v ts).changes := by
  rw [write_eq]
  simp only [Prog.runs_bind, runs_revisable]
  rw [runs_selectVehicle hd _ _ fun _ => id]
  cases hv : d.vehicleByPlate input.plate with
  | none =>
    simp only [Prog.runs_fail, and_false, false_iff]
    rintro ⟨v, -, h, -⟩
    rw [h.vehicle] at hv
    cases hv
  | some v =>
    simp only [runs_odometer, Prog.runs_bind, runs_upsertMechanic, insertServiceRecord, Prog.runs_write,
      foldl_insertMechanic]
    set m := newMechanic P d (g.ids .insertMechanic 0) input.workshopID input.mechanicName with hm
    set row := input.row now v.id (mechanicOf P d (g.ids .insertMechanic 0) input.workshopID input.mechanicName)
      (g.ids .insertServiceRecord 0) with hrow
    have hfresh (ha : DB.acceptsServiceRecord { d with mechanics := d.mechanics ++ m.toList } row = true) :
        d.serviceRecord row.id = none := by
      simp only [DB.acceptsServiceRecord, Bool.and_eq_true, Option.isNone_iff_eq_none] at ha
      exact ha.1.1.1.1.1.1
    constructor
    · rintro ⟨hrv, hodo, htext, hmech, ha, hr⟩
      obtain ⟨ts, hops, hparts, hcar, hR⟩ := (runs_children hd rev (hfresh ha) rfl _ _ (R row.id)).mp hr
      exact ⟨v, ts, ⟨hrv, hv, hodo, htext, hmech, ha, ⟨ts, hops⟩, hparts, hcar⟩, hops.1, hR⟩
    · rintro ⟨v', ts, h, hts, hR⟩
      obtain rfl : v = v' := Option.some.inj (hv.symm.trans h.vehicle)
      obtain ⟨ts', hts', hnd⟩ := h.operations
      obtain rfl : ts = ts' := List.map_injective_iff.mpr (Option.some_injective _) (hts.symm.trans hts')
      exact ⟨h.revisable, h.odometer, h.mechanicText, h.mechanic, h.record,
        (runs_children hd rev (hfresh h.record) rfl _ _ (R row.id)).mpr ⟨ts, ⟨hts, hnd⟩, h.parts, h.carried, hR⟩⟩

end

/-! ## The call -/

theorem Unchanged.refl (d : DB) : Unchanged d d := ⟨rfl, rfl, rfl, rfl, rfl⟩

theorem parse_label {s : String} {t : ServiceType} (h : ServiceType.parse s = some t) : t.label = s := by
  simpa using List.find?_some h

theorem labels_of_parse {ops : List Operation} {ts : List ServiceType}
    (h : ops.map (fun op => ServiceType.parse op.raw) = ts.map some) : ts.map (·.label) = ops.map (·.raw) := by
  induction ops generalizing ts with
  | nil => simpa using h
  | cons op ops ih =>
    cases ts with
    | nil => simp at h
    | cons t ts =>
      simp only [List.map_cons, List.cons.injEq] at h ⊢
      exact ⟨parse_label h.1, ih h.2⟩

section
variable {P : Platform} {now : Time} {g : Generator} {input : CreateInput} {rev : Option Revision} {d : DB}

section
variable {w : Written} {σ : SqlLocal}

theorem Writes.askedFor (h : Writes now input rev w σ d) : AskedFor now input rev d w where
  record := by
    obtain ⟨v, hv, hp⟩ := h.vehicle
    obtain ⟨hm, hid⟩ := vehicle_some hv
    exact ⟨v, hm, hp, by rw [hid]; exact h.record⟩
  mechanic := h.mechanic
  operations := labels_of_parse h.operations
  parts := h.parts
  create := h.create
  revise r hr := (h.revise r hr).2

theorem Writes.replaced_ne (h : Writes now input rev w σ d) {original : UUID} {rows : List AttachmentRow}
    (hw : w.replaced = some (original, rows)) : w.record.id ≠ original := by
  obtain ⟨r, ids, o, -, -, -, ho, -⟩ := h.original hw
  exact fun e => serviceRecord_none.mp h.fresh.2.1 o (serviceRecord_some ho).1 ((serviceRecord_some ho).2.trans e.symm)

theorem Writes.gained (h : Writes now input rev w σ d) : Gained w d (w.changes.foldl DB.apply d) := by
  rw [w.view]
  refine ⟨rfl, ?_, rfl, rfl, rfl, rfl, rfl, rfl⟩
  cases hw : w.replaced with
  | none => rfl
  | some p => simp [supersede_of_ne (h.replaced_ne hw)]

theorem Writes.predecessor_iff (h : Writes now input rev w σ d) (hd : Schema d) (p : UUID) :
    (∃ r ∈ (w.changes.foldl DB.apply d).serviceRecords, r.id = p ∧ r.supersededBy = some w.record.id) ↔
      w.replaced.map (·.1) = some p := by
  rw [h.gained.serviceRecords]
  have hfree := hd.fresh_supersededBy h.fresh.2.1
  cases hw : w.replaced with
  | none =>
    simp only [Option.map_none, reduceCtorEq, iff_false]
    rintro ⟨r, hr, -, hs⟩
    rcases List.mem_append.mp hr with hr | hr
    · exact hfree r hr hs
    · rw [List.mem_singleton.mp hr, h.supersededBy] at hs
      cases hs
  | some q =>
    obtain ⟨original, rows⟩ := q
    obtain ⟨-, -, o, -, -, -, ho, -⟩ := h.original hw
    obtain ⟨hom, hoid⟩ := serviceRecord_some ho
    simp only [Option.map_some, Option.some.injEq]
    constructor
    · rintro ⟨r, hr, hid, hs⟩
      rcases List.mem_append.mp hr with hr | hr
      · obtain ⟨r₀, hr₀, rfl⟩ := List.mem_map.mp hr
        by_cases hr₀o : r₀.id = original
        · rw [← hr₀o, ← hid, supersede_id]
        · rw [supersede_of_ne hr₀o] at hs
          exact absurd hs (hfree r₀ hr₀)
      · rw [List.mem_singleton.mp hr, h.supersededBy] at hs
        cases hs
    · rintro rfl
      exact ⟨_, List.mem_append_left _ (List.mem_map_of_mem hom), by simpa using hoid, by simp [supersede, hoid]⟩

theorem Writes.reread (h : Writes now input rev w σ d) (hd : Schema d) (hid : validID w.record.id = true)
    (hc : canonicalID w.record.id = w.record.id) (P : Platform) (o : Stmt → Nat → UUID) :
    ∃ record, Describes (w.changes.foldl DB.apply d) w.record (w.replaced.map (·.1)) record ∧
      (findByID P w.record.id).exec DB.apply RecordError.sql o (w.changes.foldl DB.apply d) (fun _ => false) 0 [] =
        .ok (some record, [], 4) := by
  have hd' : Schema (w.changes.foldl DB.apply d) := schema_view _ _ hd (h.lawful hd)
  have hg := h.gained
  have hmem : w.record ∈ (w.changes.foldl DB.apply d).serviceRecords := by rw [hg.serviceRecords]; simp
  obtain ⟨record, revises, hp, hdesc, hexec⟩ := hd'.findByID P hid (hc ▸ hd'.serviceRecord_of_mem hmem) o
  obtain ⟨revises', hp', hiff⟩ := hd'.predecessor w.record.id
  obtain rfl : revises = revises' := Option.some.inj (hp.symm.trans hp')
  obtain rfl : revises = w.replaced.map (·.1) := by
    exact Option.ext fun p => (hiff p).trans (h.predecessor_iff hd p)
  exact ⟨record, hdesc, hexec⟩

end

theorem exec_write (hd : Schema d) (ha : ∃ v, Accepts P now g input rev d v) :
    ∃ (w : Written) (n : Nat) (σ : SqlLocal),
    (write P now input rev).exec DB.apply RecordError.sql g.ids d (fun _ => false) 0 [] =
      .ok (w.record.id, w.changes, n) ∧ w.record.id = g.ids .insertServiceRecord 0 ∧ Writes now input rev w σ d := by
  obtain ⟨v, ha⟩ := ha
  obtain ⟨ts, hts, -⟩ := ha.operations
  obtain ⟨id, changes, n, he, hid⟩ :=
    (Prog.runs_iff DB.apply RecordError.sql g.ids d _ _ 0 []).mp
      ((runs_write_iff hd now g input rev fun id _ => id = g.ids .insertServiceRecord 0).mpr ⟨v, ts, ha, hts, rfl⟩)
  obtain ⟨σ, ⟨w, rfl, hw⟩, rfl⟩ := exec_sound (ρ := pg) hd _ 0 .start (wp_writeRecord P now input rev rfl) he
  exact ⟨w, n, σ, by rw [he, hw.changes], hid, hw⟩

theorem exec_write_refused (hd : Schema d) (ha : ¬ ∃ v, Accepts P now g input rev d v) (fault : Nat → Bool) :
    ∃ e, (write P now input rev).exec DB.apply RecordError.sql g.ids d fault 0 [] = .error e := by
  cases he : (write P now input rev).exec DB.apply RecordError.sql g.ids d fault 0 [] with
  | error e => exact ⟨e, rfl⟩
  | ok r =>
    obtain ⟨id, changes, n⟩ := r
    have hrun := (Prog.runs_iff DB.apply RecordError.sql g.ids d (fun _ _ => True) _ 0 []).mpr
      ⟨id, changes, n, Prog.exec_of_fault _ _ _ _ _ _ _ he, trivial⟩
    obtain ⟨v, -, hv, -⟩ := (runs_write_iff hd now g input rev fun _ _ => True).mp hrun
    exact absurd ⟨v, hv⟩ ha

theorem allOrNothing_error {e : WriteError} {d' : DB} :
    AllOrNothing now input rev d (.error e, d') ↔ Unchanged d d' :=
  ⟨fun h => h.nothing e rfl, fun h => ⟨fun found hf => (by cases hf), fun _ _ => h⟩⟩

theorem Gained.changed {w : Written} {d' : DB} (h : Gained w d d') : ¬ Unchanged d d' := by
  rintro ⟨hrec, -⟩
  have hlen := congrArg List.length (h.serviceRecords.symm.trans hrec)
  cases hw : w.replaced with
  | none => simp [hw] at hlen
  | some q => simp [hw] at hlen

end

theorem write_allOrNothing_iff (P : Platform) (now : Time) (g : Generator) (fault : Fault) (input : CreateInput)
    (rev : Option Revision) (init : SoundDB) :
    AllOrNothing now input rev init.db (Repository.write P now g fault input rev init.db) ↔
      ¬ ((∃ v, Accepts P now g input rev init.db v) ∧ ∃ n < 4, fault = .reread n) := by
  have hd := init.schema
  unfold Repository.write
  by_cases hb : fault = .begin
  · rw [if_pos hb, allOrNothing_error]
    simp [hb, Unchanged.refl]
  rw [if_neg hb]
  by_cases ha : ∃ v, Accepts P now g input rev init.db v
  · obtain ⟨w, n, σ, he, hid, hw⟩ := exec_write hd ha
    rcases Prog.exec_fault _ _ _ _ (fun n => fault == .statement n) _ _ _ he with
      ⟨hex, -⟩ | ⟨⟨e, hex⟩, i, -, -, hi⟩
    · simp only [hex]
      by_cases hc : fault = .commit
      · rw [if_pos hc, allOrNothing_error]
        simp [hc, Unchanged.refl]
      rw [if_neg hc]
      obtain ⟨record, hdesc, hfind⟩ :=
        hw.reread hd (by rw [hid]; exact g.valid _ _) (by rw [hid]; exact g.canonical _ _) P g.ids
      -- The re-read's own statements are what is left to fail.
      rcases Prog.exec_fault _ _ _ _ (fun n => fault == .reread n) _ _ _ hfind with
        ⟨hre, hall⟩ | ⟨⟨e, hre⟩, i, -, hi, hf⟩
      · simp only [hre]
        refine iff_of_true ⟨fun found h => ?_, fun e h => (by cases h)⟩ ?_
        · obtain rfl : some record = found := by simpa using h
          exact ⟨record, w, rfl, hw.askedFor, hw.gained, hdesc⟩
        · rintro ⟨-, i, hi, rfl⟩
          simpa using hall i (Nat.zero_le i) hi
      · simp only [hre, allOrNothing_error]
        exact iff_of_false hw.gained.changed fun h => h ⟨ha, i, hi, by simpa using hf⟩
    · simp only [hex, allOrNothing_error]
      refine iff_of_true (Unchanged.refl _) ?_
      rintro ⟨-, j, -, rfl⟩
      simp at hi
  · obtain ⟨e, he⟩ := exec_write_refused hd ha fun n => fault == .statement n
    simp only [he, allOrNothing_error, ha, false_and, not_false_iff, iff_true]
    exact Unchanged.refl _

/-- A call is all-or-nothing unless its transaction commits and one of the four
queries that load the record again fails. -/
theorem create_revise_allOrNothing (P : Platform) (now : Time) (g : Generator) (fault : Fault) (input : CreateInput)
    (init : SoundDB) :
    (AllOrNothing now input none init.db (Repository.create P now g fault input init.db) ↔
      ¬ ((∃ v, Accepts P now g input none init.db v) ∧ ∃ n < 4, fault = .reread n)) ∧
    ∀ workshopID recordID : Bytes,
      (AllOrNothing now input (some ⟨workshopID, recordID⟩) init.db
        (Repository.revise P now g fault workshopID recordID input init.db) ↔
      ¬ ((∃ v, Accepts P now g input (some ⟨workshopID, recordID⟩) init.db v) ∧ ∃ n < 4, fault = .reread n)) :=
  ⟨write_allOrNothing_iff P now g fault input none init,
    fun workshopID recordID => write_allOrNothing_iff P now g fault input (some ⟨workshopID, recordID⟩) init⟩

/-! ## A re-read that is lost -/

def sameID : Generator := ⟨fun _ _ => uuid "9", fun _ _ => by decide, fun _ _ => by decide⟩

def oilChange : CreateInput :=
  ⟨uuid "1", "ABC1D23", some "Ana", [.oilChange], 100, none, none, [], none, false⟩

theorem lostReread_keeps_record :
    ¬ AllOrNothing 0 oilChange none garage.db
      (Repository.create plain 0 sameID (.reread 0) oilChange garage.db) := by
  intro h
  have hu := h.nothing (.record (.sql .selectRecords)) (by decide +kernel)
  revert hu
  decide +kernel

end Mototeca
