import Mathlib.Data.List.Perm.Basic
import Mototeca.RecordsSound

/-!
# Reading a record back

`findByID` runs four queries. On a database that meets its constraints it finds
every record, with the rows of its child tables in the order of each `ORDER BY`.
-/

namespace Mototeca

open ReadCommitted

/-! ## Child rows -/

theorem eachRow_single {β : Type} {target : β → UUID × (ServiceRecord → ServiceRecord)}
    (ht : ∀ b r, ((target b).2 r).id = r.id) : ∀ (rows : List β) (r : ServiceRecord),
      (∀ b ∈ rows, (target b).1 = r.id) →
        eachRow target rows [r] = .ret [rows.foldl (fun r b => (target b).2 r) r] := by
  intro rows
  induction rows with
  | nil => exact fun r _ => rfl
  | cons b rows ih =>
    intro r hb
    have hr : r.id = (target b).1 := (hb b (List.mem_cons_self ..)).symm
    have hup : updateIndexed (target b).1 (target b).2 [r] = some [(target b).2 r] := by simp [updateIndexed, hr]
    simp only [eachRow, hup, List.foldl_cons]
    refine ih _ fun b' hb' => ?_
    rw [ht]
    exact hb b' (List.mem_cons_of_mem _ hb')

theorem foldl_addOperation (rows : List OperationRow) : ∀ r : ServiceRecord,
    rows.foldl (fun r b => (addOperation b).2 r) r =
      { r with operations := r.operations ++ rows.map fun o => ⟨o.type.label⟩ } := by
  induction rows with
  | nil => intro r; simp
  | cons o rows ih => intro r; rw [List.foldl_cons, ih]; simp [addOperation]

theorem foldl_addPart (rows : List PartRow) : ∀ r : ServiceRecord,
    rows.foldl (fun r b => (addPart b).2 r) r =
      { r with parts := r.parts ++ rows.map fun p => ⟨p.name, p.quantity, p.costCents⟩ } := by
  induction rows with
  | nil => intro r; simp
  | cons p rows ih => intro r; rw [List.foldl_cons, ih]; simp [addPart]

theorem foldl_addAttachmentRow (rows : List AttachmentRow) : ∀ r : ServiceRecord,
    rows.foldl (fun r b => (addAttachmentRow b).2 r) r =
      { r with attachments := r.attachments ++ rows.map fun a => ⟨a.id, a.url, a.kind, a.phase⟩ } := by
  induction rows with
  | nil => intro r; simp
  | cons a rows ih => intro r; rw [List.foldl_cons, ih]; simp [addAttachmentRow]

/-! ## The record of a row -/

namespace DB

def operationsOf (d : DB) (id : UUID) : List OperationRow := d.operations.filter (·.serviceRecordID == id)

def partsOf (d : DB) (id : UUID) : List PartRow := d.parts.filter (·.serviceRecordID == id)

def mechanicName (d : DB) (id : Option UUID) : Option String :=
  id.bind fun m => (d.mechanics.find? (·.id == m)).map (·.name)

end DB

/-- `record` is what the tables hold about `row`, and it replaces `revises`. -/
structure Describes (d : DB) (row : ServiceRecordRow) (revises : Option UUID) (record : ServiceRecord) : Prop where
  id : record.id = row.id
  workshopID : record.workshopID = row.workshopID
  vehicle : ∃ v, d.vehicle row.vehicleID = some v ∧ record.vehicle = ⟨v.plate, v.make, v.model, v.year⟩
  workshopName : ∃ w ∈ d.workshops, w.id = row.workshopID ∧ record.workshopName = w.name
  mechanicName : record.mechanicName = d.mechanicName row.mechanicID
  mileageKm : record.mileageKm = row.mileageKm
  costCents : record.costCents = row.costCents
  notes : record.notes = row.notes
  createdAt : record.createdAt = row.createdAt
  revisesRecordID : record.revisesRecordID = revises
  supersededByID : record.supersededByID = row.supersededBy
  operations : record.operations.Perm ((d.operationsOf row.id).map fun o => ⟨o.type.label⟩)
  parts : record.parts.Perm ((d.partsOf row.id).map fun p => ⟨p.name, p.quantity, p.costCents⟩)
  attachments : record.attachments.Perm ((d.attachmentsOf row.id).map fun a => ⟨a.id, a.url, a.kind, a.phase⟩)

section
variable {d : DB} (h : Schema d)
include h

theorem Schema.predecessor (id : UUID) : ∃ revises, d.predecessor id = some revises ∧
    ∀ p, revises = some p ↔ ∃ r ∈ d.serviceRecords, r.id = p ∧ r.supersededBy = some id := by
  unfold DB.predecessor
  cases hf : d.serviceRecords.filter (·.supersededBy == some id) with
  | nil =>
    refine ⟨none, rfl, fun p => ⟨fun hp => absurd hp.symm (Option.some_ne_none p), fun ⟨r, hr, _, hs⟩ => ?_⟩⟩
    exact absurd (by simpa using hs) (List.filter_eq_nil_iff.mp hf r hr)
  | cons r rest =>
    have hmem : ∀ r' ∈ r :: rest, r' ∈ d.serviceRecords ∧ r'.supersededBy = some id := fun r' hr' => by
      rw [← hf] at hr'
      simpa using hr'
    obtain ⟨hr, hs⟩ := hmem r (List.mem_cons_self ..)
    have hrest : rest = [] := by
      have hnd : ((r :: rest).map (·.id)).Nodup := hf ▸ (List.filter_sublist.map _).nodup h.recordIDs
      cases rest with
      | nil => rfl
      | cons r' rest =>
        obtain ⟨hr', hs'⟩ := hmem r' (by simp)
        have heq : r.id = r'.id := h.supersededOnce r hr r' hr' id hs hs'
        simp [heq] at hnd
    subst hrest
    refine ⟨some r.id, rfl, fun p => ⟨fun hp => ⟨r, hr, Option.some.inj hp, hs⟩, fun ⟨r', hr', hid, hs'⟩ => ?_⟩⟩
    rw [← hid, h.supersededOnce r hr r' hr' id hs hs']

theorem Schema.filter_id {row : ServiceRecordRow} (hrow : row ∈ d.serviceRecords) :
    d.serviceRecords.filter (·.id == row.id) = [row] := by
  have hmem : row ∈ d.serviceRecords.filter (·.id == row.id) := List.mem_filter.mpr ⟨hrow, by simp⟩
  have hnd : (d.serviceRecords.filter (·.id == row.id)).Nodup := ((List.Nodup.of_map _ h.recordIDs).filter _)
  refine List.perm_singleton.mp ((List.perm_ext_iff_of_nodup hnd (List.nodup_singleton _)).mpr fun r => ?_)
  refine ⟨fun hr => ?_, fun hr => List.mem_singleton.mp hr ▸ hmem⟩
  obtain ⟨hr, hid⟩ := List.mem_filter.mp hr
  exact List.mem_singleton.mpr (h.record_eq hr hrow (by simpa using hid))

theorem Schema.selectRecords {row : ServiceRecordRow} (hrow : row ∈ d.serviceRecords) {revises : Option UUID}
    (hp : d.predecessor row.id = some revises) : ∃ v w, d.vehicle row.vehicleID = some v ∧
      (w ∈ d.workshops ∧ w.id = row.workshopID) ∧
      d.selectRecords (d.serviceRecords.filter (·.id == row.id)) =
        some [⟨row.id, row.workshopID, ⟨v.plate, v.make, v.model, v.year⟩, w.name, d.mechanicName row.mechanicID, [],
          row.mileageKm, row.costCents, row.notes, [], [], row.createdAt, revises, row.supersededBy⟩] := by
  obtain ⟨v, hv⟩ := h.vehicle_of_record hrow
  have hws : (d.workshops.find? (·.id == row.workshopID)).isSome := by
    have hw := h.recordWorkshop row hrow
    simpa [DB.hasWorkshop, List.find?_isSome] using hw
  obtain ⟨w, hw⟩ := Option.isSome_iff_exists.mp hws
  refine ⟨v, w, hv, ⟨List.mem_of_find?_eq_some hw, by simpa using List.find?_some hw⟩, ?_⟩
  simp only [h.filter_id hrow, DB.selectRecords, hv, hw, hp, DB.mechanicName]

theorem Schema.findByID (P : Platform) {id : Bytes} {row : ServiceRecordRow} (hid : validID id = true)
    (hrow : d.serviceRecord (canonicalID id) = some row) (o : Stmt → Nat → UUID) :
    ∃ record revises, d.predecessor row.id = some revises ∧ Describes d row revises record ∧
      (Mototeca.findByID P id).exec DB.apply RecordError.sql o d (fun _ => false) 0 [] =
        .ok (some record, [], 4) := by
  obtain ⟨hmem, hc⟩ := serviceRecord_some hrow
  obtain ⟨revises, hp, -⟩ := h.predecessor row.id
  obtain ⟨v, w, hv, hw, hsel⟩ := h.selectRecords hmem hp
  have owned {β : Type} {key : β → UUID} {le : β → β → Prop} [DecidableRel le] {rows : List β} :
      ∀ b ∈ (rows.filter (key · == row.id)).insertionSort le, key b = row.id := fun b hb => by
    have hb := (List.perm_insertionSort le _).mem_iff.mp hb
    simpa using (List.mem_filter.mp hb).2
  refine ⟨⟨row.id, row.workshopID, ⟨v.plate, v.make, v.model, v.year⟩, w.name, d.mechanicName row.mechanicID,
    ((d.operationsOf row.id).insertionSort fun a b => a.type.rank ≤ b.type.rank).map fun o => ⟨o.type.label⟩,
    row.mileageKm, row.costCents, row.notes,
    ((d.partsOf row.id).insertionSort fun a b => P.collate a.name b.name).map fun p =>
      ⟨p.name, p.quantity, p.costCents⟩,
    ((d.attachmentsOf row.id).insertionSort fun a b => a.createdAt ≤ b.createdAt).map fun a =>
      ⟨a.id, a.url, a.kind, a.phase⟩,
    row.createdAt, revises, row.supersededBy⟩, revises, hp, ?_, ?_⟩
  · exact {
      id := rfl
      workshopID := rfl
      vehicle := ⟨v, hv, rfl⟩
      workshopName := ⟨w, hw.1, hw.2, rfl⟩
      mechanicName := rfl
      mileageKm := rfl
      costCents := rfl
      notes := rfl
      createdAt := rfl
      revisesRecordID := rfl
      supersededByID := rfl
      operations := (List.perm_insertionSort _ _).map _
      parts := (List.perm_insertionSort _ _).map _
      attachments := (List.perm_insertionSort _ _).map _ }
  · have hids : ∀ x : UUID, [row.id].contains x = (x == row.id) := fun x => by simp [Bool.beq_eq_decide_eq]
    simp only [Mototeca.findByID, hid, Bool.not_true, Bool.false_eq_true, ite_false, Mototeca.selectRecords,
      Prog.bind_eq, Prog.bind, Prog.exec, List.foldl_nil, ← hc, hsel, List.isEmpty_cons, hydrate, Prog.query,
      List.map_cons, List.map_nil, hids, List.append_nil]
    rw [eachRow_single (fun _ _ => rfl) _ _ owned, foldl_addOperation]
    simp only [Prog.bind, Prog.exec, Bool.false_eq_true, ite_false, List.foldl_nil, List.append_nil]
    rw [eachRow_single (fun _ _ => rfl) _ _ owned, foldl_addPart]
    simp only [Prog.bind, Prog.exec, Bool.false_eq_true, ite_false, List.foldl_nil, List.append_nil]
    rw [eachRow_single (fun _ _ => rfl) _ _ owned, foldl_addAttachmentRow]
    rfl

end

end Mototeca
