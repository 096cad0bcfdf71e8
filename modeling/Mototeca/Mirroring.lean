import Mototeca.Atomicity
import Mototeca.Correspondence

/-!
# A record written on both sides

The rows that a write adds are under the new record's id, so what the tables
hold about the other records is as before, and the demo's new record is the
mirror of the new row.
-/

namespace Mototeca

open ReadCommitted
open Mobile (Json DemoBackend DemoRecord)

/-- What a write makes of the rows that were there. -/
def Written.after (w : Written) (row : ServiceRecordRow) : ServiceRecordRow :=
  match w.replaced with
  | none => row
  | some (original, _) => supersede original w.record.id row

theorem Written.after_eq (w : Written) (row : ServiceRecordRow) :
    w.after row = { row with supersededBy := (w.after row).supersededBy } := by
  unfold Written.after supersede
  cases w.replaced with
  | none => rfl
  | some q =>
    by_cases h : row.id = q.1
    · simp [h]
    · simp [h]

@[simp] theorem Written.after_id (w : Written) (row : ServiceRecordRow) : (w.after row).id = row.id := by
  rw [w.after_eq]

section
variable {α : Type} {key : α → UUID} {l new : List α} {id : UUID}

theorem filter_append_other (h : ∀ a ∈ new, key a ≠ id) :
    (l ++ new).filter (key · == id) = l.filter (key · == id) := by
  have hnone : new.filter (key · == id) = [] := List.filter_eq_nil_iff.mpr fun a ha => by simpa using h a ha
  rw [List.filter_append, hnone, List.append_nil]

theorem filter_append_own (hl : ∀ a ∈ l, key a ≠ id) (h : ∀ a ∈ new, key a = id) :
    (l ++ new).filter (key · == id) = new := by
  have hnone : l.filter (key · == id) = [] := List.filter_eq_nil_iff.mpr fun a ha => by simpa using hl a ha
  have hall : new.filter (key · == id) = new := List.filter_eq_self.mpr fun a ha => by simpa using h a ha
  rw [List.filter_append, hnone, hall, List.nil_append]

end

/-! ## The tables -/

/-- The write is of a new record, and a record that it replaces was current. -/
structure Adds (w : Written) (d d' : DB) : Prop where
  gained : Gained w d d'
  before : Schema d
  after : Schema d'
  fresh : d.serviceRecord w.record.id = none
  supersededBy : w.record.supersededBy = none
  mechanic : ∀ m ∈ w.mechanic, d.hasMechanic m.id = false
  replaced : ∀ original rows, w.replaced = some (original, rows) →
    (∃ o, d.serviceRecord original = some o ∧ o.supersededBy = none) ∧ ∀ a ∈ rows, a.serviceRecordID = w.record.id

namespace Adds

variable {w : Written} {d d' : DB} (h : Adds w d d')
include h

theorem serviceRecords : d'.serviceRecords = d.serviceRecords.map w.after ++ [w.record] := by
  rw [h.gained.serviceRecords]
  unfold Written.after
  cases w.replaced with
  | none => simp
  | some q => rfl

theorem ne_of_mem {row : ServiceRecordRow} (hrow : row ∈ d.serviceRecords) : row.id ≠ w.record.id :=
  serviceRecord_none.mp h.fresh row hrow

theorem operationsOf_other {id : UUID} (hid : id ≠ w.record.id) : d'.operationsOf id = d.operationsOf id := by
  rw [DB.operationsOf, h.gained.operations]
  refine filter_append_other fun o ho => ?_
  obtain ⟨t, -, rfl⟩ := List.mem_map.mp ho
  exact hid.symm

theorem partsOf_other {id : UUID} (hid : id ≠ w.record.id) : d'.partsOf id = d.partsOf id := by
  rw [DB.partsOf, h.gained.parts]
  refine filter_append_other fun p hp => ?_
  obtain ⟨q, -, rfl⟩ := List.mem_map.mp hp
  exact hid.symm

theorem mem_carried {a : AttachmentRow} (ha : a ∈ w.replaced.elim [] (·.2)) : a.serviceRecordID = w.record.id := by
  cases hw : w.replaced with
  | none =>
    rw [hw] at ha
    cases ha
  | some q =>
    rw [hw] at ha
    exact (h.replaced q.1 q.2 hw).2 a ha

theorem attachmentsOf_other {id : UUID} (hid : id ≠ w.record.id) : d'.attachmentsOf id = d.attachmentsOf id := by
  rw [DB.attachmentsOf, h.gained.attachments]
  exact filter_append_other fun a ha => (h.mem_carried ha).trans_ne hid.symm

theorem operationsOf_new : d'.operationsOf w.record.id = w.operations.map fun t => ⟨w.record.id, t⟩ := by
  rw [DB.operationsOf, h.gained.operations]
  refine filter_append_own (fun o ho => ?_) fun o ho => ?_
  · obtain ⟨row, hrow, hid⟩ := h.before.operationRecord o ho
    exact hid ▸ h.ne_of_mem hrow
  · obtain ⟨t, -, rfl⟩ := List.mem_map.mp ho
    rfl

theorem partsOf_new : d'.partsOf w.record.id = w.parts.map fun p => p.row w.record.id := by
  rw [DB.partsOf, h.gained.parts]
  refine filter_append_own (fun p hp => ?_) fun p hp => ?_
  · obtain ⟨row, hrow, hid⟩ := h.before.partRecord p hp
    exact hid ▸ h.ne_of_mem hrow
  · obtain ⟨q, -, rfl⟩ := List.mem_map.mp hp
    rfl

theorem attachmentsOf_new : d'.attachmentsOf w.record.id = w.replaced.elim [] (·.2) := by
  rw [DB.attachmentsOf, h.gained.attachments]
  refine filter_append_own (fun a ha => ?_) fun a ha => h.mem_carried ha
  obtain ⟨row, hrow, hid⟩ := h.before.attachmentRecord a ha
  exact hid ▸ h.ne_of_mem hrow

theorem hasMechanic {id : UUID} (hid : d.hasMechanic id = true) : d'.hasMechanic id = true := by
  rw [DB.hasMechanic, h.gained.mechanics, List.any_append]
  exact Bool.or_eq_true_iff.mpr (.inl hid)

theorem mechanicName_other {id : Option UUID} (hid : ∀ m, id = some m → d.hasMechanic m = true) :
    d'.mechanicName id = d.mechanicName id := by
  cases id with
  | none => rfl
  | some m =>
    have hsome : (d.mechanics.find? (·.id == m)).isSome = true := by
      simpa [DB.hasMechanic, List.find?_isSome] using hid m rfl
    obtain ⟨row, hrow⟩ := Option.isSome_iff_exists.mp hsome
    simp only [DB.mechanicName, Option.bind_some, h.gained.mechanics, List.find?_append, hrow, Option.some_or]

theorem after_supersededBy {row : ServiceRecordRow} (hrow : row ∈ d.serviceRecords) (id : UUID) :
    (w.after row).supersededBy = some id ↔
      (id ≠ w.record.id ∧ row.supersededBy = some id) ∨ (id = w.record.id ∧ w.replaced.map (·.1) = some row.id) := by
  have hfresh : row.supersededBy ≠ some w.record.id := h.before.fresh_supersededBy h.fresh row hrow
  unfold Written.after
  cases hw : w.replaced with
  | none =>
    simp only [Option.map_none, reduceCtorEq, and_false, or_false]
    exact ⟨fun hs => ⟨fun he => hfresh (he ▸ hs), hs⟩, fun hs => hs.2⟩
  | some q =>
    obtain ⟨⟨o, ho, hcurrent⟩, -⟩ := h.replaced q.1 q.2 hw
    obtain ⟨homem, hoid⟩ := serviceRecord_some ho
    by_cases hid : row.id = q.1
    · obtain rfl : row = o := h.before.record_eq hrow homem (hid.trans hoid.symm)
      simp [supersede, hid, hcurrent, eq_comm]
    · have hne : q.1 ≠ row.id := fun he => hid he.symm
      simp only [supersede, hid, ite_false, Option.map_some, Option.some.injEq, hne, and_false, or_false]
      exact ⟨fun hs => ⟨fun he => hfresh (he ▸ hs), hs⟩, fun hs => hs.2⟩

theorem predecessor_other {id : UUID} (hid : id ≠ w.record.id) : d'.predecessor id = d.predecessor id := by
  obtain ⟨p, hp, hiff⟩ := h.before.predecessor id
  obtain ⟨p', hp', hiff'⟩ := h.after.predecessor id
  rw [hp, hp']
  refine congrArg some (Option.ext fun o => ?_)
  rw [hiff, hiff', h.serviceRecords]
  constructor
  · rintro ⟨r, hr, hro, hs⟩
    rcases List.mem_append.mp hr with hr | hr
    · obtain ⟨row, hrow, rfl⟩ := List.mem_map.mp hr
      rcases (h.after_supersededBy hrow id).mp hs with ⟨-, hs⟩ | ⟨he, -⟩
      · exact ⟨row, hrow, by simpa using hro, hs⟩
      · exact absurd he hid
    · rw [List.mem_singleton.mp hr, h.supersededBy] at hs
      cases hs
  · rintro ⟨row, hrow, hro, hs⟩
    exact ⟨w.after row, List.mem_append_left _ (List.mem_map_of_mem hrow), by simpa using hro,
      (h.after_supersededBy hrow id).mpr (.inl ⟨hid, hs⟩)⟩

theorem predecessor_new : d'.predecessor w.record.id = some (w.replaced.map (·.1)) := by
  obtain ⟨p, hp, hiff⟩ := h.after.predecessor w.record.id
  rw [hp]
  refine congrArg some (Option.ext fun o => ?_)
  rw [hiff, h.serviceRecords]
  constructor
  · rintro ⟨r, hr, rfl, hs⟩
    rcases List.mem_append.mp hr with hr | hr
    · obtain ⟨row, hrow, rfl⟩ := List.mem_map.mp hr
      rcases (h.after_supersededBy hrow _).mp hs with ⟨hne, -⟩ | ⟨-, ho⟩
      · exact absurd rfl hne
      · rw [ho, w.after_id]
    · rw [List.mem_singleton.mp hr, h.supersededBy] at hs
      cases hs
  · intro ho
    obtain ⟨q, hw, rfl⟩ := Option.map_eq_some_iff.mp ho
    obtain ⟨⟨row, hrow, -⟩, -⟩ := h.replaced q.1 q.2 hw
    obtain ⟨hmem, hid⟩ := serviceRecord_some hrow
    refine ⟨w.after row, List.mem_append_left _ (List.mem_map_of_mem hmem), by simpa using hid, ?_⟩
    exact (h.after_supersededBy hmem _).mpr (.inr ⟨rfl, by rw [ho, hid]⟩)

end Adds

/-! ## The records that were there -/

def Names.set (n : Names) (id : UUID) (name : String) : Names := { n with record := Function.update n.record id name }

theorem Names.set_self (n : Names) (id : UUID) (name : String) : (n.set id name).record id = name := by
  simp [Names.set]

/-- What the demo makes of its records where the server makes `w.after` of its rows. -/
def Written.mark (w : Written) (n : Names) (name : String) (r : DemoRecord) : DemoRecord :=
  match w.replaced with
  | none => r
  | some (original, _) => DemoBackend.markSuperseded (n.record original) name r

theorem Written.mark_eq (w : Written) (n : Names) (name : String) (r : DemoRecord) :
    w.mark n name r = { r with supersededByRecordId := (w.mark n name r).supersededByRecordId } := by
  unfold Written.mark DemoBackend.markSuperseded
  cases w.replaced with
  | none => rfl
  | some q =>
    by_cases h : r.id = n.record q.1
    · simp [h]
    · simp [h]

@[simp] theorem Written.mark_id (w : Written) (n : Names) (name : String) (r : DemoRecord) :
    (w.mark n name r).id = r.id := by
  rw [w.mark_eq]

section
variable {n : Names} {d d' : DB} {s : DemoBackend} {w : Written} (hm : Mirrors n d s) (h : Adds w d d') (name : String)
include h

theorem Adds.name_of_mem {row : ServiceRecordRow} (hrow : row ∈ d.serviceRecords) :
    (n.set w.record.id name).record row.id = n.record row.id :=
  Function.update_of_ne (h.ne_of_mem hrow) _ _

theorem Adds.names_of_predecessor {id : UUID} (p : Option UUID) (hp : d.predecessor id = some p) :
    p.map (n.set w.record.id name).record = p.map n.record := by
  obtain ⟨p', hp', hiff⟩ := h.before.predecessor id
  obtain rfl : p = p' := Option.some.inj (hp.symm.trans hp')
  cases hcase : p with
  | none => rfl
  | some o =>
    obtain ⟨row, hrow, rfl, -⟩ := (hiff o).mp hcase
    rw [Option.map_some, Option.map_some, h.name_of_mem name hrow]

include hm

theorem Adds.supersededBy_mark {row : ServiceRecordRow} {r : DemoRecord} (hrow : row ∈ d.serviceRecords)
    (hsame : SameRecord n d row r) : (w.mark n name r).supersededByRecordId =
      (w.after row).supersededBy.map (n.set w.record.id name).record := by
  have hkept : r.supersededByRecordId = row.supersededBy.map (n.set w.record.id name).record := by
    rw [hsame.supersededBy]
    cases hs : row.supersededBy with
    | none => rfl
    | some i =>
      obtain ⟨row', hrow', rfl⟩ := h.before.supersededBy row hrow i hs
      rw [Option.map_some, Option.map_some, h.name_of_mem name hrow']
  unfold Written.mark Written.after
  cases hw : w.replaced with
  | none => exact hkept
  | some q =>
    obtain ⟨⟨o, ho, -⟩, -⟩ := h.replaced q.1 q.2 hw
    obtain ⟨homem, hoid⟩ := serviceRecord_some ho
    by_cases hid : row.id = q.1
    · have hrid : r.id = n.record q.1 := by rw [hsame.id, hid]
      simp [DemoBackend.markSuperseded, supersede, hid, hrid, Names.set]
    · have hrid : r.id ≠ n.record q.1 := fun he => by
        rw [hsame.id, ← hoid] at he
        exact hid ((congrArg _ (hm.name_inj hrow homem he)).trans hoid)
      simpa [DemoBackend.markSuperseded, supersede, hid, hrid] using hkept

theorem SameRecord.after {row : ServiceRecordRow} {r : DemoRecord} (hrow : row ∈ d.serviceRecords)
    (hsame : SameRecord n d row r) : SameRecord (n.set w.record.id name) d' (w.after row) (w.mark n name r) := by
  have hid := h.ne_of_mem hrow
  rw [w.after_eq, w.mark_eq]
  exact {
    uuid := hsame.uuid
    id := hsame.id.trans (h.name_of_mem name hrow).symm
    plate := by
      rw [h.gained.others.2.2]
      exact hsame.plate
    workshopId := hsame.workshopId
    workshopName := by
      rw [h.gained.others.2.1]
      exact hsame.workshopName
    mechanic := fun m hmech => h.hasMechanic (hsame.mechanic m hmech)
    mechanicName := by
      rw [h.mechanicName_other hsame.mechanic]
      exact hsame.mechanicName
    operations := by
      rw [h.operationsOf_other hid]
      exact hsame.operations
    mileageKm := hsame.mileageKm
    mileageKm_fits := hsame.mileageKm_fits
    costCents := hsame.costCents
    costCents_fits := hsame.costCents_fits
    notes := hsame.notes
    parts := by
      rw [h.partsOf_other hid]
      exact hsame.parts
    parts_fit := by
      rw [h.partsOf_other hid]
      exact hsame.parts_fit
    attachments := by
      rw [h.attachmentsOf_other hid]
      exact hsame.attachments
    createdAt := hsame.createdAt
    revises := by
      obtain ⟨p, hp, -⟩ := h.before.predecessor row.id
      have hrevises := hsame.revises
      rw [hp, Option.map_some] at hrevises
      rw [h.predecessor_other hid, hp, Option.map_some, h.names_of_predecessor name p hp, hrevises]
    supersededBy := h.supersededBy_mark hm name hrow hsame }

omit hm in
theorem Adds.mechanicIDs (hids : (d.mechanics.map (·.id)).Nodup) : (d'.mechanics.map (·.id)).Nodup := by
  rw [h.gained.mechanics]
  cases hw : w.mechanic with
  | none => simpa using hids
  | some m =>
    have hnew : ∀ m' ∈ d.mechanics, m'.id ≠ m.id := by
      simpa [DB.hasMechanic] using h.mechanic m hw
    rw [Option.toList_some, List.map_append, List.map_singleton]
    refine hids.append (List.nodup_singleton _) fun id hid hid' => ?_
    obtain ⟨m', hm', rfl⟩ := List.mem_map.mp hid
    exact hnew m' hm' (List.mem_singleton.mp hid')

theorem Mirrors.write (new : DemoRecord) (hname : new.id = "record-" ++ toString (s.sequence + 1))
    (hsame : SameRecord (n.set w.record.id new.id) d' w.record new) :
    Mirrors (n.set w.record.id new.id) d'
      { s with records := s.records.map (w.mark n new.id) ++ [new], sequence := s.sequence + 1 } where
  schema := h.after
  records := by
    obtain ⟨l, hrows, hrecords, hall⟩ := hm.records
    refine ⟨l.map (fun p => (w.after p.1, w.mark n new.id p.2)) ++ [(w.record, new)], ?_, ?_, ?_⟩
    · rw [h.serviceRecords, List.map_append, List.map_map]
      refine .append ((hrows.map w.after).trans (.of_eq ?_)) (.refl _)
      rw [List.map_map]
      rfl
    · rw [List.map_append, List.map_map]
      refine .append ((hrecords.map (w.mark n new.id)).trans (.of_eq ?_)) (.refl _)
      rw [List.map_map]
      rfl
    · intro p hp
      rcases List.mem_append.mp hp with hp | hp
      · obtain ⟨q, hq, rfl⟩ := List.mem_map.mp hp
        exact (hall q hq).after hm h new.id (hrows.mem_iff.mpr (List.mem_map_of_mem hq))
      · rw [List.mem_singleton.mp hp]
        exact hsame
  recordNames := by
    have hids : (s.records.map (w.mark n new.id)).map (·.id) = s.records.map (·.id) := by
      rw [List.map_map]
      exact List.map_congr_left fun r _ => w.mark_id n new.id r
    rw [List.map_append, List.map_singleton, hids]
    refine hm.recordNames.append (List.nodup_singleton _) fun id hid hid' => ?_
    obtain ⟨r, hr, rfl⟩ := List.mem_map.mp hid
    have hle := hm.sequence r hr (s.sequence + 1) ((List.mem_singleton.mp hid').trans hname)
    omega
  sequence := by
    intro r hr k hk
    rcases List.mem_append.mp hr with hr | hr
    · obtain ⟨q, hq, rfl⟩ := List.mem_map.mp hr
      exact Nat.le_succ_of_le (hm.sequence q hq k ((w.mark_id n new.id q).symm.trans hk))
    · rw [List.mem_singleton.mp hr, hname] at hk
      exact (recordId_inj hk).ge
  vehicles := by
    intro plate
    have hd : d'.vehicleByPlate plate = d.vehicleByPlate plate := by rw [DB.vehicleByPlate, h.gained.others.2.2]; rfl
    rw [hd]
    exact hm.vehicles plate
  years := by
    rw [h.gained.others.2.2]
    exact hm.years
  mechanicIDs := h.mechanicIDs hm.mechanicIDs
  workshopIDs := by
    rw [h.gained.others.2.1]
    exact hm.workshopIDs
  workshops := by
    rw [h.gained.others.2.1]
    exact hm.workshops
  workshopNames := by
    rw [h.gained.others.2.1]
    exact hm.workshopNames

end

end Mototeca
