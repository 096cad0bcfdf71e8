import Mototeca.SchemaSound

/-!
# What the record transactions establish

`write` inserts one record with its operations and parts, and for a revision
points the original at it and carries its attachments over. `Writes` is what
holds of those rows when the body ends, whatever others commit meanwhile.
-/

namespace Mototeca

open ReadCommitted

abbrev SqlLocal := Local Stmt DB Change Key

theorem refuse_eq_none {bad : Bool} {message : String} : refuse bad message = none ↔ bad = false := by
  cases bad <;> simp [refuse]

/-! ## The rows that `write` inserts -/

structure Written where
  mechanic : Option MechanicRow
  record : ServiceRecordRow
  operations : List ServiceType
  parts : List Part
  /-- The record that this one replaces, and the attachments carried over from it. -/
  replaced : Option (UUID × List AttachmentRow)

namespace Written

def mechanicChanges (w : Written) : List Change := w.mechanic.toList.map .insertMechanic

def operationChanges (w : Written) : List Change := w.operations.map fun t => .insertOperation ⟨w.record.id, t⟩

def partChanges (w : Written) : List Change := w.parts.map fun p => .insertPart (p.row w.record.id)

def replacedChanges (w : Written) : List Change :=
  match w.replaced with
  | none => []
  | some (original, rows) => .setSupersededBy original w.record.id :: rows.map .insertAttachment

def changes (w : Written) : List Change :=
  w.mechanicChanges ++ (.insertServiceRecord w.record :: w.operationChanges) ++ w.partChanges ++ w.replacedChanges

end Written

/-! ## Views -/

section
variable (d : DB)

theorem foldl_insertMechanic (ms : List MechanicRow) :
    (ms.map Change.insertMechanic).foldl DB.apply d = { d with mechanics := d.mechanics ++ ms } := by
  induction ms generalizing d with
  | nil => simp
  | cons m ms ih => rw [List.map_cons, List.foldl_cons, ih]; simp [DB.apply]

theorem foldl_insertOperation (id : UUID) (ts : List ServiceType) :
    (ts.map fun t => Change.insertOperation ⟨id, t⟩).foldl DB.apply d =
      { d with operations := d.operations ++ ts.map fun t => ⟨id, t⟩ } := by
  induction ts generalizing d with
  | nil => simp
  | cons t ts ih => rw [List.map_cons, List.foldl_cons, ih]; simp [DB.apply]

theorem foldl_insertPart (id : UUID) (ps : List Part) :
    (ps.map fun p => Change.insertPart (p.row id)).foldl DB.apply d =
      { d with parts := d.parts ++ ps.map fun p => p.row id } := by
  induction ps generalizing d with
  | nil => simp
  | cons p ps ih => rw [List.map_cons, List.foldl_cons, ih]; simp [DB.apply]

theorem foldl_insertAttachment (rows : List AttachmentRow) :
    (rows.map Change.insertAttachment).foldl DB.apply d = { d with attachments := d.attachments ++ rows } := by
  induction rows generalizing d with
  | nil => simp
  | cons a rows ih => rw [List.map_cons, List.foldl_cons, ih]; simp [DB.apply]

end

theorem Written.view (w : Written) (d : DB) :
    w.changes.foldl DB.apply d =
      { d with
        mechanics := d.mechanics ++ w.mechanic.toList
        serviceRecords :=
          match w.replaced with
          | none => d.serviceRecords ++ [w.record]
          | some (original, _) => (d.serviceRecords ++ [w.record]).map (supersede original w.record.id)
        operations := d.operations ++ w.operations.map fun t => ⟨w.record.id, t⟩
        parts := d.parts ++ w.parts.map fun p => p.row w.record.id
        attachments := d.attachments ++ (w.replaced.elim [] (·.2)) } := by
  cases hr : w.replaced with
  | none =>
    simp only [changes, mechanicChanges, operationChanges, partChanges, replacedChanges, hr, List.foldl_append,
      List.foldl_cons, foldl_insertMechanic, foldl_insertOperation, foldl_insertPart, DB.apply, Option.elim_none,
      List.append_nil]
  | some p =>
    simp only [changes, mechanicChanges, operationChanges, partChanges, replacedChanges, hr, List.foldl_append,
      List.foldl_cons, foldl_insertMechanic, foldl_insertOperation, foldl_insertPart, foldl_insertAttachment, DB.apply,
      Option.elim_some]
    rfl

/-! ## The facts of each step -/

/-- The record to revise is locked, the workshop's own and current. -/
def Revisable (rev : Revision) (σ : SqlLocal) (d : DB) : Prop :=
  ∃ o, d.serviceRecord (canonicalID rev.recordID) = some o ∧ σ.held (.serviceRecord (canonicalID rev.recordID)) ∧
    o.workshopID = rev.workshopID ∧ o.supersededBy = none

theorem persistent_revisable (rev : Revision) : Persistent pg (Revisable rev) where
  rely := by
    rintro σ d d' ⟨o, ho, hk, h⟩ hr -
    exact ⟨o, (hr.record _ hk).trans ho, hk, h⟩
  after := by
    rintro σ d ks cs name v ⟨o, ho, hk, h⟩
    exact ⟨o, ho, Or.inr hk, h⟩

def HasPlate (vehicleID : UUID) (plate : String) (_ : SqlLocal) (d : DB) : Prop :=
  ∃ v, d.vehicle vehicleID = some v ∧ v.plate = plate

theorem persistent_hasPlate (vehicleID : UUID) (plate : String) : Persistent pg (HasPlate vehicleID plate) where
  rely := by
    rintro σ d d' ⟨v, hv, hp⟩ hr -
    obtain ⟨o, ho⟩ := hr.vehicles _ _ hv
    exact ⟨_, ho, hp⟩
  after _ _ _ _ _ _ h := h

/-- The odometer check saw no current record of the vehicle above `mileageKm`. -/
def Checked (vehicleID : UUID) (mileageKm : Int) (σ : SqlLocal) (_ : DB) : Prop :=
  ∃ v, (Stmt.highestMileage, v) ∈ σ.seen ∧ ∀ r ∈ v.currentRecords vehicleID, r.mileageKm ≤ mileageKm

theorem persistent_checked (vehicleID : UUID) (mileageKm : Int) : Persistent pg (Checked vehicleID mileageKm) :=
  persistent_seen _ _

/-- The id is the transaction's own: locked, and not in the committed rows. -/
def Fresh (id workshopID : UUID) (σ : SqlLocal) (d : DB) : Prop :=
  σ.held (.serviceRecord id) ∧ d.serviceRecord id = none ∧ d.hasWorkshop workshopID = true

theorem persistent_fresh (id workshopID : UUID) : Persistent pg (Fresh id workshopID) where
  rely := by
    rintro σ d d' ⟨hk, hn, hw⟩ hr -
    refine ⟨hk, (hr.record _ hk).trans hn, ?_⟩
    rw [DB.hasWorkshop, hr.workshops]
    exact hw
  after := by
    rintro σ d ks cs name v ⟨hk, hn, hw⟩
    exact ⟨Or.inr hk, hn, hw⟩

/-! ## Finding a record -/

/-- A committed record and the plate of its vehicle: neither ever changes. -/
def Identifies (id : Bytes) (record : ServiceRecord) (_ : SqlLocal) (d : DB) : Prop :=
  record.id = canonicalID id ∧ ∃ r v, d.serviceRecord (canonicalID id) = some r ∧ r.workshopID = record.workshopID ∧
    d.vehicle r.vehicleID = some v ∧ v.plate = record.vehicle.plate

theorem Identifies.keeps {id : Bytes} {record : ServiceRecord} {σ σ' : SqlLocal} {d d' : DB}
    (h : Identifies id record σ d) (hk : Keeps (fun _ => False) d d') : Identifies id record σ' d' := by
  obtain ⟨hid, r, v, hr, hw, hv, hp⟩ := h
  obtain ⟨n, hn, -⟩ := hk.records _ _ hr
  obtain ⟨o, ho⟩ := hk.vehicles _ _ hv
  exact ⟨hid, _, _, hn, hw, ho, hp⟩

section
variable {ρ : Rules DB Key} [Orderly ρ]

theorem persistent_identifies (id : Bytes) (record : ServiceRecord) : Persistent ρ (Identifies id record) where
  rely _ _ _ h hrely _ := h.keeps (Orderly.keeps _ _ _ hrely)
  after _ _ _ _ _ _ h := h

def ServiceRecord.head (r : ServiceRecord) : UUID × UUID × VehicleSummary := (r.id, r.workshopID, r.vehicle)

theorem updateIndexed_head {id : UUID} {f : ServiceRecord → ServiceRecord} (hf : ∀ r, (f r).head = r.head) :
    ∀ {records records' : List ServiceRecord}, updateIndexed id f records = some records' →
      records'.map ServiceRecord.head = records.map ServiceRecord.head := by
  intro records
  induction records with
  | nil => intro records' h; cases h
  | cons r rest ih =>
    intro records' h
    simp only [updateIndexed] at h
    split at h
    · rename_i rest' hrest
      obtain rfl := Option.some.inj h
      simp only [List.map_cons, ih hrest]
    · split at h
      · obtain rfl := Option.some.inj h
        simp only [List.map_cons, hf]
      · cases h

omit [Orderly ρ] in
theorem wp_eachRow {β : Type} {target : β → UUID × (ServiceRecord → ServiceRecord)}
    (ht : ∀ b r, ((target b).2 r).head = r.head) (rows : List β) (σ : SqlLocal) (d : DB) :
    ∀ records, wp DB.apply ρ (fun records' σ' _ =>
      records'.map ServiceRecord.head = records.map ServiceRecord.head ∧ σ'.changes = σ.changes)
      (eachRow target rows records) σ d := by
  induction rows with
  | nil => exact fun records => wp_ret ⟨rfl, rfl⟩
  | cons row rows ih =>
    intro records
    simp only [eachRow]
    cases h : updateIndexed (target row).1 (target row).2 records with
    | none => exact wp_fail
    | some records₁ =>
      refine wp_mono (fun records' σ' d' ⟨hh, hc⟩ => ⟨hh.trans ?_, hc⟩) _ _ _ (ih records₁)
      exact updateIndexed_head (ht row) h

omit [Orderly ρ] in
theorem wp_hydrate (P : Platform) (records : List ServiceRecord) (σ : SqlLocal) (d : DB) :
    wp DB.apply ρ (fun records' σ' _ =>
      records'.map ServiceRecord.head = records.map ServiceRecord.head ∧ σ'.changes = σ.changes)
      (hydrate P records) σ d := by
  unfold hydrate
  split
  · exact wp_ret ⟨rfl, rfl⟩
  · refine wp_then (P := fun _ σ' _ => σ'.changes = σ.changes)
      (wp_query fun d' _ _ => by simp) fun opRows σ₁ d₁ h₁ => ?_
    refine wp_then (wp_eachRow (fun _ _ => rfl) opRows σ₁ d₁ records) fun records₁ σ₂ d₂ ⟨hh₂, h₂⟩ => ?_
    refine wp_then (P := fun _ σ' _ => σ'.changes = σ.changes)
      (wp_query fun d' _ _ => by simp [h₂, h₁]) fun partRows σ₃ d₃ h₃ => ?_
    refine wp_then (wp_eachRow (fun _ _ => rfl) partRows σ₃ d₃ records₁) fun records₂ σ₄ d₄ ⟨hh₄, h₄⟩ => ?_
    refine wp_then (P := fun _ σ' _ => σ'.changes = σ.changes)
      (wp_query fun d' _ _ => by simp [h₄, h₃]) fun attachmentRows σ₅ d₅ h₅ => ?_
    refine wp_mono (fun records' σ' d' ⟨hh, hc⟩ => ⟨?_, hc.trans h₅⟩) _ _ _
      (wp_eachRow (fun _ _ => rfl) attachmentRows σ₅ d₅ records₂)
    rw [hh, hh₄, hh₂]

theorem mem_selectRecords {d : DB} : ∀ {rows : List ServiceRecordRow} {records : List ServiceRecord},
    d.selectRecords rows = some records → ∀ record ∈ records, ∃ r ∈ rows, ∃ v, r.id = record.id ∧
      r.workshopID = record.workshopID ∧ d.vehicle r.vehicleID = some v ∧ v.plate = record.vehicle.plate := by
  intro rows
  induction rows with
  | nil =>
    intro records h record hm
    obtain rfl := Option.some.inj h
    cases hm
  | cons sr rest ih =>
    intro records h record hm
    have later : ∀ {records}, d.selectRecords rest = some records → record ∈ records → ∃ r ∈ sr :: rest, ∃ v,
        r.id = record.id ∧ r.workshopID = record.workshopID ∧ d.vehicle r.vehicleID = some v ∧
          v.plate = record.vehicle.plate := by
      intro records h hm
      obtain ⟨r, hr, v, hv⟩ := ih h record hm
      exact ⟨r, List.mem_cons_of_mem _ hr, v, hv⟩
    simp only [DB.selectRecords] at h
    split at h
    · rename_i v w hv hw
      split at h
      · rename_i revises records₀ hp hs
        obtain rfl := Option.some.inj h
        rcases List.mem_cons.mp hm with rfl | hm
        · exact ⟨sr, List.mem_cons_self .., v, rfl, rfl, hv, rfl⟩
        · exact later hs hm
      · cases h
    · exact later h hm

theorem wp_findByID (P : Platform) (id : Bytes) {σ : SqlLocal} {d : DB} (hσ : σ.changes = []) :
    wp DB.apply ρ (fun found σ' d' => σ'.changes = [] ∧ ∀ record, found = some record → Identifies id record σ' d')
      (findByID P id) σ d := by
  unfold findByID
  split
  · exact wp_ret ⟨hσ, fun _ h => by cases h⟩
  · have hsel : wp DB.apply ρ (fun records σ' d' => σ'.changes = [] ∧ ∀ record ∈ records, Identifies id record σ' d')
        (selectRecords (·.id == canonicalID id)) σ d := by
      refine wp_stmt fun d' _ hi o => ?_
      simp only [hσ, List.foldl_nil]
      cases h : d'.selectRecords (d'.serviceRecords.filter (·.id == canonicalID id)) with
      | none => exact wp_fail
      | some records =>
        refine wp_ret ⟨by simp [hσ], fun record hm => ?_⟩
        obtain ⟨r, hr, v, hid, hw, hv, hp⟩ := mem_selectRecords h record hm
        obtain ⟨hr, hc⟩ := List.mem_filter.mp hr
        have hc : r.id = canonicalID id := by simpa using hc
        exact ⟨hid ▸ hc, r, v, hc ▸ (Orderly.schema _ hi).serviceRecord_of_mem hr, hw, hv, hp⟩
    refine wp_then hsel fun records σ₁ d₁ ⟨h₁, hrec⟩ => ?_
    split
    · exact wp_ret ⟨h₁, fun _ h => by cases h⟩
    · have hall : Persistent ρ fun (σ : SqlLocal) d => ∀ record ∈ records, Identifies id record σ d :=
        ⟨fun σ d d' h hr hi record hm => (persistent_identifies id record).rely σ d d' (h record hm) hr hi,
          fun _ _ _ _ _ _ h => h⟩
      refine wp_seq hall (wp_hydrate P records σ₁ d₁) hrec fun records' σ₂ d₂ ⟨hh, hc⟩ hrec => ?_
      refine wp_ret ⟨hc.trans h₁, fun record hhead => ?_⟩
      have hm : record.head ∈ records.map ServiceRecord.head :=
        hh ▸ List.mem_map_of_mem (List.mem_of_head? hhead)
      obtain ⟨record₀, hm₀, he⟩ := List.mem_map.mp hm
      obtain ⟨hid, r, v, hr, hw, hv, hp⟩ := hrec record₀ hm₀
      simp only [ServiceRecord.head, Prod.mk.injEq] at he
      obtain ⟨he₁, he₂, he₃⟩ := he
      exact ⟨he₁ ▸ hid, r, v, hr, he₂ ▸ hw, hv, he₃ ▸ hp⟩

end

/-! ## Writing a record -/

def revisable : Option Revision → Sql RecordError Unit
  | some r => checkRevisable r
  | none => .ret ()

def replaceOriginal (rev : Option Revision) (recordID : UUID) : Sql RecordError Unit :=
  match rev with
  | some r => (setSupersededBy (canonicalID r.recordID) recordID).bind fun _ =>
      carryAttachments (canonicalID r.recordID) recordID
  | none => .ret ()

/-- The part of `write` that only an unconfirmed create has. -/
def odometer (input : CreateInput) (rev : Option Revision) (vehicleID : UUID) : Sql RecordError Unit :=
  if rev.isNone && !input.confirmLowerMileage then checkMileage vehicleID input.mileageKm else .ret ()

theorem write_eq (P : Platform) (now : Time) (input : CreateInput) (rev : Option Revision) :
    write P now input rev =
      (revisable rev).bind fun _ => (selectVehicle input.plate).bind fun vehicle =>
        match vehicle with
          | none => .fail .vehicleNotFound
          | some v => (odometer input rev v.id).bind fun _ =>
            (upsertMechanic P input.workshopID input.mechanicName).bind fun mechanicID =>
              (insertServiceRecord input now v.id mechanicID).bind fun recordID =>
                (insertOperations recordID input.operations).bind fun _ =>
                  (insertParts recordID input.parts).bind fun _ =>
                    (replaceOriginal rev recordID).bind fun _ => .ret recordID := by
  have hodo : ∀ (v : VehicleRow) (k : Unit → Sql RecordError UUID),
      (if (rev.isNone && !input.confirmLowerMileage) = true then (checkMileage v.id input.mileageKm).bind k
        else (Prog.ret () : Sql RecordError Unit).bind k) = (odometer input rev v.id).bind k := by
    intro v k
    unfold odometer
    split <;> rfl
  unfold write
  simp only [Prog.bind_eq, hodo]
  cases rev with
  | none => rfl
  | some r =>
    refine Prog.bind_congr fun _ => Prog.bind_congr fun vehicle => ?_
    cases vehicle with
    | none => rfl
    | some v =>
      refine Prog.bind_congr fun _ => Prog.bind_congr fun mechanicID => Prog.bind_congr fun recordID => ?_
      refine Prog.bind_congr fun _ => Prog.bind_congr fun _ => ?_
      exact (Prog.bind_assoc ..).symm

/-- What holds of the rows of `write` when its body ends. -/
structure Writes (now : Time) (input : CreateInput) (rev : Option Revision) (w : Written) (σ : SqlLocal) (d : DB) :
    Prop where
  changes : σ.changes = w.changes
  fresh : Fresh w.record.id input.workshopID σ d
  vehicle : HasPlate w.record.vehicleID input.plate σ d
  record : w.record = input.row now w.record.vehicleID w.record.mechanicID w.record.id
  mechanic : ∀ m ∈ w.mechanic, m.workshopID = input.workshopID ∧ w.record.mechanicID = some m.id
  operations : input.operations.map (fun op => ServiceType.parse op.raw) = w.operations.map some
  parts : w.parts = input.parts
  odometer : rev = none → input.confirmLowerMileage = false → Checked w.record.vehicleID input.mileageKm σ d
  create : rev = none → w.replaced = none
  revise : ∀ r, rev = some r → Revisable r σ d ∧ ∃ ids, w.replaced = some (canonicalID r.recordID,
    carriedRows ids w.record.id (d.attachmentsOf (canonicalID r.recordID)))

theorem Writes.stable {now : Time} {input : CreateInput} {rev : Option Revision} {w : Written} {σ : SqlLocal}
    {d d' : DB}
    (h : Writes now input rev w σ d) (hr : Keeps σ.held d d') (hi : Schema d') : Writes now input rev w σ d' :=
  { h with
    fresh := (persistent_fresh _ _).rely σ d d' h.fresh hr hi
    vehicle := (persistent_hasPlate _ _).rely σ d d' h.vehicle hr hi
    odometer := fun h₁ h₂ => (persistent_checked _ _).rely σ d d' (h.odometer h₁ h₂) hr hi
    revise := fun r hrev => by
      obtain ⟨hrv, ids, hids⟩ := h.revise r hrev
      obtain ⟨o, -, hk, -⟩ := id hrv
      refine ⟨(persistent_revisable r).rely σ d d' hrv hr hi, ids, ?_⟩
      rw [hr.attachments _ hk]
      exact hids }

section
variable {σ : SqlLocal} {d : DB}

theorem wp_checkRevisable (rev : Revision) (hσ : σ.changes = []) :
    wp DB.apply pg (fun _ σ d => σ.changes = [] ∧ Revisable rev σ d) (checkRevisable rev) σ d := by
  unfold checkRevisable
  split
  · exact wp_fail
  · refine wp_then (P := fun found σ d => σ.changes = [] ∧ ∀ r, found = some r →
      d.serviceRecord (canonicalID rev.recordID) = some r ∧ σ.held (.serviceRecord (canonicalID rev.recordID)))
      (wp_queryForUpdate fun d' _ _ => ?_) fun found σ₁ d₁ ⟨h₁, hf⟩ => ?_
    · simp only [hσ, List.foldl_nil]
      refine ⟨by simp [hσ], fun r hr => ⟨hr, ?_⟩⟩
      simp [hr, (serviceRecord_some hr).2]
    · cases found with
      | none => exact wp_fail
      | some r =>
        obtain ⟨hr, hk⟩ := hf r rfl
        dsimp only
        split
        · exact wp_fail
        · rename_i hw
          split
          · exact wp_fail
          · rename_i hs
            exact wp_ret ⟨h₁, r, hr, hk, by simpa using hw, by simpa using hs⟩

theorem wp_revisable (rev : Option Revision) (hσ : σ.changes = []) :
    wp DB.apply pg (fun _ σ d => σ.changes = [] ∧ ∀ r, rev = some r → Revisable r σ d) (revisable rev) σ d := by
  cases rev with
  | none => exact wp_ret ⟨hσ, fun _ h => by cases h⟩
  | some r =>
    refine wp_mono (fun _ σ d ⟨h, hr⟩ => ⟨h, fun r' he => ?_⟩) _ _ _ (wp_checkRevisable r hσ)
    obtain rfl := Option.some.inj he
    exact hr

theorem wp_selectVehicle (plate : String) (hσ : σ.changes = []) :
    wp DB.apply pg (fun vehicle σ d => σ.changes = [] ∧ ∀ v, vehicle = some v → HasPlate v.id plate σ d)
      (selectVehicle plate) σ d := by
  unfold selectVehicle
  split
  · refine wp_query fun d' _ hi => ⟨by simp [hσ], fun v hv => ?_⟩
    simp only [hσ, List.foldl_nil] at hv
    obtain ⟨hm, hp⟩ := vehicleByPlate_some hv
    exact ⟨v, Schema.vehicle_of_mem hi hm, hp⟩
  · exact wp_fail

theorem le_highestMileage {vehicleID : UUID} {m : Int} (h : ∀ n, d.highestMileage vehicleID = some n → n ≤ m) :
    ∀ r ∈ d.currentRecords vehicleID, r.mileageKm ≤ m := by
  intro r hr
  have hm : r.mileageKm ∈ (d.currentRecords vehicleID).map (·.mileageKm) := List.mem_map_of_mem hr
  cases hmax : d.highestMileage vehicleID with
  | none =>
    rw [DB.highestMileage, List.max?_eq_none_iff] at hmax
    rw [hmax] at hm
    cases hm
  | some n =>
    rw [DB.highestMileage, List.max?_eq_some_iff] at hmax
    exact (hmax.2 _ hm).trans (h n (by rw [DB.highestMileage, List.max?_eq_some_iff]; exact hmax))

theorem wp_checkMileage (vehicleID : UUID) (m : Int) (hσ : σ.changes = []) :
    wp DB.apply pg (fun _ σ d => σ.changes = [] ∧ Checked vehicleID m σ d) (checkMileage vehicleID m) σ d := by
  unfold checkMileage
  refine wp_then (P := fun highest σ _ => σ.changes = [] ∧ ∃ v, (Stmt.highestMileage, v) ∈ σ.seen ∧
    v.highestMileage vehicleID = highest) (wp_query fun d' _ _ => ⟨by simp [hσ], d', by simp [hσ], by simp [hσ]⟩)
    fun highest σ₁ d₁ ⟨h₁, v, hv, hh⟩ => ?_
  cases highest with
  | none => exact wp_ret ⟨h₁, v, hv, le_highestMileage fun n hn => by rw [hh] at hn; cases hn⟩
  | some n =>
    dsimp only
    split
    · exact wp_fail
    · rename_i hlt
      refine wp_ret ⟨h₁, v, hv, le_highestMileage fun n' hn' => ?_⟩
      rw [hh] at hn'
      obtain rfl := Option.some.inj hn'
      omega

theorem wp_odometer (input : CreateInput) (rev : Option Revision) (vehicleID : UUID) (hσ : σ.changes = []) :
    wp DB.apply pg (fun _ σ d => σ.changes = [] ∧
      (rev = none → input.confirmLowerMileage = false → Checked vehicleID input.mileageKm σ d))
      (Mototeca.odometer input rev vehicleID) σ d := by
  unfold Mototeca.odometer
  split
  · exact wp_mono (fun _ σ d ⟨h, hc⟩ => ⟨h, fun _ _ => hc⟩) _ _ _ (wp_checkMileage vehicleID _ hσ)
  · rename_i hn
    exact wp_ret ⟨hσ, fun h₁ h₂ => absurd (by simp [h₁, h₂]) hn⟩

theorem wp_upsertMechanic (P : Platform) (workshopID : UUID) (name : Option String) (hσ : σ.changes = []) :
    wp DB.apply pg (fun id σ _ => ∃ m : Option MechanicRow, σ.changes = m.toList.map .insertMechanic ∧
      ∀ r ∈ m, r.workshopID = workshopID ∧ id = some r.id) (upsertMechanic P workshopID name) σ d := by
  cases name with
  | none => exact wp_ret ⟨none, hσ, by simp⟩
  | some name =>
    simp only [upsertMechanic]
    split
    · exact wp_ret ⟨none, hσ, by simp⟩
    split
    · exact wp_fail
    · refine wp_then (P := fun _ σ _ => σ.changes = []) (wp_query fun d' _ _ => by simp [hσ]) fun found σ₁ d₁ h₁ => ?_
      cases found with
      | some m => exact wp_ret ⟨none, h₁, by simp⟩
      | none =>
        refine wp_write fun d' _ _ o _ => ⟨some ⟨o 0, workshopID, trimSpace name⟩, ?_, ?_⟩
        · simp [h₁]
        · simp

theorem wp_insertServiceRecord (input : CreateInput) (now : Time) (vehicleID : UUID) (mechanicID : Option UUID)
    {m : Option MechanicRow} (hσ : σ.changes = m.toList.map .insertMechanic) :
    wp DB.apply pg (fun id σ d => σ.changes = m.toList.map .insertMechanic ++
      [.insertServiceRecord (input.row now vehicleID mechanicID id)] ∧ Fresh id input.workshopID σ d)
      (insertServiceRecord input now vehicleID mechanicID) σ d := by
  refine wp_write fun d' _ _ o hok => ⟨by simp [hσ], Or.inl (by simp), ?_⟩
  rw [hσ, foldl_insertMechanic] at hok
  simp only [DB.acceptsServiceRecord, Bool.and_eq_true, Option.isNone_iff_eq_none] at hok
  exact ⟨hok.1.1.1.1.1.1, hok.1.1.1.1.2⟩

theorem wp_insertOperations (recordID : UUID) (ops : List Operation) : ∀ (σ : SqlLocal) (d : DB),
    wp DB.apply pg (fun _ σ' _ => ∃ ts : List ServiceType, ops.map (fun op => ServiceType.parse op.raw) = ts.map some ∧
      σ'.changes = σ.changes ++ ts.map fun t => .insertOperation ⟨recordID, t⟩)
      (insertOperations recordID ops) σ d := by
  induction ops with
  | nil => exact fun σ d => wp_ret ⟨[], rfl, by simp⟩
  | cons op ops ih =>
    intro σ d
    simp only [insertOperations]
    cases hp : ServiceType.parse op.raw with
    | none =>
      refine wp_write fun d' _ _ o hok => ?_
      cases hok
    | some t =>
      refine wp_then (P := fun _ σ' _ => σ'.changes = σ.changes ++ [.insertOperation ⟨recordID, t⟩])
        (wp_write fun d' _ _ o _ => by simp) fun _ σ₁ d₁ h₁ => ?_
      refine wp_mono (fun _ σ' _ ⟨ts, hts, hc⟩ => ⟨t :: ts, by simp [hp, hts], ?_⟩) _ _ _ (ih σ₁ d₁)
      simp [hc, h₁]

theorem wp_insertParts (recordID : UUID) (parts : List Part) : ∀ (σ : SqlLocal) (d : DB),
    wp DB.apply pg (fun _ σ' _ => σ'.changes = σ.changes ++ parts.map fun p => .insertPart (p.row recordID))
      (insertParts recordID parts) σ d := by
  induction parts with
  | nil => exact fun σ d => by simp [insertParts, wp]
  | cons part parts ih =>
    intro σ d
    simp only [insertParts]
    refine wp_then (P := fun _ σ' _ => σ'.changes = σ.changes ++ [.insertPart (part.row recordID)])
      (wp_write fun d' _ _ o _ => by simp) fun _ σ₁ d₁ h₁ => ?_
    exact wp_mono (fun _ σ' _ hc => by simp [hc, h₁]) _ _ _ (ih σ₁ d₁)

theorem wp_replaceOriginal {w : Written} (rev : Option Revision) (hw : w.replaced = none)
    (hσ : σ.changes = w.changes) :
    wp DB.apply pg (fun _ σ d => ∃ replaced, σ.changes = { w with replaced := replaced }.changes ∧
      (rev = none → replaced = none) ∧ ∀ r, rev = some r → ∃ ids, replaced = some (canonicalID r.recordID,
        carriedRows ids w.record.id (d.attachmentsOf (canonicalID r.recordID))))
      (replaceOriginal rev w.record.id) σ d := by
  cases rev with
  | none => exact wp_ret ⟨none, by rw [hσ, ← hw], fun _ => rfl, fun _ h => by cases h⟩
  | some r =>
    refine wp_then (P := fun _ σ _ => σ.changes = w.changes ++ [.setSupersededBy (canonicalID r.recordID) w.record.id])
      (wp_write fun d' _ _ o _ => by simp [hσ]) fun _ σ₁ d₁ h₁ => ?_
    refine wp_write fun d' _ _ o _ => ?_
    have hatt : (σ₁.changes.foldl DB.apply d').attachmentsOf (canonicalID r.recordID) =
        d'.attachmentsOf (canonicalID r.recordID) := by
      rw [h₁, List.foldl_append, w.view, hw]
      simp [DB.apply, DB.attachmentsOf]
    refine ⟨some (canonicalID r.recordID, carriedRows o w.record.id (d'.attachmentsOf (canonicalID r.recordID))),
      ?_, (fun h => by cases h), fun r' hr' => ⟨o, ?_⟩⟩
    · rw [hatt, Local.after_changes, h₁]
      simp [Written.changes, Written.replacedChanges, Written.mechanicChanges, Written.operationChanges,
        Written.partChanges, hw]
    · obtain rfl := Option.some.inj hr'
      rfl

theorem wp_writeRecord (P : Platform) (now : Time) (input : CreateInput) (rev : Option Revision)
    (hσ : σ.changes = []) :
    wp DB.apply pg (fun id σ d => ∃ w : Written, w.record.id = id ∧ Writes now input rev w σ d)
      (write P now input rev) σ d := by
  rw [write_eq]
  have hrv : Persistent pg fun (σ : SqlLocal) d => ∀ r, rev = some r → Revisable r σ d :=
    ⟨fun σ d d' h hr hi r he => (persistent_revisable r).rely σ d d' (h r he) hr hi,
      fun σ d ks cs name v h r he => (persistent_revisable r).after σ d ks cs name v (h r he)⟩
  refine wp_then (wp_revisable rev hσ) fun _ σ₁ d₁ ⟨h₁, hrev⟩ => ?_
  refine wp_seq hrv (wp_selectVehicle input.plate h₁) hrev fun vehicle σ₂ d₂ ⟨h₂, hv⟩ hrev => ?_
  cases vehicle with
  | none => exact wp_fail
  | some v =>
    have hodo : Persistent pg fun (σ : SqlLocal) d =>
        rev = none → input.confirmLowerMileage = false → Checked v.id input.mileageKm σ d :=
      ⟨fun σ d d' h hr hi h₁ h₂ => (persistent_checked _ _).rely σ d d' (h h₁ h₂) hr hi,
        fun σ d ks cs name x h h₁ h₂ => (persistent_checked _ _).after σ d ks cs name x (h h₁ h₂)⟩
    refine wp_seq (hrv.and (persistent_hasPlate v.id input.plate)) (wp_odometer input rev v.id h₂) ⟨hrev, hv v rfl⟩
      fun _ σ₃ d₃ ⟨h₃, hc⟩ hf => ?_
    refine wp_seq ((hrv.and (persistent_hasPlate v.id input.plate)).and hodo)
      (wp_upsertMechanic P input.workshopID input.mechanicName h₃) ⟨hf, hc⟩ fun mechanicID σ₄ d₄ ⟨m, h₄, hm⟩ hf => ?_
    refine wp_seq ((hrv.and (persistent_hasPlate v.id input.plate)).and hodo)
      (wp_insertServiceRecord input now v.id mechanicID h₄) hf fun id σ₅ d₅ ⟨h₅, hfresh⟩ hf => ?_
    have facts := ((hrv.and (persistent_hasPlate v.id input.plate)).and hodo).and
      (persistent_fresh id input.workshopID)
    refine wp_seq facts (wp_insertOperations id input.operations σ₅ d₅) ⟨hf, hfresh⟩ fun _ σ₆ d₆ ⟨ts, hts, h₆⟩ hf => ?_
    refine wp_seq facts (wp_insertParts id input.parts σ₆ d₆) hf fun _ σ₇ d₇ h₇ hf => ?_
    let w : Written := ⟨m, input.row now v.id mechanicID id, ts, input.parts, none⟩
    have hw : σ₇.changes = w.changes := by
      simp [w, h₇, h₆, h₅, Written.changes, Written.mechanicChanges, Written.operationChanges, Written.partChanges,
        Written.replacedChanges, CreateInput.row]
    refine wp_seq facts (wp_replaceOriginal rev rfl hw) hf fun _ σ₈ d₈ ⟨replaced, h₈, hcr, hre⟩ hf => ?_
    obtain ⟨⟨⟨hrev, hv⟩, hc⟩, hfresh⟩ := hf
    exact wp_ret ⟨{ w with replaced := replaced }, rfl, {
      changes := h₈
      fresh := hfresh
      vehicle := hv
      record := rfl
      mechanic := hm
      operations := hts
      parts := rfl
      odometer := hc
      create := hcr
      revise := fun r hr => ⟨hrev r hr, hre r hr⟩ }⟩

/-! ## Attaching a file -/

/-- What holds when the body of `addAttachment` ends with `stored`. -/
structure Attaches (now : Time) (workshopID recordID : Bytes) (a stored : Attachment) (σ : SqlLocal) (d : DB) :
    Prop where
  held : σ.held (.serviceRecord (canonicalID recordID))
  record : ∃ r, d.serviceRecord (canonicalID recordID) = some r ∧ r.workshopID = workshopID
  locked : ∃ v, (Stmt.lockAttached, v) ∈ σ.seen ∧
    v.serviceRecord (canonicalID recordID) = d.serviceRecord (canonicalID recordID)
  result : stored = { a with id := stored.id }
  changes : σ.changes =
    [.insertAttachment ⟨stored.id, canonicalID recordID, a.url, a.kind, a.phase, now⟩]

theorem Attaches.stable {now : Time} {workshopID recordID : Bytes} {a stored : Attachment} {σ : SqlLocal} {d d' : DB}
    (h : Attaches now workshopID recordID a stored σ d) (hr : Keeps σ.held d d') :
    Attaches now workshopID recordID a stored σ d' :=
  { h with
    record := by rw [hr.record _ h.held]; exact h.record
    locked := by rw [hr.record _ h.held]; exact h.locked }

/-- The record is locked, and has fewer attachments than it may have. -/
def HasRoom (recordID : Bytes) (σ : SqlLocal) (d : DB) : Prop :=
  σ.held (.serviceRecord (canonicalID recordID)) ∧
    (d.attachmentsOf (canonicalID recordID)).length < maxAttachmentsPerRecord

theorem persistent_hasRoom (recordID : Bytes) : Persistent pg (HasRoom recordID) where
  rely _ _ _ h hr _ := ⟨h.1, hr.attachments _ h.1 ▸ h.2⟩
  after _ _ _ _ _ _ h := ⟨Or.inr h.1, h.2⟩

theorem wp_addAttachment (now : Time) (workshopID recordID : Bytes) (a : Attachment) (hσ : σ.changes = []) :
    wp DB.apply pg (fun stored σ d => Attaches now workshopID recordID a stored σ d ∧ HasRoom recordID σ d)
      (addAttachment now workshopID recordID a) σ d := by
  unfold addAttachment
  split
  · exact wp_fail
  · let Locked (r : ServiceRecordRow) (σ : SqlLocal) (d : DB) : Prop :=
      σ.held (.serviceRecord (canonicalID recordID)) ∧ d.serviceRecord (canonicalID recordID) = some r ∧
        ∃ v, (Stmt.lockAttached, v) ∈ σ.seen ∧ v.serviceRecord (canonicalID recordID) = some r
    have hlocked : ∀ r, Persistent pg (Locked r) := fun r =>
      ⟨fun σ d d' ⟨hk, hr, hs⟩ hkeep _ => ⟨hk, (hkeep.record _ hk).trans hr, hs⟩,
        fun σ d ks cs name v ⟨hk, hr, w, hw, hs⟩ => ⟨Or.inr hk, hr, w, List.mem_append_left _ hw, hs⟩⟩
    refine wp_then (P := fun found σ d => σ.changes = [] ∧ ∀ r, found = some r → Locked r σ d)
      (wp_queryForUpdate fun d' _ _ => ?_) fun found σ₁ d₁ ⟨h₁, hf⟩ => ?_
    · simp only [hσ, List.foldl_nil]
      exact ⟨by simp [hσ], fun r hr => ⟨by simp [hr, (serviceRecord_some hr).2], hr, d', by simp, hr⟩⟩
    · cases found with
      | none => exact wp_fail
      | some r =>
        dsimp only
        split
        · exact wp_fail
        · rename_i hw
          obtain ⟨hheld, hfound, -⟩ := hf r rfl
          refine wp_seq (P := fun count σ d => σ.changes = [] ∧ (count < maxAttachmentsPerRecord → HasRoom recordID σ d))
            (hlocked r) (wp_query fun d' _ _ => ⟨by simp [h₁], fun hroom => ⟨Or.inr hheld, ?_⟩⟩) (hf r rfl)
            fun count σ₂ d₂ ⟨h₂, hroom⟩ hl => ?_
          · simpa only [h₁, List.foldl_nil, (serviceRecord_some hfound).2] using hroom
          split
          · exact wp_fail
          · rename_i hcount
            refine wp_write fun d' hr hi o _ => ?_
            obtain ⟨hk, hrec, v, hv, hs⟩ := (hlocked r).rely _ _ _ hl hr hi
            have hroom' := (persistent_hasRoom recordID).rely _ _ _ (hroom (Nat.lt_of_not_le hcount)) hr hi
            refine ⟨?_, (persistent_hasRoom recordID).after _ _ _ _ _ _ hroom'⟩
            exact {
              held := Or.inr hk
              record := ⟨r, hrec, by simpa using hw⟩
              locked := ⟨v, List.mem_append_left _ hv, hs.trans hrec.symm⟩
              result := rfl
              changes := by simp [h₂, (serviceRecord_some hrec).2] }

/-- Whatever the others do, the body inserts one row. -/
theorem wp_addAttachment_inserts {ρ : Rules DB Key} (now : Time) (workshopID recordID : Bytes) (a : Attachment)
    (hσ : σ.changes = []) :
    wp DB.apply ρ (fun stored σ _ =>
      σ.changes = [.insertAttachment ⟨stored.id, canonicalID recordID, a.url, a.kind, a.phase, now⟩])
      (addAttachment now workshopID recordID a) σ d := by
  unfold addAttachment
  split
  · exact wp_fail
  · refine wp_then (P := fun found σ _ => σ.changes = [] ∧ ∀ r, found = some r → r.id = canonicalID recordID)
      (wp_queryForUpdate fun d' _ _ => ⟨by simp [hσ], fun r hr => (serviceRecord_some hr).2⟩)
      fun found σ₁ d₁ ⟨h₁, hf⟩ => ?_
    cases found with
    | none => exact wp_fail
    | some r =>
      dsimp only
      split
      · exact wp_fail
      · refine wp_then (P := fun _ σ _ => σ.changes = []) (wp_query fun d' _ _ => by simp [h₁]) fun count σ₂ d₂ h₂ => ?_
        split
        · exact wp_fail
        · refine wp_write fun d' _ _ o _ => ?_
          rw [Local.after_changes, h₂, hf r rfl, List.nil_append]

end

end Mototeca
