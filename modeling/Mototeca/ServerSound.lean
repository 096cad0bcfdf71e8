import Mototeca.RecordsSound

/-!
# What the API commits

`Done` is what each call has established by the time its transaction can
commit. It holds at every commit of every run (`server_discipline`), so the
tables keep their constraints and the rows of others are left alone.
-/

namespace Mototeca

open ReadCommitted

/-! ## Vehicles and owners -/

structure Registers (P : Platform) (input : VehicleInput) (id : UUID) (σ : SqlLocal) (d : DB) : Prop where
  held : σ.held (.vehicle id) ∧ σ.held (.plate (normalizePlate P input.plate))
  text : (input.row P id).storable = true
  fresh : d.vehicle id = none ∧ d.vehicleByPlate (normalizePlate P input.plate) = none
  changes : σ.changes = [.insertVehicle (input.row P id)]

structure Claims (ownerID : UUID) (plate suffix : String) (v : VehicleRow) (σ : SqlLocal) (d : DB) : Prop where
  held : σ.held (.vehicle v.id)
  updated : ∀ k ∈ ownerKeys v.id ownerID, σ.held k
  vehicle : d.vehicle v.id = some v
  plate : v.plate = plate
  suffix : suffix.toList.isSuffixOf v.chassi.toList = true
  owner : v.currentOwnerID = none ∨ v.currentOwnerID = some ownerID
  exists_ : d.owners.contains ownerID = true
  changes : σ.changes = [.setCurrentOwner v.id (some ownerID)]

structure Releases (ownerID : UUID) (plate : String) (v : VehicleRow) (σ : SqlLocal) (d : DB) : Prop where
  held : σ.held ⟨.vehicle v.id, .noKeyUpdate⟩
  vehicle : d.vehicle v.id = some v
  plate : v.plate = plate
  owner : v.currentOwnerID = some ownerID
  changes : σ.changes = [.setCurrentOwner v.id none]

section
variable {σ : SqlLocal} {d d' : DB}

theorem Registers.stable {P : Platform} {input : VehicleInput} {id : UUID} (h : Registers P input id σ d)
    (hr : Keeps σ.held d d') : Registers P input id σ d' :=
  { h with fresh := ⟨(hr.vehicle _ .update nofun h.held.1).trans h.fresh.1, hr.plate _ h.held.2 h.fresh.2⟩ }

theorem Claims.stable {ownerID : UUID} {plate suffix : String} {v : VehicleRow} (h : Claims ownerID plate suffix v σ d)
    (hr : Keeps σ.held d d') : Claims ownerID plate suffix v σ d' :=
  { h with
    vehicle := (hr.vehicle _ .update nofun h.held).trans h.vehicle
    exists_ := by rw [hr.owners]; exact h.exists_ }

theorem Releases.stable {ownerID : UUID} {plate : String} {v : VehicleRow} (h : Releases ownerID plate v σ d)
    (hr : Keeps σ.held d d') : Releases ownerID plate v σ d' :=
  { h with vehicle := (hr.vehicle _ .noKeyUpdate nofun h.held).trans h.vehicle }

theorem vehicleConflict_none {v : VehicleRow} : d.vehicleConflict v = none ↔ v.storable = true ∧
    d.vehicle v.id = none ∧ d.vehicleByPlate v.plate = none ∧ ∀ u ∈ d.vehicles, u.chassi ≠ v.chassi := by
  unfold DB.vehicleConflict
  cases v.storable with
  | false => simp
  | true =>
    cases d.vehicle v.id with
    | some u => simp
    | none =>
      cases d.vehicleByPlate v.plate with
      | some u => simp
      | none => simp

theorem wp_createVehicle (P : Platform) (input : VehicleInput) (hσ : σ.changes = []) :
    wp DB.apply pg (Registers P input) (createVehicle P input) σ d := by
  refine wp_stmt fun d' _ _ o => ?_
  simp only [hσ, List.foldl_nil]
  cases hc : d'.vehicleConflict (input.row P (o 0)) with
  | some e => exact wp_fail
  | none =>
    obtain ⟨htext, hid, hplate, -⟩ := vehicleConflict_none.mp hc
    exact wp_ret ⟨by simp, htext, ⟨hid, hplate⟩, by simp [hσ]⟩

theorem wp_claim (ownerID : UUID) (plate suffix : String) (hσ : σ.changes = []) :
    wp DB.apply pg (fun _ σ d => ∃ v, Claims ownerID plate suffix v σ d) (claim ownerID plate suffix) σ d := by
  unfold claim
  let Locked (v : VehicleRow) (σ : SqlLocal) (d : DB) : Prop := σ.held (.vehicle v.id) ∧ d.vehicle v.id = some v
  have hlocked : ∀ v, Persistent pg (Locked v) := fun v =>
    ⟨fun σ d d' ⟨hk, hv⟩ hkeep _ => ⟨hk, (hkeep.vehicle _ .update nofun hk).trans hv⟩,
      fun σ d ks cs name x ⟨hk, hv⟩ => ⟨Or.inr hk, hv⟩⟩
  have hlock : wp DB.apply pg (fun found σ d => σ.changes = [] ∧ ∀ v, found = some v → Locked v σ d ∧ v.plate = plate)
      (lockClaimed plate) σ d := by
    unfold lockClaimed
    split
    · refine wp_queryForUpdate fun d' _ hi => ?_
      simp only [hσ, List.foldl_nil]
      refine ⟨by simp [hσ], fun v hv => ?_⟩
      obtain ⟨hm, hp⟩ := vehicleByPlate_some hv
      exact ⟨⟨by simp [hv], Schema.vehicle_of_mem hi hm⟩, hp⟩
    · exact wp_fail
  have howner : Persistent pg fun (_ : SqlLocal) (d : DB) => d.owners.contains ownerID = true :=
    ⟨fun σ d d' h hkeep _ => by rw [hkeep.owners]; exact h, fun σ d ks cs name x h => h⟩
  refine wp_then hlock fun found σ₁ d₁ ⟨h₁, hf⟩ => ?_
  cases found with
  | none => exact wp_fail
  | some v =>
    obtain ⟨hl, hp⟩ := hf v rfl
    dsimp only
    split
    · exact wp_fail
    · rename_i hs
      split
      · exact wp_fail
      · rename_i ho
        refine wp_seq (P := fun _ σ d => σ.changes = [.setCurrentOwner v.id (some ownerID)] ∧
          (∀ k ∈ ownerKeys v.id ownerID, σ.held k) ∧ d.owners.contains ownerID = true) (hlocked v)
          (wp_write fun d' _ _ o hok => ⟨by simp [h₁], fun k hk => Or.inl hk, by simpa [h₁] using hok⟩) hl
          fun _ σ₂ d₂ ⟨h₂, hk₂, ho₂⟩ hl => ?_
        refine wp_seq (P := fun _ σ _ => σ.changes = [.setCurrentOwner v.id (some ownerID)] ∧
          ∀ k ∈ ownerKeys v.id ownerID, σ.held k) ((hlocked v).and howner)
          (wp_query fun d' _ _ => ⟨by simp [h₂], fun k hk => Or.inr (hk₂ k hk)⟩) ⟨hl, ho₂⟩
          fun owned σ₃ d₃ ⟨h₃, hk₃⟩ ⟨hl, ho₃⟩ => ?_
        cases owned with
        | none => exact wp_fail
        | some _ =>
          refine wp_ret ⟨v, hl.1, hk₃, hl.2, hp, by simpa using hs, ?_, ho₃, h₃⟩
          cases hown : v.currentOwnerID with
          | none => exact Or.inl rfl
          | some a => right; simpa [hown] using ho

theorem wp_release (ownerID : UUID) (plate : String) (hσ : σ.changes = []) :
    wp DB.apply pg (fun _ σ d => ∃ v, Releases ownerID plate v σ d) (release ownerID plate) σ d := by
  unfold release
  split
  · refine wp_stmt fun d' _ hi o => ?_
    simp only [hσ, List.foldl_nil]
    cases hv : d'.heldByPlate plate ownerID with
    | none => exact wp_fail
    | some v =>
      have hm : v ∈ d'.vehicles := List.mem_of_find?_eq_some hv
      have hc := List.find?_some hv
      simp only [Bool.and_eq_true, beq_iff_eq] at hc
      exact wp_ret ⟨v, by simp, Schema.vehicle_of_mem hi hm, hc.1, hc.2, by simp [hσ]⟩
  · exact wp_fail

end

/-! ## One call -/

/-- What a call has established when its body ends. -/
inductive Done (P : Platform) : Request → Reply → SqlLocal → DB → Prop where
  | create {subject : Option Subject} {now : Time} {req : CreateServiceRecordRequest} {workshopID : Bytes}
      {w : Written} {σ : SqlLocal} {d : DB} (session : requireWorkshopID subject = .ok workshopID)
      (writes :
        Writes now (req.input workshopID (normalizePlate P req.plate) none req.confirmLowerMileage) none w σ d) :
      Done P ⟨subject, now, .createServiceRecord req⟩ (.record w.record.id) σ d
  | revise {subject : Option Subject} {now : Time} {req : ReviseServiceRecordRequest} {workshopID : Bytes}
      {original : ServiceRecord} {w : Written} {σ : SqlLocal} {d : DB}
      (session : requireWorkshopID subject = .ok workshopID)
      (found : Identifies req.recordID original σ d)
      (writes : Writes now (req.input workshopID original.vehicle.plate (some req.recordID) false)
        (some ⟨workshopID, req.recordID⟩) w σ d) :
      Done P ⟨subject, now, .reviseServiceRecord req⟩ (.record w.record.id) σ d
  | upload {subject : Option Subject} {now : Time} {req : UploadRequest} {workshopID recordID : Bytes} {kind : String}
      {phase : Option String} {stored : Attachment} {σ : SqlLocal} {d : DB}
      (session : authenticateUpload subject = .ok workshopID)
      (form : attachmentKind req.kind req.phase = .ok (kind, phase))
      (attaches : Attaches now workshopID recordID ⟨[], req.url, kind, phase⟩ stored σ d) :
      Done P ⟨subject, now, .upload req⟩ (.attachment stored) σ d
  | register {subject : Option Subject} {now : Time} {req : VehicleInput} {id : UUID} {σ : SqlLocal} {d : DB}
      (registers : Registers P (req.normalized P) id σ d) :
      Done P ⟨subject, now, .createVehicle req⟩ (.vehicle id) σ d
  | claim {subject : Option Subject} {now : Time} {req : ClaimVehicleRequest} {ownerID : Bytes} {v : VehicleRow}
      {owned : OwnedVehicle} {σ : SqlLocal} {d : DB} (session : requireOwnerID subject = .ok ownerID)
      (plate : (normalizePlate P req.plate == "") = false)
      (suffix : validateChassiSuffix (normalizeChassiSuffix P req.chassiSuffix) = none)
      (claims : Claims ownerID (normalizePlate P req.plate) (normalizeChassiSuffix P req.chassiSuffix) v σ d) :
      Done P ⟨subject, now, .claimVehicle req⟩ (.owned owned) σ d
  | release {subject : Option Subject} {now : Time} {plate : String} {ownerID : Bytes} {v : VehicleRow} {σ : SqlLocal}
      {d : DB} (session : requireOwnerID subject = .ok ownerID)
      (releases : Releases ownerID (normalizePlate P plate) v σ d) :
      Done P ⟨subject, now, .releaseVehicle plate⟩ .released σ d

theorem Done.stable {P : Platform} {q : Request} {a : Reply} {σ : SqlLocal} {d d' : DB} (h : Done P q a σ d)
    (hr : Keeps σ.held d d') (hi : Schema d') : Done P q a σ d' := by
  cases h with
  | create session writes => exact .create session (writes.stable hr hi)
  | revise session found writes =>
    exact .revise session (found.keeps hr.unlocked) (writes.stable hr hi)
  | upload session form attaches => exact .upload session form (attaches.stable hr)
  | register registers => exact .register (registers.stable hr)
  | claim session plate suffix claims => exact .claim session plate suffix (claims.stable hr)
  | release session releases => exact .release session (releases.stable hr)

theorem wp_withSession {ρ : Rules DB Key} {α β : Type} {session : Except Failure α} {k : α → Sql Failure β}
    {Q : β → SqlLocal → DB → Prop} {σ : SqlLocal} {d : DB} (h : ∀ a, session = .ok a → wp DB.apply ρ Q (k a) σ d) :
    wp DB.apply ρ Q (withSession session k) σ d := by
  cases session with
  | error e => exact wp_fail
  | ok a => exact h a rfl

section
variable (P : Platform) {σ : SqlLocal} {d : DB} (hσ : σ.changes = [])
include hσ

theorem wp_createServiceRecord (now : Time) (workshopID : Bytes) (req : CreateServiceRecordRequest) :
    wp DB.apply pg (fun id σ d => ∃ w : Written, w.record.id = id ∧
      Writes now (req.input workshopID (normalizePlate P req.plate) none req.confirmLowerMileage) none w σ d)
      (createServiceRecord P now workshopID req) σ d := by
  unfold createServiceRecord
  dsimp only
  split
  · exact wp_fail
  · exact wp_mapFail _ _ _ _ (wp_writeRecord P now _ none hσ)

theorem wp_reviseServiceRecord (now : Time) (workshopID : Bytes) (req : ReviseServiceRecordRequest) :
    wp DB.apply pg (fun id σ d => ∃ original w, w.record.id = id ∧ Identifies req.recordID original σ d ∧
      Writes now (req.input workshopID original.vehicle.plate (some req.recordID) false)
        (some ⟨workshopID, req.recordID⟩) w σ d) (reviseServiceRecord P now workshopID req) σ d := by
  unfold reviseServiceRecord
  split
  · exact wp_fail
  · refine wp_then (wp_mapFail _ _ _ _ (wp_findByID P req.recordID hσ)) fun found σ₁ d₁ ⟨h₁, hf⟩ => ?_
    cases found with
    | none => exact wp_fail
    | some original =>
      dsimp only
      split
      · exact wp_fail
      · exact wp_mono (fun id σ d ⟨⟨w, hid, hw⟩, hf⟩ => ⟨original, w, hid, hf, hw⟩) _ _ _
          (wp_frame (persistent_identifies req.recordID original) _ _ _
            (wp_mapFail _ _ _ _ (wp_writeRecord P now _ _ h₁)) (hf original rfl))

theorem wp_upload (now : Time) (workshopID : Bytes) (req : UploadRequest) :
    wp DB.apply pg (fun stored σ d => ∃ recordID kind phase, attachmentKind req.kind req.phase = .ok (kind, phase) ∧
      Attaches now workshopID recordID ⟨[], req.url, kind, phase⟩ stored σ d ∧ HasRoom recordID σ d)
      (upload P now workshopID req) σ d := by
  unfold upload
  refine wp_then (wp_mapFail _ _ _ _ (wp_findByID P req.pathID hσ)) fun found σ₁ d₁ ⟨h₁, _⟩ => ?_
  cases found with
  | none => exact wp_fail
  | some record =>
    dsimp only
    split
    · exact wp_fail
    · cases hk : attachmentKind req.kind req.phase with
      | error message => exact wp_fail
      | ok p =>
        obtain ⟨kind, phase⟩ := p
        exact wp_mono (fun stored σ d h => ⟨record.id, kind, phase, rfl, h⟩) _ _ _
          (wp_mapFail _ _ _ _ (wp_addAttachment now workshopID record.id _ h₁))

theorem wp_registerVehicle (now : Time) (req : VehicleInput) :
    wp DB.apply pg (Registers P (req.normalized P)) (registerVehicle P now req) σ d := by
  unfold registerVehicle
  dsimp only
  split
  · exact wp_fail
  · exact wp_mapFail _ _ _ _ (wp_createVehicle P _ hσ)

theorem wp_claimVehicle (ownerID : Bytes) (req : ClaimVehicleRequest) :
    wp DB.apply pg (fun _ σ d => (normalizePlate P req.plate == "") = false ∧
      validateChassiSuffix (normalizeChassiSuffix P req.chassiSuffix) = none ∧
      ∃ v, Claims ownerID (normalizePlate P req.plate) (normalizeChassiSuffix P req.chassiSuffix) v σ d)
      (claimVehicle P ownerID req) σ d := by
  unfold claimVehicle
  dsimp only
  generalize (normalizePlate P req.plate == "") = blank
  generalize validateChassiSuffix (normalizeChassiSuffix P req.chassiSuffix) = refusal
  cases blank with
  | true => exact wp_fail
  | false =>
    cases refusal with
    | some message => exact wp_fail
    | none => exact wp_mono (fun _ _ _ h => ⟨rfl, rfl, h⟩) _ _ _ (wp_mapFail _ _ _ _ (wp_claim ownerID _ _ hσ))

theorem wp_releaseVehicle (ownerID : Bytes) (plate : String) :
    wp DB.apply pg (fun _ σ d => ∃ v, Releases ownerID (normalizePlate P plate) v σ d)
      (releaseVehicle P ownerID plate) σ d := by
  unfold releaseVehicle
  dsimp only
  generalize (normalizePlate P plate == "") = blank
  cases blank with
  | true => exact wp_fail
  | false => exact wp_mapFail _ _ _ _ (wp_release ownerID _ hσ)

end

theorem wp_serve (P : Platform) (q : Request) (d : DB) : wp DB.apply pg (Done P q) (serve P q) .start d := by
  obtain ⟨subject, now, call⟩ := q
  unfold serve
  cases call with
  | createServiceRecord req =>
    refine wp_withSession fun workshopID hs => wp_then (wp_createServiceRecord P rfl now workshopID req) ?_
    rintro id σ d ⟨w, rfl, hw⟩
    exact wp_ret (.create hs hw)
  | reviseServiceRecord req =>
    refine wp_withSession fun workshopID hs => wp_then (wp_reviseServiceRecord P rfl now workshopID req) ?_
    rintro id σ d ⟨original, w, rfl, hf, hw⟩
    exact wp_ret (.revise hs hf hw)
  | upload req =>
    refine wp_withSession fun workshopID hs => wp_then (wp_upload P rfl now workshopID req) ?_
    rintro stored σ d ⟨recordID, kind, phase, hk, h, -⟩
    exact wp_ret (.upload hs hk h)
  | createVehicle req =>
    refine wp_withSession fun _ _ => wp_then (wp_registerVehicle P rfl now req) ?_
    exact fun id σ d h => wp_ret (.register h)
  | claimVehicle req =>
    refine wp_withSession fun ownerID hs => wp_then (wp_claimVehicle P rfl ownerID req) ?_
    rintro owned σ d ⟨hp, hv, v, h⟩
    exact wp_ret (.claim hs hp hv h)
  | releaseVehicle plate =>
    refine wp_withSession fun ownerID hs => wp_then (wp_releaseVehicle P rfl ownerID plate) ?_
    rintro _ σ d ⟨v, h⟩
    exact wp_ret (.release hs h)

/-! ## Constraints and locks -/

def needsRecord (id : UUID) : Change → Prop
  | .insertMechanic _ => True
  | .insertOperation o => o.serviceRecordID = id
  | .insertPart p => p.serviceRecordID = id
  | .insertAttachment a => a.serviceRecordID = id
  | _ => False

theorem lawful_of_record (id : UUID) (w : List Change) : ∀ d : DB, (∀ c ∈ w, needsRecord id c) →
    (d.serviceRecord id).isSome → Lawful w d := by
  induction w with
  | nil => exact fun _ _ _ => trivial
  | cons c w ih =>
    intro d hw hd
    have hc := hw c (List.mem_cons_self ..)
    have hrest := fun c' hc' => hw c' (List.mem_cons_of_mem _ hc')
    cases c with
    | insertMechanic m => exact ⟨trivial, ih _ hrest hd⟩
    | insertOperation o => obtain rfl : o.serviceRecordID = id := hc; exact ⟨hd, ih _ hrest hd⟩
    | insertPart p => obtain rfl : p.serviceRecordID = id := hc; exact ⟨hd, ih _ hrest hd⟩
    | insertAttachment a => obtain rfl : a.serviceRecordID = id := hc; exact ⟨hd, ih _ hrest hd⟩
    | insertVehicle _ => exact hc.elim
    | insertServiceRecord _ => exact hc.elim
    | setSupersededBy _ _ => exact hc.elim
    | setCurrentOwner _ _ => exact hc.elim

section
variable {now : Time} {input : CreateInput} {rev : Option Revision} {w : Written} {σ : SqlLocal} {d : DB}

theorem Writes.supersededBy (h : Writes now input rev w σ d) : w.record.supersededBy = none := by
  rw [h.record]
  rfl

theorem Writes.workshopID (h : Writes now input rev w σ d) : w.record.workshopID = input.workshopID := by
  rw [h.record]
  rfl

theorem Writes.mileageKm (h : Writes now input rev w σ d) : w.record.mileageKm = input.mileageKm := by
  rw [h.record]
  rfl

theorem Writes.original (h : Writes now input rev w σ d) {original : UUID} {rows : List AttachmentRow}
    (hw : w.replaced = some (original, rows)) : ∃ r ids o, rev = some r ∧ original = canonicalID r.recordID ∧
      rows = carriedRows ids w.record.id (d.attachmentsOf original) ∧ d.serviceRecord original = some o ∧
      σ.held (.serviceRecord original) ∧ o.workshopID = r.workshopID ∧ o.supersededBy = none := by
  cases hr : rev with
  | none => rw [h.create hr] at hw; cases hw
  | some r =>
    obtain ⟨⟨o, ho, hk, hws, hs⟩, ids, hids⟩ := h.revise r hr
    rw [hids] at hw
    obtain ⟨rfl, rfl⟩ : canonicalID r.recordID = original ∧ _ = rows := by simpa using hw
    exact ⟨r, ids, o, rfl, rfl, rfl, ho, hk, hws, hs⟩

theorem carriedRows_recordID {ids : Nat → UUID} {id : UUID} {rows : List AttachmentRow} :
    ∀ a ∈ carriedRows ids id rows, a.serviceRecordID = id := by
  intro a ha
  obtain ⟨p, -, rfl⟩ := List.mem_map.mp ha
  rfl

theorem Writes.lawful (h : Writes now input rev w σ d) (hd : Schema d) : Lawful w.changes d := by
  obtain ⟨-, hid, hws⟩ := h.fresh
  obtain ⟨v, hv, -⟩ := h.vehicle
  have hadm : Admissible (w.mechanicChanges.foldl DB.apply d) (.insertServiceRecord w.record) := by
    rw [Written.mechanicChanges, foldl_insertMechanic]
    refine ⟨hid, ⟨v, vehicle_some hv⟩, ?_, h.supersededBy⟩
    rw [h.workshopID]
    exact hws
  have hmech : Lawful w.mechanicChanges d := by
    unfold Written.mechanicChanges
    cases w.mechanic <;> simp [Lawful, Admissible]
  simp only [Written.changes, lawful_append, Lawful]
  refine ⟨⟨⟨hmech, hadm, ?_⟩, ?_⟩, ?_⟩
  · refine lawful_of_record w.record.id _ _ (by simp [Written.operationChanges, needsRecord]) ?_
    rw [serviceRecord_insert]
    simp
  · refine lawful_of_record w.record.id _ _ (by simp [Written.partChanges, needsRecord, Part.row]) ?_
    rw [List.foldl_append, List.foldl_cons, Written.operationChanges, foldl_insertOperation]
    change ((DB.apply _ (.insertServiceRecord w.record)).serviceRecord _).isSome = true
    rw [serviceRecord_insert]
    simp
  · unfold Written.replacedChanges
    split
    · trivial
    · rename_i original rows hw
      obtain ⟨r, ids, o, -, rfl, rfl, ho, -, -, hs⟩ := h.original hw
      have hview : (w.mechanicChanges ++ (.insertServiceRecord w.record :: w.operationChanges) ++ w.partChanges).foldl
          DB.apply d = { d with
            mechanics := d.mechanics ++ w.mechanic.toList
            serviceRecords := d.serviceRecords ++ [w.record]
            operations := d.operations ++ w.operations.map fun t => ⟨w.record.id, t⟩
            parts := d.parts ++ w.parts.map fun p => p.row w.record.id } := by
        simp only [Written.mechanicChanges, Written.operationChanges, Written.partChanges, List.foldl_append,
          List.foldl_cons, foldl_insertMechanic, foldl_insertOperation, foldl_insertPart, DB.apply]
      have hnew : ((d.apply (.insertServiceRecord w.record)).serviceRecord w.record.id).isSome := by
        rw [serviceRecord_insert]
        simp
      rw [hview]
      refine ⟨⟨hnew, fun r' hr' => ?_, fun r' hr' hid' => ?_⟩, ?_⟩
      · rcases List.mem_append.mp hr' with hr' | hr'
        · exact hd.fresh_supersededBy hid r' hr'
        · simp [List.mem_singleton.mp hr', h.supersededBy]
      · rcases List.mem_append.mp hr' with hr' | hr'
        · rw [hd.record_eq hr' (serviceRecord_some ho).1 (hid'.trans (serviceRecord_some ho).2.symm), hs]
        · rw [List.mem_singleton.mp hr', h.supersededBy]
      · refine lawful_of_record w.record.id _ _ ?_ ?_
        · intro c hc
          obtain ⟨a, ha, rfl⟩ := List.mem_map.mp hc
          exact carriedRows_recordID a ha
        · rw [serviceRecord_supersede, Option.isSome_map]
          exact hnew

theorem conflict_update (x : Lockable) : conflict (⟨x, .update⟩ : Key) ⟨x, .update⟩ = true := by
  simp [conflict, LockMode.conflict]

theorem conflict_vehicle {id : UUID} {m m' : LockMode} (hm : m ≠ .keyShare) (hm' : m' ≠ .keyShare) :
    conflict (⟨.vehicle id, m⟩ : Key) ⟨.vehicle id, m'⟩ = true := by
  cases m <;> cases m' <;> simp_all [conflict, LockMode.conflict]

theorem Writes.locked (h : Writes now input rev w σ d) :
    ∀ c ∈ w.changes, ∀ k ∈ c.keys, ∃ k', σ.held k' ∧ conflict k k' = true := by
  intro c hc k hk
  simp only [Written.changes, List.mem_append, List.mem_cons] at hc
  rcases hc with ((hc | rfl | hc) | hc) | hc
  · obtain ⟨m, -, rfl⟩ := List.mem_map.mp hc
    cases hk
  · obtain rfl : k = _ := by simpa [Change.keys] using hk
    exact ⟨_, h.fresh.1, conflict_update _⟩
  · obtain ⟨t, -, rfl⟩ := List.mem_map.mp hc
    cases hk
  · obtain ⟨p, -, rfl⟩ := List.mem_map.mp hc
    cases hk
  · unfold Written.replacedChanges at hc
    split at hc
    · cases hc
    · rename_i original rows hw
      obtain ⟨r, ids, o, -, -, rfl, -, hko, -⟩ := h.original hw
      rcases List.mem_cons.mp hc with rfl | hc
      · obtain rfl : k = _ := by simpa [Change.keys] using hk
        exact ⟨_, hko, conflict_update _⟩
      · obtain ⟨a, ha, rfl⟩ := List.mem_map.mp hc
        obtain rfl : k = _ := by simpa [Change.keys] using hk
        rw [carriedRows_recordID a ha]
        exact ⟨_, h.fresh.1, conflict_update _⟩

end

section
variable {P : Platform} {q : Request} {a : Reply} {σ : SqlLocal} {d : DB}

theorem Done.lawful (h : Done P q a σ d) (hd : Schema d) : Lawful σ.changes d := by
  cases h with
  | create session writes => rw [writes.changes]; exact writes.lawful hd
  | revise session found writes => rw [writes.changes]; exact writes.lawful hd
  | upload session form attaches =>
    obtain ⟨r, hr, -⟩ := attaches.record
    rw [attaches.changes]
    exact ⟨by simp [Admissible, hr], trivial⟩
  | register registers =>
    have htext := registers.text
    simp only [VehicleRow.storable, Bool.and_eq_true] at htext
    rw [registers.changes]
    exact ⟨⟨registers.fresh.1, registers.fresh.2, htext.1.1.1.1⟩, trivial⟩
  | claim session plate suffix claims => rw [claims.changes]; exact ⟨trivial, trivial⟩
  | release session releases => rw [releases.changes]; exact ⟨trivial, trivial⟩

theorem Done.locked (h : Done P q a σ d) :
    ∀ c ∈ σ.changes, ∀ k ∈ c.keys, ∃ k', σ.held k' ∧ conflict k k' = true := by
  cases h with
  | create session writes => rw [writes.changes]; exact writes.locked
  | revise session found writes => rw [writes.changes]; exact writes.locked
  | upload session form attaches =>
    rw [attaches.changes]
    simpa [Change.keys] using ⟨_, attaches.held, conflict_update _⟩
  | register registers =>
    rw [registers.changes]
    obtain ⟨hid, hplate⟩ := registers.held
    simpa [Change.keys, VehicleInput.row] using
      ⟨⟨_, hid, conflict_vehicle (by decide) (by decide)⟩, ⟨_, hid, conflict_vehicle (by decide) (by decide)⟩, ⟨_, hplate, conflict_update _⟩⟩
  | claim session plate suffix claims =>
    rw [claims.changes]
    simpa [Change.keys] using
      ⟨⟨_, claims.held, conflict_vehicle (by decide) (by decide)⟩, ⟨_, claims.held, conflict_vehicle (by decide) (by decide)⟩⟩
  | release session releases =>
    rw [releases.changes]
    simpa [Change.keys] using
      ⟨⟨_, releases.held, conflict_vehicle (by decide) (by decide)⟩, ⟨_, releases.held, conflict_vehicle (by decide) (by decide)⟩⟩

end

/-- Every commit of the server meets `Done`, and leaves alone what others have locked. -/
theorem server_discipline (P : Platform) : Discipline (server P) pg (Done P) where
  start q d _ := wp_serve P q d
  stable _ _ _ _ _ h hr hi := h.stable hr hi
  keep _ _ _ _ h hi := schema_view _ _ hi (h.lawful hi)
  guar _ _ _ _ _ h hi hH := keeps_view _ _ (h.lawful hi) fun c hc k hk => by
    obtain ⟨k', hk', hconflict⟩ := h.locked c hc k hk
    exact hH.not_held hk' hconflict

theorem Done.keeps {P : Platform} {q : Request} {a : Reply} {σ : SqlLocal} {d : DB} (h : Done P q a σ d)
    (hd : Schema d) : Keeps (fun _ => False) d (σ.changes.foldl DB.apply d) :=
  (server_discipline P).guar q a σ d _ h hd nofun

abbrev Commit := Entry Stmt DB Change Request Reply

def serverRun (P : Platform) (init : SoundDB) (es : List ServerEvent) : ServerState :=
  (server P).run (Machine.init init.db) es

theorem serverRun_good (P : Platform) (init : SoundDB) (es : List ServerEvent) :
    Good (server P) pg (Done P) (serverRun P init es) :=
  (good_init init.schema).run (server_discipline P) es

/-! ## A small garage -/

def plain : Platform := ⟨Char.toUpper, id, fun _ _ => true, fun _ => 2026⟩

def uuid (last : String) : UUID := ascii ("00000000-0000-0000-0000-00000000000" ++ last)

def garage : SoundDB where
  db := { owners := [uuid "5"], workshops := [⟨uuid "1", "Oficina A"⟩, ⟨uuid "2", "Oficina B"⟩], mechanics := []
          vehicles := [⟨uuid "3", "ABC1D23", "9C2KC1670ER000001", "Honda", "CG 160", 2024, none⟩]
          serviceRecords := [], operations := [], parts := [], attachments := [] }
  schema := ⟨List.nodup_nil, by simp, by simp, by simp [DB.storable], nofun, nofun, nofun, nofun, nofun, nofun, nofun⟩

def createRequest (workshop : String) (mileageKm : Int) (confirm : Bool) : Request :=
  ⟨some ⟨.workshop, uuid workshop⟩, 0,
    .createServiceRecord ⟨⟨none, [1], mileageKm, none, none, []⟩, "ABC1D23", confirm⟩⟩

end Mototeca
