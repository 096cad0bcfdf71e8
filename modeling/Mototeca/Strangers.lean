import Mathlib.Data.List.Find
import Mototeca.MyVehicles
import Mototeca.Unwinding

/-!
# Who holds a bike stays between the owner and the papers

`Claim` compares the chassi before it looks at the owner, and nothing else answers
with one. Two databases that differ in the owner of one bike look the same to every
caller without its chassi, whatever runs side by side.
-/

namespace Mototeca

open ReadCommitted OrderedQuery

/-! ## The read calls -/

/-- The message `vehiclev1.Vehicle`. -/
structure VehicleMsg where
  id : UUID
  plate : String
  chassi : String
  make : String
  model : String
  year : Int
  deriving DecidableEq

def VehicleRow.msg (v : VehicleRow) : VehicleMsg := ⟨v.id, v.plate, v.chassi, v.make, v.model, int32 v.year⟩

/-- `vehicle.Repository.FindByPlate`. -/
def findByPlate (plate : String) : Sql VehicleError (Option VehicleRow) :=
  if DB.storable plate then Prog.query .vehicleByPlate fun d : DB => d.vehicleByPlate plate
  else .fail (.sql .vehicleByPlate)

/-- `Handler.GetVehicleByPlate`. -/
def getVehicleByPlate (P : Platform) (subject : Option Subject) (plate : String) : Sql Failure VehicleMsg :=
  withSession (requireWorkshopID subject) fun _ =>
    let plate := normalizePlate P plate
    if plate == "" then .fail (.connect .invalidArgument "informe a placa")
    else do
      let found ← (findByPlate plate).mapFail fun _ => .connect .internal "falha ao buscar a moto"
      match found with
      | none => .fail (.connect .notFound "nenhuma moto cadastrada com esta placa")
      | some v => .ret v.msg

inductive ReadCall where
  | getServiceRecord (id : Bytes)
  | listServiceRecordsByPlate (req : ListServiceRecordsByPlateRequest)
  | getVehicleByPlate (subject : Option Subject) (plate : String)
  | listMyVehicles (subject : Option Subject)

inductive ReadReply where
  | record (record : ServiceRecord)
  | history (page : VehicleSummary × List ServiceRecord)
  | vehicle (v : VehicleMsg)
  | vehicles (vs : List OwnedVehicleMsg)

def ReadCall.body {P : Platform} (server : OwnerServer P) : ReadCall → Sql Failure ReadReply
  | .getServiceRecord id => (Mototeca.getServiceRecord server.toReadServer id).bind fun r => .ret (.record r)
  | .listServiceRecordsByPlate req =>
    (Mototeca.listServiceRecordsByPlate server.toReadServer req).bind fun page => .ret (.history page)
  | .getVehicleByPlate subject plate => (Mototeca.getVehicleByPlate P subject plate).bind fun v => .ret (.vehicle v)
  | .listMyVehicles subject => (Mototeca.listMyVehicles server subject).bind fun vs => .ret (.vehicles vs)

/-- What the server answers to a query comes from the rows that the query matches. -/
structure OwnerServer.FromRows {P : Platform} (server : OwnerServer P) : Prop where
  operations : ∀ ids d d', d.operations = d'.operations → server.operations ids d = server.operations ids d'
  parts : ∀ ids d d', d.parts = d'.parts → server.parts ids d = server.parts ids d'
  attachments : ∀ ids d d', d.attachments = d'.attachments → server.attachments ids d = server.attachments ids d'
  newest : ∀ where_ d d', d.serviceRecords = d'.serviceRecords → server.newest where_ d = server.newest where_ d'
  heldBy : ∀ ownerID d d', d.vehicles.filter (fun v => v.currentOwnerID == some ownerID) =
    d'.vehicles.filter (fun v => v.currentOwnerID == some ownerID) → server.heldBy ownerID d = server.heldBy ownerID d'

/-! ## Two owners of one bike -/

def DB.handedTo (d : DB) (b : VehicleRow) (owner : Option UUID) : DB := d.apply (.setCurrentOwner b.id owner)

/-- `d` has the bike with `owner`, and `d'` differs from it in the owner `owner'` alone. -/
structure Veiled (b : VehicleRow) (owner owner' : Option UUID) (d d' : DB) : Prop where
  apart : d' = d.handedTo b owner'
  bike : ∀ v ∈ d.vehicles, v.id = b.id ∨ v.plate = b.plate → v = { b with currentOwnerID := owner }
  registered : { b with currentOwnerID := owner } ∈ d.vehicles

/-- A change to anything but the bike. -/
def Harmless (b : VehicleRow) : Change → Prop
  | .insertVehicle v => v.id ≠ b.id ∧ v.plate ≠ b.plate
  | .setCurrentOwner id _ => id ≠ b.id
  | _ => True

section
variable {b : VehicleRow} {owner owner' : Option UUID} {d d' : DB}

theorem veiled_init (hd : Schema d) (hb : b ∈ d.vehicles) (owner owner' : Option UUID) :
    Veiled b owner owner' (d.handedTo b owner) (d.handedTo b owner') := by
  have hset : setOwner b.id owner b = { b with currentOwnerID := owner } := if_pos rfl
  refine ⟨?_, fun v hv hid => ?_, hset ▸ mem_setOwner hb⟩
  · simp only [DB.handedTo, apply_setCurrentOwner, List.map_map, DB.mk.injEq, true_and, and_true]
    refine List.map_congr_left fun v _ => ?_
    by_cases h : v.id = b.id <;> simp [setOwner, h]
  · obtain ⟨u, hu, rfl⟩ := List.mem_map.mp hv
    have hub : u = b := by
      rcases hid with hid | hid
      · exact hd.vehicle_eq hu hb ((setOwner_id b.id owner u).symm.trans hid)
      · exact hd.vehicle_eq_of_plate hu hb ((setOwner_plate b.id owner u).symm.trans hid)
    rw [hub]
    exact hset

theorem Veiled.apply (h : Veiled b owner owner' d d') {c : Change} (hc : Harmless b c) :
    Veiled b owner owner' (d.apply c) (d'.apply c) := by
  obtain ⟨rfl, hbike, hreg⟩ := h
  cases c with
  | insertVehicle v =>
    refine ⟨?_, fun u hu hid => ?_, List.mem_append_left _ hreg⟩
    · simp [DB.handedTo, DB.apply, hc.1]
    · rcases List.mem_append.mp hu with hu | hu
      · exact hbike u hu hid
      · obtain rfl := List.mem_singleton.mp hu
        exact (hid.elim hc.1 hc.2).elim
  | setCurrentOwner id o =>
    have hcomm : ∀ v : VehicleRow, setOwner id o (setOwner b.id owner' v) = setOwner b.id owner' (setOwner id o v) := by
      intro v
      by_cases h₁ : v.id = b.id
      · have h₂ : v.id ≠ id := fun e => hc (e.symm.trans h₁)
        simp [setOwner, h₁, h₁ ▸ h₂]
      · have h₃ : ¬ (setOwner id o v).id = b.id := by simpa using h₁
        exact (congrArg (setOwner id o) (if_neg h₁)).trans (if_neg h₃).symm
    have hfix : ∀ v : VehicleRow, v.id = b.id → setOwner id o v = v := fun v hv => if_neg fun e => hc (e.symm.trans hv)
    refine ⟨?_, fun u hu hid => ?_, ?_⟩
    · simp only [DB.handedTo, apply_setCurrentOwner, List.map_map, DB.mk.injEq, true_and, and_true]
      exact List.map_congr_left fun v _ => hcomm v
    · obtain ⟨v, hv, rfl⟩ := List.mem_map.mp hu
      have hv' := hbike v hv (hid.imp (setOwner_id id o v).symm.trans (setOwner_plate id o v).symm.trans)
      have hvid : v.id = b.id := by rw [hv']
      exact (hfix v hvid).trans hv'
    · exact List.mem_map.mpr ⟨_, hreg, hfix _ rfl⟩
  | _ => exact ⟨rfl, hbike, hreg⟩

/-- The two hold the same rows, but for the owner of the bike. -/
theorem Veiled.vehicle (h : Veiled b owner owner' d d') (id : UUID) :
    d'.vehicle id = (d.vehicle id).map (setOwner b.id owner') := by
  rw [h.apart, DB.handedTo, vehicle_setOwner]

theorem Veiled.vehicleByPlate (h : Veiled b owner owner' d d') (plate : String) :
    d'.vehicleByPlate plate = (d.vehicleByPlate plate).map (setOwner b.id owner') := by
  rw [h.apart, DB.handedTo, vehicleByPlate_setOwner]

theorem Veiled.other (h : Veiled b owner owner' d d') {plate : String} (hp : plate ≠ b.plate) {v : VehicleRow}
    (hv : d.vehicleByPlate plate = some v) : v.id ≠ b.id := by
  obtain ⟨hm, hvp⟩ := vehicleByPlate_some hv
  intro hid
  rw [h.bike v hm (Or.inl hid)] at hvp
  exact hp hvp.symm

theorem Veiled.selectRecords (h : Veiled b owner owner' d d') (rows : List ServiceRecordRow) :
    d'.selectRecords rows = d.selectRecords rows := by
  induction rows with
  | nil => rfl
  | cons sr rows ih =>
    have hpred : d'.predecessor sr.id = d.predecessor sr.id := by rw [h.apart]; rfl
    have hshop : d'.workshops = d.workshops := by rw [h.apart]; rfl
    have hmech : d'.mechanics = d.mechanics := by rw [h.apart]; rfl
    simp only [DB.selectRecords, ih, hpred, hshop, hmech, h.vehicle]
    cases d.vehicle sr.vehicleID with
    | none => rfl
    | some v =>
      obtain ⟨o, ho⟩ : ∃ o, setOwner b.id owner' v = { v with currentOwnerID := o } := setOwner_eq _ _ _
      simp only [Option.map_some, ho]
      cases d.workshops.find? (·.id == sr.workshopID) <;> rfl

theorem Veiled.rest (h : Veiled b owner owner' d d') : ∃ vs, d' = { d with vehicles := vs } := ⟨_, h.apart⟩

end

/-! ## Bodies -/

section
variable {E α : Type} {b : VehicleRow} {owner owner' : Option UUID}

/-- The body does the same whoever has the bike, and does nothing to it. -/
abbrev Blind (b : VehicleRow) (owner owner' : Option UUID) (p : Sql E α) : Prop :=
  p.Alike (Veiled b owner owner') (Harmless b) Eq p

theorem blind_ret (a : α) : Blind b owner owner' (.ret a : Sql E α) := alike_ret rfl

theorem blind_query {name : Stmt} {f : DB → α} (hf : ∀ d vs, f { d with vehicles := vs } = f d) :
    Blind b owner owner' (Prog.query name f : Sql E α) := by
  refine alike_query fun d d' h => ?_
  obtain ⟨vs, rfl⟩ := h.rest
  exact (hf d vs).symm

theorem blind_queryForUpdate {name : Stmt} {keys : DB → List Key} {f : DB → α}
    (hkeys : ∀ d vs, keys { d with vehicles := vs } = keys d) (hf : ∀ d vs, f { d with vehicles := vs } = f d) :
    Blind b owner owner' (Prog.queryForUpdate name keys f : Sql E α) := by
  refine alike_queryForUpdate (fun d d' h => ?_) fun d d' h => ?_
  · obtain ⟨vs, rfl⟩ := h.rest
    exact (hkeys d vs).symm
  · obtain ⟨vs, rfl⟩ := h.rest
    exact (hf d vs).symm

theorem blind_write {name : Stmt} {err : E} {keys : (Nat → UUID) → DB → List Key} {ok : (Nat → UUID) → DB → Bool}
    {changes : (Nat → UUID) → DB → List Change} {result : (Nat → UUID) → α}
    (hkeys : ∀ o d vs, keys o { d with vehicles := vs } = keys o d)
    (hok : ∀ o d vs, ok o { d with vehicles := vs } = ok o d)
    (hchanges : ∀ o d vs, changes o { d with vehicles := vs } = changes o d)
    (hsafe : ∀ o d, ∀ c ∈ changes o d, Harmless b c) :
    Blind b owner owner' (Prog.write name err keys ok changes result : Sql E α) := by
  refine alike_write (fun o d d' h => ?_) (fun o d d' h => ?_) (fun o d d' h => ?_) hsafe
  · obtain ⟨vs, rfl⟩ := h.rest
    exact (hkeys o d vs).symm
  · obtain ⟨vs, rfl⟩ := h.rest
    exact (hok o d vs).symm
  · obtain ⟨vs, rfl⟩ := h.rest
    exact (hchanges o d vs).symm

theorem blind_eachRow {β : Type} (target : β → UUID × (ServiceRecord → ServiceRecord)) (rows : List β) :
    ∀ records, Blind b owner owner' (eachRow target rows records) := by
  induction rows with
  | nil => exact fun records => blind_ret records
  | cons row rows ih =>
    intro records
    simp only [eachRow]
    cases updateIndexed (target row).1 (target row).2 records with
    | none => exact alike_fail
    | some records' => exact ih records'

theorem blind_selectRecords (where_ : ServiceRecordRow → Bool) : Blind b owner owner' (selectRecords where_) := by
  refine alike_read fun _ d d' h => ?_
  have hrows : d'.serviceRecords = d.serviceRecords := by
    obtain ⟨vs, rfl⟩ := h.rest
    rfl
  rw [h.selectRecords, hrows]
  cases d.selectRecords (d.serviceRecords.filter where_) with
  | none => exact alike_fail
  | some records => exact alike_ret rfl

theorem blind_hydrate (P : Platform) (records : List ServiceRecord) : Blind b owner owner' (hydrate P records) := by
  unfold hydrate
  split
  · exact blind_ret _
  · refine (blind_query fun _ _ => rfl).andThen fun opRows => (blind_eachRow ..).andThen fun records₁ => ?_
    refine (blind_query fun _ _ => rfl).andThen fun partRows => (blind_eachRow ..).andThen fun records₂ => ?_
    exact (blind_query fun _ _ => rfl).andThen fun attachmentRows => blind_eachRow ..

theorem blind_findByID (P : Platform) (id : Bytes) : Blind b owner owner' (findByID P id) := by
  unfold findByID
  split
  · exact blind_ret _
  · refine (blind_selectRecords _).andThen fun records => ?_
    split
    · exact blind_ret _
    · exact (blind_hydrate P records).andThen fun records' => blind_ret _

theorem blind_checkRevisable (rev : Revision) : Blind b owner owner' (checkRevisable rev) := by
  unfold checkRevisable
  split
  · exact alike_fail
  · refine (blind_queryForUpdate (fun _ _ => rfl) fun _ _ => rfl).andThen fun found => ?_
    cases found with
    | none => exact alike_fail
    | some r =>
      dsimp only
      split
      · exact alike_fail
      · split
        · exact alike_fail
        · exact blind_ret _

theorem blind_odometer (input : CreateInput) (rev : Option Revision) (vehicleID : UUID) :
    Blind b owner owner' (odometer input rev vehicleID) := by
  unfold odometer
  split
  · refine (blind_query fun _ _ => rfl).andThen fun highest => ?_
    cases highest with
    | none => exact blind_ret _
    | some m =>
      dsimp only
      split
      · exact alike_fail
      · exact blind_ret _
  · exact blind_ret _

theorem blind_upsertMechanic (P : Platform) (workshopID : UUID) (name : Option String) :
    Blind b owner owner' (upsertMechanic P workshopID name) := by
  cases name with
  | none => exact blind_ret _
  | some name =>
    simp only [upsertMechanic]
    split
    · exact blind_ret _
    · split
      · exact alike_fail
      · refine (blind_query fun _ _ => rfl).andThen fun found => ?_
        cases found with
        | some m => exact blind_ret _
        | none =>
          refine blind_write (fun _ _ _ => rfl) (fun _ _ _ => rfl) (fun _ _ _ => rfl) fun o d c hc => ?_
          rw [List.mem_singleton.mp hc]
          trivial

theorem blind_insertServiceRecord (input : CreateInput) (now : Time) (vehicleID : UUID) (mechanicID : Option UUID) :
    Blind b owner owner' (insertServiceRecord input now vehicleID mechanicID) := by
  refine alike_write (fun _ _ _ _ => rfl) (fun o d d' h => ?_) (fun _ _ _ _ => rfl) fun o d c hc => ?_
  · have hvehicle : (d'.vehicle vehicleID).isSome = (d.vehicle vehicleID).isSome := by
      rw [h.vehicle, Option.isSome_map]
    obtain ⟨vs, rfl⟩ := h.rest
    simp only [DB.acceptsServiceRecord, CreateInput.row, hvehicle]
    rfl
  · rw [List.mem_singleton.mp hc]
    trivial

theorem blind_insertOperations (recordID : UUID) (ops : List Operation) :
    Blind b owner owner' (insertOperations recordID ops) := by
  induction ops with
  | nil => exact blind_ret _
  | cons op ops ih =>
    simp only [insertOperations]
    cases ServiceType.parse op.raw with
    | none =>
      exact blind_write (fun _ _ _ => rfl) (fun _ _ _ => rfl) (fun _ _ _ => rfl) fun _ _ _ hc =>
        absurd hc List.not_mem_nil
    | some t =>
      refine Prog.Alike.andThen (blind_write (fun _ _ _ => rfl) (fun _ _ _ => rfl) (fun _ _ _ => rfl)
        fun o d c hc => ?_) fun _ => ih
      rw [List.mem_singleton.mp hc]
      trivial

theorem blind_insertParts (recordID : UUID) (parts : List Part) :
    Blind b owner owner' (insertParts recordID parts) := by
  induction parts with
  | nil => exact blind_ret _
  | cons part parts ih =>
    refine Prog.Alike.andThen (blind_write (fun _ _ _ => rfl) (fun _ _ _ => rfl) (fun _ _ _ => rfl)
      fun o d c hc => ?_) fun _ => ih
    rw [List.mem_singleton.mp hc]
    trivial

theorem blind_replaceOriginal (rev : Option Revision) (recordID : UUID) :
    Blind b owner owner' (replaceOriginal rev recordID) := by
  cases rev with
  | none => exact blind_ret _
  | some r =>
    refine Prog.Alike.andThen (blind_write (fun _ _ _ => rfl) (fun _ _ _ => rfl) (fun _ _ _ => rfl)
      fun o d c hc => ?_) fun _ => ?_
    · rw [List.mem_singleton.mp hc]
      trivial
    · refine blind_write (fun _ _ _ => rfl) (fun _ _ _ => rfl) (fun _ _ _ => rfl) fun o d c hc => ?_
      obtain ⟨a, -, rfl⟩ := List.mem_map.mp hc
      trivial

/-- The row found by its plate. -/
abbrev SameBut (b : VehicleRow) (owner' : Option UUID) (v v' : Option VehicleRow) : Prop :=
  v' = v.map (setOwner b.id owner')

theorem alike_byPlate (plate : String) {e : E} :
    (if DB.storable plate then Prog.query .vehicleByPlate fun d : DB => d.vehicleByPlate plate
      else .fail e : Sql E (Option VehicleRow)).Alike (Veiled b owner owner') (Harmless b) (SameBut b owner')
    (if DB.storable plate then Prog.query .vehicleByPlate fun d : DB => d.vehicleByPlate plate else .fail e) := by
  split
  · exact alike_query fun d d' h => h.vehicleByPlate plate
  · exact alike_fail

/-- A body that goes on with all but the owner of the row it found by the plate. -/
theorem blind_found {p : Sql E (Option VehicleRow)} {k : Option VehicleRow → Sql E α}
    (hp : p.Alike (Veiled b owner owner') (Harmless b) (SameBut b owner') p)
    (hnone : Blind b owner owner' (k none))
    (hsome : ∀ v o, (k (some v)).Alike (Veiled b owner owner') (Harmless b) Eq
      (k (some { v with currentOwnerID := o }))) :
    Blind b owner owner' (p.bind k) := by
  refine Prog.Alike.bind (fun v v' hv => ?_) hp
  rw [hv]
  cases v with
  | none => exact hnone
  | some v =>
    obtain ⟨o, ho⟩ : ∃ o, setOwner b.id owner' v = { v with currentOwnerID := o } := setOwner_eq _ _ _
    rw [Option.map_some, ho]
    exact hsome v o

theorem blind_write_record (P : Platform) (now : Time) (input : CreateInput) (rev : Option Revision) :
    Blind b owner owner' (write P now input rev) := by
  rw [write_eq]
  have hrevisable : Blind b owner owner' (revisable rev) := by
    cases rev with
    | none => exact blind_ret _
    | some r => exact blind_checkRevisable r
  -- Of the bike's row the body goes on with the id alone.
  refine hrevisable.andThen fun _ => blind_found (alike_byPlate _) alike_fail fun v o => ?_
  refine (blind_odometer ..).andThen fun _ => (blind_upsertMechanic ..).andThen fun mechanicID => ?_
  refine (blind_insertServiceRecord ..).andThen fun recordID => (blind_insertOperations ..).andThen fun _ => ?_
  exact (blind_insertParts ..).andThen fun _ => (blind_replaceOriginal ..).andThen fun _ => blind_ret _

theorem blind_addAttachment (now : Time) (workshopID recordID : Bytes) (a : Attachment) :
    Blind b owner owner' (addAttachment now workshopID recordID a) := by
  unfold addAttachment
  split
  · exact alike_fail
  · refine (blind_queryForUpdate (fun _ _ => rfl) fun _ _ => rfl).andThen fun found => ?_
    cases found with
    | none => exact alike_fail
    | some r =>
      dsimp only
      split
      · exact alike_fail
      · refine (blind_query fun _ _ => rfl).andThen fun count => ?_
        split
        · exact alike_fail
        · refine blind_write (fun _ _ _ => rfl) (fun _ _ _ => rfl) (fun _ _ _ => rfl) fun o d c hc => ?_
          rw [List.mem_singleton.mp hc]
          trivial

theorem blind_createVehicle (P : Platform) (input : VehicleInput) : Blind b owner owner' (createVehicle P input) := by
  refine alike_stmt fun o d d' h => ?_
  have hconflict : d'.vehicleConflict (input.row P (o 0)) = d.vehicleConflict (input.row P (o 0)) := by
    have hchassi : d'.vehicles.any (fun v => v.chassi == (input.row P (o 0)).chassi) =
        d.vehicles.any fun v => v.chassi == (input.row P (o 0)).chassi := by
      rw [h.apart, DB.handedTo, apply_setCurrentOwner, List.any_map]
      simp [Function.comp_def]
    have hid : (d'.vehicle (input.row P (o 0)).id).isSome = (d.vehicle (input.row P (o 0)).id).isSome := by
      rw [h.vehicle, Option.isSome_map]
    have hplate : (d'.vehicleByPlate (input.row P (o 0)).plate).isSome =
        (d.vehicleByPlate (input.row P (o 0)).plate).isSome := by
      rw [h.vehicleByPlate, Option.isSome_map]
    unfold DB.vehicleConflict
    rw [hid, hplate, hchassi]
  rw [hconflict]
  refine ⟨rfl, rfl, fun c hc => ?_, ?_⟩
  · cases hnone : d.vehicleConflict (input.row P (o 0)) with
    | some e => simp [hnone] at hc
    | none =>
      obtain rfl : c = .insertVehicle (input.row P (o 0)) := by simpa [hnone] using hc
      -- The unique indexes have the bike's id and plate already.
      obtain ⟨-, hid, hplate, -⟩ := vehicleConflict_none.mp hnone
      refine ⟨fun h' => vehicle_none.mp hid _ h.registered h'.symm, fun h' => ?_⟩
      exact vehicleByPlate_none.mp hplate _ h.registered h'.symm
  · cases d.vehicleConflict (input.row P (o 0)) with
    | none => exact alike_ret rfl
    | some e => exact alike_fail

/-- A claim of another bike, or one without the chassi. -/
theorem blind_claim {ownerID : UUID} {plate suffix : String}
    (hpapers : plate = b.plate → suffix.toList.isSuffixOf b.chassi.toList = false) :
    Blind b owner owner' (claim ownerID plate suffix) := by
  unfold claim lockClaimed
  by_cases htext : DB.storable plate = true
  case neg =>
    rw [if_neg htext]
    exact alike_fail
  rw [if_pos htext]
  by_cases hplate : plate = b.plate
  · refine Prog.Alike.bind (T := fun v v' => (∀ u, v = some u → u.chassi = b.chassi) ∧
      (∀ u, v' = some u → u.chassi = b.chassi) ∧ v.isSome = v'.isSome) (fun v v' hv => ?_)
      (alike_queryForUpdate (fun d d' h => ?_) fun d d' h => ?_)
    · obtain ⟨hv, hv', hsome⟩ := hv
      cases v with
      | none => cases v' with
        | none => exact alike_fail
        | some v' => cases hsome
      | some v => cases v' with
        | none => cases hsome
        | some v' =>
          dsimp only
          rw [hv v rfl, hv' v' rfl, hpapers hplate, Bool.not_false, if_pos rfl, if_pos rfl]
          exact alike_fail
    · rw [h.vehicleByPlate, Option.map_map]
      simp [Function.comp_def]
    · have hfound : ∀ u, d.vehicleByPlate plate = some u → u.chassi = b.chassi := by
        intro u hu
        obtain ⟨hm, hp⟩ := vehicleByPlate_some hu
        rw [h.bike u hm (Or.inr (hp.trans hplate))]
      refine ⟨hfound, fun u hu => ?_, by rw [h.vehicleByPlate, Option.isSome_map]⟩
      rw [h.vehicleByPlate] at hu
      obtain ⟨v, hv, rfl⟩ := Option.map_eq_some_iff.mp hu
      rw [setOwner_chassi]
      exact hfound v hv
  · refine Prog.Alike.bind (T := fun v v' => v = v' ∧ ∀ u, v = some u → u.id ≠ b.id) (fun v v' hv => ?_)
      (alike_queryForUpdate (fun d d' h => ?_) fun d d' h => ?_)
    · obtain ⟨rfl, hother⟩ := hv
      cases v with
      | none => exact alike_fail
      | some v =>
        dsimp only
        split
        · exact alike_fail
        · split
          · exact alike_fail
          · refine Prog.Alike.andThen (blind_write (fun _ _ _ => rfl) (fun _ _ _ => rfl) (fun _ _ _ => rfl)
              fun o d c hc => ?_) fun _ => ?_
            · rw [List.mem_singleton.mp hc]
              exact hother v rfl
            · refine Prog.Alike.andThen (alike_query fun d d' h => ?_) fun owned => ?_
              · rw [h.vehicle, Option.map_map]
                cases d.vehicle v.id with
                | none => rfl
                | some u =>
                  obtain ⟨o, ho⟩ : ∃ o, setOwner b.id owner' u = { u with currentOwnerID := o } := setOwner_eq _ _ _
                  obtain ⟨vs, rfl⟩ := h.rest
                  simp only [Option.map_some, Function.comp_apply, ho]
                  rfl
              · cases owned with
                | none => exact alike_fail
                | some o => exact blind_ret _
    · rw [h.vehicleByPlate, Option.map_map]
      simp [Function.comp_def]
    · refine ⟨?_, fun u hu => h.other hplate hu⟩
      rw [h.vehicleByPlate]
      cases hfound : d.vehicleByPlate plate with
      | none => rfl
      | some v => exact congrArg some (if_neg (h.other hplate hfound)).symm

theorem Veiled.heldByPlate {d d' : DB} (h : Veiled b owner owner' d d') {plate : String} {ownerID : UUID}
    (hstranger : plate = b.plate → owner ≠ some ownerID ∧ owner' ≠ some ownerID) :
    d'.heldByPlate plate ownerID = d.heldByPlate plate ownerID ∧
      ∀ v, d.heldByPlate plate ownerID = some v → v.id ≠ b.id := by
  have hmatch : ∀ v ∈ d.vehicles, v.id = b.id → (v.plate == plate && v.currentOwnerID == some ownerID) = false ∧
      ((setOwner b.id owner' v).plate == plate && (setOwner b.id owner' v).currentOwnerID == some ownerID) = false := by
    intro v hv hid
    have hplate : v.plate = b.plate := by rw [h.bike v hv (Or.inl hid)]
    have howner : v.currentOwnerID = owner := by rw [h.bike v hv (Or.inl hid)]
    by_cases hp : plate = b.plate
    · have hset : (setOwner b.id owner' v).currentOwnerID = owner' := by simp [setOwner, hid]
      simp [howner, hset, (hstranger hp).1, (hstranger hp).2]
    · simp [hplate, Ne.symm hp]
  refine ⟨?_, fun v hv hid => ?_⟩
  · rw [h.apart, DB.handedTo, apply_setCurrentOwner, DB.heldByPlate, DB.heldByPlate, List.find?_map]
    have hsame : ∀ v ∈ d.vehicles,
        ((fun v : VehicleRow => v.plate == plate && v.currentOwnerID == some ownerID) ∘ setOwner b.id owner') v =
          (v.plate == plate && v.currentOwnerID == some ownerID) := by
      intro v hv
      by_cases hid : v.id = b.id
      · exact (hmatch v hv hid).2.trans (hmatch v hv hid).1.symm
      · simp [setOwner, hid]
    rw [List.find?_congr hsame]
    cases hfound : d.vehicles.find? fun v => v.plate == plate && v.currentOwnerID == some ownerID with
    | none => rfl
    | some v =>
      have hp := List.find?_some hfound
      have hne : v.id ≠ b.id := fun hid => by
        rw [(hmatch v (List.mem_of_find?_eq_some hfound) hid).1] at hp
        cases hp
      exact congrArg some (if_neg hne)
  · have hm := List.mem_of_find?_eq_some hv
    have hp := List.find?_some hv
    rw [(hmatch v hm hid).1] at hp
    cases hp

theorem blind_release {ownerID : UUID} {plate : String}
    (hstranger : plate = b.plate → owner ≠ some ownerID ∧ owner' ≠ some ownerID) :
    Blind b owner owner' (release ownerID plate) := by
  unfold release
  split
  case isFalse => exact alike_fail
  refine alike_stmt fun o d d' h => ?_
  obtain ⟨hsame, hother⟩ := h.heldByPlate hstranger
  rw [hsame]
  refine ⟨rfl, rfl, fun c hc => ?_, ?_⟩
  · cases hheld : d.heldByPlate plate ownerID with
    | none => simp [hheld] at hc
    | some v =>
      obtain rfl : c = .setCurrentOwner v.id none := by simpa [hheld] using hc
      exact hother v hheld
  · split
    · exact alike_ret rfl
    · exact alike_fail

/-! ## Calls -/

/-- A call by someone without the bike: a claim of it lacks the chassi, and a release of
it is by neither of the owners. -/
def Stranger (P : Platform) (b : VehicleRow) (owner owner' : Option UUID) (q : Request) : Prop :=
  match q.call with
  | .claimVehicle req => normalizePlate P req.plate = b.plate →
      ¬ (normalizeChassiSuffix P req.chassiSuffix).toList <:+ b.chassi.toList
  | .releaseVehicle plate => normalizePlate P plate = b.plate → ∀ id, requireOwnerID q.subject = .ok id →
      owner ≠ some id ∧ owner' ≠ some id
  | _ => True

/-- A list of bikes asked for by neither of the owners. -/
def ReadCall.Stranger (owner owner' : Option UUID) : ReadCall → Prop
  | .listMyVehicles subject => ∀ id, requireOwnerID subject = .ok id → owner ≠ some id ∧ owner' ≠ some id
  | _ => True

theorem blind_withSession {α : Type} {β : Type} {session : Except Failure α} {k : α → Sql Failure β}
    (h : ∀ a, session = .ok a → Blind b owner owner' (k a)) : Blind b owner owner' (withSession session k) := by
  cases session with
  | error e => exact alike_fail
  | ok a => exact h a rfl

theorem blind_reply {α β : Type} {p : Sql Failure α} {f : α → β} (h : Blind b owner owner' p) :
    Blind b owner owner' (p.bind fun a => .ret (f a)) :=
  h.andThen fun _ => blind_ret _

theorem blind_serve (P : Platform) {q : Request} (h : Stranger P b owner owner' q) :
    Blind b owner owner' (serve P q) := by
  obtain ⟨subject, now, call⟩ := q
  unfold serve
  cases call with
  | createServiceRecord req =>
    refine blind_withSession fun id _ => blind_reply ?_
    unfold createServiceRecord
    dsimp only
    split
    · exact alike_fail
    · exact (blind_write_record ..).mapFail _
  | reviseServiceRecord req =>
    refine blind_withSession fun id _ => blind_reply ?_
    unfold reviseServiceRecord
    split
    · exact alike_fail
    · refine ((blind_findByID P req.recordID).mapFail _).andThen fun found => ?_
      cases found with
      | none => exact alike_fail
      | some original =>
        dsimp only
        split
        · exact alike_fail
        · exact (blind_write_record ..).mapFail _
  | upload req =>
    refine blind_withSession fun id _ => blind_reply ?_
    unfold upload
    refine ((blind_findByID P req.pathID).mapFail _).andThen fun found => ?_
    cases found with
    | none => exact alike_fail
    | some record =>
      dsimp only
      split
      · exact alike_fail
      · split
        · exact alike_fail
        · exact (blind_addAttachment ..).mapFail _
  | createVehicle req =>
    refine blind_withSession fun _ _ => blind_reply ?_
    unfold registerVehicle
    dsimp only
    split
    · exact alike_fail
    · exact (blind_createVehicle ..).mapFail _
  | claimVehicle req =>
    refine blind_withSession fun id _ => blind_reply ?_
    have hpapers : normalizePlate P req.plate = b.plate → ¬ (normalizeChassiSuffix P req.chassiSuffix).toList <:+
        b.chassi.toList := h
    unfold claimVehicle
    dsimp only
    generalize normalizePlate P req.plate = plate at hpapers ⊢
    generalize normalizeChassiSuffix P req.chassiSuffix = suffix at hpapers ⊢
    split
    · exact alike_fail
    · split
      · exact alike_fail
      · refine (blind_claim fun hp => ?_).mapFail _
        rw [← Bool.not_eq_true, List.isSuffixOf_iff_suffix]
        exact hpapers hp
  | releaseVehicle plate =>
    refine blind_withSession fun id hsession => blind_reply ?_
    have hstranger : normalizePlate P plate = b.plate → ∀ id, requireOwnerID subject = .ok id →
        owner ≠ some id ∧ owner' ≠ some id := h
    unfold releaseVehicle
    dsimp only
    generalize normalizePlate P plate = plate at hstranger ⊢
    split
    · exact alike_fail
    · exact (blind_release fun hp => hstranger hp id hsession).mapFail _

theorem blind_hydrateBy {P : Platform} {server : OwnerServer P} (hserver : server.FromRows)
    (records : List ServiceRecord) : Blind b owner owner' (hydrateBy server.toHydrateServer records) := by
  unfold hydrateBy
  split
  · exact blind_ret _
  · refine (blind_query fun d vs => hserver.operations _ _ d rfl).andThen fun opRows =>
      (blind_eachRow ..).andThen fun records₁ => ?_
    refine (blind_query fun d vs => hserver.parts _ _ d rfl).andThen fun partRows =>
      (blind_eachRow ..).andThen fun records₂ => ?_
    exact (blind_query fun d vs => hserver.attachments _ _ d rfl).andThen fun attachmentRows => blind_eachRow ..

theorem blind_findByIDBy {P : Platform} {server : OwnerServer P} (hserver : server.FromRows) (id : Bytes) :
    Blind b owner owner' (findByIDBy server.toReadServer id) := by
  unfold findByIDBy
  split
  · exact blind_ret _
  · refine (blind_selectRecords _).andThen fun records => ?_
    split
    · exact blind_ret _
    · exact (blind_hydrateBy hserver records).andThen fun records' => blind_ret _

theorem blind_selectNewest {P : Platform} {server : OwnerServer P} (hserver : server.FromRows)
    (where_ : ServiceRecordRow → Bool) (limit : Nat) :
    Blind b owner owner' (selectNewest server.toReadServer where_ limit) := by
  refine alike_read fun _ d d' h => ?_
  have hjoins : (fun r => where_ r && d'.joins r) = fun r => where_ r && d.joins r := by
    funext r
    have hshop : d'.hasWorkshop r.workshopID = d.hasWorkshop r.workshopID := by
      obtain ⟨vs, rfl⟩ := h.rest
      rfl
    rw [DB.joins, DB.joins, h.vehicle, Option.isSome_map, hshop]
  have hrows : d'.serviceRecords = d.serviceRecords := by
    obtain ⟨vs, rfl⟩ := h.rest
    rfl
  rw [hjoins, hserver.newest _ d' d hrows, h.selectRecords]
  cases d.selectRecords ((server.newest (fun r => where_ r && d.joins r) d).take limit) with
  | none => exact alike_fail
  | some records => exact alike_ret rfl

theorem filter_map_setOwner {ownerID : UUID} {vs : List VehicleRow}
    (h : ∀ v ∈ vs, v.id = b.id → v.currentOwnerID ≠ some ownerID ∧ owner' ≠ some ownerID) :
    (vs.map (setOwner b.id owner')).filter (fun v => v.currentOwnerID == some ownerID) =
      vs.filter fun v => v.currentOwnerID == some ownerID := by
  induction vs with
  | nil => rfl
  | cons v vs ih =>
    rw [List.map_cons, List.filter_cons, List.filter_cons, ih fun u hu => h u (List.mem_cons_of_mem _ hu)]
    by_cases hid : v.id = b.id
    · obtain ⟨hne, hne'⟩ := h v List.mem_cons_self hid
      simp [setOwner, hid, hne, hne']
    · simp [setOwner, hid]

theorem blind_listMyVehicles {P : Platform} {server : OwnerServer P} (hserver : server.FromRows)
    {subject : Option Subject} (h : (ReadCall.listMyVehicles subject).Stranger owner owner') :
    Blind b owner owner' (listMyVehicles server subject) := by
  refine blind_withSession fun ownerID hsession => ?_
  obtain ⟨hne, hne'⟩ := h ownerID hsession
  have hconvert : ∀ owned, Blind b owner owner' (ownedToProtos server owned) := by
    intro owned
    induction owned with
    | nil => exact blind_ret _
    | cons v owned ih =>
      refine Prog.Alike.andThen ?_ fun m => ih.andThen fun ms => blind_ret _
      unfold ownedToProtoBy
      cases v.lastServiceID with
      | none => exact blind_ret _
      | some id => exact ((blind_findByIDBy hserver id).mapFail _).andThen fun record => blind_ret _
  refine Prog.Alike.andThen (alike_query fun d d' hd => ?_) fun owned => hconvert owned
  have hheld : d'.vehicles.filter (fun v => v.currentOwnerID == some ownerID) =
      d.vehicles.filter fun v => v.currentOwnerID == some ownerID := by
    rw [hd.apart, DB.handedTo, apply_setCurrentOwner]
    refine filter_map_setOwner fun v hv hid => ?_
    have hv' := hd.bike v hv (Or.inl hid)
    simp [hv', hne, hne']
  have howned : ownedVehicleBy server d' = ownedVehicleBy server d := by
    funext v
    obtain ⟨vs, rfl⟩ := hd.rest
    simp only [ownedVehicleBy]
    rw [hserver.newest _ { d with vehicles := vs } d rfl]
    rfl
  rw [hserver.heldBy ownerID d' d hheld, howned]

theorem blind_read {P : Platform} {server : OwnerServer P} (hserver : server.FromRows) {r : ReadCall}
    (h : r.Stranger owner owner') : Blind b owner owner' (r.body server) := by
  cases r with
  | getServiceRecord id =>
    refine blind_reply ?_
    unfold getServiceRecord
    split
    · exact alike_fail
    · refine ((blind_findByIDBy hserver id).mapFail _).andThen fun record => ?_
      cases record with
      | none => exact alike_fail
      | some record => exact blind_ret _
  | listServiceRecordsByPlate req =>
    refine blind_reply ?_
    unfold listServiceRecordsByPlate
    dsimp only
    generalize normalizePlate P req.plate = plate
    split
    · exact alike_fail
    · refine Prog.Alike.andThen (Prog.Alike.mapFail _ ?_) fun found => ?_
      · refine blind_found (alike_byPlate _) (blind_ret _) fun v o => ?_
        exact (blind_selectNewest hserver _ _).andThen fun records =>
          (blind_hydrateBy hserver records).andThen fun records' => blind_ret _
      · cases found with
        | none => exact alike_fail
        | some page => exact blind_ret _
  | getVehicleByPlate subject plate =>
    refine blind_reply (blind_withSession fun _ _ => ?_)
    dsimp only
    generalize normalizePlate P plate = plate
    split
    · exact alike_fail
    · exact blind_found ((alike_byPlate _).mapFail _) alike_fail fun v o => blind_ret _
  | listMyVehicles subject => exact blind_reply (blind_listMyVehicles hserver h)

end

/-! ## Every run -/

/-- Whoever of `owner` and `owner'` has the bike, no run of strangers' calls tells: the
same calls wait, fail and are answered, and every read in the meantime says the same. -/
theorem owner_concealed {P : Platform} {server : OwnerServer P} (hserver : server.FromRows) (init : SoundDB)
    {b : VehicleRow} (hb : b ∈ init.db.vehicles) (owner owner' : Option UUID) (es : List ServerEvent)
    (hes : ∀ t q, .begin t q ∈ es → Stranger P b owner owner' q) :
    let run d k := (Mototeca.server P).run (Machine.init d) (es.take k)
    (∀ k, SameToClients (run (init.db.handedTo b owner) k) (run (init.db.handedTo b owner') k) ∧
      (run (init.db.handedTo b owner') k).db = (run (init.db.handedTo b owner) k).db.handedTo b owner') ∧
      ∀ (r : ReadCall), r.Stranger owner owner' → ∀ (moment : Nat → Nat) (broken : Stmt → Failure)
        (ids : Stmt → Nat → UUID) (fault : Nat → Bool),
        (r.body server).execAt DB.apply broken ids
            (fun n => (run (init.db.handedTo b owner) (moment n)).db) fault 0 [] =
          (r.body server).execAt DB.apply broken ids
            (fun n => (run (init.db.handedTo b owner') (moment n)).db) fault 0 [] := by
  intro run
  have hrun : ∀ k, Twins (Veiled b owner owner') (Harmless b) (run (init.db.handedTo b owner) k)
      (run (init.db.handedTo b owner') k) := by
    intro k
    refine (twins_init (veiled_init init.schema hb owner owner')).run (fun c d d' hc h => h.apply hc) _ fun t q hq => ?_
    exact blind_serve P (hes t q (List.mem_of_mem_take hq))
  refine ⟨fun k => ⟨(hrun k).sameToClients, (hrun k).db.apart⟩, fun r hr moment broken ids fault => ?_⟩
  exact (blind_read hserver hr).execAt (fun c d d' hc h => h.apply hc) (fun n => (hrun (moment n)).db) 0 [] fun _ hc =>
    absurd hc List.not_mem_nil

/-! ## A guess at the garage -/

/-- The server that leaves equal keys in the order of the tables. -/
def tableOrder : OwnerServer codePoints where
  toHydrateServer := codePointServer
  newest where_ d := (d.serviceRecords.filter where_).insertionSort fun a b => b.createdAt ≤ a.createdAt
  orders_newest _ _ := answers_insertionSort (fun a b : ServiceRecordRow => b.createdAt ≤ a.createdAt)
    (fun a b => Int.le_total b.createdAt a.createdAt) (fun _ _ _ h h' => Int.le_trans h' h) _
  heldBy ownerID d := (d.vehicles.filter fun v => v.currentOwnerID == some ownerID).insertionSort fun a b =>
    codePoints.collate a.plate b.plate = true
  orders_heldBy _ _ := answers_insertionSort (fun a b : VehicleRow => codePoints.collate a.plate b.plate = true)
    (fun _ _ => codePoints_total _ _) (fun _ _ _ => codePoints_trans _ _ _) _

theorem tableOrder_fromRows : tableOrder.FromRows where
  operations ids d d' h := by simp only [tableOrder, codePointServer, stableServer, h]
  parts ids d d' h := by simp only [tableOrder, codePointServer, stableServer, h]
  attachments ids d d' h := by simp only [tableOrder, codePointServer, stableServer, h]
  newest where_ d d' h := by simp only [tableOrder, h]
  heldBy ownerID d d' h := by simp only [tableOrder, h]

def garageBike : VehicleRow := ⟨uuid "3", "ABC1D23", "9C2KC1670ER000001", "Honda", "CG 160", 2024, none⟩

def guess : Request := ⟨some ⟨.owner, uuid "6"⟩, 0, .claimVehicle ⟨"abc-1d23", "000002"⟩⟩

theorem guess_stranger : Stranger codePoints garageBike none (some (uuid "5")) guess := fun _ => by decide

/-- A wrong guess is refused alike whether the bike is free or another's. -/
theorem guess_concealed : SameToClients
    ((server codePoints).run (Machine.init (garage.db.handedTo garageBike none))
      [.begin 0 guess, .exec 0 fun _ => uuid "9"])
    ((server codePoints).run (Machine.init (garage.db.handedTo garageBike (some (uuid "5"))))
      [.begin 0 guess, .exec 0 fun _ => uuid "9"]) := by
  refine ((owner_concealed tableOrder_fromRows garage (b := garageBike) (by decide) none (some (uuid "5"))
    [.begin 0 guess, .exec 0 fun _ => uuid "9"] fun t q hq => ?_).1 2).1
  obtain ⟨-, rfl⟩ : t = 0 ∧ q = guess := by simpa using hq
  exact guess_stranger

end Mototeca
