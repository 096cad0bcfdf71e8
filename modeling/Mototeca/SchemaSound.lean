import Mathlib.Data.List.Nodup
import Mototeca.Server

/-!
# What the changes of a transaction do to the tables

Each change keeps the schema's constraints when its own `INSERT` or `UPDATE`
could pass them (`Admissible`), and leaves alone what other transactions have
locked when it is itself under a lock (`Change.keys`).
-/

namespace Mototeca

open ReadCommitted

/-! ## Rows by id -/

section
variable {d : DB}

theorem serviceRecord_some {id : UUID} {r : ServiceRecordRow} (h : d.serviceRecord id = some r) :
    r ∈ d.serviceRecords ∧ r.id = id :=
  ⟨List.mem_of_find?_eq_some h, by simpa using List.find?_some h⟩

theorem serviceRecord_none {id : UUID} : d.serviceRecord id = none ↔ ∀ r ∈ d.serviceRecords, r.id ≠ id := by
  simp [DB.serviceRecord]

theorem serviceRecord_isSome {id : UUID} :
    (d.serviceRecord id).isSome = true ↔ ∃ r ∈ d.serviceRecords, r.id = id := by
  simp [DB.serviceRecord]

theorem vehicle_some {id : UUID} {v : VehicleRow} (h : d.vehicle id = some v) : v ∈ d.vehicles ∧ v.id = id :=
  ⟨List.mem_of_find?_eq_some h, by simpa using List.find?_some h⟩

theorem vehicle_none {id : UUID} : d.vehicle id = none ↔ ∀ v ∈ d.vehicles, v.id ≠ id := by
  simp [DB.vehicle]

theorem vehicleByPlate_some {plate : String} {v : VehicleRow} (h : d.vehicleByPlate plate = some v) :
    v ∈ d.vehicles ∧ v.plate = plate :=
  ⟨List.mem_of_find?_eq_some h, by simpa using List.find?_some h⟩

theorem vehicleByPlate_none {plate : String} :
    d.vehicleByPlate plate = none ↔ ∀ v ∈ d.vehicles, v.plate ≠ plate := by
  simp [DB.vehicleByPlate]

theorem mem_attachmentsOf {id : UUID} {a : AttachmentRow} :
    a ∈ d.attachmentsOf id ↔ a ∈ d.attachments ∧ a.serviceRecordID = id := by
  simp [DB.attachmentsOf]

theorem mem_currentRecords {vehicleID : UUID} {r : ServiceRecordRow} :
    r ∈ d.currentRecords vehicleID ↔ r ∈ d.serviceRecords ∧ r.vehicleID = vehicleID ∧ r.supersededBy = none := by
  simp [DB.currentRecords]

end

theorem find?_key_eq_some {α κ : Type} [BEq κ] [LawfulBEq κ] {l : List α} {f : α → κ} (hn : (l.map f).Nodup) {a : α}
    (ha : a ∈ l) : l.find? (fun b => f b == f a) = some a := by
  cases hb : l.find? (fun b => f b == f a) with
  | none => simpa using List.find?_eq_none.mp hb a ha
  | some b =>
    have hf : f b = f a := by simpa using List.find?_some hb
    rw [List.inj_on_of_nodup_map hn (List.mem_of_find?_eq_some hb) ha hf]

/-! ## The constraints -/

/-- The keys, the foreign keys and the unique indexes that the results use. -/
structure Schema (d : DB) : Prop where
  recordIDs : (d.serviceRecords.map (·.id)).Nodup
  vehicleIDs : (d.vehicles.map (·.id)).Nodup
  plates : (d.vehicles.map (·.plate)).Nodup
  plateText : ∀ v ∈ d.vehicles, DB.storable v.plate = true
  recordVehicle : ∀ r ∈ d.serviceRecords, ∃ v ∈ d.vehicles, v.id = r.vehicleID
  recordWorkshop : ∀ r ∈ d.serviceRecords, d.hasWorkshop r.workshopID = true
  supersededBy : ∀ r ∈ d.serviceRecords, ∀ n, r.supersededBy = some n → ∃ r' ∈ d.serviceRecords, r'.id = n
  supersededOnce : ∀ r ∈ d.serviceRecords, ∀ r' ∈ d.serviceRecords, ∀ n,
    r.supersededBy = some n → r'.supersededBy = some n → r.id = r'.id
  operationRecord : ∀ o ∈ d.operations, ∃ r ∈ d.serviceRecords, r.id = o.serviceRecordID
  partRecord : ∀ p ∈ d.parts, ∃ r ∈ d.serviceRecords, r.id = p.serviceRecordID
  attachmentRecord : ∀ a ∈ d.attachments, ∃ r ∈ d.serviceRecords, r.id = a.serviceRecordID

structure SoundDB where
  db : DB
  schema : Schema db

namespace Schema

variable {d : DB} (h : Schema d)
include h

theorem serviceRecord_of_mem {r : ServiceRecordRow} (hr : r ∈ d.serviceRecords) : d.serviceRecord r.id = some r :=
  find?_key_eq_some h.recordIDs hr

theorem record_eq {r r' : ServiceRecordRow} (hr : r ∈ d.serviceRecords) (hr' : r' ∈ d.serviceRecords)
    (hid : r.id = r'.id) : r = r' :=
  List.inj_on_of_nodup_map h.recordIDs hr hr' hid

theorem vehicle_of_mem {v : VehicleRow} (hv : v ∈ d.vehicles) : d.vehicle v.id = some v :=
  find?_key_eq_some h.vehicleIDs hv

theorem vehicle_of_record {r : ServiceRecordRow} (hr : r ∈ d.serviceRecords) :
    ∃ v, d.vehicle r.vehicleID = some v := by
  obtain ⟨v, hv, hid⟩ := h.recordVehicle r hr
  exact ⟨v, hid ▸ h.vehicle_of_mem hv⟩

theorem vehicleByPlate_of_mem {v : VehicleRow} (hv : v ∈ d.vehicles) : d.vehicleByPlate v.plate = some v :=
  find?_key_eq_some h.plates hv

theorem vehicle_eq {v v' : VehicleRow} (hv : v ∈ d.vehicles) (hv' : v' ∈ d.vehicles) (hid : v.id = v'.id) : v = v' :=
  List.inj_on_of_nodup_map h.vehicleIDs hv hv' hid

theorem vehicle_eq_of_plate {v v' : VehicleRow} (hv : v ∈ d.vehicles) (hv' : v' ∈ d.vehicles)
    (hp : v.plate = v'.plate) : v = v' :=
  List.inj_on_of_nodup_map h.plates hv hv' hp

theorem fresh_attachmentsOf {id : UUID} (hf : d.serviceRecord id = none) : d.attachmentsOf id = [] := by
  rw [DB.attachmentsOf, List.filter_eq_nil_iff]
  intro a ha he
  obtain ⟨r, hr, hid⟩ := h.attachmentRecord a ha
  exact serviceRecord_none.mp hf r hr (by rw [hid]; simpa using he)

theorem fresh_supersededBy {id : UUID} (hf : d.serviceRecord id = none) :
    ∀ r ∈ d.serviceRecords, r.supersededBy ≠ some id := by
  intro r hr he
  obtain ⟨r', hr', hid⟩ := h.supersededBy r hr id he
  exact serviceRecord_none.mp hf r' hr' hid

end Schema

/-! ## One change -/

def supersede (original new : UUID) (r : ServiceRecordRow) : ServiceRecordRow :=
  if r.id = original then { r with supersededBy := some new } else r

theorem apply_setSupersededBy (d : DB) (original new : UUID) :
    d.apply (.setSupersededBy original new) =
      { d with serviceRecords := d.serviceRecords.map (supersede original new) } := rfl

@[simp] theorem supersede_id (original new : UUID) (r : ServiceRecordRow) : (supersede original new r).id = r.id := by
  unfold supersede; split <;> rfl

@[simp] theorem supersede_vehicleID (original new : UUID) (r : ServiceRecordRow) :
    (supersede original new r).vehicleID = r.vehicleID := by
  unfold supersede; split <;> rfl

@[simp] theorem supersede_workshopID (original new : UUID) (r : ServiceRecordRow) :
    (supersede original new r).workshopID = r.workshopID := by
  unfold supersede; split <;> rfl

theorem supersede_of_ne {original new : UUID} {r : ServiceRecordRow} (h : r.id ≠ original) :
    supersede original new r = r := by
  simp [supersede, h]

def setOwner (id : UUID) (owner : Option UUID) (v : VehicleRow) : VehicleRow :=
  if v.id = id then { v with currentOwnerID := owner } else v

theorem apply_setCurrentOwner (d : DB) (id : UUID) (owner : Option UUID) :
    d.apply (.setCurrentOwner id owner) = { d with vehicles := d.vehicles.map (setOwner id owner) } := rfl

@[simp] theorem setOwner_id (id : UUID) (owner : Option UUID) (v : VehicleRow) : (setOwner id owner v).id = v.id := by
  unfold setOwner; split <;> rfl

@[simp] theorem setOwner_plate (id : UUID) (owner : Option UUID) (v : VehicleRow) :
    (setOwner id owner v).plate = v.plate := by
  unfold setOwner; split <;> rfl

@[simp] theorem setOwner_chassi (id : UUID) (owner : Option UUID) (v : VehicleRow) :
    (setOwner id owner v).chassi = v.chassi := by
  unfold setOwner; split <;> rfl

/-- The constraints that a change has to meet on top of those already kept. -/
def Admissible (d : DB) : Change → Prop
  | .insertMechanic _ => True
  | .insertVehicle v => d.vehicle v.id = none ∧ d.vehicleByPlate v.plate = none ∧ DB.storable v.plate = true
  | .insertServiceRecord r => d.serviceRecord r.id = none ∧ (∃ v ∈ d.vehicles, v.id = r.vehicleID) ∧
      d.hasWorkshop r.workshopID = true ∧ r.supersededBy = none
  | .insertOperation o => (d.serviceRecord o.serviceRecordID).isSome
  | .insertPart p => (d.serviceRecord p.serviceRecordID).isSome
  | .insertAttachment a => (d.serviceRecord a.serviceRecordID).isSome
  | .setSupersededBy original new => (d.serviceRecord new).isSome ∧
      (∀ r ∈ d.serviceRecords, r.supersededBy ≠ some new) ∧
      ∀ r ∈ d.serviceRecords, r.id = original → r.supersededBy = none
  | .setCurrentOwner _ _ => True

def Lawful : List Change → DB → Prop
  | [], _ => True
  | c :: w, d => Admissible d c ∧ Lawful w (d.apply c)

section
variable {d : DB} (h : Schema d)
include h

theorem schema_insertVehicle {v : VehicleRow} (ha : Admissible d (.insertVehicle v)) :
    Schema (d.apply (.insertVehicle v)) := by
  obtain ⟨hid, hp, htext⟩ := ha
  have hid' : ∀ v' ∈ d.vehicles, v'.id ≠ v.id := vehicle_none.mp hid
  have hp' : ∀ v' ∈ d.vehicles, v'.plate ≠ v.plate := vehicleByPlate_none.mp hp
  refine { h with
    vehicleIDs := ?_
    plates := ?_
    plateText := fun v' hv' => ?_
    recordVehicle := fun r hr => ?_ }
  · simp only [DB.apply, List.map_append, List.map_cons, List.map_nil]
    exact List.nodup_append'.mpr ⟨h.vehicleIDs, List.nodup_singleton _, by simpa using hid'⟩
  · simp only [DB.apply, List.map_append, List.map_cons, List.map_nil]
    exact List.nodup_append'.mpr ⟨h.plates, List.nodup_singleton _, by simpa using hp'⟩
  · rcases List.mem_append.mp hv' with hv' | hv'
    · exact h.plateText v' hv'
    · rw [List.mem_singleton.mp hv']
      exact htext
  · obtain ⟨v', hv', he⟩ := h.recordVehicle r hr
    exact ⟨v', List.mem_append_left _ hv', he⟩

theorem schema_insertServiceRecord {r : ServiceRecordRow} (ha : Admissible d (.insertServiceRecord r)) :
    Schema (d.apply (.insertServiceRecord r)) := by
  obtain ⟨hid, hv, hw, hs⟩ := ha
  have hid' : ∀ r' ∈ d.serviceRecords, r'.id ≠ r.id := serviceRecord_none.mp hid
  have old : ∀ {i : UUID}, (∃ r' ∈ d.serviceRecords, r'.id = i) → ∃ r' ∈ d.serviceRecords ++ [r], r'.id = i :=
    fun ⟨r', hr', he⟩ => ⟨r', List.mem_append_left _ hr', he⟩
  have new : ∀ r' ∈ d.serviceRecords ++ [r], r' ∈ d.serviceRecords ∨ r' = r := fun r' hr' => by simpa using hr'
  refine { h with
    recordIDs := ?_
    recordVehicle := fun r' hr' => ?_
    recordWorkshop := fun r' hr' => ?_
    supersededBy := fun r' hr' n hn => ?_
    supersededOnce := fun r' hr' r'' hr'' n hn hn' => ?_
    operationRecord := fun o ho => old (h.operationRecord o ho)
    partRecord := fun p hp => old (h.partRecord p hp)
    attachmentRecord := fun a ha => old (h.attachmentRecord a ha) }
  · simp only [DB.apply, List.map_append, List.map_cons, List.map_nil]
    exact List.nodup_append'.mpr ⟨h.recordIDs, List.nodup_singleton _, by simpa using hid'⟩
  · rcases new r' hr' with hr' | rfl
    · exact h.recordVehicle r' hr'
    · exact hv
  · rcases new r' hr' with hr' | rfl
    · exact h.recordWorkshop r' hr'
    · exact hw
  · rcases new r' hr' with hr' | rfl
    · exact old (h.supersededBy r' hr' n hn)
    · rw [hs] at hn; cases hn
  · rcases new r' hr' with hr' | rfl
    · rcases new r'' hr'' with hr'' | rfl
      · exact h.supersededOnce r' hr' r'' hr'' n hn hn'
      · rw [hs] at hn'; cases hn'
    · rw [hs] at hn; cases hn

theorem schema_setSupersededBy {original new : UUID} (ha : Admissible d (.setSupersededBy original new)) :
    Schema (d.apply (.setSupersededBy original new)) := by
  obtain ⟨hnew, hfree, -⟩ := ha
  rw [apply_setSupersededBy]
  have mapped : ∀ {i : UUID}, (∃ r ∈ d.serviceRecords, r.id = i) →
      ∃ r ∈ d.serviceRecords.map (supersede original new), r.id = i :=
    fun ⟨r, hr, he⟩ => ⟨_, List.mem_map_of_mem hr, by simpa using he⟩
  have points : ∀ r ∈ d.serviceRecords, ∀ n, (supersede original new r).supersededBy = some n →
      (r.id = original ∧ n = new) ∨ (r.supersededBy = some n ∧ n ≠ new) := by
    intro r hr n hn
    by_cases ho : r.id = original
    · simp only [supersede, ho, ite_true, Option.some.injEq] at hn
      exact Or.inl ⟨ho, hn.symm⟩
    · rw [supersede_of_ne ho] at hn
      exact Or.inr ⟨hn, fun e => hfree r hr (e ▸ hn)⟩
  refine { h with
    recordIDs := ?_
    recordVehicle := fun r hr => ?_
    recordWorkshop := fun r hr => ?_
    supersededBy := fun r hr n hn => ?_
    supersededOnce := fun r hr r' hr' n hn hn' => ?_
    operationRecord := fun o ho => mapped (h.operationRecord o ho)
    partRecord := fun p hp => mapped (h.partRecord p hp)
    attachmentRecord := fun a ha => mapped (h.attachmentRecord a ha) }
  · simpa [List.map_map, Function.comp_def] using h.recordIDs
  · obtain ⟨r₀, hr₀, rfl⟩ := List.mem_map.mp hr
    simpa using h.recordVehicle r₀ hr₀
  · obtain ⟨r₀, hr₀, rfl⟩ := List.mem_map.mp hr
    simpa [DB.hasWorkshop] using h.recordWorkshop r₀ hr₀
  · obtain ⟨r₀, hr₀, rfl⟩ := List.mem_map.mp hr
    rcases points r₀ hr₀ n hn with ⟨-, rfl⟩ | ⟨hn, -⟩
    · exact mapped (serviceRecord_isSome.mp hnew)
    · exact mapped (h.supersededBy r₀ hr₀ n hn)
  · obtain ⟨r₀, hr₀, rfl⟩ := List.mem_map.mp hr
    obtain ⟨r₁, hr₁, rfl⟩ := List.mem_map.mp hr'
    rcases points r₀ hr₀ n hn with ⟨ho, hnew⟩ | ⟨hn, hne⟩
    · rcases points r₁ hr₁ n hn' with ⟨ho', -⟩ | ⟨-, hne⟩
      · simp [ho, ho']
      · exact absurd hnew hne
    · rcases points r₁ hr₁ n hn' with ⟨-, hnew⟩ | ⟨hn', -⟩
      · exact absurd hnew hne
      · simpa using h.supersededOnce r₀ hr₀ r₁ hr₁ n hn hn'

theorem schema_setCurrentOwner (id : UUID) (owner : Option UUID) : Schema (d.apply (.setCurrentOwner id owner)) := by
  rw [apply_setCurrentOwner]
  refine { h with
    vehicleIDs := ?_
    plates := ?_
    plateText := fun v hv => ?_
    recordVehicle := fun r hr => ?_ }
  · simpa [List.map_map, Function.comp_def] using h.vehicleIDs
  · simpa [List.map_map, Function.comp_def] using h.plates
  · obtain ⟨v₀, hv₀, rfl⟩ := List.mem_map.mp hv
    rw [setOwner_plate]
    exact h.plateText v₀ hv₀
  · obtain ⟨v, hv, he⟩ := h.recordVehicle r hr
    exact ⟨_, List.mem_map_of_mem hv, by simpa using he⟩

theorem schema_apply {c : Change} (ha : Admissible d c) : Schema (d.apply c) := by
  cases c with
  | insertMechanic m => exact { h with }
  | insertVehicle v => exact schema_insertVehicle h ha
  | insertServiceRecord r => exact schema_insertServiceRecord h ha
  | insertOperation o =>
    refine { h with operationRecord := fun o' ho' => ?_ }
    rcases List.mem_append.mp ho' with ho' | ho'
    · exact h.operationRecord o' ho'
    · rw [List.mem_singleton.mp ho']; exact serviceRecord_isSome.mp ha
  | insertPart p =>
    refine { h with partRecord := fun p' hp' => ?_ }
    rcases List.mem_append.mp hp' with hp' | hp'
    · exact h.partRecord p' hp'
    · rw [List.mem_singleton.mp hp']; exact serviceRecord_isSome.mp ha
  | insertAttachment a =>
    refine { h with attachmentRecord := fun a' ha' => ?_ }
    rcases List.mem_append.mp ha' with ha' | ha'
    · exact h.attachmentRecord a' ha'
    · rw [List.mem_singleton.mp ha']; exact serviceRecord_isSome.mp ha
  | setSupersededBy original new => exact schema_setSupersededBy h ha
  | setCurrentOwner id owner => exact schema_setCurrentOwner h id owner

end

theorem schema_view (w : List Change) : ∀ d, Schema d → Lawful w d → Schema (w.foldl DB.apply d) := by
  induction w with
  | nil => exact fun _ h _ => h
  | cons c w ih => exact fun d h hw => ih _ (schema_apply h hw.1) hw.2

theorem lawful_append {w₁ w₂ : List Change} : ∀ {d : DB},
    Lawful (w₁ ++ w₂) d ↔ Lawful w₁ d ∧ Lawful w₂ (w₁.foldl DB.apply d) := by
  induction w₁ with
  | nil => intro d; simp [Lawful]
  | cons c w₁ ih => intro d; simp only [List.cons_append, Lawful, ih, List.foldl_cons, and_assoc]

/-! ## What a change leaves alone -/

/-- The locks of others that the change would not respect. -/
def Change.keys : Change → List Key
  | .insertMechanic _ => []
  | .insertVehicle v => [.vehicle v.id, ⟨.vehicle v.id, .noKeyUpdate⟩, .plate v.plate]
  | .insertServiceRecord r => [.serviceRecord r.id]
  | .insertOperation _ => []
  | .insertPart _ => []
  | .insertAttachment a => [.serviceRecord a.serviceRecordID]
  | .setSupersededBy id _ => [.serviceRecord id]
  | .setCurrentOwner id _ => [.vehicle id, ⟨.vehicle id, .noKeyUpdate⟩]

/-- What commits of others leave of `d` in `d'` for a transaction that holds `H`. -/
structure Keeps (H : Key → Prop) (d d' : DB) : Prop where
  records : ∀ id r, d.serviceRecord id = some r → ∃ n,
    d'.serviceRecord id = some { r with supersededBy := n } ∧ (r.supersededBy ≠ none → n = r.supersededBy)
  record : ∀ id, H (.serviceRecord id) → d'.serviceRecord id = d.serviceRecord id
  attachments : ∀ id, H (.serviceRecord id) → d'.attachmentsOf id = d.attachmentsOf id
  attached : ∀ a ∈ d.attachments, a ∈ d'.attachments
  vehicles : ∀ id v, d.vehicle id = some v → ∃ o, d'.vehicle id = some { v with currentOwnerID := o }
  vehicle : ∀ id m, m ≠ .keyShare → H ⟨.vehicle id, m⟩ → d'.vehicle id = d.vehicle id
  plate : ∀ p, H (.plate p) → d.vehicleByPlate p = none → d'.vehicleByPlate p = none
  workshops : d'.workshops = d.workshops
  owners : d'.owners = d.owners

theorem Keeps.refl (H : Key → Prop) (d : DB) : Keeps H d d where
  records _ r h := ⟨r.supersededBy, h, fun _ => rfl⟩
  record _ _ := rfl
  attachments _ _ := rfl
  attached _ h := h
  vehicles _ v h := ⟨v.currentOwnerID, h⟩
  vehicle _ _ _ _ := rfl
  plate _ _ h := h
  workshops := rfl
  owners := rfl

theorem superseded_trans {n₀ n n' : Option UUID} (h : n₀ ≠ none → n = n₀) (h' : n ≠ none → n' = n) (hne : n₀ ≠ none) :
    n' = n₀ := by
  have hn : n = n₀ := h hne
  rw [← hn] at hne ⊢
  exact h' hne

theorem Keeps.trans {H : Key → Prop} {d d' d'' : DB} (h : Keeps H d d') (h' : Keeps H d' d'') : Keeps H d d'' where
  records id r hr := by
    obtain ⟨n, hn, hs⟩ := h.records id r hr
    obtain ⟨n', hn', hs'⟩ := h'.records id _ hn
    exact ⟨n', hn', superseded_trans hs hs'⟩
  record id hH := (h'.record id hH).trans (h.record id hH)
  attachments id hH := (h'.attachments id hH).trans (h.attachments id hH)
  attached a ha := h'.attached a (h.attached a ha)
  vehicles id v hv := by
    obtain ⟨o, ho⟩ := h.vehicles id v hv
    obtain ⟨o', ho'⟩ := h'.vehicles id _ ho
    exact ⟨o', ho'⟩
  vehicle id m hm hH := (h'.vehicle id m hm hH).trans (h.vehicle id m hm hH)
  plate p hH hp := h'.plate p hH (h.plate p hH hp)
  workshops := h'.workshops.trans h.workshops
  owners := h'.owners.trans h.owners

theorem Keeps.mono {H H' : Key → Prop} {d d' : DB} (h : Keeps H d d') (hH : ∀ k, H' k → H k) : Keeps H' d d' :=
  { h with
    record := fun id hk => h.record id (hH _ hk)
    attachments := fun id hk => h.attachments id (hH _ hk)
    vehicle := fun id m hm hk => h.vehicle id m hm (hH _ hk)
    plate := fun p hk => h.plate p (hH _ hk) }

theorem Keeps.unlocked {H : Key → Prop} {d d' : DB} (h : Keeps H d d') : Keeps (fun _ => False) d d' :=
  h.mono fun _ hk => hk.elim

theorem serviceRecord_insert (d : DB) (r : ServiceRecordRow) (id : UUID) :
    (d.apply (.insertServiceRecord r)).serviceRecord id =
      (d.serviceRecord id).or (if r.id = id then some r else none) := by
  simp only [DB.serviceRecord, DB.apply, List.find?_append, List.find?_singleton, beq_iff_eq]

theorem vehicle_insert (d : DB) (v : VehicleRow) (id : UUID) :
    (d.apply (.insertVehicle v)).vehicle id = (d.vehicle id).or (if v.id = id then some v else none) := by
  simp only [DB.vehicle, DB.apply, List.find?_append, List.find?_singleton, beq_iff_eq]

theorem vehicleByPlate_insert (d : DB) (v : VehicleRow) (plate : String) :
    (d.apply (.insertVehicle v)).vehicleByPlate plate =
      (d.vehicleByPlate plate).or (if v.plate = plate then some v else none) := by
  simp only [DB.vehicleByPlate, DB.apply, List.find?_append, List.find?_singleton, beq_iff_eq]

theorem attachmentsOf_insert (d : DB) (a : AttachmentRow) (id : UUID) :
    (d.apply (.insertAttachment a)).attachmentsOf id =
      d.attachmentsOf id ++ (if a.serviceRecordID = id then [a] else []) := by
  by_cases h : a.serviceRecordID = id <;> simp [DB.attachmentsOf, DB.apply, h]

theorem serviceRecord_supersede (d : DB) (original new id : UUID) :
    (d.apply (.setSupersededBy original new)).serviceRecord id =
      (d.serviceRecord id).map (supersede original new) := by
  have hid : (fun r : ServiceRecordRow => r.id == id) ∘ supersede original new = fun r => r.id == id :=
    funext fun r => by rw [Function.comp_apply, supersede_id]
  rw [DB.serviceRecord, apply_setSupersededBy, List.find?_map, hid, DB.serviceRecord]

theorem vehicle_setOwner (d : DB) (id' : UUID) (owner : Option UUID) (id : UUID) :
    (d.apply (.setCurrentOwner id' owner)).vehicle id = (d.vehicle id).map (setOwner id' owner) := by
  have hid : (fun v : VehicleRow => v.id == id) ∘ setOwner id' owner = fun v => v.id == id :=
    funext fun v => by rw [Function.comp_apply, setOwner_id]
  rw [DB.vehicle, apply_setCurrentOwner, List.find?_map, hid, DB.vehicle]

theorem vehicleByPlate_setOwner (d : DB) (id : UUID) (owner : Option UUID) (plate : String) :
    (d.apply (.setCurrentOwner id owner)).vehicleByPlate plate =
      (d.vehicleByPlate plate).map (setOwner id owner) := by
  have hplate : (fun v : VehicleRow => v.plate == plate) ∘ setOwner id owner = fun v => v.plate == plate :=
    funext fun v => by rw [Function.comp_apply, setOwner_plate]
  rw [DB.vehicleByPlate, apply_setCurrentOwner, List.find?_map, hplate, DB.vehicleByPlate]

section
variable {H : Key → Prop} {d : DB}

theorem keeps_insertVehicle {v : VehicleRow} (hv : ∀ m, m ≠ .keyShare → ¬ H ⟨.vehicle v.id, m⟩)
    (hp : ¬ H (.plate v.plate)) :
    Keeps H d (d.apply (.insertVehicle v)) := by
  refine { Keeps.refl H d with
    vehicles := fun id v' h => ⟨v'.currentOwnerID, ?_⟩
    vehicle := fun id m hm hH => ?_
    plate := fun p hH h => ?_ }
  · rw [vehicle_insert, h, Option.some_or]
  · have hne : v.id ≠ id := fun e => hv m hm (e ▸ hH)
    rw [vehicle_insert, if_neg hne, Option.or_none]
  · have hne : v.plate ≠ p := fun e => hp (e ▸ hH)
    rw [vehicleByPlate_insert, h, if_neg hne, Option.or_none]

theorem keeps_insertServiceRecord {r : ServiceRecordRow} (hr : ¬ H (.serviceRecord r.id)) :
    Keeps H d (d.apply (.insertServiceRecord r)) := by
  refine { Keeps.refl H d with
    records := fun id r' h => ⟨r'.supersededBy, ?_, fun _ => rfl⟩
    record := fun id hH => ?_ }
  · rw [serviceRecord_insert, h, Option.some_or]
  · have hne : r.id ≠ id := fun e => hr (e ▸ hH)
    rw [serviceRecord_insert, if_neg hne, Option.or_none]

theorem keeps_insertAttachment {a : AttachmentRow} (ha : ¬ H (.serviceRecord a.serviceRecordID)) :
    Keeps H d (d.apply (.insertAttachment a)) := by
  refine { Keeps.refl H d with
    attachments := fun id hH => ?_
    attached := fun a' ha' => List.mem_append_left _ ha' }
  have hne : a.serviceRecordID ≠ id := fun e => ha (e ▸ hH)
  rw [attachmentsOf_insert, if_neg hne, List.append_nil]

theorem keeps_setSupersededBy {original new : UUID} (ho : ¬ H (.serviceRecord original))
    (ha : Admissible d (.setSupersededBy original new)) : Keeps H d (d.apply (.setSupersededBy original new)) := by
  refine { Keeps.refl H d with
    records := fun id r h => ?_
    record := fun id hH => ?_ }
  · rw [serviceRecord_supersede, h, Option.map_some]
    by_cases hid : r.id = original
    · refine ⟨some new, by simp [supersede, hid], fun hne => ?_⟩
      exact absurd (ha.2.2 r (serviceRecord_some h).1 hid) hne
    · exact ⟨r.supersededBy, by rw [supersede_of_ne hid], fun _ => rfl⟩
  · rw [serviceRecord_supersede]
    cases h : d.serviceRecord id with
    | none => rfl
    | some r =>
      have hne : r.id ≠ original := fun e => ho (e ▸ (serviceRecord_some h).2 ▸ hH)
      rw [Option.map_some, supersede_of_ne hne]

theorem setOwner_eq (id : UUID) (owner : Option UUID) (v : VehicleRow) :
    ∃ o, setOwner id owner v = { v with currentOwnerID := o } := by
  unfold setOwner
  split
  · exact ⟨owner, rfl⟩
  · exact ⟨v.currentOwnerID, rfl⟩

theorem keeps_setCurrentOwner {id : UUID} {owner : Option UUID} (hv : ∀ m, m ≠ .keyShare → ¬ H ⟨.vehicle id, m⟩) :
    Keeps H d (d.apply (.setCurrentOwner id owner)) := by
  refine { Keeps.refl H d with
    vehicles := fun id' v h => ?_
    vehicle := fun id' m hm hH => ?_
    plate := fun p hH h => ?_ }
  · obtain ⟨o, ho⟩ := setOwner_eq id owner v
    exact ⟨o, by rw [vehicle_setOwner, h, Option.map_some, ho]⟩
  · rw [vehicle_setOwner]
    cases h : d.vehicle id' with
    | none => rfl
    | some v =>
      have hne : v.id ≠ id := fun e => hv m hm (e ▸ (vehicle_some h).2 ▸ hH)
      simp [setOwner, hne]
  · rw [vehicleByPlate_setOwner, h, Option.map_none]

theorem unlocked_vehicle {id : UUID} (hu : ¬ H (.vehicle id)) (hn : ¬ H ⟨.vehicle id, .noKeyUpdate⟩) :
    ∀ m, m ≠ .keyShare → ¬ H ⟨.vehicle id, m⟩
  | .keyShare, hm => absurd rfl hm
  | .noKeyUpdate, _ => hn
  | .update, _ => hu

theorem keeps_apply {c : Change} (ha : Admissible d c) (hc : ∀ k ∈ c.keys, ¬ H k) : Keeps H d (d.apply c) := by
  cases c with
  | insertMechanic m => exact { Keeps.refl H d with }
  | insertVehicle v =>
    exact keeps_insertVehicle (unlocked_vehicle (hc _ (by simp [Change.keys])) (hc _ (by simp [Change.keys])))
      (hc _ (by simp [Change.keys]))
  | insertServiceRecord r => exact keeps_insertServiceRecord (hc _ (by simp [Change.keys]))
  | insertOperation o => exact { Keeps.refl H d with }
  | insertPart p => exact { Keeps.refl H d with }
  | insertAttachment a => exact keeps_insertAttachment (hc _ (by simp [Change.keys]))
  | setSupersededBy original new => exact keeps_setSupersededBy (hc _ (by simp [Change.keys])) ha
  | setCurrentOwner id owner =>
    exact keeps_setCurrentOwner (unlocked_vehicle (hc _ (by simp [Change.keys])) (hc _ (by simp [Change.keys])))

end

theorem keeps_view {H : Key → Prop} (w : List Change) : ∀ d, Lawful w d → (∀ c ∈ w, ∀ k ∈ c.keys, ¬ H k) →
    Keeps H d (w.foldl DB.apply d) := by
  induction w with
  | nil => exact fun d _ _ => Keeps.refl H d
  | cons c w ih =>
    intro d hw hk
    exact (keeps_apply hw.1 (hk c (List.mem_cons_self ..))).trans
      (ih _ hw.2 fun c' hc' => hk c' (List.mem_cons_of_mem _ hc'))

def pg : Rules DB Key := ⟨Schema, Keeps, Keeps.refl, Keeps.trans⟩

/-- Under these rules the tables meet their constraints and nothing committed is lost. -/
class Orderly (ρ : Rules DB Key) : Prop where
  schema : ∀ d, ρ.inv d → Schema d
  keeps : ∀ H d d', ρ.rely H d d' → Keeps (fun _ => False) d d'

instance : Orderly pg := ⟨fun _ h => h, fun _ _ _ h => h.unlocked⟩

end Mototeca
