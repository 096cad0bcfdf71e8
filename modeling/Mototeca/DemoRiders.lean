import Mototeca.DemoCalls
import Mototeca.Pairing

/-!
# The demo's bikes against the server's

The demo keeps no length of a name, no shape of a chassi suffix and no blank
plate out. Otherwise it answers calls about bikes with the codes and the texts
of the server, and the same bikes stay with the same owners.
-/

namespace Mototeca

open ReadCommitted ProtoJson Pairing
open Mobile (Dart DemoBackend DemoBike DemoGarage DemoVehicle DemoError)

/-! ## The same bikes -/

structure SameBike (n : RiderNames) (v : VehicleRow) (bike : DemoBike) : Prop where
  summary : bike.toDemoVehicle = v.demo
  chassi : bike.chassi = v.chassi
  ownerId : bike.ownerId = v.currentOwnerID.map n.owner

structure MirrorsGarage (n : RiderNames) (d : DB) (s : DemoGarage) : Prop where
  backend : Mirrors n.toNames d s.backend
  bikes : Matched (SameBike n) d.vehicles s.bikes
  owners : ∀ a ∈ d.owners, ∀ b ∈ d.owners, n.owner a = n.owner b → a = b
  held : ∀ v ∈ d.vehicles, ∀ o, v.currentOwnerID = some o → o ∈ d.owners

section
variable {n : RiderNames} {d : DB} {s : DemoGarage}

theorem SameBike.plate {v : VehicleRow} {bike : DemoBike} (h : SameBike n v bike) : bike.plate = v.plate :=
  congrArg DemoVehicle.plate h.summary

theorem MirrorsGarage.plates (h : MirrorsGarage n d s) : (s.bikes.map (·.plate)).Nodup :=
  h.bikes.nodup_key (fun _ _ hab => hab.plate) h.backend.schema.plates

/-- Names of owners tell them apart. -/
theorem MirrorsGarage.sameOwner (h : MirrorsGarage n d s) {v : VehicleRow} (hv : v ∈ d.vehicles) {bike : DemoBike}
    (hsame : SameBike n v bike) {id : UUID} (hid : id ∈ d.owners) :
    (bike.ownerId == some (n.owner id)) = (v.currentOwnerID == some id) := by
  rw [hsame.ownerId]
  cases howner : v.currentOwnerID with
  | none => rfl
  | some o =>
    by_cases he : o = id
    · simp [he]
    · have hne : n.owner o ≠ n.owner id := fun hname => he (h.owners o (h.held v hv o howner) id hid hname)
      simp [he, hne]

theorem MirrorsGarage.heldByPlate (h : MirrorsGarage n d s) (plate : String) {id : UUID} (hid : id ∈ d.owners) :
    (s.bikes.any fun bike => bike.plate == plate && bike.ownerId == some (n.owner id)) =
      (d.heldByPlate plate id).isSome := by
  rw [DB.heldByPlate, List.isSome_find?]
  exact (h.bikes.any fun v hv bike _ hsame => by rw [hsame.plate, h.sameOwner hv hsame hid]).symm

/-! ## Bikes come and change hands -/

theorem Mirrors.withVehicles {n : Names} {d : DB} {s : DemoBackend} (h : Mirrors n d s) {vs : List VehicleRow}
    {bikes : List DemoVehicle} {sequence : Nat} (hschema : Schema { d with vehicles := vs })
    (hkept : ∀ v ∈ d.vehicles, ∃ v' ∈ vs, v'.id = v.id ∧ v'.plate = v.plate)
    (hsame : ∀ plate, bikes.find? (·.plate == plate) = (vs.find? (·.plate == plate)).map VehicleRow.demo)
    (hyears : ∀ v ∈ vs, DB.fitsInteger v.year = true) (hsequence : s.sequence ≤ sequence) :
    Mirrors n { d with vehicles := vs } { s with vehicles := bikes, sequence := sequence } where
  schema := hschema
  records := by
    obtain ⟨l, hrows, hrecords, hl⟩ := h.records
    refine ⟨l, hrows, hrecords, fun p hp => ?_⟩
    have hrecord := hl p hp
    obtain ⟨v, hv, hid, hplate⟩ := hrecord.plate
    obtain ⟨v', hv', hid', hplate'⟩ := hkept v hv
    exact { hrecord with plate := ⟨v', hv', hid'.trans hid, hplate.trans hplate'.symm⟩ }
  recordNames := h.recordNames
  sequence r hr k hk := (h.sequence r hr k hk).trans hsequence
  vehicles := hsame
  years := hyears
  mechanicIDs := h.mechanicIDs
  workshopIDs := h.workshopIDs
  workshops := h.workshops
  workshopNames := h.workshopNames

theorem rel_map_demo {v : Option VehicleRow} {bike : Option DemoBike} (h : Option.Rel (SameBike n) v bike) :
    bike.map (·.toDemoVehicle) = v.map VehicleRow.demo := by
  cases h with
  | none => rfl
  | some hsame => exact congrArg some hsame.summary

/-- Both sides with other bikes. -/
theorem MirrorsGarage.withBikes (h : MirrorsGarage n d s) {vs : List VehicleRow} {bikes : List DemoBike} {sequence : Nat}
    (hschema : Schema { d with vehicles := vs }) (hbikes : Matched (SameBike n) vs bikes)
    (hkept : ∀ v ∈ d.vehicles, ∃ v' ∈ vs, v'.id = v.id ∧ v'.plate = v.plate)
    (hyears : ∀ v ∈ vs, DB.fitsInteger v.year = true)
    (hheld : ∀ v ∈ vs, ∀ o, v.currentOwnerID = some o → o ∈ d.owners) (hsequence : s.sequence ≤ sequence) :
    MirrorsGarage n { d with vehicles := vs } { s with bikes := bikes, sequence := sequence } where
  backend := by
    refine h.backend.withVehicles hschema hkept (fun plate => ?_) hyears hsequence
    have hplates : (bikes.map (·.plate)).Nodup := hbikes.nodup_key (fun _ _ hab => hab.plate) hschema.plates
    have hfind : Option.Rel (SameBike n) (vs.find? (·.plate == plate)) (bikes.find? (·.plate == plate)) := by
      refine hbikes.find? (fun v _ bike _ hsame => by rw [hsame.plate]) fun bike hbike bike' hbike' hp hp' => ?_
      exact List.inj_on_of_nodup_map hplates hbike hbike' ((beq_iff_eq.mp hp).trans (beq_iff_eq.mp hp').symm)
    rw [List.find?_map, ← rel_map_demo hfind]
    rfl
  bikes := hbikes
  owners := h.owners
  held := hheld

/-- Both sides with other records. -/
theorem MirrorsGarage.withRecords (h : MirrorsGarage n d s) {n' : RiderNames} {d' : DB} {s' : DemoGarage}
    (hbackend : Mirrors n'.toNames d' s'.backend) (hvehicles : d'.vehicles = d.vehicles) (howners : d'.owners = d.owners)
    (hbikes : s'.bikes = s.bikes) (hnames : n'.owner = n.owner) : MirrorsGarage n' d' s' where
  backend := hbackend
  bikes := by
    rw [hvehicles, hbikes]
    exact h.bikes.mono fun v _ bike _ hsame => ⟨hsame.summary, hsame.chassi, hnames ▸ hsame.ownerId⟩
  owners := by
    rw [howners, hnames]
    exact h.owners
  held := by
    rw [hvehicles, howners]
    exact h.held

/-- A bike is registered on both sides. -/
theorem MirrorsGarage.register (h : MirrorsGarage n d s) {v : VehicleRow} {bike : DemoBike} (hsame : SameBike n v bike)
    (hid : d.vehicle v.id = none) (hplate : d.vehicleByPlate v.plate = none ∧ DB.storable v.plate = true)
    (hyear : DB.fitsInteger v.year = true) (howner : v.currentOwnerID = none) : MirrorsGarage n (d.apply (.insertVehicle v))
      { s with bikes := s.bikes ++ [bike], sequence := s.sequence + 1 } := by
  refine h.withBikes (schema_insertVehicle h.backend.schema ⟨hid, hplate⟩) (h.bikes.append_singleton hsame)
    (fun v' hv' => ⟨v', List.mem_append_left _ hv', rfl, rfl⟩) (fun v' hv' => ?_) (fun v' hv' o ho => ?_)
    (Nat.le_succ _)
  · rcases List.mem_append.mp hv' with hv' | hv'
    · exact h.backend.years v' hv'
    · rw [List.mem_singleton.mp hv']
      exact hyear
  · rcases List.mem_append.mp hv' with hv' | hv'
    · exact h.held v' hv' o ho
    · rw [List.mem_singleton.mp hv', howner] at ho
      cases ho

/-- A bike changes hands on both sides. -/
theorem MirrorsGarage.handOver (h : MirrorsGarage n d s) (owner : Option UUID) {v : VehicleRow} (hv : v ∈ d.vehicles)
    {p : DemoBike → Bool} (hp : ∀ bike ∈ s.bikes, p bike = true ↔ bike.plate = v.plate)
    (howner : ∀ o, owner = some o → o ∈ d.owners) :
    MirrorsGarage n (d.apply (.setCurrentOwner v.id owner)) (s.handOver p (owner.map n.owner)) := by
  have hschema := schema_setCurrentOwner h.backend.schema v.id owner
  have hone : s.bikes.Pairwise fun bike bike' => ¬ (p bike = true ∧ p bike' = true) := by
    have hpair : s.bikes.Pairwise fun bike bike' => bike.plate ≠ bike'.plate := List.pairwise_map.mp h.plates
    refine hpair.imp_of_mem fun {bike bike'} hbike hbike' hne hboth => hne ?_
    rw [(hp bike hbike).mp hboth.1, (hp bike' hbike').mp hboth.2]
  have hbikes : (s.handOver p (owner.map n.owner)).bikes =
      s.bikes.map fun bike => if p bike then { bike with ownerId := owner.map n.owner } else bike :=
    modify_findIdx hone
  rw [apply_setCurrentOwner] at hschema ⊢
  have hpaired : Matched (SameBike n) (d.vehicles.map (setOwner v.id owner)) (s.handOver p (owner.map n.owner)).bikes := by
    rw [hbikes]
    refine h.bikes.map fun v' hv' bike hbike hsame => ?_
    by_cases hid : v'.id = v.id
    · have hpb : p bike = true := (hp bike hbike).mpr (by rw [hsame.plate, h.backend.schema.vehicle_eq hv' hv hid])
      rw [if_pos hpb, setOwner, if_pos hid]
      exact ⟨hsame.summary, hsame.chassi, rfl⟩
    · have hpb : ¬ p bike = true := fun hpb => hid (by
        rw [h.backend.schema.vehicle_eq_of_plate hv' hv (hsame.plate.symm.trans ((hp bike hbike).mp hpb))])
      rw [if_neg hpb, setOwner, if_neg hid]
      exact hsame
  refine h.withBikes hschema hpaired (fun v' hv' => ⟨setOwner v.id owner v', List.mem_map_of_mem hv', ?_, ?_⟩)
    (fun v' hv' => ?_) (fun v' hv' o ho => ?_) le_rfl
  · exact setOwner_id ..
  · exact setOwner_plate ..
  · obtain ⟨u, hu, rfl⟩ := List.mem_map.mp hv'
    have hyear := h.backend.years u hu
    unfold setOwner
    split <;> exact hyear
  · obtain ⟨u, hu, rfl⟩ := List.mem_map.mp hv'
    unfold setOwner at ho
    split at ho
    · exact howner o ho
    · exact h.held u hu o ho

end

end Mototeca
