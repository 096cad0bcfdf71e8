import Mototeca.Mechanics
import Mototeca.Mileage
import Mototeca.Outcomes
import Mototeca.Validation

/-!
# What is stored is well formed

The columns alone allow a record without operations, a negative cost or a
mechanic of another shop. No call writes one: whatever runs side by side, the
rows of every state are within the limits that `Validate` checks.
-/

namespace Mototeca

open ReadCommitted

/-! ## Rows -/

/-- The rows within the limits of the validators, and the links that no
constraint of the schema asks for. -/
structure Stored (d : DB) : Prop where
  records : ∀ r ∈ d.serviceRecords, (0 ≤ r.mileageKm ∧ r.mileageKm ≤ maxMileageKm) ∧ badCost r.costCents = false ∧
    ∀ n, r.notes = some n → byteLen n ≤ maxNotesLength
  operations : ∀ r ∈ d.serviceRecords, d.operationsOf r.id ≠ []
  distinct : d.operations.Nodup
  parts : ∀ p ∈ d.parts, (p.name ≠ "" ∧ trimSpace p.name = p.name ∧ byteLen p.name ≤ maxPartName) ∧
    (1 ≤ p.quantity ∧ p.quantity ≤ maxPartQty) ∧ badCost p.costCents = false
  partCount : ∀ r ∈ d.serviceRecords, (d.partsOf r.id).length ≤ maxParts
  mechanics : ∀ m ∈ d.mechanics, m.name ≠ "" ∧ trimSpace m.name = m.name
  employed : ∀ r ∈ d.serviceRecords, ∀ id, r.mechanicID = some id →
    ∃ m ∈ d.mechanics, m.id = id ∧ m.workshopID = r.workshopID
  vehicles : ∀ v ∈ d.vehicles, matchesPlate v.plate = true ∧ matchesChassi v.chassi = true ∧
    (v.make ≠ "" ∧ v.make.length ≤ VehicleInput.maxNameLength) ∧
    (v.model ≠ "" ∧ v.model.length ≤ VehicleInput.maxNameLength) ∧ 1950 ≤ v.year
  chassis : (d.vehicles.map (·.chassi)).Nodup
  attachments : ∀ a ∈ d.attachments, (a.kind = "photo" ∨ a.kind = "invoice") ∧
    ∀ p, a.phase = some p → a.kind = "photo" ∧ (p = "before" ∨ p = "after")

/-! ## What others leave besides -/

/-- Mechanics stay, and a locked chassi that no bike has stays free. -/
structure KeepsMore (H : Key → Prop) (d d' : DB) : Prop where
  keeps : Keeps H d d'
  mechanics : ∀ m ∈ d.mechanics, m ∈ d'.mechanics
  chassi : ∀ c, H (.chassi c) → (∀ v ∈ d.vehicles, v.chassi ≠ c) → ∀ v ∈ d'.vehicles, v.chassi ≠ c

def storing : Rules DB Key where
  inv d := Schema d ∧ Stored d
  rely := KeepsMore
  refl H d := ⟨Keeps.refl H d, fun _ h => h, fun _ _ h => h⟩
  trans h h' := ⟨h.keeps.trans h'.keeps, fun m hm => h'.mechanics m (h.mechanics m hm),
    fun c hc hfree => h'.chassi c hc (h.chassi c hc hfree)⟩

instance : Orderly storing := ⟨fun _ h => h.1, fun _ _ _ h => h.keeps.unlocked⟩

/-- The mechanic of a record is one of the shop's, committed or in this transaction. -/
def Employs (id : Option UUID) (workshopID : UUID) (σ : SqlLocal) (d : DB) : Prop :=
  ∀ m, id = some m → ∃ row ∈ d.mechanics ++ insertedMechanics σ.changes, row.id = m ∧ row.workshopID = workshopID

theorem persistent_employs (id : Option UUID) (workshopID : UUID) : Persistent storing (Employs id workshopID) where
  rely σ d d' h hr _ m hm := by
    obtain ⟨row, hrow, hid⟩ := h m hm
    refine ⟨row, ?_, hid⟩
    rcases List.mem_append.mp hrow with hrow | hrow
    · exact List.mem_append_left _ (hr.mechanics row hrow)
    · exact List.mem_append_right _ hrow
  after σ d ks cs name v h m hm := by
    obtain ⟨row, hrow, hid⟩ := h m hm
    refine ⟨row, ?_, hid⟩
    rw [Local.after_changes, insertedMechanics_append, ← List.append_assoc]
    exact List.mem_append_left _ hrow

def RecordEmploys (σ : SqlLocal) (d : DB) : Prop :=
  ∃ r, Change.insertServiceRecord r ∈ σ.changes ∧ Employs r.mechanicID r.workshopID σ d

theorem persistent_recordEmploys : Persistent storing RecordEmploys where
  rely σ d d' h hr hi := by
    obtain ⟨r, hr', he⟩ := h
    exact ⟨r, hr', (persistent_employs _ _).rely σ d d' he hr hi⟩
  after σ d ks cs name v h := by
    obtain ⟨r, hr, he⟩ := h
    exact ⟨r, List.mem_append_left _ hr, (persistent_employs _ _).after σ d ks cs name v he⟩

/-- No other bike has the chassi that this transaction registers. -/
def ChassiFree (σ : SqlLocal) (d : DB) : Prop :=
  ∀ v, Change.insertVehicle v ∈ σ.changes → σ.held (.chassi v.chassi) ∧ ∀ u ∈ d.vehicles, u.chassi ≠ v.chassi

section
variable {σ : SqlLocal} {d : DB}

theorem wp_upsertMechanic_employs (P : Platform) (workshopID : UUID) (name : Option String) :
    wp DB.apply storing (fun id σ d => Employs id workshopID σ d) (upsertMechanic P workshopID name) σ d := by
  cases name with
  | none => exact wp_ret nofun
  | some name =>
    simp only [upsertMechanic]
    split
    · exact wp_ret nofun
    · split
      · exact wp_fail
      · refine wp_then (P := fun found σ d => ∀ m, found = some m → Employs (some m.id) workshopID σ d)
          (wp_query fun d' _ _ m hm id hid => ?_) fun found σ₁ d₁ hfound => ?_
        · obtain rfl := Option.some.inj hid
          have hmem := List.mem_of_find?_eq_some hm
          have hcond := List.find?_some hm
          simp only [Bool.and_eq_true, beq_iff_eq] at hcond
          rw [mechanics_view] at hmem
          exact ⟨m, by simpa using hmem, rfl, hcond.1⟩
        · cases found with
          | some m => exact wp_ret (hfound m rfl)
          | none =>
            refine wp_write fun d' _ _ o _ id hid => ?_
            obtain rfl := Option.some.inj hid
            refine ⟨⟨o 0, workshopID, trimSpace name⟩, ?_, rfl, rfl⟩
            rw [Local.after_changes, insertedMechanics_append]
            exact List.mem_append_right _ (List.mem_append_right _ (List.mem_singleton_self _))

theorem wp_write_employs (P : Platform) (now : Time) (input : CreateInput) (rev : Option Revision) :
    wp DB.apply storing (fun _ => RecordEmploys) (write P now input rev) σ d := by
  rw [write_eq]
  refine wp_then (wp_true (revisable rev) σ d) fun _ σ₁ d₁ _ => ?_
  refine wp_then (wp_true _ σ₁ d₁) fun vehicle σ₂ d₂ _ => ?_
  cases vehicle with
  | none => exact wp_fail
  | some v =>
    refine wp_then (wp_true (odometer input rev v.id) σ₂ d₂) fun _ σ₃ d₃ _ => ?_
    refine wp_then (wp_upsertMechanic_employs P input.workshopID input.mechanicName) fun mechanicID σ₄ d₄ h₄ => ?_
    refine wp_then (P := fun _ => RecordEmploys) (wp_write fun d' hr hi o _ => ?_) fun id σ₅ d₅ h₅ => ?_
    · have hemploys := (persistent_employs mechanicID input.workshopID).rely _ _ _ h₄ hr hi
      refine ⟨input.row now v.id mechanicID (o 0), ?_, (persistent_employs _ _).after _ _ _ _ _ _ hemploys⟩
      exact List.mem_append_right _ (List.mem_singleton_self _)
    · refine wp_seq persistent_recordEmploys (wp_true (insertOperations id input.operations) σ₅ d₅) h₅
        fun _ σ₆ d₆ _ h₆ => ?_
      refine wp_seq persistent_recordEmploys (wp_true (insertParts id input.parts) σ₆ d₆) h₆ fun _ σ₇ d₇ _ h₇ => ?_
      exact wp_seq persistent_recordEmploys (wp_true (replaceOriginal rev id) σ₇ d₇) h₇ fun _ σ₈ d₈ _ h₈ => wp_ret h₈

theorem wp_createVehicle_chassi (P : Platform) (input : VehicleInput) (hσ : σ.changes = []) :
    wp DB.apply storing (fun _ => ChassiFree) (createVehicle P input) σ d := by
  refine wp_stmt fun d' _ _ o => ?_
  simp only [hσ, List.foldl_nil]
  cases hc : d'.vehicleConflict (input.row P (o 0)) with
  | some e => exact wp_fail
  | none =>
    refine wp_ret fun v hv => ?_
    obtain rfl : v = input.row P (o 0) := by simpa [hσ] using hv
    exact ⟨Or.inl (by simp [VehicleInput.row]), (vehicleConflict_none.mp hc).2.2.2⟩

end

/-! ## What a call admits -/

/-- What a call has established when its body ends, besides `Done`. -/
def Admits (P : Platform) (q : Request) (σ : SqlLocal) (d : DB) : Prop :=
  match q.call with
  | .createServiceRecord req =>
      (∀ id, requireWorkshopID q.subject = .ok id → req.toRecordMsg.Acceptable id) ∧ RecordEmploys σ d
  | .reviseServiceRecord req =>
      (∀ id, requireWorkshopID q.subject = .ok id → req.toRecordMsg.Acceptable id) ∧ RecordEmploys σ d
  | .createVehicle req => (req.normalized P).validate (P.year q.now) = none ∧ ChassiFree σ d
  | _ => True

theorem Admits.stable {P : Platform} {q : Request} {σ : SqlLocal} {d d' : DB} (h : Admits P q σ d)
    (hr : KeepsMore σ.held d d') (hi : storing.inv d') : Admits P q σ d' := by
  obtain ⟨subject, now, call⟩ := q
  cases call with
  | createServiceRecord req => exact ⟨h.1, persistent_recordEmploys.rely _ _ _ h.2 hr hi⟩
  | reviseServiceRecord req => exact ⟨h.1, persistent_recordEmploys.rely _ _ _ h.2 hr hi⟩
  | createVehicle req =>
    refine ⟨h.1, fun v hv => ?_⟩
    obtain ⟨hheld, hfree⟩ := h.2 v hv
    exact ⟨hheld, hr.chassi _ hheld hfree⟩
  | upload req => trivial
  | claimVehicle req => trivial
  | releaseVehicle plate => trivial

theorem wp_reply {α : Type} {p : Sql Failure α} {f : α → Reply} {F : SqlLocal → DB → Prop} {σ : SqlLocal} {d : DB}
    (h : wp DB.apply storing (fun _ => F) p σ d) :
    wp DB.apply storing (fun _ => F) (p.bind fun a => .ret (f a)) σ d :=
  wp_then h fun _ _ _ h => wp_ret h

theorem wp_serve_admits (P : Platform) (q : Request) (d : DB) :
    wp DB.apply storing (fun _ => Admits P q) (serve P q) .start d := by
  obtain ⟨subject, now, call⟩ := q
  have record : ∀ {msg : RecordMsg} {workshopID plate} {revises : Option Bytes} {confirm : Bool} {rev : Option Revision}
      {f : RecordError → Failure} {σ : SqlLocal} {d : DB}, requireWorkshopID subject = .ok workshopID →
      (msg.input workshopID plate revises confirm).validate = none →
      wp DB.apply storing
        (fun _ σ d => (∀ id, requireWorkshopID subject = .ok id → msg.Acceptable id) ∧ RecordEmploys σ d)
        ((write P now (msg.input workshopID plate revises confirm) rev).mapFail f) σ d := by
    intro msg workshopID plate revises confirm rev f σ d hsession hval
    have hmsg : ∀ id, requireWorkshopID subject = .ok id → msg.Acceptable id := by
      intro id hid
      obtain rfl := Except.ok.inj (hsession.symm.trans hid)
      exact RecordMsg.acceptable_of_valid (validate_eq_none.mp hval)
    exact wp_mono (fun _ _ _ h => ⟨hmsg, h⟩) _ _ _ (wp_mapFail _ _ _ _ (wp_write_employs P now _ rev))
  cases call with
  | createServiceRecord req =>
    refine wp_withSession fun id hid => wp_reply ?_
    unfold createServiceRecord
    dsimp only
    split
    · exact wp_fail
    · next hval => exact record hid hval
  | reviseServiceRecord req =>
    refine wp_withSession fun id hid => wp_reply ?_
    unfold reviseServiceRecord
    split
    · exact wp_fail
    · refine wp_then (wp_true _ _ _) fun found σ₁ d₁ _ => ?_
      cases found with
      | none => exact wp_fail
      | some original =>
        dsimp only
        split
        · exact wp_fail
        · next hval => exact record hid hval
  | upload req => exact wp_true _ _ _
  | createVehicle req =>
    refine wp_withSession fun _ _ => wp_reply ?_
    unfold registerVehicle
    dsimp only
    cases hval : (req.normalized P).validate (P.year now) with
    | some message => exact wp_fail
    | none => exact wp_mono (fun _ _ _ h => ⟨hval, h⟩) _ _ _ (wp_mapFail _ _ _ _ (wp_createVehicle_chassi P _ rfl))
  | claimVehicle req => exact wp_true _ _ _
  | releaseVehicle plate => exact wp_true _ _ _

/-! ## What a call keeps -/

theorem byteLen_sublist {l l' : List Char} (h : l.Sublist l') :
    byteLen (String.ofList l) ≤ byteLen (String.ofList l') := by
  induction h with
  | slnil => exact Nat.le_refl _
  | cons c _ ih =>
    rw [byteLen_cons]
    exact ih.trans (Nat.le_add_left _ _)
  | cons_cons c _ ih =>
    rw [byteLen_cons, byteLen_cons]
    exact Nat.add_le_add_left ih _

theorem byteLen_trimSpace (s : String) : byteLen (trimSpace s) ≤ byteLen s := by
  have hsub : ((s.toList.dropWhile isSpace).reverse.dropWhile isSpace).reverse.Sublist s.toList := by
    refine List.Sublist.trans ?_ (List.dropWhile_sublist isSpace (l := s.toList))
    simpa using (List.dropWhile_sublist isSpace (l := (s.toList.dropWhile isSpace).reverse)).reverse
  simpa [trimSpace, String.ofList_toList] using byteLen_sublist hsub

section
variable {σ : SqlLocal} {d : DB} {now : Time} {input : CreateInput} {rev : Option Revision} {w : Written}

theorem Writes.insertedMechanics (h : Writes now input rev w σ d) :
    insertedMechanics σ.changes = w.mechanic.toList := by
  have hview := mechanics_view w.changes d
  rw [w.view] at hview
  rw [h.changes]
  exact (List.append_cancel_left hview).symm

/-- A row after the call is one from before it, or the new one, superseded or not. -/
theorem Writes.record_after (h : Writes now input rev w σ d) {r' : ServiceRecordRow}
    (hr' : r' ∈ (σ.changes.foldl DB.apply d).serviceRecords) :
    ∃ r n, (r ∈ d.serviceRecords ∨ r = w.record) ∧ r' = { r with supersededBy := n } := by
  rw [h.changes, w.view] at hr'
  dsimp only at hr'
  split at hr'
  · rcases List.mem_append.mp hr' with hr' | hr'
    · exact ⟨r', r'.supersededBy, Or.inl hr', rfl⟩
    · exact ⟨r', r'.supersededBy, Or.inr (List.mem_singleton.mp hr'), rfl⟩
  · rename_i original rows hrep
    obtain ⟨r, hr, rfl⟩ := List.mem_map.mp hr'
    refine ⟨r, (supersede original w.record.id r).supersededBy, ?_, ?_⟩
    · exact (List.mem_append.mp hr).imp_right List.mem_singleton.mp
    · unfold supersede
      split <;> rfl

theorem Writes.types (h : Writes now input rev w σ d) (hv : Valid input) : w.operations ≠ [] ∧ w.operations.Nodup := by
  obtain ⟨ts, hts, hnd⟩ := hv.types
  obtain rfl : w.operations = ts := List.map_injective_iff.mpr (Option.some_injective _) (h.operations.symm.trans hts)
  refine ⟨fun hnil => hv.operations ?_, hnd⟩
  simpa [hnil] using hts

theorem Stored.writes (hS : Stored d) (hd : Schema d) (h : Writes now input rev w σ d) (hv : Valid input)
    (hnames : ∀ m ∈ w.mechanic.toList, m.name ≠ "" ∧ trimSpace m.name = m.name)
    (hemploys : Employs w.record.mechanicID w.record.workshopID σ d) : Stored (σ.changes.foldl DB.apply d) := by
  have hnew : ∀ r ∈ d.serviceRecords, w.record.id ≠ r.id := fun r hr e =>
    serviceRecord_none.mp h.fresh.2.1 r hr e.symm
  have hrecord := h.record
  have hview := w.view d
  rw [← h.changes] at hview
  have hmechanics : (σ.changes.foldl DB.apply d).mechanics = d.mechanics ++ w.mechanic.toList := by rw [hview]
  have hops : ∀ id, (σ.changes.foldl DB.apply d).operationsOf id =
      d.operationsOf id ++ if w.record.id = id then w.operations.map fun t => ⟨w.record.id, t⟩ else [] := by
    intro id
    rw [hview, DB.operationsOf, List.filter_append]
    by_cases hid : w.record.id = id <;> simp [DB.operationsOf, List.filter_map, Function.comp_def, hid]
  have hparts : ∀ id, (σ.changes.foldl DB.apply d).partsOf id =
      d.partsOf id ++ if w.record.id = id then w.parts.map fun p => p.row w.record.id else [] := by
    intro id
    rw [hview, DB.partsOf, List.filter_append]
    by_cases hid : w.record.id = id <;> simp [DB.partsOf, Part.row, List.filter_map, Function.comp_def, hid]
  obtain ⟨hne, hnd⟩ := h.types hv
  refine ⟨fun r' hr' => ?_, fun r' hr' => ?_, ?_, fun p hp => ?_, fun r' hr' => ?_, fun m hm => ?_,
    fun r' hr' id hid => ?_, ?_, ?_, fun a ha => ?_⟩
  · obtain ⟨r, n, hr | rfl, rfl⟩ := h.record_after hr'
    · exact hS.records r hr
    · rw [hrecord]
      exact ⟨hv.mileageKm, hv.costCents, hv.notes⟩
  · obtain ⟨r, n, hr | rfl, rfl⟩ := h.record_after hr'
    · rw [hops]
      exact List.append_ne_nil_of_left_ne_nil (hS.operations r hr) _
    · rw [hops, if_pos rfl]
      exact List.append_ne_nil_of_right_ne_nil _ (by simpa using hne)
  · rw [hview]
    have hfresh : (w.operations.map fun t => (⟨w.record.id, t⟩ : OperationRow)).Nodup :=
      hnd.map fun t t' he => (OperationRow.mk.inj he).2
    refine List.nodup_append'.mpr ⟨hS.distinct, hfresh, fun o ho ho' => ?_⟩
    obtain ⟨t, -, rfl⟩ := List.mem_map.mp ho'
    obtain ⟨r, hr, hid⟩ := hd.operationRecord _ ho
    exact hnew r hr hid.symm
  · rw [hview] at hp
    rcases List.mem_append.mp hp with hp | hp
    · exact hS.parts p hp
    · obtain ⟨q, hq, rfl⟩ := List.mem_map.mp hp
      obtain ⟨hname, hlong, hqty, hcost⟩ := hv.parts q (h.parts ▸ hq)
      exact ⟨⟨hname, trimSpace_trimSpace _, (byteLen_trimSpace _).trans hlong⟩, hqty, hcost⟩
  · obtain ⟨r, n, hr | rfl, rfl⟩ := h.record_after hr'
    · rw [hparts, if_neg (hnew r hr), List.append_nil]
      exact hS.partCount r hr
    · have hnone : d.partsOf w.record.id = [] := by
        refine List.filter_eq_nil_iff.mpr fun p hp hid => ?_
        obtain ⟨r, hr, he⟩ := hd.partRecord p hp
        exact hnew r hr ((he.trans (by simpa using hid)).symm)
      rw [hparts, if_pos rfl, hnone, List.nil_append, List.length_map, h.parts]
      exact hv.parts_length
  · rw [hmechanics] at hm
    exact (List.mem_append.mp hm).elim (hS.mechanics m) (hnames m)
  · obtain ⟨r, n, hr | rfl, rfl⟩ := h.record_after hr'
    · obtain ⟨m, hm, hrow⟩ := hS.employed r hr id hid
      exact ⟨m, hmechanics ▸ List.mem_append_left _ hm, hrow⟩
    · obtain ⟨m, hm, hrow⟩ := hemploys id hid
      rw [h.insertedMechanics, ← hmechanics] at hm
      exact ⟨m, hm, hrow⟩
  · rw [hview]
    exact hS.vehicles
  · rw [hview]
    exact hS.chassis
  · rw [hview] at ha
    rcases List.mem_append.mp ha with ha | ha
    · exact hS.attachments a ha
    · cases hrep : w.replaced with
      | none => simp [hrep] at ha
      | some p =>
        obtain ⟨original, rows⟩ := p
        simp only [hrep, Option.elim_some] at ha
        obtain ⟨r, ids, o, -, -, rfl, -⟩ := h.original hrep
        obtain ⟨q, hq, rfl⟩ := List.mem_map.mp ha
        have hmem : q.1 ∈ d.attachmentsOf original := (List.mem_zipIdx' hq).2 ▸ List.getElem_mem _
        exact hS.attachments q.1 (mem_attachmentsOf.mp hmem).1

end

theorem soughtName_nonblank {name : Option String} {sought : String} (h : soughtName name = some sought) :
    sought ≠ "" := by
  cases name with
  | none => cases h
  | some typed =>
    by_cases hblank : (trimSpace typed == "") = true
    · rw [soughtName, if_pos hblank] at h
      cases h
    · rw [soughtName, if_neg hblank, Option.some.injEq] at h
      rw [← h]
      simpa using hblank

theorem Request.soughtMechanic_nonblank {q : Request} {workshopID : UUID} {name : String}
    (h : q.soughtMechanic = some (workshopID, name)) : name ≠ "" := by
  unfold Request.soughtMechanic at h
  cases hs : requireWorkshopID q.subject with
  | error e =>
    rw [hs] at h
    cases h
  | ok caller =>
    rw [hs] at h
    obtain ⟨sought, hsought, hpair⟩ := Option.map_eq_some_iff.mp h
    obtain rfl := congrArg Prod.snd hpair
    exact soughtName_nonblank hsought

theorem Upserts.names {P : Platform} {q : Request} {σ : SqlLocal} (h : Upserts P q.soughtMechanic σ) :
    ∀ m ∈ insertedMechanics σ.changes, m.name ≠ "" ∧ trimSpace m.name = m.name := by
  intro m hm
  cases h with
  | unnamed hsought hinserted => simp [hinserted] at hm
  | reused hsought hlookup hfound hinserted => simp [hinserted] at hm
  | inserted hsought hlookup hfound hinserted =>
    rw [hinserted, List.mem_singleton] at hm
    rw [hm]
    exact ⟨q.soughtMechanic_nonblank hsought, q.soughtMechanic_trimmed hsought⟩

/-- A plate of the right form is normalised already, as capitals and digits have no capitals of their own. -/
theorem normalizePlate_of_matches {P : Platform} (hupper : ∀ c, isUpperOrDigit c = true → P.toUpper c = c) {s : String}
    (h : matchesPlate s = true) : normalizePlate P s = s := by
  have hall : ∀ c ∈ s.toList, isUpperOrDigit c = true := by
    unfold matchesPlate at h
    split at h
    · rename_i hs
      rw [hs]
      simp only [Bool.and_eq_true] at h
      obtain ⟨⟨⟨⟨⟨⟨h₁, h₂⟩, h₃⟩, h₄⟩, h₅⟩, h₆⟩, h₇⟩ := h
      simp [isUpperOrDigit, h₁, h₂, h₃, h₄, h₆, h₇]
      simpa [isUpperOrDigit] using h₅
    · cases h
  have hkeep : ∀ c, isUpperOrDigit c = true → (c != '-' && c != ' ') = true := by
    intro c hc
    by_cases hdash : c = '-'
    · subst hdash; cases hc
    · by_cases hblank : c = ' '
      · subst hblank; cases hc
      · simp [hdash, hblank]
  have hfilter : s.toList.filter (fun c => c != '-' && c != ' ') = s.toList :=
    List.filter_eq_self.mpr fun c hc => hkeep c (hall c hc)
  have hmap : s.toList.map P.toUpper = s.toList :=
    (List.map_congr_left fun c hc => hupper c (hall c hc)).trans (List.map_id _)
  rw [normalizePlate, mapUpper, String.toList_ofList, hfilter, hmap, String.ofList_toList]

theorem VehicleInput.validate_eq_none {input : VehicleInput} {currentYear : Int} :
    input.validate currentYear = none ↔ matchesPlate input.plate = true ∧ matchesChassi input.chassi = true ∧
      (input.make ≠ "" ∧ input.make.length ≤ maxNameLength) ∧ (input.model ≠ "" ∧ input.model.length ≤ maxNameLength) ∧
        1950 ≤ input.year ∧ input.year ≤ currentYear + 1 := by
  simp [validate, refuse_eq_none]

section
variable {P : Platform} (hupper : ∀ c, isUpperOrDigit c = true → P.toUpper c = c)
  {q : Request} {a : Reply} {σ : SqlLocal} {d : DB}

include hupper in
theorem Stored.insertVehicle (hS : Stored d) {input : VehicleInput} {year : Int} (hv : input.validate year = none)
    (id : UUID) (hfree : ∀ u ∈ d.vehicles, u.chassi ≠ input.chassi) :
    Stored (d.apply (.insertVehicle (input.row P id))) := by
  obtain ⟨hplate, hchassi, hmake, hmodel, hyear, -⟩ := VehicleInput.validate_eq_none.mp hv
  refine { hS with
    vehicles := fun v hv => ?_
    chassis := ?_ }
  · rcases List.mem_append.mp hv with hv | hv
    · exact hS.vehicles v hv
    · rw [List.mem_singleton.mp hv, VehicleInput.row, normalizePlate_of_matches hupper hplate]
      exact ⟨hplate, hchassi, hmake, hmodel, hyear⟩
  · simp only [DB.apply, List.map_append, List.map_cons, List.map_nil]
    exact List.nodup_append'.mpr ⟨hS.chassis, List.nodup_singleton _, by simpa [VehicleInput.row] using hfree⟩

omit hupper in
theorem Stored.setCurrentOwner (hS : Stored d) (id : UUID) (owner : Option UUID) :
    Stored (d.apply (.setCurrentOwner id owner)) := by
  rw [apply_setCurrentOwner]
  refine { hS with
    vehicles := fun v hv => ?_
    chassis := ?_ }
  · obtain ⟨u, hu, rfl⟩ := List.mem_map.mp hv
    have hsame : ∃ o, setOwner id owner u = { u with currentOwnerID := o } := by
      by_cases hid : u.id = id
      · exact ⟨owner, if_pos hid⟩
      · exact ⟨u.currentOwnerID, if_neg hid⟩
    obtain ⟨o, ho⟩ := hsame
    rw [ho]
    exact hS.vehicles u hu
  · simpa [List.map_map, Function.comp_def] using hS.chassis

include hupper in
theorem Done.stored (h : Done P q a σ d) (hu : Upserts P q.soughtMechanic σ) (ha : Admits P q σ d) (hd : Schema d)
    (hS : Stored d) : Stored (σ.changes.foldl DB.apply d) := by
  have record : ∀ {now input rev w}, Writes now input rev w σ d → Valid input → RecordEmploys σ d →
      Stored (σ.changes.foldl DB.apply d) := by
    intro now input rev w hw hv ⟨r, hr, hemploys⟩
    obtain rfl : r = w.record := by
      have hmem : r ∈ insertedRecords σ.changes := List.mem_filterMap.mpr ⟨_, hr, rfl⟩
      simpa [hw.changes, Written.insertedRecords_changes] using hmem
    exact hS.writes hd hw hv (hw.insertedMechanics ▸ hu.names) hemploys
  cases h with
  | create session writes =>
    obtain ⟨hmsg, hemploys⟩ := ha
    exact record writes ((hmsg _ session).valid _ _ _) hemploys
  | revise session found writes =>
    obtain ⟨hmsg, hemploys⟩ := ha
    exact record writes ((hmsg _ session).valid _ _ _) hemploys
  | upload session form attaches =>
    obtain ⟨hkind, hphase, honly⟩ := attachmentKind_columns form
    rw [attaches.changes]
    refine { hS with attachments := fun b hb => ?_ }
    rcases List.mem_append.mp hb with hb | hb
    · exact hS.attachments b hb
    · rw [List.mem_singleton.mp hb]
      refine ⟨by simpa using hkind, fun p hp => ?_⟩
      dsimp only at hp ⊢
      rw [hp] at hphase honly
      exact ⟨by simpa using honly, by simpa using hphase⟩
  | register registers =>
    obtain ⟨hvalid, hchassi⟩ := ha
    have hfree := (hchassi _ (registers.changes ▸ List.mem_singleton_self _)).2
    rw [registers.changes]
    exact hS.insertVehicle hupper hvalid _ hfree
  | claim session plate suffix claims =>
    rw [claims.changes]
    exact hS.setCurrentOwner _ _
  | release session releases =>
    rw [releases.changes]
    exact hS.setCurrentOwner _ _

theorem vehicles_view (w : List Change) : ∀ d : DB, ∀ v ∈ (w.foldl DB.apply d).vehicles,
    ∃ u, (u ∈ d.vehicles ∨ Change.insertVehicle u ∈ w) ∧ u.chassi = v.chassi := by
  induction w with
  | nil => exact fun d v hv => ⟨v, Or.inl hv, rfl⟩
  | cons c w ih =>
    intro d v hv
    obtain ⟨u, hu | hu, hc⟩ := ih (d.apply c) v hv
    · cases c with
      | insertVehicle new =>
        rcases List.mem_append.mp hu with hu | hu
        · exact ⟨u, Or.inl hu, hc⟩
        · exact ⟨u, Or.inr (List.mem_singleton.mp hu ▸ List.mem_cons_self), hc⟩
      | setCurrentOwner id owner =>
        rw [apply_setCurrentOwner] at hu
        obtain ⟨u', hu', rfl⟩ := List.mem_map.mp hu
        refine ⟨u', Or.inl hu', Eq.trans ?_ hc⟩
        unfold setOwner
        split <;> rfl
      | _ => exact ⟨u, Or.inl hu, hc⟩
    · exact ⟨u, Or.inr (List.mem_cons_of_mem _ hu), hc⟩

theorem Written.no_vehicle (w : Written) (v : VehicleRow) : Change.insertVehicle v ∉ w.changes := by
  cases hm : w.mechanic <;> cases hr : w.replaced <;>
    simp [Written.changes, Written.mechanicChanges, Written.operationChanges, Written.partChanges,
      Written.replacedChanges, hm, hr]

theorem Admits.chassi (h : Admits P q σ d) (hdone : Done P q a σ d) :
    ∀ v, Change.insertVehicle v ∈ σ.changes → σ.held (.chassi v.chassi) := by
  intro v hv
  cases hdone with
  | create session writes => exact absurd (writes.changes ▸ hv) (Written.no_vehicle _ v)
  | revise session found writes => exact absurd (writes.changes ▸ hv) (Written.no_vehicle _ v)
  | upload session form attaches =>
    rw [attaches.changes] at hv
    simp at hv
  | register registers => exact (h.2 v hv).1
  | claim session plate suffix claims =>
    rw [claims.changes] at hv
    simp at hv
  | release session releases =>
    rw [releases.changes] at hv
    simp at hv

end

/-- Every commit leaves rows within the limits, and leaves alone what others count on. -/
theorem storing_discipline (P : Platform) (hupper : ∀ c, isUpperOrDigit c = true → P.toUpper c = c) :
    Discipline (server P) storing fun q a σ d => (Done P q a σ d ∧ Upserts P q.soughtMechanic σ) ∧ Admits P q σ d :=
  (mechanics_discipline P).narrow (fun _ h => h.1) (fun _ _ _ h => h.keeps)
    (fun q d _ => wp_serve_admits P q d)
    (fun _ _ _ _ _ h hr hi => h.stable hr hi)
    (fun q a σ d h ha hi => ⟨(mechanics_discipline P).keep q a σ d h hi.1, h.1.stored hupper h.2 ha hi.1 hi.2⟩)
    fun q a σ d H h ha hi hH => by
      refine ⟨(mechanics_discipline P).guar q a σ d H h hi.1 hH, fun m hm => ?_, fun c hc hfree v hv hsame => ?_⟩
      · exact mechanics_view σ.changes d ▸ List.mem_append_left _ hm
      · obtain ⟨u, hu | hu, hchassi⟩ := vehicles_view σ.changes d v hv
        · exact hfree u hu (hchassi.trans hsame)
        · exact hH.not_held (hsame ▸ hchassi ▸ ha.chassi h.1 u hu) (conflict_update _) hc

/-- A database within the limits. -/
structure Stocked extends SoundDB where
  stored : Stored db

/-- Throughout every run, whatever is committed in whatever order, every row is within the
limits, every record has operations and its mechanic works for its shop. -/
theorem stored_in_every_run (P : Platform) (hupper : ∀ c, isUpperOrDigit c = true → P.toUpper c = c) (init : Stocked)
    (es : List ServerEvent) : Stored (serverRun P init.toSoundDB es).db :=
  ((good_init (ρ := storing) ⟨init.schema, init.stored⟩).run (storing_discipline P hupper) es).inv.2

theorem toUpper_of_isUpperOrDigit {c : Char} (h : isUpperOrDigit c = true) : c.toUpper = c := by
  have hbelow : ¬ ('a'.val ≤ c.val ∧ c.val ≤ 'z'.val) := by
    intro hlow
    have hnot : c ≤ 'Z' ∨ c ≤ '9' := by
      simp only [isUpperOrDigit, isUpperASCII, isDigitASCII, Bool.or_eq_true, Bool.and_eq_true, decide_eq_true_eq] at h
      exact h.imp And.right And.right
    rcases hnot with hle | hle
    · exact absurd (UInt32.le_trans hlow.1 hle) (by decide)
    · exact absurd (UInt32.le_trans hlow.1 hle) (by decide)
  exact dif_neg hbelow

def stockedGarage : Stocked where
  toSoundDB := garage
  stored := ⟨nofun, nofun, List.nodup_nil, nofun, nofun, nofun, nofun, by decide, by decide, nofun⟩

/-- The bike's shop saves a record while another shop's is under way. -/
theorem stored_in_garage : Stored (serverRun plain stockedGarage.toSoundDB
    ([.begin 0 (createRequest "1" 1000 false), .begin 1 (createRequest "2" 2000 false)] ++
      List.replicate 6 (.exec 0 fun _ => uuid "7") ++ [.commit 0])).db :=
  stored_in_every_run plain (fun _ => toUpper_of_isUpperOrDigit) stockedGarage _

end Mototeca
