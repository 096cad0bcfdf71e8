import Mototeca.ServerSound
import Mototeca.Trimming

/-!
# One row for each mechanic

`upsertMechanic` looks a name up in one statement and inserts it in a later one.
No index and no lock stand behind the two, so the row is the only one of its name
exactly when no other transaction committed the name between the lookup and the
commit.
-/

namespace Mototeca

open ReadCommitted

/-! ## Names of mechanics -/

def OneRowPerMechanic (P : Platform) (d : DB) : Prop :=
  d.mechanics.Pairwise fun m m' =>
    m.workshopID = m'.workshopID → P.lower (trimSpace m.name) ≠ P.lower (trimSpace m'.name)

instance (P : Platform) (d : DB) : Decidable (OneRowPerMechanic P d) :=
  inferInstanceAs (Decidable (d.mechanics.Pairwise _))

def NamesTrimmed (d : DB) : Prop := ∀ m ∈ d.mechanics, trimSpace m.name = m.name

/-- The row that the lookup of `upsertMechanic` finds. -/
def DB.mechanicNamed (d : DB) (P : Platform) (workshopID : UUID) (name : String) : Option MechanicRow :=
  d.mechanics.find? fun m => m.workshopID == workshopID && P.lower m.name == P.lower name

def Call.mechanicName : Call → Option String
  | .createServiceRecord req => req.mechanicName
  | .reviseServiceRecord req => req.mechanicName
  | _ => none

def soughtName : Option String → Option String
  | none => none
  | some name => if trimSpace name == "" then none else some (trimSpace name)

def Request.soughtMechanic (q : Request) : Option (UUID × String) :=
  match requireWorkshopID q.subject with
  | .ok workshopID => (soughtName q.call.mechanicName).map fun name => (workshopID, name)
  | .error _ => none

/-- The lookup of `e` found no mechanic of that name in the shop; by its commit
another transaction had committed one. -/
def OvertakenSinceLookup (P : Platform) (d : DB) (e : Commit) : Prop :=
  ∃ workshopID name v, e.req.soughtMechanic = some (workshopID, name) ∧ (Stmt.mechanicByName, v) ∈ e.seen ∧
    v.mechanicNamed P workshopID name = none ∧ (d.mechanicNamed P workshopID name).isSome = true

def Change.mechanic : Change → Option MechanicRow
  | .insertMechanic m => some m
  | _ => none

def insertedMechanics (w : List Change) : List MechanicRow := w.filterMap Change.mechanic

theorem mechanics_view (w : List Change) : ∀ d : DB,
    (w.foldl DB.apply d).mechanics = d.mechanics ++ insertedMechanics w := by
  induction w with
  | nil => exact fun d => (List.append_nil _).symm
  | cons c w ih =>
    intro d
    rw [List.foldl_cons, ih]
    cases c with
    | insertMechanic m => exact List.append_assoc d.mechanics [m] _
    | _ => rfl

theorem insertedMechanics_append (w₁ w₂ : List Change) :
    insertedMechanics (w₁ ++ w₂) = insertedMechanics w₁ ++ insertedMechanics w₂ :=
  List.filterMap_append

theorem insertedMechanics_eq_nil {w : List Change} (h : ∀ c ∈ w, c.mechanic = none) : insertedMechanics w = [] :=
  List.filterMap_eq_nil_iff.mpr h

theorem trimSpace_trimSpace (s : String) : trimSpace (trimSpace s) = trimSpace s := by
  rw [← String.toList_inj]
  simp only [trimSpace, String.toList_ofList]
  exact Trimming.trimBoth_trimBoth s.toList

theorem soughtName_some {name : Option String} {sought : String} (h : soughtName name = some sought) :
    trimSpace sought = sought := by
  cases name with
  | none => cases h
  | some typed =>
    by_cases hblank : (trimSpace typed == "") = true
    · rw [soughtName, if_pos hblank] at h
      cases h
    · rw [soughtName, if_neg hblank, Option.some.injEq] at h
      rw [← h, trimSpace_trimSpace]

/-! ## What a call does about its mechanic -/

/-- Nothing is looked up, the row found is used, or the name is inserted after a
lookup that found none. -/
inductive Upserts (P : Platform) (sought : Option (UUID × String)) (σ : SqlLocal) : Prop
  | unnamed (hsought : sought = none) (hinserted : insertedMechanics σ.changes = [])
  | reused {workshopID : UUID} {name : String} {v : DB} {m : MechanicRow} (hsought : sought = some (workshopID, name))
    (hlookup : ∀ v', (Stmt.mechanicByName, v') ∈ σ.seen ↔ v' = v) (hfound : v.mechanicNamed P workshopID name = some m)
    (hinserted : insertedMechanics σ.changes = [])
  | inserted {workshopID id : UUID} {name : String} {v : DB} (hsought : sought = some (workshopID, name))
    (hlookup : ∀ v', (Stmt.mechanicByName, v') ∈ σ.seen ↔ v' = v) (hfound : v.mechanicNamed P workshopID name = none)
    (hinserted : insertedMechanics σ.changes = [⟨id, workshopID, name⟩])

/-- A body that neither looks a mechanic up nor inserts one. -/
abbrev LeavesMechanics {ε α : Type} (p : Sql ε α) : Prop :=
  p.Only (fun name => name ≠ .mechanicByName) fun c => c.mechanic = none

abbrev SqlGrows (σ σ' : SqlLocal) : Prop :=
  σ.Grows (fun name => name ≠ Stmt.mechanicByName) (fun c => c.mechanic = none) σ'

section
variable {σ σ' : SqlLocal}

theorem SqlGrows.lookup (h : SqlGrows σ σ') (v : DB) :
    (Stmt.mechanicByName, v) ∈ σ'.seen ↔ (Stmt.mechanicByName, v) ∈ σ.seen := by
  obtain ⟨seen, hseen, hother⟩ := h.seen
  rw [hseen, List.mem_append, or_iff_left]
  exact fun hv => hother _ hv rfl

theorem SqlGrows.inserted (h : SqlGrows σ σ') : insertedMechanics σ'.changes = insertedMechanics σ.changes := by
  obtain ⟨w, hw, hother⟩ := h.changes
  rw [hw, insertedMechanics_append, insertedMechanics_eq_nil hother, List.append_nil]

theorem Upserts.grows {P : Platform} {sought : Option (UUID × String)} (h : Upserts P sought σ)
    (hgrows : SqlGrows σ σ') : Upserts P sought σ' := by
  cases h with
  | unnamed hsought hinserted => exact .unnamed hsought (hgrows.inserted.trans hinserted)
  | reused hsought hlookup hfound hinserted =>
    exact .reused hsought (fun v => (hgrows.lookup v).trans (hlookup v)) hfound (hgrows.inserted.trans hinserted)
  | inserted hsought hlookup hfound hinserted =>
    exact .inserted hsought (fun v => (hgrows.lookup v).trans (hlookup v)) hfound (hgrows.inserted.trans hinserted)

end

/-! ## The statements before and after the lookup -/

theorem leaves_eachRow {β : Type} (target : β → UUID × (ServiceRecord → ServiceRecord)) (rows : List β) :
    ∀ records, LeavesMechanics (eachRow target rows records) := by
  induction rows with
  | nil => exact fun _ => trivial
  | cons row rows ih =>
    intro records
    rw [eachRow]
    cases updateIndexed (target row).1 (target row).2 records with
    | none => trivial
    | some records' => exact ih records'

theorem leaves_hydrate (P : Platform) (records : List ServiceRecord) : LeavesMechanics (hydrate P records) := by
  unfold hydrate
  by_cases hempty : records.isEmpty = true
  · rw [if_pos hempty]
    trivial
  · rw [if_neg hempty]
    refine Prog.Only.bind (fun opRows => ?_) (Prog.only_query (by decide) _)
    refine Prog.Only.bind (fun records => ?_) (leaves_eachRow _ _ _)
    refine Prog.Only.bind (fun partRows => ?_) (Prog.only_query (by decide) _)
    refine Prog.Only.bind (fun records => ?_) (leaves_eachRow _ _ _)
    exact Prog.Only.bind (fun attachmentRows => leaves_eachRow _ _ _) (Prog.only_query (by decide) _)

theorem leaves_selectRecords (where_ : ServiceRecordRow → Bool) : LeavesMechanics (selectRecords where_) := by
  refine ⟨by decide, fun o d => ⟨nofun, ?_⟩⟩
  dsimp only
  cases d.selectRecords (d.serviceRecords.filter where_) <;> trivial

theorem leaves_findByID (P : Platform) (id : Bytes) : LeavesMechanics (findByID P id) := by
  unfold findByID
  by_cases hid : (!validID id) = true
  · rw [if_pos hid]
    trivial
  · rw [if_neg hid]
    refine Prog.Only.bind (fun records => ?_) (leaves_selectRecords _)
    by_cases hempty : records.isEmpty = true
    · rw [if_pos hempty]
      trivial
    · rw [if_neg hempty]
      refine Prog.Only.bind (fun records => ?_) (leaves_hydrate P records)
      trivial

theorem leaves_checkRevisable (rev : Revision) : LeavesMechanics (checkRevisable rev) := by
  unfold checkRevisable
  by_cases hid : (!validID rev.recordID) = true
  · rw [if_pos hid]
    trivial
  · rw [if_neg hid]
    refine Prog.Only.bind (fun found => ?_) (Prog.only_queryForUpdate (by decide) _ _)
    cases found with
    | none => trivial
    | some r =>
      dsimp only
      by_cases howner : r.workshopID ≠ rev.workshopID
      · rw [if_pos howner]
        trivial
      · rw [if_neg howner]
        cases r.supersededBy.isSome <;> trivial

theorem leaves_revisable (rev : Option Revision) : LeavesMechanics (revisable rev) := by
  cases rev with
  | none => trivial
  | some r => exact leaves_checkRevisable r

theorem leaves_selectVehicle (plate : String) : LeavesMechanics (selectVehicle plate) := by
  unfold selectVehicle
  by_cases htext : DB.storable plate = true
  · rw [if_pos htext]
    exact Prog.only_query (by decide) _
  · rw [if_neg htext]
    trivial

theorem leaves_checkMileage (vehicleID : UUID) (mileageKm : Int) : LeavesMechanics (checkMileage vehicleID mileageKm) := by
  refine Prog.Only.bind (fun highest => ?_) (Prog.only_query (by decide) _)
  cases highest with
  | none => trivial
  | some h =>
    dsimp only
    by_cases hlow : mileageKm < h
    · rw [if_pos hlow]
      trivial
    · rw [if_neg hlow]
      trivial

theorem leaves_odometer (input : CreateInput) (rev : Option Revision) (vehicleID : UUID) :
    LeavesMechanics (odometer input rev vehicleID) := by
  unfold odometer
  by_cases hcheck : (rev.isNone && !input.confirmLowerMileage) = true
  · rw [if_pos hcheck]
    exact leaves_checkMileage vehicleID input.mileageKm
  · rw [if_neg hcheck]
    trivial

theorem leaves_insertServiceRecord (input : CreateInput) (now : Time) (vehicleID : UUID) (mechanicID : Option UUID) :
    LeavesMechanics (insertServiceRecord input now vehicleID mechanicID) :=
  Prog.only_write (by decide) _ _ _ (fun o d => by simp [Change.mechanic]) _

theorem leaves_insertOperations (recordID : UUID) (ops : List Operation) :
    LeavesMechanics (insertOperations recordID ops) := by
  induction ops with
  | nil => trivial
  | cons op ops ih =>
    rw [insertOperations]
    cases ServiceType.parse op.raw with
    | none => exact Prog.only_write (by decide) _ _ _ (fun o d c hc => (List.not_mem_nil hc).elim) _
    | some t =>
      exact Prog.Only.bind (fun _ => ih) (Prog.only_write (by decide) _ _ _ (fun o d => by simp [Change.mechanic]) _)

theorem leaves_insertParts (recordID : UUID) (parts : List Part) : LeavesMechanics (insertParts recordID parts) := by
  induction parts with
  | nil => trivial
  | cons part parts ih =>
    exact Prog.Only.bind (fun _ => ih) (Prog.only_write (by decide) _ _ _ (fun o d => by simp [Change.mechanic]) _)

theorem leaves_replaceOriginal (rev : Option Revision) (recordID : UUID) :
    LeavesMechanics (replaceOriginal rev recordID) := by
  cases rev with
  | none => trivial
  | some r =>
    refine Prog.Only.bind (fun _ => ?_) (Prog.only_write (by decide) _ _ _ (fun o d => by simp [Change.mechanic]) _)
    exact Prog.only_write (by decide) _ _ _ (fun o d => by simp [Change.mechanic]) _

/-! ## The lookup -/

section
variable {ρ : Rules DB Key} {P : Platform}

theorem wp_leaves {ε α : Type} {p : Sql ε α} (h : LeavesMechanics p) (σ : SqlLocal) (d : DB) :
    wp DB.apply ρ (fun _ σ' _ => SqlGrows σ σ') p σ d := wp_only p σ d h

def Unsought (σ : SqlLocal) : Prop := insertedMechanics σ.changes = [] ∧ ∀ v, (Stmt.mechanicByName, v) ∉ σ.seen

theorem Unsought.grows {σ σ' : SqlLocal} (h : Unsought σ) (hgrows : SqlGrows σ σ') : Unsought σ' :=
  ⟨hgrows.inserted.trans h.1, fun v hv => h.2 v ((hgrows.lookup v).mp hv)⟩

theorem wp_upsertMechanic_upserts (workshopID : UUID) (name : Option String) {σ : SqlLocal} {d : DB} (hσ : Unsought σ) :
    wp DB.apply ρ (fun _ σ _ => Upserts P ((soughtName name).map fun name => (workshopID, name)) σ)
      (upsertMechanic P workshopID name) σ d := by
  cases name with
  | none => exact wp_ret (.unnamed rfl hσ.1)
  | some typed =>
    rw [upsertMechanic, soughtName]
    by_cases hblank : (trimSpace typed == "") = true
    · rw [if_pos hblank, if_pos hblank]
      exact wp_ret (.unnamed rfl hσ.1)
    rw [if_neg hblank, if_neg hblank]
    by_cases htext : (!DB.storable (trimSpace typed)) = true
    · rw [if_pos htext]
      exact wp_fail
    rw [if_neg htext]
    let Looked (found : Option MechanicRow) (σ : SqlLocal) : Prop := insertedMechanics σ.changes = [] ∧
      ∃ v, (∀ v', (Stmt.mechanicByName, v') ∈ σ.seen ↔ v' = v) ∧ v.mechanicNamed P workshopID (trimSpace typed) = found
    refine wp_then (P := fun found σ _ => Looked found σ) (wp_query fun d' _ _ => ?_)
      fun found σ₁ d₁ hlooked => ?_
    · refine ⟨by simpa using hσ.1, _, fun v' => ?_, rfl⟩
      simp [hσ.2 v']
    · obtain ⟨hnone, v, hlookup, hfound⟩ := hlooked
      cases found with
      | some m => exact wp_ret (.reused rfl hlookup hfound hnone)
      | none =>
        refine wp_write fun d' _ _ o _ => ?_
        have hinserted : insertedMechanics (σ₁.changes ++ [.insertMechanic ⟨o 0, workshopID, trimSpace typed⟩]) =
            [⟨o 0, workshopID, trimSpace typed⟩] := by
          rw [insertedMechanics_append, hnone]
          rfl
        exact .inserted rfl (fun v' => by simp [hlookup v']) hfound hinserted

theorem wp_write_upserts (now : Time) (input : CreateInput) (rev : Option Revision) {σ : SqlLocal} {d : DB}
    (hσ : Unsought σ) :
    wp DB.apply ρ (fun _ σ _ => Upserts P ((soughtName input.mechanicName).map fun name => (input.workshopID, name)) σ)
      (write P now input rev) σ d := by
  rw [write_eq]
  refine wp_then (wp_leaves (leaves_revisable rev) σ d) fun _ σ₁ d₁ h₁ => ?_
  refine wp_then (wp_leaves (leaves_selectVehicle input.plate) σ₁ d₁) fun vehicle σ₂ d₂ h₂ => ?_
  cases vehicle with
  | none => exact wp_fail
  | some v =>
    refine wp_then (wp_leaves (leaves_odometer input rev v.id) σ₂ d₂) fun _ σ₃ d₃ h₃ => ?_
    have hbefore : Unsought σ₃ := ((hσ.grows h₁).grows h₂).grows h₃
    refine wp_then (wp_upsertMechanic_upserts input.workshopID input.mechanicName hbefore)
      fun mechanicID σ₄ d₄ h₄ => ?_
    refine wp_then (wp_leaves (leaves_insertServiceRecord input now v.id mechanicID) σ₄ d₄) fun id σ₅ d₅ h₅ => ?_
    refine wp_then (wp_leaves (leaves_insertOperations id input.operations) σ₅ d₅) fun _ σ₆ d₆ h₆ => ?_
    refine wp_then (wp_leaves (leaves_insertParts id input.parts) σ₆ d₆) fun _ σ₇ d₇ h₇ => ?_
    refine wp_then (wp_leaves (leaves_replaceOriginal rev id) σ₇ d₇) fun _ σ₈ d₈ h₈ => ?_
    exact wp_ret ((((h₄.grows h₅).grows h₆).grows h₇).grows h₈)

end

/-! ## Every commit -/

theorem unsought_start : Unsought (Local.start : SqlLocal) := ⟨rfl, fun _ hv => (List.not_mem_nil hv).elim⟩

theorem Done.inserts_no_mechanic {P : Platform} {q : Request} {a : Reply} {σ : SqlLocal} {d : DB} (h : Done P q a σ d)
    (hcall : (∀ req, q.call ≠ .createServiceRecord req) ∧ ∀ req, q.call ≠ .reviseServiceRecord req) :
    insertedMechanics σ.changes = [] := by
  cases h with
  | create session writes => exact absurd rfl (hcall.1 _)
  | revise session found writes => exact absurd rfl (hcall.2 _)
  | upload session form attaches => rw [attaches.changes]; rfl
  | register registers => rw [registers.changes]; rfl
  | claim session plate suffix claims => rw [claims.changes]; rfl
  | release session releases => rw [releases.changes]; rfl

section
variable {P : Platform}

theorem wp_createServiceRecord_upserts (now : Time) (workshopID : Bytes) (req : CreateServiceRecordRequest) (d : DB) :
    wp DB.apply pg (fun _ σ _ => Upserts P ((soughtName req.mechanicName).map fun name => (workshopID, name)) σ)
      (createServiceRecord P now workshopID req) .start d := by
  unfold createServiceRecord
  dsimp only
  have hwrite := wp_write_upserts (P := P) (ρ := pg) (d := d) now
    (req.input workshopID (normalizePlate P req.plate) none req.confirmLowerMileage) none unsought_start
  cases (req.input workshopID (normalizePlate P req.plate) none req.confirmLowerMileage).validate with
  | some message => exact wp_fail
  | none => exact wp_mapFail _ _ _ _ hwrite

theorem wp_reviseServiceRecord_upserts (now : Time) (workshopID : Bytes) (req : ReviseServiceRecordRequest) (d : DB) :
    wp DB.apply pg (fun _ σ _ => Upserts P ((soughtName req.mechanicName).map fun name => (workshopID, name)) σ)
      (reviseServiceRecord P now workshopID req) .start d := by
  unfold reviseServiceRecord
  by_cases hempty : req.recordID = []
  · rw [if_pos hempty]
    exact wp_fail
  rw [if_neg hempty]
  refine wp_then (wp_leaves (Prog.Only.mapFail _ (leaves_findByID P req.recordID)) .start d) fun found σ₁ d₁ h₁ => ?_
  cases found with
  | none => exact wp_fail
  | some original =>
    dsimp only
    have hwrite := wp_write_upserts (P := P) (ρ := pg) (d := d₁) now
      (req.input workshopID original.vehicle.plate (some req.recordID) false) (some ⟨workshopID, req.recordID⟩)
      (unsought_start.grows h₁)
    cases (req.input workshopID original.vehicle.plate (some req.recordID) false).validate with
    | some message => exact wp_fail
    | none => exact wp_mapFail _ _ _ _ hwrite

theorem wp_serve_upserts (q : Request) (d : DB) :
    wp DB.apply pg (fun _ σ _ => Upserts P q.soughtMechanic σ) (serve P q) .start d := by
  have hother (hcreate : ∀ req, q.call ≠ .createServiceRecord req) (hrevise : ∀ req, q.call ≠ .reviseServiceRecord req)
      (hname : q.call.mechanicName = none) :
      wp DB.apply pg (fun _ σ _ => Upserts P q.soughtMechanic σ) (serve P q) .start d := by
    refine wp_mono (fun a σ d' h => .unnamed ?_ (h.inserts_no_mechanic ⟨hcreate, hrevise⟩)) _ _ _ (wp_serve P q d)
    unfold Request.soughtMechanic
    rw [hname]
    cases requireWorkshopID q.subject <;> rfl
  obtain ⟨subject, now, call⟩ := q
  cases call with
  | createServiceRecord req =>
    refine wp_withSession fun workshopID hs => ?_
    simp only [Request.soughtMechanic, hs, Call.mechanicName]
    exact wp_then (wp_createServiceRecord_upserts now workshopID req d) fun id σ d h => wp_ret h
  | reviseServiceRecord req =>
    refine wp_withSession fun workshopID hs => ?_
    simp only [Request.soughtMechanic, hs, Call.mechanicName]
    exact wp_then (wp_reviseServiceRecord_upserts now workshopID req d) fun id σ d h => wp_ret h
  | upload req => exact hother nofun nofun rfl
  | createVehicle req => exact hother nofun nofun rfl
  | claimVehicle req => exact hother nofun nofun rfl
  | releaseVehicle plate => exact hother nofun nofun rfl

end

/-- Every commit has established what it did about its mechanic besides. -/
theorem mechanics_discipline (P : Platform) :
    Discipline (server P) pg fun q a σ d => Done P q a σ d ∧ Upserts P q.soughtMechanic σ :=
  (server_discipline P).and (fun q d _ => wp_serve_upserts q d) fun _ _ _ _ _ h _ _ => h

theorem Request.soughtMechanic_trimmed {q : Request} {workshopID : UUID} {name : String}
    (h : q.soughtMechanic = some (workshopID, name)) : trimSpace name = name := by
  unfold Request.soughtMechanic at h
  cases hs : requireWorkshopID q.subject with
  | error e =>
    rw [hs] at h
    cases h
  | ok caller =>
    rw [hs] at h
    obtain ⟨sought, hsought, hpair⟩ := Option.map_eq_some_iff.mp h
    obtain rfl := congrArg Prod.snd hpair
    exact soughtName_some hsought

theorem NamesTrimmed.commit {P : Platform} {q : Request} {σ : SqlLocal} {d : DB} (h : Upserts P q.soughtMechanic σ)
    (hd : NamesTrimmed d) : NamesTrimmed (σ.changes.foldl DB.apply d) := by
  intro m hm
  rw [mechanics_view] at hm
  rcases List.mem_append.mp hm with hm | hm
  · exact hd m hm
  · cases h with
    | unnamed hsought hinserted => simp [hinserted] at hm
    | reused hsought hlookup hfound hinserted => simp [hinserted] at hm
    | inserted hsought hlookup hfound hinserted =>
      rw [hinserted, List.mem_singleton] at hm
      rw [hm]
      exact q.soughtMechanic_trimmed hsought

theorem mechanicNamed_eq_none {P : Platform} {d : DB} (hd : NamesTrimmed d) {workshopID : UUID} {name : String} :
    d.mechanicNamed P workshopID name = none ↔
      ∀ m ∈ d.mechanics, m.workshopID = workshopID → P.lower (trimSpace m.name) ≠ P.lower name := by
  rw [DB.mechanicNamed, List.find?_eq_none]
  refine forall₂_congr fun m hm => ?_
  rw [hd m hm, Bool.and_eq_true, beq_iff_eq, beq_iff_eq, not_and]

/-- A commit adds no second row of a name exactly when none was committed since
its lookup. -/
theorem oneRowPerMechanic_commit {P : Platform} {q : Request} {a : Reply} {σ : SqlLocal} {d : DB}
    (h : Upserts P q.soughtMechanic σ) (htrimmed : NamesTrimmed d) (hd : OneRowPerMechanic P d) :
    OneRowPerMechanic P (σ.changes.foldl DB.apply d) ↔ ¬ OvertakenSinceLookup P d ⟨q, a, σ.changes, σ.seen⟩ := by
  rw [OneRowPerMechanic, mechanics_view]
  cases h with
  | unnamed hsought hinserted =>
    rw [hinserted, List.append_nil]
    refine iff_of_true hd ?_
    intro hover
    obtain ⟨workshopID, name, v, hs, -⟩ := hover
    rw [hsought] at hs
    cases hs
  | reused hsought hlookup hfound hinserted =>
    rw [hinserted, List.append_nil]
    refine iff_of_true hd ?_
    intro hover
    obtain ⟨workshopID, name, v, hs, hseen, hnone, -⟩ := hover
    obtain ⟨rfl, rfl⟩ := Prod.mk.inj (Option.some.inj (hsought.symm.trans hs))
    obtain rfl := (hlookup v).mp hseen
    rw [hfound] at hnone
    cases hnone
  | @inserted workshopID id name v hsought hlookup hfound hinserted =>
    have hname : trimSpace name = name := q.soughtMechanic_trimmed hsought
    have hover : OvertakenSinceLookup P d ⟨q, a, σ.changes, σ.seen⟩ ↔
        (d.mechanicNamed P workshopID name).isSome = true := by
      constructor
      · intro hover
        obtain ⟨workshopID', name', v', hs, -, -, hsome⟩ := hover
        obtain ⟨rfl, rfl⟩ := Prod.mk.inj (Option.some.inj (hsought.symm.trans hs))
        exact hsome
      · intro hsome
        exact ⟨workshopID, name, v, hsought, (hlookup v).mpr rfl, hfound, hsome⟩
    rw [hover, Bool.not_eq_true, Option.isSome_eq_false_iff, Option.isNone_iff_eq_none, mechanicNamed_eq_none htrimmed,
      hinserted, List.pairwise_append]
    simp only [List.pairwise_singleton, List.mem_singleton, forall_eq, true_and, hname]
    exact and_iff_right hd

/-- The shops keep one row for each mechanic throughout a run exactly when no
transaction of the run is overtaken between its lookup and its commit. -/
theorem oneRowPerMechanic_iff (P : Platform) (init : SoundDB) (es : List ServerEvent) (htrimmed : NamesTrimmed init.db)
    (hinit : OneRowPerMechanic P init.db) :
    (∀ n, OneRowPerMechanic P (serverRun P init (es.take n)).db) ↔
      (server P).EveryCommit (Machine.init init.db) es fun d e => ¬ OvertakenSinceLookup P d e :=
  everyCommit_iff (F := OneRowPerMechanic P) (R := fun d e => ¬ OvertakenSinceLookup P d e)
    (mechanics_discipline P) (fun _ _ _ _ _ h hd => hd.commit h.2)
    (fun _ _ a _ _ h htr hd => oneRowPerMechanic_commit (a := a) h.2 htr hd) es (good_init init.schema) htrimmed
    hinit

/-! ## Two records saved at once -/

def mechanicRequest (name : String) : Request :=
  ⟨some ⟨.workshop, uuid "1"⟩, 0, .createServiceRecord ⟨⟨some name, [1], 50000, none, none, []⟩, "ABC1D23", false⟩⟩

def mechanicStatements (t : Nat) (id : String) : List ServerEvent := List.replicate 6 (.exec t fun _ => uuid id)

def sameMechanicTwice : List ServerEvent :=
  [.begin 0 (mechanicRequest "José"), .begin 1 (mechanicRequest " José")] ++ mechanicStatements 0 "7" ++
    mechanicStatements 1 "8" ++ [.commit 0, .commit 1]

theorem sameMechanicTwice_two_rows : ¬ OneRowPerMechanic plain (serverRun plain garage sameMechanicTwice).db := by
  decide +kernel

theorem oneRowPerMechanic_sameMechanicTwice :
    (∀ n, OneRowPerMechanic plain (serverRun plain garage (sameMechanicTwice.take n)).db) ↔
      (server plain).EveryCommit (Machine.init garage.db) sameMechanicTwice fun d e =>
        ¬ OvertakenSinceLookup plain d e :=
  oneRowPerMechanic_iff plain garage sameMechanicTwice nofun List.Pairwise.nil

end Mototeca
