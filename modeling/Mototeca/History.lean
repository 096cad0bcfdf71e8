import Mototeca.Corrections
import Mototeca.Hydration
import Mototeca.Revisions
import Mototeca.UploadRoute

/-!
# What a reader of the history sees

The read handlers run each query on its own, so others may commit between two
of them. A record never changes but for what replaces it and the files added to
it, so an answer shows one moment, with the attachments of a later one.
-/

namespace Mototeca

open ReadCommitted OrderedQuery

/-! ## Queries -/

/-- The answers of one server to the queries of the read handlers. -/
structure ReadServer (P : Platform) extends HydrateServer P where
  newest : (ServiceRecordRow → Bool) → DB → List ServiceRecordRow
  orders_newest : ∀ where_ d,
    Answers (fun a b => b.createdAt ≤ a.createdAt) (d.serviceRecords.filter where_) (newest where_ d)

/-- The inner joins of `selectRecords` keep the row. -/
def DB.joins (d : DB) (r : ServiceRecordRow) : Bool := (d.vehicle r.vehicleID).isSome && d.hasWorkshop r.workshopID

section
variable {P : Platform} (server : ReadServer P)

/-- `selectRecords … ORDER BY sr.created_at DESC LIMIT limit`. -/
def selectNewest (where_ : ServiceRecordRow → Bool) (limit : Nat) : Sql RecordError (List ServiceRecord) :=
  .stmt .selectRecords (fun _ _ => []) (fun _ _ => []) fun _ d =>
    match d.selectRecords ((server.newest (fun r => where_ r && d.joins r) d).take limit) with
    | some records => .ret records
    | none => .fail (.sql .selectRecords)

/-- `findByID`, for any order that the server has for equal keys. -/
def findByIDBy (id : Bytes) : Sql RecordError (Option ServiceRecord) :=
  if !validID id then .ret none
  else do
    let records ← selectRecords (·.id == canonicalID id)
    if records.isEmpty then .ret none
    else do
      let records ← hydrateBy server.toHydrateServer records
      .ret records.head?

/-- `Repository.ListByPlate`. -/
def listByPlate (plate : String) (limit : Nat) : Sql RecordError (Option (VehicleSummary × List ServiceRecord)) := do
  let vehicle ← selectVehicle plate
  match vehicle with
  | none => .ret none
  | some v => do
    let records ← selectNewest server (fun r => r.vehicleID == v.id && r.supersededBy.isNone) limit
    let records ← hydrateBy server.toHydrateServer records
    .ret (some (⟨v.plate, v.make, v.model, v.year⟩, records))

end

/-! ## Handlers -/

def defaultListLimit : Nat := 50
def maxListLimit : Nat := 100

def clampLimit (requested : Int) : Nat := if requested ≤ 0 then defaultListLimit else min requested.toNat maxListLimit

def loadError : RecordError → Failure := fun _ => .connect .internal "falha ao carregar o registro"

/-- `Handler.GetServiceRecord`. -/
def getServiceRecord {P : Platform} (server : ReadServer P) (id : Bytes) : Sql Failure ServiceRecord :=
  if id = [] then .fail (.connect .invalidArgument "informe o registro")
  else do
    let record ← (findByIDBy server id).mapFail loadError
    match record with
    | none => .fail (.connect .notFound "registro não encontrado")
    | some record => .ret record

structure ListServiceRecordsByPlateRequest where
  plate : String
  limit : Int
  deriving DecidableEq

def historyError : RecordError → Failure := fun _ => .connect .internal "falha ao carregar o histórico"

/-- `Handler.ListServiceRecordsByPlate`. -/
def listServiceRecordsByPlate {P : Platform} (server : ReadServer P) (req : ListServiceRecordsByPlateRequest) :
    Sql Failure (VehicleSummary × List ServiceRecord) :=
  let plate := normalizePlate P req.plate
  if plate == "" then .fail (.connect .invalidArgument "informe a placa")
  else do
    let found ← (listByPlate server plate (clampLimit req.limit)).mapFail historyError
    match found with
    | none => .fail (.connect .notFound "nenhuma moto cadastrada com esta placa")
    | some page => .ret page

/-! ## One moment -/

/-- What `selectRecords` scans of one row. -/
def Scans (d : DB) (row : ServiceRecordRow) (record : ServiceRecord) : Prop := d.selectRecords [row] = some [record]

/-- `record` is what `d` holds about `row`, with the attachments that `d'` has of it. -/
def Shown (P : Platform) (d d' : DB) (row : ServiceRecordRow) (record : ServiceRecord) : Prop :=
  ∃ bare, Scans d row bare ∧ Loads P d d d' bare record

section
variable {d d' : DB}

theorem Scans.id {row : ServiceRecordRow} {record : ServiceRecord} (h : Scans d row record) : record.id = row.id := by
  obtain ⟨r, hr, v, hid, -⟩ := mem_selectRecords h record (List.mem_singleton_self _)
  rw [← hid, List.mem_singleton.mp hr]

theorem Schema.joins (hd : Schema d) {row : ServiceRecordRow} (hrow : row ∈ d.serviceRecords) : d.joins row = true := by
  obtain ⟨v, hv⟩ := hd.vehicle_of_record hrow
  simp [DB.joins, hv, hd.recordWorkshop row hrow]

theorem Scans.cons {row : ServiceRecordRow} {record : ServiceRecord} (h : Scans d row record)
    {rows : List ServiceRecordRow} {records : List ServiceRecord} (hs : d.selectRecords rows = some records) :
    d.selectRecords (row :: rows) = some (record :: records) := by
  unfold Scans at h
  simp only [DB.selectRecords] at h ⊢
  split at h
  · split at h
    · rename_i hp hrest
      obtain rfl := Option.some.inj hrest
      simp only [Option.some.injEq, List.cons.injEq, and_true] at h
      simp only [hs, hp, h]
    · cases h
  · cases h

theorem Schema.scans (hd : Schema d) {row : ServiceRecordRow} (hrow : row ∈ d.serviceRecords) :
    ∃ record, Scans d row record := by
  obtain ⟨revises, hp, -⟩ := hd.predecessor row.id
  obtain ⟨v, w, hv, -, -⟩ := hd.selectRecords hrow hp
  have hw : (d.workshops.find? (·.id == row.workshopID)).isSome := by
    simpa [DB.hasWorkshop, List.find?_isSome] using hd.recordWorkshop row hrow
  obtain ⟨w, hw⟩ := Option.isSome_iff_exists.mp hw
  exact ⟨_, by simp only [Scans, DB.selectRecords, hv, hw, hp]; rfl⟩

theorem Schema.scans_all (hd : Schema d) : ∀ {rows : List ServiceRecordRow}, (∀ row ∈ rows, row ∈ d.serviceRecords) →
    ∃ records, d.selectRecords rows = some records ∧ List.Forall₂ (Scans d) rows records := by
  intro rows
  induction rows with
  | nil => exact fun _ => ⟨[], rfl, .nil⟩
  | cons row rows ih =>
    intro hrows
    obtain ⟨record, hrecord⟩ := hd.scans (hrows row (List.mem_cons_self ..))
    obtain ⟨records, hs, hall⟩ := ih fun r hr => hrows r (List.mem_cons_of_mem _ hr)
    exact ⟨record :: records, hrecord.cons hs, .cons hrecord hall⟩

theorem scans_ids {rows : List ServiceRecordRow} {records : List ServiceRecord}
    (h : List.Forall₂ (Scans d) rows records) : records.map (·.id) = rows.map (·.id) := by
  induction h with
  | nil => rfl
  | cons hrow _ ih => rw [List.map_cons, List.map_cons, ih, hrow.id]

/-- Later states have the operations and parts that the first has. -/
theorem Extends.loads (h : Extends d d') {d₂ d₃ : DB} (h₂ : Extends d d₂) {P : Platform} {row : ServiceRecordRow}
    {bare record : ServiceRecord} (hrow : row ∈ d.serviceRecords) (hscan : Scans d row bare)
    (hl : Loads P d' d₂ d₃ bare record) : Shown P d d₃ row record := by
  have hops : d'.operationsOf bare.id = d.operationsOf bare.id := by
    rw [hscan.id]
    exact h.operations row hrow
  have hparts : d₂.partsOf bare.id = d.partsOf bare.id := by
    rw [hscan.id]
    exact h₂.parts row hrow
  exact ⟨bare, hscan, hl.rest, hops ▸ hl.operations, hparts ▸ hl.parts, hl.attachments⟩

end

/-! ## The moments of an answer -/

section
variable {P : Platform} {init : SoundDB} {others : Nat → List ServerEvent}

theorem world_extends_succ (n : Nat) : Extends (world P init others n) (world P init others (n + 1)) := by
  have hlater : world P init others (n + 1) =
      ((server P).run (serverRun P init ((List.range (n + 1)).flatMap others)) (others (n + 1))).db := by
    rw [world, List.range_succ, List.flatMap_append, List.flatMap_singleton, serverRun, Machine.run_append]
    rfl
  rw [hlater]
  exact run_extends P _ (serverRun_good P init _)

theorem world_extends {m n : Nat} (h : m ≤ n) : Extends (world P init others m) (world P init others n) := by
  induction h with
  | refl => exact .refl _
  | step _ ih => exact ih.trans (world_extends_succ _)

variable (server : ReadServer P) (ids : Stmt → Nat → UUID)

theorem hydrateBy_shown {n : Nat} {rows : List ServiceRecordRow} {records : List ServiceRecord}
    (hrows : ∀ row ∈ rows, row ∈ (world P init others n).serviceRecords) (hnd : (rows.map (·.id)).Nodup)
    (hscan : List.Forall₂ (Scans (world P init others n)) rows records)
    (hall : (world P init others n).selectRecords rows = some records) :
    ∃ records' n', (hydrateBy server.toHydrateServer records).execAt DB.apply RecordError.sql ids
        (world P init others) (fun _ => false) (n + 1) [] = .ok (records', [], n') ∧
      List.Forall₂ (Shown P (world P init others n) (world P init others (n + 3))) rows records' := by
  by_cases hne : records.isEmpty = true
  · obtain rfl := List.isEmpty_iff.mp hne
    cases hscan
    exact ⟨[], n + 1, rfl, .nil⟩
  · have hids : (records.map (·.id)).Nodup := by rw [scans_ids hscan]; exact hnd
    rw [hydrateBy_eq server.toHydrateServer hids (by simpa using hne)]
    refine ⟨_, n + 4, rfl, ?_⟩
    rw [List.forall₂_map_right_iff]
    refine List.forall₂_iff_zip.mpr ⟨hscan.length_eq, fun hmem => ?_⟩
    obtain ⟨hrow, hrecord⟩ := List.of_mem_zip hmem
    exact (world_extends (Nat.le_succ n)).loads (world_extends (Nat.le_add_right n 2)) (hrows _ hrow)
      (List.forall₂_zip hscan hmem) (loads_loaded server.toHydrateServer hrecord (scanned_bare hall _ hrecord) _ _ _)

variable (init others) in
/-- The newest rows of one moment are listed and then loaded. -/
theorem newest_shown (n : Nat) (where_ : ServiceRecordRow → Bool) (limit : Nat) :
    ∃ rows records page n',
      Answers (fun a b => b.createdAt ≤ a.createdAt) ((world P init others n).serviceRecords.filter where_) rows ∧
      (selectNewest server where_ limit).execAt DB.apply RecordError.sql ids (world P init others) (fun _ => false) n
        [] = .ok (records, [], n + 1) ∧
      (hydrateBy server.toHydrateServer records).execAt DB.apply RecordError.sql ids (world P init others)
        (fun _ => false) (n + 1) [] = .ok (page, [], n') ∧
      List.Forall₂ (Shown P (world P init others n) (world P init others (n + 3))) (rows.take limit) page := by
  let d := world P init others n
  have hd : Schema d := world_schema P init others n
  let rows := server.newest (fun r => where_ r && d.joins r) d
  have hrows : Answers (fun a b => b.createdAt ≤ a.createdAt) (d.serviceRecords.filter where_) rows := by
    have hjoin : d.serviceRecords.filter (fun r => where_ r && d.joins r) = d.serviceRecords.filter where_ :=
      List.filter_congr fun r hr => by rw [hd.joins hr, Bool.and_true]
    exact hjoin ▸ server.orders_newest (fun r => where_ r && d.joins r) d
  have hmem : ∀ row ∈ rows.take limit, row ∈ d.serviceRecords := fun row hrow =>
    (List.mem_filter.mp (hrows.mem_iff.mp (List.mem_of_mem_take hrow))).1
  have hnd : ((rows.take limit).map (·.id)).Nodup := by
    have hcurrent : ((d.serviceRecords.filter where_).map (·.id)).Nodup :=
      (List.filter_sublist.map _).nodup hd.recordIDs
    have hall : (rows.map (·.id)).Nodup := (hrows.perm.map _).nodup_iff.mpr hcurrent
    exact ((List.take_sublist limit rows).map _).nodup hall
  obtain ⟨records, hscan, hscans⟩ := hd.scans_all hmem
  obtain ⟨page, n', hexec, hshown⟩ := hydrateBy_shown server ids hmem hnd hscans hscan
  refine ⟨rows, records, page, n', hrows, ?_, hexec, hshown⟩
  have hfound : d.selectRecords ((server.newest (fun r => where_ r && d.joins r) d).take limit) = some records :=
    hscan
  simp only [selectNewest, Prog.execAt, Bool.false_eq_true, ite_false, List.foldl_nil, List.append_nil]
  change (match d.selectRecords ((server.newest (fun r => where_ r && d.joins r) d).take limit) with
    | some records => Prog.ret records
    | none => Prog.fail (.sql .selectRecords) : Sql RecordError (List ServiceRecord)).execAt .. = _
  rw [hfound]
  rfl

/-! ## One record -/

/-- What `GetServiceRecord` may answer, by its first and its last moment. -/
def RecordAnswer (P : Platform) (id : Bytes) (d d' : DB) : Except Failure (ServiceRecord × List Change × Nat) → Prop
  | .error e => (id = [] ∧ e = .connect .invalidArgument "informe o registro") ∨
      (id ≠ [] ∧ (validID id = false ∨ d.serviceRecord (canonicalID id) = none) ∧
        e = .connect .notFound "registro não encontrado")
  | .ok (record, changes, _) => changes = [] ∧ validID id = true ∧
      ∃ row, d.serviceRecord (canonicalID id) = some row ∧ Shown P d d' row record

theorem findByIDBy_found {n : Nat} {id : Bytes} (hvalid : validID id = true) {row : ServiceRecordRow}
    (hrow : (world P init others n).serviceRecord (canonicalID id) = some row) :
    ∃ record n', (findByIDBy server id).execAt DB.apply RecordError.sql ids (world P init others) (fun _ => false) n
        [] = .ok (some record, [], n') ∧
      Shown P (world P init others n) (world P init others (n + 3)) row record := by
  have hd := world_schema P init others n
  obtain ⟨hmem, hid⟩ := serviceRecord_some hrow
  obtain ⟨bare, hbare⟩ := hd.scans hmem
  have hrows : ∀ r ∈ [row], r ∈ (world P init others n).serviceRecords := by simpa using hmem
  have hscan : List.Forall₂ (Scans (world P init others n)) [row] [bare] := .cons hbare .nil
  obtain ⟨records, n', hexec, hshown⟩ := hydrateBy_shown server ids hrows (List.nodup_singleton _) hscan hbare
  obtain ⟨record, _, hfound, hnil, rfl⟩ := List.forall₂_cons_left_iff.mp hshown
  obtain rfl := List.forall₂_nil_left_iff.mp hnil
  refine ⟨record, n', ?_, hfound⟩
  have hselect : (selectRecords (·.id == canonicalID id)).execAt DB.apply RecordError.sql ids (world P init others)
      (fun _ => false) n [] = .ok ([bare], [], n + 1) := by
    have hscan : (world P init others n).selectRecords
        ((world P init others n).serviceRecords.filter (·.id == canonicalID id)) = some [bare] := by
      rw [← hid, hd.filter_id hmem]
      exact hbare
    simp [selectRecords, Prog.execAt, hscan]
  simp only [findByIDBy, hvalid, Bool.not_true, Bool.false_eq_true, ite_false, Prog.bind_eq]
  rw [Prog.execAt_bind _ _ _ _ _ _ hselect]
  simp only [List.isEmpty_cons, Bool.false_eq_true, ite_false]
  rw [Prog.execAt_bind _ _ _ _ _ _ hexec]
  rfl

theorem findByIDBy_missing {n : Nat} {id : Bytes}
    (hnone : validID id = false ∨ (world P init others n).serviceRecord (canonicalID id) = none) :
    ∃ n', (findByIDBy server id).execAt DB.apply RecordError.sql ids (world P init others) (fun _ => false) n [] =
      .ok (none, [], n') := by
  by_cases hvalid : validID id = true
  · have habsent := hnone.resolve_left (by simp [hvalid])
    have hempty : (world P init others n).serviceRecords.filter (·.id == canonicalID id) = [] :=
      List.filter_eq_nil_iff.mpr fun r hr => by simpa using serviceRecord_none.mp habsent r hr
    refine ⟨n + 1, ?_⟩
    simp [findByIDBy, hvalid, selectRecords, Prog.bind, Prog.execAt, hempty, DB.selectRecords]
  · exact ⟨n, by simp [findByIDBy, hvalid, Prog.execAt]⟩

/-- The row, its vehicle, operations and parts are those of the first query, the
attachments those of the last one, whatever was committed between. -/
theorem getServiceRecord_answers (id : Bytes) (broken : Stmt → Failure) :
    RecordAnswer P id (world P init others 0) (world P init others 3)
      ((getServiceRecord server id).execAt DB.apply broken ids (world P init others) (fun _ => false) 0 []) := by
  by_cases hblank : id = []
  · simp [getServiceRecord, hblank, RecordAnswer, Prog.execAt]
  simp only [getServiceRecord, hblank, ite_false, Prog.bind_eq]
  by_cases hfound : validID id = true ∧ ((world P init others 0).serviceRecord (canonicalID id)).isSome = true
  · obtain ⟨hvalid, hsome⟩ := hfound
    obtain ⟨row, hrow⟩ := Option.isSome_iff_exists.mp hsome
    obtain ⟨record, n, hexec, hshown⟩ := findByIDBy_found server ids hvalid hrow
    rw [Prog.execAt_bind _ _ _ _ _ _ (Prog.execAt_mapFail _ _ _ _ _ _ hexec)]
    exact ⟨rfl, hvalid, row, hrow, hshown⟩
  · have hnone : validID id = false ∨ (world P init others 0).serviceRecord (canonicalID id) = none := by
      by_cases hvalid : validID id = true
      · exact Or.inr (by simpa [hvalid] using hfound)
      · exact Or.inl (by simpa using hvalid)
    obtain ⟨n, hexec⟩ := findByIDBy_missing server ids hnone
    rw [Prog.execAt_bind _ _ _ _ _ _ (Prog.execAt_mapFail _ _ _ _ _ _ hexec)]
    exact Or.inr ⟨hblank, hnone, rfl⟩

end

/-! ## The services of a bike -/

/-- The commit of a new record, not a correction, of the bike with this plate. -/
def createsFor (P : Platform) (plate : String) (q : Request) : Bool :=
  match q.call with
  | .createServiceRecord req => normalizePlate P req.plate == plate
  | _ => false

def DB.services (d : DB) (plate : String) : Nat :=
  ((d.vehicleByPlate plate).map fun v => (d.currentRecords v.id).length).getD 0

section
variable {P : Platform} {q : Request} {a : Reply} {σ : SqlLocal} {d : DB}

theorem services_congr {d d' : DB} (hv : d'.vehicles = d.vehicles) (hr : d'.serviceRecords = d.serviceRecords)
    (plate : String) : d'.services plate = d.services plate := by
  simp only [DB.services, DB.vehicleByPlate, DB.currentRecords, hv, hr]

theorem Writes.create_services {now : Time} {input : CreateInput} {w : Written} (h : Writes now input none w σ d)
    (hd : Schema d) (plate : String) :
    (σ.changes.foldl DB.apply d).services plate = d.services plate + (input.plate == plate).toNat := by
  obtain ⟨v, hv, hp⟩ := h.vehicle
  obtain ⟨hm, hid⟩ := vehicle_some hv
  rw [h.changes, w.view, h.create rfl]
  simp only [DB.services, DB.vehicleByPlate, DB.currentRecords, List.filter_append, List.length_append]
  by_cases hplate : input.plate = plate
  · have hfind : d.vehicles.find? (fun u => u.plate == plate) = some v := by
      have := hd.vehicleByPlate_of_mem hm
      rwa [hp, hplate] at this
    simp [hfind, hid, hplate, h.supersededBy]
  · have hother : (input.plate == plate) = false := beq_eq_false_iff_ne.mpr hplate
    cases hfind : d.vehicles.find? (fun u => u.plate == plate) with
    | none => simp [hother]
    | some u =>
      obtain ⟨hu, hup⟩ := vehicleByPlate_some hfind
      have hne : w.record.vehicleID ≠ u.id := fun he =>
        hplate (by rw [← hp, hd.vehicle_eq hm hu (hid.trans he), hup])
      simp [hother, hne]

theorem Corrects.services {d d' : DB} {o n : ServiceRecordRow} (h : Corrects d d' o n) (hd : Schema d)
    (plate : String) : d'.services plate = d.services plate := by
  have hlen : ∀ id, (d'.currentRecords id).length = (d.currentRecords id).length := fun id =>
    (h.currentRecords_perm hd id).length_eq.trans Listing.length_replace
  simp only [DB.services, DB.vehicleByPlate, h.vehicles, hlen]

theorem Done.services (h : Done P q a σ d) (hd : Schema d) (plate : String) :
    (σ.changes.foldl DB.apply d).services plate = d.services plate + (createsFor P plate q).toNat := by
  have hall := h
  cases h with
  | create session writes => exact writes.create_services hd plate
  | revise session found writes =>
    obtain ⟨⟨o, ho, -⟩, -⟩ := writes.revise _ rfl
    rename_i w
    have hn : w.record ∈ insertedRecords σ.changes := by simp [writes.changes, Written.insertedRecords_changes]
    exact (hall.corrects hd ho hn).services hd plate
  | upload session form attaches =>
    rw [attaches.changes]
    exact services_congr rfl rfl plate
  | register registers =>
    rw [registers.changes]
    simp only [List.foldl_cons, List.foldl_nil, DB.services, vehicleByPlate_insert]
    cases hfind : d.vehicleByPlate plate with
    | some v => simp [createsFor, DB.currentRecords, DB.apply]
    | none =>
      rename_i req id
      have hnone : d.currentRecords id = [] := by
        refine List.filter_eq_nil_iff.mpr fun r hr hc => ?_
        obtain ⟨v, hv, hvid⟩ := hd.recordVehicle r hr
        refine vehicle_none.mp registers.fresh.1 v hv ?_
        simpa [hvid] using And.left (by simpa using hc)
      by_cases hp : ((req.normalized P).row P id).plate = plate
      · rw [if_pos hp]
        exact congrArg List.length hnone
      · simp [hp, createsFor]
  | claim session plate suffix claims =>
    rw [claims.changes]
    simp only [List.foldl_cons, List.foldl_nil, DB.services, vehicleByPlate_setOwner, Option.map_map]
    simp [createsFor, Function.comp_def, DB.currentRecords, DB.apply]
  | release session releases =>
    rw [releases.changes]
    simp only [List.foldl_cons, List.foldl_nil, DB.services, vehicleByPlate_setOwner, Option.map_map]
    simp [createsFor, Function.comp_def, DB.currentRecords, DB.apply]

/-- A bike has a current record for each committed create. -/
theorem run_services (P : Platform) (init : Installed) (es : List ServerEvent) (plate : String) :
    (serverRun P init.toSoundDB es).db.services plate =
      (serverRun P init.toSoundDB es).log.countP fun e => createsFor P plate e.req := by
  refine run_history (server_discipline P)
    (J := fun log d => d.services plate = log.countP fun e => createsFor P plate e.req)
    (fun log d q a σ hd h hJ => ?_) es (good_init init.schema) ?_
  · have hs : ((server P).view σ.changes d).services plate = _ := h.services hd plate
    rw [List.countP_cons, ← hJ, hs]
    cases createsFor P plate q <;> rfl
  · simp only [Machine.init, DB.services, DB.currentRecords, init.noRecords]
    cases init.db.vehicleByPlate plate <;> rfl

end

/-! ## A page of the history -/

/-- The commits that a request finds made at its statement `n`. -/
def worldLog (P : Platform) (init : SoundDB) (others : Nat → List ServerEvent) (n : Nat) : List Commit :=
  (serverRun P init ((List.range (n + 1)).flatMap others)).log

/-- A page read in three moments: the vehicle, its current records and their attachments. -/
structure HistoryPage (P : Platform) (plate : String) (limit services : Nat) (d₀ d₁ d₂ : DB)
    (page : VehicleSummary × List ServiceRecord) : Prop where
  listed : ∃ v rows, d₀.vehicleByPlate plate = some v ∧ page.1 = ⟨v.plate, v.make, v.model, v.year⟩ ∧
    Answers (fun a b => b.createdAt ≤ a.createdAt) (d₁.currentRecords v.id) rows ∧
      List.Forall₂ (Shown P d₁ d₂) (rows.take limit) page.2
  length : page.2.length = min limit services
  bounded : page.2.length ≤ maxListLimit

def HistoryAnswer (P : Platform) (plate : String) (limit services : Nat) (d₀ d₁ d₂ : DB) :
    Except Failure ((VehicleSummary × List ServiceRecord) × List Change × Nat) → Prop
  | .error e => (plate = "" ∧ e = .connect .invalidArgument "informe a placa") ∨
      (plate ≠ "" ∧ DB.storable plate = false ∧ e = .connect .internal "falha ao carregar o histórico") ∨
      (plate ≠ "" ∧ DB.storable plate = true ∧ d₀.vehicleByPlate plate = none ∧
        e = .connect .notFound "nenhuma moto cadastrada com esta placa")
  | .ok (page, changes, _) => changes = [] ∧ plate ≠ "" ∧ HistoryPage P plate limit services d₀ d₁ d₂ page

theorem clampLimit_le (requested : Int) : clampLimit requested ≤ maxListLimit := by
  unfold clampLimit defaultListLimit maxListLimit
  split <;> omega

section
variable {P : Platform} (server : ReadServer P) (init : Installed) (others : Nat → List ServerEvent)
  (ids : Stmt → Nat → UUID)

theorem listByPlate_page {plate : String} {limit : Nat} (hlimit : limit ≤ maxListLimit) {v : VehicleRow}
    (hv : (world P init.toSoundDB others 0).vehicleByPlate plate = some v) :
    ∃ page n, (listByPlate server plate limit).execAt DB.apply RecordError.sql ids (world P init.toSoundDB others)
        (fun _ => false) 0 [] = .ok (some page, [], n) ∧
      HistoryPage P plate limit ((worldLog P init.toSoundDB others 1).countP fun e => createsFor P plate e.req)
        (world P init.toSoundDB others 0) (world P init.toSoundDB others 1) (world P init.toSoundDB others 4) page := by
  let d := world P init.toSoundDB others 1
  have hd : Schema d := world_schema P init.toSoundDB others 1
  obtain ⟨rows, records, shown, n, hrows, hselect, hexec, hshown⟩ :=
    newest_shown init.toSoundDB others server ids 1
      (fun r => r.vehicleID == v.id && r.supersededBy.isNone) limit
  have htext : DB.storable plate = true := by
    obtain ⟨hm, hp⟩ := vehicleByPlate_some hv
    exact hp ▸ (world_schema P init.toSoundDB others 0).plateText v hm
  have hvehicle : (selectVehicle plate).execAt DB.apply RecordError.sql ids (world P init.toSoundDB others)
      (fun _ => false) 0 [] = .ok (some v, [], 1) := by
    simp [selectVehicle, htext, Prog.query, Prog.execAt, hv]
  refine ⟨(⟨v.plate, v.make, v.model, v.year⟩, shown), n, ?_, ⟨v, rows, hv, rfl, hrows, hshown⟩, ?_, ?_⟩
  · simp only [listByPlate, Prog.bind_eq]
    rw [Prog.execAt_bind _ _ _ _ _ _ hvehicle]
    dsimp only
    rw [Prog.execAt_bind _ _ _ _ _ _ hselect, Prog.execAt_bind _ _ _ _ _ _ hexec]
    rfl
  · obtain ⟨hm, hp⟩ := vehicleByPlate_some hv
    obtain ⟨owner, hlater⟩ := (world_keeps P init.toSoundDB others 0).vehicles _ _
      ((world_schema P init.toSoundDB others 0).vehicle_of_mem hm)
    have hplate : d.vehicleByPlate plate = some { v with currentOwnerID := owner } :=
      hp ▸ hd.vehicleByPlate_of_mem (vehicle_some hlater).1
    have hcount : d.services plate = _ := run_services P init ((List.range 2).flatMap others) plate
    rw [worldLog, ← hcount, DB.services, hplate, Option.map_some, Option.getD_some, ← hshown.length_eq,
      List.length_take, hrows.perm.length_eq]
    rfl
  · exact hshown.length_eq ▸ (List.length_take_le limit rows).trans hlimit

/-- The page lists the current records of one moment, newest first, each as it is
shown on its own: one for each service committed by then, up to the limit. -/
theorem listServiceRecordsByPlate_answers (req : ListServiceRecordsByPlateRequest) (broken : Stmt → Failure) :
    HistoryAnswer P (normalizePlate P req.plate) (clampLimit req.limit)
      ((worldLog P init.toSoundDB others 1).countP fun e => createsFor P (normalizePlate P req.plate) e.req)
      (world P init.toSoundDB others 0) (world P init.toSoundDB others 1) (world P init.toSoundDB others 4)
      ((listServiceRecordsByPlate server req).execAt DB.apply broken ids (world P init.toSoundDB others)
        (fun _ => false) 0 []) := by
  unfold listServiceRecordsByPlate
  dsimp only
  generalize normalizePlate P req.plate = plate
  by_cases hblank : plate = ""
  · rw [if_pos (by simpa using hblank)]
    exact Or.inl ⟨hblank, rfl⟩
  rw [if_neg (by simpa using hblank), Prog.bind_eq]
  cases hv : (world P init.toSoundDB others 0).vehicleByPlate plate with
  | none =>
    cases htext : DB.storable plate with
    | false =>
      simp only [listByPlate, selectVehicle, htext, Bool.false_eq_true, if_false, Prog.bind_eq, Prog.bind, Prog.mapFail,
        Prog.execAt]
      exact Or.inr (Or.inl ⟨hblank, htext, rfl⟩)
    | true =>
      have hnone : (listByPlate server plate (clampLimit req.limit)).execAt DB.apply
          RecordError.sql ids (world P init.toSoundDB others) (fun _ => false) 0 [] = .ok (none, [], 1) := by
        simp [listByPlate, selectVehicle, htext, Prog.bind, Prog.query, Prog.execAt, hv]
      rw [Prog.execAt_bind _ _ _ _ _ _ (Prog.execAt_mapFail _ _ _ _ _ _ hnone)]
      exact Or.inr (Or.inr ⟨hblank, htext, hv, rfl⟩)
  | some v =>
    obtain ⟨page, n, hexec, hpage⟩ := listByPlate_page server init others ids (clampLimit_le req.limit) hv
    rw [Prog.execAt_bind _ _ _ _ _ _ (Prog.execAt_mapFail _ _ _ _ _ _ hexec)]
    exact ⟨rfl, hblank, hpage⟩

end

end Mototeca
