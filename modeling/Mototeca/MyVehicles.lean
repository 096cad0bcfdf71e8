import Mototeca.History
import Mototeca.OwnerFigures
import Mototeca.Ownership

/-!
# An owner's bikes

`ListMyVehicles` asks for the owner's bikes in one query and loads the last service
of each later, while others commit. The bikes listed are those whose last hand-over
in the log is a claim by the owner.
-/

namespace Mototeca

open ReadCommitted OrderedQuery

/-! ## Queries -/

/-- The answers of one server to the queries of the owner's list too. -/
structure OwnerServer (P : Platform) extends ReadServer P where
  heldBy : UUID → DB → List VehicleRow
  orders_heldBy : ∀ ownerID d, Answers (fun a b => P.collate a.plate b.plate = true)
    (d.vehicles.filter fun v => v.currentOwnerID == some ownerID) (heldBy ownerID d)

section
variable {P : Platform} (server : OwnerServer P)

/-- A row of `ownedVehicleQuery`. Of several newest records the subquery takes any. -/
def ownedVehicleBy (d : DB) (v : VehicleRow) : OwnedVehicle :=
  { d.ownedVehicle v with
    lastServiceID := (server.newest (fun r => r.vehicleID == v.id && r.supersededBy.isNone) d).head?.map (·.id) }

/-- `Repository.ListVehicles`. -/
def listVehicles (ownerID : UUID) : Sql Failure (List OwnedVehicle) :=
  Prog.query .ownedVehicle fun d => (server.heldBy ownerID d).map (ownedVehicleBy server d)

/-- `ownedToProto`, with each query on its own. -/
def ownedToProtoBy (v : OwnedVehicle) : Sql Failure OwnedVehicleMsg :=
  match v.lastServiceID with
  | none => .ret (v.msg none)
  | some id => do
    let record ← (findByIDBy server.toReadServer id).mapFail fun _ => .connect .internal "falha ao carregar suas motos"
    .ret (v.msg (record.map toProto))

def ownedToProtos : List OwnedVehicle → Sql Failure (List OwnedVehicleMsg)
  | [] => .ret []
  | v :: owned => do
    let converted ← ownedToProtoBy server v
    let vehicles ← ownedToProtos owned
    .ret (converted :: vehicles)

/-- `Handler.ListMyVehicles`. -/
def listMyVehicles (subject : Option Subject) : Sql Failure (List OwnedVehicleMsg) :=
  withSession (requireOwnerID subject) fun ownerID => do
    let owned ← listVehicles server ownerID
    ownedToProtos server owned

end

/-! ## Who holds a bike, by the log -/

/-- The owner that a committed call gives the bike with this plate: none by a release. -/
def handsTo (P : Platform) (plate : String) (q : Request) : Option (Option UUID) :=
  match q.call with
  | .claimVehicle req =>
    if normalizePlate P req.plate = plate then some (requireOwnerID q.subject).toOption else none
  | .releaseVehicle released => if normalizePlate P released = plate then some none else none
  | _ => none

def DB.ownerOf (d : DB) (plate : String) : Option UUID := (d.vehicleByPlate plate).bind (·.currentOwnerID)

/-- The last hand-over decides. The latest commit is first. -/
def holder (P : Platform) (init : DB) (plate : String) : List Commit → Option UUID
  | [] => init.ownerOf plate
  | e :: log => (handsTo P plate e.req).getD (holder P init plate log)

section
variable {P : Platform} {q : Request} {a : Reply} {σ : SqlLocal} {d : DB}

theorem ownerOf_congr {d d' : DB} (h : d'.vehicles = d.vehicles) (plate : String) :
    d'.ownerOf plate = d.ownerOf plate := by
  simp only [DB.ownerOf, DB.vehicleByPlate, h]

theorem ownerOf_setCurrentOwner (hd : Schema d) {v : VehicleRow} (hv : d.vehicle v.id = some v) (owner : Option UUID)
    (plate : String) :
    (d.apply (.setCurrentOwner v.id owner)).ownerOf plate = if v.plate = plate then owner else d.ownerOf plate := by
  obtain ⟨hm, -⟩ := vehicle_some hv
  rw [DB.ownerOf, vehicleByPlate_setOwner]
  by_cases hp : v.plate = plate
  · rw [if_pos hp, ← hp, hd.vehicleByPlate_of_mem hm]
    simp [setOwner]
  · rw [if_neg hp]
    cases hfind : d.vehicleByPlate plate with
    | none => simp [DB.ownerOf, hfind]
    | some u =>
      obtain ⟨hu, hup⟩ := vehicleByPlate_some hfind
      have hne : u.id ≠ v.id := fun he => hp (hd.vehicle_eq hm hu he.symm ▸ hup)
      simp [DB.ownerOf, hfind, setOwner, hne]

theorem Done.ownerOf (h : Done P q a σ d) (hd : Schema d) (plate : String) :
    (σ.changes.foldl DB.apply d).ownerOf plate = (handsTo P plate q).getD (d.ownerOf plate) := by
  cases h with
  | create session writes =>
    rw [writes.changes, Written.view]
    exact ownerOf_congr rfl plate
  | revise session found writes =>
    rw [writes.changes, Written.view]
    exact ownerOf_congr rfl plate
  | upload session form attaches =>
    rw [attaches.changes]
    exact ownerOf_congr rfl plate
  | register registers =>
    rw [registers.changes]
    simp only [List.foldl_cons, List.foldl_nil, DB.ownerOf, vehicleByPlate_insert, handsTo, Option.getD_none]
    cases d.vehicleByPlate plate with
    | some v => rfl
    | none =>
      rw [Option.none_or]
      split <;> rfl
  | claim session _ suffix claims =>
    rw [claims.changes, List.foldl_cons, List.foldl_nil, ownerOf_setCurrentOwner hd claims.vehicle, claims.plate]
    simp only [handsTo, session, Except.toOption]
    split <;> rfl
  | release session releases =>
    rw [releases.changes, List.foldl_cons, List.foldl_nil, ownerOf_setCurrentOwner hd releases.vehicle, releases.plate]
    simp only [handsTo]
    split <;> rfl

/-- Whose a bike is follows from the claims and releases that were answered. -/
theorem run_ownerOf (P : Platform) (init : SoundDB) (es : List ServerEvent) (plate : String) :
    (serverRun P init es).db.ownerOf plate = holder P init.db plate (serverRun P init es).log := by
  refine run_history (server_discipline P) (J := fun log d => d.ownerOf plate = holder P init.db plate log)
    (fun log d q a σ hd h hJ => ?_) es (good_init init.schema) rfl
  have hs : ((server P).view σ.changes d).ownerOf plate = _ := h.ownerOf hd plate
  rw [hs, hJ]
  rfl

end

/-! ## The list -/

/-- What the list says of one bike: the figures of the moment `d` of the query, and
the last service of that moment as a later one has it. -/
structure ListedBike (P : Platform) (later : Nat → DB) (d : DB) (services : Nat) (v : VehicleRow)
    (m : OwnedVehicleMsg) : Prop where
  figures : m = (d.ownedVehicle v).msg m.lastService
  serviceCount : m.serviceCount = int32 services
  lastService : (d.currentRecords v.id = [] ∧ m.lastService = none) ∨
    ∃ row ∈ d.currentRecords v.id, (∀ r ∈ d.currentRecords v.id, r.createdAt ≤ row.createdAt) ∧
      (validID row.id = true → canonicalID row.id = row.id → ∃ k row' record, 1 ≤ k ∧
        (later k).serviceRecord row.id = some row' ∧ Shown P (later k) (later (k + 3)) row' record ∧
          m.lastService = some (toProto record))

section
variable {P : Platform} (server : OwnerServer P) (init : Installed) (others : Nat → List ServerEvent)
  (ids : Stmt → Nat → UUID) (broken : Stmt → Failure)

theorem msg_lastServiceID (v : OwnedVehicle) (id : Option UUID) (record : Option Servicev1.ServiceRecord) :
    ({ v with lastServiceID := id } : OwnedVehicle).msg record = v.msg record := by
  have hreminder : ({ v with lastServiceID := id } : OwnedVehicle).reminder = v.reminder := by
    simp only [OwnedVehicle.reminder]
  simp only [OwnedVehicle.msg, hreminder]

theorem ownedVehicleBy_msg (d : DB) (v : VehicleRow) (record : Option Servicev1.ServiceRecord) :
    (ownedVehicleBy server d v).msg record = (d.ownedVehicle v).msg record :=
  msg_lastServiceID (d.ownedVehicle v) _ record

/-- Loading the last service at a later moment finds it, if its id is a UUID. -/
theorem findByIDBy_later {n : Nat} {row : ServiceRecordRow}
    (hrow : row ∈ (world P init.toSoundDB others 0).serviceRecords) :
    ∃ record n', (findByIDBy server.toReadServer row.id).execAt DB.apply RecordError.sql ids
        (world P init.toSoundDB others) (fun _ => false) n [] = .ok (record, [], n') ∧
      (validID row.id = true → canonicalID row.id = row.id → ∃ row' r,
        (world P init.toSoundDB others n).serviceRecord row.id = some row' ∧
          Shown P (world P init.toSoundDB others n) (world P init.toSoundDB others (n + 3)) row' r ∧ record = some r) := by
  obtain ⟨superseded, hlater, -⟩ := (world_extends (Nat.zero_le n)).records row hrow
  have hfound : (world P init.toSoundDB others n).serviceRecord row.id = some { row with supersededBy := superseded } :=
    (world_schema P init.toSoundDB others n).serviceRecord_of_mem hlater
  by_cases hid : validID row.id = true ∧
      ((world P init.toSoundDB others n).serviceRecord (canonicalID row.id)).isSome = true
  · obtain ⟨hvalid, hsome⟩ := hid
    obtain ⟨row', hrow'⟩ := Option.isSome_iff_exists.mp hsome
    obtain ⟨record, n', hexec, hshown⟩ := findByIDBy_found server.toReadServer ids hvalid hrow'
    exact ⟨some record, n', hexec, fun _ hcanon => ⟨row', record, hcanon ▸ hrow', hshown, rfl⟩⟩
  · have hnone : validID row.id = false ∨
        (world P init.toSoundDB others n).serviceRecord (canonicalID row.id) = none := by
      by_cases hvalid : validID row.id = true
      · exact Or.inr (by simpa [hvalid] using hid)
      · exact Or.inl (by simpa using hvalid)
    obtain ⟨n', hexec⟩ := findByIDBy_missing server.toReadServer ids hnone
    refine ⟨none, n', hexec, fun hvalid hcanon => absurd ⟨hvalid, ?_⟩ hid⟩
    rw [hcanon, hfound]
    rfl

theorem ownedToProtoBy_listed {n : Nat} (hn : 1 ≤ n) {v : VehicleRow}
    (hv : v ∈ (world P init.toSoundDB others 0).vehicles) :
    ∃ m n', (ownedToProtoBy server (ownedVehicleBy server (world P init.toSoundDB others 0) v)).execAt DB.apply broken
        ids (world P init.toSoundDB others) (fun _ => false) n [] = .ok (m, [], n') ∧
      ListedBike P (world P init.toSoundDB others) (world P init.toSoundDB others 0)
        ((worldLog P init.toSoundDB others 0).countP fun e => createsFor P v.plate e.req) v m := by
  let d := world P init.toSoundDB others 0
  have hcount : d.services v.plate = _ := run_services P init ((List.range 1).flatMap others) v.plate
  have hservices : (d.ownedVehicle v).serviceCount =
      (worldLog P init.toSoundDB others 0).countP fun e => createsFor P v.plate e.req := by
    rw [worldLog, ← hcount, DB.services, (world_schema P init.toSoundDB others 0).vehicleByPlate_of_mem hv]
    rfl
  have hlisted : ∀ record, ((ownedVehicleBy server d v).msg record).serviceCount =
      int32 ((worldLog P init.toSoundDB others 0).countP fun e => createsFor P v.plate e.req) := by
    intro record
    rw [ownedVehicleBy_msg, ← hservices]
    rfl
  have hfigures : ∀ record, (ownedVehicleBy server d v).msg record =
      (d.ownedVehicle v).msg ((ownedVehicleBy server d v).msg record).lastService := by
    intro record
    rw [ownedVehicleBy_msg]
    simp only [OwnedVehicle.msg]
  have hcurrent : Answers (fun a b => b.createdAt ≤ a.createdAt) (d.currentRecords v.id)
      (server.newest (fun r => r.vehicleID == v.id && r.supersededBy.isNone) d) := server.orders_newest _ d
  cases hnewest : server.newest (fun r => r.vehicleID == v.id && r.supersededBy.isNone) d with
  | nil =>
    have hnone : d.currentRecords v.id = [] := (hnewest ▸ hcurrent.perm).symm.eq_nil
    refine ⟨(ownedVehicleBy server d v).msg none, n, ?_, hfigures none, hlisted none, Or.inl ⟨hnone, rfl⟩⟩
    simp only [ownedToProtoBy]
    have hlast : (ownedVehicleBy server d v).lastServiceID = none := by simp [ownedVehicleBy, hnewest]
    rw [hlast]
    rfl
  | cons row rows =>
    have hmem : row ∈ d.currentRecords v.id := hcurrent.mem_iff.mp (hnewest ▸ List.mem_cons_self)
    have hlatest : ∀ r ∈ d.currentRecords v.id, r.createdAt ≤ row.createdAt := by
      intro r hr
      have hr' := hcurrent.mem_iff.mpr hr
      rw [hnewest] at hr'
      rcases List.mem_cons.mp hr' with hr' | hr'
      · rw [hr']
      · have hsorted : (row :: rows).Pairwise fun a b : ServiceRecordRow => b.createdAt ≤ a.createdAt :=
          hnewest ▸ hcurrent.sorted
        exact List.rel_of_pairwise_cons hsorted hr'
    obtain ⟨record, n', hexec, hshown⟩ :=
      findByIDBy_later server init others ids (n := n) (mem_currentRecords.mp hmem).1
    refine ⟨(ownedVehicleBy server d v).msg (record.map toProto), n', ?_, hfigures _, hlisted _,
      Or.inr ⟨row, hmem, hlatest, ?_⟩⟩
    · have hlast : (ownedVehicleBy server d v).lastServiceID = some row.id := by simp [ownedVehicleBy, hnewest]
      simp only [ownedToProtoBy]
      rw [hlast]
      dsimp only
      rw [Prog.bind_eq, Prog.execAt_bind _ _ _ _ _ _ (Prog.execAt_mapFail _ _ _ _ _ _ hexec)]
      rfl
    · intro hvalid hcanon
      obtain ⟨row', r, hrow', hr, rfl⟩ := hshown hvalid hcanon
      exact ⟨n, row', r, hn, hrow', hr, rfl⟩

theorem ownedToProtos_listed {vs : List VehicleRow} : ∀ {n : Nat}, 1 ≤ n →
    (∀ v ∈ vs, v ∈ (world P init.toSoundDB others 0).vehicles) →
    ∃ ms n', (ownedToProtos server (vs.map (ownedVehicleBy server (world P init.toSoundDB others 0)))).execAt DB.apply
        broken ids (world P init.toSoundDB others) (fun _ => false) n [] = .ok (ms, [], n') ∧
      List.Forall₂ (fun v m => ListedBike P (world P init.toSoundDB others) (world P init.toSoundDB others 0)
        ((worldLog P init.toSoundDB others 0).countP fun e => createsFor P v.plate e.req) v m) vs ms := by
  induction vs with
  | nil => exact fun {n} _ _ => ⟨[], n, rfl, .nil⟩
  | cons v vs ih =>
    intro n hn hall
    obtain ⟨m, n₁, hexec, hm⟩ := ownedToProtoBy_listed server init others ids broken hn (hall v List.mem_cons_self)
    have hle : n ≤ n₁ := Prog.le_of_execAt _ _ _ _ _ _ hexec
    obtain ⟨ms, n₂, hrest, hms⟩ := ih (hn.trans hle) fun u hu => hall u (List.mem_cons_of_mem _ hu)
    refine ⟨m :: ms, n₂, ?_, .cons hm hms⟩
    rw [List.map_cons, ownedToProtos, Prog.bind_eq, Prog.execAt_bind _ _ _ _ _ _ hexec, Prog.bind_eq,
      Prog.execAt_bind _ _ _ _ _ _ hrest]
    rfl

/-- What `ListMyVehicles` may answer: the bikes that the log of the first moment gives to
the owner, by plate, each with its figures of that moment. -/
def OwnerAnswer (P : Platform) (init : DB) (subject : Option Subject) (later : Nat → DB) (log : List Commit) :
    Except Failure (List OwnedVehicleMsg × List Change × Nat) → Prop
  | .error e => requireOwnerID subject = .error e
  | .ok (ms, changes, _) => changes = [] ∧ ∃ ownerID vs, requireOwnerID subject = .ok ownerID ∧
      Answers (fun a b => P.collate a.plate b.plate = true)
        ((later 0).vehicles.filter fun v => holder P init v.plate log == some ownerID) vs ∧
      List.Forall₂ (fun v m => ListedBike P later (later 0) (log.countP fun e => createsFor P v.plate e.req) v m) vs ms

/-- The list always comes, and shows the owner's bikes by the log, whatever others
commit while it is read. -/
theorem listMyVehicles_answers (subject : Option Subject) :
    OwnerAnswer P init.db subject (world P init.toSoundDB others) (worldLog P init.toSoundDB others 0)
      ((listMyVehicles server subject).execAt DB.apply broken ids (world P init.toSoundDB others) (fun _ => false) 0
        []) := by
  unfold listMyVehicles
  cases hsession : requireOwnerID subject with
  | error e => exact hsession
  | ok ownerID =>
    have hd : Schema (world P init.toSoundDB others 0) := world_schema P init.toSoundDB others 0
    have hheld : ∀ v ∈ (world P init.toSoundDB others 0).vehicles, (v.currentOwnerID == some ownerID) =
        (holder P init.db v.plate (worldLog P init.toSoundDB others 0) == some ownerID) := by
      intro v hv
      have hlog : (world P init.toSoundDB others 0).ownerOf v.plate = _ :=
        run_ownerOf P init.toSoundDB ((List.range 1).flatMap others) v.plate
      rw [DB.ownerOf, hd.vehicleByPlate_of_mem hv] at hlog
      exact congrArg (· == some ownerID) hlog
    have hrows := server.orders_heldBy ownerID (world P init.toSoundDB others 0)
    rw [List.filter_congr hheld] at hrows
    have hbikes : ∀ v ∈ server.heldBy ownerID (world P init.toSoundDB others 0),
        v ∈ (world P init.toSoundDB others 0).vehicles := fun v hv => (List.mem_filter.mp (hrows.mem_iff.mp hv)).1
    obtain ⟨ms, n, hexec, hms⟩ := ownedToProtos_listed server init others ids broken (Nat.le_refl 1) hbikes
    have hlist : (listVehicles server ownerID).execAt DB.apply broken ids (world P init.toSoundDB others)
        (fun _ => false) 0 [] = .ok ((server.heldBy ownerID (world P init.toSoundDB others 0)).map
          (ownedVehicleBy server (world P init.toSoundDB others 0)), [], 1) := by
      simp [listVehicles, Prog.query, Prog.execAt]
    simp only [withSession, Prog.bind_eq]
    rw [Prog.execAt_bind _ _ _ _ _ _ hlist, hexec]
    exact ⟨rfl, ownerID, _, hsession, hrows, hms⟩

end

end Mototeca
