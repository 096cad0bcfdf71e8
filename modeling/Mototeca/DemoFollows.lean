import Mototeca.DemoWrites
import Mototeca.Runs

/-!
# The demo's writes against the server's

The demo checks less than `Validate` does and in another order, and it keeps
texts as they came. It answers as the server does, and goes on mirroring it,
as long as the requests leave that no room.
-/

namespace Mototeca

open ReadCommitted ProtoJson
open Mobile (Dart DemoBackend DemoRecord DemoError)

/-! ## When both do the same -/

/-- `recordId` is the demo's id for the record of `id`, or neither side has a record of it. -/
def SameID (t : Twin) (id : Bytes) (recordId : String) : Prop :=
  (∃ row, t.db.serviceRecord (canonicalID id) = some row ∧ validID id = true ∧ recordId = t.names.record row.id) ∨
    ((validID id = true → t.db.serviceRecord (canonicalID id) = none) ∧ ∀ r ∈ t.demo.records, r.id ≠ recordId)

/-- Both sides get the same request of a signed-in workshop at the same moment. -/
structure Asked.Same (t : Twin) (a : Asked) : Prop where
  signedIn : a.workshopID ≠ [] ∧ ∃ w ∈ t.db.workshops, w.id = a.workshopID
  moment : a.moment.microsecondsSinceEpoch * 1000 = a.now
  unused : a.generator.Unused t.db
  record : ∀ req recordId, a.write = .revise req recordId → SameID t req.recordID recordId

def LowerMileage (d : DB) (req : CreateServiceRecordRequest) (v : VehicleRow) : Prop :=
  req.confirmLowerMileage = false ∧ ∃ highest, d.highestMileage v.id = some highest ∧ req.mileageKm < highest

/-- What the demo's checks leave to `Validate` is in order. -/
def CreateMeets (P : Platform) (dart : Dart) (d : DB) (workshopID : UUID) (req : CreateServiceRecordRequest) : Prop :=
  match d.vehicleByPlate (Mobile.normalizePlate dart req.plate) with
  | none => d.vehicleByPlate (normalizePlate P req.plate) = none ∧
      DB.storable (normalizePlate P req.plate) = true ∧ req.Acceptable workshopID
  | some v => req.DraftRefused ∨
      (d.vehicleByPlate (normalizePlate P req.plate) = some v ∧ req.Acceptable workshopID ∧
        (LowerMileage d req v ∨ KeptAsSent P d workshopID req.toRecordMsg))

def ReviseMeets (P : Platform) (d : DB) (workshopID : UUID) (req : ReviseServiceRecordRequest) : Prop :=
  req.recordID ≠ [] ∧ ∀ row, validID req.recordID = true → d.serviceRecord (canonicalID req.recordID) = some row →
    (row.workshopID = workshopID → row.supersededBy = none →
      req.DraftRefused ∨ (req.Acceptable workshopID ∧ KeptAsSent P d workshopID req.toRecordMsg)) ∧
    (¬ (row.workshopID = workshopID ∧ row.supersededBy = none) → req.Acceptable workshopID)

def Asked.Meets (P : Platform) (dart : Dart) (t : Twin) (a : Asked) : Prop :=
  match a.write with
  | .create req => CreateMeets P dart t.db a.workshopID req
  | .revise req _ => ReviseMeets P t.db a.workshopID req

theorem RecordMsg.DraftRefused.invalid {msg : RecordMsg} {workshopID : UUID} {plate : String} {revises : Option Bytes}
    {confirm : Bool} (h : msg.DraftRefused) : ¬ Valid (msg.input workshopID plate revises confirm) := by
  intro hvalid
  have hkm : 0 ≤ msg.mileageKm ∧ msg.mileageKm ≤ maxMileageKm := hvalid.mileageKm
  rcases h with hops | hkm' | hkm'
  · exact hvalid.operations (by simp [RecordMsg.input, hops])
  · omega
  · omega

theorem RecordMsg.Acceptable.not_refused {msg : RecordMsg} {workshopID : UUID} (h : msg.Acceptable workshopID) :
    ¬ msg.DraftRefused :=
  fun hrefused => hrefused.invalid h

section
variable {P : Platform} {dart : Dart} {t : Twin} {a : Asked}

def SameStep (P : Platform) (dart : Dart) (t : Twin) (a : Asked) : Prop :=
  SameAnswer (a.server P t.db).1 (a.demo dart t.names t.demo).1 ∧
    Mirrors (t.step P dart a).names (t.step P dart a).db (t.step P dart a).demo

theorem sameStep_refused (hm : Mirrors t.names t.db t.demo) (code : Code) (status : Nat)
    (hserver : ∃ message, a.server P t.db = (.error (.connect code message), t.db))
    (hdemo : ∃ message, a.demo dart t.names t.demo = (.error (.failure status code.text message), t.demo)) :
    SameStep P dart t a := by
  obtain ⟨message, hserver⟩ := hserver
  obtain ⟨message', hdemo⟩ := hdemo
  unfold SameStep Twin.step
  rw [hserver, hdemo]
  exact ⟨rfl, hm⟩

theorem sameStep_accepted {id : UUID} {d' : DB} {r : DemoRecord} {s' : DemoBackend}
    (hserver : a.server P t.db = (.ok id, d')) (hdemo : a.demo dart t.names t.demo = (.ok r, s'))
    (hm : Mirrors (t.names.set id r.id) d' s') : SameStep P dart t a := by
  unfold SameStep Twin.step
  rw [hserver, hdemo]
  exact ⟨trivial, hm⟩

theorem server_eq (h : a.workshopID ≠ []) (d : DB) : a.server P d = undisturbed a.generator d
    (match a.write with
      | .create req => createServiceRecord P a.now a.workshopID req
      | .revise req _ => reviseServiceRecord P a.now a.workshopID req) := by
  have hrequire : requireWorkshopID (some ⟨.workshop, a.workshopID⟩) = .ok a.workshopID := by
    simp [requireWorkshopID, require, subjectFrom, Option.filter, h]
  rw [Asked.server, hrequire]
  rfl

theorem server_create (hsame : a.Same t) {req : CreateServiceRecordRequest} (ha : a.write = .create req) :
    a.server P t.db = undisturbed a.generator t.db (createServiceRecord P a.now a.workshopID req) := by
  rw [server_eq hsame.signedIn.1, ha]

theorem demo_create (dart : Dart) (t : Twin) {req : CreateServiceRecordRequest} (ha : a.write = .create req) {id : UUID}
    (hid : id = a.workshopID) : a.demo dart t.names t.demo =
      t.demo.createRecord dart a.moment (members req.fields) (some ("demo-w-" ++ t.names.workshop id)) := by
  rw [Asked.demo, ha, hid]
  rfl

theorem server_revise (hsame : a.Same t) {req : ReviseServiceRecordRequest} {recordId : String}
    (ha : a.write = .revise req recordId) :
    a.server P t.db = undisturbed a.generator t.db (reviseServiceRecord P a.now a.workshopID req) := by
  rw [server_eq hsame.signedIn.1, ha]

theorem demo_revise (dart : Dart) (t : Twin) {req : ReviseServiceRecordRequest} {recordId : String}
    (ha : a.write = .revise req recordId) {id : UUID} (hid : id = a.workshopID) : a.demo dart t.names t.demo =
      t.demo.reviseRecord a.moment (members (req.fields recordId)) (some ("demo-w-" ++ t.names.workshop id)) := by
  rw [Asked.demo, ha, hid]
  rfl

theorem found_of_row (hm : Mirrors t.names t.db t.demo) {id : UUID} {row : ServiceRecordRow}
    (hrow : t.db.serviceRecord id = some row) : ∃ v r, t.db.vehicle row.vehicleID = some v ∧
      t.demo.recordById (t.names.record row.id) = .ok r ∧ SameRecord t.names t.db row r := by
  obtain ⟨hmem, -⟩ := serviceRecord_some hrow
  obtain ⟨r, hr, hrecord⟩ := hm.record_of_row hmem
  obtain ⟨v, hv⟩ := hm.schema.vehicle_of_record hmem
  exact ⟨v, r, hv, hr, hrecord⟩

theorem hasWorkshop_of_mem {d : DB} {w : WorkshopRow} (hw : w ∈ d.workshops) : d.hasWorkshop w.id = true :=
  List.any_eq_true.mpr ⟨w, hw, by simp⟩

theorem sameStep_created (hm : Mirrors t.names t.db t.demo) (hsame : a.Same t) {w : WorkshopRow} {v : VehicleRow}
    (hw : w ∈ t.db.workshops) {req : CreateServiceRecordRequest}
    (hserver : a.server P t.db = undisturbed a.generator t.db (createServiceRecord P a.now w.id req))
    (hdemo : a.demo dart t.names t.demo =
      t.demo.createRecord dart a.moment (members req.fields) (some ("demo-w-" ++ t.names.workshop w.id)))
    (hv : t.db.vehicleByPlate (Mobile.normalizePlate dart req.plate) = some v)
    (hplate : t.db.vehicleByPlate (normalizePlate P req.plate) = some v) (hvalid : req.Acceptable w.id)
    (hlower : ¬ LowerMileage t.db req v) (hkept : KeptAsSent P t.db w.id req.toRecordMsg) : SameStep P dart t a := by
  have hodo : req.confirmLowerMileage = false → ∀ n, t.db.highestMileage v.id = some n → n ≤ req.mileageKm :=
    fun hconfirm n hn => Int.not_lt.mp fun hlt => hlower ⟨hconfirm, n, hn, hlt⟩
  have hinput := hvalid.valid (normalizePlate P req.plate) none req.confirmLowerMileage
  have haccepts : Accepts P a.now a.generator (req.createInput P w.id) none t.db v :=
    accepts_of_valid hm.schema hinput (hkept.storable ..) hsame.unused (hasWorkshop_of_mem hw) hplate (fun _ => hodo)
      fun r hr => by cases hr
  obtain ⟨ts, hts, halone⟩ := create_accepted hm.schema hinput haccepts
  have hadds := haccepts.adds hm.schema hsame.unused hts
  have hnew := sameRecord_new hm hw hsame.unused hsame.moment hinput hkept haccepts hts hadds none [] rfl (.refl _)
  refine sameStep_accepted (hserver.trans halone) (hdemo.trans (demo_created hm hw hv hvalid.not_refused hodo)) ?_
  have hmirrors := hm.write hadds (req.demoRecord t.demo ⟨t.names.workshop w.id, w.name⟩ v.plate a.moment) rfl hnew
  have hkeep (name : String) :
      t.demo.records.map ((writtenBy P a.now a.generator (req.createInput P w.id) none t.db v ts).mark t.names name) =
        t.demo.records := List.map_id _
  rw [hkeep] at hmirrors
  exact hmirrors

theorem sameStep_create (hm : Mirrors t.names t.db t.demo) (hsame : a.Same t) {req : CreateServiceRecordRequest}
    (ha : a.write = .create req) (hmeets : CreateMeets P dart t.db a.workshopID req) : SameStep P dart t a := by
  obtain ⟨-, w, hw, hid⟩ := hsame.signedIn
  have hserver := server_create (P := P) hsame ha
  have hdemo := demo_create dart t ha hid
  unfold CreateMeets at hmeets
  cases hv : t.db.vehicleByPlate (Mobile.normalizePlate dart req.plate) with
  | none =>
    rw [hv] at hmeets
    obtain ⟨hplate, htext, hvalid⟩ := hmeets
    refine sameStep_refused hm .notFound 404 ?_ ?_
    · rw [hserver]
      exact create_unregistered (hvalid.valid _ _ _) htext hplate
    · rw [hdemo]
      exact demo_unregistered hm hw hv
  | some v =>
    rw [hv] at hmeets
    rcases hmeets with hrefused | ⟨hplate, hvalid, hkept⟩
    · refine sameStep_refused hm .invalidArgument 400 ?_ ?_
      · rw [hserver]
        exact create_invalid hrefused.invalid
      · rw [hdemo]
        exact demo_createDraft hm hw hv hrefused
    · by_cases hlower : LowerMileage t.db req v
      · obtain ⟨hconfirm, highest, hhighest, hlt⟩ := hlower
        refine sameStep_refused hm .failedPrecondition 400 ?_ ?_
        · rw [hserver]
          exact create_lower hm.schema (hvalid.valid _ _ _) hplate hconfirm hhighest hlt
        · rw [hdemo]
          exact demo_lower hm hw hv hvalid.not_refused hconfirm hhighest hlt
      · rw [← hid] at hserver hvalid hkept
        exact sameStep_created hm hsame hw hserver hdemo hv hplate hvalid hlower (hkept.resolve_left hlower)

section
variable {w : WorkshopRow} {v : VehicleRow} {row : ServiceRecordRow} {r : DemoRecord} {req : ReviseServiceRecordRequest}

theorem sameStep_revised (hm : Mirrors t.names t.db t.demo) (hsame : a.Same t) (hw : w ∈ t.db.workshops)
    (hserver : a.server P t.db = undisturbed a.generator t.db (reviseServiceRecord P a.now w.id req))
    (hdemo : a.demo dart t.names t.demo = t.demo.reviseRecord a.moment (members (req.fields (t.names.record row.id)))
      (some ("demo-w-" ++ t.names.workshop w.id)))
    (hblank : req.recordID ≠ []) (hid : validID req.recordID = true)
    (hrow : t.db.serviceRecord (canonicalID req.recordID) = some row) (hv : t.db.vehicle row.vehicleID = some v)
    (hr : t.demo.recordById (t.names.record row.id) = .ok r) (hrecord : SameRecord t.names t.db row r)
    (hown : row.workshopID = w.id) (hcurrent : row.supersededBy = none) (hvalid : req.Acceptable w.id)
    (hkept : KeptAsSent P t.db w.id req.toRecordMsg) : SameStep P dart t a := by
  have hrowID := (serviceRecord_some hrow).2
  obtain ⟨hvmem, hvid⟩ := vehicle_some hv
  have hplate : r.plate = v.plate := by
    obtain ⟨v', hv', hid', hplate⟩ := hrecord.plate
    rw [hplate, hm.schema.vehicle_eq hv' hvmem (hid'.trans hvid.symm)]
  have hinput := hvalid.valid v.plate (some req.recordID) false
  have haccepts : Accepts P a.now a.generator (req.reviseInput w.id v.plate) (some ⟨w.id, req.recordID⟩) t.db v :=
    accepts_of_valid hm.schema hinput (hkept.storable ..) hsame.unused (hasWorkshop_of_mem hw)
      (hm.schema.vehicleByPlate_of_mem hvmem) (fun hnone => by cases hnone)
      fun rev hrev => by
        obtain rfl := Option.some.inj hrev
        exact ⟨hid, row, hrow, hown, hcurrent⟩
  obtain ⟨ts, hts, halone⟩ := revise_accepted hm.schema hblank hid hrow hv hinput haccepts
  have hadds := haccepts.adds hm.schema hsame.unused hts
  have hname : t.names.record (canonicalID req.recordID) = r.id := by rw [← hrowID, hrecord.id]
  have hfiles := hrecord.attachments
  rw [hrowID] at hfiles
  have hnew := sameRecord_new hm hw hsame.unused hsame.moment hinput hkept haccepts hts hadds (some r.id) r.attachments
    (congrArg some hname) hfiles
  refine sameStep_accepted (hserver.trans halone)
    (hdemo.trans (demo_revised hm hw hr hrecord hown hcurrent hvalid.not_refused)) ?_
  have hcorrection : req.demoCorrection t.demo ⟨t.names.workshop w.id, w.name⟩ r a.moment =
      { req.demoRecord t.demo ⟨t.names.workshop w.id, w.name⟩ v.plate a.moment with
        revisesRecordId := some r.id, attachments := r.attachments } := by
    rw [RecordMsg.demoCorrection, hplate]
  rw [← hcorrection] at hnew
  have hmirrors := hm.write hadds (req.demoCorrection t.demo ⟨t.names.workshop w.id, w.name⟩ r a.moment) rfl hnew
  have hmark (name : String) : (writtenBy P a.now a.generator (req.reviseInput w.id v.plate)
      (some ⟨w.id, req.recordID⟩) t.db v ts).mark t.names name = DemoBackend.markSuperseded r.id name := by
    funext r'
    show DemoBackend.markSuperseded (t.names.record (canonicalID req.recordID)) name r' = _
    rw [hname]
  rw [hmark] at hmirrors
  exact hmirrors

end

theorem sameStep_revise (hm : Mirrors t.names t.db t.demo) (hsame : a.Same t) {req : ReviseServiceRecordRequest}
    {recordId : String} (ha : a.write = .revise req recordId) (hmeets : ReviseMeets P t.db a.workshopID req) :
    SameStep P dart t a := by
  obtain ⟨-, w, hw, hid⟩ := hsame.signedIn
  have hserver := server_revise (P := P) hsame ha
  have hdemo := demo_revise dart t ha hid
  obtain ⟨hblank, hmeets⟩ := hmeets
  rw [← hid] at hserver hmeets
  rcases hsame.record req recordId ha with ⟨row, hrow, hvalidID, rfl⟩ | ⟨hunknown, hdemoUnknown⟩
  · obtain ⟨v, r, hv, hr, hrecord⟩ := found_of_row hm hrow
    obtain ⟨hmine, hother⟩ := hmeets row hvalidID hrow
    by_cases hown : row.workshopID = w.id
    · cases hs : row.supersededBy with
      | none =>
        rcases hmine hown hs with hrefused | ⟨hvalid, hkept⟩
        · refine sameStep_refused hm .invalidArgument 400 ?_ ?_
          · rw [hserver]
            exact revise_invalid hm.schema hblank hvalidID hrow hv hrefused.invalid
          · rw [hdemo]
            exact demo_reviseDraft hm hw hr hrecord hown hs hrefused
        · exact sameStep_revised hm hsame hw hserver hdemo hblank hvalidID hrow hv hr hrecord hown hs hvalid hkept
      | some new =>
        have hsuperseded : row.supersededBy.isSome = true := by rw [hs]; rfl
        have hvalid := hother fun h => by rw [hs] at h; cases h.2
        refine sameStep_refused hm .failedPrecondition 400 ?_ ?_
        · rw [hserver]
          exact revise_superseded hm.schema hblank hvalidID hrow hv (hvalid.valid _ _ _) hown hsuperseded
        · rw [hdemo]
          exact demo_superseded hm hw hr hrecord hown hsuperseded
    · have hvalid := hother fun h => hown h.1
      refine sameStep_refused hm .notFound 404 ?_ ?_
      · rw [hserver]
        exact ⟨_, revise_foreign hm.schema hblank hvalidID hrow hv (hvalid.valid _ _ _) hown⟩
      · rw [hdemo]
        exact demo_foreign hm hw hr hrecord hown
  · refine sameStep_refused hm .notFound 404 ?_ ?_
    · rw [hserver]
      exact ⟨_, revise_unknown hblank hunknown⟩
    · rw [hdemo]
      exact demo_unknown hm hw hdemoUnknown

end

/-! ## Every run -/

def twinStep (P : Platform) (dart : Dart) (t : Twin) (a : Asked) : Option Twin := some (t.step P dart a)

/-- Both list the same current records of every bike. -/
def SameCurrent (t : Twin) : Prop :=
  ∀ v ∈ t.db.vehicles, ∃ l : List (ServiceRecordRow × DemoRecord), (t.db.currentRecords v.id).Perm (l.map (·.1)) ∧
    (t.demo.currentRecords v.plate).Perm (l.map (·.2)) ∧ ∀ p ∈ l, SameRecord t.names t.db p.1 p.2

section
variable (P : Platform) (dart : Dart)

theorem sameStep {t : Twin} (hm : Mirrors t.names t.db t.demo) {a : Asked} (hsame : a.Same t)
    (hmeets : a.Meets P dart t) : SameStep P dart t a := by
  unfold Asked.Meets at hmeets
  cases ha : a.write with
  | create req =>
    rw [ha] at hmeets
    exact sameStep_create hm hsame ha hmeets
  | revise req recordId =>
    rw [ha] at hmeets
    exact sameStep_revise hm hsame ha hmeets

/-- In a run whose requests meet the condition the demo answers as the server does,
and the two stay in correspondence. -/
theorem demo_follows {t : Twin} (hm : Mirrors t.names t.db t.demo) (as : List Asked)
    (hrun : Runs.EveryStep (twinStep P dart) (fun t a => a.Same t ∧ a.Meets P dart t) t as) :
    Runs.EveryStep (twinStep P dart) (fun t a => SameStep P dart t a ∧ SameCurrent (t.step P dart a)) t as := by
  refine hrun.along (P := fun t => Mirrors t.names t.db t.demo) (fun t a t' hstep hR hm => ?_) (fun t a hm hR => ?_)
    as t hm
  · obtain rfl := Option.some.inj hstep
    exact (sameStep P dart hm hR.1 hR.2).2
  · have hsame := sameStep P dart hm hR.1 hR.2
    exact ⟨hsame, fun v hv => hsame.2.current hv⟩

end

/-! ## A request that meets it, and one that does not -/

def garageTwin : Twin := ⟨longNames, longDB 0, longDemo 0⟩

theorem garageTwin_mirrors : Mirrors garageTwin.names garageTwin.db garageTwin.demo := long_mirrors (by decide) rfl

def serviceRequest (operations : List Int) : CreateServiceRecordRequest :=
  ⟨⟨some "Ana", operations, 100, none, some "ok", [⟨"Filtro", 1, some 4500⟩]⟩, "abc-1d23", false⟩

def serviced (operations : List Int) : Asked where
  workshopID := uuid "1"
  write := .create (serviceRequest operations)
  now := 5000
  generator := sameID
  moment := ⟨5, false⟩

theorem serviced_same (operations : List Int) : (serviced operations).Same garageTwin where
  signedIn := ⟨show uuid "1" ≠ [] by decide, _, List.mem_cons_self .., rfl⟩
  moment := rfl
  unused := ⟨rfl, rfl, fun a ha => (by cases ha), fun i hi => absurd hi (Nat.not_lt_zero i)⟩
  record req recordId h := by cases h

theorem serviceRequest_kept : KeptAsSent plain (longDB 0) (uuid "1") (serviceRequest [1, 3]).toRecordMsg where
  mechanicName m hm := by
    obtain rfl := Option.some.inj hm
    exact ⟨by decide, by decide, fun row hrow => by cases hrow⟩
  notes n hn := by
    obtain rfl := Option.some.inj hn
    decide
  parts p hp := by
    obtain rfl := List.mem_singleton.mp hp
    exact ⟨by decide, by decide⟩

theorem serviceRequest_meets : CreateMeets plain utcDart (longDB 0) (uuid "1") (serviceRequest [1, 3]) := by
  have hdart : (longDB 0).vehicleByPlate (Mobile.normalizePlate utcDart (serviceRequest [1, 3]).plate) =
      some ⟨uuid "3", "ABC1D23", "9C2KC1670ER000001", "Honda", "CG 160", 2024, none⟩ := by decide +kernel
  have hgo : (longDB 0).vehicleByPlate (normalizePlate plain (serviceRequest [1, 3]).plate) =
      some ⟨uuid "3", "ABC1D23", "9C2KC1670ER000001", "Honda", "CG 160", 2024, none⟩ := by decide +kernel
  have hvalid : ((serviceRequest [1, 3]).toRecordMsg.input (uuid "1") "" none false).validate = none := by
    decide +kernel
  unfold CreateMeets
  rw [hdart]
  exact .inr ⟨hgo, validate_eq_none.mp hvalid, .inr serviceRequest_kept⟩

theorem garage_follows :
    Runs.EveryStep (twinStep plain utcDart) (fun t a => a.Same t ∧ a.Meets plain utcDart t) garageTwin
        [serviced [1, 3]] ∧
      Runs.EveryStep (twinStep plain utcDart)
        (fun t a => SameStep plain utcDart t a ∧ SameCurrent (t.step plain utcDart a)) garageTwin
        [serviced [1, 3]] := by
  have hmeets : Runs.EveryStep (twinStep plain utcDart) (fun t a => a.Same t ∧ a.Meets plain utcDart t) garageTwin
      [serviced [1, 3]] := ⟨⟨serviced_same _, serviceRequest_meets⟩, trivial⟩
  exact ⟨hmeets, demo_follows plain utcDart garageTwin_mirrors _ hmeets⟩

theorem SameAnswer.isOk {x : Except Failure UUID} {y : Except DemoError DemoRecord} (h : SameAnswer x y) :
    x.isOk = y.isOk := by
  cases x with
  | ok id =>
    cases y with
    | ok r => rfl
    | error e => cases h
  | error e =>
    cases y with
    | ok r => cases e <;> cases h
    | error e' => rfl

/-- The workshop sends the oil change twice: the server refuses it and the demo stores it. -/
theorem repeatedOperation_differs :
    Mirrors garageTwin.names garageTwin.db garageTwin.demo ∧ (serviced [1, 1]).Same garageTwin ∧
      ¬ SameAnswer ((serviced [1, 1]).server plain garageTwin.db).1
        ((serviced [1, 1]).demo utcDart garageTwin.names garageTwin.demo).1 := by
  have hserver : ((serviced [1, 1]).server plain garageTwin.db).1.isOk = false := by decide +kernel
  have hdemo : ((serviced [1, 1]).demo utcDart garageTwin.names garageTwin.demo).1.isOk = true := by decide +kernel
  refine ⟨garageTwin_mirrors, serviced_same _, fun h => ?_⟩
  have hsame := h.isOk
  rw [hserver, hdemo] at hsame
  cases hsame

end Mototeca
