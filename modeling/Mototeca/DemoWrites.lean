import Mototeca.Mirroring
import Mototeca.Outcomes

/-!
# The demo's writes

`CreateServiceRecord` and `ReviseServiceRecord` sent to a server and to a demo
backend that mirrors its tables: what the demo reads of the request, what it
answers, and that the record it makes is the one the server stores.
-/

namespace Mototeca

open ReadCommitted ProtoJson
open Mobile (Json JsonMap Dart DemoBackend DemoRecord DemoError DemoWorkshop asString asInt asList)

/-! ## One request, to both -/

def Code.text : Code → String
  | .invalidArgument => "invalid_argument"
  | .notFound => "not_found"
  | .alreadyExists => "already_exists"
  | .unauthenticated => "unauthenticated"
  | .permissionDenied => "permission_denied"
  | .failedPrecondition => "failed_precondition"
  | .resourceExhausted => "resource_exhausted"
  | .internal => "internal"

def Part.json (p : Part) : JsonMap := members (Servicev1.Part.fields ⟨p.name, p.quantity, p.costCents⟩)

def RecordMsg.fields (msg : RecordMsg) : List (String × Option Json) :=
  [("mechanicName", msg.mechanicName.map .string), ("operations", repeated (enumJson serviceTypeNames) msg.operations),
    ("mileageKm", (nonzero 0 msg.mileageKm).map integer), ("costCents", msg.costCents.map integer),
    ("notes", msg.notes.map .string), ("parts", repeated (fun p => .map p.json) msg.parts)]

def CreateServiceRecordRequest.fields (req : CreateServiceRecordRequest) : List (String × Option Json) :=
  ("plate", (nonzero "" req.plate).map .string) ::
    ("confirmLowerMileage", (nonzero false req.confirmLowerMileage).map .bool) :: req.toRecordMsg.fields

/-- The message with the demo's id for the record. -/
def ReviseServiceRecordRequest.fields (req : ReviseServiceRecordRequest) (recordId : String) :
    List (String × Option Json) :=
  ("recordId", (nonzero "" recordId).map .string) :: req.toRecordMsg.fields

inductive Write where
  | create (req : CreateServiceRecordRequest)
  | revise (req : ReviseServiceRecordRequest) (recordId : String)

/-- A write of a signed-in workshop, with the clocks and the ids of both sides. -/
structure Asked where
  workshopID : UUID
  write : Write
  now : Time
  generator : Generator
  moment : Mobile.DateTime

structure Twin where
  names : Names
  db : DB
  demo : DemoBackend

namespace Asked

variable (a : Asked)

def server (P : Platform) (d : DB) : Except Failure UUID × DB :=
  undisturbed a.generator d (withSession (requireWorkshopID (some ⟨.workshop, a.workshopID⟩)) fun id =>
    match a.write with
    | .create req => createServiceRecord P a.now id req
    | .revise req _ => reviseServiceRecord P a.now id req)

def token (n : Names) : String := "demo-w-" ++ n.workshop a.workshopID

def demo (dart : Dart) (n : Names) (s : DemoBackend) : Except DemoError DemoRecord × DemoBackend :=
  match a.write with
  | .create req => s.createRecord dart a.moment (members req.fields) (some (a.token n))
  | .revise req recordId => s.reviseRecord a.moment (members (req.fields recordId)) (some (a.token n))

end Asked

def SameAnswer : Except Failure UUID → Except DemoError DemoRecord → Prop
  | .ok _, .ok _ => True
  | .error (.connect code _), .error (.failure _ text _) => text = code.text
  | _, _ => False

/-- Both take the request, and a record that both made gets its name. -/
def Twin.step (P : Platform) (dart : Dart) (t : Twin) (a : Asked) : Twin where
  names :=
    match (a.server P t.db).1, (a.demo dart t.names t.demo).1 with
    | .ok id, .ok record => { t.names with record := Function.update t.names.record id record.id }
    | _, _ => t.names
  db := (a.server P t.db).2
  demo := (a.demo dart t.names t.demo).2

/-! ## What the demo reads -/

/-- `json` has the members of `msg`. -/
structure Reads (json : JsonMap) (msg : RecordMsg) : Prop where
  mechanicName : json.lookup "mechanicName" = msg.mechanicName.map .string
  operations : json.lookup "operations" = repeated (enumJson serviceTypeNames) msg.operations
  mileageKm : json.lookup "mileageKm" = (nonzero 0 msg.mileageKm).map integer
  costCents : json.lookup "costCents" = msg.costCents.map integer
  notes : json.lookup "notes" = msg.notes.map .string
  parts : json.lookup "parts" = repeated (fun p => .map p.json) msg.parts

theorem create_keys (req : CreateServiceRecordRequest) : (req.fields.map (·.1)).Nodup := by
  simp [CreateServiceRecordRequest.fields, RecordMsg.fields]

theorem revise_keys (req : ReviseServiceRecordRequest) (recordId : String) :
    ((req.fields recordId).map (·.1)).Nodup := by
  simp [ReviseServiceRecordRequest.fields, RecordMsg.fields]

theorem create_reads (req : CreateServiceRecordRequest) : Reads (members req.fields) req.toRecordMsg where
  mechanicName := lookup_members (create_keys req) _ rfl
  operations := lookup_members (create_keys req) _ rfl
  mileageKm := lookup_members (create_keys req) _ rfl
  costCents := lookup_members (create_keys req) _ rfl
  notes := lookup_members (create_keys req) _ rfl
  parts := lookup_members (create_keys req) _ rfl

theorem revise_reads (req : ReviseServiceRecordRequest) (recordId : String) :
    Reads (members (req.fields recordId)) req.toRecordMsg where
  mechanicName := lookup_members (revise_keys req recordId) _ rfl
  operations := lookup_members (revise_keys req recordId) _ rfl
  mileageKm := lookup_members (revise_keys req recordId) _ rfl
  costCents := lookup_members (revise_keys req recordId) _ rfl
  notes := lookup_members (revise_keys req recordId) _ rfl
  parts := lookup_members (revise_keys req recordId) _ rfl

/-- The requests that `_validDraft` refuses. -/
def RecordMsg.DraftRefused (msg : RecordMsg) : Prop :=
  msg.operations = [] ∨ msg.mileageKm < 0 ∨ maxMileageKm < msg.mileageKm

/-- What `_newRecord` makes of `msg`. -/
def RecordMsg.demoRecord (msg : RecordMsg) (s : DemoBackend) (workshop : DemoWorkshop) (plate : String)
    (moment : Mobile.DateTime) : DemoRecord where
  id := "record-" ++ toString (s.sequence + 1)
  plate := plate
  workshopId := workshop.id
  workshopName := workshop.name
  mechanicName := msg.mechanicName.map .string
  operations := msg.operations.map (enumJson serviceTypeNames)
  mileageKm := msg.mileageKm
  costCents := msg.costCents
  notes := msg.notes.map .string
  parts := msg.parts.map (·.json)
  attachments := []
  createdAt := moment
  revisesRecordId := none
  supersededByRecordId := none

theorem asParts_maps (parts : List Part) :
    DemoBackend.asParts (parts.map fun p => .map p.json) = .ok (parts.map (·.json)) := by
  induction parts with
  | nil => rfl
  | cons p parts ih =>
    rw [List.map_cons, DemoBackend.asParts, ih]
    rfl

def RecordMsg.demoCorrection (msg : RecordMsg) (s : DemoBackend) (workshop : DemoWorkshop) (original : DemoRecord)
    (moment : Mobile.DateTime) : DemoRecord :=
  { msg.demoRecord s workshop original.plate moment with
    revisesRecordId := some original.id, attachments := original.attachments }

section
variable {json : JsonMap} {msg : RecordMsg} (h : Reads json msg) {s : DemoBackend}
include h

theorem reads_mileageKm : ∃ raw, asInt (json.lookup "mileageKm") = .ok raw ∧ raw.getD 0 = msg.mileageKm :=
  ⟨nonzero 0 msg.mileageKm, by rw [h.mileageKm, asInt_map], getD_nonzero _ _⟩

theorem validDraft_refused (hrefused : msg.DraftRefused) :
    ∃ message, DemoBackend.validDraft json = .error (.failure 400 "invalid_argument" message) := by
  obtain ⟨raw, hraw, hoperations⟩ := asList_repeated (enumJson serviceTypeNames) msg.operations
  obtain ⟨km, hkm, hmileage⟩ := reads_mileageKm h
  simp only [DemoBackend.validDraft, h.operations, hraw, hkm, Mobile.orThrow, bind, Except.bind, hoperations, hmileage,
    List.isEmpty_map]
  by_cases hops : msg.operations = []
  · simp [hops]
  · have hbad : msg.mileageKm < 0 ∨ 2000000 < msg.mileageKm := hrefused.resolve_left hops
    simp [hops, hbad]

theorem validDraft_ok (hrefused : ¬ msg.DraftRefused) : DemoBackend.validDraft json = .ok msg.mileageKm := by
  obtain ⟨raw, hraw, hoperations⟩ := asList_repeated (enumJson serviceTypeNames) msg.operations
  obtain ⟨km, hkm, hmileage⟩ := reads_mileageKm h
  obtain ⟨hops, hgood⟩ := not_or.mp hrefused
  have hgood : ¬ (msg.mileageKm < 0 ∨ 2000000 < msg.mileageKm) := hgood
  simp only [DemoBackend.validDraft, h.operations, hraw, hkm, Mobile.orThrow, bind, Except.bind, hoperations, hmileage,
    List.isEmpty_map]
  simp [hops, hgood]

theorem newRecord_reads (workshop : DemoWorkshop) (plate : String) (moment : Mobile.DateTime) :
    s.newRecord json workshop plate moment = .ok (msg.demoRecord s workshop plate moment) := by
  obtain ⟨raw, hraw, hoperations⟩ := asList_repeated (enumJson serviceTypeNames) msg.operations
  obtain ⟨km, hkm, hmileage⟩ := reads_mileageKm h
  obtain ⟨rawParts, hrawParts, hparts⟩ := asList_repeated (fun p : Part => .map p.json) msg.parts
  simp only [DemoBackend.newRecord, h.operations, hraw, hkm, h.costCents, asInt_map, h.parts, hrawParts, Mobile.orThrow,
    bind, Except.bind, hoperations, hmileage, hparts, asParts_maps, h.mechanicName, h.notes]
  rfl

end

theorem workshopId_token (id : String) : DemoBackend.workshopId (some ("demo-w-" ++ id)) = .ok id := by
  have hlist : ("demo-w-" ++ id).toList = "demo-w-".toList ++ id.toList := String.toList_append
  have hprefix : "demo-w-".toList.isPrefixOf ("demo-w-".toList ++ id.toList) = true :=
    List.isPrefixOf_iff_prefix.mpr (List.prefix_append ..)
  simp only [DemoBackend.workshopId, hlist, hprefix, ite_true]
  exact congrArg _ (String.ofList_toList)

/-! ## What the demo answers -/

section
variable {n : Names} {d : DB} {s : DemoBackend} (h : Mirrors n d s) {dart : Dart} {moment : Mobile.DateTime}
include h

theorem demo_workshop {w : WorkshopRow} (hw : w ∈ d.workshops) :
    DemoBackend.workshopId (some ("demo-w-" ++ n.workshop w.id)) = .ok (n.workshop w.id) ∧
      s.workshopById (n.workshop w.id) = .ok ⟨n.workshop w.id, w.name⟩ :=
  ⟨workshopId_token _, h.workshops w hw⟩

theorem admitCreate_eq {w : WorkshopRow} (hw : w ∈ d.workshops) (req : CreateServiceRecordRequest) :
    s.admitCreate dart (members req.fields) (some ("demo-w-" ++ n.workshop w.id)) =
      if (s.vehicleByPlate (Mobile.normalizePlate dart req.plate)).isNone then
        .error (.failure 404 "not_found" "moto não cadastrada — cadastre a placa antes")
      else (DemoBackend.validDraft (members req.fields)).bind fun mileageKm =>
        let highest := DemoBackend.highest ((s.currentRecords (Mobile.normalizePlate dart req.plate)).map (·.mileageKm))
        if !req.confirmLowerMileage && highest.any (mileageKm < ·) then
          .error (.failure 400 "failed_precondition" ("quilometragem menor que a última registrada para esta moto (" ++
            toString (highest.getD 0) ++ " km)"))
        else .ok (⟨n.workshop w.id, w.name⟩, Mobile.normalizePlate dart req.plate) := by
  obtain ⟨hid, hworkshop⟩ := demo_workshop h hw
  have hplate : asString ((members req.fields).lookup "plate") = .ok (nonzero "" req.plate) := by
    rw [lookup_members (create_keys req) "plate" rfl, asString_map]
  have hconfirms : DemoBackend.confirms ((members req.fields).lookup "confirmLowerMileage") =
      req.confirmLowerMileage := by
    rw [lookup_members (create_keys req) "confirmLowerMileage" rfl]
    cases req.confirmLowerMileage <;> rfl
  simp only [DemoBackend.admitCreate, hid, hworkshop, hplate, hconfirms, Mobile.orThrow, getD_nonzero, bind,
    Except.bind]

theorem demo_unregistered {w : WorkshopRow} (hw : w ∈ d.workshops) {req : CreateServiceRecordRequest}
    (hv : d.vehicleByPlate (Mobile.normalizePlate dart req.plate) = none) : ∃ message,
    s.createRecord dart moment (members req.fields) (some ("demo-w-" ++ n.workshop w.id)) =
      (.error (.failure 404 "not_found" message), s) := by
  have hnone : s.vehicleByPlate (Mobile.normalizePlate dart req.plate) = none := by rw [h.vehicles, hv, Option.map_none]
  refine ⟨"moto não cadastrada — cadastre a placa antes", ?_⟩
  rw [DemoBackend.createRecord, admitCreate_eq h hw, hnone]
  rfl

theorem demo_registered {plate : String} {v : VehicleRow} (hv : d.vehicleByPlate plate = some v) :
    (s.vehicleByPlate plate).isNone = false := by
  rw [h.vehicles, hv]
  rfl

theorem demo_createDraft {w : WorkshopRow} (hw : w ∈ d.workshops) {req : CreateServiceRecordRequest} {v : VehicleRow}
    (hv : d.vehicleByPlate (Mobile.normalizePlate dart req.plate) = some v) (hrefused : req.DraftRefused) : ∃ message,
    s.createRecord dart moment (members req.fields) (some ("demo-w-" ++ n.workshop w.id)) =
      (.error (.failure 400 "invalid_argument" message), s) := by
  obtain ⟨message, hdraft⟩ := validDraft_refused (create_reads req) hrefused
  refine ⟨message, ?_⟩
  rw [DemoBackend.createRecord, admitCreate_eq h hw, demo_registered h hv, hdraft]
  rfl

theorem demo_highest {v : VehicleRow} (hv : v ∈ d.vehicles) :
    DemoBackend.highest ((s.currentRecords v.plate).map (·.mileageKm)) = d.highestMileage v.id := by
  obtain ⟨l, hrows, hrecords, hsame⟩ := h.current hv
  rw [highest_eq, DB.highestMileage]
  refine max?_perm (((hrecords.map _).trans ?_).trans (hrows.map _).symm)
  rw [List.map_map, List.map_map]
  exact .of_eq (List.map_congr_left fun p hp => (hsame p hp).mileageKm)

theorem demo_lower {w : WorkshopRow} (hw : w ∈ d.workshops) {req : CreateServiceRecordRequest} {v : VehicleRow}
    (hv : d.vehicleByPlate (Mobile.normalizePlate dart req.plate) = some v) (hrefused : ¬ req.DraftRefused)
    (hconfirm : req.confirmLowerMileage = false) {highest : Int} (hhighest : d.highestMileage v.id = some highest)
    (hlt : req.mileageKm < highest) : ∃ message,
    s.createRecord dart moment (members req.fields) (some ("demo-w-" ++ n.workshop w.id)) =
      (.error (.failure 400 "failed_precondition" message), s) := by
  obtain ⟨hmem, hplate⟩ := vehicleByPlate_some hv
  have hdemo := demo_highest h hmem
  rw [hplate, hhighest] at hdemo
  have hlower : (some highest).any (req.mileageKm < ·) = true := by simpa using hlt
  rw [DemoBackend.createRecord, admitCreate_eq h hw, demo_registered h hv, validDraft_ok (create_reads req) hrefused,
    hconfirm]
  simp only [Except.bind, hdemo, hlower, Bool.false_eq_true, ite_false, Bool.not_false, Bool.and_self, ite_true]
  exact ⟨_, rfl⟩

theorem demo_created {w : WorkshopRow} (hw : w ∈ d.workshops) {req : CreateServiceRecordRequest} {v : VehicleRow}
    (hv : d.vehicleByPlate (Mobile.normalizePlate dart req.plate) = some v) (hrefused : ¬ req.DraftRefused)
    (hodo : req.confirmLowerMileage = false → ∀ n, d.highestMileage v.id = some n → n ≤ req.mileageKm) :
    s.createRecord dart moment (members req.fields) (some ("demo-w-" ++ n.workshop w.id)) =
      (.ok (req.demoRecord s ⟨n.workshop w.id, w.name⟩ v.plate moment),
        { s with
          records := s.records ++ [req.demoRecord s ⟨n.workshop w.id, w.name⟩ v.plate moment]
          sequence := s.sequence + 1 }) := by
  obtain ⟨hmem, hplate⟩ := vehicleByPlate_some hv
  have hdemo := demo_highest h hmem
  rw [hplate] at hdemo
  have hadmit : (!req.confirmLowerMileage && (d.highestMileage v.id).any (req.mileageKm < ·)) = false := by
    cases hconfirm : req.confirmLowerMileage with
    | true => rfl
    | false =>
      rw [Bool.not_false, Bool.true_and, any_eq_false]
      intro highest hhighest
      have hle := hodo hconfirm highest hhighest
      simpa using hle
  rw [DemoBackend.createRecord, admitCreate_eq h hw, demo_registered h hv, validDraft_ok (create_reads req) hrefused]
  simp only [Except.bind, hdemo, hadmit, Bool.false_eq_true, ite_false, newRecord_reads (create_reads req), hplate]

theorem admitRevise_eq {w : WorkshopRow} (hw : w ∈ d.workshops) (req : ReviseServiceRecordRequest) (recordId : String) :
    s.admitRevise (members (req.fields recordId)) (some ("demo-w-" ++ n.workshop w.id)) =
      (s.recordById recordId).bind fun original =>
        if original.workshopId ≠ n.workshop w.id then .error (.failure 404 "not_found" "registro não encontrado")
        else if original.supersededByRecordId.isSome then
          .error (.failure 400 "failed_precondition" "este registro já foi corrigido — revise a correção")
        else (DemoBackend.validDraft (members (req.fields recordId))).bind fun _ =>
          .ok (⟨n.workshop w.id, w.name⟩, original) := by
  obtain ⟨hid, hworkshop⟩ := demo_workshop h hw
  have hrecord : asString ((members (req.fields recordId)).lookup "recordId") = .ok (nonzero "" recordId) := by
    rw [lookup_members (revise_keys req recordId) "recordId" rfl, asString_map]
  simp only [DemoBackend.admitRevise, hid, hworkshop, hrecord, Mobile.orThrow, getD_nonzero, bind, Except.bind]

theorem demo_unknown {w : WorkshopRow} (hw : w ∈ d.workshops) {req : ReviseServiceRecordRequest} {recordId : String}
    (hunknown : ∀ r ∈ s.records, r.id ≠ recordId) : ∃ message,
    s.reviseRecord moment (members (req.fields recordId)) (some ("demo-w-" ++ n.workshop w.id)) =
      (.error (.failure 404 "not_found" message), s) := by
  have hnone : s.records.find? (·.id == recordId) = none := by simpa using hunknown
  have hrecord : s.recordById recordId = .error (.failure 404 "not_found" "registro não encontrado") := by
    rw [DemoBackend.recordById, hnone]
  refine ⟨"registro não encontrado", ?_⟩
  rw [DemoBackend.reviseRecord, admitRevise_eq h hw, hrecord]
  rfl

section
variable {w : WorkshopRow} (hw : w ∈ d.workshops) {req : ReviseServiceRecordRequest} {row : ServiceRecordRow}
  {r : DemoRecord} (hr : s.recordById (n.record row.id) = .ok r) (hsame : SameRecord n d row r)
include hw hr hsame

omit hr in
theorem demo_own_iff : r.workshopId = n.workshop w.id ↔ row.workshopID = w.id := by
  obtain ⟨w', hw', hid, -⟩ := hsame.workshopName
  rw [hsame.workshopId]
  constructor
  · intro he
    rw [← hid] at he ⊢
    rw [List.inj_on_of_nodup_map h.workshopNames hw' hw he]
  · intro he
    rw [he]

theorem demo_foreign (hforeign : row.workshopID ≠ w.id) : ∃ message,
    s.reviseRecord moment (members (req.fields (n.record row.id))) (some ("demo-w-" ++ n.workshop w.id)) =
      (.error (.failure 404 "not_found" message), s) := by
  have hne : r.workshopId ≠ n.workshop w.id := fun he => hforeign ((demo_own_iff h hw hsame).mp he)
  refine ⟨"registro não encontrado", ?_⟩
  rw [DemoBackend.reviseRecord, admitRevise_eq h hw, hr]
  simp only [Except.bind, hne, ne_eq, not_false_eq_true, ite_true]

theorem demo_superseded (hown : row.workshopID = w.id) (hsuperseded : row.supersededBy.isSome = true) : ∃ message,
    s.reviseRecord moment (members (req.fields (n.record row.id))) (some ("demo-w-" ++ n.workshop w.id)) =
      (.error (.failure 400 "failed_precondition" message), s) := by
  have hown := (demo_own_iff h hw hsame).mpr hown
  have hsome : r.supersededByRecordId.isSome = true := by
    rw [hsame.supersededBy, Option.isSome_map]
    exact hsuperseded
  refine ⟨"este registro já foi corrigido — revise a correção", ?_⟩
  rw [DemoBackend.reviseRecord, admitRevise_eq h hw, hr]
  simp only [Except.bind, hown, hsome, ne_eq, not_true_eq_false, ite_true, ite_false]

theorem admitRevise_current (hown : row.workshopID = w.id) (hcurrent : row.supersededBy = none) :
    s.admitRevise (members (req.fields (n.record row.id))) (some ("demo-w-" ++ n.workshop w.id)) =
      (DemoBackend.validDraft (members (req.fields (n.record row.id)))).bind fun _ =>
        .ok (⟨n.workshop w.id, w.name⟩, r) := by
  have hown := (demo_own_iff h hw hsame).mpr hown
  have hnone : r.supersededByRecordId.isSome = false := by
    rw [hsame.supersededBy, hcurrent]
    rfl
  rw [admitRevise_eq h hw, hr]
  simp only [Except.bind, hown, hnone, ne_eq, not_true_eq_false, ite_false, Bool.false_eq_true]

theorem demo_reviseDraft (hown : row.workshopID = w.id) (hcurrent : row.supersededBy = none)
    (hrefused : req.DraftRefused) : ∃ message,
    s.reviseRecord moment (members (req.fields (n.record row.id))) (some ("demo-w-" ++ n.workshop w.id)) =
      (.error (.failure 400 "invalid_argument" message), s) := by
  obtain ⟨message, hdraft⟩ := validDraft_refused (revise_reads req (n.record row.id)) hrefused
  refine ⟨message, ?_⟩
  rw [DemoBackend.reviseRecord, admitRevise_current h hw hr hsame hown hcurrent, hdraft]
  rfl

theorem demo_revised (hown : row.workshopID = w.id) (hcurrent : row.supersededBy = none)
    (hrefused : ¬ req.DraftRefused) :
    s.reviseRecord moment (members (req.fields (n.record row.id))) (some ("demo-w-" ++ n.workshop w.id)) =
      (.ok (req.demoCorrection s ⟨n.workshop w.id, w.name⟩ r moment),
        { s with
          records := s.records.map (DemoBackend.markSuperseded r.id ("record-" ++ toString (s.sequence + 1))) ++
            [req.demoCorrection s ⟨n.workshop w.id, w.name⟩ r moment]
          sequence := s.sequence + 1 }) := by
  rw [DemoBackend.reviseRecord, admitRevise_current h hw hr hsame hown hcurrent,
    validDraft_ok (revise_reads req (n.record row.id)) hrefused]
  simp only [Except.bind, newRecord_reads (revise_reads req (n.record row.id))]
  rfl

end

end

/-! ## The record that both make -/

theorem operationToProto_fromProto {k : Int} (h : (operationFromProto k).raw ≠ "") :
    operationToProto (operationFromProto k) = k := by
  cases hf : operationProtoPairs.find? fun p => p.2 == k with
  | none => simp [operationFromProto, hf] at h
  | some p =>
    have hk : p.2 = k := by simpa using List.find?_some hf
    have hmem := List.mem_of_find?_eq_some hf
    subst hk
    simp only [operationProtoPairs, List.mem_cons, List.not_mem_nil, or_false] at hmem
    rcases hmem with rfl | rfl | rfl | rfl | rfl | rfl | rfl | rfl | rfl | rfl | rfl | rfl <;> rfl

theorem json_of_parse {k : Int} {t : ServiceType} (h : ServiceType.parse (operationFromProto k).raw = some t) :
    enumJson serviceTypeNames k = t.json := by
  have hlabel := parse_label h
  have hne : (operationFromProto k).raw ≠ "" := fun he => by
    rw [he] at h
    have hnone : ServiceType.parse "" = none := by decide
    rw [hnone] at h
    cases h
  rw [ServiceType.json, hlabel]
  exact congrArg _ (operationToProto_fromProto hne).symm

theorem jsons_of_parse {operations : List Int} : ∀ {ts : List ServiceType},
    (operations.map operationFromProto).map (fun op => ServiceType.parse op.raw) = ts.map some →
      operations.map (enumJson serviceTypeNames) = ts.map (·.json) := by
  induction operations with
  | nil =>
    intro ts h
    cases ts with
    | nil => rfl
    | cons t ts => simp at h
  | cons k operations ih =>
    intro ts h
    cases ts with
    | nil => simp at h
    | cons t ts =>
      simp only [List.map_cons, List.cons.injEq] at h ⊢
      exact ⟨json_of_parse h.1, ih h.2⟩

/-- The server stores the texts of `msg` as they were sent. -/
structure KeptAsSent (P : Platform) (d : DB) (workshopID : UUID) (msg : RecordMsg) : Prop where
  mechanicName : ∀ m, msg.mechanicName = some m → DB.storable m = true ∧ trimSpace m = m ∧
    ∀ row, d.mechanicByName P workshopID m = some row → row.name = m
  notes : ∀ n, msg.notes = some n → DB.storable n = true
  parts : ∀ p ∈ msg.parts, DB.storable p.name = true ∧ trimSpace p.name = p.name

section
variable {P : Platform} {now : Time} {g : Generator} {d : DB} {v : VehicleRow} {msg : RecordMsg} {w : WorkshopRow}
  {plate : String} {revises : Option Bytes} {confirm : Bool} {rev : Option Revision}

theorem KeptAsSent.storable (h : KeptAsSent P d w.id msg) : Storable (msg.input w.id plate revises confirm) where
  mechanicName m hm := by
    obtain ⟨hstorable, htrim, -⟩ := h.mechanicName m hm
    rw [htrim]
    exact hstorable
  notes := h.notes
  parts p hp := by
    obtain ⟨hstorable, htrim⟩ := h.parts p hp
    rw [htrim]
    exact hstorable

theorem Accepts.adds (hd : Schema d) (hunused : g.Unused d) {input : CreateInput} (ha : Accepts P now g input rev d v)
    {ts : List ServiceType} (hts : input.operations.map (fun op => ServiceType.parse op.raw) = ts.map some) :
    Adds (writtenBy P now g input rev d v ts) d ((writtenBy P now g input rev d v ts).changes.foldl DB.apply d) where
  gained := ha.gained ts
  before := hd
  after := ha.schema hd hts
  fresh := ha.unused
  supersededBy := rfl
  mechanic := by
    intro m hm
    obtain ⟨name, -, hif⟩ := Option.bind_eq_some_iff.mp hm
    split at hif
    · cases hif
    · obtain rfl := Option.some.inj hif
      exact hunused.mechanic
  replaced := by
    intro original rows hw
    obtain ⟨r, hr, he⟩ := Option.map_eq_some_iff.mp hw
    obtain ⟨rfl, rfl⟩ := Prod.mk.inj he
    obtain ⟨-, o, ho, -, hcurrent⟩ := ha.revisable r hr
    exact ⟨⟨o, ho, hcurrent⟩, carriedRows_recordID⟩

theorem mechanicName_new {n : Names} {s : DemoBackend} {d' : DB} (hm : Mirrors n d s)
    (hunused : d.hasMechanic (g.ids .insertMechanic 0) = false)
    (hnamed : ∀ m, msg.mechanicName = some m → trimSpace m ≠ "") (hkept : KeptAsSent P d w.id msg)
    (hmechanics : d'.mechanics =
      d.mechanics ++ (newMechanic P d (g.ids .insertMechanic 0) w.id msg.mechanicName).toList) :
    d'.mechanicName (mechanicOf P d (g.ids .insertMechanic 0) w.id msg.mechanicName) = msg.mechanicName := by
  cases hname : msg.mechanicName with
  | none => rfl
  | some m =>
    obtain ⟨-, htrim, hspelled⟩ := hkept.mechanicName m hname
    have hne : m ≠ "" := fun he => hnamed m hname (htrim.trans he)
    have hnone : d.mechanics.find? (·.id == g.ids .insertMechanic 0) = none := by
      simpa [DB.hasMechanic] using hunused
    cases hfound : d.mechanicByName P w.id m with
    | some row =>
      have hfind : d.mechanics.find? (·.id == row.id) = some row :=
        find?_key_eq_some hm.mechanicIDs (List.mem_of_find?_eq_some hfound)
      simp [DB.mechanicName, hmechanics, mechanicOf, hfound, htrim, hne, hfind, hspelled row hfound]
    | none =>
      simp [DB.mechanicName, hmechanics, mechanicOf, newMechanic, hname, hfound, hne, hnone, htrim]

/-- What the demo makes mirrors the row of an accepted call, if it has the right predecessor and files. -/
theorem sameRecord_new {n : Names} {s : DemoBackend} {moment : Mobile.DateTime} (hm : Mirrors n d s)
    (hw : w ∈ d.workshops) (hunused : g.Unused d) (hmoment : moment.microsecondsSinceEpoch * 1000 = now)
    (hvalid : Valid (msg.input w.id plate revises confirm)) (hkept : KeptAsSent P d w.id msg)
    (ha : Accepts P now g (msg.input w.id plate revises confirm) rev d v) {ts : List ServiceType}
    (hts : (msg.operations.map operationFromProto).map (fun op => ServiceType.parse op.raw) = ts.map some) {d' : DB}
    (h : Adds (writtenBy P now g (msg.input w.id plate revises confirm) rev d v ts) d d') (predecessor : Option String)
    (files : List Mobile.Attachment) (hpredecessor : (rev.map fun r => n.record (canonicalID r.recordID)) = predecessor)
    (hfiles : (files.map fun a => (a.url, a.kind, a.phase.map Json.string)).Perm
      ((rev.elim [] fun r => d.attachmentsOf (canonicalID r.recordID)).map fun a =>
        (a.url, a.kind, phaseJson a.phase))) :
    SameRecord (n.set (g.ids .insertServiceRecord 0) ("record-" ++ toString (s.sequence + 1))) d'
      (writtenBy P now g (msg.input w.id plate revises confirm) rev d v ts).record
      { msg.demoRecord s ⟨n.workshop w.id, w.name⟩ v.plate moment with
        revisesRecordId := predecessor, attachments := files } where
  uuid := ⟨g.valid _ _, g.canonical _ _⟩
  id := (n.set_self (g.ids .insertServiceRecord 0) _).symm
  plate := by
    rw [h.gained.others.2.2]
    exact ⟨v, (vehicleByPlate_some ha.vehicle).1, rfl, rfl⟩
  workshopId := rfl
  workshopName := by
    rw [h.gained.others.2.1]
    exact ⟨w, hw, rfl, rfl⟩
  mechanic := by
    intro m hmech
    have hrecord := ha.record
    simp only [DB.acceptsServiceRecord, Bool.and_eq_true] at hrecord
    rw [DB.hasMechanic, h.gained.mechanics]
    exact (Option.all_eq_true ..).mp hrecord.1.1.1.2 m hmech
  mechanicName := congrArg (Option.map Json.string)
    (mechanicName_new hm hunused.mechanic hvalid.mechanicName hkept h.gained.mechanics).symm
  operations := by
    have hrows := h.operationsOf_new
    rw [show (writtenBy P now g (msg.input w.id plate revises confirm) rev d v ts).record.id = _ from rfl] at hrows ⊢
    rw [hrows, List.map_map]
    exact .of_eq (jsons_of_parse hts)
  mileageKm := rfl
  mileageKm_fits := by
    have hrecord := ha.record
    simp only [DB.acceptsServiceRecord, Bool.and_eq_true] at hrecord
    exact hrecord.1.1.2
  costCents := rfl
  costCents_fits := by
    have hrecord := ha.record
    simp only [DB.acceptsServiceRecord, Bool.and_eq_true] at hrecord
    exact hrecord.1.2
  notes := rfl
  parts := by
    rw [h.partsOf_new, List.map_map]
    refine .of_eq (List.map_congr_left fun p hp => ?_)
    show p.json = PartRow.json (p.row _)
    rw [PartRow.json, Part.row, (hkept.parts p hp).2]
    rfl
  parts_fit := by
    rw [h.partsOf_new]
    intro row hrow
    obtain ⟨p, hp, rfl⟩ := List.mem_map.mp hrow
    exact (ha.parts p hp).2
  attachments := by
    rw [h.attachmentsOf_new]
    cases rev with
    | none => exact hfiles
    | some r =>
      refine hfiles.trans (.of_eq ?_)
      show (d.attachmentsOf (canonicalID r.recordID)).map _ = (carriedRows _ _ _).map _
      rw [carriedRows, List.map_map]
      conv_lhs => rw [← List.zipIdx_map_fst 0 (d.attachmentsOf (canonicalID r.recordID)), List.map_map]
      rfl
  createdAt := hmoment
  revises := by
    rw [h.predecessor_new, ← hpredecessor]
    cases rev with
    | none => rfl
    | some r =>
      obtain ⟨-, o, ho, -⟩ := ha.revisable r rfl
      obtain ⟨hmem, hid⟩ := serviceRecord_some ho
      have hname := h.name_of_mem (n := n) ("record-" ++ toString (s.sequence + 1)) hmem
      rw [hid] at hname
      exact congrArg (some ∘ some) hname
  supersededBy := rfl

end

end Mototeca
