import Mototeca.Atomicity

/-!
# What Create and Revise answer

With no fault and nobody else about. `Validate` refuses all that the columns
would, but for a text that Postgres cannot store, so the answer is known from
the request and the rows it names.
-/

namespace Mototeca

open ReadCommitted

/-! ## What Validate promises -/

theorem checkOperations_eq_none {ops : List Operation} : ∀ {seen : List Operation}, checkOperations seen ops = none ↔
    (∀ op ∈ ops, op.valid = true) ∧ ops.Nodup ∧ ∀ op ∈ ops, op ∉ seen := by
  induction ops with
  | nil => simp [checkOperations]
  | cons op ops ih =>
    intro seen
    simp only [checkOperations]
    by_cases hvalid : op.valid = true
    · by_cases hseen : op ∈ seen
      · simp [hvalid, hseen]
      · simp only [hvalid, Bool.not_true, Bool.false_eq_true, ite_false, List.contains_iff_mem, hseen, ih]
        simp only [List.mem_cons, List.nodup_cons, forall_eq_or_imp, not_or]
        constructor
        · rintro ⟨hall, hnd, hnew⟩
          exact ⟨⟨hvalid, hall⟩, ⟨fun hmem => (hnew op hmem).1 rfl, hnd⟩, hseen, fun o ho => (hnew o ho).2⟩
        · rintro ⟨⟨-, hall⟩, ⟨hop, hnd⟩, -, hnew⟩
          exact ⟨hall, hnd, fun o ho => ⟨fun he => hop (he ▸ ho), hnew o ho⟩⟩
    · simp [hvalid]

theorem checkPart_eq_none {i : Nat} {part : Part} : checkPart i part = none ↔
    trimSpace part.name ≠ "" ∧ byteLen part.name ≤ maxPartName ∧ (1 ≤ part.quantity ∧ part.quantity ≤ maxPartQty) ∧
      badCost part.costCents = false := by
  simp [checkPart, refuse_eq_none]

theorem checkParts_eq_none {parts : List Part} : ∀ {i : Nat}, checkParts i parts = none ↔
    ∀ p ∈ parts, checkPart 1 p = none := by
  induction parts with
  | nil => simp [checkParts]
  | cons part parts ih =>
    intro i
    have hpart : checkPart i part = none ↔ checkPart 1 part = none := by rw [checkPart_eq_none, checkPart_eq_none]
    simp [checkParts, ih, hpart]

theorem any_eq_false {α : Type} {o : Option α} {p : α → Bool} :
    o.any p = false ↔ ∀ a, o = some a → p a = false := by
  cases o with
  | none => simp
  | some a => simp

structure Valid (input : CreateInput) : Prop where
  workshopID : input.workshopID ≠ []
  operations : input.operations ≠ []
  operations_valid : ∀ op ∈ input.operations, op.valid = true
  operations_nodup : input.operations.Nodup
  mileageKm : 0 ≤ input.mileageKm ∧ input.mileageKm ≤ maxMileageKm
  costCents : badCost input.costCents = false
  notes : ∀ n, input.notes = some n → byteLen n ≤ maxNotesLength
  mechanicName : ∀ m, input.mechanicName = some m → trimSpace m ≠ ""
  parts_length : input.parts.length ≤ maxParts
  parts : ∀ p ∈ input.parts, trimSpace p.name ≠ "" ∧ byteLen p.name ≤ maxPartName ∧
    (1 ≤ p.quantity ∧ p.quantity ≤ maxPartQty) ∧ badCost p.costCents = false

theorem validate_eq_none {input : CreateInput} : input.validate = none ↔ Valid input := by
  have hiff : input.validate = none ↔ input.workshopID ≠ [] ∧ input.operations ≠ [] ∧
      ((∀ op ∈ input.operations, op.valid = true) ∧ input.operations.Nodup) ∧
      (0 ≤ input.mileageKm ∧ input.mileageKm ≤ maxMileageKm) ∧ badCost input.costCents = false ∧
      (∀ n, input.notes = some n → byteLen n ≤ maxNotesLength) ∧
      (∀ m, input.mechanicName = some m → trimSpace m ≠ "") ∧ input.parts.length ≤ maxParts ∧
      ∀ p ∈ input.parts, trimSpace p.name ≠ "" ∧ byteLen p.name ≤ maxPartName ∧
        (1 ≤ p.quantity ∧ p.quantity ≤ maxPartQty) ∧ badCost p.costCents = false := by
    simp [CreateInput.validate, refuse_eq_none, checkOperations_eq_none, checkParts_eq_none, checkPart_eq_none,
      any_eq_false]
  rw [hiff]
  constructor
  · rintro ⟨h₁, h₂, ⟨h₃, h₄⟩, h₅, h₆, h₇, h₈, h₉, h₁₀⟩
    exact ⟨h₁, h₂, h₃, h₄, h₅, h₆, h₇, h₈, h₉, h₁₀⟩
  · exact fun h => ⟨h.workshopID, h.operations, ⟨h.operations_valid, h.operations_nodup⟩, h.mileageKm, h.costCents,
      h.notes, h.mechanicName, h.parts_length, h.parts⟩

/-- `Validate` accepts the message. -/
def RecordMsg.Acceptable (msg : RecordMsg) (workshopID : UUID) : Prop := Valid (msg.input workshopID "" none false)

theorem RecordMsg.Acceptable.valid {msg : RecordMsg} {workshopID : UUID} (h : msg.Acceptable workshopID)
    (plate : String) (revises : Option Bytes) (confirm : Bool) : Valid (msg.input workshopID plate revises confirm) :=
  ⟨h.workshopID, h.operations, h.operations_valid, h.operations_nodup, h.mileageKm, h.costCents, h.notes,
    h.mechanicName, h.parts_length, h.parts⟩

theorem RecordMsg.acceptable_of_valid {msg : RecordMsg} {workshopID : UUID} {plate : String} {revises : Option Bytes}
    {confirm : Bool} (h : Valid (msg.input workshopID plate revises confirm)) : msg.Acceptable workshopID :=
  ⟨h.workshopID, h.operations, h.operations_valid, h.operations_nodup, h.mileageKm, h.costCents, h.notes,
    h.mechanicName, h.parts_length, h.parts⟩

theorem parse_of_valid {op : Operation} (h : op.valid = true) : ∃ t, ServiceType.parse op.raw = some t := by
  have hmem : op ∈ Operation.validOperations := by simpa [Operation.valid] using h
  simp only [Operation.validOperations, List.mem_cons, List.not_mem_nil, or_false] at hmem
  rcases hmem with rfl | rfl | rfl | rfl | rfl | rfl | rfl | rfl | rfl | rfl | rfl | rfl <;> exact ⟨_, rfl⟩

theorem Valid.types {input : CreateInput} (h : Valid input) : ∃ ts : List ServiceType,
    input.operations.map (fun op => ServiceType.parse op.raw) = ts.map some ∧ ts.Nodup := by
  have hall : ∀ ops : List Operation, (∀ op ∈ ops, op.valid = true) →
      ∃ ts : List ServiceType, ops.map (fun op => ServiceType.parse op.raw) = ts.map some := by
    intro ops
    induction ops with
    | nil => exact fun _ => ⟨[], rfl⟩
    | cons op ops ih =>
      intro hops
      obtain ⟨t, ht⟩ := parse_of_valid (hops op (List.mem_cons_self ..))
      obtain ⟨ts, hts⟩ := ih fun o ho => hops o (List.mem_cons_of_mem _ ho)
      exact ⟨t :: ts, by simp [ht, hts]⟩
  obtain ⟨ts, hts⟩ := hall _ h.operations_valid
  refine ⟨ts, hts, List.Nodup.of_map (·.label) ?_⟩
  rw [labels_of_parse hts]
  exact h.operations_nodup.map fun a b hab => by cases a; cases b; exact congrArg _ hab

/-! ## What the database accepts -/

/-- Postgres takes every text that the call sends besides the plate. -/
structure Storable (input : CreateInput) : Prop where
  mechanicName : ∀ m, input.mechanicName = some m → DB.storable (trimSpace m) = true
  notes : ∀ n, input.notes = some n → DB.storable n = true
  parts : ∀ p ∈ input.parts, DB.storable (trimSpace p.name) = true

/-- `gen_random_uuid()` gives no id that a row has. -/
structure Generator.Unused (g : Generator) (d : DB) : Prop where
  record : d.serviceRecord (g.ids .insertServiceRecord 0) = none
  mechanic : d.hasMechanic (g.ids .insertMechanic 0) = false
  attachments : ∀ a ∈ d.attachments, ∀ n, a.id ≠ g.ids .carryAttachments n
  distinct : ∀ i < d.attachments.length, ∀ j < d.attachments.length,
    g.ids .carryAttachments i = g.ids .carryAttachments j → i = j

theorem Generator.Unused.freshIDs {g : Generator} {d : DB} (h : g.Unused d) (new id : UUID) :
    freshIDs d (carriedRows (g.ids .carryAttachments) new (d.attachmentsOf id)) = true := by
  simp only [Mototeca.freshIDs, Bool.and_eq_true, decide_eq_true_eq, List.all_eq_true, Bool.not_eq_true',
    List.any_eq_false, beq_iff_eq]
  have hlength : (d.attachmentsOf id).length ≤ d.attachments.length := List.length_filter_le ..
  constructor
  · have hids : (carriedRows (g.ids .carryAttachments) new (d.attachmentsOf id)).map (·.id) =
        ((d.attachmentsOf id).zipIdx.map (·.2)).map (g.ids .carryAttachments) := by
      rw [carriedRows, List.map_map, List.map_map]
      rfl
    rw [hids, List.zipIdx_map_snd]
    refine List.Nodup.map_on (fun i hi j hj hij => ?_) List.nodup_range'
    simp only [List.mem_range'_1] at hi hj
    exact h.distinct i (by omega) j (by omega) hij
  · intro a ha b hb
    obtain ⟨p, -, rfl⟩ := List.mem_map.mp ha
    exact h.attachments b hb _

theorem fitsInteger_of_range {n m : Int} (h : 0 ≤ n ∧ n ≤ m) (hm : m ≤ 2147483647) : DB.fitsInteger n = true := by
  simp only [DB.fitsInteger, Bool.and_eq_true, decide_eq_true_eq]
  omega

theorem fitsInteger_cost {cost : Option Int} (h : badCost cost = false) : cost.all DB.fitsInteger = true := by
  cases cost with
  | none => rfl
  | some c =>
    have hc : 0 ≤ c ∧ c ≤ maxCostCents := by simpa [badCost] using h
    exact fitsInteger_of_range hc (by decide)

section
variable {P : Platform} {now : Time} {g : Generator} {input : CreateInput} {rev : Option Revision} {d : DB}
  {v : VehicleRow}

theorem accepts_of_valid (hd : Schema d) (hvalid : Valid input) (hstorable : Storable input) (hunused : g.Unused d)
    (hshop : d.hasWorkshop input.workshopID = true) (hv : d.vehicleByPlate input.plate = some v)
    (hodo : rev = none → input.confirmLowerMileage = false → ∀ n, d.highestMileage v.id = some n → n ≤ input.mileageKm)
    (hrev : ∀ r, rev = some r → CanRevise d r) : Accepts P now g input rev d v where
  revisable := hrev
  vehicle := hv
  odometer := hodo
  mechanicText := hstorable.mechanicName
  mechanic := by
    intro m hm
    unfold newMechanic at hm
    obtain ⟨name, hname, hif⟩ := Option.bind_eq_some_iff.mp hm
    split at hif
    · cases hif
    · rename_i hblank
      obtain rfl := Option.some.inj hif
      simp [DB.acceptsMechanic, hunused.mechanic, hshop, hstorable.mechanicName name hname]
  record := by
    have hmech : ∀ m, mechanicOf P d (g.ids .insertMechanic 0) input.workshopID input.mechanicName = some m →
        DB.hasMechanic { d with
          mechanics := d.mechanics ++
            (newMechanic P d (g.ids .insertMechanic 0) input.workshopID input.mechanicName).toList } m = true := by
      intro m hm
      obtain ⟨name, hname, hif⟩ := Option.bind_eq_some_iff.mp hm
      split at hif
      · cases hif
      · rename_i hblank
        obtain rfl := Option.some.inj hif
        simp only [DB.hasMechanic, List.any_append, Bool.or_eq_true]
        cases hf : d.mechanicByName P input.workshopID name with
        | some m => exact .inl (List.any_eq_true.mpr ⟨m, List.mem_of_find?_eq_some hf, by simp⟩)
        | none =>
          have hne : trimSpace name ≠ "" := by simpa using hblank
          exact .inr (by simp [newMechanic, hname, hf, hne])
    have hvehicle : (d.vehicle v.id).isSome = true := by
      rw [hd.vehicle_of_mem (vehicleByPlate_some hv).1]
      rfl
    have hkm := fitsInteger_of_range hvalid.mileageKm (by decide)
    have hcost := fitsInteger_cost hvalid.costCents
    have hnotes : input.notes.all DB.storable = true := by
      cases hn : input.notes with
      | none => rfl
      | some n => exact hstorable.notes n hn
    simp only [DB.acceptsServiceRecord, CreateInput.row, Bool.and_eq_true]
    exact ⟨⟨⟨⟨⟨⟨Option.isNone_iff_eq_none.mpr hunused.record, hvehicle⟩, hshop⟩,
      (Option.all_eq_true ..).mpr hmech⟩, hkm⟩, hcost⟩, hnotes⟩
  operations := hvalid.types
  parts := fun p hp => by
    obtain ⟨-, -, hquantity, hcost⟩ := hvalid.parts p hp
    have hle : 0 ≤ p.quantity ∧ p.quantity ≤ maxPartQty := ⟨by omega, hquantity.2⟩
    exact ⟨hstorable.parts p hp, fitsInteger_of_range hle (by decide), fitsInteger_cost hcost⟩
  carried := fun r _ => hunused.freshIDs _ _

end

/-! ## The transaction -/

/-- The body with no fault and nobody else about: its answer and the tables after it. -/
def undisturbed {α : Type} (g : Generator) (d : DB) (body : Sql Failure α) : Except Failure α × DB :=
  match body.exec DB.apply (fun _ => .connect .internal "") g.ids d (fun _ => false) 0 [] with
  | .error e => (.error e, d)
  | .ok (a, changes, _) => (.ok a, changes.foldl DB.apply d)

section
variable {P : Platform} {now : Time} {g : Generator} {input : CreateInput} {d : DB} {v : VehicleRow} (n : Nat)

theorem exec_selectVehicle {plate : String} (hplate : DB.storable plate = true) :
    (selectVehicle plate).exec DB.apply RecordError.sql g.ids d (fun _ => false) n [] =
      .ok (d.vehicleByPlate plate, [], n + 1) := by
  rw [selectVehicle, if_pos hplate, Prog.exec_query]
  rfl

/-- The plate is sent before it is known to be no one's. -/
theorem exec_write_nul (hplate : DB.storable input.plate = false) :
    (write P now input none).exec DB.apply RecordError.sql g.ids d (fun _ => false) n [] =
      .error (.sql .vehicleByPlate) := by
  rw [write_eq]
  simp only [revisable, Prog.ret_bind, selectVehicle, hplate, Bool.false_eq_true, ite_false, Prog.fail_bind, Prog.exec]

theorem exec_write_unregistered (hplate : DB.storable input.plate = true) (hv : d.vehicleByPlate input.plate = none) :
    (write P now input none).exec DB.apply RecordError.sql g.ids d (fun _ => false) n [] = .error .vehicleNotFound := by
  rw [write_eq]
  simp only [revisable, Prog.ret_bind, Prog.exec_bind, exec_selectVehicle n hplate, hv, Except.bind]
  rfl

theorem exec_write_lower (hd : Schema d) (hv : d.vehicleByPlate input.plate = some v) (hconfirm : input.confirmLowerMileage = false)
    {highest : Int} (hhighest : d.highestMileage v.id = some highest) (hlt : input.mileageKm < highest) :
    (write P now input none).exec DB.apply RecordError.sql g.ids d (fun _ => false) n [] =
      .error (.lowerMileage highest) := by
  have hplate : DB.storable input.plate = true := (vehicleByPlate_some hv).2 ▸ hd.plateText v (vehicleByPlate_some hv).1
  rw [write_eq]
  simp only [revisable, Prog.ret_bind, Prog.exec_bind, exec_selectVehicle n hplate, Prog.exec_query, List.foldl_nil, hv,
    Except.bind, odometer, hconfirm, checkMileage, hhighest, hlt, Option.isNone_none, Bool.not_false, Bool.and_self, ite_true, Prog.bind_eq]
  rfl

theorem exec_write_accepted (hd : Schema d) {rev : Option Revision} (ha : Accepts P now g input rev d v) : ∃ ts n',
    input.operations.map (fun op => ServiceType.parse op.raw) = ts.map some ∧
      (write P now input rev).exec DB.apply RecordError.sql g.ids d (fun _ => false) n [] =
        .ok (g.ids .insertServiceRecord 0, (writtenBy P now g input rev d v ts).changes, n') := by
  obtain ⟨ts, hts, -⟩ := ha.operations
  obtain ⟨id, changes, n', he, rfl, rfl⟩ := (Prog.runs_iff DB.apply RecordError.sql g.ids d _ _ n []).mp
    ((runs_write_iff hd now g input rev fun id changes => id = g.ids .insertServiceRecord 0 ∧
      changes = (writtenBy P now g input rev d v ts).changes).mpr ⟨v, ts, ha, hts, rfl, rfl⟩)
  exact ⟨ts, n', hts, he⟩

/-! ## The tables after an accepted call -/

theorem Accepts.unused {rev : Option Revision} (ha : Accepts P now g input rev d v) :
    d.serviceRecord (g.ids .insertServiceRecord 0) = none := by
  have hrecord := ha.record
  simp only [DB.acceptsServiceRecord, Bool.and_eq_true, Option.isNone_iff_eq_none] at hrecord
  exact hrecord.1.1.1.1.1.1

theorem Accepts.gained {rev : Option Revision} (ha : Accepts P now g input rev d v) (ts : List ServiceType) :
    Gained (writtenBy P now g input rev d v ts) d ((writtenBy P now g input rev d v ts).changes.foldl DB.apply d) := by
  rw [Written.view]
  refine ⟨rfl, ?_, rfl, rfl, rfl, rfl, rfl, rfl⟩
  cases rev with
  | none => rfl
  | some r =>
    obtain ⟨-, o, ho, -⟩ := ha.revisable r rfl
    have hne : g.ids .insertServiceRecord 0 ≠ canonicalID r.recordID := fun he => by
      have hnone := ha.unused
      rw [he, ho] at hnone
      cases hnone
    show (d.serviceRecords ++ [_]).map (supersede (canonicalID r.recordID) (g.ids .insertServiceRecord 0)) = _
    rw [List.map_append, List.map_singleton, supersede_of_ne hne]
    rfl

theorem Accepts.schema (hd : Schema d) {rev : Option Revision} (ha : Accepts P now g input rev d v)
    {ts : List ServiceType} (hts : input.operations.map (fun op => ServiceType.parse op.raw) = ts.map some) :
    Schema ((writtenBy P now g input rev d v ts).changes.foldl DB.apply d) := by
  obtain ⟨w, n, σ, he, -, hw⟩ := exec_write hd ⟨v, ha⟩
  obtain ⟨ts', n', hts', he'⟩ := exec_write_accepted 0 hd ha
  obtain rfl : ts = ts' := List.map_injective_iff.mpr (Option.some_injective _) (hts.symm.trans hts')
  have hchanges : w.changes = (writtenBy P now g input rev d v ts).changes := by
    rw [he] at he'
    exact congrArg (·.2.1) (Except.ok.inj he')
  rw [← hchanges]
  exact schema_view _ _ hd (hw.lawful hd)

/-! ## CreateServiceRecord -/

variable {workshopID : Bytes} {req : CreateServiceRecordRequest}

def CreateServiceRecordRequest.createInput (req : CreateServiceRecordRequest) (P : Platform) (workshopID : Bytes) :
    CreateInput :=
  req.input workshopID (normalizePlate P req.plate) none req.confirmLowerMileage

theorem create_invalid (h : ¬ Valid (req.createInput P workshopID)) :
    ∃ message, undisturbed g d (createServiceRecord P now workshopID req) =
      (.error (.connect .invalidArgument message), d) := by
  cases hv : (req.createInput P workshopID).validate with
  | none => exact absurd (validate_eq_none.mp hv) h
  | some message =>
    have hbody : createServiceRecord P now workshopID req = .fail (.connect .invalidArgument message) := by
      unfold CreateServiceRecordRequest.createInput at hv
      simp only [createServiceRecord, hv]
    exact ⟨message, by rw [hbody]; rfl⟩

theorem create_valid (h : Valid (req.createInput P workshopID)) :
    createServiceRecord P now workshopID req =
      (write P now (req.createInput P workshopID) none).mapFail createError := by
  have hv := validate_eq_none.mpr h
  unfold CreateServiceRecordRequest.createInput at hv
  simp only [createServiceRecord, hv]
  rfl

theorem create_nul (h : Valid (req.createInput P workshopID))
    (hplate : DB.storable (normalizePlate P req.plate) = false) :
    ∃ message, undisturbed g d (createServiceRecord P now workshopID req) =
      (.error (.connect .internal message), d) := by
  have hexec : (write P now (req.createInput P workshopID) none).exec DB.apply RecordError.sql g.ids d
      (fun _ => false) 0 [] = .error (.sql .vehicleByPlate) := exec_write_nul 0 hplate
  rw [create_valid h, undisturbed, Prog.exec_mapFail DB.apply RecordError.sql, hexec]
  exact ⟨_, rfl⟩

theorem create_unregistered (h : Valid (req.createInput P workshopID))
    (hplate : DB.storable (normalizePlate P req.plate) = true) (hv : d.vehicleByPlate (normalizePlate P req.plate) = none) :
    ∃ message, undisturbed g d (createServiceRecord P now workshopID req) =
      (.error (.connect .notFound message), d) := by
  have hexec : (write P now (req.createInput P workshopID) none).exec DB.apply RecordError.sql g.ids d
      (fun _ => false) 0 [] = .error .vehicleNotFound := exec_write_unregistered 0 hplate hv
  rw [create_valid h, undisturbed, Prog.exec_mapFail DB.apply RecordError.sql, hexec]
  exact ⟨_, rfl⟩

theorem create_lower (hd : Schema d) (h : Valid (req.createInput P workshopID))
    (hv : d.vehicleByPlate (normalizePlate P req.plate) = some v) (hconfirm : req.confirmLowerMileage = false)
    {highest : Int} (hhighest : d.highestMileage v.id = some highest) (hlt : req.mileageKm < highest) :
    ∃ message, undisturbed g d (createServiceRecord P now workshopID req) =
      (.error (.connect .failedPrecondition message), d) := by
  have hexec : (write P now (req.createInput P workshopID) none).exec DB.apply RecordError.sql g.ids d
      (fun _ => false) 0 [] = .error (.lowerMileage highest) := by
    apply exec_write_lower
    · exact hd
    · exact hv
    · exact hconfirm
    · exact hhighest
    · exact hlt
  rw [create_valid h, undisturbed, Prog.exec_mapFail DB.apply RecordError.sql, hexec]
  exact ⟨_, rfl⟩

theorem create_accepted (hd : Schema d) (h : Valid (req.createInput P workshopID))
    (ha : Accepts P now g (req.createInput P workshopID) none d v) : ∃ ts,
    (req.createInput P workshopID).operations.map (fun op => ServiceType.parse op.raw) = ts.map some ∧
      undisturbed g d (createServiceRecord P now workshopID req) = (.ok (g.ids .insertServiceRecord 0),
        (writtenBy P now g (req.createInput P workshopID) none d v ts).changes.foldl DB.apply d) := by
  obtain ⟨ts, n', hts, he⟩ := exec_write_accepted 0 hd ha
  refine ⟨ts, hts, ?_⟩
  rw [create_valid h, undisturbed, Prog.exec_mapFail DB.apply RecordError.sql, he]
  rfl

end

/-! ## ReviseServiceRecord -/

section
variable {P : Platform} {now : Time} {g : Generator} {d : DB} {v : VehicleRow} {row : ServiceRecordRow}
  {workshopID : Bytes} {req : ReviseServiceRecordRequest}

theorem exec_findByID_unknown {id : Bytes} (h : validID id = true → d.serviceRecord (canonicalID id) = none) :
    ∃ n, (findByID P id).exec DB.apply RecordError.sql g.ids d (fun _ => false) 0 [] = .ok (none, [], n) := by
  unfold findByID
  by_cases hid : validID id = true
  · have hnone : d.serviceRecords.filter (·.id == canonicalID id) = [] := by
      refine List.filter_eq_nil_iff.mpr fun r hr => ?_
      simpa using serviceRecord_none.mp (h hid) r hr
    refine ⟨1, ?_⟩
    simp [hid, selectRecords, Prog.bind, Prog.exec, hnone, DB.selectRecords]
  · exact ⟨0, by simp [hid, Prog.exec]⟩

theorem revise_unknown (hne : req.recordID ≠ [])
    (h : validID req.recordID = true → d.serviceRecord (canonicalID req.recordID) = none) :
    undisturbed g d (reviseServiceRecord P now workshopID req) =
      (.error (.connect .notFound "registro não encontrado"), d) := by
  obtain ⟨n, hfind⟩ := exec_findByID_unknown (P := P) (g := g) h
  rw [reviseServiceRecord, if_neg hne, undisturbed, Prog.bind_eq, Prog.exec_bind,
    Prog.exec_mapFail DB.apply RecordError.sql, hfind]
  rfl

def ReviseServiceRecordRequest.reviseInput (req : ReviseServiceRecordRequest) (workshopID : Bytes) (plate : String) :
    CreateInput :=
  req.input workshopID plate (some req.recordID) false

theorem exec_revise (hd : Schema d) (hne : req.recordID ≠ []) (hid : validID req.recordID = true)
    (hrow : d.serviceRecord (canonicalID req.recordID) = some row) (hv : d.vehicle row.vehicleID = some v) :
    (reviseServiceRecord P now workshopID req).exec DB.apply (fun _ => .connect .internal "") g.ids d (fun _ => false)
        0 [] =
      (match (req.reviseInput workshopID v.plate).validate with
        | some message => Prog.fail (.connect .invalidArgument message)
        | none => (write P now (req.reviseInput workshopID v.plate) (some ⟨workshopID, req.recordID⟩)).mapFail
            reviseError : Sql Failure UUID).exec DB.apply (fun _ => .connect .internal "") g.ids d (fun _ => false) 4
        [] := by
  obtain ⟨record, revises, -, hdesc, hfind⟩ := hd.findByID P hid hrow g.ids
  have hplate : record.vehicle.plate = v.plate := by
    obtain ⟨v', hv', hsummary⟩ := hdesc.vehicle
    obtain rfl : v = v' := Option.some.inj (hv.symm.trans hv')
    rw [hsummary]
  rw [reviseServiceRecord, if_neg hne, Prog.bind_eq, Prog.exec_bind, Prog.exec_mapFail DB.apply RecordError.sql, hfind]
  show Prog.exec DB.apply (fun _ => .connect .internal "") g.ids d (fun _ => false)
    (match (req.reviseInput workshopID record.vehicle.plate).validate with
      | some message => _
      | none => (write P now (req.reviseInput workshopID record.vehicle.plate) _).mapFail reviseError) 4 [] = _
  rw [hplate]

theorem revise_invalid (hd : Schema d) (hne : req.recordID ≠ []) (hid : validID req.recordID = true)
    (hrow : d.serviceRecord (canonicalID req.recordID) = some row) (hv : d.vehicle row.vehicleID = some v)
    (h : ¬ Valid (req.reviseInput workshopID v.plate)) : ∃ message,
    undisturbed g d (reviseServiceRecord P now workshopID req) = (.error (.connect .invalidArgument message), d) := by
  cases hval : (req.reviseInput workshopID v.plate).validate with
  | none => exact absurd (validate_eq_none.mp hval) h
  | some message =>
    refine ⟨message, ?_⟩
    rw [undisturbed, exec_revise hd hne hid hrow hv, hval]
    rfl

theorem exec_revise_valid (hd : Schema d) (hne : req.recordID ≠ []) (hid : validID req.recordID = true)
    (hrow : d.serviceRecord (canonicalID req.recordID) = some row) (hv : d.vehicle row.vehicleID = some v)
    (h : Valid (req.reviseInput workshopID v.plate)) :
    (reviseServiceRecord P now workshopID req).exec DB.apply (fun _ => .connect .internal "") g.ids d (fun _ => false)
        0 [] =
      ((write P now (req.reviseInput workshopID v.plate) (some ⟨workshopID, req.recordID⟩)).exec DB.apply RecordError.sql
        g.ids d (fun _ => false) 4 []).mapError reviseError := by
  rw [exec_revise hd hne hid hrow hv, validate_eq_none.mpr h]
  exact Prog.exec_mapFail ..

theorem exec_write_foreign (n : Nat) {input : CreateInput} {r : Revision} (hid : validID r.recordID = true)
    (hrow : d.serviceRecord (canonicalID r.recordID) = some row) (hforeign : row.workshopID ≠ r.workshopID) :
    (write P now input (some r)).exec DB.apply RecordError.sql g.ids d (fun _ => false) n [] =
      .error .recordNotFound := by
  rw [write_eq]
  simp only [revisable, checkRevisable, hid, Bool.not_true, Bool.false_eq_true, ite_false, Prog.bind_eq, Prog.exec_bind,
    Prog.exec_queryForUpdate, List.foldl_nil, hrow, Except.bind, hforeign, ne_eq, not_false_eq_true, ite_true]
  rfl

theorem exec_write_superseded (n : Nat) {input : CreateInput} {r : Revision} (hid : validID r.recordID = true)
    (hrow : d.serviceRecord (canonicalID r.recordID) = some row) (hown : row.workshopID = r.workshopID)
    (hsuperseded : row.supersededBy.isSome = true) :
    (write P now input (some r)).exec DB.apply RecordError.sql g.ids d (fun _ => false) n [] =
      .error .alreadySuperseded := by
  rw [write_eq]
  simp only [revisable, checkRevisable, hid, Bool.not_true, Bool.false_eq_true, ite_false, Prog.bind_eq, Prog.exec_bind,
    Prog.exec_queryForUpdate, List.foldl_nil, hrow, Except.bind, hown, hsuperseded, ne_eq, not_true_eq_false, ite_true]
  rfl

theorem revise_foreign (hd : Schema d) (hne : req.recordID ≠ []) (hid : validID req.recordID = true)
    (hrow : d.serviceRecord (canonicalID req.recordID) = some row) (hv : d.vehicle row.vehicleID = some v)
    (h : Valid (req.reviseInput workshopID v.plate)) (hforeign : row.workshopID ≠ workshopID) :
    undisturbed g d (reviseServiceRecord P now workshopID req) =
      (.error (.connect .notFound "registro não encontrado"), d) := by
  rw [undisturbed, exec_revise_valid hd hne hid hrow hv h, exec_write_foreign 4 hid hrow hforeign]
  rfl

theorem revise_superseded (hd : Schema d) (hne : req.recordID ≠ []) (hid : validID req.recordID = true)
    (hrow : d.serviceRecord (canonicalID req.recordID) = some row) (hv : d.vehicle row.vehicleID = some v)
    (h : Valid (req.reviseInput workshopID v.plate)) (hown : row.workshopID = workshopID)
    (hsuperseded : row.supersededBy.isSome = true) : ∃ message,
    undisturbed g d (reviseServiceRecord P now workshopID req) =
      (.error (.connect .failedPrecondition message), d) := by
  rw [undisturbed, exec_revise_valid hd hne hid hrow hv h, exec_write_superseded 4 hid hrow hown hsuperseded]
  exact ⟨_, rfl⟩

theorem revise_accepted (hd : Schema d) (hne : req.recordID ≠ []) (hid : validID req.recordID = true)
    (hrow : d.serviceRecord (canonicalID req.recordID) = some row) (hv : d.vehicle row.vehicleID = some v)
    (h : Valid (req.reviseInput workshopID v.plate))
    (ha : Accepts P now g (req.reviseInput workshopID v.plate) (some ⟨workshopID, req.recordID⟩) d v) : ∃ ts,
    (req.reviseInput workshopID v.plate).operations.map (fun op => ServiceType.parse op.raw) = ts.map some ∧
      undisturbed g d (reviseServiceRecord P now workshopID req) = (.ok (g.ids .insertServiceRecord 0),
        (writtenBy P now g (req.reviseInput workshopID v.plate) (some ⟨workshopID, req.recordID⟩) d v ts).changes.foldl
          DB.apply d) := by
  obtain ⟨ts, n', hts, he⟩ := exec_write_accepted 4 hd ha
  refine ⟨ts, hts, ?_⟩
  rw [undisturbed, exec_revise_valid hd hne hid hrow hv h, he]
  rfl

end

end Mototeca
