import Mototeca.Correspondence

/-!
# The figures of an owner's bike

The server computes them in SQL and in `OwnedVehicle.Reminder`, the demo backend
in a fold over its list. On one history both get the same figures.
-/

namespace Mototeca

open ReadCommitted Listing
open Mobile (DemoBackend DemoRecord)

/-! ## The server -/

def oilChangeIntervalKm : Int := 3000
def dueSoonKm : Int := 600

structure Reminder where
  text : String
  isDue : Bool
  dueAtKm : Int
  deriving DecidableEq

def OwnedVehicle.reminder (v : OwnedVehicle) : Reminder :=
  match v.lastOilChangeKm with
  | none =>
    if v.serviceCount = 0 then ⟨"Sem serviços registrados", false, 0⟩
    else ⟨"Sem troca de óleo registrada", true, 0⟩
  | some lastOilChangeKm =>
    let dueAt := lastOilChangeKm + oilChangeIntervalKm
    let remaining := dueAt - v.currentMileageKm
    if remaining ≤ 0 then ⟨"Troca de óleo atrasada em " ++ toString (-remaining) ++ " km", true, dueAt⟩
    else if remaining ≤ dueSoonKm then ⟨"Troca de óleo em " ++ toString remaining ++ " km", true, dueAt⟩
    else ⟨"Em dia · próxima troca em " ++ toString remaining ++ " km", false, dueAt⟩

/-- The message `ownerv1.OwnedVehicle`. -/
structure OwnedVehicleMsg where
  vehicle : Servicev1.VehicleSummary
  currentMileageKm : Int
  serviceCount : Int
  lastService : Option Servicev1.ServiceRecord
  reminder : String
  reminderIsDue : Bool
  nextOilChangeKm : Int
  oilChangeIntervalKm : Int

def OwnedVehicle.msg (v : OwnedVehicle) (lastService : Option Servicev1.ServiceRecord) : OwnedVehicleMsg where
  vehicle := vehicleToProto v.vehicle
  currentMileageKm := int32 v.currentMileageKm
  serviceCount := int32 v.serviceCount
  lastService := lastService
  reminder := v.reminder.text
  reminderIsDue := v.reminder.isDue
  nextOilChangeKm := int32 v.reminder.dueAtKm
  oilChangeIntervalKm := if v.reminder.dueAtKm > 0 then oilChangeIntervalKm else 0

/-- `ownedToProto`, which loads the last service; `none` is its internal error. -/
def ownedToProto (P : Platform) (d : DB) (v : OwnedVehicle) : Option OwnedVehicleMsg :=
  match v.lastServiceID with
  | none => some (v.msg none)
  | some id =>
    match (findByID P id).exec DB.apply RecordError.sql (fun _ _ => []) d (fun _ => false) 0 [] with
    | .error _ => none
    | .ok (record, _, _) => some (v.msg (record.map toProto))

/-! ## The same figures -/

/-- A bike that both know, with current records of different moments. -/
structure Bike where
  names : Names
  db : DB
  demo : DemoBackend
  mirrors : Mirrors names db demo
  row : VehicleRow
  registered : row ∈ db.vehicles
  moments : ((db.currentRecords row.id).map (·.createdAt)).Nodup

structure SameFigures (n : Names) (m : OwnedVehicleMsg) (j : DemoBackend.OwnedVehicleJson) : Prop where
  vehicle : m.vehicle = ⟨j.vehicle.plate, j.vehicle.make, j.vehicle.model, j.vehicle.year⟩
  currentMileageKm : m.currentMileageKm = j.currentMileageKm
  serviceCount : m.serviceCount = j.serviceCount
  lastService : Option.Rel (Shows n) m.lastService j.lastService
  reminder : m.reminder = j.reminder
  reminderIsDue : m.reminderIsDue = j.reminderIsDue
  nextOilChangeKm : m.nextOilChangeKm = j.nextOilChangeKm
  oilChangeIntervalKm : m.oilChangeIntervalKm = j.oilChangeIntervalKm

theorem isWire_json (t : ServiceType) :
    Mobile.isWire "SERVICE_TYPE_OIL_CHANGE" t.json = decide (t = .oilChange) := by
  cases t <;> rfl

theorem SameRecord.oilChange {n : Names} {d : DB} {row : ServiceRecordRow} {r : DemoRecord} (h : SameRecord n d row r) :
    r.operations.any (Mobile.isWire "SERVICE_TYPE_OIL_CHANGE") = d.hasOilChange row := by
  have hwire : ((d.operationsOf row.id).map (·.type.json)).any (Mobile.isWire "SERVICE_TYPE_OIL_CHANGE") =
      d.hasOilChange row := by
    rw [Bool.eq_iff_iff]
    simp only [List.any_map, List.any_eq_true, Function.comp_apply, isWire_json, decide_eq_true_eq, DB.operationsOf,
      List.mem_filter, beq_iff_eq, DB.hasOilChange, List.contains_iff_mem]
    constructor
    · rintro ⟨⟨id, t⟩, ⟨hmem, rfl⟩, rfl⟩
      exact hmem
    · intro hmem
      exact ⟨_, ⟨hmem, rfl⟩, rfl⟩
  rw [← hwire]
  exact h.operations.any_eq

theorem OwnedVehicle.reminder_dueAtKm (v : OwnedVehicle) :
    v.reminder.dueAtKm = (v.lastOilChangeKm.map (· + oilChangeIntervalKm)).getD 0 := by
  unfold OwnedVehicle.reminder
  cases v.lastOilChangeKm with
  | none =>
    by_cases hcount : v.serviceCount = 0
    · simp [hcount]
    · simp [hcount]
  | some km =>
    dsimp only
    split
    · rfl
    · split
      · rfl
      · rfl

namespace Bike

variable (b : Bike)

theorem rows_perm : (descending (·.createdAt) (b.db.currentRecords b.row.id)).Perm (b.db.currentRecords b.row.id) :=
  (lists_descending _).perm

/-- Both list the current records in the same order. -/
theorem history : ∃ l : List (ServiceRecordRow × DemoRecord),
    descending (·.createdAt) (b.db.currentRecords b.row.id) = l.map (·.1) ∧
      b.demo.currentRecords b.row.plate = l.map (·.2) ∧ ∀ p ∈ l, SameRecord b.names b.db p.1 p.2 := by
  obtain ⟨l, hrows, hrecords, hsame⟩ := b.mirrors.current b.registered
  have hl : Lists (fun p : ServiceRecordRow × DemoRecord => p.1.createdAt) (descending _ l) l := lists_descending l
  have hmem : ∀ p ∈ descending (fun p : ServiceRecordRow × DemoRecord => p.1.createdAt) l,
      SameRecord b.names b.db p.1 p.2 := fun p hp => hsame p (hl.perm.mem_iff.mp hp)
  have htimes : (l.map (·.1.createdAt)).Nodup := by
    have hmap := (hrows.map (·.createdAt)).nodup_iff.mp b.moments
    rwa [List.map_map] at hmap
  refine ⟨descending (fun p => p.1.createdAt) l, ?_, ?_, hmem⟩
  · exact (lists_descending _).unique ((Lists.map hl).congr hrows.symm) b.moments
  · -- The demo's moments are the server's in microseconds, so one order is the other.
    have hlater : (descending (fun p : ServiceRecordRow × DemoRecord => p.1.createdAt) l).Pairwise fun p q =>
        q.2.createdAt.microsecondsSinceEpoch ≤ p.2.createdAt.microsecondsSinceEpoch := by
      refine hl.sorted.imp_of_mem fun {p q} hp hq hle => ?_
      rw [← (hmem p hp).createdAt, ← (hmem q hq).createdAt] at hle
      exact Int.le_of_mul_le_mul_right hle (by decide)
    have hmoments : ((b.demo.currentRecords b.row.plate).map (·.createdAt.microsecondsSinceEpoch)).Nodup := by
      refine (hrecords.map _).nodup_iff.mpr (List.Nodup.of_map (· * 1000) ?_)
      have heq : l.map (fun p => p.2.createdAt.microsecondsSinceEpoch * 1000) = l.map (·.1.createdAt) :=
        List.map_congr_left fun p hp => (hsame p hp).createdAt
      rw [List.map_map, List.map_map]
      exact heq ▸ htimes
    refine Lists.unique (m := b.demo.currentRecords b.row.plate) ⟨.refl _, (lists_descending _).sorted⟩ ?_ hmoments
    exact ⟨(hl.perm.map _).trans hrecords.symm, List.pairwise_map.mpr hlater⟩

def owned : OwnedVehicle := b.db.ownedVehicle b.row

def ownedJson : DemoBackend.OwnedVehicleJson := b.demo.ownedVehicleJson b.row.demo

theorem serviceCount_eq : b.ownedJson.serviceCount = b.owned.serviceCount := by
  obtain ⟨l, hrows, hrecords, -⟩ := b.history
  show (b.demo.currentRecords b.row.plate).length = (b.db.currentRecords b.row.id).length
  rw [hrecords, ← b.rows_perm.length_eq, hrows, List.length_map, List.length_map]

theorem mileages_perm : ((b.demo.currentRecords b.row.plate).map (·.mileageKm)).Perm
    ((b.db.currentRecords b.row.id).map (·.mileageKm)) := by
  obtain ⟨l, hrows, hrecords, hsame⟩ := b.history
  refine .trans ?_ (b.rows_perm.map _)
  rw [hrows, hrecords, List.map_map, List.map_map]
  exact .of_eq (List.map_congr_left fun p hp => (hsame p hp).mileageKm)

theorem oilMileages_perm :
    (((b.demo.currentRecords b.row.plate).filter fun r =>
        r.operations.any (Mobile.isWire "SERVICE_TYPE_OIL_CHANGE")).map (·.mileageKm)).Perm
      (((b.db.currentRecords b.row.id).filter b.db.hasOilChange).map (·.mileageKm)) := by
  obtain ⟨l, hrows, hrecords, hsame⟩ := b.history
  refine .trans ?_ ((b.rows_perm.filter _).map _)
  rw [hrows, hrecords, List.filter_map, List.filter_map, List.map_map, List.map_map]
  have hfilter : l.filter ((fun r => r.operations.any (Mobile.isWire "SERVICE_TYPE_OIL_CHANGE")) ∘ (·.2)) =
      l.filter (b.db.hasOilChange ∘ (·.1)) := List.filter_congr fun p hp => (hsame p hp).oilChange
  rw [hfilter]
  exact .of_eq (List.map_congr_left fun p hp => (hsame p (List.mem_filter.mp hp).1).mileageKm)

theorem currentMileageKm_eq : b.ownedJson.currentMileageKm = b.owned.currentMileageKm := by
  show (Mobile.greatest ((b.demo.currentRecords b.row.plate).map (·.mileageKm))).getD 0 = _
  rw [greatest_eq, max?_perm b.mileages_perm]
  rfl

theorem reminder_eq :
    b.owned.reminder = ⟨b.ownedJson.reminder, b.ownedJson.reminderIsDue, b.ownedJson.nextOilChangeKm⟩ := by
  have hoil : Mobile.greatest (((b.demo.currentRecords b.row.plate).filter fun r =>
      r.operations.any (Mobile.isWire "SERVICE_TYPE_OIL_CHANGE")).map (·.mileageKm)) = b.owned.lastOilChangeKm := by
    rw [greatest_eq, max?_perm b.oilMileages_perm]
    rfl
  have hdemo : (⟨b.ownedJson.reminder, b.ownedJson.reminderIsDue, b.ownedJson.nextOilChangeKm⟩ : Reminder) =
      (fun r : DemoBackend.DemoReminder => ⟨r.text, r.isDue, r.dueAtKm⟩)
        (DemoBackend.reminder b.owned.serviceCount b.owned.currentMileageKm b.owned.lastOilChangeKm) := by
    rw [← b.serviceCount_eq, ← b.currentMileageKm_eq, ← hoil]
    rfl
  rw [hdemo]
  unfold OwnedVehicle.reminder DemoBackend.reminder
  cases b.owned.lastOilChangeKm with
  | none =>
    by_cases hcount : b.owned.serviceCount = 0
    · simp only [hcount, ite_true]
    · simp only [hcount, ite_false]
  | some km =>
    simp only [oilChangeIntervalKm, DemoBackend.oilChangeIntervalKm, dueSoonKm]
    by_cases hlate : km + 3000 - b.owned.currentMileageKm ≤ 0
    · simp only [hlate, ite_true]
    · by_cases hsoon : km + 3000 - b.owned.currentMileageKm ≤ 600
      · simp only [hlate, hsoon, ite_true, ite_false]
      · simp only [hlate, hsoon, ite_false]

/-! ## The two maxima -/

theorem mileageKm_fits {r : ServiceRecordRow} (hr : r ∈ b.db.currentRecords b.row.id) :
    DB.fitsInteger r.mileageKm = true := by
  obtain ⟨l, hrows, -, hsame⟩ := b.history
  have hmem : r ∈ l.map (·.1) := hrows ▸ b.rows_perm.mem_iff.mpr hr
  obtain ⟨p, hp, rfl⟩ := List.mem_map.mp hmem
  exact (hsame p hp).mileageKm_fits

theorem mileageKm_le {r : ServiceRecordRow} (hr : r ∈ b.db.currentRecords b.row.id) :
    r.mileageKm ≤ b.owned.currentMileageKm := by
  have hmem : r.mileageKm ∈ (b.db.currentRecords b.row.id).map (·.mileageKm) := List.mem_map_of_mem hr
  show _ ≤ (((b.db.currentRecords b.row.id).map (·.mileageKm)).max?).getD 0
  cases hmax : ((b.db.currentRecords b.row.id).map (·.mileageKm)).max? with
  | none => simp [List.max?_eq_none_iff.mp hmax] at hmem
  | some m => exact (List.max?_eq_some_iff.mp hmax).2 _ hmem

theorem currentMileageKm_cases : (b.db.currentRecords b.row.id = [] ∧ b.owned.currentMileageKm = 0) ∨
    ∃ r ∈ b.db.currentRecords b.row.id, r.mileageKm = b.owned.currentMileageKm := by
  have howned : b.owned.currentMileageKm = (((b.db.currentRecords b.row.id).map (·.mileageKm)).max?).getD 0 := rfl
  cases hmax : ((b.db.currentRecords b.row.id).map (·.mileageKm)).max? with
  | none => exact Or.inl ⟨List.map_eq_nil_iff.mp (List.max?_eq_none_iff.mp hmax), by rw [howned, hmax]; rfl⟩
  | some m =>
    obtain ⟨r, hr, rfl⟩ := List.mem_map.mp (List.max?_eq_some_iff.mp hmax).1
    exact Or.inr ⟨r, hr, by rw [howned, hmax]; rfl⟩

theorem currentMileageKm_fits : DB.fitsInteger b.owned.currentMileageKm = true := by
  rcases b.currentMileageKm_cases with ⟨-, hzero⟩ | ⟨r, hr, hkm⟩
  · rw [hzero]
    rfl
  · exact hkm ▸ b.mileageKm_fits hr

theorem lastOilChangeKm_none (h : b.owned.lastOilChangeKm = none) {r : ServiceRecordRow}
    (hr : r ∈ b.db.currentRecords b.row.id) : b.db.hasOilChange r = false := by
  have hnil := List.map_eq_nil_iff.mp (List.max?_eq_none_iff.mp h)
  exact Bool.eq_false_of_not_eq_true (List.filter_eq_nil_iff.mp hnil r hr)

theorem lastOilChangeKm_some {km : Int} (h : b.owned.lastOilChangeKm = some km) :
    (∃ r ∈ b.db.currentRecords b.row.id, b.db.hasOilChange r = true ∧ r.mileageKm = km) ∧
      ∀ r ∈ b.db.currentRecords b.row.id, b.db.hasOilChange r = true → r.mileageKm ≤ km := by
  obtain ⟨hmem, hmax⟩ := List.max?_eq_some_iff.mp h
  obtain ⟨r, hr, hkm⟩ := List.mem_map.mp hmem
  obtain ⟨hcurrent, hoil⟩ := List.mem_filter.mp hr
  exact ⟨⟨r, hcurrent, hoil, hkm⟩, fun r' hr' hoil' => hmax _ (List.mem_map_of_mem (List.mem_filter.mpr ⟨hr', hoil'⟩))⟩

/-- The next oil change of every current record is an `int32`. -/
def OilChangesFit : Prop :=
  ∀ r ∈ b.db.currentRecords b.row.id, b.db.hasOilChange r = true → r.mileageKm + oilChangeIntervalKm ≤ 2147483647

/-- The odometer stands above minus the interval, or an oil change is known. -/
def OdometerSane : Prop :=
  (∃ r ∈ b.db.currentRecords b.row.id, b.db.hasOilChange r = true) ∨ b.db.currentRecords b.row.id = [] ∨
    ∃ r ∈ b.db.currentRecords b.row.id, -oilChangeIntervalKm ≤ r.mileageKm

theorem dueAtKm_none (h : b.owned.lastOilChangeKm = none) : b.owned.reminder.dueAtKm = 0 := by
  rw [OwnedVehicle.reminder_dueAtKm, h]
  rfl

theorem dueAtKm_some {km : Int} (h : b.owned.lastOilChangeKm = some km) :
    b.owned.reminder.dueAtKm = km + oilChangeIntervalKm := by
  rw [OwnedVehicle.reminder_dueAtKm, h]
  rfl

/-- The last oil change is at a mileage that both can keep, and no later than the odometer. -/
theorem lastOilChangeKm_range {km : Int} (h : b.owned.lastOilChangeKm = some km) :
    DB.fitsInteger km = true ∧ km ≤ b.owned.currentMileageKm := by
  obtain ⟨⟨r, hr, -, rfl⟩, -⟩ := b.lastOilChangeKm_some h
  exact ⟨b.mileageKm_fits hr, b.mileageKm_le hr⟩

theorem dueAtKm_fits_iff : int32 b.owned.reminder.dueAtKm = b.owned.reminder.dueAtKm ↔ b.OilChangesFit := by
  cases hoil : b.owned.lastOilChangeKm with
  | none =>
    rw [b.dueAtKm_none hoil]
    exact iff_of_true rfl fun r hr hchange => absurd (b.lastOilChangeKm_none hoil hr) (hchange ▸ Bool.noConfusion)
  | some km =>
    rw [b.dueAtKm_some hoil]
    obtain ⟨⟨r, hr, hchange, hkm⟩, hmax⟩ := b.lastOilChangeKm_some hoil
    have hrange := (b.lastOilChangeKm_range hoil).1
    simp only [DB.fitsInteger, Bool.and_eq_true, decide_eq_true_eq] at hrange
    have hfits : int32 (km + oilChangeIntervalKm) = km + oilChangeIntervalKm ↔
        km + oilChangeIntervalKm ≤ 2147483647 := by
      unfold int32 oilChangeIntervalKm
      omega
    rw [hfits]
    exact ⟨fun h r' hr' hchange' => (Int.add_le_add_right (hmax r' hr' hchange') _).trans h, fun h => hkm ▸ h r hr hchange⟩

theorem dueAtKm_sub_le_iff : b.owned.reminder.dueAtKm - b.owned.currentMileageKm ≤ oilChangeIntervalKm ↔
    b.OdometerSane := by
  cases hoil : b.owned.lastOilChangeKm with
  | none =>
    rw [b.dueAtKm_none hoil]
    constructor
    · intro h
      rcases b.currentMileageKm_cases with ⟨hnil, -⟩ | ⟨r, hr, hkm⟩
      · exact Or.inr (Or.inl hnil)
      · exact Or.inr (Or.inr ⟨r, hr, by omega⟩)
    · rintro (⟨r, hr, hchange⟩ | hnil | ⟨r, hr, hkm⟩)
      · exact absurd (b.lastOilChangeKm_none hoil hr) (hchange ▸ Bool.noConfusion)
      · rcases b.currentMileageKm_cases with ⟨-, hzero⟩ | ⟨r, hr, -⟩
        · rw [hzero]
          decide
        · simp [hnil] at hr
      · have hle := b.mileageKm_le hr
        omega
  | some km =>
    rw [b.dueAtKm_some hoil]
    obtain ⟨⟨r, hr, hchange, -⟩, -⟩ := b.lastOilChangeKm_some hoil
    have hle := (b.lastOilChangeKm_range hoil).2
    exact iff_of_true (by omega) (Or.inl ⟨r, hr, hchange⟩)

/-- On the wire the next oil change can only be less. -/
theorem int32_dueAtKm_sub_le_iff :
    int32 b.owned.reminder.dueAtKm - b.owned.currentMileageKm ≤ oilChangeIntervalKm ↔ b.OdometerSane := by
  cases hoil : b.owned.lastOilChangeKm with
  | none =>
    have hzero : int32 b.owned.reminder.dueAtKm = b.owned.reminder.dueAtKm := by
      rw [b.dueAtKm_none hoil]
      rfl
    rw [hzero, b.dueAtKm_sub_le_iff]
  | some km =>
    obtain ⟨⟨r, hr, hchange, -⟩, -⟩ := b.lastOilChangeKm_some hoil
    obtain ⟨hrange, hle⟩ := b.lastOilChangeKm_range hoil
    simp only [DB.fitsInteger, Bool.and_eq_true, decide_eq_true_eq] at hrange
    refine iff_of_true ?_ (Or.inl ⟨r, hr, hchange⟩)
    rw [b.dueAtKm_some hoil]
    unfold int32 oilChangeIntervalKm
    omega

/-! ## On the wire -/

theorem lastService_shown (P : Platform) : ∃ m, ownedToProto P b.db b.owned = some (b.owned.msg m) ∧
    Option.Rel (Shows b.names) m b.ownedJson.lastService := by
  obtain ⟨l, hrows, hrecords, hsame⟩ := b.history
  have hlast : b.owned.lastServiceID = ((l.map (·.1)).head?).map (·.id) := by
    rw [← hrows]
    rfl
  have hjson : b.ownedJson.lastService = (l.map (·.2)).head? := by
    rw [← hrecords]
    rfl
  cases l with
  | nil => exact ⟨none, by rw [ownedToProto, hlast]; rfl, by rw [hjson]; exact .none⟩
  | cons p l =>
    have hp := hsame p (List.mem_cons_self ..)
    have hrow : p.1 ∈ b.db.serviceRecords := by
      have hmem : p.1 ∈ descending (·.createdAt) (b.db.currentRecords b.row.id) := hrows ▸ List.mem_cons_self ..
      exact (mem_currentRecords.mp (b.rows_perm.mem_iff.mp hmem)).1
    obtain ⟨record, revises, hpred, hdesc, hfind⟩ := b.mirrors.schema.findByID P hp.uuid.1
      (hp.uuid.2 ▸ b.mirrors.schema.serviceRecord_of_mem hrow) fun _ _ => []
    refine ⟨some (toProto record), ?_, ?_⟩
    · simp only [ownedToProto, hlast, List.map_cons, List.head?_cons, Option.map_some, hfind]
    · rw [hjson]
      exact .some (b.mirrors.shows hp hpred hdesc)

theorem year_fits : int32 b.row.year = b.row.year := int32_of_fits (b.mirrors.years _ b.registered)

theorem int32_count (n : Nat) : int32 n = n ↔ n ≤ 2147483647 := by
  unfold int32
  omega

theorem sameFigures_iff {last : Option Servicev1.ServiceRecord}
    (hlast : Option.Rel (Shows b.names) last b.ownedJson.lastService) :
    SameFigures b.names (b.owned.msg last) b.ownedJson ↔
      (b.db.currentRecords b.row.id).length ≤ 2147483647 ∧ b.OilChangesFit := by
  have hnext : b.ownedJson.nextOilChangeKm = b.owned.reminder.dueAtKm := by rw [b.reminder_eq]
  constructor
  · intro h
    have hcount : int32 b.owned.serviceCount = b.ownedJson.serviceCount := h.serviceCount
    have hdue : int32 b.owned.reminder.dueAtKm = b.ownedJson.nextOilChangeKm := h.nextOilChangeKm
    rw [b.serviceCount_eq] at hcount
    exact ⟨(int32_count _).mp hcount, b.dueAtKm_fits_iff.mp (hdue.trans hnext)⟩
  · rintro ⟨hcount, hfit⟩
    exact {
      vehicle := by
        show (⟨b.row.plate, b.row.make, b.row.model, int32 b.row.year⟩ : Servicev1.VehicleSummary) = _
        rw [b.year_fits]
        rfl
      currentMileageKm := (int32_of_fits b.currentMileageKm_fits).trans b.currentMileageKm_eq.symm
      serviceCount := ((int32_count _).mpr hcount).trans (congrArg _ b.serviceCount_eq.symm)
      lastService := hlast
      reminder := congrArg Reminder.text b.reminder_eq
      reminderIsDue := congrArg Reminder.isDue b.reminder_eq
      nextOilChangeKm := (b.dueAtKm_fits_iff.mpr hfit).trans hnext.symm
      oilChangeIntervalKm := by
        show (if b.owned.reminder.dueAtKm > 0 then oilChangeIntervalKm else 0) =
          if b.ownedJson.nextOilChangeKm > 0 then DemoBackend.oilChangeIntervalKm else 0
        rw [hnext]
        rfl }

/-- The figures agree exactly while the count of services and the next oil change fit
the `int32`s of the message. Both keep the next oil change within the interval, unless
no oil change is known and the odometer is further below zero. -/
theorem figures_agree_iff (P : Platform) : ∃ m, ownedToProto P b.db (b.db.ownedVehicle b.row) = some m ∧
    (SameFigures b.names m (b.demo.ownedVehicleJson b.row.demo) ↔
      (b.db.currentRecords b.row.id).length ≤ 2147483647 ∧ b.OilChangesFit) ∧
    (m.nextOilChangeKm - m.currentMileageKm ≤ oilChangeIntervalKm ↔ b.OdometerSane) ∧
    ((b.demo.ownedVehicleJson b.row.demo).nextOilChangeKm - (b.demo.ownedVehicleJson b.row.demo).currentMileageKm ≤
      DemoBackend.oilChangeIntervalKm ↔ b.OdometerSane) := by
  obtain ⟨last, hm, hlast⟩ := b.lastService_shown P
  refine ⟨b.owned.msg last, hm, b.sameFigures_iff hlast, ?_, ?_⟩
  · show int32 b.owned.reminder.dueAtKm - int32 b.owned.currentMileageKm ≤ oilChangeIntervalKm ↔ _
    rw [int32_of_fits b.currentMileageKm_fits, b.int32_dueAtKm_sub_le_iff]
  · have hnext : b.ownedJson.nextOilChangeKm = b.owned.reminder.dueAtKm := by rw [b.reminder_eq]
    show b.ownedJson.nextOilChangeKm - b.ownedJson.currentMileageKm ≤ oilChangeIntervalKm ↔ _
    rw [hnext, b.currentMileageKm_eq, b.dueAtKm_sub_le_iff]

/-- Both report the bike alike. -/
def Agrees (P : Platform) : Prop := ∃ m, ownedToProto P b.db (b.db.ownedVehicle b.row) = some m ∧
  SameFigures b.names m (b.demo.ownedVehicleJson b.row.demo)

theorem agrees_iff (P : Platform) :
    b.Agrees P ↔ (b.db.currentRecords b.row.id).length ≤ 2147483647 ∧ b.OilChangesFit := by
  obtain ⟨last, hm, hlast⟩ := b.lastService_shown P
  constructor
  · rintro ⟨m, hm', h⟩
    obtain rfl : b.owned.msg last = m := Option.some.inj (hm.symm.trans hm')
    exact (b.sameFigures_iff hlast).mp h
  · exact fun h => ⟨_, hm, (b.sameFigures_iff hlast).mpr h⟩

end Bike

/-! ## Histories that no workshop writes -/

section
variable {n : Nat} {km : Int} {t : ServiceType}

theorem long_currentRecords : (longDB n km t).currentRecords (uuid "3") = (List.range n).map (longRow km) := by
  refine List.filter_eq_self.mpr fun r hr => ?_
  obtain ⟨i, -, rfl⟩ := List.mem_map.mp hr
  rfl

theorem long_moments : (((longDB n km t).currentRecords (uuid "3")).map (·.createdAt)).Nodup := by
  rw [long_currentRecords, List.map_map]
  refine List.Nodup.map (fun i j h => ?_) List.nodup_range
  have hmul : 1000 * (i : Int) = 1000 * (j : Int) := h
  omega

end

namespace Bike

def long (n : Nat) (km : Int) (t : ServiceType) (hn : n ≤ 10 ^ 12) (hkm : DB.fitsInteger km = true) : Bike where
  names := longNames
  db := longDB n km t
  demo := longDemo n km t
  mirrors := long_mirrors hn hkm
  row := ⟨uuid "3", "ABC1D23", "9C2KC1670ER000001", "Honda", "CG 160", 2024, none⟩
  registered := List.mem_cons_self ..
  moments := long_moments

theorem longHistory_fits : 2147483648 ≤ 10 ^ 12 := by decide

def longHistory : Bike := long 2147483648 0 .other longHistory_fits rfl

def farHistory : Bike := long 1 2147483647 .oilChange (by decide) rfl

def backwardHistory : Bike := long 1 (-5000) .other (by decide) rfl

/-- Of 2147483648 records the server reports a negative count, and a negative next oil
change behind one at 2147483647 km; behind a service at -5000 km the next oil change, 0,
is further away than the interval. -/
theorem figures_disagree : ¬ longHistory.Agrees plain ∧ ¬ farHistory.Agrees plain ∧
    (backwardHistory.demo.ownedVehicleJson backwardHistory.row.demo).nextOilChangeKm -
      (backwardHistory.demo.ownedVehicleJson backwardHistory.row.demo).currentMileageKm = 5000 := by
  refine ⟨fun h => ?_, fun h => ?_, ?_⟩
  · have hcount := ((agrees_iff _ _).mp h).1
    rw [show longHistory.db.currentRecords longHistory.row.id = _ from long_currentRecords, List.length_map,
      List.length_range] at hcount
    exact absurd hcount (by decide)
  · have hfit := ((agrees_iff _ _).mp h).2 (longRow 2147483647 0) (by decide +kernel) (by decide +kernel)
    exact absurd hfit (by decide)
  · decide +kernel

end Bike

end Mototeca
