import Mathlib.Order.Bounds.Basic
import Mototeca.Garage
import Mototeca.Money
import Mototeca.Oficina
import Mototeca.Runs

/-!
# The odometer of a bike on the device

A note raises it by an update of the table and `localCopy` by a whole row, which
it takes from the list in memory. Either way it is the greatest mileage there
has been, as long as the list is read again behind every write.
-/

namespace Mototeca.Mobile

/-! ## The mileages given for a bike -/

/-- An edit needs its note in the table, or there is nothing to save. -/
def GarageDb.hasNote (db : GarageDb) (note : MaintenanceNote) : Bool := note.id.all fun id => db.notes.any (·.id == id)

/-- The mileage an operation gives for the bike `id`, which has the plate `plate`. -/
def GarageOp.mark (dart : Dart) (id : Int) (plate : String) (db : GarageDb) : GarageOp → Option Int
  | .saveNote note => if note.bikeId = id ∧ db.hasNote note then note.mileageKm else none
  | .localCopy bike => if normalizePlate dart bike.plate = plate then some bike.mileageKm else none
  | .reopen | .load | .save _ | .remove _ | .removeNote _ => none

/-- Neither removes the bike nor saves it by its id, under another plate or from
the edit form. -/
def GarageOp.spares (dart : Dart) (id : Int) (plate : String) : GarageOp → Bool
  | .save bike => bike.id != some id
  | .localCopy bike => bike.id != some id || normalizePlate dart bike.plate == plate
  | .remove removed => removed != id
  | .reopen | .load | .saveNote _ | .removeNote _ => true

/-- `load` has an answer behind what the call writes. -/
def GarageCall.rereads (c : GarageCall) : Bool := !c.unanswered 1

theorem GarageCall.answered_of_rereads {c : GarageCall} (h : c.rereads = true) : c.unanswered 1 = false := by
  simpa [GarageCall.rereads] using h

/-- No edit of a removed note has a mileage above the bike's. -/
def GarageCall.NoteStands (c : GarageCall) (id : Int) (db : GarageDb) : Prop :=
  ∀ note, c.op = .saveNote note → note.bikeId = id → db.hasNote note = true ∨
    ∀ km ∈ note.mileageKm, ∀ row ∈ db.bikes, row.id = id → km ≤ row.mileageKm

namespace GarageState

variable (dart : Dart) (id : Int) (plate : String)

def step (s : GarageState) (c : GarageCall) : Option GarageState := some (s.call dart c).1

/-- A call that throws gives none. -/
def mark (s : GarageState) (c : GarageCall) : List Int :=
  if (s.call dart c).2 = none then (c.op.mark dart id plate s.db).toList else []

def marks : GarageState → List GarageCall → List Int
  | _, [] => []
  | s, c :: calls => s.mark dart id plate c ++ marks (s.call dart c).1 calls

end GarageState

def BikeRow.raised (row : BikeRow) (marks : List Int) : BikeRow := { row with mileageKm := marks.foldl max row.mileageKm }

theorem raised_nil (row : BikeRow) : row.raised [] = row := rfl

theorem raised_append (row : BikeRow) (marks marks' : List Int) :
    row.raised (marks ++ marks') = (row.raised marks).raised marks' := by
  simp only [BikeRow.raised, List.foldl_append]

theorem raised_singleton {row : BikeRow} {km : Int} (h : km ≤ row.mileageKm) : row.raised [km] = row := by
  have hmax : max row.mileageKm km = row.mileageKm := max_eq_left h
  simp only [BikeRow.raised, List.foldl_cons, List.foldl_nil, hmax]

theorem le_raised (row : BikeRow) (marks : List Int) : row.mileageKm ≤ (row.raised marks).mileageKm := by
  show row.mileageKm ≤ marks.foldl max row.mileageKm
  generalize row.mileageKm = km
  induction marks generalizing km with
  | nil => exact le_refl km
  | cons mark marks ih => exact (le_max_left km mark).trans (ih _)

theorem isGreatest_foldl_max {α : Type} [LinearOrder α] (marks : List α) : ∀ a : α,
    IsGreatest {b | b = a ∨ b ∈ marks} (marks.foldl max a) := by
  induction marks with
  | nil =>
    intro a
    refine ⟨.inl rfl, fun b hb => ?_⟩
    rcases hb with rfl | hb
    · exact le_refl _
    · cases hb
  | cons mark marks ih =>
    intro a
    obtain ⟨hmem, hupper⟩ := ih (max a mark)
    refine ⟨?_, fun b hb => ?_⟩
    · rcases hmem with heq | hmem
      · rcases le_total a mark with hle | hle
        · rw [max_eq_right hle] at heq
          exact .inr (List.mem_cons.mpr (.inl (by rw [List.foldl_cons, max_eq_right hle, heq])))
        · rw [max_eq_left hle] at heq
          exact .inl (by rw [List.foldl_cons, max_eq_left hle, heq])
      · exact .inr (List.mem_cons_of_mem _ hmem)
    · have hfirst : max a mark ≤ marks.foldl max (max a mark) := hupper (.inl rfl)
      rcases hb with rfl | hb
      · exact (le_max_left _ _).trans hfirst
      · rcases List.mem_cons.mp hb with rfl | hb
        · exact (le_max_right _ _).trans hfirst
        · exact hupper (.inr hb)

/-! ## Plates and labels as they are stored -/

theorem isPlateChar_range {c : Char} (h : isPlateChar c = true) :
    (65 ≤ c.toNat ∧ c.toNat ≤ 90) ∨ (48 ≤ c.toNat ∧ c.toNat ≤ 57) := by
  have hchar : (decide (65 ≤ c.val ∧ c.val ≤ 90) || (decide (48 ≤ c.val) && decide (c.val ≤ 57))) = true := h
  simp only [Bool.or_eq_true, Bool.and_eq_true, decide_eq_true_iff, UInt32.le_iff_toNat_le] at hchar
  exact hchar

theorem isPlateChar_plain {c : Char} (h : isPlateChar c = true) : isWhitespace c = false ∧ c ≠ '-' ∧ c ≠ ' ' := by
  have hrange := isPlateChar_range h
  refine ⟨isWhitespace_graphic ⟨by omega, by omega⟩, ?_, ?_⟩
  · rintro rfl
    exact absurd hrange (by decide)
  · rintro rfl
    exact absurd hrange (by decide)

theorem matchesPlate_chars {text : List Char} (h : matchesPlate text = true) : text.all isPlateChar = true := by
  unfold matchesPlate at h
  split at h
  · simp only [Bool.and_eq_true] at h
    obtain ⟨⟨⟨⟨⟨⟨ha, hb⟩, hc⟩, hd⟩, he⟩, hf⟩, hg⟩ := h
    simp [isPlateChar, ha, hb, hc, hd, hf, hg] at he ⊢
    exact he
  · cases h

theorem removeAll_of_not_mem {c : Char} {text : String} (h : c ∉ text.toList) : removeAll c text = text := by
  have hkeep : text.toList.filter (· != c) = text.toList :=
    List.filter_eq_self.mpr fun d hd => by
      have hne : d ≠ c := fun heq => h (heq ▸ hd)
      simp [hne]
  rw [removeAll, hkeep, String.ofList_toList]

/-- A plate that is accepted is stored in the spelling it has from then on. -/
theorem normalizePlate_valid {dart : Dart} (hupper : dart.KeepsUpper) {typed : String}
    (h : isValidPlate dart typed = true) :
    normalizePlate dart (normalizePlate dart typed) = normalizePlate dart typed := by
  have hchars := matchesPlate_chars h
  generalize normalizePlate dart typed = plate at hchars
  have hplain (c : Char) (hc : c ∈ plate.toList) := isPlateChar_plain (List.all_eq_true.mp hchars c hc)
  have htrim : trim plate = plate := by
    rw [← String.toList_inj, toList_trim]
    exact trimChars_self (fun c hc => (hplain c (List.mem_of_head? hc)).1)
      fun c hc => (hplain c (List.mem_of_getLast? hc)).1
  rw [normalizePlate, htrim, hupper plate hchars, removeAll_of_not_mem fun hc => (hplain '-' hc).2.1 rfl,
    removeAll_of_not_mem fun hc => (hplain ' ' hc).2.2 rfl]

theorem trim_trim (s : String) : trim (trim s) = trim s := by
  rw [← String.toList_inj, toList_trim, toList_trim]
  exact Trimming.trimBoth_trimBoth s.toList

/-! ## The statements -/

section
variable {db db' : GarageDb} {id : Int}

theorem insertBike_ok {row : BikeColumns} {createdAt : String} (h : db.insertBike row createdAt = .ok db') :
    0 ≤ row.mileageKm ∧ (∀ r ∈ db.bikes, r.plate ≠ row.plate) ∧
      db' = { db with bikes := db.bikes ++ [⟨row, db.nextBike, createdAt⟩], nextBike := db.nextBike + 1 } := by
  unfold GarageDb.insertBike at h
  by_cases hkm : row.mileageKm < 0
  · rw [if_pos hkm] at h
    cases h
  · rw [if_neg hkm] at h
    by_cases hplate : db.bikes.any (·.plate == row.plate) = true
    · rw [if_pos hplate] at h
      cases h
    · rw [if_neg hplate] at h
      exact ⟨by omega, fun r hr heq => hplate (Tables.any_key_iff.mpr ⟨r, hr, heq⟩), (Except.ok.inj h).symm⟩

theorem updateBike_ok {row : BikeColumns} (h : db.updateBike id row = .ok db') :
    (∀ r ∈ db.bikes, r.id = id → 0 ≤ row.mileageKm ∧ ∀ other ∈ db.bikes, other.id ≠ id → other.plate ≠ row.plate) ∧
      db' = { db with bikes := Tables.update (·.id) id (fun r => { r with toBikeColumns := row }) db.bikes } := by
  unfold GarageDb.updateBike at h
  by_cases hfound : db.bikes.any (·.id == id) = true
  · rw [if_neg (by simp [hfound])] at h
    by_cases hkm : row.mileageKm < 0
    · rw [if_pos hkm] at h
      cases h
    · rw [if_neg hkm] at h
      by_cases hplate : (db.bikes.any fun other => other.id != id && other.plate == row.plate) = true
      · rw [if_pos hplate] at h
        cases h
      · rw [if_neg hplate] at h
        refine ⟨fun r hr hid => ⟨by omega, fun other hother hne heq => hplate ?_⟩, (Except.ok.inj h).symm⟩
        exact List.any_eq_true.mpr ⟨other, hother, by simp [hne, heq]⟩
  · have habsent : ∀ r ∈ db.bikes, r.id ≠ id := fun r hr hid => hfound (Tables.any_key_iff.mpr ⟨r, hr, hid⟩)
    rw [if_pos (by simp [hfound])] at h
    refine ⟨fun r hr hid => absurd hid (habsent r hr), ?_⟩
    rw [Tables.update_self fun r hr hid => absurd hid (habsent r hr)]
    exact (Except.ok.inj h).symm

/-- No `CHECK` stands in the way: the mileage is above one that passed it. -/
theorem raiseBike_eq (hmileages : ∀ r ∈ db.bikes, 0 ≤ r.mileageKm) (km : Int) :
    db.raiseBike id km = .ok { db with bikes := Tables.update (·.id) id (·.raised [km]) db.bikes } := by
  unfold GarageDb.raiseBike
  have hcheck : ¬ ((db.bikes.any fun r => r.id == id && decide (r.mileageKm < km)) && decide (km < 0)) = true := by
    intro h
    rw [Bool.and_eq_true, List.any_eq_true] at h
    obtain ⟨⟨r, hr, hbehind⟩, hneg⟩ := h
    have hkm := hmileages r hr
    simp only [Bool.and_eq_true, decide_eq_true_iff] at hbehind hneg
    omega
  rw [if_neg hcheck]
  congr 2
  refine List.map_congr_left fun r _ => ?_
  by_cases hid : r.id = id
  · by_cases hkm : r.mileageKm < km
    · simp [hid, hkm, BikeRow.raised, max_eq_right hkm.le]
    · simp [hid, hkm, raised_singleton (not_lt.mp hkm)]
  · simp [hid]

theorem checkNote_ok {row : NoteColumns} (h : db.checkNote row = .ok ()) : row.bikeId ∈ db.bikes.map (·.id) := by
  unfold GarageDb.checkNote at h
  split at h
  · cases h
  · by_cases hfound : db.bikes.any (·.id == row.bikeId) = true
    · obtain ⟨r, hr, hid⟩ := Tables.any_key_iff.mp hfound
      exact List.mem_map.mpr ⟨r, hr, hid⟩
    · rw [if_pos (by simp [hfound])] at h
      cases h

def GarageDb.Referenced (db : GarageDb) : Prop := ∀ note ∈ db.notes, note.bikeId ∈ db.bikes.map (·.id)

theorem insertNote_ok {row : NoteColumns} (hdb : db.Referenced) (h : db.insertNote row = .ok db') :
    ∃ notes next, db' = { db with notes := notes, nextNote := next } ∧ db'.Referenced := by
  unfold GarageDb.insertNote at h
  cases hcheck : db.checkNote row with
  | error error =>
    rw [hcheck] at h
    cases h
  | ok _ =>
    rw [hcheck] at h
    cases h
    refine ⟨_, _, rfl, fun note hnote => ?_⟩
    rcases List.mem_append.mp hnote with hnote | hnote
    · exact hdb note hnote
    · rw [List.mem_singleton.mp hnote]
      exact checkNote_ok hcheck

theorem updateNote_ok {row : NoteColumns} (hdb : db.Referenced) (h : db.updateNote id row = .ok db') :
    ∃ notes next, db' = { db with notes := notes, nextNote := next } ∧ db'.Referenced := by
  unfold GarageDb.updateNote at h
  by_cases hfound : db.notes.any (·.id == id) = true
  · rw [if_pos hfound] at h
    cases hcheck : db.checkNote row with
    | error error =>
      rw [hcheck] at h
      cases h
    | ok _ =>
      rw [hcheck] at h
      cases h
      refine ⟨_, _, rfl, fun note hnote => ?_⟩
      rcases Tables.of_mem_update hnote with ⟨hnote, -⟩ | ⟨note₀, hnote₀, -, rfl⟩
      · exact hdb note hnote
      · exact checkNote_ok hcheck
  · rw [if_neg hfound] at h
    cases h
    refine ⟨_, _, rfl, fun note hnote => ?_⟩
    rcases Tables.of_mem_update hnote with ⟨hnote, -⟩ | ⟨note₀, hnote₀, hid, rfl⟩
    · exact hdb note hnote
    · exact absurd (Tables.any_key_iff.mpr ⟨note₀, hnote₀, hid⟩) hfound

theorem writeNote_ok {dart : Dart} {note : MaintenanceNote} (hdb : db.Referenced) (h : db.writeNote dart note = .ok db') :
    ∃ notes next, db' = { db with notes := notes, nextNote := next } ∧ db'.Referenced := by
  unfold GarageDb.writeNote at h
  cases hid : note.id with
  | none =>
    rw [hid] at h
    exact insertNote_ok hdb h
  | some id =>
    rw [hid] at h
    exact updateNote_ok hdb h

end

/-! ## What is stored -/

structure GarageDb.Stored (db : GarageDb) : Prop where
  ids : (db.bikes.map (·.id)).Nodup
  fresh : ∀ row ∈ db.bikes, row.id < db.nextBike
  plates : (db.bikes.map (·.plate)).Nodup
  mileages : ∀ row ∈ db.bikes, 0 ≤ row.mileageKm
  labels : ∀ row ∈ db.bikes, trim row.label = row.label
  references : db.Referenced

section
variable {db db' : GarageDb} {dart : Dart}

theorem GarageDb.Stored.empty : GarageDb.empty.Stored where
  ids := .nil
  fresh := nofun
  plates := .nil
  mileages := nofun
  labels := nofun
  references := nofun

theorem GarageDb.Stored.eq_of_id (h : db.Stored) {a b : BikeRow} (ha : a ∈ db.bikes) (hb : b ∈ db.bikes)
    (heq : a.id = b.id) : a = b := List.inj_on_of_nodup_map h.ids ha hb heq

theorem GarageDb.Stored.eq_of_plate (h : db.Stored) {a b : BikeRow} (ha : a ∈ db.bikes) (hb : b ∈ db.bikes)
    (heq : a.plate = b.plate) : a = b := List.inj_on_of_nodup_map h.plates ha hb heq

theorem GarageDb.Stored.insertBike (h : db.Stored) {bike : LocalBike} {createdAt : String}
    (hok : db.insertBike (bike.toRow dart) createdAt = .ok db') : db'.Stored := by
  obtain ⟨hkm, hplate, rfl⟩ := insertBike_ok hok
  refine ⟨Tables.nodup_insert h.ids fun r hr => (h.fresh r hr).ne, fun row hrow => ?_, Tables.nodup_insert h.plates hplate,
    fun row hrow => ?_, fun row hrow => ?_, fun note hnote => ?_⟩
  · rcases List.mem_append.mp hrow with hrow | hrow
    · exact (h.fresh row hrow).trans (Int.lt_succ _)
    · rw [List.mem_singleton.mp hrow]
      exact Int.lt_succ _
  · rcases List.mem_append.mp hrow with hrow | hrow
    · exact h.mileages row hrow
    · rw [List.mem_singleton.mp hrow]
      exact hkm
  · rcases List.mem_append.mp hrow with hrow | hrow
    · exact h.labels row hrow
    · rw [List.mem_singleton.mp hrow]
      exact trim_trim bike.label
  · rw [List.map_append]
    exact List.mem_append_left _ (h.references note hnote)

/-- An update that keeps the ids, where the row it writes meets the constraints. -/
theorem GarageDb.Stored.update (h : db.Stored) {id : Int} {f : BikeRow → BikeRow} (hid : ∀ r, (f r).id = r.id)
    (hplates : ((Tables.update (·.id) id f db.bikes).map (·.plate)).Nodup)
    (hwritten : ∀ r ∈ db.bikes, r.id = id → 0 ≤ (f r).mileageKm ∧ trim (f r).label = (f r).label) :
    ({ db with bikes := Tables.update (·.id) id f db.bikes } : GarageDb).Stored := by
  have hids : (Tables.update (·.id) id f db.bikes).map (·.id) = db.bikes.map (·.id) := Tables.map_update hid
  refine ⟨by rw [hids]; exact h.ids, fun row hrow => ?_, hplates, fun row hrow => ?_, fun row hrow => ?_,
    fun note hnote => ?_⟩
  · rcases Tables.of_mem_update hrow with ⟨hrow, -⟩ | ⟨r, hr, -, rfl⟩
    · exact h.fresh row hrow
    · rw [hid]
      exact h.fresh r hr
  · rcases Tables.of_mem_update hrow with ⟨hrow, -⟩ | ⟨r, hr, hk, rfl⟩
    · exact h.mileages row hrow
    · exact (hwritten r hr hk).1
  · rcases Tables.of_mem_update hrow with ⟨hrow, -⟩ | ⟨r, hr, hk, rfl⟩
    · exact h.labels row hrow
    · exact (hwritten r hr hk).2
  · show note.bikeId ∈ (Tables.update (·.id) id f db.bikes).map (·.id)
    rw [hids]
    exact h.references note hnote

theorem GarageDb.Stored.updateBike (h : db.Stored) {id : Int} {bike : LocalBike}
    (hok : db.updateBike id (bike.toRow dart) = .ok db') : db'.Stored := by
  obtain ⟨hwritten, rfl⟩ := updateBike_ok hok
  refine h.update (fun _ => rfl) ?_ fun r hr hid => ⟨(hwritten r hr hid).1, trim_trim bike.label⟩
  by_cases hfound : ∃ r ∈ db.bikes, r.id = id
  · obtain ⟨r, hr, hid⟩ := hfound
    exact Tables.nodup_update h.ids h.plates (fun _ => rfl) (hwritten r hr hid).2
  · rw [Tables.update_self fun r hr hid => absurd ⟨r, hr, hid⟩ hfound]
    exact h.plates

theorem GarageDb.Stored.writeBike (h : db.Stored) {now : DateTime} {bike : LocalBike}
    (hok : db.writeBike dart now bike = .ok db') : db'.Stored := by
  unfold GarageDb.writeBike at hok
  cases hid : bike.id with
  | none =>
    rw [hid] at hok
    exact h.insertBike hok
  | some id =>
    rw [hid] at hok
    exact h.updateBike hok

theorem GarageDb.Stored.raise (h : db.Stored) (id : Int) (marks : List Int) :
    ({ db with bikes := Tables.update (·.id) id (·.raised marks) db.bikes } : GarageDb).Stored := by
  have hplates : (Tables.update (·.id) id (·.raised marks) db.bikes).map (·.plate) = db.bikes.map (·.plate) :=
    Tables.map_update fun _ => rfl
  refine h.update (fun _ => rfl) (by rw [hplates]; exact h.plates) fun r hr _ => ⟨?_, h.labels r hr⟩
  exact (h.mileages r hr).trans (le_raised r marks)

theorem GarageDb.Stored.deleteBike (h : db.Stored) (id : Int) : (db.deleteBike id).Stored where
  ids := h.ids.sublist (List.filter_sublist.map _)
  fresh row hrow := h.fresh row (List.mem_of_mem_filter hrow)
  plates := h.plates.sublist (List.filter_sublist.map _)
  mileages row hrow := h.mileages row (List.mem_of_mem_filter hrow)
  labels row hrow := h.labels row (List.mem_of_mem_filter hrow)
  references := by
    intro note hnote
    obtain ⟨hnote, hkept⟩ := List.mem_filter.mp hnote
    obtain ⟨row, hrow, hid⟩ := List.mem_map.mp (h.references note hnote)
    exact List.mem_map.mpr ⟨row, List.mem_filter.mpr ⟨hrow, by rwa [hid]⟩, hid⟩

theorem GarageDb.Stored.setNotes (h : db.Stored) {notes : List NoteRow} {next : Int}
    (hnotes : ({ db with notes := notes, nextNote := next } : GarageDb).Referenced) :
    ({ db with notes := notes, nextNote := next } : GarageDb).Stored :=
  ⟨h.ids, h.fresh, h.plates, h.mileages, h.labels, hnotes⟩

end

/-! ## The garage -/

/-- Once it has been read, the list in memory is what the table would answer. -/
structure GarageState.Kept (s : GarageState) : Prop where
  stored : s.db.Stored
  cached : s.loaded = true → s.bikes = s.db.queryBikes.map .fromRow

namespace GarageState

section
variable {dart : Dart} {m : Moment} {s : GarageState} {bike : LocalBike}

theorem write_ok {α : Type} {n : Nat} {result : Except DatabaseException α} {a : α} (h : m.write n result = .ok a) :
    result = .ok a := by
  unfold Moment.write at h
  split at h
  · cases h
  · exact h

theorem bind_ok {ε α β : Type} {x : Except ε α} {f : α → Except ε β} {b : β} (h : x >>= f = .ok b) :
    ∃ a, x = .ok a ∧ f a = .ok b := by
  cases x with
  | error e => cases h
  | ok a => exact ⟨a, rfl, h⟩

theorem kept_reread {db : GarageDb} (h : db.Stored) : ({ s with db } : GarageState).reread.Kept := ⟨h, fun _ => rfl⟩

theorem load_db (s : GarageState) (m : Moment) (query : Nat) : (s.load m query).1.db = s.db := by
  unfold load
  split
  · rfl
  · rfl

theorem kept_load {db : GarageDb} (h : db.Stored) (hm : m.unanswered 1 = false) :
    (({ s with db } : GarageState).load m 1).1.Kept := by
  rw [load, if_neg (by simp [hm])]
  exact kept_reread h

theorem load_answered {query : Nat} (hm : m.unanswered query = false) : s.load m query = (s.reread, none) :=
  if_neg (by simp [hm])

theorem load_unanswered {query : Nat} (hm : m.unanswered query = true) :
    s.load m query = (s, some (.database .unanswered)) := if_pos hm

/-- What `ensureLoaded` leaves once it has an answer. -/
def asLoaded (s : GarageState) : GarageState := if s.loaded then s else s.reread

theorem asLoaded_db (s : GarageState) : s.asLoaded.db = s.db := by
  unfold asLoaded
  split
  · rfl
  · rfl

theorem asLoaded_bikes (h : s.Kept) : s.asLoaded.bikes = s.db.queryBikes.map .fromRow := by
  unfold asLoaded
  by_cases hl : s.loaded = true
  · rw [if_pos hl]
    exact h.cached hl
  · rw [if_neg hl]
    rfl

theorem Kept.asLoaded (h : s.Kept) : s.asLoaded.Kept :=
  ⟨by rw [asLoaded_db]; exact h.stored, fun _ => by rw [asLoaded_bikes h, asLoaded_db]⟩

theorem ensureLoaded_cases (m : Moment) (s : GarageState) :
    m.unanswered 0 = true ∧ s.ensureLoaded m = (s, some (.database .unanswered)) ∨
      s.ensureLoaded m = (s.asLoaded, none) := by
  unfold ensureLoaded asLoaded
  by_cases hl : s.loaded = true
  · rw [if_pos hl, if_pos hl]
    exact .inr rfl
  · rw [if_neg hl, if_neg hl]
    cases hm : m.unanswered 0 with
    | true => exact .inl ⟨rfl, load_unanswered hm⟩
    | false => exact .inr (load_answered hm)

theorem mem_queryBikes {db : GarageDb} {row : BikeRow} : row ∈ db.queryBikes ↔ row ∈ db.bikes :=
  (List.perm_insertionSort _ db.bikes).mem_iff

theorem withPlate_some {db : GarageDb} {plate : String} {existing : LocalBike}
    (hbikes : s.bikes = db.queryBikes.map .fromRow) (h : s.withPlate plate = some existing) :
    ∃ row ∈ db.bikes, row.plate = plate ∧ existing = .fromRow row := by
  unfold withPlate at h
  have hmem := List.mem_of_find?_eq_some h
  have hplate := List.find?_some h
  rw [hbikes, List.mem_map] at hmem
  obtain ⟨row, hrow, rfl⟩ := hmem
  exact ⟨row, mem_queryBikes.mp hrow, beq_iff_eq.mp hplate, rfl⟩

theorem withPlate_none {db : GarageDb} {plate : String} (hbikes : s.bikes = db.queryBikes.map .fromRow)
    (h : s.withPlate plate = none) : ∀ row ∈ db.bikes, row.plate ≠ plate := by
  unfold withPlate at h
  intro row hrow heq
  have hmem : LocalBike.fromRow row ∈ s.bikes := by
    rw [hbikes]
    exact List.mem_map_of_mem (mem_queryBikes.mpr hrow)
  have hnot := List.find?_eq_none.mp h _ hmem
  exact hnot (beq_iff_eq.mpr heq)

theorem withPlate_of_mem (h : s.Kept) (hl : s.loaded = true) {row : BikeRow} (hrow : row ∈ s.db.bikes) :
    s.withPlate row.plate = some (.fromRow row) := by
  cases hfound : s.withPlate row.plate with
  | none => exact absurd rfl (withPlate_none (h.cached hl) hfound row hrow)
  | some existing =>
    obtain ⟨row', hrow', hplate, rfl⟩ := withPlate_some (h.cached hl) hfound
    rw [h.stored.eq_of_plate hrow' hrow hplate]

/-! ## What a call can do -/

theorem save_cases (dart : Dart) (m : Moment) (s : GarageState) (bike : LocalBike) :
    (∃ thrown, s.save dart m bike = (s, some thrown)) ∨
      ∃ db, s.save dart m bike = { s with db }.load m 1 ∧ s.db.writeBike dart m.now bike = .ok db := by
  unfold save
  cases hwrite : m.write 0 (s.db.writeBike dart m.now bike) with
  | ok db => exact .inr ⟨db, rfl, write_ok hwrite⟩
  | error error =>
    refine .inl ?_
    by_cases hunique : (!error.isUniqueConstraintError) = true
    · exact ⟨_, if_pos hunique⟩
    · exact ⟨_, if_neg hunique⟩

theorem saveNote_cases (h : s.Kept) (dart : Dart) (m : Moment) (note : MaintenanceNote) :
    (∃ thrown, s.saveNote dart m note = (s, some thrown)) ∨
      ∃ notes next, ({ s.db with notes := notes, nextNote := next } : GarageDb).Referenced ∧
        s.saveNote dart m note = { s with db := { s.db with
          notes := notes, nextNote := next
          bikes := Tables.update (·.id) note.bikeId (·.raised note.mileageKm.toList) s.db.bikes } }.load m 1 := by
  unfold saveNote
  cases hdone : s.noteTransaction dart m note >>= fun db => m.write 2 (.ok db) with
  | error error => exact .inl ⟨_, rfl⟩
  | ok db =>
    obtain ⟨db₁, hdb₁, hcommit⟩ := bind_ok hdone
    cases write_ok hcommit
    obtain ⟨db₀, hdb₀, hraise⟩ := bind_ok hdb₁
    obtain ⟨notes, next, rfl, hnotes⟩ := writeNote_ok h.stored.references (write_ok hdb₀)
    refine .inr ⟨notes, next, hnotes, ?_⟩
    cases hkm : note.mileageKm with
    | none =>
      rw [hkm] at hraise
      cases hraise
      have hsame : Tables.update (·.id) note.bikeId (·.raised (none : Option Int).toList) s.db.bikes = s.db.bikes :=
        Tables.update_self fun r _ _ => raised_nil r
      rw [hsame]
    | some km =>
      rw [hkm] at hraise
      have hraised := write_ok hraise
      rw [raiseBike_eq (h.stored.setNotes hnotes).mileages] at hraised
      cases hraised
      rfl

theorem localCopy_cases (h : s.Kept) (dart : Dart) (m : Moment) (bike : LocalBike) :
    (m.unanswered 0 = true ∧ s.localCopy dart m bike = (s, .error (.database .unanswered))) ∨
    ((∀ row ∈ s.db.bikes, row.plate ≠ normalizePlate dart bike.plate) ∧
      s.localCopy dart m bike =
        savedCopy (normalizePlate dart bike.plate) (s.asLoaded.save dart m bike)) ∨
    ∃ row ∈ s.db.bikes, row.plate = normalizePlate dart bike.plate ∧
      (bike.mileageKm ≤ row.mileageKm ∧ s.localCopy dart m bike = (s.asLoaded, .ok (.fromRow row)) ∨
        row.mileageKm < bike.mileageKm ∧ s.localCopy dart m bike =
          savedCopy (normalizePlate dart bike.plate)
            (s.asLoaded.save dart m (.fromRow (row.raised [bike.mileageKm])))) := by
  rcases ensureLoaded_cases m s with ⟨hm, hloaded⟩ | hloaded
  · exact .inl ⟨hm, by rw [localCopy, hloaded]⟩
  refine .inr ?_
  rw [localCopy, hloaded]
  cases hfound : s.asLoaded.withPlate (normalizePlate dart bike.plate) with
  | none =>
    simp only [hfound]
    exact .inl ⟨withPlate_none (asLoaded_bikes h) hfound, trivial⟩
  | some existing =>
    obtain ⟨row, hrow, hplate, rfl⟩ := withPlate_some (asLoaded_bikes h) hfound
    simp only [hfound]
    refine .inr ⟨row, hrow, hplate, ?_⟩
    by_cases hkm : row.mileageKm < bike.mileageKm
    · have hraised : (row.raised [bike.mileageKm]).mileageKm = bike.mileageKm := max_eq_right hkm.le
      have hcopy : LocalBike.fromRow (row.raised [bike.mileageKm]) =
          ⟨some row.id, normalizePlate dart bike.plate, row.label, row.year, bike.mileageKm⟩ := by
        rw [LocalBike.fromRow, hraised, ← hplate]
        rfl
      rw [hcopy]
      exact .inr ⟨hkm, if_pos hkm⟩
    · exact .inl ⟨not_lt.mp hkm, if_neg hkm⟩

/-! ## The invariant -/

theorem save_stored (h : s.db.Stored) : (s.save dart m bike).1.db.Stored := by
  rcases save_cases dart m s bike with ⟨thrown, hsave⟩ | ⟨db, hsave, hok⟩
  · rw [hsave]
    exact h
  · rw [hsave, load_db]
    exact h.writeBike hok

theorem Kept.save (h : s.Kept) (hm : m.unanswered 1 = false) : (s.save dart m bike).1.Kept := by
  rcases save_cases dart m s bike with ⟨thrown, hsave⟩ | ⟨db, hsave, hok⟩
  · rw [hsave]
    exact h
  · rw [hsave]
    exact kept_load (h.stored.writeBike hok) hm

theorem savedCopy_state (plate : String) (saved : GarageState × Option GarageThrown) :
    (savedCopy plate saved).1 = saved.1 := by
  obtain ⟨s, thrown⟩ := saved
  cases thrown with
  | none => rfl
  | some thrown => rfl

/-- The table stays as it should be even where the list is not read again. -/
theorem localCopy_stored (h : s.Kept) : (s.localCopy dart m bike).1.db.Stored := by
  rcases localCopy_cases h dart m bike with ⟨-, hcopy⟩ | ⟨-, hcopy⟩ | ⟨row, -, -, ⟨-, hcopy⟩ | ⟨-, hcopy⟩⟩
  · rw [hcopy]
    exact h.stored
  · rw [hcopy, savedCopy_state]
    exact save_stored h.asLoaded.stored
  · rw [hcopy]
    exact h.asLoaded.stored
  · rw [hcopy, savedCopy_state]
    exact save_stored h.asLoaded.stored

theorem Kept.localCopy (h : s.Kept) (hm : m.unanswered 1 = false) : (s.localCopy dart m bike).1.Kept := by
  rcases localCopy_cases h dart m bike with ⟨-, hcopy⟩ | ⟨-, hcopy⟩ | ⟨row, -, -, ⟨-, hcopy⟩ | ⟨-, hcopy⟩⟩
  · rw [hcopy]
    exact h
  · rw [hcopy, savedCopy_state]
    exact h.asLoaded.save hm
  · rw [hcopy]
    exact h.asLoaded
  · rw [hcopy, savedCopy_state]
    exact h.asLoaded.save hm

theorem Kept.remove (h : s.Kept) (hm : m.unanswered 1 = false) (id : Int) : (s.remove m id).1.Kept := by
  unfold GarageState.remove
  cases hdone : m.write 0 (.ok (s.db.deleteBike id)) with
  | error error => exact h
  | ok db =>
    cases write_ok hdone
    exact kept_load (h.stored.deleteBike id) hm

theorem Kept.saveNote (h : s.Kept) (hm : m.unanswered 1 = false) (note : MaintenanceNote) :
    (s.saveNote dart m note).1.Kept := by
  rcases saveNote_cases h dart m note with ⟨thrown, hnote⟩ | ⟨notes, next, hnotes, hnote⟩
  · rw [hnote]
    exact h
  · rw [hnote]
    exact kept_load ((h.stored.setNotes hnotes).raise note.bikeId note.mileageKm.toList) hm

theorem Kept.removeNote (h : s.Kept) (id : Int) : (s.removeNote m id).1.Kept := by
  unfold GarageState.removeNote
  cases hdone : m.write 0 (.ok (s.db.deleteNote id)) with
  | error error => exact h
  | ok db =>
    cases write_ok hdone
    exact ⟨h.stored.setNotes fun note hnote => h.stored.references note (List.mem_of_mem_filter hnote), h.cached⟩

theorem call_localCopy {c : GarageCall} (hop : c.op = .localCopy bike) :
    s.call dart c = ((s.localCopy dart c.toMoment bike).1,
      match (s.localCopy dart c.toMoment bike).2 with | .ok _ => none | .error thrown => some thrown) := by
  unfold call
  rw [hop]
  simp only
  generalize s.localCopy dart c.toMoment bike = copied
  obtain ⟨s', result⟩ := copied
  cases result with
  | ok copy => rfl
  | error thrown => rfl

theorem Kept.call (h : s.Kept) {c : GarageCall} (hc : c.rereads = true) : (s.call dart c).1.Kept := by
  have hm : c.unanswered 1 = false := GarageCall.answered_of_rereads hc
  cases hop : c.op with
  | localCopy bike =>
    rw [call_localCopy hop]
    exact h.localCopy hm
  | reopen =>
    rw [GarageState.call, hop]
    exact ⟨h.stored, nofun⟩
  | load =>
    rw [GarageState.call, hop]
    show (s.load c.toMoment 0).1.Kept
    unfold GarageState.load
    split
    · exact h
    · exact kept_reread h.stored
  | save bike =>
    rw [GarageState.call, hop]
    exact h.save hm
  | remove id =>
    rw [GarageState.call, hop]
    exact h.remove hm id
  | saveNote note =>
    rw [GarageState.call, hop]
    exact h.saveNote hm note
  | removeNote id =>
    rw [GarageState.call, hop]
    exact h.removeNote id

theorem Kept.run (calls : List GarageCall) :
    ∀ {s : GarageState}, s.Kept → (∀ c ∈ calls, c.rereads = true) → (s.run dart calls).Kept := by
  induction calls with
  | nil => exact fun h _ => h
  | cons c calls ih =>
    exact fun h hcalls => ih (h.call (hcalls c List.mem_cons_self)) fun c' hc' => hcalls c' (List.mem_cons_of_mem _ hc')

/-! ## localCopy of a plate that is there -/

section
variable {row : BikeRow}

/-- The whole row is written, and only its mileage changes. -/
theorem writeBike_raised (h : s.db.Stored) (hrow : row ∈ s.db.bikes)
    (hfixed : normalizePlate dart row.plate = row.plate) (km : Int) :
    s.db.writeBike dart m.now (.fromRow (row.raised [km])) =
      .ok { s.db with bikes := Tables.update (·.id) row.id (·.raised [km]) s.db.bikes } := by
  have hcolumns : (LocalBike.fromRow (row.raised [km])).toRow dart = (row.raised [km]).toBikeColumns := by
    show BikeColumns.mk (normalizePlate dart row.plate) (trim row.label) _ _ = _
    rw [hfixed, h.labels row hrow]
    rfl
  have hnonneg : ¬ (row.raised [km]).mileageKm < 0 := by
    have hle := (h.mileages row hrow).trans (le_raised row [km])
    omega
  have hfree : ¬ (s.db.bikes.any fun other => other.id != row.id && other.plate == row.plate) = true := by
    intro hany
    obtain ⟨other, hother, heq⟩ := List.any_eq_true.mp hany
    rw [Bool.and_eq_true, bne_iff_ne, beq_iff_eq] at heq
    exact heq.1 (congrArg BikeRow.id (h.eq_of_plate hother hrow heq.2))
  have hfound : s.db.bikes.any (·.id == row.id) = true := Tables.any_key_iff.mpr ⟨row, hrow, rfl⟩
  have hsame : Tables.update (·.id) row.id (fun r => { r with toBikeColumns := (row.raised [km]).toBikeColumns }) s.db.bikes =
      Tables.update (·.id) row.id (·.raised [km]) s.db.bikes := by
    refine Tables.update_congr fun r hr hid => ?_
    rw [h.eq_of_id hr hrow hid]
    rfl
  show s.db.updateBike row.id _ = _
  rw [hcolumns, GarageDb.updateBike, if_neg (by simp [hfound]), if_neg hnonneg, ← hsame]
  exact if_neg hfree

/-- What the device does not answer or take, in the order of the call. -/
theorem localCopy_present (h : s.Kept) (hrow : row ∈ s.db.bikes) (hfixed : normalizePlate dart row.plate = row.plate)
    (hplate : normalizePlate dart bike.plate = row.plate) :
    (m.unanswered 0 = true ∧ s.localCopy dart m bike = (s, .error (.database .unanswered))) ∨
    (bike.mileageKm ≤ row.mileageKm ∧ s.localCopy dart m bike = (s.asLoaded, .ok (.fromRow row))) ∨
    (m.refuses 0 = true ∧ s.localCopy dart m bike = (s.asLoaded, .error (.database .refused))) ∨
    ∃ s', s' = ({ s.asLoaded with db := { s.db with
        bikes := Tables.update (·.id) row.id (·.raised [bike.mileageKm]) s.db.bikes } } : GarageState) ∧
      (m.unanswered 1 = true ∧ s.localCopy dart m bike = (s', .error (.database .unanswered)) ∨
        m.unanswered 1 = false ∧
          s.localCopy dart m bike = (s'.reread, .ok (.fromRow (row.raised [bike.mileageKm])))) := by
  rcases localCopy_cases h dart m bike with hunread | ⟨habsent, -⟩ | ⟨row', hrow', hplate', hcases⟩
  · exact .inl hunread
  · exact absurd hplate.symm (habsent row hrow)
  refine .inr ?_
  have hsame : row' = row := h.stored.eq_of_plate hrow' hrow (hplate'.trans hplate)
  rw [hsame, hplate] at hcases
  rcases hcases with hbehind | ⟨-, hcopy⟩
  · exact .inl hbehind
  have hwrite := writeBike_raised (m := m) h.asLoaded.stored (by rwa [asLoaded_db]) hfixed bike.mileageKm
  rw [hcopy, GarageState.save, hwrite, asLoaded_db]
  by_cases hrefuses : m.refuses 0 = true
  · rw [Moment.write, if_pos hrefuses]
    exact .inr (.inl ⟨hrefuses, rfl⟩)
  rw [Moment.write, if_neg hrefuses]
  refine .inr (.inr ⟨_, rfl, ?_⟩)
  cases hm : m.unanswered 1 with
  | true =>
    simp only [load_unanswered hm]
    exact .inl ⟨trivial, rfl⟩
  | false =>
    have hkept := kept_reread (s := s.asLoaded) (h.stored.raise row.id [bike.mileageKm])
    have hfound := withPlate_of_mem hkept rfl (Tables.mem_update_self hrow rfl)
    simp only [load_answered hm, savedCopy]
    rw [show row.plate = (row.raised [bike.mileageKm]).plate from rfl, hfound]
    exact .inr ⟨trivial, rfl⟩

theorem savedCopy_ok {plate : String} {saved : GarageState × Option GarageThrown}
    (hread : saved.2 = none → saved.1.Kept ∧ saved.1.loaded = true) {copy : LocalBike}
    (hok : (savedCopy plate saved).2 = .ok copy) :
    ∃ row ∈ (savedCopy plate saved).1.db.bikes, row.plate = plate ∧ copy = .fromRow row := by
  obtain ⟨s', thrown⟩ := saved
  cases thrown with
  | some thrown => cases hok
  | none =>
    cases hfound : s'.withPlate plate with
    | none =>
      simp only [savedCopy, hfound, Option.elim_none] at hok
      cases hok
    | some existing =>
      simp only [savedCopy, hfound, Option.elim_some] at hok
      cases hok
      exact withPlate_some ((hread rfl).1.cached (hread rfl).2) hfound

/-- A save that does not throw has read the list again. -/
theorem save_done (h : s.Kept) (hdone : (s.save dart m bike).2 = none) :
    (s.save dart m bike).1.Kept ∧ (s.save dart m bike).1.loaded = true := by
  rcases save_cases dart m s bike with ⟨thrown, hsave⟩ | ⟨db, hsave, hok⟩
  · rw [hsave] at hdone
    cases hdone
  · cases hm : m.unanswered 1 with
    | true =>
      rw [hsave, load_unanswered hm] at hdone
      cases hdone
    | false =>
      rw [hsave, load_answered hm]
      exact ⟨kept_reread (h.stored.writeBike hok), rfl⟩

theorem localCopy_ok (h : s.Kept) {copy : LocalBike} (hok : (s.localCopy dart m bike).2 = .ok copy) :
    ∃ row ∈ (s.localCopy dart m bike).1.db.bikes, row.plate = normalizePlate dart bike.plate ∧ copy = .fromRow row := by
  rcases localCopy_cases h dart m bike with ⟨-, hcopy⟩ | ⟨-, hcopy⟩ | ⟨row, hrow, hplate, ⟨-, hcopy⟩ | ⟨-, hcopy⟩⟩
  · rw [hcopy] at hok
    cases hok
  · rw [hcopy] at hok ⊢
    exact savedCopy_ok (save_done h.asLoaded) hok
  · rw [hcopy] at hok ⊢
    cases hok
    exact ⟨row, by rwa [asLoaded_db], hplate, rfl⟩
  · rw [hcopy] at hok ⊢
    exact savedCopy_ok (save_done h.asLoaded) hok

theorem localCopy_absent (h : s.Kept) (habsent : ∀ row ∈ s.db.bikes, row.plate ≠ normalizePlate dart bike.plate)
    (hid : bike.id = none) (hkm : 0 ≤ bike.mileageKm) (hrefuses : m.refuses 0 = false)
    (hread : m.unanswered 0 = false) (hreread : m.unanswered 1 = false) :
    ∃ copy, (s.localCopy dart m bike).2 = .ok copy := by
  rcases localCopy_cases h dart m bike with ⟨hunread, -⟩ | ⟨-, hcopy⟩ | ⟨row, hrow, hplate, -⟩
  · rw [hread] at hunread
    cases hunread
  · have hinsert : ∃ db, s.db.insertBike (bike.toRow dart) (dart.toIso8601String m.now) = .ok db := by
      have hfree : ¬ s.db.bikes.any (·.plate == (bike.toRow dart).plate) = true := by
        intro hany
        obtain ⟨row, hrow, hplate⟩ := Tables.any_key_iff.mp hany
        exact habsent row hrow hplate
      have hnonneg : ¬ (bike.toRow dart).mileageKm < 0 := not_lt.mpr hkm
      exact ⟨_, by rw [GarageDb.insertBike, if_neg hnonneg, if_neg hfree]⟩
    obtain ⟨db, hdb⟩ := hinsert
    obtain ⟨-, -, hdb'⟩ := insertBike_ok hdb
    have hsave : s.asLoaded.save dart m bike = ({ s.asLoaded with db }.reread, none) := by
      rw [GarageState.save, GarageDb.writeBike, hid, asLoaded_db]
      simp only [Moment.write, hrefuses, hdb, Bool.false_eq_true, ite_false, load_answered hreread]
    have hkept : ({ s.asLoaded with db } : GarageState).reread.Kept := kept_reread (h.stored.insertBike hdb)
    have hmem : (⟨bike.toRow dart, s.db.nextBike, dart.toIso8601String m.now⟩ : BikeRow) ∈ db.bikes := by
      rw [hdb']
      exact List.mem_append_right _ List.mem_cons_self
    have hfound := withPlate_of_mem hkept rfl hmem
    have hplate : (bike.toRow dart).plate = normalizePlate dart bike.plate := rfl
    rw [hplate] at hfound
    rw [hcopy, hsave]
    exact ⟨_, by simp only [savedCopy, hfound, Option.elim_some]; rfl⟩
  · exact absurd hplate (habsent row hrow)

end

/-! ## A bike among the calls -/

section
variable {row : BikeRow}

theorem mem_writeBike {db db' : GarageDb} {now : DateTime} (hok : db.writeBike dart now bike = .ok db')
    (hrow : row ∈ db.bikes) (hid : bike.id ≠ some row.id) : row ∈ db'.bikes := by
  unfold GarageDb.writeBike at hok
  cases hbike : bike.id with
  | none =>
    rw [hbike] at hok
    obtain ⟨-, -, rfl⟩ := insertBike_ok hok
    exact List.mem_append_left _ hrow
  | some id =>
    rw [hbike] at hok
    obtain ⟨-, rfl⟩ := updateBike_ok hok
    exact Tables.mem_update_of_ne hrow fun heq => hid (by rw [hbike, heq])

theorem writeBike_notes {db db' : GarageDb} {now : DateTime} (hok : db.writeBike dart now bike = .ok db') :
    db'.notes = db.notes := by
  unfold GarageDb.writeBike at hok
  cases hbike : bike.id with
  | none =>
    rw [hbike] at hok
    obtain ⟨-, -, rfl⟩ := insertBike_ok hok
    rfl
  | some id =>
    rw [hbike] at hok
    obtain ⟨-, rfl⟩ := updateBike_ok hok
    rfl

theorem mem_save (hrow : row ∈ s.db.bikes) (hid : bike.id ≠ some row.id) : row ∈ (s.save dart m bike).1.db.bikes := by
  rcases save_cases dart m s bike with ⟨thrown, hsave⟩ | ⟨db, hsave, hok⟩
  · rw [hsave]
    exact hrow
  · rw [hsave, load_db]
    exact mem_writeBike hok hrow hid

theorem save_notes : (s.save dart m bike).1.db.notes = s.db.notes := by
  rcases save_cases dart m s bike with ⟨thrown, hsave⟩ | ⟨db, hsave, hok⟩
  · rw [hsave]
  · rw [hsave, load_db]
    exact writeBike_notes hok

theorem localCopy_notes (h : s.Kept) : (s.localCopy dart m bike).1.db.notes = s.db.notes := by
  rcases localCopy_cases h dart m bike with ⟨-, hcopy⟩ | ⟨-, hcopy⟩ | ⟨row, -, -, ⟨-, hcopy⟩ | ⟨-, hcopy⟩⟩
  · rw [hcopy]
  · rw [hcopy, savedCopy_state, save_notes, asLoaded_db]
  · rw [hcopy, asLoaded_db]
  · rw [hcopy, savedCopy_state, save_notes, asLoaded_db]

theorem localCopy_other (h : s.Kept) (hrow : row ∈ s.db.bikes) (hplate : normalizePlate dart bike.plate ≠ row.plate)
    (hid : bike.id ≠ some row.id) : row ∈ (s.localCopy dart m bike).1.db.bikes := by
  have hloaded : row ∈ s.asLoaded.db.bikes := by rwa [asLoaded_db]
  rcases localCopy_cases h dart m bike with
    ⟨-, hcopy⟩ | ⟨-, hcopy⟩ | ⟨other, hother, hplate', ⟨-, hcopy⟩ | ⟨-, hcopy⟩⟩
  · rw [hcopy]
    exact hrow
  · rw [hcopy, savedCopy_state]
    exact mem_save hloaded hid
  · rw [hcopy]
    exact hloaded
  · rw [hcopy, savedCopy_state]
    refine mem_save hloaded fun heq => hplate ?_
    have hsame : other = row := h.stored.eq_of_id hother hrow (Option.some.inj heq)
    rw [← hplate', hsame]

theorem mem_remove (hrow : row ∈ s.db.bikes) {id : Int} (hid : id ≠ row.id) : row ∈ (s.remove m id).1.db.bikes := by
  unfold remove
  cases hdone : m.write 0 (.ok (s.db.deleteBike id)) with
  | error error => exact hrow
  | ok db =>
    cases write_ok hdone
    simp only [load_db]
    exact List.mem_filter.mpr ⟨hrow, bne_iff_ne.mpr hid.symm⟩

theorem mem_removeNote (hrow : row ∈ s.db.bikes) (id : Int) : row ∈ (s.removeNote m id).1.db.bikes := by
  unfold removeNote
  cases hdone : m.write 0 (.ok (s.db.deleteNote id)) with
  | error error => exact hrow
  | ok db =>
    cases write_ok hdone
    exact hrow

theorem mark_of_none {id : Int} {plate : String} {c : GarageCall} (h : c.op.mark dart id plate s.db = none) :
    s.mark dart id plate c = [] := by
  rw [mark, h]
  split
  · rfl
  · rfl

/-- `localCopy` raises the row of its plate. -/
theorem localCopy_raised (h : s.Kept) (hrow : row ∈ s.db.bikes) (hfixed : normalizePlate dart row.plate = row.plate)
    (hplate : normalizePlate dart bike.plate = row.plate) :
    ∃ marks, row.raised marks ∈ (s.localCopy dart m bike).1.db.bikes ∧ (m.unanswered 1 = false →
      marks = match (s.localCopy dart m bike).2 with | .ok _ => [bike.mileageKm] | .error _ => []) := by
  rcases localCopy_present h hrow hfixed hplate with
    ⟨-, hcopy⟩ | ⟨hkm, hcopy⟩ | ⟨-, hcopy⟩ | ⟨s', rfl, ⟨hm, hcopy⟩ | ⟨-, hcopy⟩⟩
  · rw [hcopy]
    exact ⟨[], hrow, fun _ => rfl⟩
  · rw [hcopy]
    refine ⟨[bike.mileageKm], ?_, fun _ => rfl⟩
    rw [raised_singleton hkm, asLoaded_db]
    exact hrow
  · rw [hcopy]
    refine ⟨[], ?_, fun _ => rfl⟩
    rw [raised_nil, asLoaded_db]
    exact hrow
  · rw [hcopy]
    refine ⟨[bike.mileageKm], Tables.mem_update_self hrow rfl, fun hm' => ?_⟩
    rw [hm] at hm'
    cases hm'
  · rw [hcopy]
    exact ⟨[bike.mileageKm], Tables.mem_update_self hrow rfl, fun _ => rfl⟩

/-- A note raises the row of its bike. One that is not there to be edited would too, if
it were ahead. -/
theorem saveNote_raised (h : s.Kept) (hrow : row ∈ s.db.bikes) (hm : m.unanswered 1 = false) {note : MaintenanceNote}
    (hstands : note.bikeId = row.id → s.db.hasNote note = true ∨
      ∀ km ∈ note.mileageKm, ∀ r ∈ s.db.bikes, r.id = row.id → km ≤ r.mileageKm) :
    row.raised (if (s.saveNote dart m note).2 = none then
      ((GarageOp.saveNote note).mark dart row.id row.plate s.db).toList else []) ∈
      (s.saveNote dart m note).1.db.bikes := by
  rcases saveNote_cases h dart m note with ⟨thrown, hnote⟩ | ⟨notes, next, -, hnote⟩
  · rw [hnote]
    exact hrow
  rw [hnote, load_answered hm]
  simp only [GarageOp.mark, ite_true]
  by_cases hid : note.bikeId = row.id
  · by_cases hthere : s.db.hasNote note = true
    · rw [if_pos ⟨hid, hthere⟩]
      exact Tables.mem_update_self hrow hid.symm
    · have hsame : row.raised note.mileageKm.toList = row := by
        cases hkm : note.mileageKm with
        | none => exact raised_nil row
        | some km => exact raised_singleton ((hstands hid).resolve_left hthere km hkm row hrow rfl)
      rw [if_neg fun hboth => hthere hboth.2, Option.toList_none, raised_nil, ← hsame]
      exact Tables.mem_update_self hrow hid.symm
  · rw [if_neg fun hboth => hid hboth.1]
    exact Tables.mem_update_of_ne hrow (Ne.symm hid)

theorem call_raised (h : s.Kept) (hrow : row ∈ s.db.bikes) (hfixed : normalizePlate dart row.plate = row.plate)
    {c : GarageCall} (hspares : c.op.spares dart row.id row.plate = true) (hrereads : c.rereads = true)
    (hstands : c.NoteStands row.id s.db) :
    row.raised (s.mark dart row.id row.plate c) ∈ (s.call dart c).1.db.bikes := by
  have hm : c.unanswered 1 = false := GarageCall.answered_of_rereads hrereads
  cases hop : c.op with
  | localCopy bike =>
    rw [hop, GarageOp.spares, Bool.or_eq_true, bne_iff_ne, beq_iff_eq] at hspares
    by_cases hplate : normalizePlate dart bike.plate = row.plate
    · obtain ⟨marks, hraised, hmarks⟩ := localCopy_raised (m := c.toMoment) h hrow hfixed hplate
      specialize hmarks hm
      rw [mark, call_localCopy hop, hop, GarageOp.mark, if_pos hplate]
      cases hresult : (s.localCopy dart c.toMoment bike).2 with
      | ok copy =>
        rw [hresult] at hmarks
        rw [hmarks] at hraised
        exact hraised
      | error thrown =>
        rw [hresult] at hmarks
        rw [hmarks] at hraised
        exact hraised
    · have hid : bike.id ≠ some row.id := hspares.resolve_right hplate
      rw [mark_of_none (by rw [hop, GarageOp.mark, if_neg hplate]), raised_nil, call_localCopy hop]
      exact localCopy_other h hrow hplate hid
  | reopen =>
    rw [mark_of_none (by rw [hop]; rfl), call, hop]
    exact hrow
  | load =>
    rw [mark_of_none (by rw [hop]; rfl), call, hop]
    simp only [load_db]
    exact hrow
  | save bike =>
    rw [hop, GarageOp.spares, bne_iff_ne] at hspares
    rw [mark_of_none (by rw [hop]; rfl), call, hop]
    exact mem_save hrow hspares
  | remove id =>
    rw [hop, GarageOp.spares, bne_iff_ne] at hspares
    rw [mark_of_none (by rw [hop]; rfl), call, hop]
    exact mem_remove hrow hspares
  | saveNote note =>
    have hcall : s.call dart c = s.saveNote dart c.toMoment note := by rw [call, hop]
    rw [mark, hcall, hop]
    exact saveNote_raised h hrow hm (hstands note hop)
  | removeNote id =>
    rw [mark_of_none (by rw [hop]; rfl), call, hop]
    exact mem_removeNote hrow id

theorem run_raised (hfixed : normalizePlate dart row.plate = row.plate) (calls : List GarageCall) :
    ∀ {s : GarageState} {km : Int}, s.Kept → { row with mileageKm := km } ∈ s.db.bikes →
      (∀ c ∈ calls, c.op.spares dart row.id row.plate = true ∧ c.rereads = true) →
      Runs.EveryStep (step dart) (fun s c => c.NoteStands row.id s.db) s calls →
        ({ row with mileageKm := km } : BikeRow).raised (s.marks dart row.id row.plate calls) ∈ (s.run dart calls).db.bikes := by
  induction calls with
  | nil => exact fun _ hrow _ _ => hrow
  | cons c calls ih =>
    intro s km h hrow hcalls hstands
    obtain ⟨hspares, hrereads⟩ := hcalls c List.mem_cons_self
    have hstep : ({ row with mileageKm := km } : BikeRow).raised (s.mark dart row.id row.plate c) ∈
        (s.call dart c).1.db.bikes := call_raised h hrow hfixed hspares hrereads hstands.1
    rw [marks, raised_append]
    exact ih (h.call hrereads) hstep (fun c' hc' => hcalls c' (List.mem_cons_of_mem _ hc')) hstands.2

end

/-! ## One row in the table and in the list -/

/-- One bike of the garage has the id of `row`, and it shows what `row` has. -/
structure Shows (s : GarageState) (row : BikeRow) : Prop where
  table : s.db.bikes.filter (·.id == row.id) = [row]
  list : s.loaded = true → s.bikes.filter (·.id == some row.id) = [.fromRow row]

theorem Kept.shows (h : s.Kept) {row : BikeRow} (hrow : row ∈ s.db.bikes) : s.Shows row where
  table := Tables.filter_key_eq h.stored.ids hrow
  list := by
    intro hl
    have hperm : (s.db.queryBikes.map (·.id)).Perm (s.db.bikes.map (·.id)) := (List.perm_insertionSort _ _).map _
    have hids : (s.bikes.map (·.id)).Nodup := by
      have hsome : s.bikes.map (·.id) = (s.db.queryBikes.map (·.id)).map some := by
        rw [h.cached hl, List.map_map, List.map_map]
        rfl
      rw [hsome]
      exact (hperm.nodup_iff.mpr h.stored.ids).map (Option.some_injective _)
    have hmem : LocalBike.fromRow row ∈ s.bikes := by
      rw [h.cached hl]
      exact List.mem_map_of_mem (mem_queryBikes.mpr hrow)
    exact Tables.filter_key_eq hids hmem

/-- What a `localCopy` does about its plate. -/
structure Copies (dart : Dart) (m : Moment) (s : GarageState) (bike : LocalBike) : Prop where
  notes : (s.localCopy dart m bike).1.db.notes = s.db.notes
  kept : ∀ row ∈ s.db.bikes, row.plate = normalizePlate dart bike.plate →
    ∃ km, (s.localCopy dart m bike).1.db.bikes.filter (·.plate == normalizePlate dart bike.plate) =
      [{ row with mileageKm := km }]
  one : ∀ copy, (s.localCopy dart m bike).2 = .ok copy →
    ∃ row, (s.localCopy dart m bike).1.db.bikes.filter (·.plate == normalizePlate dart bike.plate) = [row] ∧
      copy = .fromRow row
  completes : (∃ row ∈ s.db.bikes, row.plate = normalizePlate dart bike.plate) ∨ bike.id = none ∧ 0 ≤ bike.mileageKm →
    m.refuses 0 = false → m.unanswered 0 = false → m.unanswered 1 = false →
      ∃ copy, (s.localCopy dart m bike).2 = .ok copy

theorem Kept.copies (h : s.Kept) (hfixed : normalizePlate dart (normalizePlate dart bike.plate) =
    normalizePlate dart bike.plate) : s.Copies dart m bike where
  notes := localCopy_notes h
  kept := by
    intro row hrow hplate
    obtain ⟨marks, hraised, -⟩ := localCopy_raised (m := m) h hrow (by rw [hplate, hfixed]) hplate.symm
    refine ⟨marks.foldl max row.mileageKm, ?_⟩
    rw [← hplate]
    exact Tables.filter_key_eq (localCopy_stored h).plates hraised
  one := by
    intro copy hok
    obtain ⟨row, hrow, hplate, hcopy⟩ := localCopy_ok h hok
    refine ⟨row, ?_, hcopy⟩
    rw [← hplate]
    exact Tables.filter_key_eq (localCopy_stored h).plates hrow
  completes := by
    intro hcan hrefuses hread hreread
    by_cases hpresent : ∃ row ∈ s.db.bikes, row.plate = normalizePlate dart bike.plate
    · obtain ⟨row, hrow, hplate⟩ := hpresent
      rcases localCopy_present (m := m) h hrow (by rw [hplate, hfixed]) hplate.symm with
        ⟨hunread, -⟩ | ⟨-, hcopy⟩ | ⟨hrefused, -⟩ | ⟨s', -, ⟨hunread, -⟩ | ⟨-, hcopy⟩⟩
      · simp [hread] at hunread
      · exact ⟨_, by rw [hcopy]⟩
      · simp [hrefuses] at hrefused
      · simp [hreread] at hunread
      · exact ⟨_, by rw [hcopy]⟩
    · obtain ⟨hid, hkm⟩ := hcan.resolve_left hpresent
      exact localCopy_absent h (fun row hrow hplate => hpresent ⟨row, hrow, hplate⟩) hid hkm hrefuses hread hreread

end

end GarageState

theorem kept_init : GarageState.init.Kept := ⟨.empty, nofun⟩

/-- Behind the commit only `load` can throw. -/
theorem saveNote_unchanged_iff (dart : Dart) (m : Moment) (s : GarageState) (note : MaintenanceNote) :
    ((s.saveNote dart m note).2 ≠ none → (s.saveNote dart m note).1.db = s.db) ↔
      (m.unanswered 1 = true → ∀ db, s.noteTransaction dart m note = .ok db → m.refuses 2 = false → db = s.db) := by
  cases htransaction : s.noteTransaction dart m note with
  | error error =>
    have hfailed : s.saveNote dart m note = (s, some (.database error)) := by
      simp only [GarageState.saveNote, htransaction]
      rfl
    rw [hfailed]
    exact ⟨fun _ _ db hok => absurd hok (by simp), fun _ _ => rfl⟩
  | ok db =>
    cases hcommit : m.refuses 2 with
    | true =>
      have hrefused : s.saveNote dart m note = (s, some (.database .refused)) := by
        simp only [GarageState.saveNote, htransaction, Moment.write, hcommit]
        rfl
      rw [hrefused]
      exact ⟨fun _ _ _ _ hcommitted => absurd hcommitted (by decide), fun _ _ => rfl⟩
    | false =>
      have hcommitted : s.saveNote dart m note = { s with db }.load m 1 := by
        simp only [GarageState.saveNote, htransaction, Moment.write, hcommit]
        rfl
      rw [hcommitted, GarageState.load_db]
      cases hm : m.unanswered 1 with
      | true =>
        rw [GarageState.load_unanswered hm]
        exact ⟨fun hsame _ _ hdb _ => Except.ok.inj hdb ▸ hsame (by simp), fun hsame _ => hsame rfl db rfl rfl⟩
      | false =>
        rw [GarageState.load_answered hm]
        exact ⟨fun _ hm' => absurd hm' (by decide), fun _ hthrown => absurd rfl hthrown⟩

/-- Where the list is read again behind every write, and no removed note is edited above
it, the odometer is the greatest mileage given for the bike. The edit form and the
server check a plate as it was typed. -/
theorem odometer_is_greatest {dart : Dart} (hupper : dart.KeepsUpper) (before : List GarageCall)
    (hbefore : ∀ c ∈ before, c.rereads = true) :
    let s := GarageState.init.run dart before
    (∀ row ∈ s.db.bikes, ∀ typed, isValidPlate dart typed = true → row.plate = normalizePlate dart typed →
      ∀ calls, (∀ c ∈ calls, c.op.spares dart row.id row.plate = true ∧ c.rereads = true) →
        Runs.EveryStep (GarageState.step dart) (fun s c => c.NoteStands row.id s.db) s calls →
          ∃ km, IsGreatest {given | given = row.mileageKm ∨ given ∈ s.marks dart row.id row.plate calls} km ∧
            (s.run dart calls).Shows { row with mileageKm := km }) ∧
    (∀ m bike, isValidPlate dart bike.plate = true → s.Copies dart m bike) ∧
    ∀ m note, ((s.saveNote dart m note).2 ≠ none → (s.saveNote dart m note).1.db = s.db) ↔
      (m.unanswered 1 = true → ∀ db, s.noteTransaction dart m note = .ok db → m.refuses 2 = false → db = s.db) := by
  have h : (GarageState.init.run dart before).Kept := GarageState.Kept.run before kept_init hbefore
  refine ⟨fun row hrow typed htyped hplate calls hcalls hstands => ?_, fun m bike hvalid => ?_,
    fun m note => saveNote_unchanged_iff dart m _ note⟩
  · have hfixed : normalizePlate dart row.plate = row.plate := by rw [hplate, normalizePlate_valid hupper htyped]
    have hkept : ((GarageState.init.run dart before).run dart calls).Kept :=
      GarageState.Kept.run calls h fun c hc => (hcalls c hc).2
    refine ⟨_, isGreatest_foldl_max _ row.mileageKm, hkept.shows ?_⟩
    exact GarageState.run_raised hfixed calls h hrow hcalls hstands
  · exact h.copies (normalizePlate_valid hupper hvalid)

/-! ## A bike with notes and an account -/

theorem toUpper_other {c : Char} (h : ¬ (97 ≤ c.toNat ∧ c.toNat ≤ 122)) : c.toUpper = c := by
  unfold Char.toUpper
  refine dif_neg fun hc => h ?_
  exact ⟨UInt32.le_iff_toNat_le.mp hc.1, UInt32.le_iff_toNat_le.mp hc.2⟩

theorem toUpper_plateChar {c : Char} (h : isPlateChar c = true) : c.toUpper = c := by
  have hrange := isPlateChar_range h
  exact toUpper_other (by omega)

theorem sampleDart_keepsUpper : sampleDart.KeepsUpper := by
  intro text h
  have hsame : text.toList.map Char.toUpper = text.toList := by
    rw [List.map_congr_left fun c hc => toUpper_plateChar (List.all_eq_true.mp h c hc), List.map_id']
  show String.ofList (text.toList.map Char.toUpper) = text
  rw [hsame, String.ofList_toList]

def homeBike : LocalBike := ⟨none, "abc-1d23", "Honda CG ", some 2019, 1000⟩

def homeRow : BikeRow := ⟨⟨"ABC1D23", "Honda CG", some 2019, 1000⟩, 1, sampleTime⟩

def chainNote (id : Option Int) (km : Int) (costCents : Option Int) : MaintenanceNote :=
  ⟨id, 1, sampleNow, "Corrente", some km, costCents⟩

def accountBike (km : Int) : LocalBike := ⟨none, "ABC 1D23", "CG", none, km⟩

def punctual : Moment := ⟨sampleNow, fun _ => false, fun _ => false⟩

def inTime (op : GarageOp) : GarageCall := ⟨punctual, op⟩

/-- One note is turned back, and the first is edited down. -/
def homeCalls : List GarageCall :=
  [.saveNote (chainNote none 4000 none), .localCopy (accountBike 5000), .saveNote (chainNote none 9000 (some (-1))),
    .saveNote (chainNote (some 1) 2000 none), .removeNote 1, .reopen, .localCopy (accountBike 4500)].map inTime

/-- The first note is there when it is edited. -/
theorem homeNotes_stand : Runs.EveryStep (GarageState.step sampleDart) (fun s c => c.NoteStands 1 s.db)
    (GarageState.init.run sampleDart [inTime (.save homeBike)]) homeCalls := by
  refine ⟨?_, nofun, ?_, ?_, nofun, nofun, nofun, trivial⟩
  · rintro note ⟨⟩ -
    exact .inl (by decide +kernel)
  · rintro note ⟨⟩ -
    exact .inl (by decide +kernel)
  · rintro note ⟨⟩ -
    exact .inl (by decide +kernel)

theorem homeCalls_greatest :
    let s := GarageState.init.run sampleDart [inTime (.save homeBike)]
    (∃ km, IsGreatest {given | given = 1000 ∨ given ∈ s.marks sampleDart 1 "ABC1D23" homeCalls} km ∧
      (s.run sampleDart homeCalls).Shows { homeRow with mileageKm := km }) ∧
    s.Copies sampleDart punctual (accountBike 5000) ∧
    (s.saveNote sampleDart punctual (chainNote none 9000 (some (-1)))).1.db = s.db := by
  obtain ⟨hgreatest, hcopies, hfails⟩ :=
    odometer_is_greatest sampleDart_keepsUpper [inTime (.save homeBike)] (by decide +kernel)
  refine ⟨?_, hcopies _ _ (by decide +kernel), (hfails _ _).mpr nofun (by decide +kernel)⟩
  exact hgreatest homeRow (by decide +kernel) "abc-1d23" (by decide +kernel) (by decide +kernel) homeCalls
    (by decide +kernel) homeNotes_stand

/-- The query of `load` fails behind the commit. -/
def unread : Moment := { punctual with unanswered := (· == 1) }

def noteUnread : GarageCall := ⟨unread, .saveNote (chainNote none 4000 none)⟩

/-- A note that throws is in the table, and the bike that the list still shows before it
is written back. A note that was removed raises the bike and is not there. -/
theorem garage_out_of_step :
    let s := GarageState.init.run sampleDart [inTime (.save homeBike)]
    let noted := s.call sampleDart noteUnread
    let copied := noted.1.call sampleDart (inTime (.localCopy (accountBike 3000)))
    let noteless := s.run sampleDart ([.saveNote (chainNote none 4000 none), .removeNote 1].map inTime)
    let edited := noteless.call sampleDart (inTime (.saveNote (chainNote (some 1) 9000 none)))
    (noted.2 = some (.database .unanswered) ∧ s.db.notes = [] ∧ noted.1.db.notes.length = 1 ∧
      s.db.bikes = [homeRow] ∧ noted.1.db.bikes = [{ homeRow with mileageKm := 4000 }]) ∧
    (copied.2 = none ∧ copied.1.db.bikes = [{ homeRow with mileageKm := 3000 }]) ∧
    (noteless.db.bikes = [{ homeRow with mileageKm := 4000 }] ∧ edited.2 = none ∧ edited.1.db.notes = [] ∧
      edited.1.db.bikes = [{ homeRow with mileageKm := 9000 }]) := by
  refine ⟨by decide +kernel, by decide +kernel, by decide +kernel⟩

end Mototeca.Mobile
