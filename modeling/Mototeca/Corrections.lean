import Mototeca.Attachments
import Mototeca.Listing
import Mototeca.Mileage

/-!
# What a correction does to the figures

The month count, the owner's figures and the history leave superseded records
out, but a correction is inserted with a creation time of its own. It counts and
is listed as a service of the moment it was made, not of the one it corrects.
-/

namespace Mototeca

open ReadCommitted Listing

/-- `Repository.CountByWorkshopSince`. -/
def DB.countByWorkshopSince (d : DB) (workshopID : UUID) (since : Time) : Nat :=
  d.serviceRecords.countP fun r => (r.workshopID == workshopID && since ≤ r.createdAt) && r.supersededBy.isNone

/-- `ListByPlate` with no limit may return the records of these rows in this order. -/
def DB.ListsByPlate (d : DB) (plate : String) (rows : List ServiceRecordRow) : Prop :=
  ∃ v, d.vehicleByPlate plate = some v ∧ Lists (·.createdAt) rows (d.currentRecords v.id)

/-- `last_service_id` of `ownedVehicleQuery` may be `id`. -/
def DB.LastService (d : DB) (plate : String) (id : UUID) : Prop :=
  ∃ rows, d.ListsByPlate plate rows ∧ (rows.head?).map (·.id) = some id

def revisedRecord (d : DB) (e : Commit) : Option ServiceRecordRow :=
  match e.req.call with
  | .reviseServiceRecord req => d.serviceRecord (canonicalID req.recordID)
  | _ => none

/-- The correction `n` of `o` changes nothing but which of them is listed. -/
structure NoExtraService (d d' : DB) (o n : ServiceRecordRow) (workshopID : UUID) (since : Time) : Prop where
  monthCount : d'.countByWorkshopSince workshopID since = d.countByWorkshopSince workshopID since
  serviceCount : ∀ v, (d'.ownedVehicle v).serviceCount = (d.ownedVehicle v).serviceCount
  history : ∀ plate rows, d.ListsByPlate plate rows → d'.ListsByPlate plate (replace o n rows)
  lastService : ∀ plate id, id ≠ o.id → d.LastService plate id → d'.LastService plate id

/-- The window does not begin after the original, and no other current record
of the vehicle was created from the original on and before the correction. -/
def SameMoment (d : DB) (o n : ServiceRecordRow) (workshopID : UUID) (since : Time) : Prop :=
  (workshopID = o.workshopID → since ≤ o.createdAt) ∧
    ∀ c ∈ d.currentRecords o.vehicleID, c ≠ o →
      (o.createdAt ≤ c.createdAt → n.createdAt ≤ c.createdAt) ∧
        (c.createdAt ≤ o.createdAt → c.createdAt ≤ n.createdAt)

/-! ## A correction -/

structure Corrects (d d' : DB) (o n : ServiceRecordRow) : Prop where
  original : o ∈ d.serviceRecords
  current : o.supersededBy = none
  new : n.supersededBy = none
  fresh : d.serviceRecord n.id = none
  vehicle : n.vehicleID = o.vehicleID
  workshop : n.workshopID = o.workshopID
  plate : ∃ v, d.vehicle o.vehicleID = some v
  records : d'.serviceRecords = (d.serviceRecords ++ [n]).map (supersede o.id n.id)
  vehicles : d'.vehicles = d.vehicles

section
variable {d d' : DB} {o n : ServiceRecordRow}

/-- The current rows with `p`. -/
def currentWith (p : ServiceRecordRow → Bool) (d : DB) : List ServiceRecordRow :=
  d.serviceRecords.filter fun r => p r && r.supersededBy.isNone

namespace Corrects

variable (h : Corrects d d' o n) (hd : Schema d)
include h hd

theorem supersede_eq {r : ServiceRecordRow} (hr : r ∈ d.serviceRecords) (hne : r ≠ o) : supersede o.id n.id r = r :=
  supersede_of_ne fun hid => hne (hd.record_eq hr h.original hid)

theorem currentWith_after (p : ServiceRecordRow → Bool) :
    currentWith p d' = (currentWith p d).filter (· != o) ++ if p n then [n] else [] := by
  have hne : n.id ≠ o.id := fun hid => serviceRecord_none.mp h.fresh o h.original hid.symm
  have hnew : supersede o.id n.id n = n := supersede_of_ne hne
  have hkeep : ∀ r ∈ d.serviceRecords,
      (p (supersede o.id n.id r) && (supersede o.id n.id r).supersededBy.isNone) =
        ((p r && r.supersededBy.isNone) && r != o) := by
    intro r hr
    by_cases hro : r = o
    · subst hro
      simp [supersede]
    · rw [h.supersede_eq hd hr hro]
      simp [hro]
  unfold currentWith
  rw [h.records, List.filter_map, List.filter_append, List.map_append]
  congr 1
  · rw [List.filter_filter]
    have hfilter : d.serviceRecords.filter ((fun r => p r && r.supersededBy.isNone) ∘ supersede o.id n.id) =
        d.serviceRecords.filter fun r => r != o && (p r && r.supersededBy.isNone) :=
      List.filter_congr fun r hr => by
        rw [Function.comp_apply, hkeep r hr, Bool.and_comm]
    rw [hfilter]
    refine (List.map_congr_left fun r hr => ?_).trans (List.map_id _)
    obtain ⟨hr, hcond⟩ := List.mem_filter.mp hr
    simp only [Bool.and_eq_true, bne_iff_ne] at hcond
    exact h.supersede_eq hd hr hcond.1
  · simp only [List.filter_cons, Function.comp_apply, hnew, h.new, Option.isNone_none, Bool.and_true, List.filter_nil]
    split
    · simp [hnew]
    · rfl

theorem currentWith_before {p : ServiceRecordRow → Bool} (hp : p o = true) :
    (currentWith p d).Perm (o :: (currentWith p d).filter (· != o)) := by
  have hmem : o ∈ currentWith p d := List.mem_filter.mpr ⟨h.original, by simp [hp, h.current]⟩
  have hnodup : (currentWith p d).Nodup := (List.Nodup.of_map _ hd.recordIDs).filter _
  rw [← List.Nodup.erase_eq_filter hnodup]
  exact List.perm_cons_erase hmem

omit h hd in
theorem currentWith_other {p : ServiceRecordRow → Bool} (hp : p o = false) :
    (currentWith p d).filter (· != o) = currentWith p d := by
  refine List.filter_eq_self.mpr fun r hr => ?_
  obtain ⟨-, hcond⟩ := List.mem_filter.mp hr
  by_cases hro : r = o
  · simp [hro, hp] at hcond
  · simpa using hro

theorem monthCount_iff {workshopID : UUID} {since : Time} (hsince : since ≤ n.createdAt) :
    d'.countByWorkshopSince workshopID since = d.countByWorkshopSince workshopID since ↔
      (workshopID = o.workshopID → since ≤ o.createdAt) := by
  let p (r : ServiceRecordRow) : Bool := r.workshopID == workshopID && since ≤ r.createdAt
  have hafter : d'.countByWorkshopSince workshopID since = (currentWith p d').length := List.countP_eq_length_filter
  have hbefore : d.countByWorkshopSince workshopID since = (currentWith p d).length := List.countP_eq_length_filter
  have hnew : p n = (o.workshopID == workshopID) := by simp [p, h.workshop, hsince]
  rw [hafter, hbefore, h.currentWith_after hd p, hnew]
  by_cases hw : workshopID = o.workshopID
  · by_cases hle : since ≤ o.createdAt
    · have hold : p o = true := by simp [p, hw, hle]
      rw [(h.currentWith_before hd hold).length_eq]
      simp [hw, hle]
    · have hold : p o = false := by simp [p, hle]
      rw [currentWith_other hold]
      simp [hw, hle]
  · have hold : p o = false := by simp [p, Ne.symm hw]
    rw [currentWith_other hold]
    simp [hw, Ne.symm hw]

theorem currentRecords_perm (id : UUID) : (d'.currentRecords id).Perm (replace o n (d.currentRecords id)) := by
  let p (r : ServiceRecordRow) : Bool := r.vehicleID == id
  have hafter : d'.currentRecords id = _ := h.currentWith_after hd p
  have hrest : replace o n ((currentWith p d).filter (· != o)) = (currentWith p d).filter (· != o) :=
    replace_of_not_mem fun hmem => by simpa using (List.mem_filter.mp hmem).2
  have hnew : p n = p o := by simp [p, h.vehicle]
  rw [hafter, hnew]
  cases hold : p o with
  | true =>
    have hbefore := replace_perm (o := o) (n := n) (h.currentWith_before hd hold)
    rw [replace_cons_self, hrest] at hbefore
    exact (List.perm_append_singleton n _).trans hbefore.symm
  | false =>
    rw [currentWith_other hold]
    rw [currentWith_other hold] at hrest
    simp only [Bool.false_eq_true, if_false, List.append_nil]
    exact List.Perm.of_eq hrest.symm

theorem serviceCount (v : VehicleRow) : (d'.ownedVehicle v).serviceCount = (d.ownedVehicle v).serviceCount :=
  (h.currentRecords_perm hd v.id).length_eq.trans length_replace

theorem history_iff :
    (∀ plate rows, d.ListsByPlate plate rows → d'.ListsByPlate plate (replace o n rows)) ↔
      ∀ c ∈ d.currentRecords o.vehicleID, c ≠ o →
        (o.createdAt ≤ c.createdAt → n.createdAt ≤ c.createdAt) ∧
          (c.createdAt ≤ o.createdAt → c.createdAt ≤ n.createdAt) := by
  have ho : o ∈ d.currentRecords o.vehicleID := mem_currentRecords.mpr ⟨h.original, rfl, h.current⟩
  rw [← sorted_replace_iff ho]
  constructor
  · intro hall rows hrows
    obtain ⟨v, hv⟩ := h.plate
    obtain ⟨hm, hid⟩ := vehicle_some hv
    have hplate := hd.vehicleByPlate_of_mem hm
    obtain ⟨_, _, hlists⟩ := hall v.plate rows ⟨v, hplate, hid ▸ hrows⟩
    exact hlists.sorted
  · intro hall plate rows ⟨v, hv, hrows⟩
    have hplate : d'.vehicleByPlate plate = some v := by rwa [DB.vehicleByPlate, h.vehicles]
    refine ⟨v, hplate, (replace_perm hrows.perm).trans (h.currentRecords_perm hd v.id).symm, ?_⟩
    by_cases hid : v.id = o.vehicleID
    · exact hall rows (hid ▸ hrows)
    · have hnone : o ∉ rows := fun hmem => hid (mem_currentRecords.mp (hrows.perm.mem_iff.mp hmem)).2.1.symm
      rw [replace_of_not_mem hnone]
      exact hrows.sorted

omit h hd in
/-- The record listed first stays first unless it is the one replaced. -/
theorem lastService_of_history
    (hhistory : ∀ plate rows, d.ListsByPlate plate rows → d'.ListsByPlate plate (replace o n rows)) (plate : String)
    (id : UUID) (hid : id ≠ o.id) (hlast : d.LastService plate id) : d'.LastService plate id := by
  obtain ⟨rows, hrows, hhead⟩ := hlast
  refine ⟨replace o n rows, hhistory plate rows hrows, ?_⟩
  cases rows with
  | nil => cases hhead
  | cons c rows =>
    obtain rfl : c.id = id := by simpa using hhead
    have hne : c ≠ o := fun he => hid (he ▸ rfl)
    simp [replace, hne]

theorem noExtraService_iff {workshopID : UUID} {since : Time} (hsince : since ≤ n.createdAt) :
    NoExtraService d d' o n workshopID since ↔ SameMoment d o n workshopID since := by
  constructor
  · intro hk
    exact ⟨(h.monthCount_iff hd hsince).mp hk.monthCount, (h.history_iff hd).mp hk.history⟩
  · intro ⟨hcount, horder⟩
    have hhistory := (h.history_iff hd).mpr horder
    exact ⟨(h.monthCount_iff hd hsince).mpr hcount, h.serviceCount hd, hhistory, lastService_of_history hhistory⟩

end Corrects

theorem Done.corrects {P : Platform} {q : Request} {a : Reply} {σ : SqlLocal} (h : Done P q a σ d) (hd : Schema d)
    (ho : revisedRecord d ⟨q, a, σ.changes, σ.seen⟩ = some o) (hn : n ∈ insertedRecords σ.changes) :
    Corrects d (σ.changes.foldl DB.apply d) o n := by
  cases h with
  | revise session found writes =>
    obtain ⟨⟨o', ho', -, hws, hcur⟩, ids, hrep⟩ := writes.revise _ rfl
    obtain rfl : o' = o := Option.some.inj (ho'.symm.trans ho)
    obtain ⟨hm, hid⟩ := serviceRecord_some ho'
    rename_i w
    obtain rfl : n = w.record := by simpa [writes.changes, Written.insertedRecords_changes] using hn
    have hvehicle : w.record.vehicleID = o'.vehicleID := revised_vehicleID hd found ho' writes.vehicle
    obtain ⟨v, hv, -⟩ := writes.vehicle
    refine ⟨hm, hcur, writes.supersededBy, writes.fresh.2.1, hvehicle, writes.workshopID.trans hws.symm,
      ⟨v, hvehicle ▸ hv⟩, ?_, ?_⟩
    · rw [writes.changes, w.view, hrep, hid]
    · rw [writes.changes, w.view]
  | _ => cases ho

end

/-- Every correction of every run counts and is listed in the place of its
original exactly when it is as if made at the same moment. -/
theorem correction_noExtraService_iff (P : Platform) (init : SoundDB) (es : List ServerEvent) :
    (server P).EveryCommit (Machine.init init.db) es fun d e =>
      ∀ o ∈ revisedRecord d e, ∀ n ∈ insertedRecords e.changes, ∀ workshopID since, since ≤ n.createdAt →
        (NoExtraService d (e.changes.foldl DB.apply d) o n workshopID since ↔ SameMoment d o n workshopID since) :=
  everyCommit (server_discipline P)
    (fun _ _ _ _ hd h _ ho _ hn _ _ hsince => (h.corrects hd ho hn).noExtraService_iff hd hsince) es
    (good_init init.schema)

/-! ## A correction in the next month -/

def later (now : Time) (q : Request) : Request := { q with now }

/-- A record of the time 0, corrected at the time 20. -/
def correctedLater : List ServerEvent :=
  alone 0 (createRequest "1" 50000 false) 4 "7" ++ alone 1 (later 20 (reviseRequest "1" "7" 51000)) 10 "8"

def MonthCountKept (workshopID : UUID) (since : Time) (d : DB) (e : Commit) : Prop :=
  ∀ n ∈ insertedRecords e.changes, (revisedRecord d e).isSome → since ≤ n.createdAt →
    (e.changes.foldl DB.apply d).countByWorkshopSince workshopID since = d.countByWorkshopSince workshopID since

instance (workshopID : UUID) (since : Time) (d : DB) (e : Commit) : Decidable (MonthCountKept workshopID since d e) :=
  inferInstanceAs (Decidable (∀ n ∈ insertedRecords e.changes, _ → _ → _))

theorem correctedLater_counts :
    ¬ (server plain).EveryCommit (Machine.init garage.db) correctedLater fun d e =>
      ∀ o ∈ revisedRecord d e, ∀ n ∈ insertedRecords e.changes, ∀ workshopID since, since ≤ n.createdAt →
        NoExtraService d (e.changes.foldl DB.apply d) o n workshopID since := by
  intro h
  have hcount : ¬ (server plain).EveryCommit (Machine.init garage.db) correctedLater (MonthCountKept (uuid "1") 10) := by
    decide +kernel
  refine hcount fun p hp n hn hrev hsince => ?_
  obtain ⟨o, ho⟩ := Option.isSome_iff_exists.mp hrev
  exact (h p hp o ho n hn (uuid "1") 10 hsince).monthCount

end Mototeca
