import Mototeca.DartTime
import Mototeca.DemoWrites
import Mototeca.OwnerFigures
import Mototeca.WorkshopFeed

/-!
# The panel of the demo

`_workshopFeed` lists and counts from memory what the server asks two queries for.
The demo has no ceiling for the list and leaves the first instant of the month out.
-/

namespace Mototeca.Mobile

open Calendar Listing

/-- `DateTime(now.year, now.month)` of a local time. `deviceZone` is how far the device's
clock is ahead of UTC at a moment, in microseconds. -/
def firstOfMonth (deviceZone : Int → Int) (now : DateTime) : DateTime :=
  ⟨monthStart dayLength epoch deviceZone now.microsecondsSinceEpoch, false⟩

namespace DemoBackend

variable (s : DemoBackend)

/-- The current records of a workshop, sorted by time. -/
def workshopRecords (id : String) : List DemoRecord :=
  descending (·.createdAt.microsecondsSinceEpoch)
    (s.records.filter fun r => r.workshopId == id && r.supersededByRecordId.isNone)

/-- `_workshopFeed`: the records listed and `countThisMonth`. -/
def workshopFeed (deviceZone : Int → Int) (now : DateTime) (request : JsonMap) (token : Option String) :
    Except DemoError (List DemoRecord × Nat) := do
  let id ← workshopId token
  let limit ← orThrow (asInt (request.lookup "limit"))
  let limit := limit.getD 50
  let mine := s.workshopRecords id
  let start := firstOfMonth deviceZone now
  return (mine.take (if limit ≤ 0 then 50 else limit.toNat),
    mine.countP fun r => start.microsecondsSinceEpoch < r.createdAt.microsecondsSinceEpoch)

end DemoBackend

end Mototeca.Mobile

namespace Mototeca

open ReadCommitted OrderedQuery Listing Calendar
open Mobile (DemoBackend DemoRecord)

/-! ## One moment -/

section
variable {P : Platform} {d : DB}

theorem Shown.describes (hd : Schema d) {row : ServiceRecordRow} (hrow : row ∈ d.serviceRecords)
    {record : ServiceRecord} (h : Shown P d d row record) : ∃ revises, d.predecessor row.id = some revises ∧ Describes d row revises record := by
  obtain ⟨bare, hscan, hloads⟩ := h
  obtain ⟨revises, hp, -⟩ := hd.predecessor row.id
  obtain ⟨v, w, hv, hw, hselect⟩ := hd.selectRecords hrow hp
  rw [hd.filter_id hrow] at hselect
  obtain ⟨rfl, -⟩ := List.cons.inj (Option.some.inj (hscan.symm.trans hselect))
  obtain ⟨ops, hops, hopsEq⟩ := hloads.operations
  obtain ⟨parts, hparts, hpartsEq⟩ := hloads.parts
  obtain ⟨files, hfiles, hfilesEq⟩ := hloads.attachments
  have hrest := hloads.rest
  refine ⟨revises, hp, ?_⟩
  exact {
    id := by rw [hrest]
    workshopID := by rw [hrest]
    vehicle := ⟨v, hv, by rw [hrest]⟩
    workshopName := ⟨w, hw.1, hw.2, by rw [hrest]⟩
    mechanicName := by rw [hrest]
    mileageKm := by rw [hrest]
    costCents := by rw [hrest]
    notes := by rw [hrest]
    createdAt := by rw [hrest]
    revisesRecordID := by rw [hrest]
    supersededByID := by rw [hrest]
    operations := hopsEq ▸ hops.perm.map _
    parts := hpartsEq ▸ hparts.perm.map _
    attachments := hfilesEq ▸ hfiles.perm.map _ }

/-- The database of a request that nobody disturbs. -/
theorem world_alone (init : SoundDB) (n : Nat) : world P init (fun _ => []) n = init.db := by
  have hnone : (List.range (n + 1)).flatMap (fun _ => ([] : List ServerEvent)) = [] := by simp
  rw [world, hnone]
  rfl

end

/-! ## The same panel -/

/-- A shop that both know, with current records of different moments. -/
structure Shop where
  names : Names
  db : DB
  demo : DemoBackend
  mirrors : Mirrors names db demo
  row : WorkshopRow
  registered : row ∈ db.workshops
  named : row.id ≠ []
  moments : ((currentWith (ofWorkshop row.id) db).map (·.createdAt)).Nodup

structure SamePanel (n : Names) (feed : WorkshopFeed) (panel : List DemoRecord × Nat) : Prop where
  records : List.Forall₂ (fun m r => Shows n (toProto m) r) feed.records panel.1
  countThisMonth : feed.countThisMonth = panel.2

namespace Shop

variable (b : Shop)

/-- Both list the shop's current records in the same order. -/
theorem history {rows : List ServiceRecordRow}
    (hrows : Answers (fun a b => b.createdAt ≤ a.createdAt) (currentWith (ofWorkshop b.row.id) b.db) rows) :
    ∃ l : List (ServiceRecordRow × DemoRecord), rows = l.map (·.1) ∧
      b.demo.workshopRecords (b.names.workshop b.row.id) = l.map (·.2) ∧
        ∀ p ∈ l, p.1 ∈ b.db.serviceRecords ∧ SameRecord b.names b.db p.1 p.2 := by
  obtain ⟨l, hall, hrecords, hsame⟩ := b.mirrors.records
  have hmem : ∀ p ∈ l, p.1 ∈ b.db.serviceRecords := fun p hp => hall.mem_iff.mpr (List.mem_map_of_mem hp)
  have hcurrent : (currentWith (ofWorkshop b.row.id) b.db).Perm
      ((l.filter fun p => ofWorkshop b.row.id p.1 && p.1.supersededBy.isNone).map (·.1)) :=
    (hall.filter _).trans (.of_eq List.filter_map)
  have hmine : (b.demo.records.filter fun r =>
      r.workshopId == b.names.workshop b.row.id && r.supersededByRecordId.isNone).Perm
        ((l.filter fun p => ofWorkshop b.row.id p.1 && p.1.supersededBy.isNone).map (·.2)) := by
    refine (hrecords.filter _).trans (.of_eq ?_)
    rw [List.filter_map]
    refine congrArg _ (List.filter_congr fun p hp => ?_)
    have hp' := hsame p hp
    obtain ⟨w, hw, hid⟩ : ∃ w ∈ b.db.workshops, w.id = p.1.workshopID := by
      simpa [DB.hasWorkshop] using b.mirrors.schema.recordWorkshop p.1 (hmem p hp)
    have hshop : (p.2.workshopId == b.names.workshop b.row.id) = ofWorkshop b.row.id p.1 := by
      rw [hp'.workshopId, ofWorkshop, ← hid]
      by_cases he : w = b.row
      · simp [he]
      · have hne : b.names.workshop w.id ≠ b.names.workshop b.row.id := fun e =>
          he (List.inj_on_of_nodup_map b.mirrors.workshopNames hw b.registered e)
        have hne' : w.id ≠ b.row.id := fun e => he (List.inj_on_of_nodup_map b.mirrors.workshopIDs hw b.registered e)
        simp [hne, hne']
    simp only [Function.comp_apply, hshop, hp'.supersededBy, Option.isNone_map]
  have hkeys : ∀ p ∈ l, ∀ q ∈ l, p.1.createdAt ≤ q.1.createdAt ↔
      p.2.createdAt.microsecondsSinceEpoch ≤ q.2.createdAt.microsecondsSinceEpoch := by
    intro p hp q hq
    rw [← (hsame p hp).createdAt, ← (hsame q hq).createdAt]
    exact ⟨fun h => Int.le_of_mul_le_mul_right h (by decide), fun h => Int.mul_le_mul_of_nonneg_right h (by decide)⟩
  obtain ⟨l', hl', hfst, hsnd⟩ := descending_pairs (fun r : ServiceRecordRow => r.createdAt)
    (fun r : DemoRecord => r.createdAt.microsecondsSinceEpoch) hcurrent hmine
    (fun p hp q hq => hkeys p (List.mem_filter.mp hp).1 q (List.mem_filter.mp hq).1) b.moments
  have hin : ∀ p ∈ l', p ∈ l := fun p hp => (List.mem_filter.mp (hl'.mem_iff.mp hp)).1
  refine ⟨l', ?_, hsnd, fun p hp => ⟨hmem p (hin p hp), hsame p (hin p hp)⟩⟩
  rw [← hfst]
  exact Lists.unique ⟨hrows.perm, hrows.sorted⟩ (lists_descending _) b.moments

/-! ## The two parts -/

/-- What the demo lists where the server lists `clampLimit limit`. -/
def demoLimit (limit : Int) : Nat := if limit ≤ 0 then 50 else limit.toNat

theorem demo_feed (deviceZone : Int → Int) (micros limit : Int) :
    b.demo.workshopFeed deviceZone ⟨micros, false⟩ [("limit", .num (.int limit))]
        (some ("demo-w-" ++ b.names.workshop b.row.id)) =
      .ok ((b.demo.workshopRecords (b.names.workshop b.row.id)).take (demoLimit limit),
        (b.demo.workshopRecords (b.names.workshop b.row.id)).countP fun r =>
          (Mobile.firstOfMonth deviceZone ⟨micros, false⟩).microsecondsSinceEpoch <
            r.createdAt.microsecondsSinceEpoch) := by
  rw [DemoBackend.workshopFeed, workshopId_token]
  rfl

theorem take_same_iff (limit : Int) (n : Nat) :
    min (clampLimit limit) n = min (demoLimit limit) n ↔ limit ≤ maxListLimit ∨ n ≤ maxListLimit := by
  unfold clampLimit demoLimit defaultListLimit maxListLimit
  split
  · omega
  · omega

theorem listed_shown {rows : List ServiceRecordRow} {P : Platform} {page : List ServiceRecord}
    {l : List (ServiceRecordRow × DemoRecord)} {k : Nat}
    (hl : ∀ p ∈ l, p.1 ∈ b.db.serviceRecords ∧ SameRecord b.names b.db p.1 p.2) (hrows : rows = l.map (·.1))
    (hshown : List.Forall₂ (Shown P b.db b.db) (rows.take k) page) (k' : Nat) :
    List.Forall₂ (fun m r => Shows b.names (toProto m) r) page ((l.map (·.2)).take k') ↔
      min k l.length = min k' l.length := by
  have hlength : page.length = min k l.length := by
    rw [← hshown.length_eq, hrows, List.length_take, List.length_map]
  constructor
  · intro h
    rw [← hlength, h.length_eq, List.length_take, List.length_map]
  · intro hsame
    rw [hrows, ← List.map_take, List.forall₂_map_left_iff] at hshown
    rw [← List.map_take, List.forall₂_map_right_iff, ← List.take_eq_take_iff.mpr hsame]
    refine List.Forall₂.flip (List.forall₂_iff_zip.mpr ⟨hshown.length_eq, fun {p m} hmem => ?_⟩)
    obtain ⟨hrow, hrecord⟩ := hl p (List.mem_of_mem_take (List.of_mem_zip hmem).1)
    obtain ⟨revises, hp, hdescribes⟩ := (List.forall₂_zip hshown hmem).describes b.mirrors.schema hrow
    exact b.mirrors.shows hrecord hp hdescribes

/-- The server counts a record for its month and the demo does not, or the other way round. -/
def apart (start : Time) (demoStart : Int) (r : ServiceRecordRow) : Bool :=
  decide (start ≤ r.createdAt) != decide (demoStart * 1000 < r.createdAt)

theorem countP_of_imp {α : Type} {p q : α → Bool} (h : ∀ a, p a = true → q a = true) (l : List α) :
    l.countP q = l.countP p + l.countP fun a => p a != q a := by
  induction l with
  | nil => rfl
  | cons a l ih =>
    have ha := h a
    rw [List.countP_cons, List.countP_cons, List.countP_cons, ih]
    cases hp : p a with
    | true =>
      simp only [ha hp, bne_self_eq_false, Bool.false_eq_true, ite_true, ite_false]
      omega
    | false =>
      cases hq : q a with
      | true => simp [Nat.add_assoc]
      | false => simp

/-- One of the two starts to count earlier and counts what they differ in besides. -/
theorem countP_apart (start : Time) (demoStart : Int) (rows : List ServiceRecordRow) :
    rows.countP (fun r => start ≤ r.createdAt) =
        rows.countP (fun r => demoStart * 1000 < r.createdAt) + rows.countP (apart start demoStart) ∨
      rows.countP (fun r => demoStart * 1000 < r.createdAt) =
        rows.countP (fun r => start ≤ r.createdAt) + rows.countP (apart start demoStart) := by
  have happart : apart start demoStart = fun r => decide (demoStart * 1000 < r.createdAt) != decide (start ≤ r.createdAt) := by
    funext r
    exact bne_comm
  rcases le_or_gt start (demoStart * 1000) with hle | hlt
  · rw [happart]
    refine .inl (countP_of_imp (fun r hr => ?_) rows)
    rw [decide_eq_true_eq] at hr ⊢
    exact hle.trans hr.le
  · refine .inr (countP_of_imp (fun r hr => ?_) rows)
    rw [decide_eq_true_eq] at hr ⊢
    exact hlt.trans_le hr

theorem demo_count {l : List (ServiceRecordRow × DemoRecord)} (start : Int)
    (hl : ∀ p ∈ l, p.1 ∈ b.db.serviceRecords ∧ SameRecord b.names b.db p.1 p.2) :
    (l.map (·.2)).countP (fun r => start < r.createdAt.microsecondsSinceEpoch) =
      (l.map (·.1)).countP (fun r => start * 1000 < r.createdAt) := by
  rw [List.countP_map, List.countP_map]
  refine List.countP_congr fun p hp => ?_
  have hcreated := (hl p hp).2.createdAt
  simp only [Function.comp_apply, decide_eq_true_eq, ← hcreated]
  omega

theorem int32_count_iff {n m k : Nat} (h : n = m + k ∨ m = n + k) :
    int32 n = (m : Int) ↔ 4294967296 ∣ k ∧ m ≤ 2147483647 := by
  unfold int32
  omega

/-- Undisturbed and asked at one moment, the server and the demo show a shop the same panel
exactly when the limit asked for or the shop's records stay within the server's ceiling, no
current record (or a multiple of 2³² of them) is on one side only of the months they begin,
and the demo's count fits the `int32` of the message. -/
theorem panels_agree_iff {P : Platform} (server : ReadServer P) (ids : Stmt → Nat → UUID) (broken : Stmt → Failure)
    (workshopZone : Zone) (deviceZone : Int → Int) (micros limit : Int) : ∃ feed n panel,
      (listWorkshopServiceRecords server workshopZone (micros * 1000) (some ⟨.workshop, b.row.id⟩) limit).exec
        DB.apply broken ids b.db (fun _ => false) 0 [] = .ok (feed, [], n) ∧
      b.demo.workshopFeed deviceZone ⟨micros, false⟩ [("limit", .num (.int limit))]
        (some ("demo-w-" ++ b.names.workshop b.row.id)) = .ok panel ∧
      (SamePanel b.names feed panel ↔
        (limit ≤ maxListLimit ∨ (currentWith (ofWorkshop b.row.id) b.db).length ≤ maxListLimit) ∧
        4294967296 ∣ (currentWith (ofWorkshop b.row.id) b.db).countP (apart (startOfMonth workshopZone (micros * 1000))
          (Mobile.firstOfMonth deviceZone ⟨micros, false⟩).microsecondsSinceEpoch) ∧
        (currentWith (ofWorkshop b.row.id) b.db).countP (fun r =>
          (Mobile.firstOfMonth deviceZone ⟨micros, false⟩).microsecondsSinceEpoch * 1000 < r.createdAt) ≤ 2147483647) := by
  have hs : requireWorkshopID (some ⟨.workshop, b.row.id⟩) = .ok b.row.id := by
    simp [requireWorkshopID, require, subjectFrom, Option.filter, b.named]
  let init : SoundDB := ⟨b.db, b.mirrors.schema⟩
  have hworld : ∀ m, world P init (fun _ => []) m = b.db := world_alone init
  obtain ⟨rows, page, m, -, hrows, hshown, hexec⟩ :=
    panel_exec server (fun _ => []) ids workshopZone (micros * 1000) limit broken init hs
  have hconst : world P init (fun _ => []) = fun _ => b.db := funext hworld
  rw [hworld] at hrows hexec
  rw [hworld, hworld] at hshown
  rw [hconst, Prog.execAt_const] at hexec
  obtain ⟨l, hrowsEq, hmine, hl⟩ := b.history hrows
  refine ⟨_, _, _, hexec, b.demo_feed deviceZone micros limit, ?_⟩
  rw [hmine]
  generalize (Mobile.firstOfMonth deviceZone ⟨micros, false⟩).microsecondsSinceEpoch = demoStart
  generalize startOfMonth workshopZone (micros * 1000) = start
  have hperm : (l.map (·.1)).Perm (currentWith (ofWorkshop b.row.id) b.db) := hrowsEq ▸ hrows.perm
  have hlength : l.length = (currentWith (ofWorkshop b.row.id) b.db).length := by
    rw [← hperm.length_eq, List.length_map]
  have hsince : b.db.countByWorkshopSince b.row.id start = (l.map (·.1)).countP fun r => start ≤ r.createdAt := by
    rw [countByWorkshopSince_current, hperm.countP_eq]
  have hcount := int32_count_iff (countP_apart start demoStart (l.map (·.1)))
  rw [← hsince, ← b.demo_count demoStart hl, hperm.countP_eq (apart start demoStart)] at hcount
  rw [← hperm.countP_eq fun r => decide (demoStart * 1000 < r.createdAt), ← b.demo_count demoStart hl]
  have hlisted := b.listed_shown hl hrowsEq hshown (demoLimit limit)
  rw [hlength, take_same_iff] at hlisted
  constructor
  · intro h
    exact ⟨hlisted.mp h.records, hcount.mp h.countThisMonth⟩
  · intro ⟨hlimit, hmonth⟩
    exact ⟨hlisted.mpr hlimit, hcount.mpr hmonth⟩

end Shop

/-- The demo's bike has one record, of the first instant of 1970. -/
def newYear : Shop where
  names := longNames
  db := longDB 1
  demo := longDemo 1
  mirrors := long_mirrors (by decide) rfl
  row := ⟨uuid "1", "Oficina A"⟩
  registered := List.mem_cons_self ..
  named := by decide
  moments := by decide +kernel

/-- In one zone the record is apart, and on a device an hour ahead it is not. -/
example : (currentWith (ofWorkshop newYear.row.id) newYear.db).countP (Shop.apart (startOfMonth (fun _ => 0) 0)
      (Mobile.firstOfMonth (fun _ => 0) ⟨0, false⟩).microsecondsSinceEpoch) = 1 ∧
    (currentWith (ofWorkshop newYear.row.id) newYear.db).countP (Shop.apart (startOfMonth (fun _ => 0) 0)
      (Mobile.firstOfMonth (fun _ => 3600000000) ⟨0, false⟩).microsecondsSinceEpoch) = 0 := by
  decide +kernel

end Mototeca
