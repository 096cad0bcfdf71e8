import Mototeca.Calendar
import Mototeca.Correspondence
import Mototeca.History

/-!
# A workshop's panel

`ListWorkshopServiceRecords` lists the shop's newest current records and, in a
later query, counts those of the month. A month begins where the shops are.
-/

namespace Mototeca

open ReadCommitted OrderedQuery Calendar

/-! ## The month -/

def dayNanos : Int := 86400000000000

/-- The number of 1970-01-01. -/
def epochDay : Int := 719528

/-- `time.Location`: how far clocks are ahead of UTC at a moment, in nanoseconds. -/
abbrev Zone := Time → Int

section
variable (workshopZone : Zone)

/-- The date of `now.In(workshopZone)`. -/
def localDate (now : Time) : Date := dateAt dayNanos epochDay workshopZone now

/-- `time.Date` looks the offset up again where the first one puts the midnight. -/
def startOfMonth (now : Time) : Time := monthStart dayNanos epochDay workshopZone now

/-- The clocks of the place are left alone around the first of the month of `now`. -/
def Zone.Settled (now : Time) : Prop := Calendar.Settled dayNanos epochDay workshopZone now

variable {workshopZone}

theorem startOfMonth_le_iff {now : Time} (h : workshopZone.Settled now) (t : Time) :
    startOfMonth workshopZone now ≤ t ↔ ¬ (localDate workshopZone t).MonthBefore (localDate workshopZone now) :=
  monthStart_le_iff (by decide) h t

end

/-- São Paulo, which put its clocks ahead by an hour on 2018-11-04. -/
def saoPaulo2018 : Zone := fun t => if t < 1541300400000000000 then -10800000000000 else -7200000000000

example : startOfMonth saoPaulo2018 1542283200000000000 = 1541041200000000000 := by decide

/-! ## Queries -/

section
variable {P : Platform} (server : ReadServer P)

/-- `Repository.ListByWorkshop`. -/
def listByWorkshop (workshopID : Bytes) (limit : Nat) : Sql RecordError (List ServiceRecord) := do
  let records ← selectNewest server (fun r => r.workshopID == workshopID && r.supersededBy.isNone) limit
  hydrateBy server.toHydrateServer records

/-- `CountByWorkshopSince`. It selects from the table that `selectRecords` does. -/
def countByWorkshopSince (workshopID : Bytes) (since : Time) : Sql RecordError Nat :=
  .query .selectRecords fun d => d.countByWorkshopSince workshopID since

structure WorkshopFeed where
  records : List ServiceRecord
  countThisMonth : Int
  deriving DecidableEq

def feedError : RecordError → Failure := fun _ => .connect .internal "falha ao carregar os registros"

/-- `Handler.ListWorkshopServiceRecords`. -/
def listWorkshopServiceRecords (zone : Zone) (now : Time) (subject : Option Subject) (limit : Int) :
    Sql Failure WorkshopFeed :=
  withSession (requireWorkshopID subject) fun workshopID => do
    let records ← (listByWorkshop server workshopID (clampLimit limit)).mapFail feedError
    let count ← (countByWorkshopSince workshopID (startOfMonth zone now)).mapFail feedError
    .ret ⟨records, int32 count⟩

end

/-! ## The services of a shop -/

def ofWorkshop (workshopID : UUID) (r : ServiceRecordRow) : Bool := r.workshopID == workshopID

/-- The commit of a new record, not a correction, by this shop. -/
def createsAt (workshopID : UUID) (q : Request) : Bool :=
  match q.call with
  | .createServiceRecord _ => (requireWorkshopID q.subject).toOption == some workshopID
  | _ => false

section
variable {P : Platform} {q : Request} {a : Reply} {σ : SqlLocal} {d : DB}

theorem Writes.create_shop {now : Time} {input : CreateInput} {w : Written} (h : Writes now input none w σ d)
    (workshopID : UUID) : (currentWith (ofWorkshop workshopID) (σ.changes.foldl DB.apply d)).length =
      (currentWith (ofWorkshop workshopID) d).length + (input.workshopID == workshopID).toNat := by
  rw [h.changes, w.view, h.create rfl]
  simp only [currentWith, List.filter_append, List.length_append]
  by_cases hshop : input.workshopID = workshopID
  · simp [ofWorkshop, h.workshopID, h.supersededBy, hshop]
  · simp [ofWorkshop, h.workshopID, hshop]

theorem Corrects.shop {d d' : DB} {o n : ServiceRecordRow} (h : Corrects d d' o n) (hd : Schema d)
    (workshopID : UUID) :
    (currentWith (ofWorkshop workshopID) d').length = (currentWith (ofWorkshop workshopID) d).length := by
  have hsame : ofWorkshop workshopID n = ofWorkshop workshopID o := by rw [ofWorkshop, h.workshop]; rfl
  rw [h.currentWith_after hd, hsame]
  cases hold : ofWorkshop workshopID o with
  | true => simp [(h.currentWith_before hd hold).length_eq]
  | false => simp [Corrects.currentWith_other hold]

theorem Done.shop (h : Done P q a σ d) (hd : Schema d) (workshopID : UUID) :
    (currentWith (ofWorkshop workshopID) (σ.changes.foldl DB.apply d)).length =
      (currentWith (ofWorkshop workshopID) d).length + (createsAt workshopID q).toNat := by
  have hall := h
  cases h with
  | create session writes =>
    have hsession : (requireWorkshopID _).toOption = some _ := congrArg Except.toOption session
    rw [createsAt, hsession]
    exact writes.create_shop workshopID
  | revise session found writes =>
    obtain ⟨⟨o, ho, -⟩, -⟩ := writes.revise _ rfl
    rename_i w
    have hn : w.record ∈ insertedRecords σ.changes := by simp [writes.changes, Written.insertedRecords_changes]
    exact (hall.corrects hd ho hn).shop hd workshopID
  | upload session form attaches => rw [attaches.changes]; rfl
  | register registers => rw [registers.changes]; rfl
  | claim session plate suffix claims => rw [claims.changes]; rfl
  | release session releases => rw [releases.changes]; rfl

/-- A shop has a current record for each of its committed creates. -/
theorem run_shop (P : Platform) (init : Installed) (es : List ServerEvent) (workshopID : UUID) :
    (currentWith (ofWorkshop workshopID) (serverRun P init.toSoundDB es).db).length =
      (serverRun P init.toSoundDB es).log.countP fun e => createsAt workshopID e.req := by
  refine run_history (server_discipline P)
    (J := fun log d => (currentWith (ofWorkshop workshopID) d).length = log.countP fun e => createsAt workshopID e.req)
    (fun log d q a σ hd h hJ => ?_) es (good_init init.schema) ?_
  · have hs : (currentWith (ofWorkshop workshopID) ((server P).view σ.changes d)).length = _ := h.shop hd workshopID
    rw [List.countP_cons, ← hJ, hs]
    cases createsAt workshopID q <;> rfl
  · simp only [Machine.init, currentWith, init.noRecords]
    rfl

end

/-! ## The panel -/

theorem countByWorkshopSince_current (d : DB) (workshopID : UUID) (since : Time) :
    d.countByWorkshopSince workshopID since =
      (currentWith (ofWorkshop workshopID) d).countP fun r => since ≤ r.createdAt := by
  rw [DB.countByWorkshopSince, currentWith, List.countP_filter]
  refine List.countP_congr fun r _ => ?_
  simp only [ofWorkshop, Bool.and_eq_true, decide_eq_true_eq]
  exact ⟨fun ⟨⟨hshop, hsince⟩, hcurrent⟩ => ⟨hsince, hshop, hcurrent⟩,
    fun ⟨hsince, hshop, hcurrent⟩ => ⟨⟨hshop, hsince⟩, hcurrent⟩⟩

/-- A panel read in three moments: the current records, their attachments and the month's count. -/
structure PanelShown (P : Platform) (zone : Zone) (now : Time) (workshopID : UUID) (limit services : Nat)
    (d₀ d₁ d₂ : DB) (feed : WorkshopFeed) : Prop where
  listed : ∃ rows, Answers (fun a b => b.createdAt ≤ a.createdAt) (currentWith (ofWorkshop workshopID) d₀) rows ∧
    List.Forall₂ (Shown P d₀ d₁) (rows.take limit) feed.records
  length : feed.records.length = min limit services
  bounded : feed.records.length ≤ maxListLimit
  since : feed.countThisMonth = int32 ((currentWith (ofWorkshop workshopID) d₂).countP fun r =>
    startOfMonth zone now ≤ r.createdAt)
  month : zone.Settled now → feed.countThisMonth = int32 ((currentWith (ofWorkshop workshopID) d₂).countP fun r =>
    ¬ (localDate zone r.createdAt).MonthBefore (localDate zone now))

def PanelAnswer (P : Platform) (zone : Zone) (now : Time) (subject : Option Subject) (limit : Nat) (init : SoundDB)
    (others : Nat → List ServerEvent) : Except Failure (WorkshopFeed × List Change × Nat) → Prop
  | .error e => requireWorkshopID subject = .error e
  | .ok (feed, changes, _) => changes = [] ∧ ∃ workshopID m, requireWorkshopID subject = .ok workshopID ∧ 1 ≤ m ∧
      PanelShown P zone now workshopID limit
        ((worldLog P init others 0).countP fun e => createsAt workshopID e.req)
        (world P init others 0) (world P init others 3) (world P init others m) feed

section
variable {P : Platform} (server : ReadServer P) (others : Nat → List ServerEvent) (ids : Stmt → Nat → UUID) (zone : Zone)
  (now : Time) (limit : Int) (broken : Stmt → Failure)

theorem panel_exec (init : SoundDB) {subject : Option Subject} {workshopID : Bytes}
    (hs : requireWorkshopID subject = .ok workshopID) : ∃ rows page m, 1 ≤ m ∧
      Answers (fun a b => b.createdAt ≤ a.createdAt) (currentWith (ofWorkshop workshopID) (world P init others 0))
        rows ∧
      List.Forall₂ (Shown P (world P init others 0) (world P init others 3)) (rows.take (clampLimit limit)) page ∧
      (listWorkshopServiceRecords server zone now subject limit).execAt DB.apply broken ids (world P init others)
        (fun _ => false) 0 [] =
          .ok (⟨page, int32 ((world P init others m).countByWorkshopSince workshopID (startOfMonth zone now))⟩, [],
            m + 1) := by
  obtain ⟨rows, records, page, m, hrows, hselect, hexec, hshown⟩ :=
    newest_shown init others server ids 0
      (fun r => r.workshopID == workshopID && r.supersededBy.isNone) (clampLimit limit)
  have hlist : (listByWorkshop server workshopID (clampLimit limit)).execAt DB.apply RecordError.sql ids
      (world P init others) (fun _ => false) 0 [] = .ok (page, [], m) := by
    rw [listByWorkshop, Prog.bind_eq, Prog.execAt_bind _ _ _ _ _ _ hselect]
    exact hexec
  have hcount : (countByWorkshopSince workshopID (startOfMonth zone now)).execAt DB.apply RecordError.sql ids
      (world P init others) (fun _ => false) m [] =
        .ok ((world P init others m).countByWorkshopSince workshopID (startOfMonth zone now), [], m + 1) := by
    simp [countByWorkshopSince, Prog.query, Prog.execAt]
  refine ⟨rows, page, m, Prog.le_of_execAt _ _ _ _ _ _ hexec, hrows, hshown, ?_⟩
  simp only [listWorkshopServiceRecords, hs, withSession, Prog.bind_eq]
  rw [Prog.execAt_bind _ _ _ _ _ _ (Prog.execAt_mapFail _ _ _ _ _ _ hlist),
    Prog.execAt_bind _ _ _ _ _ _ (Prog.execAt_mapFail _ _ _ _ _ _ hcount)]
  rfl

/-- The list is that of one moment, newest first, one record for each service of the shop
committed by then, up to the limit; the count is that of a later moment, with no limit. -/
theorem listWorkshopServiceRecords_answers (init : Installed) (subject : Option Subject) :
    PanelAnswer P zone now subject (clampLimit limit) init.toSoundDB others
      ((listWorkshopServiceRecords server zone now subject limit).execAt DB.apply broken ids
        (world P init.toSoundDB others) (fun _ => false) 0 []) := by
  cases hs : requireWorkshopID subject with
  | error e =>
    rw [listWorkshopServiceRecords, hs]
    exact hs
  | ok workshopID =>
    obtain ⟨rows, page, m, hm, hrows, hshown, hexec⟩ :=
      panel_exec server others ids zone now limit broken init.toSoundDB hs
    rw [hexec]
    have hservices : (currentWith (ofWorkshop workshopID) (world P init.toSoundDB others 0)).length = _ :=
      run_shop P init ((List.range 1).flatMap others) workshopID
    have hlength : page.length = min (clampLimit limit) rows.length := by
      rw [← hshown.length_eq, List.length_take]
    refine ⟨rfl, workshopID, m, hs, hm, ⟨rows, hrows, hshown⟩, ?_, ?_, ?_, fun hsettled => ?_⟩
    · rw [hlength, hrows.perm.length_eq, worldLog, ← hservices]
    · exact hlength ▸ (Nat.min_le_left _ _).trans (clampLimit_le limit)
    · rw [countByWorkshopSince_current]
    · simp only [countByWorkshopSince_current, startOfMonth_le_iff hsettled]

end

end Mototeca
