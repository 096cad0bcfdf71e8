import Mototeca.RecordsSound
import Mototeca.Waiting

/-!
# The server never deadlocks

A correction holds its record's row when it inserts, and the foreign key to the bike can
then wait for a claim. A claim in turn waits for nobody: what it locks behind the bike
is the owner's row, which no call changes.
-/

namespace Mototeca

open ReadCommitted

/-! ## The order -/

/-- The rank of `FOR KEY SHARE` for who asks for it. -/
def Lockable.share : Lockable → Nat
  | .serviceRecord _ => 1
  | .mechanic _ => 2
  | .vehicle _ => 3
  | .owner _ => 4
  | .workshop _ => 5
  | _ => 0

/-- The rank of a stronger lock for who asks for it. -/
def Lockable.change : Lockable → Nat
  | .serviceRecord _ | .vehicle _ => 1
  | .plate _ => 4
  | .chassi _ => 5
  | _ => 0

def keyOrder : LockOrder Key where
  asked k := if k.mode = .keyShare then k.on.share else k.on.change
  held k := if k.mode = .update then max k.on.share k.on.change else k.on.change
  le := by
    rintro ⟨x, m⟩ ⟨x', m'⟩ hc
    have hc' : (decide (x' = x) && m'.conflict m) = true := hc
    simp only [Bool.and_eq_true, decide_eq_true_eq] at hc'
    obtain ⟨rfl, hmode⟩ := hc'
    cases m' with
    | keyShare => cases m <;> simp [LockMode.conflict] at hmode ⊢
    | noKeyUpdate => cases m <;> simp [LockMode.conflict] at hmode ⊢
    | update => cases m <;> simp

theorem conflict_of_ne {k k' : Key} (h : k'.on ≠ k.on) : conflict k' k = false := by
  show (decide (k'.on = k.on) && _) = false
  rw [decide_eq_false h, Bool.false_and]

section
variable {H : Key → Prop} {taken : Set Key}

/-- Who has the row for an update has every weaker lock on it. -/
theorem covered_update {x : Lockable} (h : H ⟨x, .update⟩) (m : LockMode) : Covered H ⟨x, m⟩ := by
  refine ⟨_, h, fun k' hc => ?_⟩
  have hc' : (decide (k'.on = x) && k'.mode.conflict m) = true := hc
  show (decide (k'.on = x) && k'.mode.conflict .update) = true
  rw [Bool.and_eq_true] at hc' ⊢
  refine ⟨hc'.1, ?_⟩
  cases k'.mode <;> rfl

theorem allows_covered {x : Lockable} (h : H ⟨x, .update⟩) (m : LockMode) : keyOrder.Allows taken H ⟨x, m⟩ :=
  Or.inl (covered_update h m)

theorem allows_above {k : Key} (n : Nat) (hk : n < keyOrder.asked k) (h : ∀ k₀, H k₀ → keyOrder.held k₀ ≤ n) :
    keyOrder.Allows taken H k :=
  Or.inr (Or.inr fun k₀ hk₀ => (h k₀ hk₀).trans_lt hk)

end

/-! ## Ids -/

/-- `gen_random_uuid()` gives distinct ids, none of them locked or in a table. -/
structure FreshIDs (taken : Set Key) (d : DB) (o : Nat → UUID) : Prop where
  distinct : Function.Injective o
  unlocked : ∀ n, ∀ k ∈ taken, k.on ≠ .mechanic (o n) ∧ k.on ≠ .vehicle (o n) ∧ k.on ≠ .serviceRecord (o n) ∧
    k.on ≠ .attachment (o n)
  unused : ∀ n, d.hasMechanic (o n) = false ∧ d.vehicle (o n) = none ∧ d.serviceRecord (o n) = none ∧
    ∀ a ∈ d.attachments, a.id ≠ o n

theorem exists_freshIDs (taken : Set Key) (h : taken.Finite) (d : DB) : ∃ o, FreshIDs taken d o := by
  let rows : List UUID := d.mechanics.map (·.id) ++ d.vehicles.map (·.id) ++ d.serviceRecords.map (·.id) ++
    d.attachments.map (·.id)
  let things : Set Lockable := Key.on '' taken
  let locked : Set UUID := {id | .mechanic id ∈ things ∨ .vehicle id ∈ things ∨ .serviceRecord id ∈ things ∨
    .attachment id ∈ things}
  have hlocked : locked.Finite := by
    have key : ∀ f : UUID → Lockable, Function.Injective f → {id | f id ∈ things}.Finite := fun f hf =>
      (h.image Key.on).preimage hf.injOn
    exact (key _ fun _ _ e => Lockable.mechanic.inj e).union <| (key _ fun _ _ e => Lockable.vehicle.inj e).union <|
      (key _ fun _ _ e => Lockable.serviceRecord.inj e).union (key _ fun _ _ e => Lockable.attachment.inj e)
  have hinf : (locked ∪ {id | id ∈ rows})ᶜ.Infinite := (hlocked.union rows.finite_toSet).infinite_compl
  have hnew : ∀ n, (hinf.natEmbedding _ n : UUID) ∉ locked ∧ (hinf.natEmbedding _ n : UUID) ∉ rows := fun n =>
    not_or.mp (hinf.natEmbedding _ n).2
  refine ⟨fun n => hinf.natEmbedding _ n, fun m n e => (hinf.natEmbedding _).injective (Subtype.ext e),
    fun n k hk => ?_, fun n => ?_⟩
  · have hn := (hnew n).1
    have hthing : k.on ∈ things := ⟨k, hk, rfl⟩
    simp only [locked, Set.mem_ofPred_eq, not_or] at hn
    exact ⟨fun e => hn.1 (e ▸ hthing), fun e => hn.2.1 (e ▸ hthing), fun e => hn.2.2.1 (e ▸ hthing),
      fun e => hn.2.2.2 (e ▸ hthing)⟩
  · have hn := (hnew n).2
    generalize ((hinf.natEmbedding _ n : _) : UUID) = id at hn ⊢
    simp only [rows, List.mem_append, List.mem_map, not_or, not_exists, not_and] at hn
    obtain ⟨⟨⟨hm, hv⟩, hr⟩, ha⟩ := hn
    refine ⟨?_, vehicle_none.mpr hv, serviceRecord_none.mpr hr, ha⟩
    simpa [DB.hasMechanic] using hm

/-! ## Statements -/

/-- A body that locks in the order, and gives no lock back. -/
abbrev Settles {E α : Type} (p : Sql E α) (H : Key → Prop) : Prop :=
  p.Orderly keyOrder FreshIDs (fun _ H' => ∀ k, H k → H' k) H

/-- A body that locks nothing. -/
abbrev ReadsOnly {E α : Type} (p : Sql E α) (H : Key → Prop) : Prop :=
  p.Orderly keyOrder FreshIDs (fun _ H' => ∀ k, H' k ↔ H k) H

section
variable {E α : Type} {P : α → (Key → Prop) → Prop} {H : Key → Prop}

theorem Settles.andThen {β : Type} {p : Sql E β} {k : β → Sql E α} (hp : Settles p H)
    (hk : ∀ b H', (∀ x, H x → H' x) → (k b).Orderly keyOrder FreshIDs P H') :
    (p.bind k).Orderly keyOrder FreshIDs P H :=
  Prog.Orderly.bind hk hp

theorem ReadsOnly.andThen {β : Type} {p : Sql E β} {k : β → Sql E α} (hp : ReadsOnly p H)
    (hk : ∀ b, (k b).Orderly keyOrder FreshIDs P H) : (p.bind k).Orderly keyOrder FreshIDs P H := by
  refine Prog.Orderly.bind (fun b H' h => ?_) hp
  rw [show H' = H from funext fun x => propext (h x)]
  exact hk b

theorem settles_write {name : Stmt} {err : E} {keys : (Nat → UUID) → DB → List Key} {ok : (Nat → UUID) → DB → Bool}
    {changes : (Nat → UUID) → DB → List Change} {result : (Nat → UUID) → α}
    (hkeys : ∀ taken d o, FreshIDs taken d o → keyOrder.AllowsAll taken H (keys o d)) :
    Settles (Prog.write name err keys ok changes result : Sql E α) H :=
  orderly_write hkeys fun _ _ _ h => Or.inr h

theorem reads_query (name : Stmt) (f : DB → α) : ReadsOnly (Prog.query name f : Sql E α) H :=
  orderly_query fun _ _ => Iff.rfl

theorem reads_hydrate (P : Platform) (records : List ServiceRecord) : ReadsOnly (hydrate P records) H := by
  have each : ∀ {β : Type} (target : β → UUID × (ServiceRecord → ServiceRecord)) (rows : List β)
      (records : List ServiceRecord), ReadsOnly (eachRow target rows records) H := by
    intro β target rows
    induction rows with
    | nil => exact fun records => orderly_ret fun k => Iff.rfl
    | cons row rows ih =>
      intro records
      simp only [eachRow]
      cases updateIndexed (target row).1 (target row).2 records with
      | none => exact orderly_fail
      | some records' => exact ih records'
  unfold hydrate
  split
  · exact orderly_ret fun k => Iff.rfl
  · refine (reads_query ..).andThen fun opRows => (each ..).andThen fun records₁ => ?_
    refine (reads_query ..).andThen fun partRows => (each ..).andThen fun records₂ => ?_
    exact (reads_query ..).andThen fun attachmentRows => each ..

theorem reads_findByID (P : Platform) (id : Bytes) : ReadsOnly (findByID P id) H := by
  have hselect : ReadsOnly (selectRecords (·.id == canonicalID id)) H := by
    refine orderly_read fun o d => ?_
    cases d.selectRecords (d.serviceRecords.filter (·.id == canonicalID id)) with
    | none => exact orderly_fail
    | some records => exact orderly_ret fun k => Iff.rfl
  unfold findByID
  split
  · exact orderly_ret fun k => Iff.rfl
  · refine hselect.andThen fun records => ?_
    split
    · exact orderly_ret fun k => Iff.rfl
    · exact (reads_hydrate P records).andThen fun records' => orderly_ret fun k => Iff.rfl

theorem reads_selectVehicle (plate : String) : ReadsOnly (selectVehicle plate) H := by
  unfold selectVehicle
  split
  · exact reads_query ..
  · exact orderly_fail

theorem reads_odometer (input : CreateInput) (rev : Option Revision) (vehicleID : UUID) :
    ReadsOnly (odometer input rev vehicleID) H := by
  unfold odometer
  split
  · refine (reads_query ..).andThen fun highest => ?_
    cases highest with
    | none => exact orderly_ret fun k => Iff.rfl
    | some m =>
      dsimp only
      split
      · exact orderly_fail
      · exact orderly_ret fun k => Iff.rfl
  · exact orderly_ret fun k => Iff.rfl

/-- No lock on a row for which a foreign key of a new record could wait. -/
def Light (H : Key → Prop) : Prop := ∀ k, H k → keyOrder.held k ≤ 1

/-- What a body holds behind `upsertMechanic`: the row of a mechanic that it inserted, or
still none that a foreign key could wait for. -/
structure Employing (H : Key → Prop) (mechanicID : Option UUID) (H' : Key → Prop) : Prop where
  keeps : ∀ k, H k → H' k
  below : ∀ k, H' k → keyOrder.held k ≤ 2
  inserted : (∀ m, mechanicID = some m → H' (.mechanic m)) ∨ Light H'

theorem Light.employing (h : Light H) (mechanicID : Option UUID) : Employing H mechanicID H :=
  ⟨fun _ => id, fun k hk => (h k hk).trans (by decide), Or.inr h⟩

theorem orderly_upsertMechanic (P : Platform) (workshopID : UUID) (name : Option String) (h : Light H) :
    (upsertMechanic P workshopID name).Orderly keyOrder FreshIDs (Employing H) H := by
  cases name with
  | none => exact orderly_ret (h.employing _)
  | some name =>
    simp only [upsertMechanic]
    split
    · exact orderly_ret (h.employing _)
    · split
      · exact orderly_fail
      · refine (reads_query ..).andThen fun found => ?_
        cases found with
        | some m => exact orderly_ret (h.employing _)
        | none =>
          refine orderly_write (fun taken d o ho => ?_) fun o d => ⟨fun k hk => Or.inr hk, fun k hk => ?_, Or.inl ?_⟩
          · refine ⟨Or.inr (Or.inl fun k' hk' => conflict_of_ne (ho.unlocked 0 k' hk').1), ?_, trivial⟩
            refine allows_above 2 (show 2 < 5 by decide) fun k₀ hk₀ => ?_
            rcases hk₀ with rfl | hk₀
            · exact le_refl 2
            · exact (h k₀ hk₀).trans (by decide)
          · rcases hk with hk | hk
            · simp only [MechanicRow.references, List.mem_cons, List.not_mem_nil, or_false] at hk
              rcases hk with rfl | rfl
              · exact le_refl 2
              · exact Nat.zero_le 2
            · exact (h k hk).trans (by decide)
          · rintro m hm
            obtain rfl := Option.some.inj hm
            exact Or.inl List.mem_cons_self

/-- The row is new, and its foreign keys ask for the bike, the workshop and the mechanic. -/
theorem orderly_insertServiceRecord (input : CreateInput) (now : Time) (vehicleID : UUID) {mechanicID : Option UUID}
    {H₀ : Key → Prop} (h : Employing H₀ mechanicID H) :
    (insertServiceRecord input now vehicleID mechanicID).Orderly keyOrder FreshIDs
      (fun id H' => H' (.serviceRecord id) ∧ ∀ k, H k → H' k) H := by
  refine orderly_write (fun taken d o ho => ?_) fun o d => ⟨Or.inl List.mem_cons_self, fun k hk => Or.inr hk⟩
  refine ⟨Or.inr (Or.inl fun k' hk' => conflict_of_ne (ho.unlocked 0 k' hk').2.2.1), ?_, ?_, ?_⟩
  · refine allows_above 2 (show 2 < 3 by decide) fun k₀ hk₀ => ?_
    rcases hk₀ with rfl | hk₀
    · exact show 1 ≤ 2 by decide
    · exact h.below k₀ hk₀
  · refine allows_above 2 (show 2 < 5 by decide) fun k₀ hk₀ => ?_
    rcases hk₀ with rfl | rfl | hk₀
    · exact show 1 ≤ 2 by decide
    · exact show 1 ≤ 2 by decide
    · exact h.below k₀ hk₀
  · cases mechanicID with
    | none => trivial
    | some m =>
      refine ⟨?_, trivial⟩
      rcases h.inserted with hown | hlight
      · exact allows_covered (Or.inr (Or.inr (Or.inr (hown m rfl)))) _
      · refine allows_above 1 (show 1 < 2 by decide) fun k₀ hk₀ => ?_
        rcases hk₀ with rfl | rfl | rfl | hk₀
        · exact Nat.zero_le 1
        · exact le_refl 1
        · exact le_refl 1
        · exact hlight k₀ hk₀

theorem settles_insertOperations (recordID : UUID) (ops : List Operation) : ∀ {H : Key → Prop},
    H (.serviceRecord recordID) → Settles (insertOperations recordID ops) H := by
  induction ops with
  | nil => exact fun _ => orderly_ret fun k h => h
  | cons op ops ih =>
    intro H hrecord
    simp only [insertOperations]
    cases ServiceType.parse op.raw with
    | none => exact settles_write fun _ _ _ _ => trivial
    | some t =>
      refine Settles.andThen (settles_write fun taken d o _ => ?_) fun _ H' h => ?_
      · exact ⟨allows_covered hrecord _, trivial⟩
      · exact (ih (h _ hrecord)).mono fun _ H'' h' k hk => h' k (h k hk)

theorem settles_insertParts (recordID : UUID) (parts : List Part) : ∀ {H : Key → Prop},
    H (.serviceRecord recordID) → Settles (insertParts recordID parts) H := by
  induction parts with
  | nil => exact fun _ => orderly_ret fun k h => h
  | cons part parts ih =>
    intro H hrecord
    refine Settles.andThen (settles_write fun taken d o _ => ?_) fun _ H' h => ?_
    · exact ⟨allows_covered hrecord _, trivial⟩
    · exact (ih (h _ hrecord)).mono fun _ H'' h' k hk => h' k (h k hk)

theorem allowsAll_fresh {taken : Set Key} {ks : List Key} (h : ∀ k ∈ ks, ∀ k' ∈ taken, conflict k' k = false) :
    ∀ {H : Key → Prop}, keyOrder.AllowsAll taken H ks := by
  induction ks with
  | nil => exact trivial
  | cons k ks ih =>
    intro H
    exact ⟨Or.inr (Or.inl (h k List.mem_cons_self)), ih fun k' hk' => h k' (List.mem_cons_of_mem _ hk')⟩

/-- Both records are locked already, and the rows carried over are new. -/
theorem settles_replaceOriginal (rev : Option Revision) (recordID : UUID) (hrecord : H (.serviceRecord recordID))
    (h : ∀ r, rev = some r → H (.serviceRecord (canonicalID r.recordID))) :
    Settles (replaceOriginal rev recordID) H := by
  cases rev with
  | none => exact orderly_ret fun k h => h
  | some r =>
    refine Settles.andThen (settles_write fun taken d o ho => ?_) fun _ H' h' => ?_
    · exact ⟨allows_covered (h r rfl) _, allows_covered (Or.inr hrecord) _, trivial⟩
    · refine Prog.Orderly.mono (fun _ H'' h'' k hk => h'' k (h' k hk)) (settles_write fun taken d o ho => ?_)
      refine ⟨allows_covered (h' _ hrecord) _, allowsAll_fresh fun k hk => ?_⟩
      obtain ⟨a, ha, rfl⟩ := List.mem_map.mp hk
      obtain ⟨p, -, rfl⟩ := List.mem_map.mp ha
      exact fun k' hk' => conflict_of_ne (ho.unlocked p.2 k' hk').2.2.2

end

/-! ## Calls -/

abbrev LocksInOrder {E α : Type} (p : Sql E α) : Prop := p.Orderly keyOrder FreshIDs (fun _ _ => True) fun _ => False

theorem orderly_write_record (P : Platform) (now : Time) (input : CreateInput) (rev : Option Revision) :
    LocksInOrder (write P now input rev) := by
  rw [write_eq]
  refine Prog.Orderly.bind
    (P := fun _ H => Light H ∧ ∀ r, rev = some r → H (.serviceRecord (canonicalID r.recordID)))
    (fun _ H ⟨hlight, hrev⟩ => ?_) ?_
  · refine (reads_selectVehicle ..).andThen fun vehicle => ?_
    cases vehicle with
    | none => exact orderly_fail
    | some v =>
      refine (reads_odometer ..).andThen fun _ => ?_
      refine Prog.Orderly.bind (fun mechanicID H₁ h₁ => ?_) (orderly_upsertMechanic P _ _ hlight)
      refine Prog.Orderly.bind (fun recordID H₂ ⟨hrecord, h₂⟩ => ?_) (orderly_insertServiceRecord input now v.id h₁)
      refine (settles_insertOperations _ _ hrecord).andThen fun _ H₃ h₃ => ?_
      refine (settles_insertParts _ _ (h₃ _ hrecord)).andThen fun _ H₄ h₄ => ?_
      refine (settles_replaceOriginal rev recordID (h₄ _ (h₃ _ hrecord)) fun r hr => ?_).andThen
        fun _ _ _ => orderly_ret trivial
      exact h₄ _ (h₃ _ (h₂ _ (h₁.keeps _ (hrev r hr))))
  · cases rev with
    | none => exact orderly_ret ⟨fun _ => False.elim, fun r hr => by cases hr⟩
    | some r =>
      simp only [revisable, checkRevisable]
      split
      · exact orderly_fail
      · refine Prog.Orderly.bind
          (P := fun found H => Light H ∧ ∀ o, found = some o → H (.serviceRecord (canonicalID r.recordID)))
          (fun found H ⟨hlight, hH⟩ => ?_) ?_
        · refine orderly_queryForUpdate fun d => ⟨fun k hk => ?_, fun o ho => Or.inl ?_⟩
          · obtain ⟨row, -, rfl⟩ : ∃ row, d.serviceRecord (canonicalID r.recordID) = some row ∧
                Key.serviceRecord row.id = k := by simpa using hk
            exact le_refl 1
          · simp [ho, (serviceRecord_some ho).2]
        · cases found with
          | none => exact orderly_fail
          | some o =>
            dsimp only
            split
            · exact orderly_fail
            · split
              · exact orderly_fail
              · exact orderly_ret ⟨hlight, fun r' hr' => Option.some.inj hr' ▸ hH o rfl⟩

theorem orderly_addAttachment (now : Time) (workshopID recordID : Bytes) (a : Attachment) :
    LocksInOrder (addAttachment now workshopID recordID a) := by
  unfold addAttachment
  split
  · exact orderly_fail
  · refine Prog.Orderly.bind (P := fun found H => ∀ r, found = some r → H (.serviceRecord r.id)) (fun found H hH => ?_)
      (orderly_queryForUpdate fun d r hr => Or.inl (by simp [hr]))
    cases found with
    | none => exact orderly_fail
    | some r =>
      dsimp only
      split
      · exact orderly_fail
      · refine (reads_query ..).andThen fun count => ?_
        split
        · exact orderly_fail
        · refine (settles_write fun taken d o ho => ?_).mono fun _ _ _ => trivial
          refine ⟨Or.inr (Or.inl fun k' hk' => conflict_of_ne (ho.unlocked 0 k' hk').2.2.2), ?_, trivial⟩
          exact allows_covered (Or.inr (hH r rfl)) _

theorem orderly_createVehicle (P : Platform) (input : VehicleInput) : LocksInOrder (createVehicle P input) := by
  refine orderly_stmt (fun taken d o ho => ?_) fun o d => ?_
  · -- The row is new; the unique indexes come one after the other.
    refine ⟨Or.inr (Or.inl fun k' hk' => conflict_of_ne (ho.unlocked 0 k' hk').2.1), ?_, ?_, trivial⟩
    · refine allows_above 3 (show 3 < 4 by decide) fun k₀ hk₀ => ?_
      obtain rfl := hk₀.resolve_right id
      exact le_refl 3
    · refine allows_above 4 (show 4 < 5 by decide) fun k₀ hk₀ => ?_
      rcases hk₀ with rfl | hk₀
      · exact le_refl 4
      · obtain rfl := hk₀.resolve_right id
        exact show 3 ≤ 4 by decide
  · cases d.vehicleConflict (input.row P (o 0)) with
    | none => exact orderly_ret trivial
    | some e => exact orderly_fail

theorem orderly_claim (ownerID : UUID) (plate suffix : String) : LocksInOrder (claim ownerID plate suffix) := by
  unfold claim
  refine Prog.Orderly.bind
    (P := fun found H => ∀ v, found = some v → H (.vehicle v.id) ∧ ∀ k, H k → k = .vehicle v.id)
    (fun found H hH => ?_) ?_
  · cases found with
    | none => exact orderly_fail
    | some v =>
      obtain ⟨hown, honly⟩ := hH v rfl
      dsimp only
      split
      · exact orderly_fail
      · split
        · exact orderly_fail
        · refine Settles.andThen (settles_write fun taken d o ho => ?_) fun _ H₁ h₁ => ?_
          · refine ⟨allows_covered hown _, allows_above 3 (show 3 < 4 by decide) fun k₀ hk₀ => ?_, trivial⟩
            rcases hk₀ with rfl | hk₀
            · exact show 1 ≤ 3 by decide
            · rw [honly k₀ hk₀]
              exact le_refl 3
          · refine (reads_query ..).andThen fun owned => ?_
            cases owned with
            | none => exact orderly_fail
            | some _ => exact orderly_ret trivial
  · unfold lockClaimed
    split
    · refine orderly_queryForUpdate fun d v hv => ⟨Or.inl (by simp [hv]), fun k hk => ?_⟩
      simpa [hv, eq_comm] using hk
    · exact orderly_fail

theorem orderly_release (ownerID : UUID) (plate : String) : LocksInOrder (release ownerID plate) := by
  unfold release
  split
  · refine orderly_stmt (fun taken d o _ => ?_) fun o d => ?_
    · cases d.heldByPlate plate ownerID with
      | none => trivial
      | some v => exact ⟨Or.inr (Or.inr fun _ => False.elim), trivial⟩
    · split
      · exact orderly_ret trivial
      · exact orderly_fail
  · exact orderly_fail

theorem orderly_withSession {α β : Type} {session : Except Failure α} {k : α → Sql Failure β}
    (h : ∀ a, LocksInOrder (k a)) : LocksInOrder (withSession session k) := by
  cases session with
  | error e => exact orderly_fail
  | ok a => exact h a

theorem orderly_reply {α : Type} {p : Sql Failure α} {f : α → Reply} (hp : LocksInOrder p) :
    LocksInOrder (p.bind fun a => .ret (f a)) := by
  refine Prog.Orderly.bind (P := fun _ _ => True) (fun a H _ => ?_) hp
  exact orderly_ret trivial

theorem orderly_found {α : Type} {P : Platform} {id : Bytes} {f : RecordError → Failure}
    {k : Option ServiceRecord → Sql Failure α} (hk : ∀ r, LocksInOrder (k r)) :
    LocksInOrder (((findByID P id).mapFail f).bind k) :=
  ReadsOnly.andThen ((reads_findByID P id).mapFail f) hk

section
variable (P : Platform) (now : Time)

theorem orderly_createServiceRecord (workshopID : Bytes) (req : CreateServiceRecordRequest) :
    LocksInOrder (createServiceRecord P now workshopID req) := by
  unfold createServiceRecord
  dsimp only
  split
  · exact orderly_fail
  · exact (orderly_write_record ..).mapFail _

theorem orderly_reviseServiceRecord (workshopID : Bytes) (req : ReviseServiceRecordRequest) :
    LocksInOrder (reviseServiceRecord P now workshopID req) := by
  unfold reviseServiceRecord
  split
  · exact orderly_fail
  · refine orderly_found fun record => ?_
    cases record with
    | none => exact orderly_fail
    | some original =>
      dsimp only
      split
      · exact orderly_fail
      · exact (orderly_write_record ..).mapFail _

theorem orderly_upload (workshopID : Bytes) (req : UploadRequest) : LocksInOrder (upload P now workshopID req) := by
  unfold upload
  refine orderly_found fun record => ?_
  cases record with
  | none => exact orderly_fail
  | some record =>
    dsimp only
    split
    · exact orderly_fail
    · split
      · exact orderly_fail
      · exact (orderly_addAttachment ..).mapFail _

theorem orderly_registerVehicle (req : VehicleInput) : LocksInOrder (registerVehicle P now req) := by
  unfold registerVehicle
  dsimp only
  split
  · exact orderly_fail
  · exact (orderly_createVehicle ..).mapFail _

theorem orderly_claimVehicle (ownerID : Bytes) (req : ClaimVehicleRequest) : LocksInOrder (claimVehicle P ownerID req) := by
  unfold claimVehicle
  dsimp only
  generalize (normalizePlate P req.plate == "") = blank
  generalize validateChassiSuffix (normalizeChassiSuffix P req.chassiSuffix) = refusal
  cases blank with
  | true => exact orderly_fail
  | false =>
    cases refusal with
    | some message => exact orderly_fail
    | none => exact (orderly_claim ..).mapFail _

theorem orderly_releaseVehicle (ownerID : Bytes) (plate : String) : LocksInOrder (releaseVehicle P ownerID plate) := by
  unfold releaseVehicle
  dsimp only
  generalize (normalizePlate P plate == "") = blank
  cases blank with
  | true => exact orderly_fail
  | false => exact (orderly_release ..).mapFail _

theorem orderly_serve (q : Request) : LocksInOrder (serve P q) := by
  obtain ⟨subject, now, call⟩ := q
  unfold serve
  cases call with
  | createServiceRecord req =>
    exact orderly_withSession fun id => orderly_reply (orderly_createServiceRecord P now id req)
  | reviseServiceRecord req =>
    exact orderly_withSession fun id => orderly_reply (orderly_reviseServiceRecord P now id req)
  | upload req => exact orderly_withSession fun id => orderly_reply (orderly_upload P now id req)
  | createVehicle req =>
    exact orderly_withSession fun _ => orderly_reply (orderly_registerVehicle P now req)
  | claimVehicle req => exact orderly_withSession fun id => orderly_reply (orderly_claimVehicle P id req)
  | releaseVehicle plate =>
    exact orderly_withSession fun id => orderly_reply (orderly_releaseVehicle P id plate)

end

/-! ## Every run -/

/-- The server needs no deadlock detection, whatever the calls and their order. -/
theorem server_never_deadlocks (P : Platform) (d : DB) (es : List ServerEvent) :
    (server P).NeverStuck FreshIDs ((server P).run (Machine.init d) es) :=
  ((calm_init (R := keyOrder) d).run (M := server P) (orderly_serve P) es).neverStuck (orderly_serve P) exists_freshIDs

end Mototeca
