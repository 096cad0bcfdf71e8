import Mototeca.Outcomes

/-!
# What Validate lets through

`CreateInput.Validate` against its own messages, which promise characters, and
against the columns that an accepted input is written to.
-/

namespace Mototeca

open ReadCommitted

/-! ## Characters -/

/-- What the messages of `Validate` ask of an input, with a text measured in characters. -/
structure Documented (input : CreateInput) : Prop where
  workshopID : input.workshopID ≠ []
  operations : input.operations ≠ []
  operations_valid : ∀ op ∈ input.operations, op.valid = true
  operations_nodup : input.operations.Nodup
  mileageKm : 0 ≤ input.mileageKm ∧ input.mileageKm ≤ 2000000
  costCents : ∀ c, input.costCents = some c → 0 ≤ c ∧ c ≤ 100000000
  notes : ∀ n, input.notes = some n → n.length ≤ 2000
  mechanicName : ∀ m, input.mechanicName = some m → trimSpace m ≠ ""
  parts_length : input.parts.length ≤ 50
  parts : ∀ p ∈ input.parts, trimSpace p.name ≠ "" ∧ p.name.length ≤ 200 ∧ (1 ≤ p.quantity ∧ p.quantity ≤ 1000) ∧
    ∀ c, p.costCents = some c → 0 ≤ c ∧ c ≤ 100000000

/-- The limits on texts hold of their bytes too. -/
structure ShortInBytes (input : CreateInput) : Prop where
  notes : ∀ n, input.notes = some n → byteLen n ≤ 2000
  parts : ∀ p ∈ input.parts, byteLen p.name ≤ 200

theorem byteLen_cons (c : Char) (l : List Char) :
    byteLen (String.ofList (c :: l)) = c.utf8Size + byteLen (String.ofList l) := by
  rw [byteLen, String.ofList_cons, String.utf8ByteSize_append, String.utf8ByteSize_singleton]
  rfl

theorem length_le_byteLen (s : String) : s.length ≤ byteLen s := by
  have hlist : ∀ l : List Char, l.length ≤ byteLen (String.ofList l) := by
    intro l
    induction l with
    | nil => exact Nat.zero_le _
    | cons c l ih =>
      have hc := c.utf8Size_pos
      rw [byteLen_cons, List.length_cons]
      omega
  simpa only [String.ofList_toList, String.length_toList] using hlist s.toList

theorem badCost_eq_false {cost : Option Int} : badCost cost = false ↔ ∀ c, cost = some c → 0 ≤ c ∧ c ≤ 100000000 := by
  cases cost with
  | none => simp [badCost]
  | some c => simp [badCost, maxCostCents]

theorem valid_iff_documented {input : CreateInput} : Valid input ↔ Documented input ∧ ShortInBytes input := by
  constructor
  · intro h
    exact ⟨⟨h.workshopID, h.operations, h.operations_valid, h.operations_nodup, h.mileageKm,
        badCost_eq_false.mp h.costCents, fun n hn => (length_le_byteLen n).trans (h.notes n hn), h.mechanicName,
        h.parts_length, fun p hp =>
          have ⟨hname, hlength, hquantity, hcost⟩ := h.parts p hp
          ⟨hname, (length_le_byteLen p.name).trans hlength, hquantity, badCost_eq_false.mp hcost⟩⟩,
      ⟨h.notes, fun p hp => (h.parts p hp).2.1⟩⟩
  · rintro ⟨h, hshort⟩
    exact ⟨h.workshopID, h.operations, h.operations_valid, h.operations_nodup, h.mileageKm,
      badCost_eq_false.mpr h.costCents, hshort.notes, h.mechanicName, h.parts_length, fun p hp =>
        have ⟨hname, _, hquantity, hcost⟩ := h.parts p hp
        ⟨hname, hshort.parts p hp, hquantity, badCost_eq_false.mpr hcost⟩⟩

/-- `Validate` counts bytes where its messages say characters. -/
theorem validate_documented_iff (input : CreateInput) :
    (input.validate = none ↔ Documented input) ↔ (Documented input → ShortInBytes input) := by
  rw [validate_eq_none, valid_iff_documented]
  exact ⟨fun h hdoc => (h.mpr hdoc).2, fun h => ⟨fun hboth => hboth.1, fun hdoc => ⟨hdoc, h hdoc⟩⟩⟩

/-- 1001 characters in 2002 bytes. -/
def longNote : String := String.ofList (List.replicate 1001 'ã')

theorem byteLen_replicate (n : Nat) (c : Char) : byteLen (String.ofList (List.replicate n c)) = n * c.utf8Size := by
  induction n with
  | zero => simp [byteLen]
  | succ n ih => rw [List.replicate_succ, byteLen_cons, ih, Nat.succ_mul, Nat.add_comm]

theorem longNote_length : longNote.length = 1001 := String.length_ofList.trans List.length_replicate

theorem longNote_bytes : byteLen longNote = 2002 := (byteLen_replicate 1001 'ã').trans (by decide)

def accented : CreateInput where
  workshopID := ascii "w"
  plate := "ABC1D23"
  mechanicName := none
  operations := [.oilChange]
  mileageKm := 1000
  costCents := none
  notes := some longNote
  parts := []
  revisesRecordID := none
  confirmLowerMileage := false

theorem validate_not_documented : ¬ ∀ input : CreateInput, input.validate = none ↔ Documented input := by
  intro h
  have hdoc : Documented accented :=
    { workshopID := by decide
      operations := by decide
      operations_valid := by decide
      operations_nodup := by decide
      mileageKm := by decide
      costCents := by simp [accented]
      notes := by
        intro n hn
        rw [← show longNote = n from Option.some.inj hn, longNote_length]
        decide
      mechanicName := by simp [accented]
      parts_length := by decide
      parts := by simp [accented] }
  have hshort := (validate_eq_none.mp ((h accented).mpr hdoc)).notes longNote rfl
  rw [longNote_bytes] at hshort
  exact absurd hshort (by decide)

/-! ## Columns -/

/-- The call gets as far as its inserts: the record may be revised, the odometer is not lower. -/
structure Reaches (input : CreateInput) (rev : Option Revision) (d : DB) (v : VehicleRow) : Prop where
  revisable : ∀ r, rev = some r → CanRevise d r
  odometer : rev = none → input.confirmLowerMileage = false → ∀ n, d.highestMileage v.id = some n → n ≤ input.mileageKm

/-- `write` from its first insert on. -/
def inserts (P : Platform) (now : Time) (input : CreateInput) (rev : Option Revision) (v : VehicleRow) :
    Sql RecordError UUID :=
  (upsertMechanic P input.workshopID input.mechanicName).bind fun mechanicID =>
    (insertServiceRecord input now v.id mechanicID).bind fun recordID =>
      (insertOperations recordID input.operations).bind fun _ =>
        (insertParts recordID input.parts).bind fun _ => (replaceOriginal rev recordID).bind fun _ => .ret recordID

def IsSql (e : RecordError) : Prop := ∃ stmt, e = .sql stmt

theorem failsOnly_insert {α : Type} {name : Stmt} {keys : (Nat → UUID) → DB → List Key} {ok : (Nat → UUID) → DB → Bool}
    {changes : (Nat → UUID) → DB → List Change} {result : (Nat → UUID) → α} :
    (Prog.write name (.sql name) keys ok changes result : Sql RecordError α).FailsOnly IsSql :=
  Prog.failsOnly_write name ⟨name, rfl⟩ keys ok changes result

theorem failsOnly_upsertMechanic (P : Platform) (workshopID : UUID) (name : Option String) :
    (upsertMechanic P workshopID name).FailsOnly IsSql := by
  cases name with
  | none => trivial
  | some name =>
    simp only [upsertMechanic]
    split
    · trivial
    · split
      · exact ⟨.mechanicByName, rfl⟩
      · refine Prog.FailsOnly.bind (fun found => ?_) (fun _ _ => trivial)
        cases found with
        | some m => trivial
        | none => exact failsOnly_insert

theorem failsOnly_insertOperations (id : UUID) (ops : List Operation) : (insertOperations id ops).FailsOnly IsSql := by
  induction ops with
  | nil => trivial
  | cons op ops ih =>
    unfold insertOperations
    split
    · exact failsOnly_insert
    · exact Prog.FailsOnly.bind (fun _ => ih) (failsOnly_insert)

theorem failsOnly_insertParts (id : UUID) (parts : List Part) : (insertParts id parts).FailsOnly IsSql := by
  induction parts with
  | nil => trivial
  | cons part parts ih => exact Prog.FailsOnly.bind (fun _ => ih) (failsOnly_insert)

theorem failsOnly_replaceOriginal (rev : Option Revision) (id : UUID) : (replaceOriginal rev id).FailsOnly IsSql := by
  cases rev with
  | none => trivial
  | some r => exact Prog.FailsOnly.bind (fun _ => failsOnly_insert) (failsOnly_insert)

theorem failsOnly_inserts (P : Platform) (now : Time) (input : CreateInput) (rev : Option Revision) (v : VehicleRow) :
    (inserts P now input rev v).FailsOnly IsSql := by
  refine Prog.FailsOnly.bind (fun _ => ?_) (failsOnly_upsertMechanic P _ _)
  refine Prog.FailsOnly.bind (fun _ => ?_) (failsOnly_insert)
  refine Prog.FailsOnly.bind (fun _ => ?_) (failsOnly_insertOperations _ _)
  refine Prog.FailsOnly.bind (fun _ => ?_) (failsOnly_insertParts _ _)
  refine Prog.FailsOnly.bind (fun _ => ?_) (failsOnly_replaceOriginal rev _)
  trivial

theorem failsOnly_revisable (rev : Option Revision) : (revisable rev).FailsOnly fun e => ¬ IsSql e := by
  cases rev with
  | none => trivial
  | some r =>
    simp only [revisable, checkRevisable]
    split
    · rintro ⟨_, h⟩
      cases h
    · refine Prog.FailsOnly.bind (fun found => ?_) (fun _ _ => trivial)
      cases found with
      | none =>
        rintro ⟨_, h⟩
        cases h
      | some row =>
        dsimp only
        split
        · rintro ⟨_, h⟩
          cases h
        · split
          · rintro ⟨_, h⟩
            cases h
          · trivial

theorem failsOnly_odometer (input : CreateInput) (rev : Option Revision) (vehicleID : UUID) :
    (odometer input rev vehicleID).FailsOnly fun e => ¬ IsSql e := by
  unfold odometer
  split
  · refine Prog.FailsOnly.bind (fun highest => ?_) (fun _ _ => trivial)
    cases highest with
    | none => trivial
    | some h =>
      dsimp only
      split
      · rintro ⟨_, h⟩
        cases h
      · trivial
  · trivial

section
variable {P : Platform} {now : Time} {g : Generator} {input : CreateInput} {rev : Option Revision} {d : DB}
  {v : VehicleRow}

/-- A check that writes nothing passes, or fails with an error that is not of a statement. -/
theorem exec_check {p : Sql RecordError Unit} {C : Prop} (hfails : p.FailsOnly fun e => ¬ IsSql e)
    (hruns : ∀ R, p.runs DB.apply g.ids d R [] ↔ C ∧ R () []) (n : Nat) :
    (C ∧ ∃ n', p.exec DB.apply RecordError.sql g.ids d (fun _ => false) n [] = .ok ((), [], n')) ∨
      ¬ C ∧ ∃ e, ¬ IsSql e ∧ p.exec DB.apply RecordError.sql g.ids d (fun _ => false) n [] = .error e := by
  have hexec := Prog.runs_iff DB.apply RecordError.sql g.ids d (fun _ w => w = []) p n []
  rw [hruns] at hexec
  by_cases hC : C
  · obtain ⟨_, w, n', hok, rfl⟩ := hexec.mp ⟨hC, rfl⟩
    exact Or.inl ⟨hC, n', hok⟩
  · refine Or.inr ⟨hC, ?_⟩
    cases he : p.exec DB.apply RecordError.sql g.ids d (fun _ => false) n [] with
    | ok r => exact absurd ((hruns fun _ _ => True).mp
        ((Prog.runs_iff DB.apply RecordError.sql g.ids d _ p n []).mpr ⟨_, _, _, he, trivial⟩)).1 hC
    | error e => exact ⟨e, hfails.exec _ _ _ _ _ _ he, rfl⟩

theorem exec_write_reaches (hd : Schema d) (hv : d.vehicleByPlate input.plate = some v) (n : Nat) :
    (Reaches input rev d v ∧ ∃ n', (write P now input rev).exec DB.apply RecordError.sql g.ids d (fun _ => false) n [] =
        (inserts P now input rev v).exec DB.apply RecordError.sql g.ids d (fun _ => false) n' []) ∨
      ¬ Reaches input rev d v ∧ ∃ e, ¬ IsSql e ∧
        (write P now input rev).exec DB.apply RecordError.sql g.ids d (fun _ => false) n [] = .error e := by
  have hplate : DB.storable input.plate = true := (vehicleByPlate_some hv).2 ▸ hd.plateText v (vehicleByPlate_some hv).1
  rcases exec_check (g := g) (failsOnly_revisable rev) (runs_revisable rev) n with ⟨hrev, n₁, hok⟩ | ⟨hrev, e, hsql, he⟩
  · rcases exec_check (g := g) (failsOnly_odometer input rev v.id) (runs_odometer input rev v.id) (n₁ + 1) with
      ⟨hodo, n₂, hok₂⟩ | ⟨hodo, e, hsql, he⟩
    · refine Or.inl ⟨⟨hrev, hodo⟩, n₂, ?_⟩
      rw [write_eq, Prog.exec_bind, hok]
      simp only [Except.bind, Prog.exec_bind, exec_selectVehicle n₁ hplate, hv, hok₂, inserts]
    · refine Or.inr ⟨fun h => hodo h.odometer, e, hsql, ?_⟩
      rw [write_eq, Prog.exec_bind, hok]
      simp only [Except.bind, Prog.exec_bind, exec_selectVehicle n₁ hplate, hv, he]
  · refine Or.inr ⟨fun h => hrev h.revisable, e, hsql, ?_⟩
    rw [write_eq, Prog.exec_bind, he]
    rfl

theorem Storable.of_accepts (h : Accepts P now g input rev d v) : Storable input where
  mechanicName := h.mechanicText
  notes n hn := by
    have haccepts := h.record
    simp only [DB.acceptsServiceRecord, CreateInput.row, hn, Option.all_some, Bool.and_eq_true] at haccepts
    exact haccepts.2
  parts p hp := (h.parts p hp).1

/-- Once a valid input reaches its inserts, only a text that Postgres cannot store makes one fail. -/
theorem write_not_sql_iff (hd : Schema d) (hunused : g.Unused d) (hshop : d.hasWorkshop input.workshopID = true)
    (hv : d.vehicleByPlate input.plate = some v) (hvalid : input.validate = none) (n : Nat) :
    (∀ stmt, (write P now input rev).exec DB.apply RecordError.sql g.ids d (fun _ => false) n [] ≠ .error (.sql stmt)) ↔
      (Reaches input rev d v → Storable input) := by
  have hinput := validate_eq_none.mp hvalid
  rcases exec_write_reaches (P := P) (g := g) hd hv n with ⟨hreaches, n', hexec⟩ | ⟨hreaches, e, hsql, hexec⟩
  · constructor
    · intro hnot _
      cases hrun : (write P now input rev).exec DB.apply RecordError.sql g.ids d (fun _ => false) n [] with
      | ok r =>
        obtain ⟨v', -, haccepts, -⟩ := (runs_write_iff hd now g input rev fun _ _ => True).mp
          ((Prog.runs_iff DB.apply RecordError.sql g.ids d _ _ n []).mpr ⟨_, _, _, hrun, trivial⟩)
        exact .of_accepts haccepts
      | error e =>
        obtain ⟨stmt, rfl⟩ := (failsOnly_inserts P now input rev v).exec _ _ _ _ _ _ (hexec.symm.trans hrun)
        exact absurd hrun (hnot stmt)
    · intro hstorable stmt he
      have haccepts : Accepts P now g input rev d v := accepts_of_valid hd hinput (hstorable hreaches) hunused hshop hv
        hreaches.odometer hreaches.revisable
      obtain ⟨ts, n', -, hok⟩ := exec_write_accepted n hd haccepts
      rw [hok] at he
      cases he
  · refine ⟨fun _ h => absurd h hreaches, fun _ stmt he => hsql ?_⟩
    rw [hexec] at he
    exact ⟨stmt, Except.error.inj he⟩

end

/-! ## Attachments -/

/-- The call gets as far as its insert: the record is the workshop's and has room. -/
def Linkable (workshopID recordID : Bytes) (d : DB) : Prop :=
  validID recordID = true ∧ ∃ r, d.serviceRecord (canonicalID recordID) = some r ∧ r.workshopID = workshopID ∧
    (d.attachmentsOf r.id).length < maxAttachmentsPerRecord

theorem attachmentKind_columns {kind rawPhase k : String} {phase : Option String}
    (h : attachmentKind kind rawPhase = .ok (k, phase)) :
    (k == "photo" || k == "invoice") = true ∧ phase.all (fun p => p == "before" || p == "after") = true ∧
      (phase.isNone || k == "photo") = true := by
  have hphases : ∀ p, phaseParams.lookup rawPhase = some p → p = "before" ∨ p = "after" := by
    intro p hp
    obtain ⟨l, r, hsplit, -⟩ := List.lookup_eq_some_iff.mp hp
    have hmem : (rawPhase, p) ∈ phaseParams := by
      rw [hsplit]
      simp
    simp only [phaseParams, List.mem_cons, Prod.mk.injEq, List.not_mem_nil, or_false] at hmem
    exact hmem.imp And.right And.right
  have hkinds : ∀ q : String, (q != "photo" && q != "invoice") = false → (q == "photo" || q == "invoice") = true := by
    intro q hq
    by_cases hphoto : q = "photo"
    · simp [hphoto]
    · simpa [hphoto] using hq
  unfold attachmentKind at h
  extract_lets chosen at h
  split at h
  · cases h
  · next hallowed =>
    have hcolumn := hkinds chosen (Bool.not_eq_true _ ▸ hallowed)
    split at h
    · obtain ⟨rfl, rfl⟩ := Prod.mk.inj (Except.ok.inj h)
      exact ⟨hcolumn, rfl, rfl⟩
    · split at h
      · cases h
      · next p hp =>
        split at h
        · cases h
        · next honly =>
          obtain ⟨rfl, rfl⟩ := Prod.mk.inj (Except.ok.inj h)
          refine ⟨hcolumn, ?_, by simpa using honly⟩
          rcases hphases p hp with rfl | rfl <;> rfl

section
variable {g : Generator} {d : DB} {now : Time} {workshopID recordID : Bytes}

theorem addAttachment_not_sql_iff {a : Attachment} (hfresh : ∀ b ∈ d.attachments, b.id ≠ g.ids .insertAttachment 0)
    {kind rawPhase : String} (hkind : attachmentKind kind rawPhase = .ok (a.kind, a.phase)) (n : Nat) :
    (∀ stmt, (addAttachment now workshopID recordID a).exec DB.apply RecordError.sql g.ids d (fun _ => false) n [] ≠
      .error (.sql stmt)) ↔ (Linkable workshopID recordID d → DB.storable a.url = true) := by
  obtain ⟨hcolumn, hphase, honly⟩ := attachmentKind_columns hkind
  unfold addAttachment Linkable
  by_cases hid : validID recordID = true
  · simp only [hid, Bool.not_true, Bool.false_eq_true, ite_false, Prog.bind_eq, Prog.exec_bind, Prog.exec_queryForUpdate,
      List.foldl_nil, Except.bind, true_and]
    cases hr : d.serviceRecord (canonicalID recordID) with
    | none => simp [Prog.exec]
    | some r =>
      by_cases hw : r.workshopID = workshopID
      · by_cases hroom : maxAttachmentsPerRecord ≤ (d.attachmentsOf r.id).length
        · simp [hw, hroom, Prog.exec_bind, Except.bind, Prog.exec, Nat.not_lt.mpr hroom]
        · have hrow : (d.serviceRecord r.id).isSome = true := by
            rw [(serviceRecord_some hr).2, hr]
            rfl
          have hnew : (d.attachments.any fun b => b.id == g.ids .insertAttachment 0) = false := by
            simpa using hfresh
          have haccepts : d.acceptsAttachment ⟨g.ids .insertAttachment 0, r.id, a.url, a.kind, a.phase, now⟩ =
              DB.storable a.url := by
            simp only [DB.acceptsAttachment, hrow, hnew, hcolumn, hphase, honly, Bool.not_false, Bool.true_and, Bool.and_true]
          simp only [hw, ne_eq, not_true_eq_false, ite_false, Prog.exec_bind, Prog.exec_query, List.foldl_nil, Except.bind,
            ge_iff_le, hroom]
          by_cases hurl : DB.storable a.url = true
          · simp [Prog.write, Prog.exec, haccepts, hurl]
          · simp [Prog.write, Prog.exec, haccepts, hurl, hw, not_le.mp hroom]
      · simp [hw, Prog.exec]
  · simp [hid, Prog.exec]

end

/-- What `Validate` and `attachmentKind` let through is refused by no column, except
for a text that Postgres cannot store. -/
theorem insert_not_sql_iff (P : Platform) (now : Time) (g : Generator) (d : DB) (hd : Schema d) (hunused : g.Unused d)
    (hfresh : ∀ b ∈ d.attachments, b.id ≠ g.ids .insertAttachment 0) (n : Nat) :
    (∀ (msg : RecordMsg) (workshopID : Bytes) (plate : String) (revises : Option Bytes) (confirm : Bool)
      (rev : Option Revision) (v : VehicleRow), d.hasWorkshop workshopID = true → d.vehicleByPlate plate = some v →
      (msg.input workshopID plate revises confirm).validate = none →
      ((∀ stmt, (write P now (msg.input workshopID plate revises confirm) rev).exec DB.apply RecordError.sql g.ids d
          (fun _ => false) n [] ≠ .error (.sql stmt)) ↔
        (Reaches (msg.input workshopID plate revises confirm) rev d v →
          Storable (msg.input workshopID plate revises confirm)))) ∧
    (∀ (workshopID recordID : Bytes) (kind rawPhase : String) (a : Attachment),
      attachmentKind kind rawPhase = .ok (a.kind, a.phase) →
      ((∀ stmt, (addAttachment now workshopID recordID a).exec DB.apply RecordError.sql g.ids d (fun _ => false) n [] ≠
          .error (.sql stmt)) ↔
        (Linkable workshopID recordID d → DB.storable a.url = true))) :=
  ⟨fun _ _ _ _ _ _ _ hshop hv hvalid => write_not_sql_iff hd hunused hshop hv hvalid n,
    fun _ _ _ _ _ hkind => addAttachment_not_sql_iff hfresh hkind n⟩

/-! ## A note with a NUL -/

theorem sameID_unused : sameID.Unused garage.db where
  record := by decide
  mechanic := by decide
  attachments := nofun
  distinct i hi := absurd hi (Nat.not_lt_zero i)

def noted (notes : String) : RecordMsg := ⟨none, [1], 1000, none, some notes, []⟩

theorem noted_stored : ((noted "troca de óleo").input (uuid "1") "ABC1D23" none false).validate = none ∧
    ∀ stmt, (write plain 0 ((noted "troca de óleo").input (uuid "1") "ABC1D23" none false) none).exec DB.apply
      RecordError.sql sameID.ids garage.db (fun _ => false) 0 [] ≠ .error (.sql stmt) := by
  have hvalid : ((noted "troca de óleo").input (uuid "1") "ABC1D23" none false).validate = none := by decide
  have hiff := (insert_not_sql_iff plain 0 sameID garage.db garage.schema sameID_unused nofun 0).1
    (noted "troca de óleo") (uuid "1") "ABC1D23" none false none
    ⟨uuid "3", "ABC1D23", "9C2KC1670ER000001", "Honda", "CG 160", 2024, none⟩ (by decide) (by decide) hvalid
  exact ⟨hvalid, hiff.mpr fun _ => ⟨nofun, fun m hm => by obtain rfl := Option.some.inj hm; decide, nofun⟩⟩

theorem nul_not_stored : ¬ ∀ (P : Platform) (now : Time) (g : Generator) (d : DB) (msg : RecordMsg) (workshopID : Bytes)
    (plate : String), Schema d → g.Unused d → d.hasWorkshop workshopID = true → (d.vehicleByPlate plate).isSome = true →
    (msg.input workshopID plate none false).validate = none →
    ∀ stmt, (write P now (msg.input workshopID plate none false) none).exec DB.apply RecordError.sql g.ids d
      (fun _ => false) 0 [] ≠ .error (.sql stmt) := by
  intro h
  exact h plain 0 sameID garage.db (noted "a\x00b") (uuid "1") "ABC1D23" garage.schema sameID_unused (by decide)
    (by decide) (by decide) .insertServiceRecord rfl

end Mototeca
