import Mototeca.Loading
import Mototeca.OrderedQuery
import Mototeca.ServerSound

/-!
# Loading many records at once

`hydrate` reads the children of a whole list in three queries and deals their
rows out through a map of pointers. Each record gets what three queries about
it alone would give, whatever order the server has for equal keys.
-/

namespace Mototeca

open ReadCommitted OrderedQuery

/-! ## A server -/

/-- The answers of one server to the queries of `hydrate`. -/
structure HydrateServer (P : Platform) where
  operations : List UUID → DB → List OperationRow
  parts : List UUID → DB → List PartRow
  attachments : List UUID → DB → List AttachmentRow
  orders_operations : ∀ ids d, Answers (fun a b => a.type.rank ≤ b.type.rank)
    (d.operations.filter fun o => ids.contains o.serviceRecordID) (operations ids d)
  orders_parts : ∀ ids d, Answers (fun a b => P.collate a.name b.name = true)
    (d.parts.filter fun p => ids.contains p.serviceRecordID) (parts ids d)
  orders_attachments : ∀ ids d, Answers (fun a b => a.createdAt ≤ b.createdAt)
    (d.attachments.filter fun a => ids.contains a.serviceRecordID) (attachments ids d)

variable {P : Platform}

def hydrateBy (server : HydrateServer P) (records : List ServiceRecord) : Sql RecordError (List ServiceRecord) :=
  if records.isEmpty then .ret records
  else do
    let ids := records.map (·.id)
    let opRows ← Prog.query .selectOperations (server.operations ids)
    let records ← eachRow addOperation opRows records
    let partRows ← Prog.query .selectParts (server.parts ids)
    let records ← eachRow addPart partRows records
    let attachmentRows ← Prog.query .selectAttachments (server.attachments ids)
    eachRow addAttachmentRow attachmentRows records

/-- The server that leaves equal keys in the order of the tables. -/
def stableServer (htotal : ∀ a b, P.collate a b = true ∨ P.collate b a = true)
    (htrans : ∀ a b c, P.collate a b = true → P.collate b c = true → P.collate a c = true) : HydrateServer P where
  operations ids d :=
    (d.operations.filter fun o => ids.contains o.serviceRecordID).insertionSort fun a b => a.type.rank ≤ b.type.rank
  parts ids d :=
    (d.parts.filter fun p => ids.contains p.serviceRecordID).insertionSort fun a b => P.collate a.name b.name
  attachments ids d :=
    (d.attachments.filter fun a => ids.contains a.serviceRecordID).insertionSort fun a b => a.createdAt ≤ b.createdAt
  orders_operations _ _ :=
    answers_insertionSort (fun a b : OperationRow => a.type.rank ≤ b.type.rank) (fun _ _ => Nat.le_total _ _)
      (fun _ _ _ => Nat.le_trans) _
  orders_parts _ _ :=
    answers_insertionSort (fun a b : PartRow => P.collate a.name b.name = true) (fun _ _ => htotal _ _)
      (fun _ _ _ => htrans _ _ _) _
  orders_attachments _ _ :=
    answers_insertionSort (fun a b : AttachmentRow => a.createdAt ≤ b.createdAt) (fun _ _ => Int.le_total _ _)
      (fun _ _ _ => Int.le_trans) _

theorem hydrate_eq (htotal : ∀ a b, P.collate a b = true ∨ P.collate b a = true)
    (htrans : ∀ a b c, P.collate a b = true → P.collate b c = true → P.collate a c = true) :
    hydrate P = hydrateBy (stableServer htotal htrans) := rfl

/-! ## Dealing rows out -/

section
variable {β : Type} {target : β → UUID × (ServiceRecord → ServiceRecord)}

theorem updateIndexed_of_notMem {id : UUID} {f : ServiceRecord → ServiceRecord} {records : List ServiceRecord}
    (h : id ∉ records.map (·.id)) : updateIndexed id f records = none := by
  induction records with
  | nil => rfl
  | cons r records ih =>
    rw [List.map_cons, List.mem_cons, not_or] at h
    simp [updateIndexed, ih h.2, Ne.symm h.1]

theorem updateIndexed_of_mem {id : UUID} {f : ServiceRecord → ServiceRecord} {records : List ServiceRecord}
    (hids : (records.map (·.id)).Nodup) (hid : id ∈ records.map (·.id)) :
    updateIndexed id f records = some (records.map fun r => if r.id = id then f r else r) := by
  induction records with
  | nil => simp at hid
  | cons r records ih =>
    rw [List.map_cons, List.nodup_cons] at hids
    by_cases hr : r.id = id
    · have hrest : id ∉ records.map (·.id) := hr ▸ hids.1
      have hsame : records.map (fun r => if r.id = id then f r else r) = records := by
        refine (List.map_congr_left fun r' hr' => ?_).trans (List.map_id _)
        have hne : r'.id ≠ id := fun h => hrest (h ▸ List.mem_map_of_mem hr')
        exact if_neg hne
      simp [updateIndexed, updateIndexed_of_notMem hrest, hr, hsame]
    · have hrest : id ∈ records.map (·.id) := by
        rw [List.map_cons, List.mem_cons] at hid
        exact hid.resolve_left (Ne.symm hr)
      simp [updateIndexed, ih hids.2 hrest, hr]

/-- The rows of one record, dealt to it alone. -/
def dealt (target : β → UUID × (ServiceRecord → ServiceRecord)) (rows : List β) (r : ServiceRecord) : ServiceRecord :=
  (rows.filter fun b => (target b).1 == r.id).foldl (fun r b => (target b).2 r) r

/-- By induction on the rows: each goes to the one record with its id, and
leaves the ids as they are. -/
theorem eachRow_dealt (hkeeps : ∀ b r, ((target b).2 r).id = r.id) (rows : List β) : ∀ {records : List ServiceRecord},
    (records.map (·.id)).Nodup → (∀ b ∈ rows, (target b).1 ∈ records.map (·.id)) →
      eachRow target rows records = .ret (records.map (dealt target rows)) := by
  induction rows with
  | nil =>
    intro records _ _
    exact congrArg Prog.ret (List.map_id records).symm
  | cons b rows ih =>
    intro records hids hrows
    have hid : ∀ r : ServiceRecord, (if r.id = (target b).1 then (target b).2 r else r).id = r.id := by
      intro r
      by_cases hr : r.id = (target b).1
      · rw [if_pos hr, hkeeps]
      · rw [if_neg hr]
    have hsame : (records.map fun r => if r.id = (target b).1 then (target b).2 r else r).map (·.id) =
        records.map (·.id) := by
      rw [List.map_map]
      exact List.map_congr_left fun r _ => hid r
    rw [eachRow, updateIndexed_of_mem hids (hrows b (by simp))]
    simp only
    rw [ih (by rw [hsame]; exact hids) fun b' hb' => by rw [hsame]; exact hrows b' (List.mem_cons_of_mem _ hb'),
      List.map_map]
    congr 1
    refine List.map_congr_left fun r _ => ?_
    simp only [Function.comp, dealt, hid]
    by_cases hr : r.id = (target b).1
    · simp [hr]
    · simp [hr, Ne.symm hr]

theorem foldl_id (hkeeps : ∀ b r, ((target b).2 r).id = r.id) (rows : List β) : ∀ r : ServiceRecord,
    (rows.foldl (fun r b => (target b).2 r) r).id = r.id := by
  induction rows with
  | nil => exact fun _ => rfl
  | cons b rows ih =>
    intro r
    rw [List.foldl_cons, ih, hkeeps]

variable (target) in
theorem map_dealt_ids (hkeeps : ∀ b r, ((target b).2 r).id = r.id) (rows : List β) (records : List ServiceRecord) :
    (records.map (dealt target rows)).map (·.id) = records.map (·.id) := by
  rw [List.map_map]
  exact List.map_congr_left fun r _ => foldl_id hkeeps _ r

end

/-! ## Each record with its own rows -/

/-- What the queries about `r` alone give it, on the states they see. -/
structure Loads (P : Platform) (d₁ d₂ d₃ : DB) (r r' : ServiceRecord) : Prop where
  rest : r' = { r with operations := r'.operations, parts := r'.parts, attachments := r'.attachments }
  operations : ∃ rows, Answers (fun a b => a.type.rank ≤ b.type.rank) (d₁.operationsOf r.id) rows ∧
    r'.operations = rows.map fun o => ⟨o.type.label⟩
  parts : ∃ rows, Answers (fun a b => P.collate a.name b.name = true) (d₂.partsOf r.id) rows ∧
    r'.parts = rows.map fun p => ⟨p.name, p.quantity, p.costCents⟩
  attachments : ∃ rows, Answers (fun a b => a.createdAt ≤ b.createdAt) (d₃.attachmentsOf r.id) rows ∧
    r'.attachments = rows.map fun a => ⟨a.id, a.url, a.kind, a.phase⟩

structure Bare (r : ServiceRecord) : Prop where
  operations : r.operations = []
  parts : r.parts = []
  attachments : r.attachments = []

theorem scanned_bare {d : DB} {rows : List ServiceRecordRow} : ∀ {records : List ServiceRecord},
    d.selectRecords rows = some records → ∀ r ∈ records, Bare r := by
  induction rows with
  | nil =>
    intro records h r hr
    obtain rfl := Option.some.inj h
    cases hr
  | cons row rows ih =>
    intro records h
    rw [DB.selectRecords] at h
    split at h
    · split at h
      · next hrest =>
        obtain rfl := Option.some.inj h
        intro r hr
        rcases List.mem_cons.mp hr with rfl | hr
        · exact ⟨rfl, rfl, rfl⟩
        · exact ih hrest r hr
      · cases h
    · exact ih h

/-- The rows with one id among those with any of the ids. -/
theorem answers_own {β : Type} {key : β → UUID} {le : β → β → Prop} {rows answer : List β} {ids : List UUID} {id : UUID}
    (h : Answers le (rows.filter fun b => ids.contains (key b)) answer) (hid : id ∈ ids) :
    Answers le (rows.filter (key · == id)) (answer.filter (key · == id)) := by
  have hown := h.filter (key · == id)
  rw [List.filter_filter] at hown
  have hsame : rows.filter (fun b => (key b == id) && ids.contains (key b)) = rows.filter (key · == id) := by
    refine List.filter_congr fun b _ => ?_
    by_cases hb : key b = id
    · simp [hb, hid]
    · simp [hb]
  rwa [hsame] at hown

section
variable (server : HydrateServer P) (records : List ServiceRecord)

def loaded (d₁ d₂ d₃ : DB) (r : ServiceRecord) : ServiceRecord :=
  let ids := records.map (·.id)
  dealt addAttachmentRow (server.attachments ids d₃)
    (dealt addPart (server.parts ids d₂) (dealt addOperation (server.operations ids d₁) r))

variable {records} (hids : (records.map (·.id)).Nodup)
include hids

/-- Every row that a query answers has the id of a record. -/
theorem eachRow_answer {β : Type} {target : β → UUID × (ServiceRecord → ServiceRecord)} {le : β → β → Prop}
    (hkeeps : ∀ b r, ((target b).2 r).id = r.id) {rows answer : List β}
    (h : Answers le (rows.filter fun b => (records.map (·.id)).contains (target b).1) answer) :
    eachRow target answer records = .ret (records.map (dealt target answer)) := by
  refine eachRow_dealt hkeeps answer hids fun b hb => ?_
  rw [h.mem_iff, List.mem_filter, List.contains_iff_mem] at hb
  exact hb.2

theorem hydrateBy_eq (hne : records.isEmpty = false) :
    hydrateBy server records =
      .stmt .selectOperations (fun _ _ => []) (fun _ _ => []) fun _ d₁ =>
        .stmt .selectParts (fun _ _ => []) (fun _ _ => []) fun _ d₂ =>
          .stmt .selectAttachments (fun _ _ => []) (fun _ _ => []) fun _ d₃ =>
            .ret (records.map (loaded server records d₁ d₂ d₃)) := by
  have hkeep₁ := map_dealt_ids addOperation (fun _ _ => rfl)
  have hkeep₂ := map_dealt_ids addPart (fun _ _ => rfl)
  simp only [hydrateBy, hne, Bool.false_eq_true, ite_false, Prog.bind_eq, Prog.query, Prog.bind]
  congr 1
  funext _ d₁
  rw [eachRow_answer hids (fun _ _ => rfl) (server.orders_operations _ d₁)]
  simp only [Prog.bind]
  congr 1
  funext _ d₂
  have hids₁ := hids
  rw [← hkeep₁ (server.operations (records.map (·.id)) d₁)] at hids₁
  rw [eachRow_answer hids₁ (fun _ _ => rfl) (by rw [hkeep₁]; exact server.orders_parts _ d₂)]
  simp only [Prog.bind]
  congr 1
  funext _ d₃
  have hids₂ := hids₁
  rw [← hkeep₂ (server.parts (records.map (·.id)) d₂)] at hids₂
  rw [eachRow_answer hids₂ (fun _ _ => rfl) (by rw [hkeep₂, hkeep₁]; exact server.orders_attachments _ d₃),
    List.map_map, List.map_map]
  rfl

omit hids in
theorem loaded_eq {r : ServiceRecord} (hbare : Bare r) (d₁ d₂ d₃ : DB) :
    loaded server records d₁ d₂ d₃ r = { r with
      operations := ((server.operations (records.map (·.id)) d₁).filter (·.serviceRecordID == r.id)).map fun o =>
        ⟨o.type.label⟩
      parts := ((server.parts (records.map (·.id)) d₂).filter (·.serviceRecordID == r.id)).map fun p =>
        ⟨p.name, p.quantity, p.costCents⟩
      attachments := ((server.attachments (records.map (·.id)) d₃).filter (·.serviceRecordID == r.id)).map fun a =>
        ⟨a.id, a.url, a.kind, a.phase⟩ } := by
  have hops (rows r) : dealt addOperation rows r = _ := foldl_addOperation _ r
  have hparts (rows r) : dealt addPart rows r = _ := foldl_addPart _ r
  have hattachments (rows r) : dealt addAttachmentRow rows r = _ := foldl_addAttachmentRow _ r
  simp only [loaded, hops, hparts, hattachments, hbare.operations, hbare.parts, hbare.attachments, List.nil_append]
  rfl

omit hids in
theorem loads_loaded {r : ServiceRecord} (hr : r ∈ records) (hbare : Bare r) (d₁ d₂ d₃ : DB) :
    Loads P d₁ d₂ d₃ r (loaded server records d₁ d₂ d₃ r) := by
  have hid : r.id ∈ records.map (·.id) := List.mem_map_of_mem hr
  rw [loaded_eq server hbare]
  exact {
    rest := rfl
    operations := ⟨_, answers_own (server.orders_operations _ d₁) hid, rfl⟩
    parts := ⟨_, answers_own (server.orders_parts _ d₂) hid, rfl⟩
    attachments := ⟨_, answers_own (server.orders_attachments _ d₃) hid, rfl⟩ }

end

/-- Batch hydration is loading one record at a time: each statement may see
another state, and none of its rows is for a record that is not in the list. -/
theorem hydrate_per_record (server : HydrateServer P) {d : DB} {rows : List ServiceRecordRow}
    {records : List ServiceRecord} (hscan : d.selectRecords rows = some records)
    (hids : (records.map (·.id)).Nodup) (o : Stmt → Nat → UUID) (ds : Nat → DB) (n : Nat) :
    (∃ records' n', (hydrateBy server records).execAt DB.apply RecordError.sql o ds (fun _ => false) n [] =
        .ok (records', [], n') ∧
      List.Forall₂ (Loads P (ds n) (ds (n + 1)) (ds (n + 2))) records records') ∧
    (hydrateBy server records).FailsOnly fun _ => False := by
  by_cases hne : records.isEmpty = true
  · obtain rfl := List.isEmpty_iff.mp hne
    exact ⟨⟨[], n, rfl, .nil⟩, trivial⟩
  rw [hydrateBy_eq server hids (by simpa using hne)]
  refine ⟨⟨_, n + 3, rfl, ?_⟩, fun _ _ _ _ _ _ => trivial⟩
  rw [List.forall₂_map_right_iff, List.forall₂_same]
  exact fun r hr => loads_loaded server hr (scanned_bare hscan r hr) _ _ _

/-! ## Three records -/

def codePoints : Platform := { plain with collate := fun a b => decide (a ≤ b) }

theorem codePoints_total (a b : String) : codePoints.collate a b = true ∨ codePoints.collate b a = true := by
  rw [codePoints, decide_eq_true_iff, decide_eq_true_iff]
  exact String.le_total a b

theorem codePoints_trans (a b c : String) (hab : codePoints.collate a b = true) (hbc : codePoints.collate b c = true) :
    codePoints.collate a c = true := by
  rw [codePoints, decide_eq_true_iff] at *
  exact String.le_trans hab hbc

def codePointServer : HydrateServer codePoints := stableServer codePoints_total codePoints_trans

def historyRow (id : String) (createdAt : Time) : ServiceRecordRow :=
  ⟨uuid id, uuid "3", uuid "1", none, 100, none, none, none, createdAt⟩

/-- The record 8 has no children. -/
def historyDB : DB :=
  { garage.db with
    serviceRecords := [historyRow "6" 0, historyRow "7" 1, historyRow "8" 2]
    operations := [⟨uuid "6", .brakes⟩, ⟨uuid "7", .oilChange⟩, ⟨uuid "6", .oilChange⟩]
    parts := [⟨uuid "7", "Vela", 1, none⟩, ⟨uuid "6", "Filtro", 1, none⟩, ⟨uuid "7", "Cabo", 2, none⟩]
    attachments := [⟨uuid "4", uuid "6", "a", "photo", none, 5⟩] }

def historyRecords : List ServiceRecord :=
  historyDB.serviceRecords.map fun row =>
    ⟨row.id, row.workshopID, ⟨"ABC1D23", "Honda", "CG 160", 2024⟩, "Oficina A", none, [], row.mileageKm, none, none,
      [], [], row.createdAt, none, none⟩

theorem history_per_record :
    (∃ records' n', (hydrateBy codePointServer historyRecords).execAt DB.apply RecordError.sql (fun _ _ => uuid "9")
        (fun _ => historyDB) (fun _ => false) 0 [] = .ok (records', [], n') ∧
      List.Forall₂ (Loads codePoints historyDB historyDB historyDB) historyRecords records') ∧
    (hydrateBy codePointServer historyRecords).FailsOnly fun _ => False :=
  hydrate_per_record codePointServer (show historyDB.selectRecords historyDB.serviceRecords = some historyRecords by rfl)
    (by decide) (fun _ _ => uuid "9") (fun _ => historyDB) 0

end Mototeca
