import Mototeca.AppendOnly
import Mototeca.ServerSound

/-!
# The history is append-only

Each commit of the server is one step of an append-only list: a create begins a
chain, a revision points the end of one at its correction, and no other call
touches the records.
-/

namespace Mototeca

open ReadCommitted AppendOnly
open StateTransition (Reaches)
open Chain (SameChain)

/-! ## Records as nodes -/

/-- A correction keeps the vehicle and the workshop of what it corrects. -/
def ServiceRecordRow.node (r : ServiceRecordRow) : Node UUID (UUID × UUID) :=
  ⟨r.id, (r.vehicleID, r.workshopID), r.supersededBy⟩

def DB.nodes (d : DB) : List (Node UUID (UUID × UUID)) := d.serviceRecords.map (·.node)

def DB.successor (d : DB) (id : UUID) : Option UUID := (d.serviceRecord id).bind (·.supersededBy)

theorem succ_nodes (d : DB) : succ d.nodes = d.successor := by
  funext id
  have hid : ((fun n : Node UUID (UUID × UUID) => decide (n.id = id)) ∘ fun r => r.node) =
      fun r : ServiceRecordRow => r.id == id := by
    funext r
    rw [Bool.eq_iff_iff]
    simp [ServiceRecordRow.node]
  rw [succ, DB.nodes, List.find?_map, hid, Option.bind_map]
  rfl

theorem node_supersede (original new : UUID) (r : ServiceRecordRow) :
    (supersede original new r).node = point original new r.node := by
  by_cases h : r.id = original
  · simp [supersede, point, ServiceRecordRow.node, h]
  · simp [supersede, point, ServiceRecordRow.node, h]

def creates (q : Request) : Bool :=
  match q.call with
  | .createServiceRecord _ => true
  | _ => false

section
variable {P : Platform} {q : Request} {a : Reply} {σ : SqlLocal} {d : DB}

theorem fresh_node {id : UUID} (h : d.serviceRecord id = none) : ∀ n ∈ d.nodes, n.id ≠ id := by
  intro n hn
  obtain ⟨r, hr, rfl⟩ := List.mem_map.mp hn
  exact serviceRecord_none.mp h r hr

theorem Writes.create_nodes {now : Time} {input : CreateInput} {w : Written} (h : Writes now input none w σ d) :
    Step true d.nodes (σ.changes.foldl DB.apply d).nodes := by
  have hv : (σ.changes.foldl DB.apply d).nodes =
      d.nodes ++ [⟨w.record.id, (w.record.vehicleID, w.record.workshopID), none⟩] := by
    rw [h.changes, w.view, h.create rfl]
    simp [DB.nodes, ServiceRecordRow.node, h.supersededBy]
  rw [hv]
  exact .create _ _ (fresh_node h.fresh.2.1)

theorem Writes.revise_nodes {now : Time} {input : CreateInput} {r : Revision} {w : Written} {o : ServiceRecordRow}
    (h : Writes now input (some r) w σ d) (ho : d.serviceRecord (canonicalID r.recordID) = some o)
    (hl : (w.record.vehicleID, w.record.workshopID) = (o.vehicleID, o.workshopID)) :
    Step false d.nodes (σ.changes.foldl DB.apply d).nodes := by
  obtain ⟨⟨o', ho', -, -, hcur⟩, ids, hrep⟩ := h.revise r rfl
  obtain rfl : o' = o := Option.some.inj (ho'.symm.trans ho)
  obtain ⟨hm, hid⟩ := serviceRecord_some ho
  have hne : w.record.id ≠ o'.id := fun e => serviceRecord_none.mp h.fresh.2.1 o' hm e.symm
  have hnew : (supersede o'.id w.record.id w.record).node = ⟨w.record.id, o'.node.label, none⟩ := by
    rw [supersede_of_ne hne, ServiceRecordRow.node, hl, h.supersededBy]
    rfl
  have hold : (d.serviceRecords.map (supersede o'.id w.record.id)).map (·.node) =
      d.nodes.map (point o'.node.id w.record.id) := by
    simp only [DB.nodes, List.map_map, Function.comp_def, node_supersede]
    rfl
  have hv : (σ.changes.foldl DB.apply d).nodes =
      d.nodes.map (point o'.node.id w.record.id) ++ [⟨w.record.id, o'.node.label, none⟩] := by
    rw [h.changes, w.view, hrep, ← hid]
    simp only [DB.nodes, List.map_append, List.map_cons, List.map_nil, hold, hnew]
  rw [hv]
  exact .replace o'.node _ (fresh_node h.fresh.2.1) (List.mem_map_of_mem hm) hcur

/-- The correction is of the same vehicle: plates are unique and never change. -/
theorem revised_vehicleID {id : Bytes} {original : ServiceRecord} {w : Written} {o : ServiceRecordRow} (hd : Schema d)
    (hf : Identifies id original σ d) (ho : d.serviceRecord (canonicalID id) = some o)
    (hp : HasPlate w.record.vehicleID original.vehicle.plate σ d) : w.record.vehicleID = o.vehicleID := by
  obtain ⟨-, r, v, hr, -, hv, hpl⟩ := hf
  obtain ⟨v', hv', hpl'⟩ := hp
  obtain rfl : r = o := Option.some.inj (hr.symm.trans ho)
  obtain ⟨hm, hid⟩ := vehicle_some hv
  obtain ⟨hm', hid'⟩ := vehicle_some hv'
  rw [← hid, ← hid', hd.vehicle_eq_of_plate hm hm' (hpl.trans hpl'.symm)]

/-- Every commit is a step of the append-only list. -/
theorem Done.nodes (h : Done P q a σ d) (hd : Schema d) :
    Step (creates q) d.nodes (σ.changes.foldl DB.apply d).nodes := by
  cases h with
  | create session writes => exact writes.create_nodes
  | revise session found writes =>
    obtain ⟨⟨o, ho, -, hws, -⟩, -⟩ := writes.revise _ rfl
    refine writes.revise_nodes ho ?_
    rw [revised_vehicleID hd found ho writes.vehicle, writes.workshopID, hws]
    rfl
  | upload session form attaches => rw [attaches.changes]; exact .idle _
  | register registers => rw [registers.changes]; exact .idle _
  | claim session plate suffix claims => rw [claims.changes]; exact .idle _
  | release session releases => rw [releases.changes]; exact .idle _

end

/-! ## Chains of records -/

structure RevisionChains (d : DB) (creates : Nat) : Prop where
  injective : ∀ r ∈ d.serviceRecords, ∀ r' ∈ d.serviceRecords, ∀ n, r.supersededBy = some n →
    r'.supersededBy = some n → r = r'
  acyclic : ∀ id, ¬ Relation.TransGen (fun a b => b ∈ d.successor a) id id
  linear : ∀ a b, SameChain d.successor a b → Reaches d.successor a b ∨ Reaches d.successor b a
  vehicle : ∀ r ∈ d.serviceRecords, ∀ r' ∈ d.serviceRecords,
    SameChain d.successor r.id r'.id → r.vehicleID = r'.vehicleID
  workshop : ∀ r ∈ d.serviceRecords, ∀ r' ∈ d.serviceRecords, SameChain d.successor r.id r'.id →
    r.workshopID = r'.workshopID
  current : ∀ r ∈ d.serviceRecords,
    ∃! h, h ∈ d.serviceRecords ∧ SameChain d.successor r.id h.id ∧ h.supersededBy = none
  count : (d.serviceRecords.filter fun r => r.supersededBy.isNone).length = creates
  predecessor : ∀ id, (d.serviceRecords.filter (·.supersededBy == some id)).length ≤ 1

theorem length_le_one {α : Type} {l : List α} (hn : l.Nodup) (h : ∀ a ∈ l, ∀ b ∈ l, a = b) : l.length ≤ 1 := by
  rcases l with _ | ⟨a, _ | ⟨b, l⟩⟩
  · exact Nat.zero_le 1
  · exact Nat.le_refl 1
  · have hab : a = b := h a (by simp) b (by simp)
    simp [hab] at hn

theorem RevisionChains.of_inv {d : DB} {n : Nat} (hd : Schema d) (h : Inv d.nodes n) : RevisionChains d n := by
  have mem : ∀ {r}, r ∈ d.serviceRecords → r.node ∈ d.nodes := fun hr => List.mem_map_of_mem hr
  have hinj : ∀ r ∈ d.serviceRecords, ∀ r' ∈ d.serviceRecords, ∀ n, r.supersededBy = some n →
      r'.supersededBy = some n → r = r' :=
    fun r hr r' hr' n hn hn' => hd.record_eq hr hr' (hd.supersededOnce r hr r' hr' n hn hn')
  have hsucc := succ_nodes d
  refine ⟨hinj, fun id => ?_, fun a b hs => ?_, fun r hr r' hr' hs => ?_, fun r hr r' hr' hs => ?_, fun r hr => ?_, ?_,
    fun id => ?_⟩
  · rw [← hsucc]
    exact h.acyclic id
  · rw [← hsucc] at hs ⊢
    exact h.linear hs
  · rw [← hsucc] at hs
    exact congrArg Prod.fst (h.label_eq (mem hr) (mem hr') hs)
  · rw [← hsucc] at hs
    exact congrArg Prod.snd (h.label_eq (mem hr) (mem hr') hs)
  · obtain ⟨t, ⟨ht, hs, hlast⟩, huniq⟩ := h.existsUnique_last (mem hr)
    obtain ⟨c, hc, rfl⟩ := List.mem_map.mp ht
    rw [hsucc] at hs huniq
    refine ⟨c, ⟨hc, hs, hlast⟩, fun c' ⟨hc', hs', hlast'⟩ => ?_⟩
    exact hd.record_eq hc' hc (congrArg Node.id (huniq c'.node ⟨mem hc', hs', hlast'⟩))
  · rw [← h.count, DB.nodes, List.filter_map, List.length_map]
    rfl
  · have hnodup : (d.serviceRecords.filter (·.supersededBy == some id)).Nodup :=
      (List.Nodup.of_map _ hd.recordIDs).filter _
    have heq : ∀ r ∈ d.serviceRecords.filter (·.supersededBy == some id),
        ∀ r' ∈ d.serviceRecords.filter (·.supersededBy == some id), r = r' := by
      intro r hr r' hr'
      simp only [List.mem_filter, beq_iff_eq] at hr hr'
      exact hinj r hr.1 r' hr'.1 id hr.2 hr'.2
    exact length_le_one hnodup heq

/-! ## Nothing is edited -/

/-- What every later state keeps of the records of `d`. -/
structure Extends (d d' : DB) : Prop where
  records : ∀ r ∈ d.serviceRecords, ∃ n, { r with supersededBy := n } ∈ d'.serviceRecords ∧
    (r.supersededBy ≠ none → n = r.supersededBy)
  operations : ∀ r ∈ d.serviceRecords, d'.operations.filter (·.serviceRecordID == r.id) =
    d.operations.filter (·.serviceRecordID == r.id)
  parts : ∀ r ∈ d.serviceRecords, d'.parts.filter (·.serviceRecordID == r.id) =
    d.parts.filter (·.serviceRecordID == r.id)

theorem Extends.refl (d : DB) : Extends d d :=
  ⟨fun r hr => ⟨r.supersededBy, hr, fun _ => rfl⟩, fun _ _ => rfl, fun _ _ => rfl⟩

theorem Extends.trans {d d' d'' : DB} (h : Extends d d') (h' : Extends d' d'') : Extends d d'' := by
  refine ⟨fun r hr => ?_, fun r hr => ?_, fun r hr => ?_⟩
  · obtain ⟨n, hn, hs⟩ := h.records r hr
    obtain ⟨n', hn', hs'⟩ := h'.records _ hn
    exact ⟨n', hn', superseded_trans hs hs'⟩
  · obtain ⟨n, hn, -⟩ := h.records r hr
    exact (h'.operations _ hn).trans (h.operations r hr)
  · obtain ⟨n, hn, -⟩ := h.records r hr
    exact (h'.parts _ hn).trans (h.parts r hr)

theorem Done.extends {P : Platform} {q : Request} {a : Reply} {σ : SqlLocal} {d : DB} (h : Done P q a σ d)
    (hd : Schema d) : Extends d (σ.changes.foldl DB.apply d) := by
  have hkeep := h.keeps hd
  have records : ∀ r ∈ d.serviceRecords,
      ∃ n, { r with supersededBy := n } ∈ (σ.changes.foldl DB.apply d).serviceRecords ∧
        (r.supersededBy ≠ none → n = r.supersededBy) := by
    intro r hr
    obtain ⟨n, hn, hs⟩ := hkeep.records _ _ (hd.serviceRecord_of_mem hr)
    exact ⟨n, (serviceRecord_some hn).1, hs⟩
  have writes : ∀ {now input rev w}, Writes now input rev w σ d → Extends d (σ.changes.foldl DB.apply d) := by
    intro now input rev w hw
    have hne : ∀ r ∈ d.serviceRecords, (w.record.id == r.id) = false := fun r hr =>
      beq_eq_false_iff_ne.mpr fun e => serviceRecord_none.mp hw.fresh.2.1 r hr e.symm
    refine ⟨records, fun r hr => ?_, fun r hr => ?_⟩
    · rw [hw.changes, w.view, List.filter_append]
      simp [List.filter_map, Function.comp_def, hne r hr]
    · rw [hw.changes, w.view, List.filter_append]
      simp [List.filter_map, Function.comp_def, Part.row, hne r hr]
  cases h with
  | create session h => exact writes h
  | revise session found h => exact writes h
  | upload session form h =>
    exact ⟨records, by rw [h.changes]; exact fun _ _ => rfl, by rw [h.changes]; exact fun _ _ => rfl⟩
  | register h =>
    exact ⟨records, by rw [h.changes]; exact fun _ _ => rfl, by rw [h.changes]; exact fun _ _ => rfl⟩
  | claim session plate suffix h =>
    exact ⟨records, by rw [h.changes]; exact fun _ _ => rfl, by rw [h.changes]; exact fun _ _ => rfl⟩
  | release session h =>
    exact ⟨records, by rw [h.changes]; exact fun _ _ => rfl, by rw [h.changes]; exact fun _ _ => rfl⟩

/-! ## Every run -/

/-- A database before its first record: workshops, owners and vehicles. -/
structure Installed extends SoundDB where
  noRecords : db.serviceRecords = []

def createCount (log : List Commit) : Nat := log.countP fun e => creates e.req

theorem run_inv (P : Platform) (init : Installed) (es : List ServerEvent) :
    Inv (serverRun P init.toSoundDB es).db.nodes (createCount (serverRun P init.toSoundDB es).log) := by
  refine run_history (server_discipline P) (J := fun log d => Inv d.nodes (createCount log))
    (fun log d q a σ hd h hJ => ?_) es (good_init init.schema) ?_
  · have hs := (h.nodes hd).inv hJ
    have hc : createCount (⟨q, a, σ.changes, σ.seen⟩ :: log) = createCount log + (creates q).toNat := by
      rw [createCount, List.countP_cons]
      cases creates q <;> rfl
    rw [hc]
    exact hs
  · simp only [Machine.init, DB.nodes, init.noRecords]
    exact inv_nil

theorem run_extends (P : Platform) (es : List ServerEvent) {s : ServerState} (hg : Good (server P) pg (Done P) s) :
    Extends s.db ((server P).run s es).db :=
  run_history (server_discipline P) (J := fun _ d => Extends s.db d)
    (fun _ _ _ _ _ hd h hJ => hJ.trans (h.extends hd)) es hg (Extends.refl _)

/-- In every run the records form chains of corrections, one current record to each
committed create, and later events only add to them. -/
theorem revisions_append_only (P : Platform) (init : Installed) (es later : List ServerEvent) :
    let s := serverRun P init.toSoundDB es
    RevisionChains s.db (createCount s.log) ∧ Extends s.db ((server P).run s later).db := by
  have hg := serverRun_good P init.toSoundDB es
  exact ⟨.of_inv hg.inv (run_inv P init es), run_extends P later hg⟩

end Mototeca
