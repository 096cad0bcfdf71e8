import Mototeca.Revisions

/-!
# What happens to an accepted file

A revision copies the attachments of the record it replaces. A file accepted
for a record that is still current is on the current record of the chain from
then on; one accepted for a record already replaced is on no current record.
-/

namespace Mototeca

open ReadCommitted
open StateTransition (Reaches)

def insertedAttachments (w : List Change) : List AttachmentRow :=
  w.filterMap fun c => match c with
    | .insertAttachment a => some a
    | _ => none

def uploaded (e : Commit) : List AttachmentRow :=
  match e.req.call with
  | .upload _ => insertedAttachments e.changes
  | _ => []

def Carried (d : DB) (a : AttachmentRow) : Prop :=
  ∃ r ∈ d.serviceRecords, Reaches d.successor a.serviceRecordID r.id ∧ r.supersededBy = none ∧
    ∃ b ∈ d.attachmentsOf r.id, b.url = a.url ∧ b.kind = a.kind ∧ b.phase = a.phase

def NothingVanished (s : ServerState) : Prop := ∀ e ∈ s.log, ∀ a ∈ uploaded e, Carried s.db a

/-- The record was not superseded yet when `AddAttachment` locked it. -/
def AttachedToCurrent (e : Commit) : Prop :=
  ∀ a ∈ uploaded e, ∀ p ∈ e.seen, p.1 = Stmt.lockAttached → ∀ r ∈ p.2.serviceRecord a.serviceRecordID,
    r.supersededBy = none

instance (e : Commit) : Decidable (AttachedToCurrent e) :=
  inferInstanceAs (Decidable (∀ a ∈ uploaded e, ∀ p ∈ e.seen, _ → ∀ r ∈ p.2.serviceRecord a.serviceRecordID, _))

section
variable {P : Platform} {q : Request} {a : Reply} {σ : SqlLocal} {d : DB}

theorem mem_carriedRows (ids : Nat → UUID) (id : UUID) {rows : List AttachmentRow} {b : AttachmentRow}
    (hb : b ∈ rows) :
    ∃ b' ∈ carriedRows ids id rows, b'.url = b.url ∧ b'.kind = b.kind ∧ b'.phase = b.phase := by
  rw [← List.zipIdx_map_fst 0 rows] at hb
  obtain ⟨p, hp, rfl⟩ := List.mem_map.mp hb
  exact ⟨_, List.mem_map_of_mem hp, rfl, rfl, rfl⟩

theorem keeps_successor {d' : DB} (h : Keeps (fun _ => False) d d') {x y : UUID} (hy : y ∈ d.successor x) :
    y ∈ d'.successor x := by
  rw [DB.successor, Option.mem_def, Option.bind_eq_some_iff] at hy
  obtain ⟨r, hr, hs⟩ := hy
  obtain ⟨n, hn, heq⟩ := h.records x r hr
  have hrn : n = r.supersededBy := heq (by rw [hs]; nofun)
  simp [DB.successor, hn, hrn, hs]

/-- What becomes of a current record at a commit: it stays current with its
attachments, or its correction has copies of them. -/
def Continues (d d' : DB) (r : ServiceRecordRow) : Prop :=
  (r ∈ d'.serviceRecords ∧ ∀ b ∈ d.attachmentsOf r.id, b ∈ d'.attachmentsOf r.id) ∨
  ∃ r' ∈ d'.serviceRecords, r'.id ∈ d'.successor r.id ∧ r'.supersededBy = none ∧
    ∀ b ∈ d.attachmentsOf r.id, ∃ b' ∈ d'.attachmentsOf r'.id, b'.url = b.url ∧ b'.kind = b.kind ∧ b'.phase = b.phase

theorem Continues.of_records {d' : DB} (hkeep : Keeps (fun _ => False) d d') {r : ServiceRecordRow}
    (hr : r ∈ d'.serviceRecords) : Continues d d' r := by
  refine Or.inl ⟨hr, fun b hb => ?_⟩
  obtain ⟨hb, hid⟩ := mem_attachmentsOf.mp hb
  exact mem_attachmentsOf.mpr ⟨hkeep.attached b hb, hid⟩

theorem Writes.continues {now : Time} {input : CreateInput} {rev : Option Revision} {w : Written}
    (h : Writes now input rev w σ d) (hd : Schema d) (hkeep : Keeps (fun _ => False) d (σ.changes.foldl DB.apply d))
    {r : ServiceRecordRow} (hr : r ∈ d.serviceRecords) : Continues d (σ.changes.foldl DB.apply d) r := by
  have hview := w.view d
  rw [← h.changes] at hview
  cases hrep : w.replaced with
  | none =>
    refine .of_records hkeep ?_
    rw [hview, hrep]
    exact List.mem_append_left _ hr
  | some p =>
    obtain ⟨original, rows⟩ := p
    obtain ⟨rev', ids, o, -, -, hrows, ho, -, -, -⟩ := h.original hrep
    have hne : w.record.id ≠ original := fun e => by
      have h0 := h.fresh.2.1
      rw [e, ho] at h0
      cases h0
    by_cases hid : r.id = original
    · have hnew : w.record ∈ (d.serviceRecords ++ [w.record]).map (supersede original w.record.id) :=
        List.mem_map.mpr ⟨w.record, by simp, supersede_of_ne hne⟩
      have hold : d.serviceRecord r.id = some r := hd.serviceRecord_of_mem hr
      refine Or.inr ⟨w.record, ?_, ?_, h.supersededBy, fun b hb => ?_⟩
      · rw [hview, hrep]
        exact hnew
      · have hfind : (σ.changes.foldl DB.apply d).serviceRecord r.id = some (supersede original w.record.id r) := by
          rw [hview, hrep, DB.serviceRecord]
          simp only [List.find?_map, Function.comp_def, supersede_id, List.find?_append]
          rw [show d.serviceRecords.find? (fun x => x.id == r.id) = some r from hold]
          rfl
        rw [DB.successor, Option.mem_def, hfind, Option.bind_some]
        simp [supersede, hid]
      · rw [hid] at hb
        obtain ⟨b', hb', hsame⟩ := mem_carriedRows ids w.record.id hb
        refine ⟨b', mem_attachmentsOf.mpr ⟨?_, carriedRows_recordID b' hb'⟩, hsame⟩
        rw [hview, hrep, hrows]
        exact List.mem_append_right _ hb'
    · refine .of_records hkeep ?_
      rw [hview, hrep]
      exact List.mem_map.mpr ⟨r, List.mem_append_left _ hr, supersede_of_ne hid⟩

theorem Done.continues (h : Done P q a σ d) (hd : Schema d) {r : ServiceRecordRow} (hr : r ∈ d.serviceRecords) :
    Continues d (σ.changes.foldl DB.apply d) r := by
  have hkeep := h.keeps hd
  cases h with
  | create session writes => exact writes.continues hd hkeep hr
  | revise session found writes => exact writes.continues hd hkeep hr
  | upload session form attaches => exact .of_records hkeep (by rw [attaches.changes]; exact hr)
  | register registers => exact .of_records hkeep (by rw [registers.changes]; exact hr)
  | claim session plate suffix claims => exact .of_records hkeep (by rw [claims.changes]; exact hr)
  | release session releases => exact .of_records hkeep (by rw [releases.changes]; exact hr)

theorem Carried.commit {row : AttachmentRow} (hc : Carried d row) (h : Done P q a σ d) (hd : Schema d) :
    Carried (σ.changes.foldl DB.apply d) row := by
  have hkeep := h.keeps hd
  obtain ⟨r, hr, hreach, hcur, b, hb, hu, hk, hp⟩ := hc
  have hreach' : Reaches (σ.changes.foldl DB.apply d).successor row.serviceRecordID r.id :=
    Chain.reaches_mono (fun x y hy => keeps_successor hkeep hy) hreach
  rcases h.continues hd hr with ⟨hr', hatt⟩ | ⟨r', hr', hnext, hcur', hatt⟩
  · exact ⟨r, hr', hreach', hcur, b, hatt b hb, hu, hk, hp⟩
  · obtain ⟨b', hb', hu', hk', hp'⟩ := hatt b hb
    exact ⟨r', hr', hreach'.tail hnext, hcur', b', hb', hu'.trans hu, hk'.trans hk, hp'.trans hp⟩

theorem Done.carried (h : Done P q a σ d) (hc : AttachedToCurrent ⟨q, a, σ.changes, σ.seen⟩) :
    ∀ row ∈ uploaded ⟨q, a, σ.changes, σ.seen⟩, Carried (σ.changes.foldl DB.apply d) row := by
  intro row hrow
  cases h with
  | upload session form attaches =>
    have hcurrent := hc row hrow
    rename_i now req workshopID recordID kind phase stored
    obtain ⟨r, hr, -⟩ := attaches.record
    obtain ⟨v, hv, hvr⟩ := attaches.locked
    obtain ⟨hm, hid⟩ := serviceRecord_some hr
    obtain rfl : row = ⟨stored.id, canonicalID recordID, req.url, kind, phase, now⟩ := by
      simpa [uploaded, attaches.changes, insertedAttachments] using hrow
    refine ⟨r, by rw [attaches.changes]; exact hm, ?_, hcurrent _ hv rfl r (hvr.trans hr), ?_⟩
    · rw [hid]
      exact .refl
    · refine ⟨_, mem_attachmentsOf.mpr ⟨?_, hid.symm⟩, rfl, rfl, rfl⟩
      rw [attaches.changes]
      exact List.mem_append_right _ (List.mem_singleton.mpr rfl)
  | _ => cases hrow

end

theorem carried_of_current (P : Platform) (init : SoundDB) (es : List ServerEvent) :
    ∀ e ∈ (serverRun P init es).log, AttachedToCurrent e → ∀ a ∈ uploaded e, Carried (serverRun P init es).db a := by
  refine run_history (server_discipline P)
    (J := fun log d => ∀ e ∈ log, AttachedToCurrent e → ∀ a ∈ uploaded e, Carried d a)
    (fun log d q a σ hd h hJ e he hc row hrow => ?_) es (good_init init.schema) (by simp [Machine.init])
  rcases List.mem_cons.mp he with rfl | he
  · exact h.carried hc row hrow
  · exact (hJ e he hc row hrow).commit h hd

/-- In a run where every file was attached to a record then current, none has vanished. -/
theorem nothingVanished_of_current (P : Platform) (init : SoundDB) (es : List ServerEvent)
    (h : ∀ e ∈ (serverRun P init es).log, AttachedToCurrent e) : NothingVanished (serverRun P init es) :=
  fun e he => carried_of_current P init es e he (h e he)

/-! ## A file before and after a correction -/

def reviseRequest (workshop record : String) (mileageKm : Int) : Request :=
  ⟨some ⟨.workshop, uuid workshop⟩, 0, .reviseServiceRecord ⟨⟨none, [1], mileageKm, none, none, []⟩, uuid record⟩⟩

def uploadRequest (workshop record : String) : Request :=
  ⟨some ⟨.workshop, uuid workshop⟩, 0, .upload ⟨uuid record, "photo", "", "/uploads/a.jpg"⟩⟩

def alone (t : Nat) (q : Request) (n : Nat) (id : String) : List ServerEvent :=
  .begin t q :: (List.replicate n (.exec t fun _ => uuid id) ++ [.commit t])

def createRecord : List ServerEvent := alone 0 (createRequest "1" 50000 false) 4 "7"

def uploadThenRevise : List ServerEvent :=
  createRecord ++ alone 1 (uploadRequest "1" "7") 7 "9" ++ alone 2 (reviseRequest "1" "7" 51000) 10 "8"

def reviseThenUpload : List ServerEvent :=
  createRecord ++ alone 1 (reviseRequest "1" "7" 51000) 10 "8" ++ alone 2 (uploadRequest "1" "7") 7 "9"

theorem uploadThenRevise_keeps : NothingVanished (serverRun plain garage uploadThenRevise) :=
  nothingVanished_of_current plain garage uploadThenRevise (by decide +kernel)

theorem reviseThenUpload_vanishes : ¬ NothingVanished (serverRun plain garage reviseThenUpload) := by
  intro h
  have hlost : ∀ r ∈ (serverRun plain garage reviseThenUpload).db.serviceRecords, r.supersededBy = none →
      (serverRun plain garage reviseThenUpload).db.attachmentsOf r.id = [] := by decide +kernel
  have hup : ∃ e ∈ (serverRun plain garage reviseThenUpload).log, uploaded e ≠ [] := by decide +kernel
  obtain ⟨e, he, hne⟩ := hup
  obtain ⟨a, ha⟩ := List.exists_mem_of_ne_nil _ hne
  obtain ⟨r, hr, -, hcur, b, hb, -⟩ := h e he a ha
  rw [hlost r hr hcur] at hb
  cases hb

end Mototeca
