import Mototeca.Revisions

/-!
# The attachment cap

`AddAttachment` counts and inserts in two statements, and `Revise` copies
without counting. The lock on the record keeps the count true until the insert,
and a correction starts with the attachments of one record.
-/

namespace Mototeca

open ReadCommitted

/-- An upload inserts one row, into a record that has room for it. -/
def Fits (q : Request) (_ : Reply) (σ : SqlLocal) (d : DB) : Prop :=
  match q.call with
  | .upload _ => ∃ recordID row, σ.changes = [.insertAttachment row] ∧ row.serviceRecordID = canonicalID recordID ∧
      HasRoom recordID σ d
  | _ => True

def DB.Capped (d : DB) : Prop := ∀ id, (d.attachmentsOf id).length ≤ maxAttachmentsPerRecord

section
variable {P : Platform} {q : Request} {a : Reply} {σ : SqlLocal} {d : DB}

theorem Fits.stable {d' : DB} (h : Fits q a σ d) (hr : Keeps σ.held d d') (hi : Schema d') : Fits q a σ d' := by
  unfold Fits at h ⊢
  split at h
  · obtain ⟨recordID, row, hc, hid, hroom⟩ := h
    exact ⟨recordID, row, hc, hid, (persistent_hasRoom recordID).rely _ _ _ hroom hr hi⟩
  · trivial

theorem wp_fits (P : Platform) (q : Request) (d : DB) : wp DB.apply pg (Fits q) (serve P q) .start d := by
  obtain ⟨subject, now, call⟩ := q
  cases call with
  | upload req =>
    unfold serve
    refine wp_withSession fun workshopID _ => wp_then (wp_upload P rfl now workshopID req) ?_
    intro stored σ d ⟨recordID, kind, phase, _, hattaches, hroom⟩
    exact wp_ret ⟨recordID, _, hattaches.changes, rfl, hroom⟩
  | _ => exact wp_mono (fun _ _ _ _ => trivial) _ _ _ (wp_serve P _ d)

theorem server_fits (P : Platform) : Discipline (server P) pg fun q a σ d => Done P q a σ d ∧ Fits q a σ d :=
  (server_discipline P).and (fun q d _ => wp_fits P q d) fun _ _ _ _ _ h hr hi => h.stable hr hi

theorem length_carriedRows (ids : Nat → UUID) (id : UUID) (rows : List AttachmentRow) :
    (carriedRows ids id rows).length = rows.length := by
  simp [carriedRows]

/-- A correction has the attachments of the record it replaces, and no others. -/
theorem Writes.capped {now : Time} {input : CreateInput} {rev : Option Revision} {w : Written}
    (h : Writes now input rev w σ d) (hd : Schema d) (hcap : d.Capped) : (σ.changes.foldl DB.apply d).Capped := by
  intro id
  have hview : (w.changes.foldl DB.apply d).attachments = d.attachments ++ (w.replaced.elim [] (·.2)) := by
    rw [w.view d]
  rw [h.changes, DB.attachmentsOf, hview, List.filter_append]
  cases hrep : w.replaced with
  | none =>
    rw [Option.elim_none, List.filter_nil, List.append_nil]
    exact hcap id
  | some p =>
    obtain ⟨original, rows⟩ := p
    obtain ⟨-, ids, -, -, -, hrows, -⟩ := h.original hrep
    by_cases hid : id = w.record.id
    · have hall : rows.filter (·.serviceRecordID == id) = rows :=
        List.filter_eq_self.mpr fun b hb => by
          rw [hrows] at hb
          simp [carriedRows_recordID b hb, hid]
      have hnone : d.attachments.filter (·.serviceRecordID == id) = [] := by
        rw [hid]
        exact hd.fresh_attachmentsOf h.fresh.2.1
      rw [Option.elim_some, hall, hnone, List.nil_append, hrows, length_carriedRows]
      exact hcap original
    · have hnone : rows.filter (·.serviceRecordID == id) = [] :=
        List.filter_eq_nil_iff.mpr fun b hb => by
          rw [hrows] at hb
          simpa [carriedRows_recordID b hb] using Ne.symm hid
      rw [Option.elim_some, hnone, List.append_nil]
      exact hcap id

theorem Fits.capped {req : UploadRequest} (h : Fits q a σ d) (hq : q.call = .upload req) (hcap : d.Capped) :
    (σ.changes.foldl DB.apply d).Capped := by
  unfold Fits at h
  simp only [hq] at h
  obtain ⟨recordID, row, hc, hid, -, hroom⟩ := h
  intro id
  rw [hc, List.foldl_cons, List.foldl_nil, attachmentsOf_insert, List.length_append]
  by_cases hrow : row.serviceRecordID = id
  · rw [← hrow, hid, if_pos rfl]
    exact hroom
  · rw [if_neg hrow]
    exact hcap id

theorem Done.capped (h : Done P q a σ d) (hfits : Fits q a σ d) (hd : Schema d) (hcap : d.Capped) :
    (σ.changes.foldl DB.apply d).Capped := by
  cases h with
  | create session writes => exact writes.capped hd hcap
  | revise session found writes => exact writes.capped hd hcap
  | upload session form attaches => exact hfits.capped rfl hcap
  | register registers =>
    rw [registers.changes]
    exact hcap
  | claim session plate suffix claims =>
    rw [claims.changes]
    exact hcap
  | release session releases =>
    rw [releases.changes]
    exact hcap

end

/-- In every state of every run no record has more attachments than the cap. -/
theorem attachments_capped (P : Platform) (init : Installed) (es : List ServerEvent) :
    ∀ id, ((serverRun P init.toSoundDB es).db.attachmentsOf id).length ≤ maxAttachmentsPerRecord := by
  refine run_history (server_fits P) (J := fun _ d => d.Capped)
    (fun _ _ _ _ _ hd h hcap => h.1.capped h.2 hd hcap) es (good_init init.schema) fun id => ?_
  have hnone : init.db.serviceRecord id = none := by
    rw [DB.serviceRecord, init.noRecords]
    rfl
  rw [Machine.init, init.schema.fresh_attachmentsOf hnone]
  exact Nat.zero_le _

end Mototeca
