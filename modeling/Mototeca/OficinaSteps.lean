import Mototeca.Oficina

/-!
# What a step of the app does

Each event of `Oficina.step` with what its task stands at and the state after
it, one constructor for each way the source can go.
-/

namespace Mototeca.Mobile

open ServiceRecordRepository

namespace Oficina

variable (dart : Dart) (s : Oficina)

/-! ## Outbox.flush -/

inductive Resumed (i : Nat) : Oficina → Prop where
  | list {left sent failed} (hf : s.flushes[i]? = some ⟨.ensured, left, sent, failed⟩) :
      Resumed i (s.setFlush i ⟨.ready, s.outbox.drafts, sent, failed⟩)
  | finish {sent failed} (hf : s.flushes[i]? = some ⟨.ready, [], sent, failed⟩) :
      Resumed i (s.setFlush i ⟨.finished, [], sent, failed⟩)
  | take {draft left sent failed} (hf : s.flushes[i]? = some ⟨.ready, draft :: left, sent, failed⟩) :
      Resumed i (s.sendDraft dart i ⟨.ready, draft :: left, sent, failed⟩ draft left)
  | attached {draft record left sent failed}
      (hf : s.flushes[i]? = some ⟨.attaching draft record [], left, sent, failed⟩) :
      Resumed i (s.setFlush i ⟨.removing draft, left, sent, failed⟩)
  | attach {draft record a files left sent failed}
      (hf : s.flushes[i]? = some ⟨.attaching draft record (a :: files), left, sent, failed⟩) :
      Resumed i (s.sendFile i ⟨.attaching draft record (a :: files), left, sent, failed⟩ draft record a files)

inductive FlushAnswered (i : Nat) (answer : Option Answer) (now : DateTime) : Oficina → Prop where
  | created {draft r left sent failed session created}
      (hf : s.flushes[i]? = some ⟨.creating draft r, left, sent, failed⟩)
      (heard : s.hear dart r answer = some { s with session })
      (hrecord : record dart now (answer.map (·.response)) = .ok created) :
      FlushAnswered i answer now (({ s with session }).setFlush i
        ⟨.attaching draft created (uploads dart draft.attachments), left, sent, failed⟩)
  | refused {draft r left sent failed session thrown}
      (hf : s.flushes[i]? = some ⟨.creating draft r, left, sent, failed⟩)
      (heard : s.hear dart r answer = some { s with session })
      (hrecord : record dart now (answer.map (·.response)) = .error thrown) :
      FlushAnswered i answer now (({ s with session }).setFlush i ⟨.ready, left, sent, failed + 1⟩)
  | uploaded {draft record r files left sent failed session}
      (hf : s.flushes[i]? = some ⟨.uploading draft record r files, left, sent, failed⟩)
      (heard : s.hear dart r answer = some { s with session }) :
      FlushAnswered i answer now (({ s with session }).setFlush i
        ⟨.attaching draft record files, left, sent, failed⟩)

/-- The query of a flush's load: `again`, `done` and `threw` are where it goes on. -/
inductive DiskLoaded (i : Nat) (ok : Bool) (load : Load) (again : Load → Flush) (done threw : Flush) :
    Oficina → Prop where
  | again {next} (hok : ok = true) (hload : load.step dart s.db = .ok (.inl next)) :
      DiskLoaded i ok load again done threw (s.setFlush i (again next))
  | done {drafts} (hok : ok = true) (hload : load.step dart s.db = .ok (.inr drafts)) :
      DiskLoaded i ok load again done threw (({ s with outbox := .ofLoad drafts }).setFlush i done)
  | threw : DiskLoaded i ok load again done threw (s.setFlush i threw)

inductive DiskDone (i : Nat) (ok : Bool) (s' : Oficina) : Prop where
  | ensuring {load left sent failed} (hf : s.flushes[i]? = some ⟨.ensuring load, left, sent, failed⟩)
      (hload : s.DiskLoaded dart i ok load (⟨.ensuring ·, left, sent, failed⟩) ⟨.ensured, left, sent, failed⟩
        ⟨.threw, left, sent, failed⟩ s')
  | removed {draft left sent failed} (hf : s.flushes[i]? = some ⟨.removing draft, left, sent, failed⟩)
      (hok : ok = true)
      (hs' : s' = ({ s with db := s.db.delete draft.id, removed := draft.id :: s.removed }).setFlush i
        ⟨.reloading .drafts, left, sent, failed⟩)
  | notRemoved {draft left sent failed} (hf : s.flushes[i]? = some ⟨.removing draft, left, sent, failed⟩)
      (hok : ok = false) (hs' : s' = s.setFlush i ⟨.ready, left, sent, failed + 1⟩)
  | reloading {load left sent failed} (hf : s.flushes[i]? = some ⟨.reloading load, left, sent, failed⟩)
      (hload : s.DiskLoaded dart i ok load (⟨.reloading ·, left, sent, failed⟩) ⟨.ready, left, sent + 1, failed⟩
        ⟨.ready, left, sent, failed + 1⟩ s')

/-! ## The other tasks -/

inductive LoadStepped (j : Nat) (ok : Bool) : Oficina → Prop where
  | next {reason load next} (hj : s.loads[j]? = some (reason, some load)) (hok : ok = true)
      (hload : load.step dart s.db = .ok (.inl next)) :
      LoadStepped j ok { s with loads := s.loads.set j (reason, some next) }
  | ended {reason load} (outbox : Outbox) (hj : s.loads[j]? = some (reason, some load))
      (hload : ok = true → ∀ next, load.step dart s.db ≠ .ok (.inl next)) :
      LoadStepped j ok { s with loads := s.loads.set j (reason, none), outbox }

inductive Saved (screen : NewRecord) (now : DateTime) : Oficina → Prop where
  | queued {db} (hsession : s.session.isNone = true) (hadd : s.db.add dart (screen.outboxDraft dart now) = some db) :
      Saved screen now (({ s with db }).startLoad .add)
  | revising {original} (hsession : s.session.isNone = false) (hrevising : screen.revising = some original) :
      Saved screen now ((s.startSave ⟨screen.plate, screen.draft, screen.files, .revising s.requests.length⟩).sendRequest
        (.screen s.saves.length) (revise s.session original screen.draft.fields))
  | creating {vehicle : VehicleSummary} (hsession : s.session.isNone = false) (hrevising : screen.revising = none)
      (hvehicle : screen.vehicle = some vehicle) :
      Saved screen now ((s.startSave ⟨vehicle.plate, screen.draft, screen.files, .finished⟩).sendCreate dart
        s.saves.length ⟨vehicle.plate, screen.draft, screen.files, .finished⟩ false)

inductive Replied (k : Nat) (yes mounted : Bool) : Oficina → Prop where
  | sent {save} (hs : s.saves[k]? = some save) (hasking : save.phase = .asking) (hyes : yes = true)
      (hmounted : mounted = true) :
      Replied k yes mounted (({ s with confirmed := k :: s.confirmed }).sendCreate dart k save true)
  | gone {save} (hs : s.saves[k]? = some save) (hasking : save.phase = .asking) (hyes : yes = true)
      (hmounted : mounted = false) :
      Replied k yes mounted (({ s with confirmed := k :: s.confirmed }).setSave k { save with phase := .finished })
  | cancelled {save} (hs : s.saves[k]? = some save) (hasking : save.phase = .asking) (hyes : yes = false) :
      Replied k yes mounted (s.setSave k { save with phase := .finished })

inductive SaveAnswered (k : Nat) : Oficina → Prop where
  | upload {save session record} (files : List OutboxAttachment) :
      SaveAnswered k (({ s with session }).uploadScreen k save record files)
  | ended {save session} : SaveAnswered k (({ s with session }).setSave k save)

inductive Processed (r : Nat) (creates : Bool) : Oficina → Prop where
  | refused {sent} (hr : s.requests[r]? = some sent) (hnew : r ∉ s.created) (hcreates : creates = false) :
      Processed r creates { s with refused := r :: s.refused }
  | created {sent} (hr : s.requests[r]? = some sent) (hnew : r ∉ s.created) (hcreates : creates = true)
      (hpath : (sent.request.path == createPath || sent.request.path == revisePath) = true) :
      Processed r creates { s with created := r :: s.created }

/-! ## The cases -/

section
variable {dart s} {s' : Oficina} {i j k r : Nat} {answer : Option Answer} {now : DateTime} {ok mounted : Bool}

theorem hear_eq (h : s.hear dart r answer = some s') : s' = { s with session := s'.session } := by
  unfold hear at h
  cases hr : s.requests[r]? with
  | none => simp [hr] at h
  | some sent =>
    simp only [hr] at h
    split at h
    · cases h
    · split at h
      · cases h
        rfl
      · cases h
        rfl

theorem resume_cases (h : s.resume dart i = some s') : s.Resumed dart i s' := by
  unfold resume at h
  cases hf : s.flushes[i]? with
  | none => simp [hf] at h
  | some flush =>
    obtain ⟨phase, left, sent, failed⟩ := flush
    simp only [hf] at h
    cases phase with
    | ensured =>
      cases h
      exact .list hf
    | ready =>
      cases left with
      | nil =>
        cases h
        exact .finish hf
      | cons draft left =>
        cases h
        exact .take hf
    | attaching draft record files =>
      cases files with
      | nil =>
        cases h
        exact .attached hf
      | cons a files =>
        cases h
        exact .attach hf
    | _ => cases h

theorem flushAnswer_cases (h : s.flushAnswer dart i answer now = some s') : s.FlushAnswered dart i answer now s' := by
  unfold flushAnswer at h
  cases hf : s.flushes[i]? with
  | none => simp [hf] at h
  | some flush =>
    obtain ⟨phase, left, sent, failed⟩ := flush
    simp only [hf] at h
    cases phase with
    | creating draft r =>
      obtain ⟨t, ht, rfl⟩ := Option.map_eq_some_iff.mp h
      have heard := ht
      rw [hear_eq ht] at heard ⊢
      cases hrecord : record dart now (answer.map (·.response)) with
      | ok created => exact .created hf heard hrecord
      | error thrown => exact .refused hf heard hrecord
    | uploading draft record r files =>
      obtain ⟨t, ht, rfl⟩ := Option.map_eq_some_iff.mp h
      have heard := ht
      rw [hear_eq ht] at heard ⊢
      exact .uploaded hf heard
    | _ => cases h

theorem diskLoad_cases (flush : Flush) (load : Load) (again : Load → FlushPhase) (done threw : Flush) :
    s.DiskLoaded dart i ok load (fun load => { flush with phase := again load }) done threw
      (s.diskLoad dart i flush ok load again done threw) := by
  unfold diskLoad
  split
  · next hok =>
    split
    · next hload => exact .again hok hload
    · next hload => exact .done hok hload
    · exact .threw
  · exact .threw

theorem disk_cases (h : s.disk dart i ok = some s') : s.DiskDone dart i ok s' := by
  unfold disk at h
  cases hf : s.flushes[i]? with
  | none => simp [hf] at h
  | some flush =>
    obtain ⟨phase, left, sent, failed⟩ := flush
    simp only [hf] at h
    cases phase with
    | ensuring load =>
      cases h
      exact .ensuring hf (diskLoad_cases ⟨.ensuring load, left, sent, failed⟩ load .ensuring _ _)
    | removing draft =>
      cases ok with
      | true =>
        cases h
        exact .removed hf rfl rfl
      | false =>
        cases h
        exact .notRemoved hf rfl rfl
    | reloading load =>
      cases h
      exact .reloading hf (diskLoad_cases ⟨.reloading load, left, sent, failed⟩ load .reloading _ _)
    | _ => cases h

theorem loadStep_cases (h : s.loadStep dart j ok = some s') : s.LoadStepped dart j ok s' := by
  unfold loadStep at h
  split at h
  case h_2 => cases h
  case h_1 reason load hj =>
    dsimp only at h
    split at h
    · next hok =>
      split at h
      · next hload =>
        cases h
        exact .next hj hok hload
      · next hload =>
        cases h
        exact .ended _ hj fun _ next hnext => by rw [hload] at hnext; cases hnext
      · next hload =>
        cases h
        exact .ended s.outbox hj fun _ next hnext => by rw [hload] at hnext; cases hnext
    · next hok =>
      cases h
      exact .ended s.outbox hj fun h => absurd h hok

theorem save_cases {screen : NewRecord} (h : s.save dart screen now = some s') : s.Saved dart screen now s' := by
  unfold save at h
  dsimp only at h
  split at h
  · cases h
  · cases hsession : s.session.isNone with
    | true =>
      rw [hsession, if_pos rfl] at h
      obtain ⟨db, hadd, rfl⟩ := Option.map_eq_some_iff.mp h
      exact .queued hsession hadd
    | false =>
      rw [hsession, if_neg Bool.false_ne_true] at h
      split at h
      · next hrevising =>
        cases h
        exact .revising hsession hrevising
      · next hrevising hvehicle =>
        cases h
        exact .creating hsession hrevising hvehicle
      · cases h

theorem reply_cases {yes : Bool} (h : s.reply dart k yes mounted = some s') : s.Replied dart k yes mounted s' := by
  unfold reply at h
  cases hs : s.saves[k]? with
  | none => simp [hs] at h
  | some save =>
    simp only [hs] at h
    split at h
    · next hasking =>
      cases yes with
      | true =>
        cases mounted with
        | true =>
          cases h
          exact .sent hs hasking rfl rfl
        | false =>
          cases h
          exact .gone hs hasking rfl rfl
      | false =>
        cases h
        exact .cancelled hs hasking rfl
    · cases h

theorem saveAnswered_of_hear {f : Oficina → Oficina} (hf : ∀ session, s.SaveAnswered k (f { s with session }))
    (h : (s.hear dart r answer).map f = some s') : s.SaveAnswered k s' := by
  obtain ⟨t, ht, rfl⟩ := Option.map_eq_some_iff.mp h
  rw [hear_eq ht]
  exact hf t.session

theorem saveAnswer_cases (h : s.saveAnswer dart k answer mounted now = some s') : s.SaveAnswered k s' := by
  unfold saveAnswer at h
  cases hs : s.saves[k]? with
  | none => simp [hs] at h
  | some save =>
    simp only [hs] at h
    split at h
    · refine saveAnswered_of_hear (fun session => ?_) h
      split
      · split
        · exact .upload _
        · exact .ended
      · exact .ended
    · refine saveAnswered_of_hear (fun session => ?_) h
      split
      · split
        · exact .upload _
        · exact .ended
      · exact .ended
    · exact saveAnswered_of_hear (fun session => .upload _) h
    · cases h

theorem api_cases {creates : Bool} (h : s.api r creates = some s') : s.Processed r creates s' := by
  unfold api at h
  cases hr : s.requests[r]? with
  | none => simp [hr] at h
  | some sent =>
    simp only [hr] at h
    split at h
    · cases h
    · next hnew =>
      have hnew : r ∉ s.created := by
        simp only [Bool.or_eq_true, List.contains_iff_mem] at hnew
        exact fun hmem => hnew (Or.inl hmem)
      cases creates with
      | false =>
        cases h
        exact .refused hr hnew rfl
      | true =>
        simp only [Bool.not_true, Bool.false_eq_true, ite_false] at h
        split at h
        · next hpath =>
          cases h
          exact .created hr hnew rfl hpath
        · cases h

end

end Oficina

end Mototeca.Mobile
