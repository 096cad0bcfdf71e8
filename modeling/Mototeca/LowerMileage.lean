import Mototeca.OficinaSteps
import Mototeca.Runs

/-!
# Confirming a lower mileage

`_create` sends `confirmLowerMileage` after the mechanic said yes. `flush`
sends it with every draft, and `_queue` asks nothing, so the flag means a yes
exactly in the runs in which no flush comes to a draft. (A session that ends
takes the app back to home, so no screen that has asked saves to the queue.)
-/

namespace Mototeca.Mobile

open ServiceRecordRepository

/-! ## The flag on the wire -/

theorem lookup_entry {key k : String} (h : (k == key) = false) (value : Option Json) :
    (entry key value).lookup k = none := by
  cases value with
  | none => rfl
  | some v => simp [entry, List.lookup_cons, h]

theorem lookup_fields (fields : Fields) : fields.toJson.lookup "confirmLowerMileage" = none := by
  have hparts : (if fields.parts.isEmpty then [] else [("parts", Json.list (fields.parts.map Part.toJson))]).lookup
      "confirmLowerMileage" = none := by
    split
    · rfl
    · simp [List.lookup_cons]
  simp only [Fields.toJson, textEntry, List.lookup_append,
    lookup_entry (show ("confirmLowerMileage" == "notes") = false by decide),
    lookup_entry (show ("confirmLowerMileage" == "costCents") = false by decide),
    lookup_entry (show ("confirmLowerMileage" == "mechanicName") = false by decide), hparts, Option.or_none]
  simp [List.lookup_cons]

theorem confirms_create (dart : Dart) (token : Option String) (plate : String) (fields : Fields) (flag : Bool) :
    (create dart token plate fields flag).confirmsLowerMileage = flag := by
  have hplate : [("plate", Json.string (normalizePlate dart plate))].lookup "confirmLowerMileage" = none := by
    simp [List.lookup_cons]
  simp only [HttpRequest.confirmsLowerMileage, create, beq_self_eq_true, Bool.true_and, List.lookup_append, hplate,
    lookup_fields, Option.none_or]
  cases flag <;> rfl

theorem confirms_revise (token : Option String) (recordId : String) (fields : Fields) :
    (revise token recordId fields).confirmsLowerMileage = false := by
  have hpath : (revisePath == createPath) = false := by decide +kernel
  simp [HttpRequest.confirmsLowerMileage, revise, hpath]

theorem confirms_upload (token : Option String) (recordId kind : String) (phase : Option String)
    (filename contentType : String) (bytes : Bytes) :
    (uploadAttachment token recordId kind phase filename contentType bytes).confirmsLowerMileage = false :=
  Bool.and_false _

/-! ## What a step sends -/

namespace Oficina

variable (dart : Dart) (s : Oficina)

/-- The flag of a request stands for the mechanic's yes to the same save. -/
def approves (sent : Sent) : Bool :=
  !sent.request.confirmsLowerMileage ||
    match sent.origin with
    | .screen k => s.confirmed.contains k
    | _ => false

def Confirmed : Prop := ∀ sent ∈ s.requests, s.approves sent = true

def sendsDraft : Event → Bool
  | .resume i =>
    match s.flushes[i]? with
    | some ⟨.ready, _ :: _, _, _⟩ => true
    | _ => false
  | _ => false

variable {dart s} {s' : Oficina}

theorem approves_mono {sent : Sent} (hc : s.confirmed ⊆ s'.confirmed) (h : s.approves sent = true) :
    s'.approves sent = true := by
  unfold approves at h ⊢
  cases hf : sent.request.confirmsLowerMileage with
  | false => rfl
  | true =>
    rw [hf] at h
    cases ho : sent.origin with
    | screen k =>
      simp only [ho, Bool.not_true, Bool.false_or, List.contains_iff_mem] at h ⊢
      exact hc h
    | _ => simp [ho] at h

theorem approves_of_unflagged {sent : Sent} (h : sent.request.confirmsLowerMileage = false) :
    s.approves sent = true := by
  simp [approves, h]

structure Sends (s s' : Oficina) : Prop where
  confirmed : s.confirmed ⊆ s'.confirmed
  requests : ∃ new, s'.requests = s.requests ++ new ∧ ∀ sent ∈ new, s'.approves sent = true

theorem Sends.nothing (hr : s'.requests = s.requests) (hc : s'.confirmed = s.confirmed) : Sends s s' :=
  ⟨by rw [hc]; exact List.Subset.refl _, [], by simp [hr], by simp⟩

theorem Sends.one {sent : Sent} (hr : s'.requests = s.requests ++ [sent]) (hc : s'.confirmed = s.confirmed)
    (h : sent.request.confirmsLowerMileage = false) : Sends s s' :=
  ⟨by rw [hc]; exact List.Subset.refl _, [sent], hr, by simpa using approves_of_unflagged h⟩

theorem Sends.confirmed_step (h : Sends s s') (hs : s.Confirmed) : s'.Confirmed := by
  obtain ⟨new, hr, hnew⟩ := h.requests
  intro sent hsent
  rw [hr] at hsent
  rcases List.mem_append.mp hsent with hsent | hsent
  · exact approves_mono h.confirmed (hs sent hsent)
  · exact hnew sent hsent

theorem saveAnswer_sends {k : Nat} {answer : Option Answer} {mounted : Bool} {now : DateTime}
    (h : s.saveAnswer dart k answer mounted now = some s') : Sends s s' := by
  cases saveAnswer_cases h with
  | upload files =>
    cases files with
    | nil => exact .nothing rfl rfl
    | cons a files => exact .one rfl rfl (confirms_upload ..)
  | ended => exact .nothing rfl rfl

theorem reply_sends {k : Nat} {yes mounted : Bool} (h : s.reply dart k yes mounted = some s') : Sends s s' := by
  have hsub : s.confirmed ⊆ k :: s.confirmed := List.subset_cons_self _ _
  cases reply_cases h with
  | sent =>
    refine ⟨hsub, [_], rfl, ?_⟩
    simp [approves, sendCreate, sendRequest, setSave]
  | gone => exact ⟨hsub, [], by simp [setSave], by simp⟩
  | cancelled => exact .nothing rfl rfl

theorem save_sends {screen : NewRecord} {now : DateTime} (h : s.save dart screen now = some s') : Sends s s' := by
  cases save_cases h with
  | queued => exact .nothing rfl rfl
  | revising => exact .one rfl rfl (confirms_revise ..)
  | creating => exact .one rfl rfl (confirms_create ..)

theorem diskLoaded_sends {i : Nat} {done threw : Flush} {ok : Bool} {load : Load} {again : Load → Flush}
    (h : s.DiskLoaded dart i ok load again done threw s') : Sends s s' := by
  cases h with
  | again => exact .nothing rfl rfl
  | done => exact .nothing rfl rfl
  | threw => exact .nothing rfl rfl

theorem disk_sends {i : Nat} {ok : Bool} (h : s.disk dart i ok = some s') : Sends s s' := by
  cases disk_cases h with
  | ensuring hf hload => exact diskLoaded_sends hload
  | removed hf hok hs' =>
    subst hs'
    exact .nothing rfl rfl
  | notRemoved hf hok hs' =>
    subst hs'
    exact .nothing rfl rfl
  | reloading hf hload => exact diskLoaded_sends hload

theorem flushAnswer_sends {i : Nat} {answer : Option Answer} {now : DateTime}
    (h : s.flushAnswer dart i answer now = some s') : Sends s s' := by
  cases flushAnswer_cases h with
  | created => exact .nothing rfl rfl
  | refused => exact .nothing rfl rfl
  | uploaded => exact .nothing rfl rfl

theorem resume_sends {i : Nat} (h : s.resume dart i = some s') :
    if s.sendsDraft (.resume i) then ∃ sent, s'.requests = s.requests ++ [sent] ∧ ∀ t : Oficina, t.approves sent = false
    else Sends s s' := by
  cases resume_cases h with
  | list hf =>
    simp only [sendsDraft, hf]
    exact .nothing rfl rfl
  | finish hf =>
    simp only [sendsDraft, hf]
    exact .nothing rfl rfl
  | take hf =>
    simp only [sendsDraft, hf]
    exact ⟨_, rfl, fun t => by simp [approves, confirms_create]⟩
  | attached hf =>
    simp only [sendsDraft, hf]
    exact .nothing rfl rfl
  | attach hf =>
    simp only [sendsDraft, hf]
    exact .one rfl rfl (confirms_upload ..)

theorem loadStep_sends {j : Nat} {ok : Bool} (h : s.loadStep dart j ok = some s') : Sends s s' := by
  cases loadStep_cases h with
  | next => exact .nothing rfl rfl
  | ended => exact .nothing rfl rfl

theorem api_sends {r : Nat} {creates : Bool} (h : s.api r creates = some s') : Sends s s' := by
  cases api_cases h with
  | refused => exact .nothing rfl rfl
  | created => exact .nothing rfl rfl

theorem step_sends {e : Event} (h : s.step dart e = some s') (hd : s.sendsDraft e = false) : Sends s s' := by
  cases e with
  | restart =>
    cases h
    exact .nothing rfl rfl
  | signIn token =>
    cases h
    exact .nothing rfl rfl
  | signOut =>
    cases h
    exact .nothing rfl rfl
  | send =>
    cases h
    exact .nothing rfl rfl
  | openScreen =>
    cases h
    split <;> exact .nothing rfl rfl
  | discard id =>
    cases h
    exact .nothing rfl rfl
  | save screen now => exact save_sends h
  | reply k yes mounted => exact reply_sends h
  | saveAnswer k answer mounted now => exact saveAnswer_sends h
  | load j ok => exact loadStep_sends h
  | resume i =>
    have hr := resume_sends h
    rwa [if_neg (by simp [hd])] at hr
  | flushAnswer i answer now => exact flushAnswer_sends h
  | disk i ok => exact disk_sends h
  | api r creates => exact api_sends h

theorem step_sendsDraft {e : Event} (h : s.step dart e = some s') (hd : s.sendsDraft e = true) :
    ∃ sent, s'.requests = s.requests ++ [sent] ∧ ∀ t : Oficina, t.approves sent = false := by
  cases e with
  | resume i =>
    have hr := resume_sends h
    rwa [if_pos hd] at hr
  | _ => cases hd

theorem mem_requests_run (es : List Event) {sent : Sent} (h : sent ∈ s.requests) :
    sent ∈ (Runs.run (step dart) s es).requests := by
  refine Runs.EveryStep.invariant (P := fun s => sent ∈ s.requests) (R := fun _ _ => True) ?_ es s h
    (Runs.EveryStep.of_forall (fun _ _ => trivial) es s)
  intro s e s' hs _ hmem
  have hprefix : ∃ new, s'.requests = s.requests ++ new := by
    cases hd : s.sendsDraft e with
    | true =>
      obtain ⟨sent, hr, -⟩ := step_sendsDraft hs hd
      exact ⟨_, hr⟩
    | false =>
      obtain ⟨new, hr, -⟩ := (step_sends hs hd).requests
      exact ⟨new, hr⟩
  obtain ⟨new, hr⟩ := hprefix
  rw [hr]
  exact List.mem_append_left _ hmem

theorem sendsDraft_step (dart : Dart) {e : Event} (h : s.sendsDraft e = true) : ∃ s', s.step dart e = some s' := by
  cases e with
  | resume i =>
    simp only [sendsDraft] at h
    split at h
    · next draft left sent failed hf =>
      exact ⟨s.sendDraft dart i ⟨.ready, draft :: left, sent, failed⟩ draft left, by simp only [step, resume, hf]⟩
    · cases h
  | _ => cases h

theorem noDraft_of_confirmed (es : List Event) : ∀ s : Oficina, (Runs.run (step dart) s es).Confirmed →
    Runs.EveryStep (step dart) (fun s e => s.sendsDraft e = false) s es := by
  induction es with
  | nil => exact fun _ _ => trivial
  | cons e es ih =>
    intro s h
    refine ⟨?_, ih _ h⟩
    cases hd : s.sendsDraft e with
    | false => exact hd
    | true =>
      obtain ⟨s', hs⟩ := sendsDraft_step dart hd
      obtain ⟨sent, hr, hno⟩ := step_sendsDraft hs hd
      have hmem : sent ∈ (Runs.next (step dart) s e).requests := by
        rw [Runs.next_of_step hs, hr]
        simp
      have happroved := h sent (mem_requests_run es hmem)
      rw [hno] at happroved
      cases happroved

end Oficina

/-- The flag of every request of a run stands for a yes to the same record
exactly when no flush of the run comes to a draft. -/
theorem lowerMileage_confirmed_iff (dart : Dart) (es : List Event) :
    (Runs.run (Oficina.step dart) .init es).Confirmed ↔
      Runs.EveryStep (Oficina.step dart) (fun s e => s.sendsDraft e = false) .init es := by
  refine ⟨Oficina.noDraft_of_confirmed es .init, fun h => ?_⟩
  refine Runs.EveryStep.invariant (P := Oficina.Confirmed) ?_ es .init ?_ h
  · exact fun s e s' hs hd hc => (Oficina.step_sends hs hd).confirmed_step hc
  · exact fun sent hsent => by simp [Oficina.init] at hsent

theorem queuedDraft_unconfirmed :
    ¬ (Runs.run (Oficina.step sampleDart) .init (queued ++ [.signIn "token", .resume 0, .resume 0])).Confirmed := by
  unfold Oficina.Confirmed
  decide +kernel

end Mototeca.Mobile
