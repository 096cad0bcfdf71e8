import Mathlib.Data.List.Forall2
import Mathlib.Data.List.ModifyLast
import Mathlib.Logic.Function.Basic
import Mototeca.OficinaSteps
import Mototeca.Runs

/-!
# The files of a draft go with its record

`flush` sends the files of a draft once `create` has returned, to the record that
the answer names, and deletes the row when all have been sent. A log beside the app
notes what each flush has published.
-/

namespace Mototeca.Mobile

open ServiceRecordRepository

/-! ## What a flush has published -/

/-- `create` is the request that `answer` came to, and `files` are the requests for
the draft's files so far. -/
structure Publication where
  draft : QueuedDraft
  create : Nat
  answer : Option Answer
  heard : DateTime
  record : ServiceRecord
  files : List Nat
  dropped : Bool

namespace Publication

def send (r : Nat) (p : Publication) : Publication := { p with files := p.files ++ [r] }

def drop (p : Publication) : Publication := { p with dropped := true }

/-- Its requests, in order. -/
def requests (p : Publication) : List Nat := p.create :: p.files

end Publication

/-- What each flush has published, the latest last. -/
abbrev FlushLog := Nat → List Publication

def FlushLog.amend (log : FlushLog) (i : Nat) (f : Publication → Publication) : FlushLog :=
  Function.update log i ((log i).modifyLast f)

/-- The log after `e`, in the state `s`. -/
def FlushLog.note (dart : Dart) (s : Oficina) (log : FlushLog) : Event → FlushLog
  | .resume i =>
    match s.flushes[i]? with
    | some ⟨.attaching _ _ (_ :: _), _, _, _⟩ => log.amend i (.send s.requests.length)
    | _ => log
  | .flushAnswer i answer now =>
    match s.flushes[i]? with
    | some ⟨.creating draft r, _, _, _⟩ =>
      match record dart now (answer.map (·.response)) with
      | .ok created => Function.update log i (log i ++ [⟨draft, r, answer, now, created, [], false⟩])
      | .error _ => log
    | _ => log
  | .disk i ok =>
    match s.flushes[i]? with
    | some ⟨.removing _, _, _, _⟩ => if ok then log.amend i .drop else log
    | _ => log
  | _ => log

structure Logged where
  app : Oficina
  log : FlushLog

def Logged.step (dart : Dart) (t : Logged) (e : Event) : Option Logged :=
  (t.app.step dart e).map fun app => ⟨app, t.log.note dart t.app e⟩

/-! ## The invariant -/

/-- The request `r` is the `create` of `draft`. -/
def CreatesDraft (dart : Dart) (sent : List Sent) (draft : QueuedDraft) (r : Nat) : Prop :=
  ∃ session, sent[r]? = some ⟨.draft draft.id, create dart session draft.plate
    ⟨draft.operations, draft.mileageKm, some draft.mechanicName, draft.costCents, some draft.notes, draft.parts⟩ true⟩

/-- The request `r` sends the file `a` to the record of `p`. -/
def Publication.Files (sent : List Sent) (p : Publication) (r : Nat) (a : OutboxAttachment) : Prop :=
  ∃ session, sent[r]? = some ⟨.draftFile p.draft.id,
    uploadAttachment session p.record.id a.kind a.phase a.filename a.contentType a.bytes⟩

/-- The record is the one that the answer to the draft's `create` names; the files sent
are the first of those that can be, in order, and all of them if the row is deleted. -/
structure Publication.Sound (dart : Dart) (sent : List Sent) (p : Publication) : Prop where
  create : CreatesDraft dart sent p.draft p.create
  record : ServiceRecordRepository.record dart p.heard (p.answer.map (·.response)) = .ok p.record
  files : List.Forall₂ (p.Files sent) p.files ((Oficina.uploads dart p.draft.attachments).take p.files.length)
  whole : p.dropped = true → p.files.length = (Oficina.uploads dart p.draft.attachments).length

def Flush.awaited (flush : Flush) : Option Nat :=
  match flush.phase with
  | .creating _ r => some r
  | _ => none

/-- 1 while the reload after a delete is under way. -/
def Flush.landing (flush : Flush) : Nat :=
  match flush.phase with
  | .reloading _ => 1
  | _ => 0

/-- The requests of a flush for what it has published, and the one that may publish next. -/
def requestsOf (ps : List Publication) (flush : Option Flush) : List Nat :=
  ps.flatMap (·.requests) ++ (flush.bind Flush.awaited).toList

/-- The draft in hand is the latest published, and `left` are its files still to send. -/
def InHand (dart : Dart) (ps : List Publication) (draft : QueuedDraft) (record : ServiceRecord)
    (left : List OutboxAttachment) : Prop :=
  ∃ before p, ps = before ++ [p] ∧ p.draft = draft ∧ p.record = record ∧ p.dropped = false ∧
    (Oficina.uploads dart draft.attachments).drop p.files.length = left

def FlushPhase.Fits (dart : Dart) (sent : List Sent) (ps : List Publication) : FlushPhase → Prop
  | .creating draft r => CreatesDraft dart sent draft r
  | .attaching draft record files => InHand dart ps draft record files
  | .uploading draft record _ files => InHand dart ps draft record files
  | .removing draft => ∃ record, InHand dart ps draft record []
  | _ => True

structure Flush.Fits (dart : Dart) (sent : List Sent) (ps : List Publication) (flush : Flush) : Prop where
  phase : flush.phase.Fits dart sent ps
  counted : flush.sent + flush.landing ≤ ps.countP (·.dropped)

structure FlushLog.Good (dart : Dart) (s : Oficina) (log : FlushLog) : Prop where
  sound : ∀ i, ∀ p ∈ log i, p.Sound dart s.requests
  fits : ∀ i (flush : Flush), s.flushes[i]? = some flush → flush.Fits dart s.requests (log i)
  idle : ∀ i, s.flushes[i]? = none → log i = []
  ordered : ∀ i, (requestsOf (log i) s.flushes[i]?).Pairwise (· < ·)
  bounded : ∀ i, ∀ r ∈ requestsOf (log i) s.flushes[i]?, r < s.requests.length
  apart : ∀ i j r, r ∈ requestsOf (log i) s.flushes[i]? → r ∈ requestsOf (log j) s.flushes[j]? → i = j
  filed : ∀ r id, (s.requests[r]?).map (·.origin) = some (.draftFile id) →
    ∃ i, ∃ p ∈ log i, r ∈ p.files ∧ p.draft.id = id
  removed : ∀ id ∈ s.removed, ∃ i, ∃ p ∈ log i, p.draft.id = id ∧ p.dropped = true

/-! ## More requests -/

section
variable {dart : Dart} {sent new : List Sent}

theorem getElem?_grow {r : Nat} {x : Sent} (h : sent[r]? = some x) : (sent ++ new)[r]? = some x := by
  rw [List.getElem?_append_left (List.getElem?_eq_some_iff.mp h).1, h]

theorem CreatesDraft.grow {draft : QueuedDraft} {r : Nat} (h : CreatesDraft dart sent draft r) :
    CreatesDraft dart (sent ++ new) draft r := by
  obtain ⟨session, h⟩ := h
  exact ⟨session, getElem?_grow h⟩

theorem Publication.Files.grow {p : Publication} {r : Nat} {a : OutboxAttachment} (h : p.Files sent r a) :
    p.Files (sent ++ new) r a := by
  obtain ⟨session, h⟩ := h
  exact ⟨session, getElem?_grow h⟩

theorem Publication.Sound.grow {p : Publication} (h : p.Sound dart sent) : p.Sound dart (sent ++ new) where
  create := h.create.grow
  record := h.record
  files := h.files.imp fun _ _ hfile => hfile.grow
  whole := h.whole

theorem Flush.Fits.grow {ps : List Publication} {flush : Flush} (h : flush.Fits dart sent ps) :
    flush.Fits dart (sent ++ new) ps := by
  obtain ⟨phase, left, ok, failed⟩ := flush
  refine ⟨?_, h.counted⟩
  cases phase with
  | creating draft r => exact CreatesDraft.grow h.phase
  | _ => exact h.phase

end

/-! ## One flush goes on -/

namespace FlushLog.Good

variable {dart : Dart} {s : Oficina} {log : FlushLog}

/-- The flush `i` goes on as `flush` with the publications `ps`, and sends `new`. -/
theorem update (h : log.Good dart s) (i : Nat) (flush : Flush) (ps : List Publication) (new : List Sent) {s' : Oficina}
    (hi : (s.flushes[i]?).isSome = true)
    (hflushes : s'.flushes = s.flushes.set i flush) (hrequests : s'.requests = s.requests ++ new)
    (hsound : ∀ p ∈ ps, p.Sound dart s'.requests) (hfits : flush.Fits dart s'.requests ps)
    (htrace : (requestsOf ps (some flush)).Sublist
      (requestsOf (log i) s.flushes[i]? ++ List.range' s.requests.length new.length))
    (hkept : ∀ p ∈ log i, ∃ p' ∈ ps, p'.draft = p.draft ∧ (∀ r ∈ p.files, r ∈ p'.files) ∧
      (p.dropped = true → p'.dropped = true))
    (hfiled : ∀ r id, (s'.requests[r]?).map (·.origin) = some (.draftFile id) → s.requests.length ≤ r →
      ∃ p ∈ ps, r ∈ p.files ∧ p.draft.id = id)
    (hremoved : ∀ id ∈ s'.removed, id ∈ s.removed ∨ ∃ p ∈ ps, p.draft.id = id ∧ p.dropped = true) :
    FlushLog.Good dart s' (Function.update log i ps) := by
  have hlen : i < s.flushes.length := by
    obtain ⟨f, hf⟩ := Option.isSome_iff_exists.mp hi
    exact (List.getElem?_eq_some_iff.mp hf).1
  have hself : s'.flushes[i]? = some flush := by
    rw [hflushes, List.getElem?_set_self hlen]
  have hother : ∀ j, j ≠ i → s'.flushes[j]? = s.flushes[j]? := fun j hj => by
    rw [hflushes, List.getElem?_set_ne hj.symm]
  have hlog : ∀ j, j ≠ i → Function.update log i ps j = log j := fun j hj => Function.update_of_ne hj ..
  have hkeep : ∀ j, ∀ p ∈ log j, ∃ p' ∈ Function.update log i ps j, p'.draft = p.draft ∧
      (∀ r ∈ p.files, r ∈ p'.files) ∧ (p.dropped = true → p'.dropped = true) := by
    intro j p hp
    by_cases hj : j = i
    · subst hj
      rw [Function.update_self]
      exact hkept p hp
    · rw [hlog j hj]
      exact ⟨p, hp, rfl, fun r hr => hr, id⟩
  -- a request of this flush is one of its earlier ones or new
  have hold : ∀ r ∈ requestsOf ps (some flush), r ∈ requestsOf (log i) s.flushes[i]? ∨
      s.requests.length ≤ r ∧ r < s'.requests.length := by
    intro r hr
    rcases List.mem_append.mp (htrace.subset hr) with hr | hr
    · exact .inl hr
    · rw [List.mem_range'_1] at hr
      rw [hrequests, List.length_append]
      exact .inr hr
  have hlength : s.requests.length ≤ s'.requests.length := by
    rw [hrequests, List.length_append]
    exact Nat.le_add_right ..
  refine ⟨fun j p hp => ?_, fun j f hf => ?_, fun j hj => ?_, fun j => ?_, fun j r hr => ?_, fun j k r hr hr' => ?_,
    fun r id hr => ?_, fun id hid => ?_⟩
  · by_cases hj : j = i
    · subst hj
      rw [Function.update_self] at hp
      exact hsound p hp
    · rw [hlog j hj] at hp
      rw [hrequests]
      exact (h.sound j p hp).grow
  · by_cases hj : j = i
    · subst hj
      rw [Function.update_self]
      obtain rfl := Option.some.inj (hself.symm.trans hf)
      exact hfits
    · rw [hother j hj] at hf
      rw [hlog j hj, hrequests]
      exact (h.fits j f hf).grow
  · have hne : j ≠ i := fun he => by
      rw [he, hself] at hj
      cases hj
    rw [hlog j hne]
    rw [hother j hne] at hj
    exact h.idle j hj
  · by_cases hj : j = i
    · subst hj
      rw [Function.update_self, hself]
      refine List.Pairwise.sublist htrace (List.pairwise_append.mpr ⟨h.ordered j, List.pairwise_lt_range', ?_⟩)
      intro r hr r' hr'
      exact (h.bounded j r hr).trans_le (List.mem_range'_1.mp hr').1
    · rw [hlog j hj, hother j hj]
      exact h.ordered j
  · by_cases hj : j = i
    · subst hj
      rw [Function.update_self, hself] at hr
      rcases hold r hr with hr | hr
      · exact (h.bounded j r hr).trans_le hlength
      · exact hr.2
    · rw [hlog j hj, hother j hj] at hr
      exact (h.bounded j r hr).trans_le hlength
  · have hmine : ∀ j r, r ∈ requestsOf (Function.update log i ps j) s'.flushes[j]? →
        r ∈ requestsOf (log j) s.flushes[j]? ∨ j = i ∧ s.requests.length ≤ r := by
      intro j r hr
      by_cases hj : j = i
      · subst hj
        rw [Function.update_self, hself] at hr
        exact (hold r hr).imp id fun hnew => ⟨rfl, hnew.1⟩
      · rw [hlog j hj, hother j hj] at hr
        exact .inl hr
    rcases hmine j r hr with hr | ⟨hj, hr⟩
    · rcases hmine k r hr' with hr' | ⟨-, hr'⟩
      · exact h.apart j k r hr hr'
      · exact absurd (h.bounded j r hr) hr'.not_gt
    · rcases hmine k r hr' with hr' | ⟨hk, -⟩
      · exact absurd (h.bounded k r hr') hr.not_gt
      · rw [hj, hk]
  · by_cases hlt : s.requests.length ≤ r
    · obtain ⟨p, hp, hfile⟩ := hfiled r id hr hlt
      exact ⟨i, p, by rwa [Function.update_self], hfile⟩
    · rw [hrequests, List.getElem?_append_left (Nat.lt_of_not_le hlt)] at hr
      obtain ⟨j, p, hp, hfile, hpid⟩ := h.filed r id hr
      obtain ⟨p', hp', hdraft, hfiles, -⟩ := hkeep j p hp
      exact ⟨j, p', hp', hfiles r hfile, (congrArg _ hdraft).trans hpid⟩
  · rcases hremoved id hid with hid | ⟨p, hp, hpid, hdropped⟩
    · obtain ⟨j, p, hp, rfl, hdropped⟩ := h.removed id hid
      obtain ⟨p', hp', hdraft, -, hkeeps⟩ := hkeep j p hp
      exact ⟨j, p', hp', congrArg _ hdraft, hkeeps hdropped⟩
    · exact ⟨i, p, by rwa [Function.update_self], hpid, hdropped⟩

/-- The flush `i` goes on and neither publishes nor sends anything. -/
theorem goOn {i : Nat} {flush flush' : Flush} {s' : Oficina} (h : log.Good dart s) (hf : s.flushes[i]? = some flush)
    (hflushes : s'.flushes = s.flushes.set i flush') (hrequests : s'.requests = s.requests)
    (hremoved : s'.removed = s.removed) (hphase : flush'.phase.Fits dart s.requests (log i))
    (hcounted : flush'.sent + flush'.landing ≤ flush.sent + flush.landing)
    (hawaited : flush'.awaited = none) : log.Good dart s' := by
  have hgood := h.update i flush' (log i) [] (by rw [hf]; rfl) hflushes
    (hrequests.trans (List.append_nil _).symm) (by rw [hrequests]; exact h.sound i)
    (by rw [hrequests]; exact ⟨hphase, hcounted.trans (h.fits i flush hf).counted⟩) ?_
    (fun p hp => ⟨p, hp, rfl, fun r hr => hr, id⟩) (fun r id hr hlt => ?_) fun id hid => .inl (hremoved ▸ hid)
  · rwa [Function.update_eq_self] at hgood
  · simp [requestsOf, hawaited]
  · rw [hrequests, List.getElem?_eq_none hlt] at hr
    cases hr

/-- Nothing happens to the flushes. -/
theorem beside {new : List Sent} {s' : Oficina} (h : log.Good dart s) (hflushes : s'.flushes = s.flushes)
    (hrequests : s'.requests = s.requests ++ new) (hnew : ∀ x ∈ new, ∀ id, x.origin ≠ .draftFile id)
    (hremoved : s'.removed = s.removed) : log.Good dart s' where
  sound i p hp := by
    rw [hrequests]
    exact (h.sound i p hp).grow
  fits i flush hf := by
    rw [hrequests]
    exact (h.fits i flush (hflushes ▸ hf)).grow
  idle i hi := h.idle i (hflushes ▸ hi)
  ordered i := by
    rw [hflushes]
    exact h.ordered i
  bounded i r hr := by
    rw [hrequests, List.length_append]
    exact (h.bounded i r (hflushes ▸ hr)).trans_le (Nat.le_add_right ..)
  apart i j r hr hr' := h.apart i j r (hflushes ▸ hr) (hflushes ▸ hr')
  filed r id hr := by
    refine h.filed r id ?_
    rw [hrequests] at hr
    by_cases hlt : r < s.requests.length
    · rwa [List.getElem?_append_left hlt] at hr
    · obtain ⟨x, hx, horigin⟩ := Option.map_eq_some_iff.mp hr
      rw [List.getElem?_append_right (Nat.le_of_not_lt hlt)] at hx
      exact absurd horigin (hnew x (List.mem_of_getElem? hx) id)
  removed id hid := h.removed id (hremoved ▸ hid)

/-! ## The steps of a flush -/

theorem startFlush (h : log.Good dart s) : log.Good dart s.startFlush := by
  have hlast : ∀ i, s.flushes[i]? = none → ∀ flush : Flush, s.startFlush.flushes[i]? = some flush →
      flush.awaited = none ∧ flush.Fits dart s.requests (log i) := by
    intro i hi flush hf
    have hmem : flush ∈ [⟨if s.outbox.loaded then .ensured else .ensuring .drafts, [], 0, 0⟩] := by
      rw [Oficina.startFlush, List.getElem?_append_right (List.getElem?_eq_none_iff.mp hi)] at hf
      exact List.mem_of_getElem? hf
    obtain rfl := List.mem_singleton.mp hmem
    cases s.outbox.loaded with
    | true => exact ⟨rfl, trivial, Nat.zero_le _⟩
    | false => exact ⟨rfl, trivial, Nat.zero_le _⟩
  have hold : ∀ i flush, s.flushes[i]? = some flush → s.startFlush.flushes[i]? = some flush := fun i flush hf =>
    (List.getElem?_append_left (List.getElem?_eq_some_iff.mp hf).1).trans hf
  have hsame : ∀ i, requestsOf (log i) s.startFlush.flushes[i]? = requestsOf (log i) s.flushes[i]? := by
    intro i
    cases hi : s.flushes[i]? with
    | some flush => rw [hold i flush hi]
    | none =>
      cases hf : s.startFlush.flushes[i]? with
      | none => rfl
      | some flush => simp [requestsOf, (hlast i hi flush hf).1]
  refine ⟨h.sound, fun i flush hf => ?_, fun i hi => h.idle i ?_, fun i => ?_, fun i r hr => ?_, fun i j r hr hr' => ?_,
    h.filed, h.removed⟩
  · cases hi : s.flushes[i]? with
    | some flush' =>
      obtain rfl := Option.some.inj ((hold i flush' hi).symm.trans hf)
      exact h.fits i flush' hi
    | none => exact (hlast i hi flush hf).2
  · cases hf : s.flushes[i]? with
    | none => rfl
    | some flush =>
      rw [hold i flush hf] at hi
      cases hi
  · rw [hsame]
    exact h.ordered i
  · rw [hsame] at hr
    exact h.bounded i r hr
  · rw [hsame] at hr hr'
    exact h.apart i j r hr hr'

theorem restart (h : log.Good dart s) : log.Good dart s.restart := by
  have hflush : ∀ i, s.restart.flushes[i]? = (s.flushes[i]?).map fun flush : Flush => { flush with phase := .threw } :=
    fun i => List.getElem?_map ..
  have hless : ∀ i, (requestsOf (log i) s.restart.flushes[i]?).Sublist (requestsOf (log i) s.flushes[i]?) := by
    intro i
    have hnone : (s.restart.flushes[i]?).bind Flush.awaited = none := by
      rw [hflush]
      cases s.flushes[i]? <;> rfl
    rw [requestsOf, requestsOf, hnone]
    exact List.Sublist.append_left (List.nil_sublist _) _
  refine ⟨h.sound, fun i flush hf => ?_, fun i hi => h.idle i ?_, fun i => (h.ordered i).sublist (hless i),
    fun i r hr => h.bounded i r ((hless i).subset hr),
    fun i j r hr hr' => h.apart i j r ((hless i).subset hr) ((hless j).subset hr'), h.filed, h.removed⟩
  · rw [hflush] at hf
    obtain ⟨flush', hf', rfl⟩ := Option.map_eq_some_iff.mp hf
    refine ⟨trivial, ?_⟩
    have hcounted := (h.fits i flush' hf').counted
    show flush'.sent + 0 ≤ _
    omega
  · rw [hflush] at hi
    exact Option.map_eq_none_iff.mp hi

theorem sendDraft {i : Nat} {draft : QueuedDraft} {left : List QueuedDraft} {ok failed : Nat} (h : log.Good dart s)
    (hf : s.flushes[i]? = some ⟨.ready, draft :: left, ok, failed⟩) :
    log.Good dart (s.sendDraft dart i ⟨.ready, draft :: left, ok, failed⟩ draft left) := by
  have hnew : CreatesDraft dart (s.requests ++ [⟨.draft draft.id, create dart s.session draft.plate
      ⟨draft.operations, draft.mileageKm, some draft.mechanicName, draft.costCents, some draft.notes, draft.parts⟩
      true⟩]) draft s.requests.length := ⟨s.session, List.getElem?_concat_length ..⟩
  rw [← Function.update_eq_self i log]
  refine h.update i ⟨.creating draft s.requests.length, left, ok, failed⟩ (log i) _ (by rw [hf]; rfl) rfl rfl
    (fun p hp => (h.sound i p hp).grow) ⟨hnew, (h.fits i _ hf).counted⟩ ?_
    (fun p hp => ⟨p, hp, rfl, fun r hr => hr, id⟩) (fun r id hr hlt => ?_) fun id hid => .inl hid
  · rw [hf]
    simp [requestsOf, Flush.awaited]
  · obtain ⟨x, hx, horigin⟩ := Option.map_eq_some_iff.mp hr
    have hmem : x ∈ [_] := List.mem_of_getElem? ((List.getElem?_append_right hlt).symm.trans hx)
    rw [List.mem_singleton.mp hmem] at horigin
    cases horigin

theorem take_of_drop {α : Type} {l l' : List α} {a : α} {n : Nat} (h : l.drop n = a :: l') :
    l.take (n + 1) = l.take n ++ [a] ∧ l.drop (n + 1) = l' := by
  have hget : l[n]? = some a := by
    have hfirst : (l.drop n)[0]? = some a := by rw [h]; rfl
    rwa [List.getElem?_drop, Nat.add_zero] at hfirst
  refine ⟨by rw [List.take_add_one, hget]; rfl, ?_⟩
  rw [← List.drop_drop, h]
  rfl

theorem amend_last {before : List Publication} {p : Publication} {i : Nat} (h : log i = before ++ [p])
    (f : Publication → Publication) : log.amend i f = Function.update log i (before ++ [f p]) := by
  rw [FlushLog.amend, h, List.modifyLast_concat]

/-- The latest publication of a flush changes. -/
theorem kept_last {before : List Publication} {p p' : Publication} (hdraft : p'.draft = p.draft)
    (hfiles : ∀ r ∈ p.files, r ∈ p'.files) (hdropped : p.dropped = true → p'.dropped = true) :
    ∀ q ∈ before ++ [p], ∃ q' ∈ before ++ [p'], q'.draft = q.draft ∧ (∀ r ∈ q.files, r ∈ q'.files) ∧
      (q.dropped = true → q'.dropped = true) := by
  intro q hq
  rcases List.mem_append.mp hq with hq | hq
  · exact ⟨q, List.mem_append_left _ hq, rfl, fun r hr => hr, id⟩
  · obtain rfl := List.mem_singleton.mp hq
    exact ⟨p', List.mem_append_right _ (List.mem_singleton_self _), hdraft, hfiles, hdropped⟩

theorem sendFile {i : Nat} {draft : QueuedDraft} {record : ServiceRecord} {a : OutboxAttachment}
    {files : List OutboxAttachment} {left : List QueuedDraft} {ok failed : Nat} (h : log.Good dart s)
    (hf : s.flushes[i]? = some ⟨.attaching draft record (a :: files), left, ok, failed⟩) :
    FlushLog.Good dart
      (s.sendFile i ⟨.attaching draft record (a :: files), left, ok, failed⟩ draft record a files)
      (log.amend i (.send s.requests.length)) := by
  obtain ⟨hphase, hcounted⟩ := h.fits i _ hf
  obtain ⟨before, p, hlog, rfl, rfl, hdropped, hleft⟩ := hphase
  obtain ⟨htake, hrest⟩ := take_of_drop hleft
  have hp : p.Sound dart s.requests := h.sound i p (hlog ▸ List.mem_append_right _ (List.mem_singleton_self _))
  have hsound : (p.send s.requests.length).Sound dart (s.requests ++ [⟨.draftFile p.draft.id,
      uploadAttachment s.session p.record.id a.kind a.phase a.filename a.contentType a.bytes⟩]) := by
    refine ⟨hp.create.grow, hp.record, ?_, fun hd => ?_⟩
    · show List.Forall₂ (p.Files _) (p.files ++ [s.requests.length])
        ((Oficina.uploads dart p.draft.attachments).take (p.files ++ [s.requests.length]).length)
      rw [List.length_append, List.length_singleton, htake]
      exact List.rel_append hp.grow.files (.cons ⟨s.session, List.getElem?_concat_length ..⟩ .nil)
    · exact absurd (hdropped.symm.trans hd) Bool.false_ne_true
  rw [amend_last hlog]
  refine h.update i _ (before ++ [p.send s.requests.length]) _ (by rw [hf]; rfl) rfl rfl (fun q hq => ?_) ⟨?_, ?_⟩ ?_ ?_
    (fun r id hr hlt => ?_) fun id hid => .inl hid
  · rcases List.mem_append.mp hq with hq | hq
    · exact (h.sound i q (hlog ▸ List.mem_append_left _ hq)).grow
    · obtain rfl := List.mem_singleton.mp hq
      exact hsound
  · refine ⟨before, p.send s.requests.length, rfl, rfl, rfl, hdropped, ?_⟩
    show List.drop (p.files ++ [s.requests.length]).length _ = files
    rw [List.length_append, List.length_singleton, hrest]
  · rw [hlog] at hcounted
    simpa [List.countP_append, Publication.send, hdropped, Flush.landing] using hcounted
  · rw [hf, hlog]
    simp [requestsOf, Flush.awaited, Publication.requests, Publication.send]
  · rw [hlog]
    exact kept_last rfl (fun r hr => List.mem_append_left _ hr) id
  · obtain ⟨x, hx, horigin⟩ := Option.map_eq_some_iff.mp hr
    have hnew := (List.getElem?_append_right hlt).symm.trans hx
    have hr0 : r = s.requests.length := by
      have hbound := (List.getElem?_eq_some_iff.mp hnew).1
      rw [List.length_singleton] at hbound
      omega
    have hmem : x ∈ [_] := List.mem_of_getElem? hnew
    rw [List.mem_singleton.mp hmem] at horigin
    refine ⟨_, List.mem_append_right _ (List.mem_singleton_self _), ?_, ?_⟩
    · exact List.mem_append_right _ (List.mem_singleton.mpr hr0)
    · injection horigin

theorem published {i r : Nat} {draft : QueuedDraft} {left : List QueuedDraft} {ok failed : Nat} {session : Option String}
    {answer : Option Answer} {now : DateTime} {created : ServiceRecord} (h : log.Good dart s)
    (hf : s.flushes[i]? = some ⟨.creating draft r, left, ok, failed⟩)
    (hrecord : record dart now (answer.map (·.response)) = .ok created) :
    FlushLog.Good dart (({ s with session }).setFlush i
        ⟨.attaching draft created (Oficina.uploads dart draft.attachments), left, ok, failed⟩)
      (Function.update log i (log i ++ [⟨draft, r, answer, now, created, [], false⟩])) := by
  obtain ⟨hphase, hcounted⟩ := h.fits i _ hf
  refine h.update i _ _ [] (by rw [hf]; rfl) rfl (List.append_nil _).symm (fun q hq => ?_) ⟨?_, ?_⟩ ?_
    (fun p hp => ⟨p, List.mem_append_left _ hp, rfl, fun r hr => hr, id⟩) (fun r id hr hlt => ?_) fun id hid => .inl hid
  · rcases List.mem_append.mp hq with hq | hq
    · exact h.sound i q hq
    · obtain rfl := List.mem_singleton.mp hq
      exact ⟨hphase, hrecord, .nil, fun hd => by cases hd⟩
  · exact ⟨log i, _, rfl, rfl, rfl, rfl, rfl⟩
  · simpa [List.countP_append, Flush.landing] using hcounted
  · rw [hf]
    simp [requestsOf, Flush.awaited, Publication.requests]
  · obtain ⟨x, hx, -⟩ := Option.map_eq_some_iff.mp hr
    exact absurd (List.getElem?_eq_some_iff.mp hx).1 hlt.not_gt

theorem dropped {i : Nat} {draft : QueuedDraft} {left : List QueuedDraft} {ok failed : Nat} (h : log.Good dart s)
    (hf : s.flushes[i]? = some ⟨.removing draft, left, ok, failed⟩) :
    FlushLog.Good dart (({ s with db := s.db.delete draft.id, removed := draft.id :: s.removed }).setFlush i
      ⟨.reloading .drafts, left, ok, failed⟩) (log.amend i .drop) := by
  obtain ⟨⟨record, before, p, hlog, rfl, rfl, hdropped, hleft⟩, hcounted⟩ := h.fits i _ hf
  have hp : p.Sound dart s.requests := h.sound i p (hlog ▸ List.mem_append_right _ (List.mem_singleton_self _))
  have hwhole : p.files.length = (Oficina.uploads dart p.draft.attachments).length := by
    have hle := List.drop_eq_nil_iff.mp hleft
    have hlen := hp.files.length_eq
    rw [List.length_take] at hlen
    omega
  rw [amend_last hlog]
  refine h.update i _ (before ++ [p.drop]) [] (by rw [hf]; rfl) rfl (List.append_nil _).symm (fun q hq => ?_)
    ⟨trivial, ?_⟩ ?_ ?_ (fun r id hr hlt => ?_) fun id hid => ?_
  · rcases List.mem_append.mp hq with hq | hq
    · exact h.sound i q (hlog ▸ List.mem_append_left _ hq)
    · obtain rfl := List.mem_singleton.mp hq
      exact ⟨hp.create, hp.record, hp.files, fun _ => hwhole⟩
  · rw [hlog] at hcounted
    simpa [List.countP_append, Publication.drop, hdropped, Flush.landing] using hcounted
  · rw [hf, hlog]
    simp [requestsOf, Flush.awaited, Publication.requests, Publication.drop]
  · rw [hlog]
    exact kept_last rfl (fun r hr => hr) fun _ => rfl
  · obtain ⟨x, hx, -⟩ := Option.map_eq_some_iff.mp hr
    exact absurd (List.getElem?_eq_some_iff.mp hx).1 hlt.not_gt
  · rcases List.mem_cons.mp hid with rfl | hid
    · exact .inr ⟨_, List.mem_append_right _ (List.mem_singleton_self _), rfl, rfl⟩
    · exact .inl hid

/-! ## Every step -/

theorem resume {i : Nat} {s' : Oficina} (h : log.Good dart s) (hs : s.resume dart i = some s') :
    FlushLog.Good dart s' (log.note dart s (.resume i)) := by
  cases Oficina.resume_cases hs with
  | list hf =>
    rw [show log.note dart s (.resume i) = log by simp [FlushLog.note, hf]]
    exact h.goOn hf rfl rfl rfl trivial le_rfl rfl
  | finish hf =>
    rw [show log.note dart s (.resume i) = log by simp [FlushLog.note, hf]]
    exact h.goOn hf rfl rfl rfl trivial le_rfl rfl
  | take hf =>
    rw [show log.note dart s (.resume i) = log by simp [FlushLog.note, hf]]
    exact h.sendDraft hf
  | attached hf =>
    rw [show log.note dart s (.resume i) = log by simp [FlushLog.note, hf]]
    exact h.goOn hf rfl rfl rfl ⟨_, (h.fits i _ hf).phase⟩ le_rfl rfl
  | attach hf =>
    rw [show log.note dart s (.resume i) = log.amend i (.send s.requests.length) by simp [FlushLog.note, hf]]
    exact h.sendFile hf

theorem flushAnswer {i : Nat} {answer : Option Answer} {now : DateTime} {s' : Oficina} (h : log.Good dart s)
    (hs : s.flushAnswer dart i answer now = some s') :
    FlushLog.Good dart s' (log.note dart s (.flushAnswer i answer now)) := by
  cases Oficina.flushAnswer_cases hs with
  | @created draft r left ok failed session created hf heard hrecord =>
    have hnote : log.note dart s (.flushAnswer i answer now) =
        Function.update log i (log i ++ [⟨draft, r, answer, now, created, [], false⟩]) := by
      simp [FlushLog.note, hf, hrecord]
    rw [hnote]
    exact h.published hf hrecord
  | refused hf heard hrecord =>
    rw [show log.note dart s (.flushAnswer i answer now) = log by simp [FlushLog.note, hf, hrecord]]
    exact h.goOn hf rfl rfl rfl trivial le_rfl rfl
  | uploaded hf heard =>
    rw [show log.note dart s (.flushAnswer i answer now) = log by simp [FlushLog.note, hf]]
    exact h.goOn hf rfl rfl rfl (h.fits i _ hf).phase le_rfl rfl

theorem diskLoaded {i : Nat} {ok : Bool} {load : Load} {again : Load → Flush} {done threw flush : Flush} {s' : Oficina}
    (h : log.Good dart s) (hf : s.flushes[i]? = some flush)
    (hs : s.DiskLoaded dart i ok load again done threw s')
    (hagain : ∀ next, (again next).phase.Fits dart s.requests (log i) ∧
      (again next).sent + (again next).landing ≤ flush.sent + flush.landing ∧ (again next).awaited = none)
    (hdone : done.phase.Fits dart s.requests (log i) ∧ done.sent + done.landing ≤ flush.sent + flush.landing ∧
      done.awaited = none)
    (hthrew : threw.phase.Fits dart s.requests (log i) ∧ threw.sent + threw.landing ≤ flush.sent + flush.landing ∧
      threw.awaited = none) : log.Good dart s' := by
  cases hs with
  | @again next hok hload => exact h.goOn hf rfl rfl rfl (hagain next).1 (hagain next).2.1 (hagain next).2.2
  | done hok hload => exact h.goOn hf rfl rfl rfl hdone.1 hdone.2.1 hdone.2.2
  | threw => exact h.goOn hf rfl rfl rfl hthrew.1 hthrew.2.1 hthrew.2.2

theorem disk {i : Nat} {ok : Bool} {s' : Oficina} (h : log.Good dart s) (hs : s.disk dart i ok = some s') :
    FlushLog.Good dart s' (log.note dart s (.disk i ok)) := by
  cases Oficina.disk_cases hs with
  | ensuring hf hload =>
    rw [show log.note dart s (.disk i ok) = log by simp [FlushLog.note, hf]]
    exact h.diskLoaded hf hload (fun _ => ⟨trivial, le_rfl, rfl⟩) ⟨trivial, le_rfl, rfl⟩ ⟨trivial, le_rfl, rfl⟩
  | removed hf hok hs' =>
    rw [show log.note dart s (.disk i ok) = log.amend i .drop by simp [FlushLog.note, hf, hok], hs']
    exact h.dropped hf
  | notRemoved hf hok hs' =>
    rw [show log.note dart s (.disk i ok) = log by simp [FlushLog.note, hf, hok], hs']
    exact h.goOn hf rfl rfl rfl trivial le_rfl rfl
  | reloading hf hload =>
    rw [show log.note dart s (.disk i ok) = log by simp [FlushLog.note, hf]]
    refine h.diskLoaded hf hload (fun _ => ⟨trivial, le_rfl, rfl⟩) ⟨trivial, le_rfl, rfl⟩ ⟨trivial, ?_, rfl⟩
    exact Nat.add_le_add_left (Nat.zero_le _) _

theorem saveAnswered {k : Nat} {s' : Oficina} (h : log.Good dart s) (hs : s.SaveAnswered k s') : log.Good dart s' := by
  cases hs with
  | upload files =>
    cases files with
    | nil => exact h.beside rfl (List.append_nil _).symm (fun x hx => by cases hx) rfl
    | cons a left =>
      refine h.beside rfl rfl (fun x hx id => ?_) rfl
      rw [List.mem_singleton.mp hx]
      exact fun he => by cases he
  | ended => exact h.beside rfl (List.append_nil _).symm (fun x hx => by cases hx) rfl

theorem step {e : Event} {s' : Oficina} (h : log.Good dart s) (hs : s.step dart e = some s') :
    FlushLog.Good dart s' (log.note dart s e) := by
  have hsilent : ∀ {s' : Oficina}, s'.flushes = s.flushes → s'.requests = s.requests → s'.removed = s.removed →
      log.Good dart s' := fun hflushes hrequests hremoved =>
    h.beside hflushes (hrequests.trans (List.append_nil _).symm) (fun x hx => by cases hx) hremoved
  cases e with
  | restart =>
    cases hs
    exact h.restart
  | signIn token =>
    cases hs
    have hsession : log.Good dart { s with session := some token } := hsilent rfl rfl rfl
    exact hsession.startFlush
  | signOut =>
    cases hs
    exact hsilent rfl rfl rfl
  | send =>
    cases hs
    exact h.startFlush
  | openScreen =>
    cases hs
    show log.Good dart (if s.outbox.loaded then s else s.startLoad .screen)
    split
    · exact h
    · exact hsilent rfl rfl rfl
  | discard id =>
    cases hs
    exact hsilent rfl rfl rfl
  | save screen now =>
    have hscreen : ∀ {request : HttpRequest}, ∀ x ∈ [(⟨.screen s.saves.length, request⟩ : Sent)], ∀ id,
        x.origin ≠ .draftFile id := by
      intro request x hx id
      rw [List.mem_singleton.mp hx]
      exact fun he => by cases he
    cases Oficina.save_cases hs with
    | queued hsession hadd => exact hsilent rfl rfl rfl
    | revising hsession hrevising => exact h.beside rfl rfl hscreen rfl
    | creating hsession hrevising hvehicle => exact h.beside rfl rfl hscreen rfl
  | reply k yes mounted =>
    cases Oficina.reply_cases hs with
    | sent hk hasking hyes hmounted =>
      refine h.beside rfl rfl (fun x hx id => ?_) rfl
      rw [List.mem_singleton.mp hx]
      exact fun he => by cases he
    | gone hk hasking hyes hmounted => exact hsilent rfl rfl rfl
    | cancelled hk hasking hyes => exact hsilent rfl rfl rfl
  | saveAnswer k answer mounted now => exact h.saveAnswered (Oficina.saveAnswer_cases hs)
  | load j ok =>
    cases Oficina.loadStep_cases hs with
    | next hj hok hload => exact hsilent rfl rfl rfl
    | ended outbox hj hload => exact hsilent rfl rfl rfl
  | resume i => exact h.resume hs
  | flushAnswer i answer now => exact h.flushAnswer hs
  | disk i ok => exact h.disk hs
  | api r creates =>
    cases Oficina.api_cases hs with
    | refused hr hnew hcreates => exact hsilent rfl rfl rfl
    | created hr hnew hcreates hpath => exact hsilent rfl rfl rfl

end FlushLog.Good

/-! ## Every run -/

/-- Every file goes to the record that its draft's `create` was answered with, once and
in order, and a flush deletes the row of a draft when all its files have been sent. -/
structure FilesFollow (dart : Dart) (s : Oficina) (log : FlushLog) : Prop where
  publications : ∀ i, ∀ p ∈ log i, p.Sound dart s.requests
  inOrder : ∀ i, ((log i).flatMap (·.requests)).Pairwise (· < ·)
  apart : ∀ i j r, r ∈ (log i).flatMap (·.requests) → r ∈ (log j).flatMap (·.requests) → i = j
  filed : ∀ r id, (s.requests[r]?).map (·.origin) = some (.draftFile id) →
    ∃ i, ∃ p ∈ log i, r ∈ p.files ∧ p.draft.id = id
  removed : ∀ id ∈ s.removed, ∃ i, ∃ p ∈ log i, p.draft.id = id ∧ p.dropped = true
  counted : ∀ i (flush : Flush), s.flushes[i]? = some flush → flush.sent ≤ (log i).countP (·.dropped)

theorem FlushLog.Good.follow {dart : Dart} {s : Oficina} {log : FlushLog} (h : log.Good dart s) :
    FilesFollow dart s log where
  publications := h.sound
  inOrder i := (List.pairwise_append.mp (h.ordered i)).1
  apart i j r hr hr' := h.apart i j r (List.mem_append_left _ hr) (List.mem_append_left _ hr')
  filed := h.filed
  removed := h.removed
  counted i flush hf := (Nat.le_add_right ..).trans (h.fits i flush hf).counted

def Logged.init : Logged := ⟨.init, fun _ => []⟩

theorem nothing_published (dart : Dart) : FlushLog.Good dart Oficina.init (fun _ => []) where
  sound i p hp := by cases hp
  fits i flush hf := by cases hf
  idle i hi := rfl
  ordered i := .nil
  bounded i r hr := by cases hr
  apart i j r hr hr' := by cases hr
  filed r id hr := by cases hr
  removed id hid := by cases hid

/-- In every run of the app the files of drafts follow their records. -/
theorem files_follow_record (dart : Dart) (es : List Event) :
    let t := Runs.run (Logged.step dart) .init es
    t.app = Runs.run (Oficina.step dart) .init es ∧ FilesFollow dart t.app t.log := by
  intro t
  have hall : Runs.EveryStep (Logged.step dart) (fun _ _ => True) .init es := .of_forall (fun _ _ => trivial) es _
  refine ⟨?_, ?_⟩
  · refine (Runs.EveryStep.run_map (f := Logged.app) (P := fun _ => True) (fun _ _ _ _ _ _ => trivial)
      (fun t e _ => ?_) es Logged.init trivial hall).symm
    show t.app.step dart e = ((t.app.step dart e).map _).map Logged.app
    rw [Option.map_map]
    exact Option.map_id'.symm
  · have hgood : t.log.Good dart t.app := by
      refine Runs.EveryStep.invariant (P := fun t : Logged => t.log.Good dart t.app) (fun t e t' hstep _ h => ?_) es _
        (nothing_published dart) hall
      obtain ⟨s', hs, rfl⟩ := Option.map_eq_some_iff.mp hstep
      exact h.step hs
    exact hgood.follow

end Mototeca.Mobile
