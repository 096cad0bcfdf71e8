import Mototeca.Flushing
import Mototeca.Runs

/-!
# One record for each draft

`flush` sends no key that would make a second request for a draft harmless and
marks no draft as being sent. The API makes at most one record of each draft
as long as flushes do not share a draft and no good answer or delete is lost.
-/

namespace Mototeca.Mobile

open Forwarding ServiceRecordRepository

/-! ## Timely steps -/

/-- The flush has the draft in hand, from its request to its delete. -/
def Flush.holds (flush : Flush) (id : Nat) : Bool :=
  match flush.phase.hand with
  | .empty => false
  | .waiting a _ | .answered a => a == id

def Flush.awaits (flush : Flush) (r : Nat) : Bool :=
  match flush.phase.hand with
  | .waiting _ q => q == r
  | _ => false

namespace Oficina

variable (dart : Dart) (s : Oficina)

/-- A flush takes up a draft that no other flush has in hand and none has
deleted; the API makes a record of a draft while a flush awaits its answer; a
flush fails, and the app ends, on requests that made no record; and the delete
of a published draft goes through. -/
def timely : Event → Bool
  | .resume i =>
    match s.flushes[i]? with
    | some ⟨.ready, draft :: _, _, _⟩ => !s.removed.contains draft.id &&
        s.flushes.all fun flush => !flush.holds draft.id
    | _ => true
  | .api r creates =>
    !creates || (s.requests[r]?).all fun sent => sent.origin.item.isNone || s.flushes.any fun flush => flush.awaits r
  | .flushAnswer i answer now =>
    match s.flushes[i]? with
    | some ⟨.creating _ r, _, _, _⟩ => (record dart now (answer.map (·.response))).isOk || !s.created.contains r
    | _ => true
  | .disk i ok =>
    match s.flushes[i]? with
    | some ⟨.removing _, _, _, _⟩ => ok
    | _ => true
  | .restart =>
    s.flushes.all fun flush =>
      match flush.phase.hand with
      | .empty => true
      | .waiting _ r => !s.created.contains r
      | .answered _ => false
  | _ => true

def OneRecordEach : Prop :=
  ∀ id, ∀ r ∈ s.created, ∀ q ∈ s.created, s.isFor r id = true → s.isFor q id = true → r = q

variable {dart s}

theorem holds_iff {i id : Nat} {flush : Flush} (h : s.flushes[i]? = some flush) :
    flush.holds id = true ↔ s.view.Holds i id := by
  have hhand : s.view.hand i = flush.phase.hand := hand_of h
  simp only [State.Holds, hhand, Flush.holds]
  cases flush.phase.hand <;> simp

theorem careful {e : Event} (ho : Once s.view) (h : s.timely dart e = true) : Careful s.view (s.action dart e) := by
  have hacts := action_cases dart s e
  generalize s.action dart e = move at hacts
  cases hacts with
  | restart =>
    intro i id
    simp only [timely, List.all_eq_true] at h
    cases hf : s.flushes[i]? with
    | none => simp [view, hand, hf]
    | some flush =>
      have hflush := h flush (List.mem_of_getElem? hf)
      have hhand : s.view.hand i = flush.phase.hand := hand_of hf
      rw [hhand]
      cases hp : flush.phase.hand with
      | empty => simp
      | waiting a r =>
        refine ⟨by simp, fun q hq => ?_⟩
        obtain ⟨-, rfl⟩ : a = id ∧ r = q := by simpa using hq
        simpa [hp, view] using hflush
      | answered a => simp [hp] at hflush
  | take hf =>
    simp only [timely, hf, Bool.and_eq_true, Bool.not_eq_true', List.all_eq_true] at h
    refine ⟨by simpa [view] using h.1, fun w hw => ?_⟩
    cases hg : s.flushes[w]? with
    | none => simp [State.Holds, view, hand, hg] at hw
    | some flush =>
      have hnot := h.2 flush (List.mem_of_getElem? hg)
      rw [(holds_iff hg).mpr hw] at hnot
      cases hnot
  | @refused i answer now draft r left sent failed hf hrecord =>
    simp only [timely, hf, hrecord, Bool.false_or, Bool.not_eq_true'] at h
    exact ⟨draft.id, r, hand_of hf, by simpa [view] using h⟩
  | notRemoved hf => simp [timely, hf] at h
  | carry r =>
    intro id hid
    simp only [timely, Bool.not_true, Bool.false_or] at h
    cases hr : s.requests[r]? with
    | none => simp [State.For, view, hr] at hid
    | some sent =>
      have hitem : sent.origin.item = some id := by simpa [State.For, view, hr] using hid
      simp only [hr, Option.all_some, hitem, Option.isNone_some, Bool.false_or, List.any_eq_true] at h
      obtain ⟨flush, hmem, hawaits⟩ := h
      obtain ⟨i, hi⟩ := List.mem_iff_getElem?.mp hmem
      have hhand : s.view.hand i = flush.phase.hand := hand_of hi
      cases hp : flush.phase.hand with
      | waiting a q =>
        obtain rfl : q = r := by simpa [Flush.awaits, hp] using hawaits
        have hfor : s.view.For q a := ho.waiting i a q (hhand.trans hp)
        obtain rfl : a = id := by simpa using hfor.symm.trans hid
        exact ⟨i, hhand.trans hp⟩
      | _ => simp [Flush.awaits, hp] at hawaits
  | _ => trivial

end Oficina

/-- Over a run of timely steps the API makes at most one record of each draft. -/
theorem drafts_published_once (dart : Dart) (es : List Event)
    (timely : Runs.EveryStep (Oficina.step dart) (fun s e => s.timely dart e) .init es) :
    (Runs.run (Oficina.step dart) .init es).OneRecordEach := by
  have honce : Once (Runs.run (Oficina.step dart) .init es).view := by
    refine Runs.EveryStep.invariant (P := fun s => Once s.view) ?_ es _ ?_ timely
    · exact fun s e s' hs ht h => h.step (Oficina.view_step hs) (Oficina.careful h ht)
    · exact Once.of_empty Oficina.view_init.1 Oficina.view_init.2
  intro id r hr q hq hrf hqf
  exact honce.once r q id hr hq (Oficina.isFor_iff.mp hrf) (Oficina.isFor_iff.mp hqf)

def sentTwice : List Event :=
  queued ++ [.signIn "token", .resume 0, .resume 0, .api 0 true,
    .flushAnswer 0 (some ⟨true, ⟨200, some sampleBody⟩⟩) sampleNow, .resume 0, .disk 0 true, .disk 0 true,
    .resume 0, .send, .resume 1, .resume 1]

theorem sentTwice_once : (Runs.run (Oficina.step sampleDart) .init sentTwice).OneRecordEach :=
  drafts_published_once sampleDart sentTwice (by decide +kernel)

def answerLost : List Event :=
  queued ++ [.signIn "token", .resume 0, .resume 0, .api 0 true, .flushAnswer 0 none sampleNow, .resume 0, .send,
    .resume 1, .resume 1, .api 1 true]

theorem answerLost_twice : ¬ (Runs.run (Oficina.step sampleDart) .init answerLost).OneRecordEach := by
  intro h
  have hsame := h 1 0 (by decide +kernel) 1 (by decide +kernel) (by decide +kernel) (by decide +kernel)
  cases hsame

end Mototeca.Mobile
