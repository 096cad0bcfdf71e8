import Mototeca.Flushing
import Mototeca.Runs

/-!
# Drafts are kept

A row leaves `outbox_drafts` because the user discarded the draft or because
the API made a record of it, as long as every answer that `create` accepts is
one of the API's that holds a record.
-/

namespace Mototeca.Mobile

open Forwarding ServiceRecordRepository

/-! ## What create accepts -/

def isMap : Option Json → Bool
  | some (.map _) => true
  | _ => false

def holdsRecord (dart : Dart) (response : HttpResponse) : Bool :=
  response.statusCode == 200 && response.body.any fun text => isMap ((decode dart text).lookup "record")

/-- Status 200, and a body whose `record` is missing, `null`, or an object that
`ServiceRecord.fromJson` reads. A body that is empty or no JSON object has none. -/
def readable (dart : Dart) (now : DateTime) (response : HttpResponse) : Bool :=
  response.statusCode == 200 && response.body.any fun text =>
    match (decode dart text).lookup "record" with
    | none | some .null => true
    | some (.map m) => (ServiceRecord.fromJson dart now m).isOk
    | some _ => false

section
variable (dart : Dart) (now : DateTime)

theorem complete_ok (fallback text : String) :
    complete dart fallback (some ⟨200, some text⟩) = .ok (decode dart text) := by
  simp [complete]

theorem complete_refused (fallback : String) {statusCode : Nat} (hs : statusCode ≠ 200) (body : Option String) :
    ∃ thrown, complete dart fallback (some ⟨statusCode, body⟩) = .error thrown := by
  cases body with
  | none => exact ⟨_, rfl⟩
  | some text =>
    simp only [complete, ne_eq, hs, not_false_eq_true, ite_true]
    cases asString ((decode dart text).lookup "code") with
    | error thrown => exact ⟨_, rfl⟩
    | ok code =>
      cases asString ((decode dart text).lookup "message") with
      | error thrown => exact ⟨_, rfl⟩
      | ok message => exact ⟨_, rfl⟩

theorem isOk_record (response : HttpResponse) :
    (record dart now (some response)).isOk = readable dart now response := by
  obtain ⟨statusCode, body⟩ := response
  by_cases hs : statusCode = 200
  · subst hs
    cases body with
    | none => rfl
    | some text =>
      simp only [record, complete_ok, readable, bind, Except.bind, beq_self_eq_true, Bool.true_and, Option.any_some]
      cases (decode dart text).lookup "record" with
      | none => rfl
      | some value => cases value <;> rfl
  · obtain ⟨thrown, ht⟩ := complete_refused dart callFailed hs body
    have hbeq : (statusCode == 200) = false := by simpa using hs
    simp only [record, ht, readable, hbeq, Bool.false_and]
    rfl

end

/-! ## Nothing is lost -/

namespace Oficina

variable (dart : Dart) (s : Oficina)

def answered : Event → Option (Nat × HttpResponse × Bool × DateTime)
  | .flushAnswer i (some answer) now =>
    match s.flushes[i]? with
    | some ⟨.creating _ r, _, _, _⟩ => some (r, answer.response, answer.fromApi, now)
    | _ => none
  | _ => none

/-- The API answers with a record exactly when it has created one. -/
def apiTells (e : Event) : Bool :=
  (s.answered e).all fun (r, response, fromApi, _) =>
    !fromApi || s.created.contains r == holdsRecord dart response

/-- Every answer that `create` accepts comes from the API and holds a record. -/
def genuine (e : Event) : Bool :=
  (s.answered e).all fun (_, response, fromApi, now) =>
    !readable dart now response || (fromApi && holdsRecord dart response)

def published (id : Nat) : Bool := s.created.any fun r => s.isFor r id

def discards (id : Nat) : Event → Bool
  | .discard a => a == id
  | _ => false

/-- A row that the step deletes is that of a discarded or a published draft. -/
def keeps (e : Event) : Bool :=
  s.db.ids.all fun id => (Runs.next (step dart) s e).db.ids.contains id || discards id e || s.published id

variable {dart s}

theorem published_iff {id : Nat} : s.published id = true ↔ s.view.Delivered id := by
  simp only [published, List.any_eq_true, isFor_iff]
  rfl

theorem truthful {e : Event} (ht : s.apiTells dart e = true) (hg : s.genuine dart e = true) :
    Truthful s.view (s.action dart e) := by
  have hacts := action_cases dart s e
  generalize s.action dart e = move at hacts
  cases hacts with
  | @accept i answer now draft r left sent failed hf hrecord =>
    cases answer with
    | none => cases hrecord
    | some answer =>
      have hread : readable dart now answer.response = true := by rwa [Option.map_some, isOk_record] at hrecord
      intro a q hq
      obtain ⟨-, rfl⟩ : draft.id = a ∧ r = q := by simpa [view, hand, hf, FlushPhase.hand] using hq
      simp only [apiTells, genuine, answered, hf, Option.all_some, hread, Bool.not_true, Bool.false_or,
        Bool.and_eq_true, Bool.or_eq_true, Bool.not_eq_true', beq_iff_eq] at ht hg
      rcases ht with ht | ht
      · rw [hg.1] at ht
        cases ht
      · rw [hg.2] at ht
        simpa [view] using ht
  | _ => trivial

theorem discards_of_action {e : Event} {id : Nat} (h : s.action dart e = .discard id) : discards id e = true := by
  have hacts := action_cases dart s e
  rw [h] at hacts
  cases hacts with
  | discard => simp [discards]

theorem keeps_of_honest {e : Event} (h : Honest s.view) : s.keeps dart e = true := by
  simp only [keeps, List.all_eq_true, Bool.or_eq_true, List.contains_iff_mem]
  intro id hid
  by_cases hid' : id ∈ (Runs.next (step dart) s e).db.ids
  · exact Or.inl (Or.inl hid')
  · cases hs : s.step dart e with
    | none => simp [Runs.next, hs, hid] at hid'
    | some s' =>
      rw [Runs.next_of_step hs] at hid'
      rcases h.leaves (view_step hs) hid hid' with hact | hdel
      · exact Or.inl (Or.inr (discards_of_action hact))
      · exact Or.inr (published_iff.mpr hdel)

end Oficina

/-- In every run in which the API answers as it does and every accepted answer
is the API's, no row of a draft is lost. -/
theorem drafts_kept (dart : Dart) (es : List Event)
    (tells : Runs.EveryStep (Oficina.step dart) (fun s e => s.apiTells dart e) .init es)
    (genuine : Runs.EveryStep (Oficina.step dart) (fun s e => s.genuine dart e) .init es) :
    Runs.EveryStep (Oficina.step dart) (fun s e => s.keeps dart e) .init es := by
  have hboth := Runs.EveryStep.and es _ tells genuine
  refine Runs.EveryStep.along (P := fun s => Honest s.view) ?_ ?_ es _ ?_ hboth
  · exact fun s e s' hs ht h => h.step (Oficina.view_step hs) (Oficina.truthful ht.1 ht.2)
  · exact fun s e h _ => Oficina.keeps_of_honest h
  · exact Honest.of_empty Oficina.view_init.1

/-! ## A captive portal -/

def flushAnswered (answer : Answer) (created : Bool) : List Event :=
  queued ++ [.signIn "token", .resume 0, .resume 0] ++ (if created then [.api 0 true] else []) ++
    [.flushAnswer 0 (some answer) sampleNow, .resume 0, .disk 0 true]

theorem published_kept : Runs.EveryStep (Oficina.step sampleDart) (fun s e => s.keeps sampleDart e) .init
    (flushAnswered ⟨true, ⟨200, some sampleBody⟩⟩ true) :=
  drafts_kept sampleDart _ (by decide +kernel) (by decide +kernel)

theorem loginPage_loses :
    Runs.EveryStep (Oficina.step sampleDart) (fun s e => s.apiTells sampleDart e) .init
        (flushAnswered ⟨false, ⟨200, some "<html>Entre no Wi-Fi</html>"⟩⟩ false) ∧
      ¬ Runs.EveryStep (Oficina.step sampleDart) (fun s e => s.keeps sampleDart e) .init
        (flushAnswered ⟨false, ⟨200, some "<html>Entre no Wi-Fi</html>"⟩⟩ false) := by
  decide +kernel

end Mototeca.Mobile
