import Mototeca.Oficina
import Mototeca.Runs

/-!
# The session of the app

`AppState` and the calls of its `ApiClient`, interleaved: a call takes the token
when it starts, and the session may have changed when its answer comes.
-/

namespace Mototeca.Mobile

structure Workshop where
  id : String
  cnpj : String
  name : String
  address : Option String
  verified : Bool

structure WorkshopSession where
  workshop : Workshop
  token : String

structure Owner where
  id : String
  name : String
  phone : String

structure OwnerSession where
  owner : Owner
  token : String

/-- `authToken` is the client's. -/
structure AppState where
  workshop : Option Workshop
  owner : Option Owner
  authToken : Option String
  sessionExpired : Bool

namespace AppState

variable (app : AppState)

def isSignedIn : Bool := app.workshop.isSome || app.owner.isSome

def signIn (session : WorkshopSession) : AppState :=
  { app with workshop := some session.workshop, owner := none, authToken := some session.token }

def signInAsOwner (session : OwnerSession) : AppState :=
  { app with owner := some session.owner, workshop := none, authToken := some session.token }

def signOut : AppState := { app with workshop := none, owner := none, authToken := none }

def acknowledgeExpiry : AppState := { app with sessionExpired := false }

end AppState

/-- A `call` or an `upload`; `answer` is `none` until it has come. -/
structure Call where
  request : HttpRequest
  answer : Option (Option HttpResponse)

/-- The server said 'unauthenticated' to the token of the request. -/
def Call.refused (dart : Dart) (c : Call) : Bool := c.answer.any fun response => rejected dart c.request.token response

/-- `ended` are the tokens of the sessions that `_expireSession` ended, and
`sentHome` counts how often the app went back to its first screen for it. -/
structure Sessions where
  app : AppState
  calls : List Call
  ended : List String
  sentHome : Nat

/-- An `answer` of `none` is an exception of the network or a timeout. -/
inductive SessionEvent where
  | call (procedure : String) (request : Json)
  | upload (path : String) (fields : List (String × String)) (filename contentType : String) (bytes : Bytes)
  | answer (i : Nat) (response : Option HttpResponse)
  | signIn (session : WorkshopSession)
  | signInAsOwner (session : OwnerSession)
  | signOut

namespace Sessions

def init : Sessions := ⟨⟨none, none, none, false⟩, [], [], 0⟩

variable (dart : Dart) (s : Sessions)

/-- `notifyListeners`, which runs `_onStateChanged`. -/
def notify : Sessions :=
  if s.app.sessionExpired then { s with app := s.app.acknowledgeExpiry, sentHome := s.sentHome + 1 } else s

def expireSession : Sessions :=
  if !s.app.isSignedIn then s
  else
    let s' := ({ s with app := s.app.signOut, ended := s.app.authToken.toList ++ s.ended }).notify
    ({ s' with app := { s'.app with sessionExpired := true } }).notify

def start (path : String) (body : HttpBody) : Sessions :=
  { s with calls := s.calls ++ [⟨⟨path, s.app.authToken, body⟩, none⟩] }

def answered (i : Nat) (response : Option HttpResponse) : Option Sessions :=
  match s.calls[i]? with
  | some ⟨request, none⟩ =>
    let s' := { s with calls := s.calls.set i ⟨request, some response⟩ }
    some (if rejected dart request.token response then s'.expireSession else s')
  | _ => none

def step : SessionEvent → Option Sessions
  | .call procedure request => some (s.start procedure (.json request))
  | .upload path fields filename contentType bytes =>
    if dart.mediaType contentType then some (s.start path (.multipart fields filename contentType bytes)) else none
  | .answer i response => s.answered dart i response
  | .signIn session => some ({ s with app := s.app.signIn session }).notify
  | .signInAsOwner session => some ({ s with app := s.app.signInAsOwner session }).notify
  | .signOut => some ({ s with app := s.app.signOut }).notify

/-- Every session that was ended for its token had the token refused. -/
def OnlyRefused : Prop := ∀ token ∈ s.ended, ∃ c ∈ s.calls, c.request.token = some token ∧ c.refused dart = true

/-- An answer that refuses a token comes while nobody is signed in or that is the session's token. -/
def current : SessionEvent → Bool
  | .answer i response =>
    match s.calls[i]? with
    | some ⟨request, none⟩ =>
      !rejected dart request.token response || !s.app.isSignedIn || s.app.authToken == request.token
    | _ => true
  | _ => true

section
variable {dart s} {s' : Sessions}

@[simp] theorem notify_calls : s.notify.calls = s.calls := by
  unfold notify
  split <;> rfl

@[simp] theorem notify_ended : s.notify.ended = s.ended := by
  unfold notify
  split <;> rfl

theorem expireSession_calls : s.expireSession.calls = s.calls := by
  unfold expireSession
  split
  · rfl
  · simp

theorem expireSession_ended :
    s.expireSession.ended = if s.app.isSignedIn then s.app.authToken.toList ++ s.ended else s.ended := by
  unfold expireSession
  cases s.app.isSignedIn <;> simp

theorem OnlyRefused.mono (h : s.OnlyRefused dart) (hended : s'.ended = s.ended)
    (hcalls : ∀ c ∈ s.calls, c.refused dart = true → c ∈ s'.calls) : s'.OnlyRefused dart := by
  intro token htoken
  rw [hended] at htoken
  obtain ⟨c, hc, hcarries, hrefused⟩ := h token htoken
  exact ⟨c, hcalls c hc hrefused, hcarries, hrefused⟩

theorem OnlyRefused.start (h : s.OnlyRefused dart) (path : String) (body : HttpBody) :
    (s.start path body).OnlyRefused dart :=
  h.mono rfl fun _ hc _ => List.mem_append_left _ hc

theorem refused_kept (dart : Dart) {i : Nat} {request : HttpRequest} (hi : s.calls[i]? = some ⟨request, none⟩)
    (answer : Option (Option HttpResponse)) :
    ∀ c ∈ s.calls, c.refused dart = true → c ∈ s.calls.set i ⟨request, answer⟩ := by
  intro c hc hrefused
  obtain ⟨j, hj⟩ := List.mem_iff_getElem?.mp hc
  refine List.mem_iff_getElem?.mpr ⟨j, ?_⟩
  by_cases hij : i = j
  · -- The call that is answered now was not refused before.
    subst hij
    obtain rfl : (⟨request, none⟩ : Call) = c := Option.some.inj (hi.symm.trans hj)
    simp [Call.refused] at hrefused
  · rw [List.getElem?_set_ne hij]
    exact hj

/-- Only the answer itself ends a session, and the refused call is then among the calls. -/
theorem OnlyRefused.answered (h : s.OnlyRefused dart) {i : Nat} {response : Option HttpResponse}
    (hs : s.answered dart i response = some s') (hcurrent : s.current dart (.answer i response) = true) :
    s'.OnlyRefused dart := by
  unfold Sessions.answered at hs
  split at hs
  case h_2 => cases hs
  case h_1 request hi =>
    simp only [Option.some.injEq] at hs
    have hkept := refused_kept dart hi (some response)
    have hnew : (⟨request, some response⟩ : Call) ∈ s.calls.set i ⟨request, some response⟩ :=
      List.mem_set (List.getElem?_eq_some_iff.mp hi).1 _
    by_cases hrej : rejected dart request.token response = true
    · rw [if_pos hrej] at hs
      subst hs
      intro token htoken
      rw [expireSession_calls]
      rw [expireSession_ended] at htoken
      by_cases hin : s.app.isSignedIn = true
      · simp only [hin, if_true, List.mem_append, Option.mem_toList] at htoken
        rcases htoken with htoken | htoken
        · simp only [current, hi, hrej, hin, Bool.not_true, Bool.false_or, beq_iff_eq] at hcurrent
          exact ⟨_, hnew, hcurrent ▸ htoken, hrej⟩
        · obtain ⟨c, hc, hcarries, hrefused⟩ := h token htoken
          exact ⟨c, hkept c hc hrefused, hcarries, hrefused⟩
      · simp only [hin, Bool.false_eq_true, if_false] at htoken
        obtain ⟨c, hc, hcarries, hrefused⟩ := h token htoken
        exact ⟨c, hkept c hc hrefused, hcarries, hrefused⟩
    · rw [if_neg hrej] at hs
      subst hs
      exact h.mono rfl hkept

theorem OnlyRefused.change (h : s.OnlyRefused dart) (app : AppState) : ({ s with app }).notify.OnlyRefused dart :=
  h.mono notify_ended fun c hc _ => by
    rw [notify_calls]
    exact hc

theorem OnlyRefused.step {e : SessionEvent} (h : s.OnlyRefused dart) (hs : s.step dart e = some s')
    (hcurrent : s.current dart e = true) : s'.OnlyRefused dart := by
  cases e with
  | call procedure request =>
    cases hs
    exact h.start _ _
  | upload path fields filename contentType bytes =>
    simp only [Sessions.step] at hs
    split at hs
    · cases hs
      exact h.start _ _
    · cases hs
  | answer i response => exact h.answered hs hcurrent
  | signIn session =>
    cases hs
    exact h.change _
  | signInAsOwner session =>
    cases hs
    exact h.change _
  | signOut =>
    cases hs
    exact h.change _

end

end Sessions

/-- In a run whose refusals are all of the session's own token, only a refused token loses its session. -/
theorem sessions_ended_when_refused (dart : Dart) (es : List SessionEvent)
    (current : Runs.EveryStep (Sessions.step dart) (fun s e => s.current dart e) .init es) :
    (Runs.run (Sessions.step dart) .init es).OnlyRefused dart :=
  Runs.EveryStep.invariant (P := fun s => s.OnlyRefused dart) (fun _ _ _ hs hcurrent h => h.step hs hcurrent) es _
    (fun _ htoken => absurd htoken List.not_mem_nil) current

/-! ## An answer that comes late -/

def refusal : String := "\x7b\"code\":\"unauthenticated\"\x7d"

def refusingDart : Dart :=
  { sampleDart with
    jsonDecode := fun text => if text == refusal then some (.map [("code", .string "unauthenticated")]) else none }

def sampleSession (token : String) : WorkshopSession := ⟨⟨"1", "11222333000181", "Oficina", none, false⟩, token⟩

def listRecords : SessionEvent := .call "mototeca.service.v1.ServiceRecordService/ListWorkshopRecords" (.map [])

def refused (i : Nat) : SessionEvent := .answer i (some ⟨401, some refusal⟩)

theorem refusedToken_ends :
    (Runs.run (Sessions.step refusingDart) .init
      [.signIn (sampleSession "T1"), listRecords, refused 0]).OnlyRefused refusingDart :=
  sessions_ended_when_refused refusingDart _ (by decide +kernel)

def signedInAgain : List SessionEvent :=
  [.signIn (sampleSession "T1"), listRecords, .signOut, .signIn (sampleSession "T2"), refused 0]

theorem lateRefusal_ends_other :
    ¬ (Runs.run (Sessions.step refusingDart) .init signedInAgain).OnlyRefused refusingDart := by
  intro h
  obtain ⟨c, hc, hcarries, -⟩ := h "T2" (by decide +kernel)
  have hnone : ∀ c ∈ (Runs.run (Sessions.step refusingDart) .init signedInAgain).calls,
      c.request.token ≠ some "T2" := by decide +kernel
  exact hnone c hc hcarries

end Mototeca.Mobile
