import Mototeca.Guessing

/-!
# Enumerating accounts

One schedule of `Login` requests is run twice, against a store and against the
same store without the account of `key`. As long as no request for `key` has its
password, the second run is the first one seen without that account.
-/

namespace Mototeca

abbrev AccountStore := String → Option Account

/-- The steps of requests over a store, whose query may fail. -/
inductive LoginStep where
  | arrive (identifier password : String)
  | lookup (i : Nat) (fails : Bool)
  | compare (i : Nat)
  | fail (i : Nat)
  | succeed (i : Nat)

def LoginPhase.stored (store : AccountStore) : LoginPhase → Option Account
  | .admitted key _ => store key
  | _ => none

def LoginPhase.answer : LoginPhase → Option (Except Failure Bytes)
  | .answered answer => some answer
  | _ => none

/-- What remains of a request when `key` has no account. -/
def LoginPhase.unregister (key : String) : LoginPhase → LoginPhase
  | .found k password account => .found k password (if k = key then none else account)
  | phase => phase

namespace LoginState

/-- `FindByCNPJ` and `FindByPhone` for the request `i`. -/
def find (s : LoginState) (store : AccountStore) (i : Nat) (fails : Bool) : Except Unit (Option Account) :=
  if fails then .error () else .ok ((s.requests[i]?).bind (·.stored store))

/-- The answers so far, in the order of the requests. -/
def answers (s : LoginState) : List (Option (Except Failure Bytes)) := s.requests.map (·.answer)

def unregister (key : String) (s : LoginState) : LoginState :=
  { s with requests := s.requests.map (·.unregister key), compared := s.compared.filter fun c => c.1 != key }

end LoginState

def LoginStep.event (store : AccountStore) (s : LoginState) : LoginStep → LoginEvent
  | .arrive identifier password => .arrive identifier password
  | .lookup i fails => .lookup i (s.find store i fails)
  | .compare i => .compare i
  | .fail i => .fail i
  | .succeed i => .succeed i

section
variable (compareHash : String → String → Bool) (signer : Signer) (flow : LoginFlow)

/-- A step of the handler over a store, at a time. -/
def handle (store : AccountStore) (s : LoginState) (e : Time × LoginStep) : Option LoginState :=
  s.step compareHash signer flow e.1 (e.2.event store s)

def serveLogins (store : AccountStore) (now : Time) (es : List (Time × LoginStep)) : LoginState :=
  Runs.run (handle compareHash signer flow store) (.init now) es

/-- The password that `e` sends is not the one of `account`, if `e` is a request for `key`. -/
def WrongPassword (key : String) (account : Account) (e : Time × LoginStep) : Prop :=
  ∀ identifier password, e.2 = .arrive identifier password → flow.normalize identifier = key →
    checkPassword compareHash account.passwordHash password = false

end

/-! ## The two runs -/

section
variable {compareHash : String → String → Bool} {signer : Signer} {flow : LoginFlow}
variable {store : AccountStore} {key : String} {account : Account}

/-- A request for `key` carries a wrong password and has found nothing but `account`. -/
def LoginPhase.Guesses (compareHash : String → String → Bool) (key : String) (account : Account) : LoginPhase → Prop
  | .admitted k password => k = key → checkPassword compareHash account.passwordHash password = false
  | .found k password stored =>
    k = key → stored = some account ∧ checkPassword compareHash account.passwordHash password = false
  | _ => True

theorem LoginPhase.unregister_answer (p : LoginPhase) : (p.unregister key).answer = p.answer := by
  cases p <;> rfl

theorem arrive_guesses (accounts : Accounts) (now : Time) {identifier password : String}
    (hwrong : flow.normalize identifier = key → checkPassword compareHash account.passwordHash password = false) :
    (flow.arrive accounts now identifier password).Guesses compareHash key account := by
  simp only [LoginFlow.arrive]
  split
  · trivial
  · split
    · trivial
    · exact hwrong

theorem arrive_unregister (accounts : Accounts) (now : Time) (identifier password : String) :
    (flow.arrive accounts now identifier password).unregister key = flow.arrive accounts now identifier password := by
  simp only [LoginFlow.arrive]
  split
  · rfl
  · split <;> rfl

theorem comparePassword_guesses (k password : String) (stored : Option Account) :
    (comparePassword compareHash k password stored).Guesses compareHash key account := by
  simp only [comparePassword]
  split <;> trivial

/-- A wrong password for the account and any password for no account both fail. -/
theorem comparePassword_unregister {k password : String} {stored : Option Account}
    (h : (LoginPhase.found k password stored).Guesses compareHash key account) :
    (comparePassword compareHash k password stored).unregister key =
      comparePassword compareHash k password (if k = key then none else stored) := by
  by_cases hk : k = key
  · obtain ⟨rfl, hwrong⟩ := h hk
    simp [comparePassword, hwrong, hk, LoginPhase.unregister]
  · rw [if_neg hk]
    simp only [comparePassword]
    split <;> rfl

namespace LoginState

def Guesses (compareHash : String → String → Bool) (key : String) (account : Account) (s : LoginState) : Prop :=
  ∀ p ∈ s.requests, p.Guesses compareHash key account

variable {s s' : LoginState}

theorem unregister_answers (s : LoginState) : (s.unregister key).answers = s.answers := by
  simp only [answers, unregister, List.map_map]
  exact List.map_congr_left fun p _ => p.unregister_answer

theorem unregister_getElem? (s : LoginState) (i : Nat) :
    (s.unregister key).requests[i]? = (s.requests[i]?).map (·.unregister key) := List.getElem?_map ..

theorem unregister_set (s : LoginState) (accounts : Accounts) (now : Time) (i : Nat) (p : LoginPhase)
    (compared : List (String × Time)) :
    unregister key ⟨accounts, now, s.requests.set i p, compared⟩ =
      ⟨accounts, now, (s.unregister key).requests.set i (p.unregister key), compared.filter fun c => c.1 != key⟩ := by
  simp only [unregister, List.map_set]

theorem Guesses.set {requests : List LoginPhase} (h : ∀ p ∈ requests, p.Guesses compareHash key account) {i : Nat}
    {p : LoginPhase} (hp : p.Guesses compareHash key account) :
    ∀ q ∈ requests.set i p, q.Guesses compareHash key account := by
  intro q hq
  rcases List.mem_or_eq_of_mem_set hq with hq | rfl
  · exact h q hq
  · exact hp

theorem Guesses.handle (h : s.Guesses compareHash key account) (hkey : store key = some account)
    {e : Time × LoginStep} (hwrong : WrongPassword compareHash flow key account e)
    (hs : handle compareHash signer flow store s e = some s') : s'.Guesses compareHash key account := by
  obtain ⟨t, e⟩ := e
  obtain ⟨-, hstep⟩ := step_cases hs
  cases e with
  | arrive identifier password =>
    cases hstep
    intro p hp
    rcases List.mem_append.mp hp with hp | hp
    · exact h p hp
    · rw [List.mem_singleton.mp hp]
      exact arrive_guesses _ _ (hwrong identifier password rfl)
  | lookup i fails =>
    generalize hevent : LoginStep.event store s (.lookup i fails) = event at hstep
    cases hstep with
    | lookupFails => exact Guesses.set h trivial
    | @lookup j k password stored hi =>
      obtain ⟨rfl, hfound⟩ := LoginEvent.lookup.inj hevent
      refine Guesses.set h fun hk => ⟨?_, h _ (List.mem_of_getElem? hi) hk⟩
      cases fails with
      | true => cases hfound
      | false =>
        obtain rfl : store k = stored := by simpa [find, hi, LoginPhase.stored] using hfound
        rw [hk, hkey]
    | _ => cases hevent
  | compare i =>
    cases hstep
    exact Guesses.set h (comparePassword_guesses ..)
  | fail i =>
    cases hstep
    exact Guesses.set h trivial
  | succeed i =>
    cases hstep
    exact Guesses.set h trivial

theorem handle_unregister (h : s.Guesses compareHash key account) (e : Time × LoginStep) :
    handle compareHash signer flow (Function.update store key none) (s.unregister key) e =
      (handle compareHash signer flow store s e).map (·.unregister key) := by
  obtain ⟨t, e⟩ := e
  by_cases hpast : t < s.now
  · have hpast' : t < (s.unregister key).now := hpast
    simp only [Mototeca.handle, step, if_pos hpast, if_pos hpast', Option.map_none]
  have hpast' : ¬ t < (s.unregister key).now := hpast
  simp only [Mototeca.handle, step, if_neg hpast, if_neg hpast']
  cases e with
  | arrive identifier password =>
    simp [LoginStep.event, unregister, arrive_unregister]
  | lookup i fails =>
    simp only [LoginStep.event, find, unregister_getElem?]
    cases hi : s.requests[i]? with
    | none => rfl
    | some p =>
      cases p <;> try rfl
      case admitted k password =>
        cases fails with
        | true =>
          simp only [Option.map_some, LoginPhase.unregister, if_true, unregister_set]
          rfl
        | false =>
          have hfind : (if k = key then none else store k) = Function.update store key none k := by
            by_cases hk : k = key <;> simp [hk]
          simp only [Option.map_some, Option.bind_some, LoginPhase.unregister, LoginPhase.stored, Bool.false_eq_true,
            if_false, unregister_set, hfind]
          rfl
  | compare i =>
    simp only [LoginStep.event, unregister_getElem?]
    cases hi : s.requests[i]? with
    | none => rfl
    | some p =>
      have hp := h p (List.mem_of_getElem? hi)
      cases p <;> try rfl
      case found k password stored =>
        have hlog : (if (if k = key then none else stored).isSome then (k, t) :: (s.unregister key).compared
            else (s.unregister key).compared) =
              (if stored.isSome then (k, t) :: s.compared else s.compared).filter fun c => c.1 != key := by
          by_cases hk : k = key <;> cases stored <;> simp [unregister, hk]
        simp only [Option.map_some, unregister_set, comparePassword_unregister hp, ← hlog]
        rfl
  | fail i =>
    simp only [LoginStep.event, unregister_getElem?]
    cases hi : s.requests[i]? with
    | none => rfl
    | some p =>
      cases p <;> try rfl
      case failing k =>
        simp only [Option.map_some, LoginPhase.unregister, unregister_set]
        rfl
  | succeed i =>
    simp only [LoginStep.event, unregister_getElem?]
    cases hi : s.requests[i]? with
    | none => rfl
    | some p =>
      cases p <;> try rfl
      case passed k found =>
        simp only [Option.map_some, LoginPhase.unregister, unregister_set]
        rfl

/-- The run without the account of `key` is the other run without it. -/
theorem serveLogins_unregister (hkey : store key = some account) (now : Time) (es : List (Time × LoginStep))
    (hwrong : ∀ e ∈ es, WrongPassword compareHash flow key account e) :
    serveLogins compareHash signer flow (Function.update store key none) now es =
      (serveLogins compareHash signer flow store now es).unregister key :=
  Runs.EveryStep.run_map (P := Guesses compareHash key account)
    (R := fun _ e => WrongPassword compareHash flow key account e)
    (fun _ _ _ hs hR h => h.handle hkey hR hs) (fun _ e h => handle_unregister h e) es (.init now)
    (fun _ hp => absurd hp List.not_mem_nil) (Runs.EveryStep.of_mem es (fun e he _ => hwrong e he) _)

end LoginState

end

/-- The answers and the throttle do not depend on whether `key` is registered. -/
theorem login_reveals_nothing (compareHash : String → String → Bool) (signer : Signer) (kind : Kind)
    (store : AccountStore) (key : String) (account : Account) (hkey : store key = some account) (now : Time)
    (es : List (Time × LoginStep))
    (hwrong : ∀ e ∈ es, WrongPassword compareHash (login kind) key account e) :
    let registered := serveLogins compareHash signer (login kind) store now es
    let unregistered := serveLogins compareHash signer (login kind) (Function.update store key none) now es
    registered.answers = unregistered.answers ∧ registered.accounts = unregistered.accounts := by
  intro registered unregistered
  have hsame : unregistered = registered.unregister key :=
    LoginState.serveLogins_unregister hkey now es hwrong
  rw [hsame]
  exact ⟨registered.unregister_answers.symm, rfl⟩

/-! ## One request, all of its steps -/

/-- The steps of the request `i`, one after the other. -/
def wholeRequest (i : Nat) (t : Time) (identifier password : String) : List (Time × LoginStep) :=
  [(t, .arrive identifier password), (t, .lookup i false), (t, .compare i), (t, .fail i), (t, .succeed i)]

def sampleStore : AccountStore := fun key => if key = "11222333000181" then some ⟨ascii "1", "senha-certa"⟩ else none

/-- A comparison that a digest passes with its own text. -/
def sampleCompare (digest plain : String) : Bool := digest == plain

theorem oneAttempt_reveals_nothing :
    let es := wholeRequest 0 0 "11.222.333/0001-81" "senha-errada"
    let registered := serveLogins sampleCompare sampleSigner (login .workshop) sampleStore 0 es
    let unregistered := serveLogins sampleCompare sampleSigner (login .workshop)
      (Function.update sampleStore "11222333000181" none) 0 es
    registered.answers = unregistered.answers ∧ registered.accounts = unregistered.accounts := by
  refine login_reveals_nothing sampleCompare sampleSigner .workshop sampleStore "11222333000181"
    ⟨ascii "1", "senha-certa"⟩ (by decide) 0 _ fun e he identifier password harrive _ => ?_
  simp only [wholeRequest, List.mem_cons, List.not_mem_nil, or_false] at he
  rcases he with rfl | rfl | rfl | rfl | rfl <;> cases harrive
  decide

end Mototeca
