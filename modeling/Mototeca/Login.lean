import Mathlib.Logic.Function.Basic
import Mototeca.Runs
import Mototeca.Tokens

/-!
# Signing in

`Handler.Login` of both domains, step by step, over the `LoginThrottle` that
each handler holds. Requests interleave at every step; the throttle's own
methods are atomic, as under its mutex.
-/

namespace Mototeca

/-! ## LoginThrottle -/

def loginFailureLimit : Nat := 5
def loginLockout : Time := 5 * 60 * second
def lockedMessage : String := "muitas tentativas para esta conta — aguarde alguns minutos"

/-- `lockedUntil` is `none` for the zero `time.Time`, which is before any clock. -/
structure LoginFailures where
  count : Nat
  lastFailure : Time
  lockedUntil : Option Time
  deriving DecidableEq

abbrev Accounts := String → Option LoginFailures

namespace Accounts

variable (limit : Nat) (lockout : Time) (accounts : Accounts) (now : Time) (key : String)

def locked : Bool := (accounts key).any fun record => record.lockedUntil.any fun u => now < u

def stale (record : LoginFailures) : Bool :=
  now - record.lastFailure > lockout && record.lockedUntil.all fun u => now > u

def evictStale : Accounts := fun k => (accounts k).filter fun record => !stale lockout now record

def failOn (record : LoginFailures) : LoginFailures :=
  if record.count + 1 ≥ limit then ⟨0, now, some (now + lockout)⟩ else ⟨record.count + 1, now, record.lockedUntil⟩

@[simp] theorem failOn_lastFailure (record : LoginFailures) : (failOn limit lockout now record).lastFailure = now := by
  unfold failOn
  split <;> rfl

/-- A record whose last failure is more than `lockout` ago is replaced by a new one. -/
def fail : Accounts :=
  match (accounts key).filter fun record => now - record.lastFailure ≤ lockout with
  | some record => Function.update accounts key (some (failOn limit lockout now record))
  | none => Function.update (evictStale lockout accounts now) key (some (failOn limit lockout now ⟨0, now, none⟩))

def succeed : Accounts := Function.update accounts key none

def counted : Nat :=
  match (accounts key).filter fun record => now - record.lastFailure ≤ lockout with
  | some record => record.count
  | none => 0

end Accounts

/-! ## Handler.Login -/

structure Account where
  id : Bytes
  passwordHash : String
  deriving DecidableEq

structure LoginFlow where
  normalize : String → String
  kind : Kind
  unauthenticated : String

def onlyDigits (raw : String) : String := String.ofList (raw.toList.filter fun c => '0' ≤ c && c ≤ '9')

def normalizeCNPJ (raw : String) : String := onlyDigits raw

def normalizePhone (raw : String) : String := onlyDigits raw

def workshopLogin : LoginFlow := ⟨normalizeCNPJ, .workshop, "CNPJ ou senha inválidos"⟩

def ownerLogin : LoginFlow := ⟨normalizePhone, .owner, "celular ou senha inválidos"⟩

def dummyHash : String := "$2a$10$N9qo8uLOickgx2ZMRZoMyeIjZAgcfl7p92ldGxad68LJZdL17lhWy"

inductive LoginPhase where
  | admitted (key password : String)
  | found (key password : String) (account : Option Account)
  /-- `CheckPassword` said no, or there is no account: `Fail` is next. -/
  | failing (key : String)
  | passed (key : String) (account : Account)
  | answered (answer : Except Failure Bytes)

/-- The request has made a comparison for `key` that is yet to be counted. -/
def LoginPhase.isFailing (key : String) : LoginPhase → Bool
  | .failing k => k == key
  | _ => false

/-- One step of one request. `lookup` is given what the store returns. -/
inductive LoginEvent where
  | arrive (identifier password : String)
  | lookup (i : Nat) (stored : Except Unit (Option Account))
  | compare (i : Nat)
  | fail (i : Nat)
  | succeed (i : Nat)

/-- The throttle, the clock, the requests in order of arrival and the
comparisons with an account's own digest so far, each with its key and time. -/
structure LoginState where
  accounts : Accounts
  now : Time
  requests : List LoginPhase
  compared : List (String × Time)

section
variable (compareHash : String → String → Bool) (signer : Signer) (flow : LoginFlow)

def checkPassword (digest plain : String) : Bool := digest != "" && compareHash digest plain

def issueToken (account : Account) (now : Time) : Except Failure Bytes :=
  match signer.issue ⟨flow.kind, account.id⟩ now with
  | .ok token => .ok token
  | .error _ => .error (.connect .internal "falha ao iniciar a sessão")

/-- The first step of `Login`, up to the answer of `Locked`. -/
def LoginFlow.arrive (accounts : Accounts) (now : Time) (identifier password : String) : LoginPhase :=
  let key := flow.normalize identifier
  if key == "" || password == "" then .answered (.error (.connect .unauthenticated flow.unauthenticated))
  else if accounts.locked now key then .answered (.error (.connect .resourceExhausted lockedMessage))
  else .admitted key password

def comparePassword (key password : String) (account : Option Account) : LoginPhase :=
  let digest := (account.map (·.passwordHash)).getD dummyHash
  match checkPassword compareHash digest password, account with
  | true, some account => .passed key account
  | _, _ => .failing key

namespace LoginState

/-- What a step makes of the state, at the time `now`; `none` where it cannot happen. -/
def step (s : LoginState) (now : Time) (e : LoginEvent) : Option LoginState :=
  if now < s.now then none
  else
    match e with
    | .arrive identifier password =>
      some { s with now, requests := s.requests ++ [flow.arrive s.accounts now identifier password] }
    | .lookup i stored =>
      match s.requests[i]? with
      | some (.admitted key password) =>
        match stored with
        | .error _ => some { s with
            now, requests := s.requests.set i (.answered (.error (.connect .internal "falha ao entrar"))) }
        | .ok account => some { s with now, requests := s.requests.set i (.found key password account) }
      | _ => none
    | .compare i =>
      match s.requests[i]? with
      | some (.found key password account) => some { s with
          now, requests := s.requests.set i (comparePassword compareHash key password account)
          compared := if account.isSome then (key, now) :: s.compared else s.compared }
      | _ => none
    | .fail i =>
      match s.requests[i]? with
      | some (.failing key) => some { s with
          now, accounts := s.accounts.fail loginFailureLimit loginLockout now key
          requests := s.requests.set i (.answered (.error (.connect .unauthenticated flow.unauthenticated))) }
      | _ => none
    | .succeed i =>
      match s.requests[i]? with
      | some (.passed key account) => some { s with
          now, accounts := s.accounts.succeed key
          requests := s.requests.set i (.answered (issueToken signer flow account now)) }
      | _ => none

/-- What `step` does to the requests, one constructor for each outcome. -/
inductive Stepped (s : LoginState) (now : Time) : LoginEvent → LoginState → Prop where
  | arrive (identifier password : String) : Stepped s now (.arrive identifier password)
      { s with now, requests := s.requests ++ [flow.arrive s.accounts now identifier password] }
  | lookupFails {i key password} (hi : s.requests[i]? = some (.admitted key password)) :
      Stepped s now (.lookup i (.error ()))
        { s with now, requests := s.requests.set i (.answered (.error (.connect .internal "falha ao entrar"))) }
  | lookup {i key password} (account : Option Account) (hi : s.requests[i]? = some (.admitted key password)) :
      Stepped s now (.lookup i (.ok account))
        { s with now, requests := s.requests.set i (.found key password account) }
  | compare {i key password account} (hi : s.requests[i]? = some (.found key password account)) :
      Stepped s now (.compare i)
        { s with
          now, requests := s.requests.set i (comparePassword compareHash key password account)
          compared := if account.isSome then (key, now) :: s.compared else s.compared }
  | fail {i key} (hi : s.requests[i]? = some (.failing key)) : Stepped s now (.fail i)
      { s with
        now, accounts := s.accounts.fail loginFailureLimit loginLockout now key
        requests := s.requests.set i (.answered (.error (.connect .unauthenticated flow.unauthenticated))) }
  | succeed {i key account} (hi : s.requests[i]? = some (.passed key account)) : Stepped s now (.succeed i)
      { s with
        now, accounts := s.accounts.succeed key
        requests := s.requests.set i (.answered (issueToken signer flow account now)) }

variable {compareHash signer flow} in
theorem step_cases {s s' : LoginState} {now : Time} {e : LoginEvent}
    (h : s.step compareHash signer flow now e = some s') :
    s.now ≤ now ∧ s.Stepped compareHash signer flow now e s' := by
  unfold step at h
  split at h
  · cases h
  · next hnow =>
    refine ⟨not_lt.mp hnow, ?_⟩
    cases e with
    | arrive identifier password =>
      cases h
      exact .arrive identifier password
    | lookup i stored =>
      dsimp only at h
      split at h
      · next hi =>
        split at h
        · cases h
          exact .lookupFails hi
        · cases h
          exact .lookup _ hi
      · cases h
    | compare i =>
      dsimp only at h
      split at h
      · next hi =>
        cases h
        exact .compare hi
      · cases h
    | fail i =>
      dsimp only at h
      split at h
      · next hi =>
        cases h
        exact .fail hi
      · cases h
    | succeed i =>
      dsimp only at h
      split at h
      · next hi =>
        cases h
        exact .succeed hi
      · cases h

def advance (s : LoginState) (e : Time × LoginEvent) : Option LoginState := s.step compareHash signer flow e.1 e.2

def run (s : LoginState) (es : List (Time × LoginEvent)) : LoginState :=
  Runs.run (advance compareHash signer flow) s es

def EveryStep (R : LoginState → Time × LoginEvent → Prop) (s : LoginState) (es : List (Time × LoginEvent)) : Prop :=
  Runs.EveryStep (advance compareHash signer flow) R s es

def init (now : Time) : LoginState := ⟨fun _ => none, now, [], []⟩

end LoginState

end

end Mototeca
