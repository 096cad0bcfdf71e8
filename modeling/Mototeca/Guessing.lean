import Mathlib.Tactic.Linarith
import Mototeca.Login

/-!
# Guessing a password

The `Locked` check and the `Fail` of a request are two critical sections, so
requests in flight are not counted. Comparisons that do meet a current count
stay within `loginFailureLimit` in every window of length `loginLockout`.
-/

namespace Mototeca

/-! ## Counting comparisons -/

namespace LoginState

variable (s : LoginState) (key : String)

def comparedSince (T : Time) : Nat := s.compared.countP fun c => c.1 == key && T ≤ c.2

def comparedIn (T : Time) : Nat := s.compared.countP fun c => c.1 == key && T ≤ c.2 && c.2 < T + loginLockout

def Bounded : Prop := ∀ T, s.comparedIn key T ≤ loginFailureLimit

def uncounted : Nat := s.requests.countP (·.isFailing key)

/-- A comparison for `key` meets the account unlocked, with fewer than
`loginFailureLimit` failures counted or still to count. -/
def Timely (s : LoginState) (e : Time × LoginEvent) : Prop :=
  ∀ i password account, e.2 = .compare i → s.requests[i]? = some (.found key password (some account)) →
    s.accounts.locked e.1 key = false ∧
      s.accounts.counted loginLockout e.1 key + s.uncounted key < loginFailureLimit

def Fails (compareHash : String → String → Bool) (s : LoginState) (e : Time × LoginEvent) : Prop :=
  ∀ i password account, e.2 = .compare i → s.requests[i]? = some (.found key password (some account)) →
    checkPassword compareHash account.passwordHash password = false

def countedSince (T : Time) : Nat :=
  match (s.accounts key).filter fun record => T ≤ record.lastFailure with
  | some record => record.count
  | none => 0

def LockedSince (T : Time) : Prop :=
  ∃ record u, s.accounts key = some record ∧ record.lockedUntil = some u ∧ T + loginLockout ≤ u

/-- A comparison of the last `loginLockout` is behind a lock, counted, or still to count. -/
structure Counted : Prop where
  past : ∀ c ∈ s.compared, c.2 ≤ s.now
  lock : ∀ record u, s.accounts key = some record → record.lockedUntil = some u → u ≤ record.lastFailure + loginLockout
  failure : ∀ record, s.accounts key = some record → record.lastFailure ≤ s.now
  covered : ∀ T, s.now < T + loginLockout →
    s.LockedSince key T ∨ s.comparedSince key T ≤ s.uncounted key + s.countedSince key T
  noneSucceeds : ∀ account, .passed key account ∉ s.requests
  bounded : s.Bounded key

theorem countP_set_add {α : Type} (f : α → Bool) (p q : α) : ∀ (l : List α) (i : Nat), l[i]? = some p →
    (l.set i q).countP f + (if f p then 1 else 0) = l.countP f + (if f q then 1 else 0) := by
  intro l
  induction l with
  | nil => intro i h; cases h
  | cons a l ih =>
    intro i h
    cases i with
    | zero =>
      obtain rfl : a = p := by simpa using h
      simp only [List.set_cons_zero, List.countP_cons]
      omega
    | succ i =>
      have := ih i (by simpa using h)
      simp only [List.set_cons_succ, List.countP_cons]
      omega

section
variable {s : LoginState} {key : String}

theorem Counted.init (now : Time) (key : String) : (LoginState.init now).Counted key where
  past := by simp [LoginState.init]
  lock := by simp [LoginState.init]
  failure := by simp [LoginState.init]
  covered T _ := Or.inr (by simp [LoginState.init, comparedSince])
  noneSucceeds := by simp [LoginState.init]
  bounded T := by simp [LoginState.init, comparedIn]

theorem Counted.advance (h : s.Counted key) {now : Time} (hle : s.now ≤ now) :
    ({ s with now } : LoginState).Counted key :=
  { h with
    past := fun c hc => (h.past c hc).trans hle
    failure := fun record hr => (h.failure record hr).trans hle
    covered := fun T hT => h.covered T (lt_of_le_of_lt hle hT) }

theorem Counted.requests (h : s.Counted key) {requests : List LoginPhase}
    (hu : s.uncounted key ≤ requests.countP (·.isFailing key)) (hp : ∀ account, .passed key account ∉ requests) :
    ({ s with requests } : LoginState).Counted key :=
  { h with
    covered := fun T hT => (h.covered T hT).imp id fun hc => hc.trans (Nat.add_le_add_right hu _)
    noneSucceeds := hp }

theorem Counted.other (h : s.Counted key) {k : String} {t : Time} (hk : k ≠ key) (ht : t ≤ s.now) :
    ({ s with compared := (k, t) :: s.compared } : LoginState).Counted key := by
  have hsince : ∀ T, ({ s with compared := (k, t) :: s.compared } : LoginState).comparedSince key T =
      s.comparedSince key T := fun T => by simp [comparedSince, hk]
  refine { h with
    past := fun c hc => ?_
    covered := fun T hT => ?_
    bounded := fun T => ?_ }
  · rcases List.mem_cons.mp hc with rfl | hc
    · exact ht
    · exact h.past c hc
  · rw [hsince]
    exact h.covered T hT
  · have := h.bounded T
    simpa [comparedIn, hk] using this

theorem comparedIn_le (T : Time) : s.comparedIn key T ≤ s.comparedSince key T := by
  refine List.countP_mono_left fun c _ hc => ?_
  simp only [Bool.and_eq_true] at hc ⊢
  exact hc.1

theorem countedSince_le {T : Time} (hT : s.now < T + loginLockout) :
    s.countedSince key T ≤ s.accounts.counted loginLockout s.now key := by
  unfold countedSince Accounts.counted
  cases ha : s.accounts key with
  | none => simp
  | some record =>
    by_cases hl : T ≤ record.lastFailure
    · have hrec : s.now - record.lastFailure ≤ loginLockout := by linarith
      simp [Option.filter, hl, hrec]
    · simp [Option.filter, hl]

theorem Counted.compare (h : s.Counted key) {i : Nat} {password : String} {account : Option Account}
    (hi : s.requests[i]? = some (.found key password account)) (hlock : s.accounts.locked s.now key = false)
    (hroom : s.accounts.counted loginLockout s.now key + s.uncounted key < loginFailureLimit) :
    ({ s with
        requests := s.requests.set i (.failing key)
        compared := (key, s.now) :: s.compared } : LoginState).Counted key := by
  have hun : (s.requests.set i (.failing key)).countP (·.isFailing key) = s.uncounted key + 1 := by
    have := countP_set_add (·.isFailing key) _ (.failing key) _ _ hi
    simpa [LoginPhase.isFailing, uncounted] using this
  have hfree : ∀ T, s.now < T + loginLockout → ¬ s.LockedSince key T := by
    rintro T hT ⟨record, u, hr, hu, hle⟩
    simp only [Accounts.locked, hr, Option.any_some, hu, decide_eq_false_iff_not] at hlock
    linarith
  have hsince : ∀ T, ({ s with
        requests := s.requests.set i (.failing key)
        compared := (key, s.now) :: s.compared } : LoginState).comparedSince key T ≤ s.comparedSince key T + 1 := by
    intro T
    simp only [comparedSince, List.countP_cons]
    split <;> omega
  refine { h with
    past := fun c hc => ?_
    covered := fun T hT => Or.inr ?_
    noneSucceeds := fun a ha => ?_
    bounded := fun T => ?_ }
  · rcases List.mem_cons.mp hc with rfl | hc
    · exact le_rfl
    · exact h.past c hc
  · have hcov := (h.covered T hT).resolve_left (hfree T hT)
    refine (hsince T).trans ?_
    show s.comparedSince key T + 1 ≤ (s.requests.set i (.failing key)).countP (·.isFailing key) + s.countedSince key T
    omega
  · rcases List.mem_or_eq_of_mem_set ha with ha | ha
    · exact h.noneSucceeds a ha
    · cases ha
  · by_cases hT : T ≤ s.now ∧ s.now < T + loginLockout
    · have hcov := (h.covered T hT.2).resolve_left (hfree T hT.2)
      have hle : s.countedSince key T ≤ s.accounts.counted loginLockout s.now key := countedSince_le hT.2
      have hs := hsince T
      refine (comparedIn_le T).trans ?_
      omega
    · have hb := h.bounded T
      have hout : (T ≤ s.now && decide (s.now < T + loginLockout)) = false := by simpa using hT
      simpa [comparedIn, hout] using hb

theorem comparedSince_future (h : s.Counted key) {T : Time} (hT : s.now < T) : s.comparedSince key T = 0 := by
  refine List.countP_eq_zero.mpr fun c hc => ?_
  have := h.past c hc
  simp only [Bool.and_eq_true, decide_eq_true_eq, not_and, not_le]
  exact fun _ => lt_of_le_of_lt this hT

/-- Other accounts' steps leave this one's record, or drop it once it is stale. -/
theorem Counted.accounts_other (h : s.Counted key) {accounts : Accounts}
    (ha : accounts key = s.accounts key ∨ accounts key = none ∧
      ∀ record, s.accounts key = some record → Accounts.stale loginLockout s.now record = true) :
    ({ s with accounts } : LoginState).Counted key := by
  rcases ha with ha | ⟨ha, hstale⟩
  · have hc : ∀ T, ({ s with accounts } : LoginState).countedSince key T = s.countedSince key T := fun T => by
      simp only [countedSince, ha]
    have hl : ∀ T, ({ s with accounts } : LoginState).LockedSince key T ↔ s.LockedSince key T := fun T => by
      simp only [LockedSince, ha]
    exact { h with
      lock := fun record u hr => h.lock record u (ha ▸ hr)
      failure := fun record hr => h.failure record (ha ▸ hr)
      covered := fun T hT => by rw [hl, hc]; exact h.covered T hT }
  · refine { h with
      lock := fun record u hr => by rw [show accounts key = some record from hr] at ha; cases ha
      failure := fun record hr => by rw [show accounts key = some record from hr] at ha; cases ha
      covered := fun T hT => Or.inr ?_ }
    have hcov : s.comparedSince key T ≤ s.uncounted key := by
      rcases h.covered T hT with ⟨record, u, hr, hu, hle⟩ | hcov
      · have hst := hstale record hr
        simp only [Accounts.stale, hu, Option.all_some, Bool.and_eq_true, decide_eq_true_eq] at hst
        have := hst.2
        exact absurd hT (by linarith)
      · have hzero : s.countedSince key T = 0 := by
          unfold countedSince
          cases hr : s.accounts key with
          | none => rfl
          | some record =>
            have hst := hstale record hr
            simp only [Accounts.stale, Bool.and_eq_true, decide_eq_true_eq] at hst
            have hlast : ¬ T ≤ record.lastFailure := by linarith [hst.1]
            simp [Option.filter, hlast]
        omega
    exact hcov.trans (Nat.le_add_right _ _)

def base (accounts : Accounts) (now : Time) (key : String) : LoginFailures :=
  ((accounts key).filter fun record => now - record.lastFailure ≤ loginLockout).getD ⟨0, now, none⟩

theorem fail_self (accounts : Accounts) (now : Time) (key : String) :
    accounts.fail loginFailureLimit loginLockout now key key =
      some (Accounts.failOn loginFailureLimit loginLockout now (base accounts now key)) := by
  unfold Accounts.fail base
  cases (accounts key).filter fun record => decide (now - record.lastFailure ≤ loginLockout) with
  | some record => simp
  | none => simp

theorem fail_other (accounts : Accounts) (now : Time) {k key : String} (hk : k ≠ key) :
    accounts.fail loginFailureLimit loginLockout now k key = accounts key ∨
      accounts.fail loginFailureLimit loginLockout now k key = none ∧
        ∀ record, accounts key = some record → Accounts.stale loginLockout now record = true := by
  unfold Accounts.fail
  cases (accounts k).filter fun record => decide (now - record.lastFailure ≤ loginLockout) with
  | some record => exact Or.inl (Function.update_of_ne (Ne.symm hk) _ _)
  | none =>
    dsimp only
    rw [Function.update_of_ne (Ne.symm hk)]
    unfold Accounts.evictStale
    cases ha : accounts key with
    | none => exact Or.inl rfl
    | some record =>
      by_cases hs : Accounts.stale loginLockout now record = true
      · exact Or.inr ⟨by simp [Option.filter, hs], fun r hr => Option.some.inj hr ▸ hs⟩
      · exact Or.inl (by simp [Option.filter, hs])

theorem Counted.base (h : s.Counted key) :
    (∀ u, (base s.accounts s.now key).lockedUntil = some u → u ≤ s.now + loginLockout) ∧
    ∀ T, s.now < T + loginLockout →
      (∃ u, (base s.accounts s.now key).lockedUntil = some u ∧ T + loginLockout ≤ u) ∨
        s.comparedSince key T ≤ s.uncounted key + (LoginState.base s.accounts s.now key).count := by
  cases ha : s.accounts key with
  | none =>
    refine ⟨fun u hu => by simp [LoginState.base, ha] at hu, fun T hT => Or.inr ?_⟩
    have hcov := (h.covered T hT).resolve_left fun ⟨record, u, hr, _⟩ => by rw [ha] at hr; cases hr
    have hzero : s.countedSince key T = 0 := by simp [countedSince, ha]
    omega
  | some record =>
    have hlast := h.failure record ha
    by_cases hf : s.now - record.lastFailure ≤ loginLockout
    · have hbase : LoginState.base s.accounts s.now key = record := by simp [LoginState.base, ha, Option.filter, hf]
      rw [hbase]
      refine ⟨fun u hu => (h.lock record u ha hu).trans (by linarith), fun T hT => ?_⟩
      rcases h.covered T hT with ⟨record', u, hr, hu, hle⟩ | hcov
      · obtain rfl := Option.some.inj (ha.symm.trans hr)
        exact Or.inl ⟨u, hu, hle⟩
      · refine Or.inr (hcov.trans (Nat.add_le_add_left ?_ _))
        by_cases hl : T ≤ record.lastFailure <;> simp [countedSince, ha, Option.filter, hl]
    · have hbase : LoginState.base s.accounts s.now key = ⟨0, s.now, none⟩ := by
        simp [LoginState.base, ha, Option.filter, hf]
      rw [hbase]
      refine ⟨fun u hu => (by cases hu), fun T hT => Or.inr ?_⟩
      rcases h.covered T hT with ⟨record', u, hr, hu, hle⟩ | hcov
      · obtain rfl := Option.some.inj (ha.symm.trans hr)
        have := h.lock record u ha hu
        exact absurd hT (by linarith)
      · have hl : ¬ T ≤ record.lastFailure := by linarith
        have hzero : s.countedSince key T = 0 := by simp [countedSince, ha, Option.filter, hl]
        omega

theorem Counted.fail (h : s.Counted key) {i : Nat} {k : String} (hi : s.requests[i]? = some (.failing k))
    (answer : Except Failure Bytes) :
    ({ s with
        accounts := s.accounts.fail loginFailureLimit loginLockout s.now k
        requests := s.requests.set i (.answered answer) } : LoginState).Counted key := by
  have hun := countP_set_add (LoginPhase.isFailing key) _ (.answered answer) _ _ hi
  have hnone : ∀ account, .passed key account ∉ s.requests.set i (.answered answer) := fun a ha => by
    rcases List.mem_or_eq_of_mem_set ha with ha | ha
    · exact h.noneSucceeds a ha
    · cases ha
  by_cases hk : k = key
  · subst hk
    obtain ⟨hlock, hcov⟩ := h.base
    simp only [LoginPhase.isFailing, beq_self_eq_true, ite_true, Bool.false_eq_true, ite_false] at hun
    have hself := fail_self s.accounts s.now k
    set record := LoginState.base s.accounts s.now k
    refine { h with
      lock := fun r u hr hu => ?_
      failure := fun r hr => ?_
      covered := fun T hT => ?_
      noneSucceeds := hnone }
    · obtain rfl := Option.some.inj (hself.symm.trans hr)
      rw [Accounts.failOn_lastFailure]
      unfold Accounts.failOn at hu
      split at hu
      · exact (Option.some.inj hu).ge
      · exact hlock u hu
    · obtain rfl := Option.some.inj (hself.symm.trans hr)
      exact (Accounts.failOn_lastFailure ..).le
    · by_cases hfut : T ≤ s.now
      · rcases Nat.lt_or_ge (record.count + 1) loginFailureLimit with hroom | hfull
        · have hon : Accounts.failOn loginFailureLimit loginLockout s.now record =
              ⟨record.count + 1, s.now, record.lockedUntil⟩ := if_neg (Nat.not_le.mpr hroom)
          rcases hcov T hT with ⟨u, hu, hle⟩ | hcov
          · exact Or.inl ⟨_, u, hself, by rw [hon]; exact hu, hle⟩
          · refine Or.inr ?_
            show s.comparedSince k T ≤ (s.requests.set i (.answered answer)).countP (LoginPhase.isFailing k) + _
            have hnew : ({ s with
                accounts := s.accounts.fail loginFailureLimit loginLockout s.now k
                requests := s.requests.set i (.answered answer) } : LoginState).countedSince k T = record.count + 1 := by
              simp [countedSince, hself, hon, Option.filter, hfut]
            rw [hnew]
            have hcov' : s.comparedSince k T ≤ s.requests.countP (LoginPhase.isFailing k) + record.count := hcov
            omega
        · have hon : Accounts.failOn loginFailureLimit loginLockout s.now record =
              ⟨0, s.now, some (s.now + loginLockout)⟩ := if_pos hfull
          exact Or.inl ⟨_, s.now + loginLockout, hself, by rw [hon], by linarith⟩
      · refine Or.inr ?_
        have hzero := comparedSince_future h (T := T) (not_le.mp hfut)
        show s.comparedSince k T ≤ _
        omega
  · refine (h.accounts_other (fail_other s.accounts s.now hk)).requests ?_ hnone
    simp only [LoginPhase.isFailing, beq_iff_eq, hk, ite_false, Bool.false_eq_true] at hun
    exact hun.ge
end

section
variable {compareHash : String → String → Bool} {signer : Signer} {flow : LoginFlow} {s : LoginState} {key : String}

theorem arrive_ne_passed (accounts : Accounts) (now : Time) (identifier password key : String) (account : Account) :
    flow.arrive accounts now identifier password ≠ .passed key account := by
  unfold LoginFlow.arrive
  dsimp only
  split
  · exact fun h => by cases h
  · split <;> exact fun h => by cases h

theorem Counted.set (h : s.Counted key) {i : Nat} {p q : LoginPhase} (hi : s.requests[i]? = some p)
    (hp : p.isFailing key = false) (hq : ∀ account, .passed key account ≠ q) :
    ({ s with requests := s.requests.set i q } : LoginState).Counted key := by
  have hun := countP_set_add (LoginPhase.isFailing key) _ q _ _ hi
  rw [hp] at hun
  refine h.requests (Nat.le_of_add_right_le hun.ge) fun a ha => ?_
  exact (List.mem_or_eq_of_mem_set ha).elim (h.noneSucceeds a) (hq a)

theorem comparePassword_wrong {k password : String} {account : Option Account}
    (h : ∀ a, account = some a → checkPassword compareHash a.passwordHash password = false) :
    comparePassword compareHash k password account = .failing k := by
  cases account with
  | none => unfold comparePassword; dsimp only; split <;> trivial
  | some a => simp [comparePassword, h a rfl]

theorem comparePassword_ne_passed {k password : String} {account : Option Account} (hk : k ≠ key) (a : Account) :
    LoginPhase.passed key a ≠ comparePassword compareHash k password account := by
  unfold comparePassword
  dsimp only
  split
  · exact fun h => hk (LoginPhase.passed.inj h).1.symm
  · exact fun h => by cases h

theorem Counted.step (h : s.Counted key) {now : Time} {e : LoginEvent} {s' : LoginState}
    (he : s.step compareHash signer flow now e = some s') (ht : s.Timely key (now, e))
    (hf : s.Fails key compareHash (now, e)) : s'.Counted key := by
  obtain ⟨hnow, hstep⟩ := step_cases he
  have h := h.advance hnow
  cases hstep with
  | arrive identifier password =>
    refine h.requests ?_ fun a ha => ?_
    · rw [List.countP_append]
      exact Nat.le_add_right _ _
    · rcases List.mem_append.mp ha with ha | ha
      · exact h.noneSucceeds a ha
      · exact arrive_ne_passed _ _ _ _ _ _ (List.mem_singleton.mp ha).symm
  | lookupFails hi => exact h.set hi rfl fun a ha => by cases ha
  | lookup account hi => exact h.set hi rfl fun a ha => by cases ha
  | @compare i k password account hi =>
    by_cases hk : k = key
    · subst hk
      have hphase := comparePassword_wrong (k := k) fun a ha => hf i password a rfl (ha ▸ hi)
      rw [hphase]
      cases account with
      | none => exact h.set hi rfl fun a ha => by cases ha
      | some a =>
        obtain ⟨hlock, hroom⟩ := ht i password a rfl hi
        exact h.compare hi hlock hroom
    · have hother : ({ s with now, compared := if account.isSome then (k, now) :: s.compared else s.compared }
          : LoginState).Counted key := by
        split
        · exact h.other hk le_rfl
        · exact h
      exact hother.set hi rfl fun a => comparePassword_ne_passed hk a
  | fail hi => exact h.fail hi _
  | @succeed i k account hi =>
    have hk : k ≠ key := fun e => h.noneSucceeds account (e ▸ List.mem_of_getElem? hi)
    refine (h.accounts_other (Or.inl (Function.update_of_ne (Ne.symm hk) _ _))).set hi rfl ?_
    exact fun a ha => by cases ha

theorem Counted.run (es : List (Time × LoginEvent)) (s : LoginState) (h : s.Counted key)
    (hes : EveryStep compareHash signer flow (fun s e => s.Timely key e ∧ s.Fails key compareHash e) s es) :
    (s.run compareHash signer flow es).Counted key :=
  Runs.EveryStep.invariant (P := (·.Counted key)) (fun _ _ _ he hR hs => Counted.step hs he hR.1 hR.2) es s h hes

end

end LoginState

/-! ## The bound -/

def login : Kind → LoginFlow
  | .workshop => workshopLogin
  | .owner => ownerLogin

/-- While every comparison is timely and fails, no window of length
`loginLockout` has more than `loginFailureLimit` of them. -/
theorem comparisons_bounded (compareHash : String → String → Bool) (signer : Signer) (kind : Kind) (now : Time)
    (key : String) (es : List (Time × LoginEvent))
    (timely : LoginState.EveryStep compareHash signer (login kind) (·.Timely key) (.init now) es)
    (fails : LoginState.EveryStep compareHash signer (login kind) (·.Fails key compareHash) (.init now) es) :
    ((LoginState.init now).run compareHash signer (login kind) es).Bounded key :=
  ((LoginState.Counted.init now key).run es _ (Runs.EveryStep.and es _ timely fails)).bounded

/-! ## Six guesses at once -/

def noMatch (_ _ : String) : Bool := false

def guesses (n : Nat) : List (Time × LoginEvent) :=
  let account : Account := ⟨ascii "1", dummyHash⟩
  List.replicate n (0, .arrive "11.222.333/0001-81" "senha-errada-123") ++
    (List.range n).map (fun i => (0, .lookup i (.ok (some account)))) ++
    (List.range n).map (fun i => (0, .compare i)) ++ (List.range n).map (fun i => (0, .fail i))

theorem guesses_fail (key : String) (s : LoginState) (e : Time × LoginEvent) : s.Fails key noMatch e :=
  fun i password account _ _ => by simp [checkPassword, noMatch]

theorem oneGuess_timely :
    LoginState.EveryStep noMatch sampleSigner (login .workshop) (·.Timely "11222333000181") (.init 0) (guesses 1) := by
  refine ⟨?arrive, ?lookup, ?compare, ?fail, trivial⟩
  case compare => exact fun _ _ _ _ _ => by decide +kernel
  all_goals
    intro i password account h
    cases h

theorem oneGuess_bounded :
    ((LoginState.init 0).run noMatch sampleSigner (login .workshop) (guesses 1)).Bounded "11222333000181" :=
  comparisons_bounded noMatch sampleSigner .workshop 0 "11222333000181" (guesses 1) oneGuess_timely
    (Runs.EveryStep.of_forall (guesses_fail _) _ _)

theorem sixGuesses_exceed :
    LoginState.EveryStep noMatch sampleSigner (login .workshop) (·.Fails "11222333000181" noMatch) (.init 0) (guesses 6) ∧
      ¬ ((LoginState.init 0).run noMatch sampleSigner (login .workshop) (guesses 6)).Bounded "11222333000181" := by
  refine ⟨Runs.EveryStep.of_forall (guesses_fail _) _ _, fun h => ?_⟩
  have hb := h 0
  revert hb
  decide +kernel

end Mototeca
