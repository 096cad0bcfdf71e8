import Mototeca.Accounts

/-!
# Signing up and signing in

Over every interleaving of sign-ups and logins, a token speaks for an account whose
key and password its request had, a key is signed up once, and an account answers
to the password it was made with.
-/

namespace Mototeca

/-! ## Requests beside what they were sent -/

/-- `P` holds of every request, its number and what it was sent. -/
structure Paired (P : Nat → String × String → LoginPhase → Prop) (attempts : List (String × String))
    (requests : List LoginPhase) : Prop where
  length : attempts.length = requests.length
  each : ∀ i a p, attempts[i]? = some a → requests[i]? = some p → P i a p

namespace Paired

variable {P Q : Nat → String × String → LoginPhase → Prop}
variable {attempts : List (String × String)} {requests : List LoginPhase}

theorem nil : Paired P [] [] := ⟨rfl, by simp⟩

theorem mono (h : Paired P attempts requests) (hPQ : ∀ i a p, P i a p → Q i a p) : Paired Q attempts requests :=
  ⟨h.length, fun i a p ha hp => hPQ i a p (h.each i a p ha hp)⟩

theorem append (h : Paired P attempts requests) {a : String × String} {p : LoginPhase} (hp : P requests.length a p) :
    Paired P (attempts ++ [a]) (requests ++ [p]) where
  length := by simp [h.length]
  each := by
    intro i b q hb hq
    by_cases hi : i < requests.length
    · rw [List.getElem?_append_left (h.length ▸ hi)] at hb
      rw [List.getElem?_append_left hi] at hq
      exact h.each i b q hb hq
    · have hlast : i = requests.length := by
        have := (List.getElem?_eq_some_iff.mp hq).1
        simp only [List.length_append, List.length_singleton] at this
        omega
      subst hlast
      have ha : a = b := by simpa [h.length] using hb
      have hp' : p = q := by simpa using hq
      rwa [← ha, ← hp']

theorem set (h : Paired P attempts requests) {i : Nat} {p p' : LoginPhase} (hi : requests[i]? = some p)
    (hp : ∀ a, P i a p → P i a p') : Paired P attempts (requests.set i p') where
  length := by simp [h.length]
  each := by
    intro j a q ha hq
    by_cases hij : i = j
    · subst hij
      obtain rfl : p' = q := by
        rw [List.getElem?_set_self (List.getElem?_eq_some_iff.mp hi).1] at hq
        exact Option.some.inj hq
      exact hp a (h.each i a p ha hi)
    · rw [List.getElem?_set_ne hij] at hq
      exact h.each j a q ha hq

end Paired

section
variable (compareHash : String → String → Bool) (signer : Signer) (flow : LoginFlow) (store : AccountStore)

/-- What one request can do keeps `P`. -/
structure LoginRule (P : Nat → String × String → LoginPhase → Prop) : Prop where
  arrive : ∀ i accounts now identifier password,
    P i (identifier, password) (flow.arrive accounts now identifier password)
  lookupFails : ∀ i a key password, P i a (.admitted key password) →
    P i a (.answered (.error (.connect .internal "falha ao entrar")))
  lookup : ∀ i a key password, P i a (.admitted key password) → P i a (.found key password (store key))
  compare : ∀ i a key password account, P i a (.found key password account) →
    P i a (comparePassword compareHash key password account)
  fail : ∀ i a key, P i a (.failing key) →
    P i a (.answered (.error (.connect .unauthenticated flow.unauthenticated)))
  succeed : ∀ i a key account now, P i a (.passed key account) → P i a (.answered (issueToken signer flow account now))

end

section
variable {compareHash : String → String → Bool} {signer : Signer} {flow : LoginFlow} {store : AccountStore}

theorem LoginRule.handle {P : Nat → String × String → LoginPhase → Prop}
    (hP : LoginRule compareHash signer flow store P) {s s' : LoginState} {attempts : List (String × String)}
    (h : Paired P attempts s.requests) {t : Time} {e : LoginStep}
    (hs : handle compareHash signer flow store s (t, e) = some s') : Paired P (attempts ++ e.attempt) s'.requests := by
  obtain ⟨-, hstep⟩ := LoginState.step_cases hs
  cases e with
  | arrive identifier password =>
    cases hstep
    exact h.append (hP.arrive ..)
  | lookup i fails =>
    simp only [LoginStep.attempt, List.append_nil]
    generalize hevent : LoginStep.event store s (.lookup i fails) = event at hstep
    cases hstep with
    | lookupFails hi => exact h.set hi fun a => hP.lookupFails _ a _ _
    | @lookup j key password account hi =>
      obtain ⟨rfl, hfound⟩ := LoginEvent.lookup.inj hevent
      obtain rfl : store key = account := by
        cases fails with
        | true => cases hfound
        | false => simpa [LoginState.find, hi, LoginPhase.stored] using hfound
      exact h.set hi fun a => hP.lookup i a key password
    | _ => cases hevent
  | compare i =>
    cases hstep with
    | compare hi =>
      simp only [LoginStep.attempt, List.append_nil]
      exact h.set hi fun a => hP.compare i a _ _ _
  | fail i =>
    cases hstep with
    | fail hi =>
      simp only [LoginStep.attempt, List.append_nil]
      exact h.set hi fun a => hP.fail i a _
  | succeed i =>
    cases hstep with
    | succeed hi =>
      simp only [LoginStep.attempt, List.append_nil]
      exact h.set hi fun a => hP.succeed i a _ _ t

end

/-! ## What each request is entitled to -/

section
variable (generate : Bytes → String → String) (compareHash : String → String → Bool) (signer : Signer) (domain : Domain)

/-- `row` is what a sign-up with `input` stores. -/
def SignUp.Makes (input : SignUp) (row : AccountRow) : Prop :=
  domain.validate input = none ∧
    ∃ id salt createdAt, row = input.row domain id (generate salt input.password) createdAt

/-- Somewhere in the run `token` was issued for the account of `id`. -/
def Signer.Names (kind : Kind) (id : UUID) (token : Bytes) : Prop := ∃ t, signer.issue ⟨kind, id⟩ t = .ok token

/-- `row` came into `table` with the sign-up, after `old`. -/
structure SignUp.Opened (old table : AccountTable) (input : SignUp) (row : AccountRow) : Prop where
  stored : row ∈ table.rows
  fresh : row ∉ old.rows
  made : input.Makes generate domain row

def SignUpPhase.Vouched (old table : AccountTable) : SignUpPhase → Prop
  | .validated input => domain.validate input = none
  | .hashed input digest => domain.validate input = none ∧ ∃ salt, digest = generate salt input.password
  | .stored input row => input.Opened generate domain old table row
  | .answered input (.ok (msg, token)) =>
    ∃ row, input.Opened generate domain old table row ∧ row.toProto = msg ∧ signer.Names domain.login.kind row.id token
  | .answered _ (.error _) => True

/-- The account of a request that had its key and its password. -/
def AccountTable.Opens (table : AccountTable) (key password : String) (row : AccountRow) : Prop :=
  row ∈ table.rows ∧ row.key = key ∧ checkPassword compareHash row.account.passwordHash password = true

/-- Of a login that was sent `a`. -/
def LoginPhase.Vouched (table : AccountTable) (a : String × String) : LoginPhase → Prop
  | .admitted key password => key = domain.login.normalize a.1 ∧ password = a.2
  | .found key password account => key = domain.login.normalize a.1 ∧ password = a.2 ∧
    ∀ found, account = some found → ∃ row ∈ table.rows, row.key = key ∧ row.account = found
  | .failing _ => True
  | .passed _ account => ∃ row, table.Opens compareHash (domain.login.normalize a.1) a.2 row ∧ row.account = account
  | .answered (.ok token) => ∃ row, table.Opens compareHash (domain.login.normalize a.1) a.2 row ∧
    signer.Names domain.login.kind row.id token
  | .answered (.error _) => True

/-- The account that a sign-up made. -/
def SignUpPhase.account : SignUpPhase → Option UUID
  | .stored _ row => some row.id
  | .answered _ (.ok (msg, _)) => some msg.id
  | _ => none

def Apart (signUps : List SignUpPhase) : Prop :=
  ∀ (i j : Nat) (p q : SignUpPhase) (id : UUID), signUps[i]? = some p → signUps[j]? = some q →
   p.account = some id → q.account = some id → i = j

structure Portal.Sound (old : AccountTable) (s : Portal) : Prop where
  older : old.rows ⊆ s.table.rows
  rows : ∀ row ∈ s.table.rows, row ∈ old.rows ∨ ∃ p ∈ s.signUps, p.input.Makes generate domain row
  signUps : ∀ p ∈ s.signUps, p.Vouched generate signer domain old s.table
  apart : Apart s.signUps
  logins : Paired (fun _ a p => p.Vouched compareHash signer domain s.table a) s.attempts s.logins.requests

end

section
variable {generate : Bytes → String → String} {compareHash : String → String → Bool} {signer : Signer} {domain : Domain}
variable {old table table' : AccountTable}

theorem issueToken_ok {account : Account} {now : Time} {token : Bytes}
    (h : issueToken signer domain.login account now = .ok token) : signer.Names domain.login.kind account.id token := by
  unfold issueToken at h
  split at h
  · next hissue =>
    cases h
    exact ⟨now, hissue⟩
  · cases h

theorem SignUp.Opened.mono {input : SignUp} {row : AccountRow} (h : input.Opened generate domain old table row)
    (hrows : table.rows ⊆ table'.rows) : input.Opened generate domain old table' row :=
  ⟨hrows h.stored, h.fresh, h.made⟩

theorem SignUp.Opened.key {input : SignUp} {row : AccountRow} (h : input.Opened generate domain old table row) :
    row.key = domain.login.normalize input.identifier := by
  obtain ⟨-, id, salt, createdAt, rfl⟩ := h.made
  rfl

theorem SignUpPhase.Vouched.mono {p : SignUpPhase} (h : p.Vouched generate signer domain old table)
    (hrows : table.rows ⊆ table'.rows) : p.Vouched generate signer domain old table' := by
  cases p with
  | validated input => exact h
  | hashed input digest => exact h
  | stored input row => exact SignUp.Opened.mono h hrows
  | answered input answer =>
    cases answer with
    | error e => trivial
    | ok reply =>
      obtain ⟨row, hopened, hrest⟩ := h
      exact ⟨row, hopened.mono hrows, hrest⟩

theorem LoginPhase.Vouched.mono {a : String × String} {p : LoginPhase}
    (h : p.Vouched compareHash signer domain table a) (hrows : table.rows ⊆ table'.rows) :
    p.Vouched compareHash signer domain table' a := by
  cases p with
  | admitted key password => exact h
  | found key password account =>
    refine ⟨h.1, h.2.1, fun found hfound => ?_⟩
    obtain ⟨row, hrow, hrest⟩ := h.2.2 found hfound
    exact ⟨row, hrows hrow, hrest⟩
  | failing key => trivial
  | passed key account =>
    obtain ⟨row, hopens, hrest⟩ := h
    exact ⟨row, ⟨hrows hopens.1, hopens.2⟩, hrest⟩
  | answered answer =>
    cases answer with
    | error e => trivial
    | ok token =>
      obtain ⟨row, hopens, hrest⟩ := h
      exact ⟨row, ⟨hrows hopens.1, hopens.2⟩, hrest⟩

/-- The account of a sign-up is in the table. -/
theorem SignUpPhase.Vouched.account_mem {p : SignUpPhase} (h : p.Vouched generate signer domain old table) {id : UUID}
    (hid : p.account = some id) : ∃ row ∈ table.rows, row.id = id := by
  cases p with
  | validated input => cases hid
  | hashed input digest => cases hid
  | stored input row => exact ⟨row, h.stored, Option.some.inj hid⟩
  | answered input answer =>
    cases answer with
    | error e => cases hid
    | ok reply =>
      obtain ⟨row, hopened, hmsg, -⟩ := h
      exact ⟨row, hopened.stored, (congrArg AccountMsg.id hmsg).trans (Option.some.inj hid)⟩

theorem vouched_rule (table : AccountTable) : LoginRule compareHash signer domain.login table.find
    (fun _ a p => p.Vouched compareHash signer domain table a) where
  arrive := by
    intro i accounts now identifier password
    simp only [LoginFlow.arrive]
    split
    · trivial
    · split
      · trivial
      · exact ⟨rfl, rfl⟩
  lookupFails := fun _ _ _ _ _ => trivial
  lookup := fun _ _ key _ h => ⟨h.1, h.2, fun _ hfound => table.find_some hfound⟩
  compare := by
    intro i a key password account h
    obtain ⟨rfl, rfl, hfound⟩ := h
    simp only [comparePassword]
    split
    · next hcheck =>
      obtain ⟨row, hrow, hkey, haccount⟩ := hfound _ rfl
      refine ⟨row, ⟨hrow, hkey, ?_⟩, haccount⟩
      rw [haccount]
      exact hcheck
    · trivial
  fail := fun _ _ _ _ => trivial
  succeed := by
    intro i a key account now h
    cases hissue : issueToken signer domain.login account now with
    | error e => trivial
    | ok token =>
      obtain ⟨row, hopens, rfl⟩ := h
      exact ⟨row, hopens, issueToken_ok hissue⟩

/-! ## One step -/

theorem Apart.append {signUps : List SignUpPhase} (h : Apart signUps) {p : SignUpPhase} (hp : p.account = none) :
    Apart (signUps ++ [p]) := by
  have hold : ∀ (i : Nat) (q : SignUpPhase) id, (signUps ++ [p])[i]? = some q → q.account = some id →
      signUps[i]? = some q := by
    intro i q id hq hid
    by_cases hi : i < signUps.length
    · rwa [List.getElem?_append_left hi] at hq
    · rw [List.getElem?_append_right (by omega), List.getElem?_singleton] at hq
      split at hq
      · cases hq
        rw [hp] at hid
        cases hid
      · cases hq
  intro i j q r id hq hr hqid hrid
  exact h i j q r id (hold i q id hq hqid) (hold j r id hr hrid) hqid hrid

/-- The new phase has the account of the old one, or one that no sign-up has. -/
theorem Apart.set {signUps : List SignUpPhase} (h : Apart signUps) {i : Nat} {p p' : SignUpPhase}
    (hi : signUps[i]? = some p)
    (hp : ∀ id, p'.account = some id → p.account = some id ∨ ∀ q ∈ signUps, q.account ≠ some id) :
    Apart (signUps.set i p') := by
  have hself : (signUps.set i p')[i]? = some p' := List.getElem?_set_self (List.getElem?_eq_some_iff.mp hi).1
  have hother : ∀ (j : Nat) (q : SignUpPhase) id, i ≠ j → (signUps.set i p')[j]? = some q → q.account = some id →
      p'.account ≠ some id := by
    intro j q id hij hq hqid hid
    rw [List.getElem?_set_ne hij] at hq
    rcases hp id hid with hsame | hnew
    · exact hij (h i j p q id hi hq hsame hqid)
    · exact hnew q (List.mem_of_getElem? hq) hqid
  intro j k q r id hq hr hqid hrid
  by_cases hj : i = j
  · by_cases hk : i = k
    · exact hj.symm.trans hk
    · subst hj
      rw [hself] at hq
      cases hq
      exact absurd hqid (hother k r id hk hr hrid)
  · by_cases hk : i = k
    · subst hk
      rw [hself] at hr
      cases hr
      exact absurd hrid (hother j q id hj hq hqid)
    · rw [List.getElem?_set_ne hj] at hq
      rw [List.getElem?_set_ne hk] at hr
      exact h j k q r id hq hr hqid hrid

theorem create_cases (domain : Domain) (table : AccountTable) (input : SignUp) (digest : String) (id : GeneratedID)
    (createdAt : Time) (fault : Option InsertFault) :
    let created := Portal.create domain table input digest id createdAt fault
    (created.1 = table ∧ ∃ e, created.2 = .answered input (.error e)) ∨
    (created.1.rows = input.row domain id.1 digest createdAt :: table.rows ∧ (∀ other ∈ table.rows, other.id ≠ id.1) ∧
      ((∃ e, created.2 = .answered input (.error e)) ∨
        created.2 = .stored input (input.row domain id.1 digest createdAt))) := by
  unfold Portal.create
  by_cases hbefore : fault = some .before ∨ input.storable = false
  · rw [if_pos hbefore]
    exact .inl ⟨rfl, _, rfl⟩
  · rw [if_neg hbefore]
    dsimp only
    cases hinsert : table.insert (input.row domain id.1 digest createdAt) id.2 with
    | none =>
      by_cases hafter : fault = some .after
      · exact .inl ⟨rfl, _, if_pos hafter⟩
      · exact .inl ⟨rfl, _, if_neg hafter⟩
    | some table' =>
      obtain ⟨hrows, hnew⟩ := AccountTable.insert_some hinsert
      refine .inr ⟨hrows, fun other hother => (hnew other hother).1, ?_⟩
      by_cases hafter : fault = some .after
      · exact .inl ⟨_, if_pos hafter⟩
      · exact .inr (if_neg hafter)

namespace Portal

variable {s s' : Portal} {now : Time} {e : PortalStep}

theorem Sound.init (old : AccountTable) (now : Time) :
    (Portal.init old now).Sound generate compareHash signer domain old where
  older := fun _ h => h
  rows := fun _ h => .inl h
  signUps := fun _ h => absurd h List.not_mem_nil
  apart := fun i _ p _ _ hp => absurd hp (by simp [Portal.init])
  logins := .nil

/-- A sign-up goes on, over a table that has not lost a row. -/
theorem Sound.set (h : s.Sound generate compareHash signer domain old) {i : Nat} {p p' : SignUpPhase}
    (hi : s.signUps[i]? = some p) (now : Time) (hrows : s.table.rows ⊆ table.rows)
    (hmade : ∀ row ∈ table.rows, row ∈ s.table.rows ∨ p.input.Makes generate domain row)
    (hp : p'.Vouched generate signer domain old table)
    (haccount : ∀ id, p'.account = some id → p.account = some id ∨ ∀ row ∈ s.table.rows, row.id ≠ id)
    (hinput : p'.input = p.input) :
    Sound generate compareHash signer domain old
      { s with table, logins := { s.logins with now }, signUps := s.signUps.set i p' } where
  older := List.Subset.trans h.older hrows
  rows := by
    intro row hrow
    have hset : ∀ q ∈ s.signUps, ∃ q' ∈ s.signUps.set i p', q'.input = q.input := by
      intro q hq
      obtain ⟨j, hj⟩ := List.mem_iff_getElem?.mp hq
      by_cases hij : i = j
      · subst hij
        obtain rfl : p = q := Option.some.inj (hi.symm.trans hj)
        exact ⟨p', List.mem_set (List.getElem?_eq_some_iff.mp hi).1 p', hinput⟩
      · exact ⟨q, List.mem_of_getElem? (i := j) (by rw [List.getElem?_set_ne hij, hj]), rfl⟩
    rcases hmade row hrow with hold | hnew
    · rcases h.rows row hold with hold | ⟨q, hq, hmakes⟩
      · exact .inl hold
      · obtain ⟨q', hq', hsame⟩ := hset q hq
        exact .inr ⟨q', hq', hsame ▸ hmakes⟩
    · obtain ⟨q', hq', hsame⟩ := hset p (List.mem_of_getElem? hi)
      exact .inr ⟨q', hq', hsame ▸ hnew⟩
  signUps := by
    intro q hq
    rcases List.mem_or_eq_of_mem_set hq with hq | rfl
    · exact (h.signUps q hq).mono hrows
    · exact hp
  apart := by
    refine h.apart.set hi fun id hid => ?_
    rcases haccount id hid with hsame | hnew
    · exact .inl hsame
    · refine .inr fun q hq hqid => ?_
      obtain ⟨row, hrow, hrowid⟩ := (h.signUps q hq).account_mem hqid
      exact hnew row hrow hrowid
  logins := h.logins.mono fun _ _ _ hp => hp.mono hrows

theorem Sound.step (h : s.Sound generate compareHash signer domain old)
    (hs : s.step generate compareHash signer domain now e = some s') :
    s'.Sound generate compareHash signer domain old := by
  cases step_cases hs with
  | login hlogins => exact { h with logins := (vouched_rule s.table).handle h.logins hlogins }
  | signUp input =>
    have harrive : (domain.arrive input).Vouched generate signer domain old s.table ∧
        (domain.arrive input).account = none := by
      unfold Domain.arrive
      split
      · exact ⟨trivial, rfl⟩
      · next hvalid => exact ⟨hvalid, rfl⟩
    exact { h with
      rows := fun row hrow => (h.rows row hrow).imp id fun ⟨p, hp, hmakes⟩ => ⟨p, List.mem_append_left _ hp, hmakes⟩
      signUps := List.forall_mem_append.mpr ⟨h.signUps, List.forall_mem_singleton.mpr harrive.1⟩
      apart := h.apart.append harrive.2 }
  | @hash i salt input hi =>
    have hvalid : domain.validate input = none := h.signUps _ (List.mem_of_getElem? hi)
    have hhash : (domain.hash generate salt input).Vouched generate signer domain old s.table ∧
        (domain.hash generate salt input).account = none ∧ (domain.hash generate salt input).input = input := by
      unfold Domain.hash hashPassword
      split
      · next digest hdigest =>
        split at hdigest
        · cases hdigest
        · obtain ⟨salt, -, rfl⟩ := Option.map_eq_some_iff.mp hdigest
          exact ⟨⟨hvalid, salt, rfl⟩, rfl, rfl⟩
      · exact ⟨trivial, rfl, rfl⟩
    refine h.set hi now (List.Subset.refl _) (fun _ hrow => .inl hrow) hhash.1 (fun id hid => ?_) hhash.2.2
    rw [hhash.2.1] at hid
    cases hid
  | @insert i id createdAt fault input digest hi =>
    obtain ⟨hvalid, salt, rfl⟩ := h.signUps _ (List.mem_of_getElem? hi)
    have hmakes : input.Makes generate domain (input.row domain id.1 (generate salt input.password) createdAt) :=
      ⟨hvalid, id.1, salt, createdAt, rfl⟩
    rcases create_cases domain s.table input (generate salt input.password) id createdAt fault with
      ⟨htable, failure, hphase⟩ | ⟨hrows, hfresh, hphase⟩
    · rw [htable, hphase]
      exact h.set hi now (List.Subset.refl _) (fun _ hrow => .inl hrow) trivial (fun _ hid => nomatch hid) rfl
    · have hmade : ∀ row ∈ (create domain s.table input (generate salt input.password) id createdAt fault).1.rows,
          row ∈ s.table.rows ∨ input.Makes generate domain row := by
        rw [hrows]
        exact List.forall_mem_cons.mpr ⟨.inr hmakes, fun _ hrow => .inl hrow⟩
      have hsubset : s.table.rows ⊆
          (create domain s.table input (generate salt input.password) id createdAt fault).1.rows :=
        hrows ▸ List.subset_cons_self ..
      rcases hphase with ⟨failure, hphase⟩ | hphase
      · rw [hphase]
        exact h.set hi now hsubset hmade trivial (fun _ hid => nomatch hid) rfl
      · rw [hphase]
        refine h.set hi now hsubset hmade ⟨hrows ▸ List.mem_cons_self, fun hold => ?_, hmakes⟩ (fun id' hid => ?_) rfl
        · exact hfresh _ (h.older hold) rfl
        · cases hid
          exact .inr hfresh
  | @issue i input row hi =>
    have hopened : input.Opened generate domain old s.table row := h.signUps _ (List.mem_of_getElem? hi)
    refine h.set hi now (List.Subset.refl _) (fun _ hrow => .inl hrow) ?_ (fun id hid => ?_) rfl
    · unfold Domain.welcome
      cases hissue : issueToken signer domain.login row.account now with
      | error e => trivial
      | ok token => exact ⟨row, hopened, rfl, issueToken_ok hissue⟩
    · unfold Domain.welcome at hid
      cases hissue : issueToken signer domain.login row.account now with
      | error e =>
        rw [hissue] at hid
        cases hid
      | ok token =>
        rw [hissue] at hid
        exact .inl hid

theorem Sound.run (h : s.Sound generate compareHash signer domain old) (es : List (Time × PortalStep)) :
    (s.run generate compareHash signer domain es).Sound generate compareHash signer domain old :=
  Runs.EveryStep.invariant (R := fun _ _ => True) (fun _ _ _ hs _ h => h.step hs) es s h
    (Runs.EveryStep.of_forall (fun _ _ => trivial) es s)

/-- Rows stay, and a rule for logins is kept. -/
theorem step_logins (hs : s.step generate compareHash signer domain now e = some s') :
    s.table.rows ⊆ s'.table.rows ∧ ∀ P, LoginRule compareHash signer domain.login s.table.find P →
      Paired P s.attempts s.logins.requests → Paired P s'.attempts s'.logins.requests := by
  cases step_cases hs with
  | login hlogins => exact ⟨List.Subset.refl _, fun P hP h => hP.handle h hlogins⟩
  | signUp input => exact ⟨List.Subset.refl _, fun P _ h => h⟩
  | hash hi => exact ⟨List.Subset.refl _, fun P _ h => h⟩
  | @insert i id createdAt fault input digest hi =>
    refine ⟨?_, fun P _ h => h⟩
    rcases create_cases domain s.table input digest id createdAt fault with ⟨htable, -⟩ | ⟨hrows, -⟩
    · dsimp only
      rw [htable]
      exact List.Subset.refl _
    · dsimp only
      rw [hrows]
      exact List.subset_cons_self ..
  | issue hi => exact ⟨List.Subset.refl _, fun P _ h => h⟩

end Portal

/-! ## Tokens -/

/-- `token` is a session of `subject`, whoever presents it and whenever. -/
def Signer.SpeaksFor (subject : Subject) (token : Bytes) : Prop :=
  (∃ t, signer.issue subject t = .ok token) ∧
    ∀ now subject', signer.verify token now = some subject' → subject' = subject

theorem Signer.Names.speaksFor {kind : Kind} {id : UUID} {token : Bytes} (h : signer.Names kind id token) :
    signer.SpeaksFor ⟨kind, id⟩ token := by
  refine ⟨h, fun now subject' hverify => ?_⟩
  obtain ⟨t, hissue⟩ := h
  obtain ⟨payload, hdecode, hread⟩ := Signer.verify_some hverify
  obtain ⟨hne, hcolon⟩ := Signer.issue_ok hissue
  unfold Signer.issue at hissue
  rw [if_neg hne, if_neg (by simpa using hcolon)] at hissue
  cases hissue
  rw [Signer.decode_encode] at hdecode
  cases hdecode
  exact (Signer.read_payload hcolon hread).1

theorem mem_validID {id : UUID} (h : validID id = true) {b : UInt8} (hb : b ∈ id) : b = 45 ∨ isHex b = true := by
  obtain ⟨i, hi, rfl⟩ := List.mem_iff_getElem.mp hb
  have hall := List.all_eq_true.mp (Bool.and_eq_true_iff.mp h).2 (id[i], i) (by simp [List.mem_zipIdx_iff_getElem?])
  split at hall
  · exact .inl (by simpa using hall)
  · exact .inr hall

theorem issueToken_generated {account : Account} (h : validID account.id = true) (now : Time) :
    ∃ token, issueToken signer domain.login account now = .ok token := by
  have hne : account.id ≠ [] := by
    intro hnil
    rw [hnil] at h
    cases h
  have hcolon : (58 : UInt8) ∉ account.id := by
    intro hmem
    rcases mem_validID h hmem with hb | hb
    · cases hb
    · cases hb
  unfold issueToken Signer.issue
  rw [if_neg hne, if_neg (by simpa using hcolon)]
  exact ⟨_, rfl⟩

/-! ## An account's own password -/

/-- A domain's checks leave a key and a password that `Login` goes on with. -/
theorem validated_login (kind : Kind) {input : SignUp} (h : kind.accounts.validate input = none) :
    kind.accounts.login.normalize input.identifier ≠ "" ∧ validatePassword input.password = none := by
  cases kind with
  | workshop =>
    simp only [Kind.accounts, workshopAccounts, SignUp.validateWorkshop, Option.orElse_eq_orElse, Option.orElse_eq_or,
      Option.or_eq_none_iff] at h
    refine ⟨fun hempty => ?_, h.2.2.2⟩
    have hlen := (validateCNPJ_eq_none.mp h.1).1
    rw [show normalizeCNPJ input.identifier = "" from hempty] at hlen
    cases hlen
  | owner =>
    simp only [Kind.accounts, ownerAccounts, SignUp.validateOwner, Option.orElse_eq_orElse, Option.orElse_eq_or,
      Option.or_eq_none_iff] at h
    refine ⟨fun hempty => ?_, h.2.2⟩
    have hphone := h.2.1
    rw [show normalizePhone input.identifier = "" from hempty] at hphone
    cases hphone

theorem validatePassword_ne_empty {password : String} (h : validatePassword password = none) :
    password ≠ "" ∧ byteLen password ≤ maxPasswordBytes := by
  simp only [validatePassword, Option.orElse_eq_orElse, Option.orElse_eq_or, Option.or_eq_none_iff, refuse_eq_none,
    decide_eq_false_iff_not, not_lt] at h
  refine ⟨fun hempty => ?_, h.2⟩
  rw [hempty] at h
  exact absurd h.1 (by decide)

/-- How a login with the key and the password of `row` goes on until it is answered. -/
def LoginPhase.Own (row : AccountRow) (password : String) : LoginPhase → Prop
  | .admitted key typed => key = row.key ∧ typed = password
  | .found key typed account => key = row.key ∧ typed = password ∧ account = some row.account
  | .failing _ => False
  | .passed _ account => account = row.account
  | .answered _ => True

theorem own_rule {row : AccountRow} (hrow : row ∈ table.rows) (n : Nat) {password : String} (hkey : row.key ≠ "")
    (hpassword : password ≠ "") (hcheck : checkPassword compareHash row.account.passwordHash password = true) :
    LoginRule compareHash signer domain.login table.find
      (fun i a p => n ≤ i → domain.login.normalize a.1 = row.key → a.2 = password →
        p.Own row password) where
  arrive := by
    intro i accounts now identifier typed _ hnormalize htyped
    dsimp only at hnormalize htyped
    simp only [LoginFlow.arrive, hnormalize, htyped, beq_eq_false_iff_ne.mpr hkey, beq_eq_false_iff_ne.mpr hpassword,
      Bool.or_self, Bool.false_eq_true, if_false]
    split
    · trivial
    · exact ⟨rfl, rfl⟩
  lookupFails := fun _ _ _ _ _ _ _ _ => trivial
  lookup := by
    intro i a key typed h hi hnormalize htyped
    obtain ⟨rfl, rfl⟩ := h hi hnormalize htyped
    exact ⟨rfl, rfl, table.find_row hrow⟩
  compare := by
    intro i a key typed account h hi hnormalize htyped
    obtain ⟨rfl, rfl, rfl⟩ := h hi hnormalize htyped
    simp only [comparePassword, Option.map_some, Option.getD_some, hcheck]
    rfl
  fail := fun _ _ _ _ _ _ _ => trivial
  succeed := fun _ _ _ _ _ _ _ _ _ => trivial

variable (generate signer domain) in
/-- From a state whose table has `row`, the logins that arrive later. -/
theorem run_own {row : AccountRow} {password : String} (hkey : row.key ≠ "") (hpassword : password ≠ "")
    (hcheck : checkPassword compareHash row.account.passwordHash password = true) {s : Portal}
    (hrow : row ∈ s.table.rows) (hlength : s.attempts.length = s.logins.requests.length)
    (es : List (Time × PortalStep)) :
    let s' := s.run generate compareHash signer domain es
    Paired (fun i a p => s.attempts.length ≤ i → domain.login.normalize a.1 = row.key → a.2 = password →
      p.Own row password) s'.attempts s'.logins.requests := by
  let P (i : Nat) (a : String × String) (p : LoginPhase) : Prop :=
    s.attempts.length ≤ i → domain.login.normalize a.1 = row.key → a.2 = password →
      p.Own row password
  have hstart : Paired P s.attempts s.logins.requests :=
    ⟨hlength, fun i a p ha _ hi => absurd (List.getElem?_eq_some_iff.mp ha).1 (not_lt.mpr hi)⟩
  have hstep : ∀ t e t', Portal.advance generate compareHash signer domain t e = some t' → True →
      row ∈ t.table.rows ∧ Paired P t.attempts t.logins.requests →
        row ∈ t'.table.rows ∧ Paired P t'.attempts t'.logins.requests := by
    intro t e t' hs _ h
    obtain ⟨hrows, hlogins⟩ := Portal.step_logins hs
    exact ⟨hrows h.1, hlogins P (own_rule h.1 _ hkey hpassword hcheck) h.2⟩
  exact (Runs.EveryStep.invariant (R := fun _ _ => True) hstep es s ⟨hrow, hstart⟩
    (Runs.EveryStep.of_forall (fun _ _ => trivial) es s)).2

end

/-! ## Why a login is turned away -/

section
variable (flow : LoginFlow)

/-- The login `i`, for `key`, has been told that it failed. -/
def Portal.FailedAt (s : Portal) (key : String) (i : Nat) : Prop :=
  ∃ identifier password, s.attempts[i]? = some (identifier, password) ∧ flow.normalize identifier = key ∧
    password ≠ "" ∧ s.logins.requests[i]? = some (.answered (.error (.connect .unauthenticated flow.unauthenticated)))

/-- `n` logins have. -/
def Portal.Failed (s : Portal) (key : String) (n : Nat) : Prop :=
  ∃ logins : Finset Nat, n ≤ logins.card ∧ ∀ i ∈ logins, s.FailedAt flow key i

/-- What a request that goes on was sent. -/
def LoginPhase.Asked (a : String × String) : LoginPhase → Prop
  | .admitted key password => key = flow.normalize a.1 ∧ password = a.2 ∧ a.2 ≠ ""
  | .found key password _ => key = flow.normalize a.1 ∧ password = a.2 ∧ a.2 ≠ ""
  | .failing key => key = flow.normalize a.1 ∧ a.2 ≠ ""
  | .passed _ _ => True
  | .answered _ => True

/-- What the throttle has counted for a key is logins for it that failed. -/
structure Portal.Tallied (s : Portal) : Prop where
  asked : Paired (fun _ a p => p.Asked flow a) s.attempts s.logins.requests
  failures : ∀ key record, s.logins.accounts key = some record →
    s.Failed flow key record.count ∧ (record.lockedUntil ≠ none → s.Failed flow key loginFailureLimit)

end

section
variable {generate : Bytes → String → String} {compareHash : String → String → Bool} {signer : Signer} {domain : Domain}
variable {flow : LoginFlow} {key : String}

theorem asked_rule (store : AccountStore) :
    LoginRule compareHash signer flow store (fun _ a p => p.Asked flow a) where
  arrive := by
    intro i accounts now identifier password
    simp only [LoginFlow.arrive]
    split
    · trivial
    · next hgiven =>
      split
      · trivial
      · rw [Bool.or_eq_true, not_or, beq_iff_eq, beq_iff_eq] at hgiven
        exact ⟨rfl, rfl, hgiven.2⟩
  lookupFails := fun _ _ _ _ _ => trivial
  lookup := fun _ _ _ _ h => h
  compare := by
    intro i a key password account h
    simp only [comparePassword]
    split
    · trivial
    · exact ⟨h.1, h.2.2⟩
  fail := fun _ _ _ _ => trivial
  succeed := fun _ _ _ _ _ _ => trivial

namespace Portal

variable {s s' : Portal} {now : Time} {e : PortalStep}

theorem Failed.mono {n m : Nat} (h : s.Failed flow key n) (hle : m ≤ n)
    (hsub : ∀ i, s.FailedAt flow key i → s'.FailedAt flow key i) : s'.Failed flow key m := by
  obtain ⟨logins, hcard, hfailed⟩ := h
  exact ⟨logins, hle.trans hcard, fun i hi => hsub i (hfailed i hi)⟩

/-- One that had not failed yet is one more. -/
theorem Failed.succ {n i : Nat} (h : s.Failed flow key n) (hsub : ∀ i, s.FailedAt flow key i → s'.FailedAt flow key i)
    (hi : ¬ s.FailedAt flow key i) (hi' : s'.FailedAt flow key i) : s'.Failed flow key (n + 1) := by
  obtain ⟨logins, hcard, hfailed⟩ := h
  have hnew : i ∉ logins := fun hmem => hi (hfailed i hmem)
  refine ⟨insert i logins, ?_, fun j hj => ?_⟩
  · rw [Finset.card_insert_of_notMem hnew]
    exact Nat.succ_le_succ hcard
  · rcases Finset.mem_insert.mp hj with rfl | hj
    · exact hi'
    · exact hsub j (hfailed j hj)

theorem answered_set {requests : List LoginPhase} {i : Nat} {p : LoginPhase} (hi : requests[i]? = some p)
    (hp : ∀ answer, p ≠ .answered answer) (q : LoginPhase) {j : Nat} {answer : Except Failure Bytes}
    (hj : requests[j]? = some (.answered answer)) : (requests.set i q)[j]? = some (.answered answer) := by
  by_cases hij : i = j
  · subst hij
    exact absurd (Option.some.inj (hi.symm.trans hj)) (hp answer)
  · rw [List.getElem?_set_ne hij, hj]

/-- What a login was sent and an answer it has got stay. -/
theorem step_keeps (hs : s.step generate compareHash signer domain now e = some s') :
    (∀ (i : Nat) a, s.attempts[i]? = some a → s'.attempts[i]? = some a) ∧
      ∀ (i : Nat) answer, s.logins.requests[i]? = some (.answered answer) →
        s'.logins.requests[i]? = some (.answered answer) := by
  cases step_cases hs with
  | @login e logins hlogins =>
    refine ⟨fun i a hi => ?_, fun i answer hi => ?_⟩
    · rw [List.getElem?_append_left (List.getElem?_eq_some_iff.mp hi).1, hi]
    obtain ⟨-, hstep⟩ := LoginState.step_cases hlogins
    generalize LoginStep.event s.table.find s.logins e = event at hstep
    cases hstep with
    | arrive identifier password =>
      rw [List.getElem?_append_left (List.getElem?_eq_some_iff.mp hi).1, hi]
    | lookupFails hj => exact answered_set hj (fun _ => nofun) _ hi
    | lookup account hj => exact answered_set hj (fun _ => nofun) _ hi
    | compare hj => exact answered_set hj (fun _ => nofun) _ hi
    | fail hj => exact answered_set hj (fun _ => nofun) _ hi
    | succeed hj => exact answered_set hj (fun _ => nofun) _ hi
  | signUp input => exact ⟨fun _ _ hi => hi, fun _ _ hi => hi⟩
  | hash hj => exact ⟨fun _ _ hi => hi, fun _ _ hi => hi⟩
  | insert hj => exact ⟨fun _ _ hi => hi, fun _ _ hi => hi⟩
  | issue hj => exact ⟨fun _ _ hi => hi, fun _ _ hi => hi⟩

theorem FailedAt.step (hs : s.step generate compareHash signer domain now e = some s') {i : Nat}
    (h : s.FailedAt flow key i) : s'.FailedAt flow key i := by
  obtain ⟨identifier, password, hattempt, hkey, hpassword, hanswer⟩ := h
  obtain ⟨hattempts, hanswers⟩ := step_keeps hs
  exact ⟨identifier, password, hattempts i _ hattempt, hkey, hpassword, hanswers i _ hanswer⟩

theorem Tallied.init (table : AccountTable) (now : Time) : (Portal.init table now).Tallied flow where
  asked := .nil
  failures := fun _ _ h => by cases h

/-- A failure that is counted is one more login that has failed. -/
theorem Tallied.fail (h : s.Tallied flow)
    (hsub : ∀ key i, s.FailedAt flow key i → s'.FailedAt flow key i) {i : Nat} {k : String}
    (hi : s.logins.requests[i]? = some (.failing k)) (hi' : s'.FailedAt flow k i)
    (haccounts : s'.logins.accounts = s.logins.accounts.fail loginFailureLimit loginLockout now k) :
    ∀ key record, s'.logins.accounts key = some record →
      s'.Failed flow key record.count ∧ (record.lockedUntil ≠ none → s'.Failed flow key loginFailureLimit) := by
  intro key record hrecord
  rw [haccounts] at hrecord
  by_cases hk : k = key
  · subst hk
    rw [LoginState.fail_self] at hrecord
    have hnot : ¬ s.FailedAt flow k i := by
      rintro ⟨-, -, -, -, -, hanswer⟩
      rw [hi] at hanswer
      cases hanswer
    have hbase : s.Failed flow k (LoginState.base s.logins.accounts now k).count ∧
        ((LoginState.base s.logins.accounts now k).lockedUntil ≠ none → s.Failed flow k loginFailureLimit) := by
      unfold LoginState.base
      cases hfound : (s.logins.accounts k).filter fun record => now - record.lastFailure ≤ loginLockout with
      | none => exact ⟨⟨∅, Nat.zero_le _, fun _ hmem => absurd hmem (Finset.notMem_empty _)⟩, fun hne => absurd rfl hne⟩
      | some old => exact h.failures k old (Option.eq_some_of_filter_eq_some hfound)
    obtain ⟨hcount, hlock⟩ := hbase
    have hmore := hcount.succ (hsub k) hnot hi'
    cases hrecord
    unfold Accounts.failOn
    split
    · next hlimit => exact ⟨hmore.mono (Nat.zero_le _) fun _ hj => hj, fun _ => hmore.mono hlimit fun _ hj => hj⟩
    · exact ⟨hmore, fun hne => (hlock hne).mono le_rfl (hsub k)⟩
  · rcases LoginState.fail_other s.logins.accounts now hk with hsame | ⟨hnone, -⟩
    · rw [hsame] at hrecord
      obtain ⟨hcount, hlock⟩ := h.failures key record hrecord
      exact ⟨hcount.mono le_rfl (hsub key), fun hne => (hlock hne).mono le_rfl (hsub key)⟩
    · rw [hnone] at hrecord
      cases hrecord

theorem Tallied.step (h : s.Tallied domain.login)
    (hs : s.step generate compareHash signer domain now e = some s') : s'.Tallied domain.login := by
  have hsub : ∀ key i, s.FailedAt domain.login key i → s'.FailedAt domain.login key i := fun _ _ hi => hi.step hs
  refine ⟨(step_logins hs).2 _ (asked_rule s.table.find) h.asked, ?_⟩
  have hsame (haccounts : s'.logins.accounts = s.logins.accounts) : ∀ key record,
      s'.logins.accounts key = some record → s'.Failed domain.login key record.count ∧
        (record.lockedUntil ≠ none → s'.Failed domain.login key loginFailureLimit) := by
    intro key record hrecord
    rw [haccounts] at hrecord
    obtain ⟨hcount, hlock⟩ := h.failures key record hrecord
    exact ⟨hcount.mono le_rfl (hsub key), fun hne => (hlock hne).mono le_rfl (hsub key)⟩
  cases step_cases hs with
  | @login e logins hlogins =>
    obtain ⟨-, hstep⟩ := LoginState.step_cases hlogins
    generalize LoginStep.event s.table.find s.logins e = event at hstep
    cases hstep with
    | arrive identifier password => exact hsame rfl
    | lookupFails hi => exact hsame rfl
    | lookup account hi => exact hsame rfl
    | compare hi => exact hsame rfl
    | @fail i k hi =>
      have hlt : i < s.attempts.length := h.asked.length ▸ (List.getElem?_eq_some_iff.mp hi).1
      have hasked := h.asked.each i _ _ (List.getElem?_eq_getElem hlt) hi
      refine h.fail hsub hi ⟨s.attempts[i].1, s.attempts[i].2, ?_, hasked.1.symm, hasked.2, ?_⟩ rfl
      · exact (step_keeps hs).1 i _ (List.getElem?_eq_getElem hlt)
      · exact List.getElem?_set_self (List.getElem?_eq_some_iff.mp hi).1
    | @succeed i k account hi =>
      intro key record hrecord
      have hsucceed : (s.logins.accounts.succeed k) key = some record := hrecord
      unfold Accounts.succeed at hsucceed
      by_cases hk : key = k
      · rw [hk, Function.update_self] at hsucceed
        cases hsucceed
      · rw [Function.update_of_ne hk] at hsucceed
        obtain ⟨hcount, hlock⟩ := h.failures key record hsucceed
        exact ⟨hcount.mono le_rfl (hsub key), fun hne => (hlock hne).mono le_rfl (hsub key)⟩
  | signUp input => exact hsame rfl
  | hash hi => exact hsame rfl
  | insert hi => exact hsame rfl
  | issue hi => exact hsame rfl

/-- Every state of a run that starts with no requests. -/
theorem Tallied.run (h : s.Tallied domain.login) (es : List (Time × PortalStep)) :
    (s.run generate compareHash signer domain es).Tallied domain.login :=
  Runs.EveryStep.invariant (R := fun _ _ => True) (fun _ _ _ hs _ h => h.step hs) es s h
    (Runs.EveryStep.of_forall (fun _ _ => trivial) es s)

theorem Tallied.locked (h : s.Tallied flow) (hlocked : s.logins.accounts.locked now key = true) :
    s.Failed flow key loginFailureLimit := by
  obtain ⟨record, hrecord, hlock⟩ := (Option.any_eq_true _ _).mp hlocked
  refine (h.failures key record hrecord).2 fun hnone => ?_
  rw [hnone] at hlock
  cases hlock

section
variable (generate compareHash signer domain)

/-- The login `j` of the run arrives at a throttle that `loginFailureLimit` failed logins
for its key have locked. -/
def FindsLocked (s : Portal) (es : List (Time × PortalStep)) (j : Nat) (identifier password : String) : Prop :=
  ∃ earlier t later, es = earlier ++ (t, .login (.arrive identifier password)) :: later ∧
    (s.run generate compareHash signer domain earlier).attempts.length = j ∧
    (s.run generate compareHash signer domain earlier).logins.accounts.locked t (domain.login.normalize identifier) = true ∧
    (s.run generate compareHash signer domain earlier).Failed domain.login (domain.login.normalize identifier)
      loginFailureLimit

/-- Its own query for the account fails. -/
def LookupBreaks (s : Portal) (es : List (Time × PortalStep)) (j : Nat) : Prop :=
  ∃ earlier t later key password, es = earlier ++ (t, .login (.lookup j true)) :: later ∧
    (s.run generate compareHash signer domain earlier).logins.requests[j]? = some (.admitted key password)

end

theorem run_attempts (es : List (Time × PortalStep)) : ∀ {s : Portal} {i : Nat} {a : String × String},
    s.attempts[i]? = some a → (s.run generate compareHash signer domain es).attempts[i]? = some a := by
  intro s i a hi
  exact Runs.EveryStep.invariant (R := fun _ _ => True) (P := fun s => s.attempts[i]? = some a)
    (fun _ _ _ hs _ h => (step_keeps hs).1 i a h) es s hi (Runs.EveryStep.of_forall (fun _ _ => trivial) es s)

/-- How a step answers a login: as it arrives, when its query fails or behind the comparison. -/
theorem answered_by {s s' : Portal} {now : Time} {e : PortalStep} {j : Nat} {answer : Except Failure Bytes}
    (hlength : s.attempts.length = s.logins.requests.length)
    (h : s.step generate compareHash signer domain now e = some s')
    (hnot : ¬ s.logins.requests[j]? = some (.answered answer))
    (hdone : s'.logins.requests[j]? = some (.answered answer)) :
    (∃ identifier password, e = .login (.arrive identifier password) ∧ s.attempts.length = j ∧
        s'.attempts[j]? = some (identifier, password) ∧
        domain.login.arrive s.logins.accounts now identifier password = .answered answer) ∨
      (∃ key password, e = .login (.lookup j true) ∧ s.logins.requests[j]? = some (.admitted key password) ∧
        answer = .error (.connect .internal "falha ao entrar")) ∨
      (∃ key, s.logins.requests[j]? = some (.failing key)) ∨
      ∃ key account, s.logins.requests[j]? = some (.passed key account) ∧
        answer = issueToken signer domain.login account now := by
  have hset {i : Nat} {p q : LoginPhase} (hi : s.logins.requests[i]? = some p)
      (hq : (s.logins.requests.set i q)[j]? = some (.answered answer)) : i = j ∧ q = .answered answer := by
    by_cases hij : i = j
    · subst hij
      rw [List.getElem?_set_self (List.getElem?_eq_some_iff.mp hi).1] at hq
      exact ⟨rfl, Option.some.inj hq⟩
    · rw [List.getElem?_set_ne hij] at hq
      exact absurd hq hnot
  cases step_cases h with
  | @login e logins hlogins =>
    obtain ⟨-, hstep⟩ := LoginState.step_cases hlogins
    generalize hevent : LoginStep.event s.table.find s.logins e = event at hstep
    cases hstep with
    | arrive identifier password =>
      obtain rfl : e = .arrive identifier password := by
        cases e with
        | arrive _ _ => cases hevent; rfl
        | _ => cases hevent
      have hj : j = s.logins.requests.length := by
        by_cases hlt : j < s.logins.requests.length
        · rw [List.getElem?_append_left hlt] at hdone
          exact absurd hdone hnot
        · have := (List.getElem?_eq_some_iff.mp hdone).1
          simp only [List.length_append, List.length_singleton] at this
          omega
      have hlast : s.attempts.length = j := by rw [hj, hlength]
      rw [hj, List.getElem?_concat_length, Option.some.injEq] at hdone
      exact .inl ⟨identifier, password, rfl, hlast, by simp [LoginStep.attempt, ← hlast], hdone⟩
    | @lookupFails i key password hi =>
      obtain ⟨rfl, hq⟩ := hset hi hdone
      obtain rfl : e = .lookup i true := by
        cases e with
        | lookup k fails =>
          obtain ⟨rfl, hfound⟩ := LoginEvent.lookup.inj hevent
          cases fails with
          | true => rfl
          | false => cases hfound
        | _ => cases hevent
      exact .inr (.inl ⟨key, password, rfl, hi, (LoginPhase.answered.inj hq).symm⟩)
    | lookup account hi => cases (hset hi hdone).2
    | compare hi =>
      obtain ⟨-, hq⟩ := hset hi hdone
      simp only [comparePassword] at hq
      split at hq
      · cases hq
      · cases hq
    | @fail i key hi =>
      obtain ⟨rfl, -⟩ := hset hi hdone
      exact .inr (.inr (.inl ⟨key, hi⟩))
    | @succeed i key account hi =>
      obtain ⟨rfl, hq⟩ := hset hi hdone
      exact .inr (.inr (.inr ⟨key, account, hi, (LoginPhase.answered.inj hq).symm⟩))
  | signUp input => exact absurd hdone hnot
  | hash hi => exact absurd hdone hnot
  | insert hi => exact absurd hdone hnot
  | issue hi => exact absurd hdone hnot

end Portal

end

/-! ## Main results -/

section
variable (generate : Bytes → String → String) (compareHash : String → String → Bool) (signer : Signer)

/-- In every run the rows that were added are those of its checked sign-ups, and a
token, of a sign-up or of a login, speaks for the account it was asked for. -/
theorem sessions_vouched (kind : Kind) (table : AccountTable) (now : Time) (es : List (Time × PortalStep)) :
    let s := (Portal.init table now).run generate compareHash signer kind.accounts es
    (∀ row ∈ s.table.rows, row ∈ table.rows ∨ ∃ p ∈ s.signUps, p.input.Makes generate kind.accounts row) ∧
    (∀ (i : Nat) (input : SignUp) (msg : AccountMsg) (token : Bytes),
      s.signUps[i]? = some (.answered input (.ok (msg, token))) →
      ∃ row, input.Opened generate kind.accounts table s.table row ∧ row.toProto = msg ∧
        signer.SpeaksFor ⟨kind, row.id⟩ token) ∧
    ∀ (i : Nat) (identifier password : String) (token : Bytes), s.attempts[i]? = some (identifier, password) →
      s.logins.requests[i]? = some (.answered (.ok token)) →
      ∃ row, s.table.Opens compareHash (kind.accounts.login.normalize identifier) password row ∧
        signer.SpeaksFor ⟨kind, row.id⟩ token := by
  have hkind : kind.accounts.login.kind = kind := by cases kind <;> rfl
  have hsound : ((Portal.init table now).run generate compareHash signer kind.accounts es).Sound generate compareHash
      signer kind.accounts table := (Portal.Sound.init table now).run es
  refine ⟨hsound.rows, fun i input msg token hi => ?_, fun i identifier password token ha hi => ?_⟩
  · obtain ⟨row, hopened, hmsg, hnames⟩ := hsound.signUps _ (List.mem_of_getElem? hi)
    exact ⟨row, hopened, hmsg, hkind ▸ hnames.speaksFor⟩
  · obtain ⟨row, hopens, hnames⟩ := hsound.logins.each i _ _ ha hi
    exact ⟨row, hopens, hkind ▸ hnames.speaksFor⟩

/-- However sign-ups interleave, one for each key goes through, and none for a key that had
an account. The key has no other account afterwards, as of a sign-up that broke off. -/
theorem one_signUp (kind : Kind) (table : AccountTable) (now : Time) (es : List (Time × PortalStep)) :
    let s := (Portal.init table now).run generate compareHash signer kind.accounts es
    ∀ (i : Nat) (input : SignUp) (reply : AccountMsg × Bytes), s.signUps[i]? = some (.answered input (.ok reply)) →
      (∀ row ∈ table.rows, row.key ≠ kind.accounts.login.normalize input.identifier) ∧
      (∀ row ∈ s.table.rows, row.key = kind.accounts.login.normalize input.identifier → row.toProto = reply.1) ∧
      ∀ (j : Nat) (other : SignUp) (reply' : AccountMsg × Bytes), s.signUps[j]? = some (.answered other (.ok reply')) →
        kind.accounts.login.normalize other.identifier = kind.accounts.login.normalize input.identifier → i = j := by
  intro s i input reply hi
  obtain ⟨msg, token⟩ := reply
  have hsound : ((Portal.init table now).run generate compareHash signer kind.accounts es).Sound generate compareHash
      signer kind.accounts table := (Portal.Sound.init table now).run es
  obtain ⟨row, hopened, hmsg, -⟩ := hsound.signUps _ (List.mem_of_getElem? hi)
  refine ⟨fun old hold hkey => ?_, fun other hother hkey => ?_, fun j other reply' hj hkey => ?_⟩
  · have hsame : old = row := s.table.eq_of_key (hsound.older hold) hopened.stored (hkey.trans hopened.key.symm)
    exact hopened.fresh (hsame ▸ hold)
  · have hsame : other = row := s.table.eq_of_key hother hopened.stored (hkey.trans hopened.key.symm)
    rw [hsame, hmsg]
  · obtain ⟨msg', token'⟩ := reply'
    obtain ⟨row', hopened', hmsg', -⟩ := hsound.signUps _ (List.mem_of_getElem? hj)
    have hsame : row' = row := s.table.eq_of_key hopened'.stored hopened.stored
      (hopened'.key.trans (hkey.trans hopened.key.symm))
    subst hsame
    exact hsound.apart i j _ _ msg.id hi hj rfl (congrArg (fun m : AccountMsg => some m.id) (hmsg'.symm.trans hmsg))

end

/-- The step that answers a login with an account's own password. -/
theorem own_answered {generate : Bytes → String → String} {compareHash : String → String → Bool} {signer : Signer}
    {domain : Domain} {s : Portal} (hlength : s.attempts.length = s.logins.requests.length)
    (htallied : s.Tallied domain.login) {row : AccountRow} (hrow : row ∈ s.table.rows) {password : String}
    (hkey : row.key ≠ "") (hpassword : password ≠ "")
    (hcheck : checkPassword compareHash row.account.passwordHash password = true) (es : List (Time × PortalStep))
    {j : Nat} (hj : s.attempts.length ≤ j) {identifier : String}
    (ha : (s.run generate compareHash signer domain es).attempts[j]? = some (identifier, password))
    (hnormalize : domain.login.normalize identifier = row.key) {answer : Except Failure Bytes}
    (hanswer : (s.run generate compareHash signer domain es).logins.requests[j]? = some (.answered answer)) :
    answer = .error (.connect .resourceExhausted lockedMessage) ∧
        s.FindsLocked generate compareHash signer domain es j identifier password ∨
      answer = .error (.connect .internal "falha ao entrar") ∧ s.LookupBreaks generate compareHash signer domain es j ∨
      ∃ t, answer = issueToken signer domain.login row.account t := by
  have hbefore : ¬ s.logins.requests[j]? = some (.answered answer) := by
    intro h
    have := (List.getElem?_eq_some_iff.mp h).1
    omega
  obtain ⟨earlier, ⟨t, e⟩, later, u', rfl, hnot, hs, hdone⟩ := Runs.exists_turn
    (Q := fun s : Portal => s.logins.requests[j]? = some (.answered answer)) es hbefore hanswer
  generalize hu : Runs.run (Portal.advance generate compareHash signer domain) s earlier = u at hnot hs
  have hrun : s.run generate compareHash signer domain earlier = u := hu
  have htotal : s.run generate compareHash signer domain (earlier ++ (t, e) :: later) =
      u'.run generate compareHash signer domain later := by
    rw [Portal.run, Runs.run, List.foldl_append, List.foldl_cons]
    show List.foldl _ (Runs.next _ (Runs.run _ s earlier) (t, e)) later = _
    rw [hu, Runs.next_of_step hs]
    rfl
  have htally : u.Tallied domain.login := hrun ▸ htallied.run earlier
  have hown := run_own generate signer domain hkey hpassword hcheck hrow hlength earlier
  rw [hrun] at hown
  rw [htotal] at ha
  -- What the login was sent is what the run was asked for.
  have hsent {a : String × String} (h : u'.attempts[j]? = some a) : a = (identifier, password) :=
    Option.some.inj ((Portal.run_attempts later h).symm.trans ha)
  have howns {p : LoginPhase} (hp : u.logins.requests[j]? = some p) : p.Own row password := by
    have hlt : j < u.attempts.length := htally.asked.length ▸ (List.getElem?_eq_some_iff.mp hp).1
    have hat : u.attempts[j]? = some u.attempts[j] := List.getElem?_eq_getElem hlt
    have heq := hsent ((Portal.step_keeps hs).1 j _ hat)
    exact hown.each j (identifier, password) p (heq ▸ hat) hp hj hnormalize rfl
  rcases Portal.answered_by htally.asked.length hs hnot hdone with
    ⟨_, _, rfl, hlast, hat, harrive⟩ | ⟨key, typed, rfl, hi, hfailed⟩ | ⟨key, hi⟩ | ⟨key, account, hi, hissued⟩
  · obtain ⟨rfl, rfl⟩ := Prod.mk.inj (hsent hat)
    simp only [LoginFlow.arrive, hnormalize, beq_eq_false_iff_ne.mpr hkey, beq_eq_false_iff_ne.mpr hpassword,
      Bool.or_self, Bool.false_eq_true, if_false] at harrive
    split at harrive
    · next hlocked =>
      refine .inl ⟨(LoginPhase.answered.inj harrive).symm, earlier, t, later, rfl, ?_⟩
      rw [hrun, hnormalize]
      exact ⟨hlast, hlocked, htally.locked hlocked⟩
    · cases harrive
  · refine .inr (.inl ⟨hfailed, earlier, t, later, key, typed, rfl, ?_⟩)
    rw [hrun, hi]
  · exact (howns hi).elim
  · obtain rfl : account = row.account := howns hi
    exact .inr (.inr ⟨t, hissued⟩)

/-- Who has signed up signs in with the same password, whatever runs beside: a later
login with it starts a session of that account, unless failed logins have locked the key
when it arrives or its own query fails. -/
theorem own_password_signs_in {generate : Bytes → String → String} {compareHash : String → String → Bool}
    (hbcrypt : ∀ salt plain, byteLen plain ≤ maxPasswordBytes →
      checkPassword compareHash (generate salt plain) plain = true)
    (signer : Signer) (kind : Kind) (table : AccountTable) (now : Time) (before after : List (Time × PortalStep))
    {i j : Nat} {input : SignUp} {msg : AccountMsg} {token : Bytes} {identifier : String}
    {answer : Except Failure Bytes} :
    let s := (Portal.init table now).run generate compareHash signer kind.accounts before
    let s' := s.run generate compareHash signer kind.accounts after
    s.signUps[i]? = some (.answered input (.ok (msg, token))) →
    s.attempts.length ≤ j → s'.attempts[j]? = some (identifier, input.password) →
    kind.accounts.login.normalize identifier = kind.accounts.login.normalize input.identifier →
    s'.logins.requests[j]? = some (.answered answer) →
      answer = .error (.connect .resourceExhausted lockedMessage) ∧
        s.FindsLocked generate compareHash signer kind.accounts after j identifier input.password ∨
      answer = .error (.connect .internal "falha ao entrar") ∧
        s.LookupBreaks generate compareHash signer kind.accounts after j ∨
      ∃ session, answer = .ok session ∧ signer.SpeaksFor ⟨kind, msg.id⟩ session := by
  intro s s' hi hj ha hkey hanswer
  have hkind : kind.accounts.login.kind = kind := by cases kind <;> rfl
  have hsound : s.Sound generate compareHash signer kind.accounts table := (Portal.Sound.init table now).run before
  have htallied : s.Tallied kind.accounts.login := (Portal.Tallied.init table now).run before
  obtain ⟨row, hopened, hmsg, -⟩ := hsound.signUps _ (List.mem_of_getElem? hi)
  obtain ⟨hvalid, id, salt, createdAt, hrow⟩ := hopened.made
  obtain ⟨hkeyed, hpassword⟩ := validated_login kind hvalid
  obtain ⟨hne, hbytes⟩ := validatePassword_ne_empty hpassword
  have hcheck : checkPassword compareHash row.account.passwordHash input.password = true := by
    rw [hrow]
    exact hbcrypt salt input.password hbytes
  rcases own_answered hsound.logins.length htallied hopened.stored (hopened.key ▸ hkeyed) hne hcheck after hj ha
    (hkey.trans hopened.key.symm) hanswer with hlocked | hbroken | ⟨t, hissued⟩
  · exact .inl hlocked
  · exact .inr (.inl hbroken)
  · obtain ⟨session, hsession⟩ : ∃ session, issueToken signer kind.accounts.login row.account t = .ok session :=
      issueToken_generated (s.table.uuids row hopened.stored) t
    refine .inr (.inr ⟨session, hissued.trans hsession, ?_⟩)
    have hnames := issueToken_ok hsession
    rw [hkind] at hnames
    exact hmsg ▸ hnames.speaksFor

/-! ## One owner -/

def sampleGenerate (_ : Bytes) (plain : String) : String := "$2a$10$" ++ plain

def sampleMatches (digest plain : String) : Bool := digest == "$2a$10$" ++ plain

def marcos : SignUp := ⟨"(31) 90000-0000", "Marcos", none, "senha-longa"⟩

def marcosSignsUp : List (Time × PortalStep) :=
  [(0, .signUp marcos), (0, .hash 0 (some [])),
    (0, .insert 0 ⟨ascii "00000000-0000-0000-0000-000000000001", by decide⟩ 0 none), (0, .issue 0)]

def marcosSignsIn : List (Time × PortalStep) :=
  [(1, .login (.arrive "31 90000 0000" "senha-longa")), (1, .login (.lookup 0 false)), (1, .login (.compare 0)),
    (1, .login (.succeed 0))]

theorem marcos_signs_in :
    let s := (Portal.init .empty 0).run sampleGenerate sampleMatches sampleSigner ownerAccounts marcosSignsUp
    let s' := s.run sampleGenerate sampleMatches sampleSigner ownerAccounts marcosSignsIn
    ∃ session, s'.logins.requests[0]? = some (.answered (.ok session)) ∧
      sampleSigner.SpeaksFor ⟨.owner, ascii "00000000-0000-0000-0000-000000000001"⟩ session := by
  have hbcrypt : ∀ salt plain, byteLen plain ≤ maxPasswordBytes →
      checkPassword sampleMatches (sampleGenerate salt plain) plain = true := by
    intro salt plain _
    have hne : "$2a$10$" ++ plain ≠ "" := fun h => absurd (String.append_eq_empty_iff.mp h).1 (by decide)
    simp [checkPassword, sampleMatches, sampleGenerate, hne]
  have hstored : ∃ token, ((Portal.init .empty 0).run sampleGenerate sampleMatches sampleSigner ownerAccounts
      marcosSignsUp).signUps[0]? = some (.answered marcos (.ok (⟨ascii "00000000-0000-0000-0000-000000000001",
        "31900000000", "Marcos", none, false, 0⟩, token))) := ⟨_, rfl⟩
  obtain ⟨token, hstored⟩ := hstored
  have hlater : 0 ≤ 0 := le_refl 0
  have hkey : ownerLogin.normalize "31 90000 0000" = ownerLogin.normalize "(31) 90000-0000" := by decide
  rcases own_password_signs_in hbcrypt sampleSigner .owner .empty 0 marcosSignsUp marcosSignsIn hstored hlater
    rfl hkey rfl with ⟨hlocked, -⟩ | ⟨hbroken, -⟩ | ⟨session, hsession, hspeaks⟩
  · cases hlocked
  · cases hbroken
  · exact ⟨session, congrArg (fun answer => some (LoginPhase.answered answer)) hsession, hspeaks⟩

end Mototeca
