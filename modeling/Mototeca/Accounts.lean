import Mototeca.Cnpj
import Mototeca.Enumeration
import Mototeca.TokenFormat

/-!
# Accounts

`CreateWorkshop` and `CreateOwner` beside the `Login` of their domain, step by
step over one table. Requests interleave at every step. The `INSERT` is a single
statement: Postgres checks the row and stores it at once.
-/

namespace Mototeca

/-! ## What a sign-up is checked for -/

def minPasswordLength : Nat := 8
def maxPasswordBytes : Nat := 72

def validatePassword (plain : String) : Option String :=
  refuse (plain.toList.length < minPasswordLength)
    ("senha deve ter ao menos " ++ toString minPasswordLength ++ " caracteres") <|>
  refuse (maxPasswordBytes < byteLen plain) ("senha deve ter até " ++ toString maxPasswordBytes ++ " bytes")

/-- `ValidatePhone`, of the digits that `NormalizePhone` leaves. -/
def validatePhone (phone : String) : Option String :=
  if phone.toList.length = 10 then none
  else if phone.toList.length = 11 then
    refuse (phone.toList[2]? != some '9') "celular com 11 dígitos deve começar com 9 após o DDD"
  else some "telefone deve ter 10 ou 11 dígitos com DDD"

/-- `CreateInput` of both domains: the CNPJ or the phone, and no address for an owner. -/
structure SignUp where
  identifier : String
  name : String
  address : Option String
  password : String
  deriving DecidableEq

namespace SignUp

def maxNameLength : Nat := 120
def maxAddressLength : Nat := 300

def validateName (name : String) : Option String :=
  refuse (trimSpace name == "" || maxNameLength < (trimSpace name).toList.length)
    ("nome é obrigatório (até " ++ toString maxNameLength ++ " caracteres)")

/-- `Validate` of a workshop. -/
def validateWorkshop (input : SignUp) : Option String :=
  validateCNPJ (normalizeCNPJ input.identifier) <|>
  validateName input.name <|>
  refuse (input.address.any fun address => maxAddressLength < address.toList.length)
    ("endereço deve ter até " ++ toString maxAddressLength ++ " caracteres") <|>
  validatePassword input.password

/-- `Validate` of an owner. -/
def validateOwner (input : SignUp) : Option String :=
  validateName input.name <|>
  validatePhone (normalizePhone input.identifier) <|>
  validatePassword input.password

end SignUp

/-- Postgres takes the text of the `INSERT`: the name and the address, as they were sent. -/
def SignUp.storable (input : SignUp) : Bool := DB.storable input.name && input.address.all DB.storable

/-- What the two domains have of their own. -/
structure Domain where
  login : LoginFlow
  validate : SignUp → Option String
  taken : String
  failed : String

def workshopAccounts : Domain :=
  ⟨workshopLogin, SignUp.validateWorkshop, "este CNPJ já tem cadastro", "falha ao cadastrar a oficina"⟩

def ownerAccounts : Domain :=
  ⟨ownerLogin, SignUp.validateOwner, "este celular já tem cadastro", "falha ao criar a conta"⟩

def Kind.accounts : Kind → Domain
  | .workshop => workshopAccounts
  | .owner => ownerAccounts

/-! ## The table -/

/-- A row of `workshops` or of `owners`, which have neither an address nor `verified`. -/
structure AccountRow where
  id : UUID
  key : String
  name : String
  address : Option String
  verified : Bool
  passwordHash : Option String
  createdAt : Time
  deriving DecidableEq

/-- `COALESCE(password_hash, '')`. -/
def AccountRow.account (row : AccountRow) : Account := ⟨row.id, row.passwordHash.getD ""⟩

/-- The `Workshop` or the `Owner` of an answer. -/
structure AccountMsg where
  id : UUID
  key : String
  name : String
  address : Option String
  verified : Bool
  createdAt : Time
  deriving DecidableEq

def AccountRow.toProto (row : AccountRow) : AccountMsg :=
  ⟨row.id, row.key, row.name, row.address, row.verified, row.createdAt⟩

/-- The primary key and the `UNIQUE` of `cnpj` and of `phone`. -/
structure AccountTable where
  rows : List AccountRow
  ids : (rows.map (·.id)).Nodup
  keys : (rows.map (·.key)).Nodup
  uuids : ∀ row ∈ rows, validID row.id = true

namespace AccountTable

def empty : AccountTable := ⟨[], List.nodup_nil, List.nodup_nil, by simp⟩

/-- `none` is SQLSTATE 23505. -/
def insert (table : AccountTable) (row : AccountRow) (hid : validID row.id = true) : Option AccountTable :=
  if h : row.id ∉ table.rows.map (·.id) ∧ row.key ∉ table.rows.map (·.key) then
    some {
      rows := row :: table.rows
      ids := List.nodup_cons.mpr ⟨h.1, table.ids⟩
      keys := List.nodup_cons.mpr ⟨h.2, table.keys⟩
      uuids := List.forall_mem_cons.mpr ⟨hid, table.uuids⟩ }
  else none

/-- `FindByCNPJ` and `FindByPhone`. -/
def find (table : AccountTable) : AccountStore := fun key => (table.rows.find? (·.key == key)).map (·.account)

variable {table table' : AccountTable} {row row' : AccountRow}

theorem insert_some {hid : validID row.id = true} (h : table.insert row hid = some table') :
    table'.rows = row :: table.rows ∧ (∀ other ∈ table.rows, other.id ≠ row.id ∧ other.key ≠ row.key) := by
  unfold insert at h
  split at h
  · next hnew =>
    cases h
    refine ⟨rfl, fun other hother => ⟨fun heq => hnew.1 ?_, fun heq => hnew.2 ?_⟩⟩
    · exact heq ▸ List.mem_map_of_mem hother
    · exact heq ▸ List.mem_map_of_mem hother
  · cases h

theorem eq_of_key (h : row ∈ table.rows) (h' : row' ∈ table.rows) (hkey : row.key = row'.key) : row = row' :=
  List.inj_on_of_nodup_map table.keys h h' hkey

theorem find_some {key : String} {account : Account} (h : table.find key = some account) :
    ∃ row ∈ table.rows, row.key = key ∧ row.account = account := by
  obtain ⟨row, hrow, haccount⟩ := Option.map_eq_some_iff.mp h
  exact ⟨row, List.mem_of_find?_eq_some hrow, by simpa using List.find?_some hrow, haccount⟩

theorem find_row (h : row ∈ table.rows) : table.find row.key = some row.account := by
  cases hfind : table.rows.find? (·.key == row.key) with
  | none => exact absurd (List.find?_eq_none.mp hfind row h) (by simp)
  | some other =>
    have hkey : other.key = row.key := by simpa using List.find?_some hfind
    rw [find, hfind, eq_of_key (List.mem_of_find?_eq_some hfind) h hkey]
    rfl

end AccountTable

/-! ## The handlers of one domain -/

/-- How a sign-up goes on. What it was sent stays, to say later whose answer it is. -/
inductive SignUpPhase where
  | validated (input : SignUp)
  | hashed (input : SignUp) (digest : String)
  | stored (input : SignUp) (row : AccountRow)
  | answered (input : SignUp) (answer : Except Failure (AccountMsg × Bytes))

def SignUpPhase.input : SignUpPhase → SignUp
  | .validated input => input
  | .hashed input _ => input
  | .stored input _ => input
  | .answered input _ => input

/-- The connection is lost, and the statement has taken effect or not. -/
inductive InsertFault where
  | before
  | after
  deriving DecidableEq

/-- What `gen_random_uuid()` gives. -/
abbrev GeneratedID := {id : UUID // validID id = true}

inductive PortalStep where
  | signUp (input : SignUp)
  /-- The salt that bcrypt draws, or its failure. -/
  | hash (i : Nat) (salt : Option Bytes)
  | insert (i : Nat) (id : GeneratedID) (createdAt : Time) (fault : Option InsertFault)
  | issue (i : Nat)
  | login (e : LoginStep)

/-- `attempts` has the identifier and the password of each login, in order of arrival. -/
structure Portal where
  table : AccountTable
  signUps : List SignUpPhase
  logins : LoginState
  attempts : List (String × String)

def LoginStep.attempt : LoginStep → List (String × String)
  | .arrive identifier password => [(identifier, password)]
  | _ => []

section
variable (generate : Bytes → String → String) (compareHash : String → String → Bool) (signer : Signer) (domain : Domain)

/-- `HashPassword`, where `generate` is bcrypt with a salt. -/
def hashPassword (salt : Option Bytes) (plain : String) : Option String :=
  if (validatePassword plain).isSome then none else salt.map fun s => generate s plain

/-- The row of the `INSERT`. -/
def SignUp.row (input : SignUp) (id : UUID) (digest : String) (createdAt : Time) : AccountRow :=
  ⟨id, domain.login.normalize input.identifier, input.name, input.address, false, some digest, createdAt⟩

def Domain.arrive (input : SignUp) : SignUpPhase :=
  match domain.validate input with
  | some message => .answered input (.error (.connect .invalidArgument message))
  | none => .validated input

def Domain.internal (input : SignUp) : SignUpPhase := .answered input (.error (.connect .internal domain.failed))

def Domain.hash (salt : Option Bytes) (input : SignUp) : SignUpPhase :=
  match hashPassword generate salt input.password with
  | some digest => .hashed input digest
  | none => domain.internal input

/-- The answer of the sign-up whose row is stored. -/
def Domain.welcome (input : SignUp) (row : AccountRow) (now : Time) : SignUpPhase :=
  .answered input ((issueToken signer domain.login row.account now).map fun token => (row.toProto, token))

namespace Portal

/-- `Repository.Create`: the table it leaves and how the sign-up goes on. -/
def create (table : AccountTable) (input : SignUp) (digest : String) (id : GeneratedID)
    (createdAt : Time) (fault : Option InsertFault) : AccountTable × SignUpPhase :=
  if fault = some .before ∨ input.storable = false then (table, domain.internal input)
  else
    let row := input.row domain id.1 digest createdAt
    match table.insert row id.2 with
    | some table' => (table', if fault = some .after then domain.internal input else .stored input row)
    | none =>
      (table, if fault = some .after then domain.internal input
        else .answered input (.error (.connect .alreadyExists domain.taken)))

def step (s : Portal) (now : Time) (e : PortalStep) : Option Portal :=
  match e with
  | .login e =>
    (handle compareHash signer domain.login s.table.find s.logins (now, e)).map fun logins =>
      { s with logins, attempts := s.attempts ++ e.attempt }
  | .signUp input =>
    if now < s.logins.now then none
    else some { s with logins := { s.logins with now }, signUps := s.signUps ++ [domain.arrive input] }
  | .hash i salt =>
    if now < s.logins.now then none
    else
      match s.signUps[i]? with
      | some (.validated input) =>
        some { s with logins := { s.logins with now }, signUps := s.signUps.set i (domain.hash generate salt input) }
      | _ => none
  | .insert i id createdAt fault =>
    if now < s.logins.now then none
    else
      match s.signUps[i]? with
      | some (.hashed input digest) =>
        let created := create domain s.table input digest id createdAt fault
        some { s with
          table := created.1, logins := { s.logins with now }, signUps := s.signUps.set i created.2 }
      | _ => none
  | .issue i =>
    if now < s.logins.now then none
    else
      match s.signUps[i]? with
      | some (.stored input row) => some { s with
          logins := { s.logins with now }, signUps := s.signUps.set i (domain.welcome signer input row now) }
      | _ => none

def advance (s : Portal) (e : Time × PortalStep) : Option Portal := s.step generate compareHash signer domain e.1 e.2

def run (s : Portal) (es : List (Time × PortalStep)) : Portal :=
  Runs.run (advance generate compareHash signer domain) s es

/-- The server starts on a table, with no requests and an empty throttle. -/
def init (table : AccountTable) (now : Time) : Portal := ⟨table, [], .init now, []⟩

/-- What `step` does, one constructor for each kind of step. -/
inductive Stepped (s : Portal) (now : Time) : PortalStep → Portal → Prop where
  | login {e logins} (h : handle compareHash signer domain.login s.table.find s.logins (now, e) = some logins) :
      Stepped s now (.login e) { s with logins, attempts := s.attempts ++ e.attempt }
  | signUp (input : SignUp) : Stepped s now (.signUp input)
      { s with logins := { s.logins with now }, signUps := s.signUps ++ [domain.arrive input] }
  | hash {i salt input} (hi : s.signUps[i]? = some (.validated input)) : Stepped s now (.hash i salt)
      { s with logins := { s.logins with now }, signUps := s.signUps.set i (domain.hash generate salt input) }
  | insert {i id createdAt fault input digest} (hi : s.signUps[i]? = some (.hashed input digest)) :
      Stepped s now (.insert i id createdAt fault)
        { s with
          table := (create domain s.table input digest id createdAt fault).1
          logins := { s.logins with now }
          signUps := s.signUps.set i (create domain s.table input digest id createdAt fault).2 }
  | issue {i input row} (hi : s.signUps[i]? = some (.stored input row)) : Stepped s now (.issue i)
      { s with logins := { s.logins with now }, signUps := s.signUps.set i (domain.welcome signer input row now) }

variable {generate compareHash signer domain} in
theorem step_cases {s s' : Portal} {now : Time} {e : PortalStep}
    (h : s.step generate compareHash signer domain now e = some s') :
    s.Stepped generate compareHash signer domain now e s' := by
  cases e with
  | login e =>
    obtain ⟨logins, hlogins, rfl⟩ := Option.map_eq_some_iff.mp h
    exact .login hlogins
  | signUp input =>
    simp only [step] at h
    split at h
    · cases h
    · cases h
      exact .signUp input
  | hash i salt =>
    simp only [step] at h
    split at h
    · cases h
    · split at h
      · next hi =>
        cases h
        exact .hash hi
      · cases h
  | insert i id createdAt fault =>
    simp only [step] at h
    split at h
    · cases h
    · split at h
      · next hi =>
        cases h
        exact .insert hi
      · cases h
  | issue i =>
    simp only [step] at h
    split at h
    · cases h
    · split at h
      · next hi =>
        cases h
        exact .issue hi
      · cases h

end Portal

end

end Mototeca
