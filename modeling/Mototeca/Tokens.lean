import Mathlib.Data.Int.Order.Basic
import Mototeca.Server

/-!
# Session tokens

`internal/auth/token.go` and the two readers of the `Authorization` header. A
token is `<payload>.<signature>`, both in unpadded base64; the payload is
`<kind>:<id>:<expiryUnix>`.
-/

namespace Mototeca

/-! ## Text -/

def cut (sep : UInt8) (s : Bytes) : Option (Bytes × Bytes) :=
  if s.contains sep then some (s.takeWhile (· != sep), (s.dropWhile (· != sep)).drop 1) else none

/-- `strings.EqualFold` with ASCII text none of whose letters has another fold. -/
def equalFold (s t : Bytes) : Bool :=
  let lower (b : UInt8) : UInt8 := if 65 ≤ b && b ≤ 90 then b + 32 else b
  s.map lower == t.map lower

/-- The UTF-8 encodings of the characters of `isSpace`. -/
def spaces : List Bytes :=
  [[9], [10], [11], [12], [13], [32], [0xC2, 0x85], [0xC2, 0xA0], [0xE1, 0x9A, 0x80], [0xE2, 0x80, 0x80],
    [0xE2, 0x80, 0x81], [0xE2, 0x80, 0x82], [0xE2, 0x80, 0x83], [0xE2, 0x80, 0x84], [0xE2, 0x80, 0x85],
    [0xE2, 0x80, 0x86], [0xE2, 0x80, 0x87], [0xE2, 0x80, 0x88], [0xE2, 0x80, 0x89], [0xE2, 0x80, 0x8A],
    [0xE2, 0x80, 0xA8], [0xE2, 0x80, 0xA9], [0xE2, 0x80, 0xAF], [0xE2, 0x81, 0x9F], [0xE3, 0x80, 0x80]]

/-- `s` without up to `n` leading members of `encodings`. -/
def dropSpaces (encodings : List Bytes) : Nat → Bytes → Bytes
  | 0, s => s
  | n + 1, s =>
    match encodings.find? (·.isPrefixOf s) with
    | some e => dropSpaces encodings n (s.drop e.length)
    | none => s

/-- `strings.TrimSpace` of a string that need not be UTF-8. -/
def trimSpaceBytes (s : Bytes) : Bytes :=
  let s := dropSpaces spaces s.length s
  (dropSpaces (spaces.map List.reverse) s.length s.reverse).reverse

def formatNat (n : Nat) : Bytes := (Nat.toDigits 10 n).map fun c => UInt8.ofNat c.toNat

def formatInt (n : Int) : Bytes := if n < 0 then 45 :: formatNat n.natAbs else formatNat n.natAbs

def parseDigits (s : Bytes) : Option Nat :=
  if s != [] && s.all (fun b => 48 ≤ b && b ≤ 57) then
    some (Nat.ofDigitChars 10 (s.map fun b => Char.ofNat b.toNat) 0)
  else none

/-- `strconv.ParseInt(s, 10, 64)`. -/
def parseInt64 (s : Bytes) : Option Int :=
  let value : Option Int :=
    match s with
    | 45 :: rest => (parseDigits rest).map fun n : Nat => -(n : Int)
    | 43 :: rest => (parseDigits rest).map fun n : Nat => (n : Int)
    | _ => (parseDigits s).map fun n : Nat => (n : Int)
  value.filter fun n => -9223372036854775808 ≤ n && n ≤ 9223372036854775807

/-! ## `base64.RawURLEncoding` -/

def encodeSextet (n : UInt8) : UInt8 :=
  if n < 26 then n + 65 else if n < 52 then n + 71 else if n < 62 then n - 4 else if n == 62 then 45 else 95

def decodeSextet (b : UInt8) : Option UInt8 :=
  if 65 ≤ b && b ≤ 90 then some (b - 65)
  else if 97 ≤ b && b ≤ 122 then some (b - 71)
  else if 48 ≤ b && b ≤ 57 then some (b + 4)
  else if b == 45 then some 62
  else if b == 95 then some 63
  else none

def toSextets : Bytes → List UInt8
  | [] => []
  | [x] => [x >>> 2, (x &&& 3) <<< 4]
  | [x, y] => [x >>> 2, (x &&& 3) <<< 4 ||| y >>> 4, (y &&& 15) <<< 2]
  | x :: y :: z :: rest =>
    x >>> 2 :: ((x &&& 3) <<< 4 ||| y >>> 4) :: ((y &&& 15) <<< 2 ||| z >>> 6) :: (z &&& 63) :: toSextets rest

def fromSextets : List UInt8 → Option Bytes
  | [] => some []
  | [_] => none
  | [a, b] => some [a <<< 2 ||| b >>> 4]
  | [a, b, c] => some [a <<< 2 ||| b >>> 4, b <<< 4 ||| c >>> 2]
  | a :: b :: c :: d :: rest =>
    (fromSextets rest).map fun s => (a <<< 2 ||| b >>> 4) :: (b <<< 4 ||| c >>> 2) :: (c <<< 6 ||| d) :: s

def encodeToString (s : Bytes) : Bytes := (toSextets s).map encodeSextet

/-- Line breaks in the text are skipped. -/
def decodeString (s : Bytes) : Option Bytes :=
  ((s.filter fun b => b != 13 && b != 10).mapM decodeSextet).bind fromSextets

/-! ## Signer -/

def minSecretLength : Nat := 32

/-- `mac` is HMAC-SHA256, of a key and a message. -/
structure Signer where
  mac : Bytes → Bytes → Bytes
  secret : Bytes
  ttl : Time
  secret_length : minSecretLength ≤ secret.length
  ttl_pos : 0 < ttl

def newSigner (mac : Bytes → Bytes → Bytes) (secret : Bytes) (ttl : Time) : Except String Signer :=
  if hs : secret.length < minSecretLength then
    .error ("auth secret must be at least " ++ toString minSecretLength ++ " characters")
  else if ht : ttl ≤ 0 then .error "auth token ttl must be positive"
  else .ok ⟨mac, secret, ttl, Nat.le_of_not_lt hs, not_le.mp ht⟩

def Kind.text : Kind → Bytes
  | .workshop => [119]
  | .owner => [111]

/-- `Kind(text)`, where it is `valid`. -/
def Kind.parse (text : Bytes) : Option Kind :=
  if text = Kind.text .workshop then some .workshop
  else if text = Kind.text .owner then some .owner
  else none

def second : Int := 1000000000

namespace Signer

variable (signer : Signer)

def sign (payload : Bytes) : Bytes := signer.mac signer.secret payload

/-- `now.Add(ttl).Unix()`. -/
def expiry (now : Time) : Int := (now + signer.ttl) / second

def payload (subject : Subject) (now : Time) : Bytes :=
  subject.kind.text ++ 58 :: (subject.id ++ 58 :: formatInt (signer.expiry now))

def issue (subject : Subject) (now : Time) : Except String Bytes :=
  if subject.id = [] then .error "subject id is required"
  else if subject.id.contains 58 then .error "subject id must not contain ':'"
  else
    let payload := signer.payload subject now
    .ok (encodeToString payload ++ 46 :: encodeToString (signer.sign payload))

def decode (token : Bytes) : Option (Bytes × Bytes) :=
  match cut 46 token with
  | none => none
  | some (rawPayload, rawSignature) =>
    match decodeString rawPayload, decodeString rawSignature with
    | some payload, some signature => some (payload, signature)
    | _, _ => none

def read (payload : Bytes) (now : Time) : Option Subject :=
  match payload.splitOn 58 with
  | [kind, id, expiry] =>
    match Kind.parse kind with
    | none => none
    | some kind =>
      if id = [] then none
      else
        match parseInt64 expiry with
        | none => none
        | some expiry => if now > expiry * second then none else some ⟨kind, id⟩
  | _ => none

/-- `none` is `ErrInvalidToken`. -/
def verify (token : Bytes) (now : Time) : Option Subject :=
  match decode token with
  | none => none
  | some (payload, signature) => if signature = signer.sign payload then read payload now else none

end Signer

def bearerToken (header : Bytes) : Option Bytes :=
  match cut 32 header with
  | none => none
  | some (scheme, token) =>
    if !equalFold scheme (ascii "Bearer") then none
    else if trimSpaceBytes token = [] then none
    else some (trimSpaceBytes token)

/-! ## Reading back what was issued -/

theorem digit_byte {c : Char} (h : c.isDigit = true) :
    (48 ≤ UInt8.ofNat c.toNat ∧ UInt8.ofNat c.toNat ≤ 57) ∧ Char.ofNat (UInt8.ofNat c.toNat).toNat = c := by
  obtain ⟨h₁, h₂⟩ : 48 ≤ c.toNat ∧ c.toNat ≤ 57 := by
    simpa [Char.isDigit, UInt32.le_iff_toNat_le] using h
  have hto : (UInt8.ofNat c.toNat).toNat = c.toNat := by
    rw [UInt8.toNat_ofNat']
    omega
  refine ⟨⟨?_, ?_⟩, by rw [hto, Char.ofNat_toNat]⟩
  · rw [UInt8.le_iff_toNat_le, hto]
    exact h₁
  · rw [UInt8.le_iff_toNat_le, hto]
    exact h₂

theorem mem_formatNat {n : Nat} {b : UInt8} (hb : b ∈ formatNat n) : 48 ≤ b ∧ b ≤ 57 := by
  obtain ⟨c, hc, rfl⟩ := List.mem_map.mp hb
  exact (digit_byte (isDigit_of_mem hc)).1

theorem formatNat_ne_nil (n : Nat) : formatNat n ≠ [] := by
  simp [formatNat, Nat.toDigits_ne_nil]

theorem parseDigits_formatNat (n : Nat) : parseDigits (formatNat n) = some n := by
  have hdigits : ((formatNat n).all fun b => 48 ≤ b && b ≤ 57) = true := by
    simp only [List.all_eq_true, Bool.and_eq_true, decide_eq_true_eq]
    exact fun b hb => mem_formatNat hb
  have hback : (formatNat n).map (fun b => Char.ofNat b.toNat) = Nat.toDigits 10 n := by
    rw [formatNat, List.map_map]
    exact (List.map_congr_left fun c hc => (digit_byte (isDigit_of_mem hc)).2).trans (List.map_id _)
  unfold parseDigits
  rw [hdigits, hback, Nat.ofDigitChars_ten_toDigits, bne_iff_ne.mpr (formatNat_ne_nil n)]
  rfl

theorem formatInt_no_colon (n : Int) : (58 : UInt8) ∉ formatInt n := by
  have hd : (58 : UInt8) ∉ formatNat n.natAbs := fun h => absurd (mem_formatNat h).2 (by decide)
  unfold formatInt
  split
  · simpa using hd
  · exact hd

theorem parseInt64_formatInt_eq (n : Int) :
    parseInt64 (formatInt n) = (some n).filter fun n => -9223372036854775808 ≤ n && n ≤ 9223372036854775807 := by
  unfold formatInt
  split
  · have hn : -((n.natAbs : Nat) : Int) = n := by omega
    simp only [parseInt64, parseDigits_formatNat, Option.map_some, hn]
  · have hn : ((n.natAbs : Nat) : Int) = n := by omega
    cases hf : formatNat n.natAbs with
    | nil => exact absurd hf (formatNat_ne_nil _)
    | cons b rest =>
      have hb : 48 ≤ b := (mem_formatNat (n := n.natAbs) (b := b) (by rw [hf]; simp)).1
      have hval : parseDigits (b :: rest) = some n.natAbs := hf ▸ parseDigits_formatNat n.natAbs
      unfold parseInt64
      split
      · rename_i he
        obtain ⟨rfl, -⟩ := List.cons.inj he
        exact absurd hb (by decide)
      · rename_i he
        obtain ⟨rfl, -⟩ := List.cons.inj he
        exact absurd hb (by decide)
      · rw [hval, Option.map_some, hn]

theorem parseInt64_formatInt {n m : Int} (h : parseInt64 (formatInt n) = some m) : m = n := by
  rw [parseInt64_formatInt_eq] at h
  exact (Option.some.inj (Option.filter_eq_some_iff.mp h).1).symm

@[simp] theorem Kind.parse_text (k : Kind) : Kind.parse k.text = some k := by
  cases k <;> decide

theorem Kind.text_no_colon (k : Kind) : (58 : UInt8) ∉ k.text := by
  cases k <;> decide

namespace Signer

variable {signer : Signer}

theorem split_payload {subject : Subject} (hid : (58 : UInt8) ∉ subject.id) (issuedAt : Time) :
    (signer.payload subject issuedAt).splitOn 58 =
      [subject.kind.text, subject.id, formatInt (signer.expiry issuedAt)] := by
  rw [payload, List.splitOn_append_cons_self_of_not_mem subject.kind.text_no_colon,
    List.splitOn_append_cons_self_of_not_mem hid, List.splitOn_eq_singleton (formatInt_no_colon _)]

theorem payload_inj {s s' : Subject} {t t' : Time} (hs : (58 : UInt8) ∉ s.id) (hs' : (58 : UInt8) ∉ s'.id)
    (h : signer.payload s t = signer.payload s' t') : s = s' := by
  have hfields : [s.kind.text, s.id, formatInt (signer.expiry t)] =
      [s'.kind.text, s'.id, formatInt (signer.expiry t')] := by
    rw [← split_payload hs, ← split_payload hs', h]
  obtain ⟨hk, hid, -⟩ : s.kind.text = s'.kind.text ∧ s.id = s'.id ∧ _ := by simpa using hfields
  have hkind : s.kind = s'.kind := by simpa using congrArg Kind.parse hk
  obtain ⟨kind, id⟩ := s
  obtain ⟨kind', id'⟩ := s'
  rw [show kind = kind' from hkind, show id = id' from hid]

theorem read_payload {subject subject' : Subject} {issuedAt now : Time} (hid : (58 : UInt8) ∉ subject.id)
    (h : read (signer.payload subject issuedAt) now = some subject') :
    subject' = subject ∧ now ≤ signer.expiry issuedAt * second := by
  simp only [read, split_payload hid, Kind.parse_text] at h
  split at h
  · cases h
  · split at h
    · cases h
    · rename_i expiry he
      rw [parseInt64_formatInt he] at h
      split at h
      · cases h
      · rename_i hle
        exact ⟨(Option.some.inj h).symm, not_lt.mp hle⟩

theorem verify_some {token : Bytes} {now : Time} {subject : Subject} (h : signer.verify token now = some subject) :
    ∃ payload, decode token = some (payload, signer.sign payload) ∧ read payload now = some subject := by
  unfold verify at h
  cases hd : decode token with
  | none => rw [hd] at h; cases h
  | some p =>
    obtain ⟨payload, signature⟩ := p
    simp only [hd] at h
    split at h
    · rename_i hs
      exact ⟨payload, by rw [← hs], h⟩
    · cases h

theorem issue_ok {subject : Subject} {now : Time} {token : Bytes} (h : signer.issue subject now = .ok token) :
    subject.id ≠ [] ∧ (58 : UInt8) ∉ subject.id := by
  unfold issue at h
  split at h
  · cases h
  · split at h
    · cases h
    · rename_i hne hc
      exact ⟨hne, by simpa using hc⟩

end Signer

/-! ## A signer for one hour -/

def sampleSecret : Bytes := ascii "0123456789abcdef0123456789abcdef"

def sampleMac (key message : Bytes) : Bytes :=
  if key = sampleSecret ∧ message = ascii "w:00000000-0000-0000-0000-000000000001:3600" then
    [223, 183, 128, 31, 148, 192, 149, 192, 205, 122, 219, 83, 92, 237, 4, 221, 102, 232, 165, 231, 124, 105, 81,
      170, 61, 181, 76, 211, 114, 33, 82, 180]
  else []

def sampleSigner : Signer := ⟨sampleMac, sampleSecret, 3600 * second, by decide, by decide⟩

end Mototeca
