/-!
# Text as the Go server handles it

A Go string is a sequence of bytes. Ids, tokens and headers are modelled as
that; text that reaches a message field or a `TEXT` column is valid UTF-8 and
is a `String`.
-/

namespace Mototeca

abbrev Bytes := List UInt8

def ascii (s : String) : Bytes := s.toList.map fun c => UInt8.ofNat c.toNat

def isSpace (c : Char) : Bool :=
  let n := c.toNat
  (9 ≤ n && n ≤ 13) || n == 0x20 || n == 0x85 || n == 0xA0 || n == 0x1680 || (0x2000 ≤ n && n ≤ 0x200A) ||
    n == 0x2028 || n == 0x2029 || n == 0x202F || n == 0x205F || n == 0x3000

def trimSpace (s : String) : String :=
  String.ofList ((s.toList.dropWhile isSpace).reverse.dropWhile isSpace).reverse

/-- `strings.ToUpper`, over the case table `toUpper` of `unicode`. -/
def mapUpper (toUpper : Char → Char) (s : String) : String := String.ofList (s.toList.map toUpper)

/-- `len` of a Go string that holds valid UTF-8. -/
def byteLen (s : String) : Nat := s.utf8ByteSize

/-- `%q` of a string that needs no escapes, as every operation a message names. -/
def quote (s : String) : String := "\"" ++ s ++ "\""

def isHex (b : UInt8) : Bool :=
  (48 ≤ b && b ≤ 57) || (65 ≤ b && b ≤ 70) || (97 ≤ b && b ≤ 102)

def isHyphenAt (i : Nat) : Bool := i == 8 || i == 13 || i == 18 || i == 23

/-- `validID`: 36 bytes that `uuid.Validate` accepts. -/
def validID (id : Bytes) : Bool :=
  id.length == 36 && id.zipIdx.all fun p => if isHyphenAt p.2 then p.1 == 45 else isHex p.1

/-- The text Postgres gives back for a uuid it read as `id`. -/
def canonicalID (id : Bytes) : Bytes := id.map fun b => if 65 ≤ b && b ≤ 70 then b + 32 else b

theorem isDigit_of_mem {n : Nat} {c : Char} (hc : c ∈ Nat.toDigits 10 n) : c.isDigit = true :=
  Nat.isDigit_of_mem_toDigits (by decide) (by decide) hc

end Mototeca
