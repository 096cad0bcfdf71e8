import Mototeca.GoText

/-!
# Dart values

What the app reads out of decoded JSON, and what its casts throw. The parts of
the SDK and of the packages that the app only passes values through are the
fields of `Dart`.
-/

namespace Mototeca.Mobile

/-! ## ApiException -/

inductive ApiErrorCode where
  | invalidArgument | notFound | alreadyExists | unauthenticated | permissionDenied | failedPrecondition
  | resourceExhausted | unavailable | unknown
  deriving DecidableEq

def ApiErrorCode.parse : Option String → ApiErrorCode
  | some "invalid_argument" => .invalidArgument
  | some "not_found" => .notFound
  | some "already_exists" => .alreadyExists
  | some "unauthenticated" => .unauthenticated
  | some "permission_denied" => .permissionDenied
  | some "failed_precondition" => .failedPrecondition
  | some "resource_exhausted" => .resourceExhausted
  | some "unavailable" => .unavailable
  | _ => .unknown

structure ApiException where
  code : ApiErrorCode
  message : String
  deriving DecidableEq

def ApiException.offline : ApiException :=
  ⟨.unavailable, "Sem conexão com o servidor. Verifique a rede e tente de novo."⟩

def ApiException.isSessionExpired (e : ApiException) : Bool := e.code == .unauthenticated

inductive Thrown where
  | api (e : ApiException)
  | typeError
  | formatException
  | unsupportedError
  | databaseException
  deriving DecidableEq

/-! ## Decoded JSON -/

/-- `jsonDecode` reads `1e999` as `double.infinity`. -/
inductive Num where
  | int (n : Int)
  | double (q : Rat)
  | infinite

def minInt : Int := -9223372036854775808
def maxInt : Int := 9223372036854775807

/-- `num.toInt`, which truncates and clamps to 64 bits. -/
def Num.toInt : Num → Except Thrown Int
  | .int n => .ok n
  | .double q =>
    let n := q.num.tdiv q.den
    .ok (if n < minInt then minInt else if maxInt < n then maxInt else n)
  | .infinite => .error .unsupportedError

inductive Json where
  | null
  | bool (b : Bool)
  | num (n : Num)
  | string (s : String)
  | list (l : List Json)
  | map (m : List (String × Json))

abbrev JsonMap := List (String × Json)

/-- `as String?` of what a map has under a key. -/
def asString : Option Json → Except Thrown (Option String)
  | none | some .null => .ok none
  | some (.string s) => .ok (some s)
  | some _ => .error .typeError

def asInt : Option Json → Except Thrown (Option Int)
  | none | some .null => .ok none
  | some (.num n) => n.toInt.map some
  | some _ => .error .typeError

def asMap : Option Json → Except Thrown (Option JsonMap)
  | none | some .null => .ok none
  | some (.map m) => .ok (some m)
  | some _ => .error .typeError

def asList : Option Json → Except Thrown (Option (List Json))
  | none | some .null => .ok none
  | some (.list l) => .ok (some l)
  | some _ => .error .typeError

/-! ## The SDK -/

structure DateTime where
  microsecondsSinceEpoch : Int
  isUtc : Bool
  deriving DecidableEq

structure Dart where
  /-- `none` where it throws `FormatException`. -/
  jsonDecode : String → Option Json
  /-- `DateTime.tryParse`; `DateTime.parse` throws `FormatException` on `none`. -/
  tryParse : String → Option DateTime
  toIso8601String : DateTime → String
  toUpperCase : String → String
  mediaType : String → Bool

def isWhitespace (c : Char) : Bool := isSpace c || c.toNat == 0xFEFF

def trim (s : String) : String :=
  String.ofList ((s.toList.dropWhile isWhitespace).reverse.dropWhile isWhitespace).reverse

def removeAll (c : Char) (s : String) : String := String.ofList (s.toList.filter (· != c))

def normalizePlate (dart : Dart) (raw : String) : String :=
  removeAll ' ' (removeAll '-' (dart.toUpperCase (trim raw)))

end Mototeca.Mobile
