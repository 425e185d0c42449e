import Mathlib.Tactic.Common
import Mathlib.Data.List.Basic
import Mathlib.Data.Rat.Floor

/-! The values that tokens are made of: JSON, headers, keys, and the errors of the library
that reads and signs them. -/
namespace SvcAuth

abbrev Bytes := List UInt8

/-- JSON values. `int` is a number written as an integer within 64 bits, `float` any
other finite number; an object keeps its members in document order, repeats included. -/
inductive Json
  | null
  | bool (b : Bool)
  | int (i : ℤ)
  | float (q : ℚ)
  | str (s : String)
  | arr (items : List Json)
  | obj (members : List (String × Json))

namespace Json

def asStr : Json → Option String
  | .str s => some s
  | _ => none

/-- A signed 64-bit field. -/
def asI64 : Json → Option Int64
  | .int i => if -2 ^ 63 ≤ i ∧ i < 2 ^ 63 then some (Int64.ofInt i) else none
  | _ => none

/-- Values every claim set of the service is made of: strings and 64-bit integers. -/
def Scalar : Json → Prop
  | .str _ => True
  | .int i => -2 ^ 63 ≤ i ∧ i < 2 ^ 64
  | _ => False

end Json

inductive Algorithm
  | HS256 | HS384 | HS512 | ES256 | ES384 | RS256 | RS384 | RS512
  | PS256 | PS384 | PS512 | EdDSA
  deriving DecidableEq, Repr

inductive AlgorithmFamily
  | Hmac | Rsa | Ec | Ed
  deriving DecidableEq, Repr

def Algorithm.family : Algorithm → AlgorithmFamily
  | .HS256 | .HS384 | .HS512 => .Hmac
  | .RS256 | .RS384 | .RS512 | .PS256 | .PS384 | .PS512 => .Rsa
  | .ES256 | .ES384 => .Ec
  | .EdDSA => .Ed

/-- The header fields the service and the decoder read. -/
structure Header where
  alg : Algorithm
  kid : Option String
  deriving DecidableEq, Repr

/-- `Header::default()`. -/
def Header.default : Header := ⟨.HS256, none⟩

structure EncodingKey where
  family : AlgorithmFamily
  material : String
  deriving DecidableEq, Repr

def EncodingKey.fromSecret (secret : String) : EncodingKey := ⟨.Hmac, secret⟩

structure DecodingKey where
  family : AlgorithmFamily
  material : String
  deriving DecidableEq, Repr

def DecodingKey.fromSecret (secret : String) : DecodingKey := ⟨.Hmac, secret⟩

/-- Why `decode` refused a token. -/
inductive ErrorKind
  | InvalidToken
  | Base64
  | Json
  | InvalidAlgorithm
  | InvalidSignature
  | MissingRequiredClaim (claim : String)
  | ExpiredSignature
  | ImmatureSignature
  | InvalidIssuer
  | InvalidAudience
  deriving DecidableEq, Repr

end SvcAuth
