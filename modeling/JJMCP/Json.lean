import JJMCP.Text
import Mathlib.Algebra.Group.Nat.Defs

namespace JJMCP

/-- A JSON value. The two integer types are one here, a double is the fraction it
stands for, and the members of an object are in the order of their keys. -/
inductive Json
  | null
  | bool (b : Bool)
  | int (n : Int)
  | float (q : Rat)
  | str (t : Text)
  | arr (items : List Json)
  | obj (fields : List (Text × Json))

/-- The parser and the printer of the JSON library. The printer replaces invalid
UTF-8, as it does in frames; a request to the helper has none, since its code
comes out of parsed JSON. With JJMCP_LOG_FORMAT=json log lines go through the strict
printer, which throws on a text that is not UTF-8. -/
structure JsonLib where
  parse : Text → Except Text Json
  dump : Json → Text
  strictError : Text → Text := fun _ => []
  logJson : Bool := false

end JJMCP

namespace JJMCP.Json

open Text

def typeName : Json → Text
  | .null => lit "null"
  | .bool _ => lit "boolean"
  | .int _ | .float _ => lit "number"
  | .str _ => lit "string"
  | .arr _ => lit "array"
  | .obj _ => lit "object"

def isObject : Json → Bool
  | .obj _ => true
  | _ => false

def isNull : Json → Bool
  | .null => true
  | _ => false

def isBoolean : Json → Bool
  | .bool _ => true
  | _ => false

def get? (j : Json) (key : Text) : Option Json :=
  match j with
  | .obj fields => fields.lookup key
  | _ => none

def contains (j : Json) (key : Text) : Bool := (j.get? key).isSome

def typeError (expected : String) (j : Json) : Text :=
  lit "[json.exception.type_error.302] type must be " ++ lit expected ++ lit ", but is " ++ typeName j

/-- The member value of the library: the default for an absent key, and an
exception for a value that the reader does not take. -/
def value {α : Type} (read : Json → Except Text α) (j : Json) (key : Text) (default : α) : Except Text α :=
  match j with
  | .obj fields => (fields.lookup key).elim (.ok default) read
  | _ => .error (lit "[json.exception.type_error.306] cannot use value() with " ++ typeName j)

def readBool : Json → Except Text Bool
  | .bool b => .ok b
  | j => .error (typeError "boolean" j)

def readString : Json → Except Text Text
  | .str t => .ok t
  | j => .error (typeError "string" j)

def truncate (q : Rat) : Int := if 0 ≤ q then q.floor else -(-q).floor

def readLongLong : Json → Except Text Int
  | .int n => .ok (n.bmod (2 ^ 64))
  | .float q => .ok (truncate q)
  | .bool b => .ok (if b then 1 else 0)
  | j => .error (typeError "number" j)

def requireString (args : Json) (key : String) : Except Text Text :=
  match args.get? (lit key) with
  | some (.str t) => .ok t
  | _ => .error (lit "argument '" ++ lit key ++ lit "' must be a string")

def optionalString (args : Json) (key : String) (default : Text) : Text :=
  match args.get? (lit key) with
  | some (.str t) => t
  | _ => default

def optionalInt (args : Json) (key : String) (default lo hi : Nat) : Nat :=
  match args.get? (lit key) with
  | some (.int n) => (max (lo : Int) (min (n.bmod (2 ^ 32)) hi)).toNat
  | _ => default

theorem value_isOk {α : Type} (read : Json → Except Text α) (fields : List (Text × Json)) (key : Text) (default : α) :
    (value read (.obj fields) key default).isOk = true ↔
      ∀ v, (Json.obj fields).get? key = some v → (read v).isOk = true := by
  simp only [value, get?]
  cases fields.lookup key with
  | none => simp [Except.isOk, Except.toBool]
  | some v => simp

theorem readBool_isOk (j : Json) : (readBool j).isOk = true ↔ j.isBoolean = true := by
  cases j <;> simp [readBool, isBoolean, Except.isOk, Except.toBool]

end JJMCP.Json
