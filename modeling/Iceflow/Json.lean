import Mathlib.Data.Rat.Floor

/-! JSON values and the accessors of `nlohmann::json` that the library uses. A
parsed non-negative integer is `unsigned`, a negative one `integer`; a finite
double is the rational number it denotes. Objects list their members in the
order of iteration. -/
namespace Iceflow

abbrev Bytes := List UInt8

/-- Exceptions by the catch clauses that tell them apart. `ndn::Name::Error` is
derived from `std::runtime_error`; `application` is whatever a callback of the
application throws. -/
inductive Exception where
  | runtimeError (what : String)
  | nameError (uri : String)
  | invalidArgument (what : String)
  | jsonError (what : String)
  | application (what : String)
  deriving DecidableEq

/-- Caught by `catch (const std::runtime_error &)`. -/
def Exception.isRuntimeError : Exception → Bool
  | .runtimeError _ | .nameError _ => true
  | _ => false

inductive Json where
  | null
  | boolean (b : Bool)
  | integer (i : Int)
  | unsigned (n : UInt64)
  | float (q : Rat)
  | string (s : String)
  | array (elements : List Json)
  | object (members : List (String × Json))

namespace Json

def isNumberInteger : Json → Bool
  | .integer _ | .unsigned _ => true
  | _ => false

/-- The conversion `get` applies to arithmetic types: a `static_cast` from the stored
number or boolean. Fractions are cut off. -/
def toInt? : Json → Option Int
  | .integer i => some i
  | .unsigned n => some n.toNat
  | .float q => some (if q < 0 then ⌈q⌉ else ⌊q⌋)
  | .boolean b => some (if b then 1 else 0)
  | _ => none

/-- `get<uint64_t>`. Numbers are stored in this type, and for it booleans are not converted. -/
def getUInt64 : Json → Except Exception UInt64
  | .boolean _ => .error (.jsonError "type must be number")
  | j =>
    match j.toInt? with
    | some i => .ok (UInt64.ofInt i)
    | none => .error (.jsonError "type must be number")

/-- `get<uint32_t>` -/
def getUInt32 (j : Json) : Except Exception UInt32 :=
  match j.toInt? with
  | some i => .ok (UInt32.ofInt i)
  | none => .error (.jsonError "type must be number")

/-- `get<std::string>` -/
def getString : Json → Except Exception String
  | .string s => .ok s
  | _ => .error (.jsonError "type must be string")

/-- `get<object_t>` -/
def getObject : Json → Except Exception (List (String × Json))
  | .object members => .ok members
  | _ => .error (.jsonError "type must be object")

/-- `at(key)` -/
def at? (j : Json) (key : String) : Except Exception Json :=
  match j with
  | .object members =>
    match members.lookup key with
    | some value => .ok value
    | none => .error (.jsonError ("key '" ++ key ++ "' not found"))
  | _ => .error (.jsonError "cannot use at() with this type")

/-- `value(key, default)` -/
def value (j : Json) (key : String) (default : Json) : Except Exception Json :=
  match j with
  | .object members => .ok ((members.lookup key).getD default)
  | _ => .error (.jsonError "cannot use value() with this type")

def contains : Json → String → Bool
  | .object members, key => (members.lookup key).isSome
  | _, _ => false

/-- What a range-based `for` over the value visits. -/
def elements : Json → List Json
  | .null => []
  | .array elements => elements
  | .object members => members.map Prod.snd
  | scalar => [scalar]

/-- What a range-based `for` over `items()` visits. -/
def items : Json → List (String × Json)
  | .null => []
  | .array elements => elements.mapIdx (fun i element => (toString i, element))
  | .object members => members
  | scalar => [("", scalar)]

end Json
end Iceflow
