import Mathlib.Algebra.Group.Nat.Defs

/-!
# JSON values

The values that request bodies are parsed into and that answers are made of.
-/

namespace Nip05d.Json

/-- A number as the parser keeps it: non-negative and negative integers in the
64-bit range, everything else as a floating-point literal. -/
inductive Number where
  | posInt (n : Nat)
  | negInt (n : Int)
  | float (literal : String)
  deriving DecidableEq, Repr

inductive Value where
  | null
  | bool (b : Bool)
  | number (n : Number)
  | string (s : String)
  | array (items : List Value)
  | object (fields : List (String × Value))
  deriving Repr

/-- The value of a number that is a `u64`. -/
def Number.asU64 : Number → Option Nat
  | .posInt n => if n < 2 ^ 64 then some n else none
  | _ => none

/-- The value of a field of an object. -/
def Value.get : Value → String → Option Value
  | .object fields, key => (fields.find? fun f => f.1 == key).map Prod.snd
  | _, _ => none

def Value.asStr : Value → Option String
  | .string s => some s
  | _ => none

/-- The value of an item of an array. -/
def Value.item : Value → Nat → Option Value
  | .array items, i => items[i]?
  | _, _ => none

def Value.asU64 : Value → Option UInt64
  | .number n => n.asU64.map UInt64.ofNat
  | _ => none

def Value.isNull : Value → Bool
  | .null => true
  | _ => false

end Nip05d.Json
