import Mathlib.Algebra.Group.Nat.Defs
import Mathlib.Data.Rat.Defs

/-! Documents and the checked accesses to them. There is no result where an access asserts
that a value is of another kind or has a member. -/

namespace Slate.Library

inductive Json where
  | null
  | bool (value : Bool)
  /-- A number that is not written as an integer, or is too large for one of 64 bits, is a double. -/
  | number (value : ℚ) (double : Bool := false)
  | string (value : String)
  | array (items : List Json)
  | object (members : List (String × Json))

abbrev Members := List (String × Json)

namespace Json

def isNull : Json → Bool
  | null => true
  | _ => false

def isObject : Json → Bool
  | object _ => true
  | _ => false

def isArray : Json → Bool
  | array _ => true
  | _ => false

def isString : Json → Bool
  | string _ => true
  | _ => false

def isBool : Json → Bool
  | bool _ => true
  | _ => false

def hasMember (name : String) : Json → Option Bool
  | object members => some (members.lookup name).isSome
  | _ => none

def member (name : String) : Json → Option Json
  | object members => members.lookup name
  | _ => none

def getArray : Json → Option (List Json)
  | array items => some items
  | _ => none

def getObject : Json → Option (List (String × Json))
  | object members => some members
  | _ => none

def getBool : Json → Option Bool
  | bool value => some value
  | _ => none

theorem getBool_eq {value : Json} {flag : Bool} (same : value.getBool = some flag) : value = bool flag := by
  cases value with
  | bool value => exact congrArg bool (Option.some.inj same)
  | null => cases same
  | number => cases same
  | string => cases same
  | array => cases same
  | object => cases same

def getString : Json → Option String
  | string value => some value
  | _ => none

/-- The string as it is read from its address, up to the first NUL. -/
def getCString : Json → Option String
  | string value => some (.ofList (value.toList.takeWhile (· ≠ '\x00')))
  | _ => none

/-- `IsUint64` and `GetUint64` -/
def getUint64 : Json → Option Nat
  | number value false => if value.isInt ∧ 0 ≤ value ∧ value < 2 ^ 64 then some value.num.toNat else none
  | _ => none

theorem getUint64_natCast {value : Nat} (fits : value < 2 ^ 64) : getUint64 (number value) = some value := by
  have small : (value : ℚ) < 2 ^ 64 := by exact_mod_cast fits
  rw [getUint64, if_pos ⟨by simp [Rat.isInt], by exact_mod_cast Nat.zero_le value, small⟩]
  simp

theorem hasMember_of_member {name : String} {value found : Json} (there : value.member name = some found) :
    value.hasMember name = some true := by
  cases value with
  | object members =>
    rw [member] at there
    rw [hasMember, there]
    rfl
  | null => cases there
  | bool => cases there
  | number => cases there
  | string => cases there
  | array => cases there

theorem member_of_hasMember {name : String} {value : Json} (has : value.hasMember name = some true) :
    ∃ found, value.member name = some found := by
  cases value with
  | object members => exact Option.isSome_iff_exists.mp (Option.some.inj has)
  | null => cases has
  | bool => cases has
  | number => cases has
  | string => cases has
  | array => cases has

theorem hasMember_object {name : String} {value : Json} (isObject : value.isObject = true) :
    value.hasMember name = some (value.member name).isSome := by
  cases value with
  | object members => rfl
  | null => cases isObject
  | bool => cases isObject
  | number => cases isObject
  | string => cases isObject
  | array => cases isObject

theorem isObject_of_member {name : String} {value found : Json} (there : value.member name = some found) :
    value.isObject = true := by
  cases value with
  | object members => rfl
  | null => cases there
  | bool => cases there
  | number => cases there
  | string => cases there
  | array => cases there

theorem hasMember_none {name : String} {value : Json} (noObject : value.isObject = false) :
    value.hasMember name = none := by
  cases value with
  | object members => cases noObject
  | null => rfl
  | bool => rfl
  | number => rfl
  | string => rfl
  | array => rfl

end Json

end Slate.Library
