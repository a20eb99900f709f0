import Mathlib.Algebra.Group.Nat.Defs
import Slate.Entities

/-! The identifiers that are made for new records. -/

namespace Slate

def instanceIDPrefix : String := "instance_"
def secretIDPrefix : String := "secret_"

def base64Text : List Char := "ABCDEFGHIJKLMNOPQRSTUVWXYZabcdefghijklmnopqrstuvwxyz0123456789+/".toList

def fileNameSafe (c : Char) : Char := if c = '+' then '-' else if c = '/' then '_' else c

/-- The bytes of a value as they lie in memory, as one number that begins with the first. -/
def memoryNumber (value : UInt64) : Nat :=
  (List.range 8).foldl (fun number i => number * 256 + value.toNat / 256 ^ i % 256) 0

/-- The random value in groups of six bits, the last of which is filled up. -/
def generateRawID (value : UInt64) : String :=
  .ofList ((List.range 11).map fun i => fileNameSafe (base64Text.getD (memoryNumber value * 4 / 64 ^ (10 - i) % 64) 'A'))

def generateGroupID (value : UInt64) : String := groupIDPrefix ++ generateRawID value
def generateClusterID (value : UInt64) : String := clusterIDPrefix ++ generateRawID value
def generateInstanceID (value : UInt64) : String := instanceIDPrefix ++ generateRawID value
def generateSecretID (value : UInt64) : String := secretIDPrefix ++ generateRawID value

/-- `std::regex_match(token, std::regex("[a-zA-Z0-9-]*"))` -/
def validDnsToken (token : String) : Bool := token.toList.all fun c => c.isAlphanum || c == '-'

/-- `std::regex_match(token, std::regex("[a-z0-9-]*"))` -/
def validTagGroupName (token : String) : Bool := token.toList.all fun c => c.isLower || c.isDigit || c == '-'

end Slate
