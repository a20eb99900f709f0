import Slate.Cache

/-! The operations of the multimap in runs, with what they return. -/

namespace Slate
open Library

universe u v w

variable {κ : Type u} [DecidableEq κ] {α : Type v} {ι : Type w} [Identified α ι] [DecidableEq ι]

namespace ConcurrentMultimap

/-- Inserts the record, unless one is there that compares equal to it. -/
def insert (map : ConcurrentMultimap κ α) (key : κ) (entry : CacheRecord α) (now : Time) : Bool × ConcurrentMultimap κ α :=
  match map.lookup key with
  | some category =>
      if (category.find entry.record).isSome then (false, map)
      else (true, AList.insert key (category.assign entry) map)
  | none => (true, AList.insert key (.single entry now) map)

/-- Replaces the record that compares equal to the given one, and does nothing if there is none. -/
def update (map : ConcurrentMultimap κ α) (key : κ) (entry : CacheRecord α) : Bool × ConcurrentMultimap κ α :=
  match map.lookup key with
  | some category =>
      if (category.find entry.record).isSome then (true, AList.insert key (category.assign entry) map)
      else (false, map)
  | none => (false, map)

def contains (map : ConcurrentMultimap κ α) (key : κ) : Bool := (map.lookup key).isSome

def containsValue (map : ConcurrentMultimap κ α) (key : κ) (value : α) : Bool := (map.findValue key value).isSome

end ConcurrentMultimap

/-- An operation on a multimap. Those that may create a category come with their reading of the clock. -/
inductive MultimapOperation (κ : Type u) (α : Type v) where
  | insert (key : κ) (entry : CacheRecord α) (now : Time)
  | insertOrAssign (key : κ) (entry : CacheRecord α) (now : Time)
  | update (key : κ) (entry : CacheRecord α)
  | erase (key : κ)
  | eraseValue (key : κ) (value : α)
  | updateExpiration (key : κ) (time : Time)
  | find (key : κ)
  | findValue (key : κ) (value : α)
  | contains (key : κ)
  | containsValue (key : κ) (value : α)

/-- What an operation returns. A category is returned as a collection of some type. -/
inductive MultimapResponse (ρ : Type w) (α : Type v) where
  | flag (result : Bool)
  | erased (count : Nat)
  | category (members : ρ) (expiration : Time)
  | value (found : Option (CacheRecord α))

namespace ConcurrentMultimap

def step (map : ConcurrentMultimap κ α) :
    MultimapOperation κ α → MultimapResponse (List (CacheRecord α)) α × ConcurrentMultimap κ α
  | .insert key entry now => (map.insert key entry now).map .flag id
  | .insertOrAssign key entry now => (map.insertOrAssign key entry now).map .flag id
  | .update key entry => (map.update key entry).map .flag id
  | .erase key => (map.erase key).map .erased id
  | .eraseValue key value => (map.eraseValue key value).map .erased id
  | .updateExpiration key time => (map.updateExpiration key time).map .flag id
  | .find key => (.category (map.find key).members (map.find key).expiration, map)
  | .findValue key value => (.value (map.findValue key value), map)
  | .contains key => (.flag (map.contains key), map)
  | .containsValue key value => (.flag (map.containsValue key value), map)

/-- The responses of the operations one after another, and what they leave. -/
def run : List (MultimapOperation κ α) → ConcurrentMultimap κ α →
    List (MultimapResponse (List (CacheRecord α)) α) × ConcurrentMultimap κ α
  | [], map => ([], map)
  | operation :: operations, map =>
    let stepped := map.step operation
    let others := run operations stepped.2
    (stepped.1 :: others.1, others.2)

end ConcurrentMultimap
end Slate
