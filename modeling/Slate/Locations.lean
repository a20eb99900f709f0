import Slate.Clusters
import Slate.Responses
import Mathlib.Data.Finset.Dedup
import Mathlib.Data.List.TakeWhile

/-! Where the hardware of a cluster is: how locations are written as texts and read again,
stored, cached, and taken from a request. -/

namespace Slate
open Library

def isNumeric (c : Char) : Bool := c.isDigit || c == '+' || c == '-' || c == '.' || c == 'e'

/-- A number as it is written to a stream. -/
structure Coordinate where
  text : List Char
  proper : text ≠ []
  numeric : ∀ c ∈ text, isNumeric c = true
  deriving DecidableEq

structure GeoLocation where
  lat : Coordinate
  lon : Coordinate
  description : String := ""
  deriving DecidableEq

/-- `operator<<` -/
def GeoLocation.chars (gl : GeoLocation) : List Char :=
  gl.lat.text ++ ',' :: gl.lon.text ++
    (if gl.description = "" then [] else ' ' :: '-' :: ' ' :: gl.description.toList)

def GeoLocation.text (gl : GeoLocation) : String := .ofList gl.chars

def readCoordinate (input : List Char) : Option (Coordinate × List Char) :=
  if proper : input.takeWhile isNumeric ≠ [] then
    some (⟨input.takeWhile isNumeric, proper, fun _ member => List.mem_takeWhile_imp member⟩, input.dropWhile isNumeric)
  else none

/-- `getline`: what is left after the line, without the line break; nothing where nothing
can be extracted. -/
def getline (input : List Char) : Option (List Char × List Char) :=
  if input = [] then none
  else some (input.takeWhile (· ≠ '\n'), (input.dropWhile (· ≠ '\n')).tail)

/-- `operator>>`, with what it leaves of the text. -/
def readGeoLocation (input : List Char) : Option (GeoLocation × List Char) := do
  let (lat, input) ← readCoordinate input
  match input with
  | ',' :: input =>
    let (lon, input) ← readCoordinate input
    match input with
    | [] => return (⟨lat, lon, ""⟩, [])
    | ' ' :: '-' :: ' ' :: input =>
      let (description, input) ← getline input
      return (⟨lat, lon, .ofList description⟩, input)
    | _ => return (⟨lat, lon, ""⟩, input)
  | _ => none

/-- `boost::lexical_cast<GeoLocation>`: nothing may be left. -/
def geoLocationOf (text : String) : Option GeoLocation :=
  match readGeoLocation text.toList with
  | some (gl, []) => some gl
  | _ => none

/-- How the database keeps sets of strings: whether it takes a list in which a string is
repeated, and the order in which it gives the strings of a set. -/
structure StringSets where
  takesRepeated : Bool
  arrange : Finset String → List String
  once : ∀ set, (arrange set).Nodup
  all : ∀ set, (arrange set).toFinset = set

/-- No set is empty. -/
def StringSets.takes (sets : StringSets) (values : List String) : Bool :=
  values ≠ [] && (sets.takesRepeated || values.Nodup)

structure LocationWorld where
  server : Server := {}
  clusterLocationCache : CuckooHashMap String (CacheRecord (List GeoLocation)) := ∅

abbrev LocationM := EStateM String LocationWorld

namespace LocationM

def inStore {α : Type} (program : StoreM α) : LocationM α := fun world =>
  match program world.server with
  | .ok value server => .ok value { world with server }
  | .error message server => .error message { world with server }

/-- `replaceCacheRecord(clusterLocationCache, ...)` -/
def cacheLocations (cID : String) (locations : List GeoLocation) : LocationM Unit := do
  let record ← inStore (CacheRecord.lasting locations clusterCacheValidity)
  modify fun world => { world with clusterLocationCache := world.clusterLocationCache.insert cID record }

end LocationM

section
open LocationM
variable (sets : StringSets)

/-- `what` of `boost::bad_lexical_cast`. -/
def badLexicalCast : String := "bad lexical cast: source type value could not be interpreted as target"

def malformattedLocation (cID : String) : String :=
  "Malformatted location stored for cluster " ++ cID ++ ": " ++ badLexicalCast

def readPositions (cID : String) (rawPositions : List String) : LocationM (List GeoLocation) :=
  rawPositions.mapM fun sPos =>
    match geoLocationOf sPos with
    | some gl => return gl
    | none => throw (malformattedLocation cID)

def getLocationsForCluster (cID : String) : LocationM (List GeoLocation) := do
  let some cID ← inStore (normalizeClusterID cID)
    | return []
  if let some locations ← inStore (cached (← get).clusterLocationCache cID) then
    return locations
  unless ← inStore request do
    return []
  let rawPositions := ((← get).server.database.locations.lookup cID).elim [] sets.arrange
  let result ← readPositions cID rawPositions
  cacheLocations cID result
  return result

def putLocations (cID : String) (values : List String) : StoreM Unit :=
  modify fun server => { server with database := { server.database with
    locations := server.database.locations.insert cID values.toFinset } }

def setLocationsForCluster (cID : String) (locations : List GeoLocation) : LocationM Bool := do
  let some cID ← inStore (normalizeClusterID cID)
    | return false
  let value := locations.map GeoLocation.text
  unless ← inStore request do
    return false
  unless sets.takes value do
    return false
  inStore (putLocations cID value)
  cacheLocations cID locations
  return true

end

/-- What is known of the place of a pair of coordinates: its city and its country. -/
structure Geocoder where
  canGeocode : Bool
  reverseLookup : Coordinate → Coordinate → Option (String × String)

/-- A description is made of what the geocoder knows. The location is then written and read
again for the log. -/
def supplementLocation (geocoder : Geocoder) (loc : GeoLocation) : HandlerM GeoLocation := do
  if !geocoder.canGeocode then
    return loc
  match geocoder.reverseLookup loc.lat loc.lon with
  | none => return loc
  | some (city, countryName) =>
    let description := if city ≠ "" then city else loc.description
    let separator := if description ≠ "" then ", " else ""
    let description := if countryName ≠ "" then description ++ separator ++ countryName else description
    let loc := { loc with description }
    match geoLocationOf loc.text with
    | some _ => return loc
    | none => throw (.thrown badLexicalCast)

section
variable (geocoder : Geocoder) (coordinate : ℚ → Coordinate)

def locationOfEntry (entry : Json) : HandlerM GeoLocation :=
  match entry.member "lat", entry.member "lon" with
  | some (.number lat _), some (.number lon _) => supplementLocation geocoder ⟨coordinate lat, coordinate lon, ""⟩
  | _, _ => Handler.refuse 400 "Incorrect type for location"

def requestedLocations (location : Json) : HandlerM (List GeoLocation) :=
  match location.getArray with
  | some entries => entries.mapM (locationOfEntry geocoder coordinate)
  | none => Handler.refuse 400 "Incorrect type for location"

end

end Slate
