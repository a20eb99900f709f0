import Slate.Locations
import Slate.Proofs.Lookups
import Mathlib.Data.Finset.Sort
import Mathlib.Data.String.Basic

/-! A location is stored as one text. What is read again has no line break in its
description, and a set of strings has no text twice. -/

namespace Slate
open Library

/-- Once a list of locations was stored, whoever looks them up gets them all, whether or not
they are still cached. -/
def LocationsKept (sets : StringSets) (locations : List GeoLocation) : Prop :=
  ∀ (cID : String) (before after : LocationWorld), startsWith clusterIDPrefix cID →
    setLocationsForCluster sets cID locations before = .ok true after →
      ∀ reader : LocationWorld,
        reader.server.database.locations.lookup cID = after.server.database.locations.lookup cID →
        reader.clusterLocationCache.lookup cID = after.clusterLocationCache.lookup cID ∨
          reader.clusterLocationCache.lookup cID = none →
        reader.server.outcomes 0 = true →
          Returns (getLocationsForCluster sets cID) reader fun found _ => found.Perm locations

private theorem readCoordinate_append (coordinate : Coordinate) {rest : List Char} (stops : ∀ c ∈ rest.head?, isNumeric c = false) :
    readCoordinate (coordinate.text ++ rest) = some (coordinate, rest) := by
  have taken : (coordinate.text ++ rest).takeWhile isNumeric = coordinate.text := by
    rw [List.takeWhile_append_of_pos coordinate.numeric]
    cases rest with
    | nil => exact List.append_nil _
    | cons c rest => rw [List.takeWhile_cons_of_neg (by rw [stops c rfl]; decide), List.append_nil]
  have dropped : (coordinate.text ++ rest).dropWhile isNumeric = rest := by
    rw [List.dropWhile_append_of_pos coordinate.numeric]
    cases rest with
    | nil => rfl
    | cons c rest => exact List.dropWhile_cons_of_neg (by rw [stops c rfl]; decide)
  rw [readCoordinate, dif_pos (taken.symm ▸ coordinate.proper)]
  simp only [taken, dropped]

private theorem getline_line {line : List Char} (proper : line ≠ []) (unbroken : '\n' ∉ line) : getline line = some (line, []) := by
  have all : ∀ c ∈ line, (decide (c ≠ '\n')) = true := fun c member => decide_eq_true fun same => unbroken (same ▸ member)
  rw [getline, if_neg proper, List.takeWhile_eq_self_iff.mpr all, List.dropWhile_eq_nil_iff.mpr all]
  rfl

/-- What follows the coordinates in a text. -/
def describedBy (description : String) : List Char :=
  if description = "" then [] else ' ' :: '-' :: ' ' :: description.toList

private theorem readGeoLocation_chars (gl : GeoLocation) : readGeoLocation gl.chars =
    if gl.description = "" then some (gl, [])
    else (getline gl.description.toList).map fun line => ({ gl with description := .ofList line.1 }, line.2) := by
  obtain ⟨lat, lon, description⟩ := gl
  have chars : GeoLocation.chars ⟨lat, lon, description⟩ = lat.text ++ ',' :: (lon.text ++ describedBy description) := by
    rw [GeoLocation.chars, List.append_assoc, List.cons_append]
    rfl
  have latitude : readCoordinate (lat.text ++ ',' :: (lon.text ++ describedBy description)) =
      some (lat, ',' :: (lon.text ++ describedBy description)) :=
    readCoordinate_append lat (by rintro c ⟨⟩; rfl)
  have longitude : readCoordinate (lon.text ++ describedBy description) = some (lon, describedBy description) := by
    refine readCoordinate_append lon fun c first => ?_
    unfold describedBy at first
    split at first
    · cases first
    · cases first
      rfl
  rw [chars, readGeoLocation, latitude]
  simp only [Option.bind_eq_bind, Option.bind_some, longitude]
  by_cases plain : description = ""
  · rw [describedBy, if_pos plain, if_pos plain, plain]
    rfl
  · rw [describedBy, if_neg plain, if_neg plain]
    change (getline description.toList).bind _ = _
    cases getline description.toList <;> rfl

/-- What is written is read again, when its description is one line. -/
theorem geoLocationOf_text {gl : GeoLocation} (unbroken : '\n' ∉ gl.description.toList) : geoLocationOf gl.text = some gl := by
  rw [geoLocationOf, GeoLocation.text, String.toList_ofList, readGeoLocation_chars]
  split
  next read =>
    split at read
    · cases read
      rfl
    next described =>
      have proper : gl.description.toList ≠ [] := fun none => described (String.toList_eq_nil_iff.mp none)
      rw [getline_line proper unbroken] at read
      cases read
      rw [String.ofList_toList]
  next other =>
    split at other
    · exact absurd rfl (other gl)
    next described =>
      have proper : gl.description.toList ≠ [] := fun none => described (String.toList_eq_nil_iff.mp none)
      rw [getline_line proper unbroken] at other
      exact absurd rfl (other _)

private theorem getline_unbroken {input line rest : List Char} (read : getline input = some (line, rest)) : '\n' ∉ line := by
  unfold getline at read
  split at read
  · cases read
  · cases read
    intro member
    exact absurd (List.mem_takeWhile_imp member) (by decide)

/-- A description that was read has no line break. -/
theorem geoLocationOf_unbroken {text : String} {gl : GeoLocation} (read : geoLocationOf text = some gl) :
    '\n' ∉ gl.description.toList := by
  unfold geoLocationOf at read
  split at read
  next gl' parsed =>
    cases read
    unfold readGeoLocation at parsed
    simp only [Option.bind_eq_bind, Option.bind_eq_some_iff] at parsed
    obtain ⟨⟨lat, input⟩, -, parsed⟩ := parsed
    split at parsed
    next input' =>
      obtain ⟨⟨lon, input⟩, -, parsed⟩ := Option.bind_eq_some_iff.mp parsed
      split at parsed
      · cases parsed
        exact List.not_mem_nil
      · obtain ⟨⟨line, rest⟩, lined, parsed⟩ := Option.bind_eq_some_iff.mp parsed
        cases parsed
        rw [String.toList_ofList]
        exact getline_unbroken lined
      · cases parsed
        exact List.not_mem_nil
    · cases parsed
  · cases read

namespace LocationM
variable {α : Type}

theorem returns_inStore (program : StoreM α) (world : LocationWorld) (post : α → LocationWorld → Prop) :
    Returns (inStore program) world post ↔ Returns program world.server fun value server => post value { world with server } := by
  unfold Returns inStore
  cases program world.server <;> rfl

private theorem yields_inStore (program : StoreM α) (world : LocationWorld) (post : α → LocationWorld → Prop) :
    Yields (inStore program) world post ↔ Yields program world.server fun value server => post value { world with server } := by
  unfold Yields inStore
  cases program world.server <;> rfl

theorem returns_normalizeClusterID {world : LocationWorld} {post : Option String → LocationWorld → Prop}
    {cID : String} (known : startsWith clusterIDPrefix cID) (holds : post (some cID) world) :
    Returns (inStore (normalizeClusterID cID)) world post := by
  rw [returns_inStore, normalizeClusterID_known known]
  exact holds

/-- What was cached is found until it expires, and nothing but the clock and the cache is changed. -/
theorem returns_cacheLocations (cID : String) (locations : List GeoLocation) (world : LocationWorld) :
    Returns (cacheLocations cID locations) world fun _ after => after.server.database = world.server.database ∧
      ∃ limit, after.clusterLocationCache.lookup cID = some ⟨locations, limit⟩ := by
  unfold cacheLocations
  simp only [returns_bind, returns_inStore, returns_lasting, returns_modify]
  exact ⟨rfl, _, (FiniteMap.lookup_insert _ _ _ _).trans (if_pos rfl)⟩

end LocationM
open LocationM

section
variable {sets : StringSets} {cID : String} {locations : List GeoLocation}

/-- What a list of locations leaves that was stored. -/
theorem setLocationsForCluster_stored {before after : LocationWorld} (known : startsWith clusterIDPrefix cID)
    (stored : setLocationsForCluster sets cID locations before = .ok true after) :
    sets.takes (locations.map GeoLocation.text) = true ∧
      after.server.database.locations.lookup cID = some (locations.map GeoLocation.text).toFinset ∧
      ∃ limit, after.clusterLocationCache.lookup cID = some ⟨locations, limit⟩ := by
  have run : Yields (setLocationsForCluster sets cID locations) before fun done after => done = true →
      sets.takes (locations.map GeoLocation.text) = true ∧
        after.server.database.locations.lookup cID = some (locations.map GeoLocation.text).toFinset ∧
        ∃ limit, after.clusterLocationCache.lookup cID = some ⟨locations, limit⟩ := by
    unfold setLocationsForCluster putLocations
    rw [normalizeClusterID_known known]
    simp only [yields_bind, LocationM.yields_inStore, yields_pure, yields_request, yields_ite, yields_modify]
    split
    · split
      next taken =>
        refine (returns_cacheLocations cID locations _).yields.mono ?_
        rintro _ after ⟨database, cached⟩ -
        rw [database]
        exact ⟨taken, (FiniteMap.lookup_insert _ _ _ _).trans (if_pos rfl), cached⟩
      · exact fun impossible => by cases impossible
    · exact fun impossible => by cases impossible
  exact run.of_ok stored rfl

/-- Texts that can all be read give their locations. -/
theorem returns_readPositions {rawPositions : List String} {found : List GeoLocation} (world : LocationWorld)
    (read : List.Forall₂ (fun sPos gl => geoLocationOf sPos = some gl) rawPositions found) :
    Returns (readPositions cID rawPositions) world fun result after => result = found ∧ after = world := by
  unfold readPositions
  induction read with
  | nil => exact ⟨rfl, rfl⟩
  | @cons sPos gl rawPositions found first _ ih =>
    rw [List.mapM_cons]
    simp only [first, returns_bind, returns_pure]
    refine ih.mono ?_
    rintro result after ⟨rfl, rfl⟩
    exact ⟨rfl, rfl⟩

/-- Where locations are returned for texts, each is what its text is read as. -/
theorem yields_readPositions (rawPositions : List String) (world : LocationWorld) :
    Yields (readPositions cID rawPositions) world fun result _ =>
      List.Forall₂ (fun sPos gl => geoLocationOf sPos = some gl) rawPositions result := by
  unfold readPositions
  induction rawPositions generalizing world with
  | nil => exact List.Forall₂.nil
  | cons sPos rawPositions ih =>
    rw [List.mapM_cons, yields_bind]
    cases read : geoLocationOf sPos with
    | none => trivial
    | some gl =>
      simp only [yields_pure, yields_bind]
      exact (ih world).mono fun result _ rest => .cons read rest

/-- A lookup gives what is cached and valid, or reads the texts that are stored. -/
theorem returns_getLocationsForCluster {reader : LocationWorld} {stored : Finset String} {post : List GeoLocation → Prop}
    (known : startsWith clusterIDPrefix cID) (table : reader.server.database.locations.lookup cID = some stored)
    (succeeding : reader.server.outcomes 0 = true)
    (hit : ∀ entry, reader.clusterLocationCache.lookup cID = some entry → post entry.record)
    (read : ∃ found, List.Forall₂ (fun sPos gl => geoLocationOf sPos = some gl) (sets.arrange stored) found ∧ post found) :
    Returns (getLocationsForCluster sets cID) reader fun found _ => post found := by
  obtain ⟨found, texts, good⟩ := read
  unfold getLocationsForCluster
  rw [returns_bind]
  refine LocationM.returns_normalizeClusterID known ?_
  simp only [returns_bind, returns_get, LocationM.returns_inStore]
  refine returns_cached ?_ ?_
  · intro entry present _
    exact hit entry present
  · intro passed moved
    have succeeds : passed.outcomes 0 = true := by rcases moved with rfl | rfl <;> exact succeeding
    have database : passed.database = reader.server.database := by rcases moved with rfl | rfl <;> rfl
    have rows : passed.answered.database.locations.lookup cID = some stored := by rw [answered_database, database, table]
    simp only [returns_bind, LocationM.returns_inStore, returns_request, returns_ite, returns_get, succeeds, if_true, rows,
      Option.elim_some, returns_pure]
    refine (returns_readPositions _ texts).mono ?_
    rintro _ after ⟨rfl, rfl⟩
    exact (returns_cacheLocations cID _ _).mono fun _ _ _ => good

end

private theorem forall₂_mem {α β : Type} {related : α → β → Prop} {items : List α} {results : List β}
    (all : List.Forall₂ related items results) {result : β} (member : result ∈ results) : ∃ item ∈ items, related item result := by
  induction all with
  | nil => cases member
  | cons first _ ih =>
    rcases List.mem_cons.mp member with rfl | later
    · exact ⟨_, .head _, first⟩
    · obtain ⟨item, inside, holds⟩ := ih later
      exact ⟨item, .tail _ inside, holds⟩

private theorem forall₂_filterMap {α β : Type} {f : α → Option β} {items : List α} (all : ∀ item ∈ items, (f item).isSome) :
    List.Forall₂ (fun item result => f item = some result) items (items.filterMap f) := by
  induction items with
  | nil => exact .nil
  | cons item items ih =>
    obtain ⟨first, others⟩ := List.forall_mem_cons.mp all
    obtain ⟨result, same⟩ := Option.isSome_iff_exists.mp first
    rw [List.filterMap_cons_some same]
    exact .cons same (ih others)

private theorem filterMap_texts {locations : List GeoLocation} (unbroken : ∀ gl ∈ locations, '\n' ∉ gl.description.toList) :
    (locations.map GeoLocation.text).filterMap geoLocationOf = locations := by
  induction locations with
  | nil => rfl
  | cons gl locations ih =>
    obtain ⟨first, others⟩ := List.forall_mem_cons.mp unbroken
    rw [List.map_cons, List.filterMap_cons_some (geoLocationOf_text first), ih others]

/-- A server that has nothing cached reads what it returns. -/
theorem yields_getLocationsForCluster {sets : StringSets} {cID : String} {reader : LocationWorld} {stored : Finset String}
    (known : startsWith clusterIDPrefix cID) (table : reader.server.database.locations.lookup cID = some stored)
    (succeeding : reader.server.outcomes 0 = true) (uncached : reader.clusterLocationCache.lookup cID = none) :
    Yields (getLocationsForCluster sets cID) reader fun found _ =>
      List.Forall₂ (fun sPos gl => geoLocationOf sPos = some gl) (sets.arrange stored) found := by
  have cold : cached reader.clusterLocationCache cID = return none := by
    unfold cached
    rw [uncached]
  unfold getLocationsForCluster
  rw [yields_bind]
  refine (LocationM.returns_normalizeClusterID known ?_).yields
  simp only [yields_bind, yields_get, LocationM.yields_inStore, cold, yields_pure, yields_request, yields_ite, succeeding,
    if_true, answered_database, table, Option.elim_some]
  refine (yields_readPositions (sets.arrange stored) _).mono fun found after read => ?_
  exact (Yields.trivial _ _).mono fun _ _ _ => read

/-- All texts of a list of plain locations are read as the locations, in whichever order. -/
theorem arranged_texts (sets : StringSets) {locations : List GeoLocation}
    (unbroken : ∀ gl ∈ locations, '\n' ∉ gl.description.toList) (once : locations.Nodup) :
    ∃ found, List.Forall₂ (fun sPos gl => geoLocationOf sPos = some gl)
      (sets.arrange (locations.map GeoLocation.text).toFinset) found ∧ found.Perm locations := by
  have texts : (locations.map GeoLocation.text).Nodup := by
    refine once.map_on fun first left second right same => ?_
    have read := geoLocationOf_text (unbroken first left)
    rw [same, geoLocationOf_text (unbroken second right)] at read
    exact (Option.some.inj read).symm
  have arranged : (sets.arrange (locations.map GeoLocation.text).toFinset).Perm (locations.map GeoLocation.text) :=
    List.perm_of_nodup_nodup_toFinset_eq (sets.once _) texts (sets.all _)
  refine ⟨_, forall₂_filterMap fun text member => ?_, ?_⟩
  · obtain ⟨gl, inside, rfl⟩ := List.mem_map.mp (arranged.mem_iff.mp member)
    rw [geoLocationOf_text (unbroken gl inside)]
    rfl
  · have read := arranged.filterMap geoLocationOf
    rwa [filterMap_texts unbroken] at read

/-- Locations that are found again have one line each, and there are as many as texts. -/
theorem LocationsKept.plain {sets : StringSets} {locations : List GeoLocation} (kept : LocationsKept sets locations)
    (taken : sets.takes (locations.map GeoLocation.text) = true) :
    (∀ gl ∈ locations, '\n' ∉ gl.description.toList) ∧ locations.Nodup := by
  have known : startsWith clusterIDPrefix "cluster_1" = true := by decide
  have storing : Returns (setLocationsForCluster sets "cluster_1" locations) {} fun done _ => done = true := by
    unfold setLocationsForCluster putLocations
    rw [normalizeClusterID_known known]
    simp only [returns_bind, LocationM.returns_inStore, returns_pure, returns_request, returns_ite, returns_modify, taken,
      if_true]
    exact (returns_cacheLocations _ locations _).mono fun _ _ _ => trivial
  obtain ⟨_, after, stored, rfl⟩ := returns_iff.mp storing
  obtain ⟨-, rows, -⟩ := setLocationsForCluster_stored known stored
  let reader : LocationWorld := { server := { database := after.server.database } }
  have looked := kept "cluster_1" {} after known stored reader rfl (.inr rfl) rfl
  obtain ⟨found, _, ran, same⟩ := returns_iff.mp looked
  have read := (yields_getLocationsForCluster known (show reader.server.database.locations.lookup _ = _ from rows) rfl rfl).of_ok ran
  constructor
  · intro gl member
    obtain ⟨sPos, -, parsed⟩ := forall₂_mem read (same.mem_iff.mpr member)
    exact geoLocationOf_unbroken parsed
  · have count : locations.length = (locations.map GeoLocation.text).toFinset.card := by
      rw [← same.length_eq, ← read.length_eq, ← List.toFinset_card_of_nodup (sets.once _), sets.all]
    have texts : (locations.map GeoLocation.text).Nodup := by
      apply Multiset.coe_nodup.mp
      apply Multiset.toFinset_card_eq_card_iff_nodup.mp
      rw [Multiset.coe_card, List.length_map, count]
      rfl
    exact texts.of_map _

/-- A list of locations is kept exactly if the database does not take it, or no description
has a line break and no location is repeated. -/
theorem locationsKept_iff (sets : StringSets) (locations : List GeoLocation) : LocationsKept sets locations ↔
    (sets.takes (locations.map GeoLocation.text) = true →
      (∀ gl ∈ locations, '\n' ∉ gl.description.toList) ∧ locations.Nodup) := by
  constructor
  · exact LocationsKept.plain
  · intro plain cID before after known stored reader table cached succeeding
    obtain ⟨taken, rows, limit, entry⟩ := setLocationsForCluster_stored known stored
    obtain ⟨unbroken, once⟩ := plain taken
    refine returns_getLocationsForCluster known (table.trans rows) succeeding ?_ (arranged_texts sets unbroken once)
    intro found present
    rcases cached with same | none
    · rw [same, entry] at present
      cases present
      exact .refl _
    · rw [none] at present
      cases present

/-- A database that takes no set with a repeated string, and gives sets in order. -/
def sortedSets : StringSets where
  takesRepeated := false
  arrange set := set.sort (· ≤ ·)
  once _ := Finset.sort_nodup _ _
  all _ := Finset.sort_toFinset _ _

def wholeDegrees (value : ℚ) : Coordinate where
  text := if value = 1 then ['1'] else ['2']
  proper := by split <;> exact List.cons_ne_nil _ _
  numeric := by split <;> simp [isNumeric]

def brokenGeocoder : Geocoder where
  canGeocode := true
  reverseLookup _ _ := some ("Oslo", "Norway\n")

def brokenLocation : GeoLocation := ⟨wholeDegrees 1, wholeDegrees 2, "Oslo, Norway\n"⟩

/-- The name of a country ends with a line break, which is not read again. -/
theorem locations_lost : ¬ ∀ (sets : StringSets) (geocoder : Geocoder) (coordinate : ℚ → Coordinate) (location : Json)
    (locations : List GeoLocation) (server after : Server),
      requestedLocations geocoder coordinate location server = .ok locations after → LocationsKept sets locations := by
  intro all
  have kept := all sortedSets brokenGeocoder wholeDegrees
    (.array [.object [("lat", .number 1), ("lon", .number 2)]]) [brokenLocation] {} {} rfl
  exact absurd (by decide) ((kept.plain rfl).1 brokenLocation (.head _))

end Slate
