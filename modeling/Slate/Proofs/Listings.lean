import Slate.Proofs.Indexing
import Mathlib.Data.List.Perm.Subperm
import Mathlib.Data.List.ReduceOption

/-! What listings by group and cluster have in common: the strings they are asked
about, the rows they want, and the answer from a cached category. -/

namespace Slate
open Library

def DesignatesArguments (database : Database) (group cluster groupID cID : String) : Prop :=
  (if group = "" then groupID = "" else DesignatesGroup database group groupID) ∧
    (if cluster = "" then cID = "" else DesignatesCluster database cluster cID)

def Wanted (database : Database) (group cluster rowGroup rowCluster : String) : Prop :=
  (group = "" ∨ DesignatesGroup database group rowGroup) ∧ (cluster = "" ∨ DesignatesCluster database cluster rowCluster)

/-- The same for IDs. -/
def Matches (groupID cID rowGroup rowCluster : String) : Prop :=
  (groupID = "" ∨ rowGroup = groupID) ∧ (cID = "" ∨ rowCluster = cID)

/-- Something is asked for, a name that is given is not ambiguous, and no ID in
the tables is empty. -/
structure Resolvable (database : Database) (group cluster : String) : Prop where
  given : ¬ (group = "" ∧ cluster = "")
  group : group ≠ "" → GroupNameUnique database.groups group
  cluster : cluster ≠ "" → ClusterNameUnique database.clusters cluster
  groupIDs : database.groups.lookup "" = none
  clusterIDs : database.clusters.lookup "" = none

theorem startsWith_empty_group : startsWith groupIDPrefix "" = false := by decide
theorem startsWith_empty_cluster : startsWith clusterIDPrefix "" = false := by decide

theorem DesignatesArguments.groupEmpty {database : Database} {group cluster groupID cID : String}
    (designated : DesignatesArguments database group cluster groupID cID) (ids : database.groups.lookup "" = none) :
    groupID = "" ↔ group = "" := by
  obtain ⟨designated, -⟩ := designated
  constructor
  · rintro rfl
    by_contra given
    rw [if_neg given, DesignatesGroup] at designated
    split at designated
    next => exact given designated.symm
    next =>
      obtain ⟨item, found, -⟩ := designated
      rw [ids] at found
      cases found
  · rintro rfl
    rwa [if_pos rfl] at designated

theorem DesignatesArguments.clusterEmpty {database : Database} {group cluster groupID cID : String}
    (designated : DesignatesArguments database group cluster groupID cID) (ids : database.clusters.lookup "" = none) :
    cID = "" ↔ cluster = "" := by
  obtain ⟨-, designated⟩ := designated
  constructor
  · rintro rfl
    by_contra given
    rw [if_neg given, DesignatesCluster] at designated
    split at designated
    next => exact given designated.symm
    next =>
      obtain ⟨item, found, -⟩ := designated
      rw [ids] at found
      cases found
  · rintro rfl
    rwa [if_pos rfl] at designated

/-- Once the arguments are normalized, what is wanted is a matter of IDs. -/
theorem DesignatesArguments.wanted_iff {database : Database} {group cluster groupID cID : String}
    (designated : DesignatesArguments database group cluster groupID cID)
    (resolvable : Resolvable database group cluster) (rowGroup rowCluster : String) :
    Wanted database group cluster rowGroup rowCluster ↔ Matches groupID cID rowGroup rowCluster := by
  have first : (group = "" ∨ DesignatesGroup database group rowGroup) ↔ (groupID = "" ∨ rowGroup = groupID) := by
    by_cases open_ : group = ""
    · simp [open_, (designated.groupEmpty resolvable.groupIDs).mpr open_]
    · have closed : groupID ≠ "" := fun none => open_ ((designated.groupEmpty resolvable.groupIDs).mp none)
      have own := designated.1
      rw [if_neg open_] at own
      simp only [open_, closed, false_or]
      exact ⟨fun also => also.unique (resolvable.group open_) own, fun same => same ▸ own⟩
  have second : (cluster = "" ∨ DesignatesCluster database cluster rowCluster) ↔ (cID = "" ∨ rowCluster = cID) := by
    by_cases open_ : cluster = ""
    · simp [open_, (designated.clusterEmpty resolvable.clusterIDs).mpr open_]
    · have closed : cID ≠ "" := fun none => open_ ((designated.clusterEmpty resolvable.clusterIDs).mp none)
      have own := designated.2
      rw [if_neg open_] at own
      simp only [open_, closed, false_or]
      exact ⟨fun also => also.unique (resolvable.cluster open_) own, fun same => same ▸ own⟩
  exact and_congr first second

/-- The second argument, once the first one is normalized. -/
def normalizeSecond (cluster groupID : String) : StoreM (Option (String × String)) := do
  let some cID ← normalizeGiven normalizeClusterID cluster
    | return none
  return some (groupID, cID)

/-- The arguments of a listing are normalized to what they stand for; when one
stands for nothing, nothing is wanted. -/
theorem returns_normalizeArguments {server : Server} (succeeding : Succeeding server)
    (groups : GroupsAgree server.database.groups server.groups)
    (clusters : ClustersAgree server.database.clusters server.clusters) {group cluster : String}
    (resolvable : Resolvable server.database group cluster) {post : Option (String × String) → Server → Prop}
    (found : ∀ groupID cID after, Looked server after → DesignatesArguments server.database group cluster groupID cID →
      post (some (groupID, cID)) after)
    (missing : ∀ after, Looked server after →
      (∀ rowGroup rowCluster, ¬ Wanted server.database group cluster rowGroup rowCluster) → post none after) :
    Returns (normalizeArguments group cluster) server post := by
  have second : ∀ groupID passed, Looked server passed →
      (if group = "" then groupID = "" else DesignatesGroup server.database group groupID) →
      Returns (normalizeSecond cluster groupID) passed post := by
    intro groupID passed looked designated
    unfold normalizeSecond normalizeGiven
    simp only [returns_bind, returns_ite, returns_pure]
    split
    next open_ => exact found groupID "" passed looked ⟨designated, by rw [if_pos open_]⟩
    next given =>
      refine returns_normalizeClusterID (looked.succeeding succeeding) (looked.database ▸ looked.clusters clusters)
        (looked.database ▸ resolvable.cluster given) ?_ ?_
      · intro cID after looked' onCluster
        rw [looked.database] at onCluster
        simp only [returns_pure]
        exact found groupID cID after (looked.trans looked') ⟨designated, by rwa [if_neg given]⟩
      · intro after looked' absent
        rw [looked.database] at absent
        simp only [returns_pure]
        refine missing after (looked.trans looked') fun rowGroup rowCluster wanted => ?_
        exact wanted.2.elim given (absent rowCluster)
  unfold normalizeArguments
  simp only [returns_bind]
  unfold normalizeGiven
  simp only [returns_ite, returns_pure]
  split
  next open_ => exact second "" server (.refl server) (by rw [if_pos open_])
  next given =>
    refine returns_normalizeGroupID succeeding groups (resolvable.group given) ?_ ?_
    · exact fun groupID after looked designated => second groupID after looked (by rwa [if_neg given])
    · intro after looked absent
      simp only [returns_pure]
      refine missing after looked fun rowGroup rowCluster wanted => ?_
      exact wanted.1.elim given (absent rowGroup)

theorem returns_designated {server : Server} (succeeding : Succeeding server)
    (groups : GroupsAgree server.database.groups server.groups)
    (clusters : ClustersAgree server.database.clusters server.clusters) {group cluster : String}
    (resolvable : Resolvable server.database group cluster) :
    Returns (normalizeArguments group cluster) server fun normalized passed => Looked server passed ∧
      match normalized with
      | some (groupID, cID) => DesignatesArguments server.database group cluster groupID cID
      | none => ∀ rowGroup rowCluster, ¬ Wanted server.database group cluster rowGroup rowCluster :=
  returns_normalizeArguments succeeding groups clusters resolvable (fun _ _ _ => And.intro) fun _ => And.intro

/-- A listing that goes on from its normalized arguments: what each way of going on
keeps while it is safe is kept, and its answer is right exactly when it goes on
well. -/
theorem returns_listing {α : Type} {server : Server} (succeeding : Succeeding server)
    (groups : GroupsAgree server.database.groups server.groups)
    (clusters : ClustersAgree server.database.clusters server.clusters) {group cluster : String}
    (resolvable : Resolvable server.database group cluster) {rest : String → String → StoreM (List α)}
    {kept : Server → Prop} {right : List α → Prop} {condition : Server → String → String → Prop}
    (safe : Server → String → String → Prop)
    (looked : ∀ passed, Looked server passed → kept passed)
    (nothing : (∀ rowGroup rowCluster, ¬ Wanted server.database group cluster rowGroup rowCluster) → right [])
    (continued : ∀ groupID cID passed, Looked server passed →
      DesignatesArguments server.database group cluster groupID cID →
      Returns (rest groupID cID) passed fun answer after =>
        (safe passed groupID cID → kept after) ∧ (right answer ↔ condition passed groupID cID)) :
    (Returns (normalizeArguments group cluster) server (fun normalized passed =>
        ∀ groupID cID, normalized = some (groupID, cID) → safe passed groupID cID) →
      Returns (do
        let some (groupID, cID) ← normalizeArguments group cluster
          | return []
        rest groupID cID) server (fun _ after => kept after)) ∧
      (Returns (do
        let some (groupID, cID) ← normalizeArguments group cluster
          | return []
        rest groupID cID) server (fun answer _ => right answer) ↔
        Returns (normalizeArguments group cluster) server fun normalized passed =>
          ∀ groupID cID, normalized = some (groupID, cID) → condition passed groupID cID) := by
  have known := returns_designated succeeding groups clusters resolvable
  simp only [returns_bind]
  constructor
  · intro allowed
    refine (known.and allowed).mono ?_
    rintro (_ | ⟨groupID, cID⟩) passed ⟨⟨moved, designated⟩, isSafe⟩
    · exact looked passed moved
    · exact (continued groupID cID passed moved designated).mono fun _ _ both => both.1 (isSafe groupID cID rfl)
  · refine known.congr ?_
    rintro (_ | ⟨groupID, cID⟩) passed ⟨moved, designated⟩
    · simp [nothing designated]
    · obtain ⟨answer, after, ran, -, exactly⟩ := returns_iff.mp (continued groupID cID passed moved designated)
      have ended : Returns (rest groupID cID) passed (fun answer _ => right answer) ↔ right answer := by
        rw [Returns, ran]
      refine (ended.trans exactly).trans ⟨fun met _ _ same => ?_, fun met => met groupID cID rfl⟩
      cases same
      exact met

-- The query of a listing selects every row that matches; it selects others only when
-- their cluster merely contains the one asked for.
theorem Matches.selected {groupID cID rowGroup rowCluster : String} (given : groupID ≠ "" ∨ cID ≠ "")
    (same : Matches groupID cID rowGroup rowCluster) : listingSelects groupID cID rowGroup rowCluster = true := by
  obtain ⟨group, cluster⟩ := same
  unfold listingSelects
  split
  next named =>
    obtain rfl := group.resolve_left named
    obtain rfl | rfl := cluster
    · simp
    · simp [contains_self]
  next none =>
    obtain rfl := not_not.mp none
    obtain rfl := cluster.resolve_left (given.resolve_left fun absurd => absurd rfl)
    simp

def kindKey (kind : ListingKind) (group cluster : String) : String :=
  match kind with
  | .groupAndCluster => pairKey group cluster
  | .group => group
  | .cluster => cluster

/-- No stored group and cluster are written together like these two, unless they
are these two. -/
def PairUnambiguous {Row : Type} (table : FiniteMap String Row) (owningGroup onCluster : Row → String)
    (groupID cID : String) : Prop :=
  ∀ name row, table.lookup name = some row → pairKey (owningGroup row) (onCluster row) = pairKey groupID cID →
    owningGroup row = groupID ∧ onCluster row = cID

/-- The arguments of a listing stand for at most one group and one cluster, and no
other pair of a stored row is written like these. -/
structure Askable {Row : Type} (database : Database) (table : FiniteMap String Row) (owningGroup onCluster : Row → String)
    (group cluster : String) : Prop where
  resolvable : Resolvable database group cluster
  unambiguous : group ≠ "" → cluster ≠ "" → ∀ groupID cID, DesignatesArguments database group cluster groupID cID →
    PairUnambiguous table owningGroup onCluster groupID cID

/-- What is in a category is what its listing wants. -/
theorem matches_iff_key {kind : ListingKind} {groupID cID rowGroup rowCluster : String}
    (kinds : listingKind groupID cID = some kind)
    (unambiguous : kind = .groupAndCluster → pairKey rowGroup rowCluster = pairKey groupID cID →
      rowGroup = groupID ∧ rowCluster = cID) :
    Matches groupID cID rowGroup rowCluster ↔ kindKey kind rowGroup rowCluster = kindKey kind groupID cID := by
  unfold listingKind at kinds
  unfold Matches
  split at kinds
  next both =>
    cases kinds
    simp only [both.1, both.2, false_or, kindKey]
    exact ⟨fun same => by rw [same.1, same.2], unambiguous rfl⟩
  next notBoth =>
    split at kinds
    next named =>
      cases kinds
      have none : cID = "" := by_contra fun given => notBoth ⟨named, given⟩
      simp [named, none, kindKey]
    next unnamed =>
      have none : groupID = "" := not_not.mp unnamed
      split at kinds
      next given =>
        cases kinds
        simp [given, none, kindKey]
      next => cases kinds

theorem given_of_kind {kind : ListingKind} {groupID cID : String} (kinds : listingKind groupID cID = some kind) :
    groupID ≠ "" ∨ cID ≠ "" := by
  unfold listingKind at kinds
  split at kinds
  next both => exact .inl both.1
  next =>
    split at kinds
    next named => exact .inl named
    next =>
      split at kinds
      next given => exact .inr given
      next => cases kinds

theorem group_of_cluster_kind {groupID cID : String} (kinds : listingKind groupID cID = some .cluster) :
    groupID = "" := by
  unfold listingKind at kinds
  split at kinds
  next => cases kinds
  next =>
    split at kinds
    next => cases kinds
    next unnamed => exact not_not.mp unnamed

theorem kind_of_given {groupID cID : String} (given : ¬ (groupID = "" ∧ cID = "")) :
    ∃ kind, listingKind groupID cID = some kind := by
  unfold listingKind
  split
  next => exact ⟨_, rfl⟩
  next =>
    split
    next => exact ⟨_, rfl⟩
    next unnamed =>
      rw [if_pos fun none => given ⟨not_not.mp unnamed, none⟩]
      exact ⟨_, rfl⟩

/-- The listing of normalized arguments has a kind; it is by group and cluster when
both are given. -/
theorem Askable.kind {Row : Type} {database : Database} {table : FiniteMap String Row}
    {owningGroup onCluster : Row → String} {group cluster groupID cID : String}
    (askable : Askable database table owningGroup onCluster group cluster)
    (designated : DesignatesArguments database group cluster groupID cID) :
    ∃ kind, listingKind groupID cID = some kind ∧
      (kind = .groupAndCluster → PairUnambiguous table owningGroup onCluster groupID cID) := by
  have groupGiven := designated.groupEmpty askable.resolvable.groupIDs
  have clusterGiven := designated.clusterEmpty askable.resolvable.clusterIDs
  have given : ¬ (groupID = "" ∧ cID = "") := by
    rw [groupGiven, clusterGiven]
    exact askable.resolvable.given
  obtain ⟨kind, kinds⟩ := kind_of_given given
  refine ⟨kind, kinds, ?_⟩
  rintro rfl
  have both : groupID ≠ "" ∧ cID ≠ "" := by
    unfold listingKind at kinds
    split at kinds
    next both => exact both
    next => split at kinds <;> simp at kinds
  exact askable.unambiguous (mt groupGiven.mpr both.1) (mt clusterGiven.mpr both.2) groupID cID designated

/-- An answer of rows that were selected is right when none was selected in error. -/
theorem lists_selected_iff {Row α : Type} [Identified α String] {table : FiniteMap String Row}
    {reading : Row → α → Prop} {selected wanted : Row → Prop} {answer : List α}
    (lists : Lists table reading selected answer) (every : ∀ row, wanted row → selected row) :
    Lists table reading wanted answer ↔ ∀ name row, table.lookup name = some row → selected row → wanted row := by
  constructor
  · intro right name row stored chosen
    obtain ⟨value, member, rfl⟩ := lists.complete name row stored chosen
    obtain ⟨row', stored', -, wanted'⟩ := right.sound value member
    rw [stored] at stored'
    cases stored'
    exact wanted'
  · exact fun same => lists.congr fun name row stored => ⟨same name row stored, every row⟩

/-- A query's rows, read in turn, are an answer. -/
theorem lists_select {Row α : Type} [Identified α String] {table : FiniteMap String Row} {reading : Row → α → Prop}
    {chosen : Row → Bool} {read : String → Row → α}
    (reads : ∀ name row, table.lookup name = some row → ident (read name row) = name ∧ reading row (read name row)) :
    Lists table reading (fun row => chosen row = true)
      ((table.select fun _ row => chosen row).map fun entry => read entry.1 entry.2) where
  nodup := by
    have same : ((table.select fun _ row => chosen row).map fun entry => read entry.1 entry.2).map ident =
        (table.select fun _ row => chosen row).map Prod.fst := by
      rw [List.map_map]
      exact List.map_congr_left fun entry selected => (reads entry.1 entry.2 (FiniteMap.mem_select.mp selected).1).1
    rw [same]
    exact FiniteMap.select_keys_nodup table _
  sound := by
    intro value member
    obtain ⟨⟨name, row⟩, selected, rfl⟩ := List.mem_map.mp member
    obtain ⟨stored, wanted⟩ := FiniteMap.mem_select.mp selected
    obtain ⟨named, known⟩ := reads name row stored
    refine ⟨row, ?_, known, wanted⟩
    rw [named]
    exact stored
  complete := by
    intro name row stored wanted
    exact ⟨read name row, List.mem_map.mpr ⟨(name, row), FiniteMap.mem_select.mpr ⟨stored, wanted⟩, rfl⟩,
      (reads name row stored).1⟩

/-- So is the whole table. -/
theorem lists_pairs {Row α : Type} [Identified α String] {table : FiniteMap String Row} {reading : Row → α → Prop}
    {read : String → Row → α}
    (reads : ∀ name row, table.lookup name = some row → ident (read name row) = name ∧ reading row (read name row)) :
    Lists table reading (fun _ => True) (table.pairs.map fun entry => read entry.1 entry.2) := by
  have whole : table.select (fun _ _ => true) = table.pairs := by simp [FiniteMap.select]
  rw [← whole]
  exact (lists_select reads).congr fun _ _ _ => by simp

-- The answer from a category leaves out the records that have expired by the time
-- they are checked.
section
variable {α : Type}

/-- The records that are valid when the clock is read for each in turn. -/
def freshRecords (clock : Nat → Time) : List (CacheRecord α) → List α
  | [] => []
  | entry :: rest =>
    if clock 0 ≤ entry.expirationTime then entry.record :: freshRecords (fun n => clock (n + 1)) rest
    else freshRecords (fun n => clock (n + 1)) rest

def AllFresh (clock : Nat → Time) (entries : List (CacheRecord α)) : Prop :=
  ∀ position entry, entries[position]? = some entry → clock position ≤ entry.expirationTime

private theorem allFresh_cons {clock : Nat → Time} {entry : CacheRecord α} {rest : List (CacheRecord α)} :
    AllFresh clock (entry :: rest) ↔ clock 0 ≤ entry.expirationTime ∧ AllFresh (fun n => clock (n + 1)) rest := by
  constructor
  · exact fun fresh => ⟨fresh 0 entry rfl, fun position other found => fresh (position + 1) other found⟩
  · rintro ⟨first, others⟩ position other found
    cases position with
    | zero =>
      cases found
      exact first
    | succ position => exact others position other found

theorem freshRecords_eq {clock : Nat → Time} {entries : List (CacheRecord α)} (fresh : AllFresh clock entries) :
    freshRecords clock entries = entries.map CacheRecord.record := by
  induction entries generalizing clock with
  | nil => rfl
  | cons entry rest ih =>
    obtain ⟨first, others⟩ := allFresh_cons.mp fresh
    rw [freshRecords, if_pos first, ih others]
    rfl

private theorem freshRecords_sublist (clock : Nat → Time) (entries : List (CacheRecord α)) :
    (freshRecords clock entries).Sublist (entries.map CacheRecord.record) := by
  induction entries generalizing clock with
  | nil => exact List.Sublist.refl []
  | cons entry rest ih =>
    rw [freshRecords]
    split
    next => exact (ih _).cons_cons _
    next => exact (ih _).cons _

theorem mem_freshRecords {clock : Nat → Time} {entries : List (CacheRecord α)} {record : α}
    (member : record ∈ freshRecords clock entries) :
    ∃ entry ∈ entries, entry.record = record ∧ ∃ n, clock n ≤ entry.expirationTime := by
  induction entries generalizing clock with
  | nil => cases member
  | cons entry rest ih =>
    have later : record ∈ freshRecords (fun n => clock (n + 1)) rest →
        ∃ other ∈ entry :: rest, other.record = record ∧ ∃ n, clock n ≤ other.expirationTime := by
      intro inside
      obtain ⟨other, held, same, n, fresh⟩ := ih inside
      exact ⟨other, List.mem_cons_of_mem _ held, same, n + 1, fresh⟩
    rw [freshRecords] at member
    split at member
    next fresh =>
      rcases List.mem_cons.mp member with rfl | inside
      · exact ⟨entry, List.mem_cons_self, rfl, 0, fresh⟩
      · exact later inside
    next => exact later member

theorem allFresh_of_length {clock : Nat → Time} {entries : List (CacheRecord α)}
    (whole : (freshRecords clock entries).length = entries.length) : AllFresh clock entries := by
  induction entries generalizing clock with
  | nil => exact fun position entry found => by simp at found
  | cons entry rest ih =>
    have shorter := (freshRecords_sublist (fun n => clock (n + 1)) rest).length_le
    rw [List.length_map] at shorter
    rw [freshRecords] at whole
    split at whole
    next valid => exact allFresh_cons.mpr ⟨valid, ih (Nat.succ.inj whole)⟩
    next =>
      rw [whole, List.length_cons] at shorter
      exact absurd shorter (Nat.not_succ_le_self _)

private theorem returns_checkMembers (entries : List (CacheRecord α)) (server : Server) :
    Returns (entries.mapM fun entry => do
      let fresh ← entry.current
      return if fresh then some entry.record else none) server fun records after =>
        Looked server after ∧ records.reduceOption = freshRecords server.clock entries := by
  induction entries generalizing server with
  | nil => exact ⟨.refl server, rfl⟩
  | cons entry rest ih =>
    rw [List.mapM_cons]
    simp only [returns_bind, returns_current, returns_pure]
    refine (ih server.tick).mono fun records after kept => ⟨(Looked.tick server).trans kept.1, ?_⟩
    rw [freshRecords]
    by_cases valid : server.clock 0 ≤ entry.expirationTime
    · rw [if_pos valid, if_pos (decide_eq_true valid), List.reduceOption_cons_of_some, kept.2]
      rfl
    · rw [if_neg valid, if_neg (by simp [valid]), List.reduceOption_cons_of_none, kept.2]
      rfl

variable [Identified α String]

/-- A trusted category answers with the records that are still fresh. -/
theorem returns_cachedMembers {category : Category α} {server : Server} {post : Option (List α) → Server → Prop}
    (hit : server.clock 0 < category.expiration → ∀ after, Looked server after →
      post (some (freshRecords (fun n => server.clock (n + 1)) category.members)) after)
    (miss : ¬ server.clock 0 < category.expiration → ∀ after, Looked server after → post none after) :
    Returns (maybeReturnCachedCategoryMembers category) server post := by
  unfold maybeReturnCachedCategoryMembers
  simp only [returns_bind, returns_now, returns_ite, returns_pure]
  split
  next trusted =>
    refine (returns_checkMembers category.members server.tick).mono ?_
    rintro records after ⟨looked, same⟩
    rw [same]
    exact hit trusted after ((Looked.tick server).trans looked)
  next stale => exact miss stale _ (.tick server)

/-- Of records that answer a listing, those that are fresh answer it exactly when
they are all. -/
theorem lists_freshRecords_iff {Row : Type} {table : FiniteMap String Row} {reading : Row → α → Prop}
    {wanted : Row → Prop} {entries : List (CacheRecord α)} {clock : Nat → Time}
    (lists : Lists table reading wanted (entries.map CacheRecord.record)) :
    Lists table reading wanted (freshRecords clock entries) ↔ AllFresh clock entries := by
  constructor
  · intro fresh
    refine allFresh_of_length (le_antisymm ?_ ?_)
    · simpa using (freshRecords_sublist clock entries).length_le
    · have covered : ((entries.map CacheRecord.record).map ident) ⊆ ((freshRecords clock entries).map ident) := by
        intro name member
        obtain ⟨value, listed, rfl⟩ := List.mem_map.mp member
        obtain ⟨row, stored, -, chosen⟩ := lists.sound value listed
        obtain ⟨other, kept, same⟩ := fresh.complete _ row stored chosen
        exact List.mem_map.mpr ⟨other, kept, same⟩
      simpa using (List.subperm_of_subset lists.nodup covered).length_le
  · intro fresh
    rw [freshRecords_eq fresh]
    exact lists

end
end Slate
