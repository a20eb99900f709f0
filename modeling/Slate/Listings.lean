import Slate.Clusters

/-! What listings by group, by cluster or by both have in common. An empty
argument leaves the group or the cluster open. -/

namespace Slate

def normalizeGiven (normalize : String → StoreM (Option String)) (text : String) : StoreM (Option String) :=
  if text = "" then return some "" else normalize text

def normalizeArguments (group cluster : String) : StoreM (Option (String × String)) := do
  let some group ← normalizeGiven (normalizeGroupID · false) group
    | return none
  let some cluster ← normalizeGiven normalizeClusterID cluster
    | return none
  return some (group, cluster)

def pairKey (group cluster : String) : String := group ++ ":" ++ cluster

/-- The rows the query for a listing selects: those of the group by the index of
groups, where a cluster that is given only filters, or else those of the cluster
by the index of clusters. -/
def listingSelects (group cluster owningGroup rowCluster : String) : Bool :=
  if group ≠ "" then owningGroup == group && (cluster == "" || contains rowCluster cluster)
  else rowCluster == cluster

/-- The kinds of listing: the category of which cache is consulted and stamped. -/
inductive ListingKind where
  | groupAndCluster
  | group
  | cluster
  deriving DecidableEq, Repr

def listingKind (group cluster : String) : Option ListingKind :=
  if group ≠ "" ∧ cluster ≠ "" then some .groupAndCluster
  else if group ≠ "" then some .group
  else if cluster ≠ "" then some .cluster
  else none

end Slate
