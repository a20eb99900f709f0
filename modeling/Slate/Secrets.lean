import Slate.Listings

/-! Secrets: single records and listings. -/

namespace Slate
open Library

def itemOfSecret (secret : Secret) : SecretItem where
  name := secret.name
  owningGroup := secret.group
  cluster := secret.cluster
  ctime := secret.ctime
  contents := secret.data

def secretOfItem (id : String) (item : SecretItem) : Secret where
  valid := true
  id := id
  name := item.name
  group := item.owningGroup
  cluster := item.cluster
  ctime := item.ctime
  data := item.contents

namespace SecretCaches

def replace (caches : SecretCaches) (record : CacheRecord Secret) (byGroup byPair : Time) : SecretCaches :=
  { caches with
    secretCache := caches.secretCache.insert record.record.id record
    secretByGroupCache := (caches.secretByGroupCache.insertOrAssign record.record.group record byGroup).2
    secretByGroupAndClusterCache := (caches.secretByGroupAndClusterCache.insertOrAssign
      (pairKey record.record.group record.record.cluster) record byPair).2 }

/-- The category for the group and cluster is dropped as a whole. -/
def forget (caches : SecretCaches) (id : String) : SecretCaches :=
  match caches.secretCache.lookup id with
  | none => caches
  | some { record, .. } =>
    { caches with
      secretCache := AList.erase id caches.secretCache
      secretByGroupCache := (caches.secretByGroupCache.eraseValue record.group record).2
      secretByGroupAndClusterCache :=
        (caches.secretByGroupAndClusterCache.erase (pairKey record.group record.cluster)).2 }

/-- The category a listing consults; there is none for a listing by cluster. -/
def listing (caches : SecretCaches) (group cluster : String) : Option (Category Secret) :=
  if group ≠ "" ∧ cluster ≠ "" then some (caches.secretByGroupAndClusterCache.find (pairKey group cluster))
  else if group ≠ "" then some (caches.secretByGroupCache.find group)
  else none

/-- The expiration a listing renews. It only looks at whether a cluster was given. -/
def stamp (caches : SecretCaches) (group cluster : String) (time : Time) : SecretCaches :=
  if cluster ≠ "" then { caches with secretByGroupAndClusterCache :=
    (caches.secretByGroupAndClusterCache.updateExpiration (pairKey group cluster) time).2 }
  else { caches with secretByGroupCache := (caches.secretByGroupCache.updateExpiration group time).2 }

end SecretCaches

def modifySecrets (change : SecretCaches → SecretCaches) : StoreM Unit :=
  modify fun server => { server with secrets := change server.secrets }

def cacheSecret (secret : Secret) : StoreM Unit := do
  let record ← CacheRecord.lasting secret secretCacheValidity
  let byGroup ← now
  let byPair ← now
  modifySecrets fun caches => caches.replace record byGroup byPair

def addSecret (secret : Secret) : StoreM Bool := do
  if !startsWith "scrypt" secret.data then
    throw "Secret data does not have valid encryption header"
  if secret.data.length < 128 then
    throw "Secret data does not have valid encryption header"
  unless ← request do
    return false
  modify fun server => { server with database := { server.database with
    secrets := server.database.secrets.insert secret.id (itemOfSecret secret) } }
  cacheSecret secret
  return true

def removeSecret (id : String) : StoreM Bool := do
  modifySecrets fun caches => caches.forget id
  unless ← request do
    return false
  modify fun server => { server with database := { server.database with
    secrets := AList.erase id server.database.secrets } }
  return true

def getSecret (id : String) : StoreM Secret := do
  if let some secret ← cached (← get).secrets.secretCache id then
    return secret
  unless ← request do
    return {}
  match (← get).database.secrets.lookup id with
  | none => return {}
  | some item =>
    let secret := secretOfItem id item
    cacheSecret secret
    return secret

def Database.secretsSelected (database : Database) (group cluster : String) : List (String × SecretItem) :=
  database.secrets.select fun _ item => listingSelects group cluster item.owningGroup item.cluster

/-- A row as a listing reads it: an argument that was given stands for the
attribute it was compared with. -/
def listedSecret (group cluster id : String) (item : SecretItem) : Secret :=
  { secretOfItem id item with
    group := if group = "" then item.owningGroup else group
    cluster := if cluster = "" then item.cluster else cluster }

def listSecretsNormalized (group cluster : String) : StoreM (List Secret) := do
  if let some category := (← get).secrets.listing group cluster then
    if let some members ← maybeReturnCachedCategoryMembers category then
      return members
  if group = "" ∧ cluster = "" then
    return []
  unless ← request do
    return []
  let secrets ← ((← get).database.secretsSelected group cluster).mapM fun (id, item) => do
    let secret := listedSecret group cluster id item
    cacheSecret secret
    return secret
  let reading ← now
  modifySecrets fun caches => caches.stamp group cluster (reading + secretCacheValidity)
  return secrets

/-- The message of the assertion that a group or a cluster is given. -/
def listSecretsAssertion : String := "Either a Group or a cluster must be specified"

def listSecrets (group cluster : String) : StoreM (List Secret) := do
  if group = "" ∧ cluster = "" then
    throw listSecretsAssertion
  let some (group, cluster) ← normalizeArguments group cluster
    | return []
  listSecretsNormalized group cluster

def findSecretByName (group cluster name : String) : StoreM Secret := do
  let secrets ← listSecrets group cluster
  return (secrets.find? fun secret => secret.name == name).getD {}

end Slate
