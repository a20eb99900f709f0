import Slate.Proofs.GroupDeletion

/-! Which references to a cluster or to a group are left when it has been deleted. -/

namespace Slate
open Library

/-- Nothing in the tables refers to the cluster, and the credential it had is free. -/
structure ForgetsCluster (before after : Database) (cID : String) : Prop where
  record : after.clusters.lookup cID = none
  instances : ∀ id row, after.instances.lookup id = some row → row.cluster ≠ cID
  configs : ∀ id row, before.instances.lookup id = some row → row.cluster = cID → after.instanceConfigs.lookup id = none
  secrets : ∀ id row, after.secrets.lookup id = some row → row.cluster ≠ cID
  volumes : ∀ id row, after.volumes.lookup id = some row → row.cluster ≠ cID
  access : ∀ group, ¬ Granted after cID group
  applications : ∀ sortKey, after.applications.lookup (cID, sortKey) = none
  locations : after.locations.lookup cID = none
  credential : CredentialFreed before after cID

structure ForgetsGroup (before after : Database) (groupID : String) : Prop where
  record : after.groups.lookup groupID = none
  memberships : ∀ uID, after.memberships.lookup (uID, groupID) = none
  instances : ∀ id row, after.instances.lookup id = some row → row.owningGroup ≠ groupID
  configs : ∀ id row, before.instances.lookup id = some row → row.owningGroup = groupID →
    after.instanceConfigs.lookup id = none
  secrets : ∀ id row, after.secrets.lookup id = some row → row.owningGroup ≠ groupID
  volumes : ∀ id row, after.volumes.lookup id = some row → row.owningGroup ≠ groupID
  clusters : ∀ cID row, after.clusters.lookup cID = some row → row.owningGroup ≠ some groupID
  access : ∀ cID, ¬ Granted after cID groupID
  applications : ∀ cID, after.applications.lookup (cID, applicationsKey groupID cID) = none

/-- No record says which applications are allowed on the cluster; and where all groups have
access, none has access of its own. -/
structure ClusterForgettable (database : Database) (cID : String) : Prop where
  applications : ∀ sortKey, database.applications.lookup (cID, sortKey) = none
  access : Granted database cID wildcard → ∀ group, Granted database cID group → group = wildcard

/-- No record says which applications the group may use. It has access to clusters and
claims on clusters that it owns only, and to none of them has every group access. -/
structure GroupForgettable (database : Database) (groupID : String) : Prop where
  applications : ∀ cID, database.applications.lookup (cID, applicationsKey groupID cID) = none
  access : ∀ cID, Granted database cID groupID → Owned database groupID cID ∧ ¬ Granted database cID wildcard
  volumes : ∀ id row, database.volumes.lookup id = some row → row.owningGroup = groupID → Owned database groupID row.cluster

theorem ClusterDeleted.forgets_iff {cID : String} {before after : Server} (deleted : ClusterDeleted cID before after) :
    ForgetsCluster before.database after.database cID ↔ ClusterForgettable before.database cID := by
  have here : cID ∈ [cID] := List.mem_singleton_self cID
  constructor
  · intro forgets
    refine ⟨deleted.kept.2.2 ▸ forgets.applications, fun all group granted => ?_⟩
    by_contra other
    exact forgets.access group ((deleted.granted cID group).mpr ⟨granted, fun _ => ⟨all, other⟩⟩)
  · intro forgettable
    exact {
      record := by rw [deleted.clusters, if_pos here]
      instances := fun id row found on => ((deleted.instances id row).mp found).2 (List.mem_singleton.mpr on)
      configs := fun id row found on => deleted.configs id row found (List.mem_singleton.mpr on)
      secrets := fun id row found on => (deleted.secrets id row found).2 (List.mem_singleton.mpr on)
      volumes := fun id row found on => ((deleted.volumes id row).mp found).2 (List.mem_singleton.mpr on)
      access := fun group granted => by
        obtain ⟨granted, left⟩ := (deleted.granted cID group).mp granted
        obtain ⟨all, other⟩ := left here
        exact other (forgettable.access all group granted)
      applications := deleted.kept.2.2 ▸ forgettable.applications
      locations := deleted.locations
      credential := deleted.freed }

theorem GroupDeleted.forgets_iff {groupID : String} {before after : Server} (deleted : GroupDeleted groupID before after)
    (other : groupID ≠ wildcard) :
    ForgetsGroup before.database after.database groupID ↔ GroupForgettable before.database groupID := by
  constructor
  · intro forgets
    refine ⟨deleted.applications ▸ forgets.applications, fun cID granted => ?_, fun id row found owner => ?_⟩
    · -- what is left of the access to a cluster is not this
      by_contra kept
      refine forgets.access cID ((deleted.granted cID groupID).mpr ⟨granted, fun owned => ⟨?_, other⟩⟩)
      by_contra closed
      exact kept ⟨owned, closed⟩
    · by_contra kept
      exact forgets.volumes id row ((deleted.volumes id row).mpr ⟨found, kept⟩) owner
  · intro forgettable
    exact {
      record := deleted.record
      memberships := deleted.memberships
      instances := deleted.instances
      configs := deleted.configs
      secrets := deleted.secrets
      volumes := fun id row found owner => by
        obtain ⟨found, elsewhere⟩ := (deleted.volumes id row).mp found
        exact elsewhere (forgettable.volumes id row found owner)
      clusters := deleted.clusters
      access := fun cID granted => by
        obtain ⟨granted, left⟩ := (deleted.granted cID groupID).mp granted
        obtain ⟨owned, closed⟩ := forgettable.access cID granted
        exact closed (left owned).1
      applications := deleted.applications ▸ forgettable.applications }

private theorem groupID_ne_wildcard {groupID : String} (formed : startsWith groupIDPrefix groupID = true) : groupID ≠ wildcard := by
  rintro rfl
  exact absurd formed (by decide)

/-- A deletion that succeeds leaves no reference exactly where there is nothing that it
overlooks. -/
theorem deletions_forget_iff {outside : Outside} {parse : String → Json} {splitting : Splitting} (able : outside.Able)
    {server : Server} (sound : Sound server) (agree : GroupsAgree server.database.groups server.groups)
    (names : ∀ name, GroupNameUnique server.database.groups name) :
    (∀ (cluster : Cluster) (force : Bool), server.database.cluster cluster.id = some cluster → SoundFor server cluster.id →
      Unmounted outside parse server.database cluster.id → splitting.ShowsCluster server.database cluster.id →
      Returns (deleteCluster outside parse splitting cluster force) server fun result after =>
        (force = true → result = "") ∧
          (result = "" → (ForgetsCluster server.database after.database cluster.id ↔
            ClusterForgettable server.database cluster.id))) ∧
    ∀ (text groupID : String) (item : GroupItem), DesignatesGroup server.database text groupID →
      server.database.groups.lookup groupID = some item → SoundForGroup outside parse server groupID →
      splitting.ShowsGroup server.database groupID →
      Returns (deleteGroup outside parse splitting text) server fun status after => status = 200 ∧
        (ForgetsGroup server.database after.database groupID ↔ GroupForgettable server.database groupID) := by
  constructor
  · intro cluster force recorded soundFor free shows_
    refine (returns_deleteCluster able sound recorded soundFor free shows_ force).mono ?_
    rintro result after ⟨forced, done⟩
    exact ⟨forced, fun none => (done none).forgets_iff⟩
  · intro text groupID item designated stored soundFor shows_
    refine (returns_deleteGroup able sound agree (names text) designated stored soundFor shows_).mono ?_
    rintro status after ⟨rfl, deleted⟩
    exact ⟨rfl, deleted.forgets_iff (groupID_ne_wildcard soundFor.formed)⟩

/-- A group that may use an application on a cluster of another one, which has a claim there. -/
def sharedCluster : Cluster where
  valid := true
  id := "cluster_1"
  name := "rhea"
  config := "kubeconfig"
  systemNamespace := "slate"
  owningGroup := "group_2"
  owningOrganization := "org"

def sharedClaim : VolumeItem := ⟨"data", "group_2", "cluster_1", "5Gi", "ReadWriteOnce", "Filesystem", "fast", "today"⟩

def sharingServer : Server where
  database := {
    groups := AList.insert "group_1" ⟨"atlas", none, none, none, none⟩ (AList.insert "group_2" ⟨"cms", none, none, none, none⟩ ∅)
    clusters := AList.insert "cluster_1" (itemOfCluster sharedCluster) ∅
    volumes := AList.insert "volume_1" sharedClaim ∅
    access := AList.insert ("cluster_1", "group_1") () (AList.insert ("cluster_1", wildcard) () ∅)
    applications := AList.insert ("cluster_1", applicationsKey "group_1" "cluster_1") {"nginx"} ∅ }

/-- One pod, which mounts another claim. -/
def podText : String :=
  "\x7b\"items\":[\x7b\"metadata\":\x7b\"generateName\":\"web-\"\x7d,\"spec\":\x7b\"volumes\":" ++
    "[\x7b\"persistentVolumeClaim\":\x7b\"claimName\":\"scratch\"\x7d\x7d]\x7d\x7d]\x7d"

def podDocument : Json :=
  .object [("items", .array [.object [("metadata", .object [("generateName", .string "web-")]),
    ("spec", .object [("volumes", .array [.object [("persistentVolumeClaim", .object [("claimName", .string "scratch")])]])])]])]

def parsePods (text : String) : Json := if text = podText then podDocument else .null

def podOutside : Outside where
  run := fun _ arguments _ => .ok { output := if "pods" ∈ arguments then podText else "default" }

theorem podOutside_able : podOutside.Able := fun _ _ _ => ⟨_, rfl⟩

private theorem podOutside_unused (configPath : String) : Unused podOutside parsePods configPath "data" := by
  intro nspace pods answered
  have listed : "pods" ∈ kubectlArguments configPath (podsArguments nspace) := by
    unfold kubectlArguments podsArguments
    simp
  have plain : removeShellEscapeSequences podText = podText := by decide +kernel
  unfold Outside.kubectlAnswer podOutside at answered
  simp only [listed, if_true, bind, Except.bind, pure, Except.pure, Except.ok.injEq] at answered
  rw [← answered]
  dsimp only
  rw [plain, parsePods, if_pos rfl]
  decide +kernel

theorem sharingServer_claims {id : String} {row : VolumeItem}
    (found : sharingServer.database.volumes.lookup id = some row) : row = sharedClaim := by
  simp only [sharingServer, FiniteMap.lookup_insert, FiniteMap.lookup_empty] at found
  split at found
  next => exact (Option.some.inj found).symm
  next => cases found

theorem sharingServer_unmounted (cID : String) : Unmounted podOutside parsePods sharingServer.database cID := by
  intro cluster _ id row found _
  rw [sharingServer_claims found]
  exact podOutside_unused cluster.config

private theorem sharingServer_inOrder : sharingServer.database.InOrder where
  complete := by
    intro id item found
    simp only [sharingServer, FiniteMap.lookup_insert, FiniteMap.lookup_empty] at found
    split at found
    next =>
      cases found
      rfl
    next => cases found
  unique := by
    intro name id item id' item' found _ found' _
    simp only [sharingServer, FiniteMap.lookup_insert, FiniteMap.lookup_empty] at found found'
    split at found <;> split at found' <;> simp_all
  formed := by
    intro id item found
    simp only [sharingServer, FiniteMap.lookup_insert, FiniteMap.lookup_empty] at found
    split at found
    next same =>
      rw [same]
      decide
    next => cases found
  readable := by
    intro id row found
    rw [sharingServer_claims found]
    exact ⟨_, rfl⟩
  guests := by
    intro cID group granted
    simp only [Granted, sharingServer, FiniteMap.lookup_insert, FiniteMap.lookup_empty] at granted
    split at granted
    next same =>
      rw [(Prod.mk.inj same).2]
      exact .inr (by decide)
    next =>
      split at granted
      next same => exact .inl (Prod.mk.inj same).2
      next => cases granted

private theorem sharingServer_sound : Sound sharingServer :=
  .of_fresh sharingServer_inOrder rfl rfl rfl (fun _ _ _ => le_rfl) fun _ => rfl

private theorem sharingServer_names (name : String) : GroupNameUnique sharingServer.database.groups name := by
  intro id item id' item' found named found' named'
  simp only [sharingServer, FiniteMap.lookup_insert, FiniteMap.lookup_empty] at found found'
  split at found <;> split at found' <;> simp_all <;> grind

private theorem sharingServer_soundFor {groupID : String} (formed : startsWith groupIDPrefix groupID = true) :
    SoundForGroup podOutside parsePods sharingServer groupID where
  formed
  instances := fun trusted => absurd trusted (not_trusted_zero sharingServer)
  secrets := fun trusted => absurd trusted (not_trusted_zero sharingServer)
  owned := fun cID _ => ⟨.of_fresh rfl rfl cID, sharingServer_unmounted cID⟩

theorem onePage_showsCluster (database : Database) (cID : String) : ({} : Splitting).ShowsCluster database cID :=
  ⟨.single, .single, .single⟩

private theorem onePage_showsGroup (database : Database) (groupID : String) : ({} : Splitting).ShowsGroup database groupID :=
  ⟨.single, .single, .single, fun cID _ => onePage_showsCluster database cID⟩

private theorem sharingServer_agrees : GroupsAgree sharingServer.database.groups sharingServer.groups := .empty _

/-- The application that the group may use outlives the cluster as well as the group, and so
does the access of the group to the cluster. -/
theorem deletions_leave_references :
    Returns (deleteCluster podOutside parsePods {} sharedCluster true) sharingServer (fun result after => result = "" ∧
      Granted after.database "cluster_1" "group_1" ∧
      after.database.applications.lookup ("cluster_1", applicationsKey "group_1" "cluster_1") = some {"nginx"} ∧
      ¬ ForgetsCluster sharingServer.database after.database "cluster_1") ∧
    Returns (deleteGroup podOutside parsePods {} "group_1") sharingServer fun status after => status = 200 ∧
      Granted after.database "cluster_1" "group_1" ∧
      after.database.applications.lookup ("cluster_1", applicationsKey "group_1" "cluster_1") = some {"nginx"} ∧
      ¬ ForgetsGroup sharingServer.database after.database "group_1" := by
  have may : sharingServer.database.applications.lookup ("cluster_1", applicationsKey "group_1" "cluster_1") =
      some {"nginx"} := (FiniteMap.lookup_insert _ _ _ _).trans (if_pos rfl)
  have access : Granted sharingServer.database "cluster_1" "group_1" := rfl
  have all : Granted sharingServer.database "cluster_1" wildcard := rfl
  have recorded : sharingServer.database.cluster sharedCluster.id = some sharedCluster := by decide
  have stored : sharingServer.database.groups.lookup "group_1" = some ⟨"atlas", none, none, none, none⟩ := rfl
  have fresh : SoundFor sharingServer sharedCluster.id := .of_fresh rfl rfl _
  have free := sharingServer_unmounted sharedCluster.id
  have soundFor : SoundForGroup podOutside parsePods sharingServer "group_1" := sharingServer_soundFor (by decide)
  have sound := sharingServer_sound
  have names := sharingServer_names "group_1"
  have agree := sharingServer_agrees
  -- what the server holds is not looked at any more, or it would be evaluated
  generalize sharingServer = server at *
  constructor
  · refine (returns_deleteCluster podOutside_able sound recorded fresh free (onePage_showsCluster _ _) true).mono ?_
    rintro result after ⟨forced, done⟩
    have deleted := done (forced rfl)
    have granted : Granted after.database "cluster_1" "group_1" :=
      (deleted.granted _ _).mpr ⟨access, fun _ => ⟨all, by decide⟩⟩
    exact ⟨forced rfl, granted, by rw [deleted.kept.2.2, may], fun forgets => forgets.access "group_1" granted⟩
  · have foreign : ¬ Owned server.database "group_1" "cluster_1" := by
      rintro ⟨cluster, known, owner⟩
      have same : server.database.cluster "cluster_1" = some sharedCluster := recorded
      rw [same] at known
      rw [← Option.some.inj known] at owner
      exact absurd owner (by decide)
    have designated : DesignatesGroup server.database "group_1" "group_1" := rfl
    refine (returns_deleteGroup podOutside_able sound agree names designated stored soundFor
      (onePage_showsGroup _ _)).mono ?_
    rintro status after ⟨rfl, deleted⟩
    have granted : Granted after.database "cluster_1" "group_1" :=
      (deleted.granted _ _).mpr ⟨access, fun owned => absurd owned foreign⟩
    exact ⟨rfl, granted, by rw [deleted.applications, may], fun forgets => forgets.access "cluster_1" granted⟩

private theorem sharingServer_forgettable : GroupForgettable sharingServer.database "group_2" := by
  refine ⟨fun cID => ?_, fun cID granted => ?_, fun id row found _ => ?_⟩
  · simp only [sharingServer, FiniteMap.lookup_insert, FiniteMap.lookup_empty]
    split
    next same =>
      obtain ⟨rfl, key⟩ := Prod.mk.inj same
      exact absurd key (by decide)
    next => rfl
  · simp only [Granted, sharingServer, FiniteMap.lookup_insert, FiniteMap.lookup_empty] at granted
    split at granted
    next same => exact absurd (Prod.mk.inj same).2 (by decide)
    next =>
      split at granted
      next same => exact absurd (Prod.mk.inj same).2 (by decide)
      next => cases granted
  · rw [sharingServer_claims found]
    exact ⟨sharedCluster, by decide, rfl⟩

/-- The deletion of the cluster is no better with its condition; that of the group which owns
it, and the claim there, leaves nothing. -/
theorem deletions_forget_run :
    Returns (deleteCluster podOutside parsePods {} sharedCluster true) sharingServer (fun result after => result = "" ∧
      (ForgetsCluster sharingServer.database after.database "cluster_1" ↔ ClusterForgettable sharingServer.database "cluster_1")) ∧
    Returns (deleteGroup podOutside parsePods {} "group_2") sharingServer fun status after => status = 200 ∧
      ForgetsGroup sharingServer.database after.database "group_2" := by
  have recorded : sharingServer.database.cluster sharedCluster.id = some sharedCluster := by decide
  have stored : sharingServer.database.groups.lookup "group_2" = some ⟨"cms", none, none, none, none⟩ := rfl
  have fresh : SoundFor sharingServer sharedCluster.id := .of_fresh rfl rfl _
  have free := sharingServer_unmounted sharedCluster.id
  have soundFor : SoundForGroup podOutside parsePods sharingServer "group_2" := sharingServer_soundFor (by decide)
  have forgettable := sharingServer_forgettable
  obtain ⟨ofCluster, ofGroup⟩ := @deletions_forget_iff podOutside parsePods {} podOutside_able sharingServer
    sharingServer_sound sharingServer_agrees sharingServer_names
  generalize sharingServer = server at *
  constructor
  · refine (ofCluster sharedCluster true recorded fresh free (onePage_showsCluster _ _)).mono ?_
    rintro result after ⟨forced, done⟩
    exact ⟨forced rfl, done (forced rfl)⟩
  · refine (ofGroup "group_2" "group_2" _ rfl stored soundFor (onePage_showsGroup _ _)).mono ?_
    rintro status after ⟨answered, forgets⟩
    exact ⟨answered, forgets.mpr forgettable⟩

end Slate
