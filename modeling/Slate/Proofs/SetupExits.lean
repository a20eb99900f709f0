import Slate.ClusterSetup
import Slate.Proofs.DeletedClusters

/-! When a setup that fails leaves the record of its cluster to those who asked for that. -/

namespace Slate
open Library

def ClusterRecorded (server : Server) (cID : String) : Prop := (server.database.clusters.lookup cID).isSome = true

/-- The record is gone after a failure exactly when that was asked for, and is there after a success. -/
def HonoursAutodelete (world : SetupWorld) (cluster : Cluster) (autodelete : Bool) (server : Server) : Prop :=
  Ends (ensureClusterSetup world cluster autodelete) server (fun _ after => ClusterRecorded after cluster.id)
    fun _ after => if autodelete then ¬ ClusterRecorded after cluster.id else ClusterRecorded after cluster.id

/-- How a setup fails: without contact to the cluster, when autodelete is looked at; removing the record
whether or not it should; or leaving it where it is. -/
inductive SetupExit where
  | contact
  | removing
  | leaving
  deriving DecidableEq, Repr

/-- A removal of the record that has its effect. -/
def Removes (cID : String) (server : Server) : Prop :=
  Ends (removeCluster cID) server (fun _ after => ¬ ClusterRecorded after cID) fun _ after => ¬ ClusterRecorded after cID

/-- Where the database answers and the caches are right, a removal has its effect. -/
theorem removes_of_coherent {server : Server} {cID : String} (coherent : ClustersCoherent server)
    (formed : startsWith clusterIDPrefix cID = true) (known : WildcardKnown server cID)
    (guests : ∀ group, Granted server.database cID group → Guest group) : Removes cID server := by
  -- one page of grants is all that there are
  have returns := @returns_removeCluster_exactly _ coherent {} cID formed known guests .single
  refine (returns.mono fun _ after removed => ?_).ends
  rw [ClusterRecorded, removed.2.2.1]
  exact Bool.false_ne_true

def SetupExit.Honours (autodelete : Bool) (removes : Prop) : SetupExit → Prop
  | contact => autodelete = true → removes
  | removing => autodelete = true ↔ removes
  | leaving => autodelete = false

section
variable (world : SetupWorld) (cluster : Cluster) (configPath : String)

local instance lawfulColumns : LawfulBEq (List Char) := List.instLawfulBEq

def accessExit : Option SetupExit :=
  match world.contact.kubectlAnswer configPath contactArguments with
  | .error _ => some .leaving
  | .ok clusterInfo =>
    if outOfContact clusterInfo then some .contact
    else if stringSplitColumns clusterInfo.output.toList ' ' false = [] then some .removing
    else if cluster.systemNamespace.toList ∉ stringSplitColumns clusterInfo.output.toList ' ' false then some .leaving
    else match world.description.kubectlAnswer configPath (describeArguments cluster) with
    | .error _ => some .leaving
    | .ok namespaceCheck =>
      if namespaceCheck.status ≠ 0 then some .removing
      else if (checkNamespace cluster.systemNamespace.toList (stringSplitLines namespaceCheck.output)).1 then none
      else some .removing

def helmExit : Option SetupExit :=
  match world.version.helmVersionAnswer with
  | .error _ => some .leaving
  | .ok helmMajorVersion =>
    if helmMajorVersion ≠ 2 then none
    else match world.initialization.run "helm" (initArguments cluster) [("KUBECONFIG", configPath)] with
    | .error _ => some .leaving
    | .ok result =>
      if helmFailed result then some .removing
      else match tillerInPlace world cluster configPath result with
      | .error _ => some .leaving
      | .ok okay =>
        if okay then
          match awaitTiller world cluster configPath maxDelays with
          | .error _ => some .leaving
          | .ok _ => none
        else some .removing
end

/-- How a setup fails, with the server when it does. -/
inductive SetupLeaves (world : SetupWorld) (cluster : Cluster) (server : Server) : SetupExit → Server → Prop
  | unconfigured {message : String} {after : Server}
    (thrown : configPathForCluster cluster.id server = .error message after) : SetupLeaves world cluster server .leaving after
  | access {configPath : String} {between : Server} {exit : SetupExit}
    (configured : configPathForCluster cluster.id server = .ok configPath between)
    (fails : accessExit world cluster configPath = some exit) : SetupLeaves world cluster server exit between
  | helm {configPath : String} {between after : Server} {written : Bool} {exit : SetupExit}
    (configured : configPathForCluster cluster.id server = .ok configPath between)
    (accessible : accessExit world cluster configPath = none) (writes : updateCluster cluster between = .ok written after)
    (fails : helmExit world cluster configPath = some exit) : SetupLeaves world cluster server exit after
  | dns {configPath message : String} {between after last : Server} {written : Bool}
    (configured : configPathForCluster cluster.id server = .ok configPath between)
    (accessible : accessExit world cluster configPath = none) (writes : updateCluster cluster between = .ok written after)
    (settled : helmExit world cluster configPath = none)
    (thrown : setClusterDNSRecord world cluster after = .error message last) : SetupLeaves world cluster server .leaving last

/-- There is one way at most in which a setup fails. -/
theorem SetupLeaves.unique {world : SetupWorld} {cluster : Cluster} {server state last : Server} {exit other : SetupExit}
    (first : SetupLeaves world cluster server exit state) (second : SetupLeaves world cluster server other last) :
    other = exit ∧ last = state := by
  cases first <;> cases second <;> grind

/-- How a part of a setup ends, which does nothing to the store but remove the record. -/
def ExitsBy {α : Type} (cluster : Cluster) (autodelete : Bool) (part : StoreM α) : Option SetupExit → Prop
  | none => ∃ value, part = pure value
  | some .contact => ∃ reason, part = if autodelete then giveUp cluster reason else throw (registrationFailed reason)
  | some .removing => ∃ reason, part = giveUp cluster reason
  | some .leaving => ∃ message, part = throw message

section
variable {α β : Type} {cluster : Cluster} {autodelete : Bool}

private theorem giveUp_bind (reason : String) (next : α → StoreM β) :
    (giveUp cluster reason >>= next) = giveUp cluster reason := by
  unfold giveUp
  rw [bind_assoc]
  rfl

/-- The parts after one that fails do not matter. -/
theorem ExitsBy.bind {part : StoreM α} {exit : SetupExit} (exits : ExitsBy cluster autodelete part (some exit))
    (next : α → StoreM β) : ExitsBy cluster autodelete (part >>= next) (some exit) := by
  cases exit with
  | contact =>
    obtain ⟨reason, rfl⟩ := exits
    refine ⟨reason, ?_⟩
    cases autodelete with
    | true => exact giveUp_bind reason next
    | false => rfl
  | removing =>
    obtain ⟨reason, rfl⟩ := exits
    exact ⟨reason, giveUp_bind reason next⟩
  | leaving =>
    obtain ⟨message, rfl⟩ := exits
    exact ⟨message, rfl⟩

private theorem contactCluster_exits (world : SetupWorld) (configPath : String) :
    ExitsBy cluster autodelete (contactCluster world cluster configPath autodelete >>= checkServiceAccount world cluster configPath)
      (accessExit world cluster configPath) := by
  unfold contactCluster accessExit
  rw [kubectl_answer]
  cases world.contact.kubectlAnswer configPath contactArguments with
  | error thrown => exact ⟨thrown, rfl⟩
  | ok clusterInfo =>
    rw [ofExcept, pure_bind]
    dsimp only
    split
    · exact @ExitsBy.bind _ _ cluster autodelete _ .contact ⟨_, rfl⟩ _
    · rw [pure_bind]
      unfold checkServiceAccount
      split
      · exact ⟨_, rfl⟩
      · split
        · exact ⟨_, rfl⟩
        · rw [kubectl_answer]
          cases world.description.kubectlAnswer configPath (describeArguments cluster) with
          | error thrown => exact ⟨thrown, rfl⟩
          | ok namespaceCheck =>
            rw [ofExcept, pure_bind]
            dsimp only
            split
            · exact ⟨_, rfl⟩
            · split
              · exact ⟨_, rfl⟩
              · exact ⟨_, rfl⟩

private theorem setUpHelm_exits (world : SetupWorld) (configPath : String) :
    ExitsBy cluster autodelete (setUpHelm world cluster configPath) (helmExit world cluster configPath) := by
  unfold setUpHelm helmExit
  rw [getHelmMajorVersion_answer]
  cases world.version.helmVersionAnswer with
  | error thrown => exact ⟨thrown, rfl⟩
  | ok helmMajorVersion =>
    rw [ofExcept, pure_bind]
    dsimp only
    split
    · exact ⟨_, rfl⟩
    · unfold runCommand
      cases world.initialization.run "helm" (initArguments cluster) [("KUBECONFIG", configPath)] with
      | error thrown => exact ⟨thrown, rfl⟩
      | ok result =>
        rw [pure_bind]
        dsimp only
        split
        · exact ⟨_, rfl⟩
        · cases tillerInPlace world cluster configPath result with
          | error thrown => exact ⟨thrown, rfl⟩
          | ok okay =>
            rw [ofExcept, pure_bind]
            dsimp only
            split
            · cases awaitTiller world cluster configPath maxDelays with
              | error thrown => exact ⟨thrown, rfl⟩
              | ok message => exact ⟨message, rfl⟩
            · exact ⟨_, rfl⟩

/-- A failure leaves the record as it should be, or does not. -/
theorem ExitsBy.ends_iff {part : StoreM α} {exit : SetupExit} {server : Server} {post : α → Server → Prop}
    (exits : ExitsBy cluster autodelete part (some exit)) (recorded : ClusterRecorded server cluster.id) :
    Ends part server post (fun _ after => if autodelete then ¬ ClusterRecorded after cluster.id else ClusterRecorded after cluster.id) ↔
      exit.Honours autodelete (Removes cluster.id server) := by
  have gaveUp : ∀ reason, Ends (giveUp cluster reason : StoreM α) server post
      (fun _ after => if autodelete then ¬ ClusterRecorded after cluster.id else ClusterRecorded after cluster.id) ↔
        (autodelete = true ↔ Removes cluster.id server) := by
    intro reason
    unfold giveUp
    rw [ends_bind]
    cases autodelete with
    | true =>
      have same : (true = true ↔ Removes cluster.id server) ↔ Removes cluster.id server := by simp
      rw [same]
      rfl
    | false =>
      have opposite : (false = true ↔ Removes cluster.id server) ↔ ¬ Removes cluster.id server := by simp
      rw [opposite, Removes, ← ends_not]
      simp only [not_not]
      rfl
  cases exit with
  | contact =>
    obtain ⟨reason, rfl⟩ := exits
    cases autodelete with
    | true => exact (gaveUp reason).trans (by simp [SetupExit.Honours])
    | false => exact ⟨fun _ => nofun, fun _ => recorded⟩
  | removing =>
    obtain ⟨reason, rfl⟩ := exits
    exact gaveUp reason
  | leaving =>
    obtain ⟨message, rfl⟩ := exits
    rw [ends_throw]
    cases autodelete with
    | true => exact ⟨fun gone => absurd recorded gone, nofun⟩
    | false => exact ⟨fun _ => rfl, fun _ => recorded⟩

end

theorem KeepsTables.recorded {before after : Server} {cID : String} (keeps : KeepsTables before after) :
    ClusterRecorded after cID ↔ ClusterRecorded before cID := by
  rw [ClusterRecorded, ClusterRecorded, keeps]

private theorem returns_updateCluster_recorded {server : Server} {cluster : Cluster} (recorded : ClusterRecorded server cluster.id) :
    Returns (updateCluster cluster) server fun _ after => ClusterRecorded after cluster.id := by
  unfold updateCluster writeCluster putClusterItem
  simp only [returns_bind, returns_request, returns_ite, returns_pure]
  split
  next =>
    simp only [returns_modify, if_true]
    refine (returns_cacheCluster_exactly cluster _).mono ?_
    rintro _ after ⟨-, same, -⟩
    rw [ClusterRecorded, same]
    change ((AList.insert cluster.id _ server.database.clusters).lookup cluster.id).isSome = true
    rw [FiniteMap.lookup_insert, if_pos rfl]
    rfl
  next => exact recorded

private theorem leads_setClusterDNSRecord (world : SetupWorld) (cluster : Cluster) :
    Leads KeepsTables (setClusterDNSRecord world cluster) :=
  (leads_configPathForCluster looking_keepsTables cluster.id).bind fun _ =>
    (leads_kubectl _ _ _).bind fun _ => .pure _

/-- A setup leaves the record of its cluster to those who asked for that exactly when each failure does
that happens, given what a removal would do then. -/
theorem setup_honours_iff {world : SetupWorld} {cluster : Cluster} {autodelete : Bool} {server : Server}
    (recorded : ClusterRecorded server cluster.id) : HonoursAutodelete world cluster autodelete server ↔
      ∀ exit state, SetupLeaves world cluster server exit state → exit.Honours autodelete (Removes cluster.id state) := by
  have only : ∀ {fails : Prop} {exit : SetupExit} {state : Server},
      SetupLeaves world cluster server exit state →
      (fails ↔ exit.Honours autodelete (Removes cluster.id state)) →
      (fails ↔ ∀ exit state, SetupLeaves world cluster server exit state → exit.Honours autodelete (Removes cluster.id state)) := by
    intro fails exit state leaves same
    rw [same]
    constructor
    · intro honours other last otherLeaves
      obtain ⟨rfl, rfl⟩ := leaves.unique otherLeaves
      exact honours
    · exact fun all => all exit state leaves
  have thrown : ∀ {message : String} {state : Server}, ClusterRecorded state cluster.id →
      (Ends (throw message : StoreM String) state (fun _ after => ClusterRecorded after cluster.id)
        (fun _ after => if autodelete then ¬ ClusterRecorded after cluster.id else ClusterRecorded after cluster.id) ↔
        SetupExit.leaving.Honours autodelete (Removes cluster.id state)) :=
    fun recorded => @ExitsBy.ends_iff _ cluster autodelete _ .leaving _ _ ⟨_, rfl⟩ recorded
  unfold HonoursAutodelete ensureClusterSetup
  have configuring := leads_configPathForCluster looking_keepsTables cluster.id server
  rw [ends_bind]
  unfold Ends at configuring
  rw [Ends]
  cases configured : configPathForCluster cluster.id server with
  | error message after =>
    rw [configured] at configuring
    dsimp only
    exact only (.unconfigured configured) (@thrown message after ((KeepsTables.recorded configuring).mpr recorded))
  | ok configPath between =>
    rw [configured] at configuring
    dsimp only
    have kept : ClusterRecorded between cluster.id := (KeepsTables.recorded configuring).mpr recorded
    rw [← bind_assoc]
    have accessing := @contactCluster_exits cluster autodelete world configPath
    cases accessible : accessExit world cluster configPath with
    | some exit =>
      rw [accessible] at accessing
      exact only (.access configured accessible) ((accessing.bind _).ends_iff kept)
    | none =>
      rw [accessible] at accessing
      obtain ⟨value, settled⟩ := accessing
      rw [settled, pure_bind, ends_bind]
      obtain ⟨written, after, writes, kept⟩ := returns_iff.mp (returns_updateCluster_recorded kept)
      rw [Ends, writes]
      dsimp only
      have setting := @setUpHelm_exits cluster autodelete world configPath
      cases helm : helmExit world cluster configPath with
      | some exit =>
        rw [helm] at setting
        exact only (.helm configured accessible writes helm) ((setting.bind _).ends_iff kept)
      | none =>
        rw [helm] at setting
        obtain ⟨message, settled⟩ := setting
        rw [settled, pure_bind, ends_bind]
        have naming := leads_setClusterDNSRecord world cluster after
        unfold Ends at naming
        rw [Ends]
        cases named : setClusterDNSRecord world cluster after with
        | error message last =>
          rw [named] at naming
          dsimp only
          exact only (.dns configured accessible writes helm named) (@thrown message last ((KeepsTables.recorded naming).mpr kept))
        | ok dnsMessage last =>
          rw [named] at naming
          dsimp only
          refine ⟨fun _ exit state leaves => ?_, fun _ => (KeepsTables.recorded naming).mpr kept⟩
          cases leaves <;> grind

def clusterInUse : Cluster := { valid := true, id := "cluster_1", name := "one", systemNamespace := "slate" }

def serverInUse : Server where
  database := { clusters := AList.insert clusterInUse.id (itemOfCluster clusterInUse) ∅ }

def Outside.broken : Outside := ⟨fun _ _ _ => .error "Failed to start child process"⟩

/-- A program that ends so whatever it is asked. -/
def Outside.always (result : CommandResult) : Outside := ⟨fun _ _ _ => .ok result⟩

def failingWorld : SetupWorld where
  contact := .always { output := "default slate" }
  description := .always { error := "timed out", status := 1 }
  version := .broken
  initialization := .broken
  deployments := .broken
  pods _ := .broken
  ingress := .broken

private theorem removes_of_left {server : Server} {cID : String}
    (gone : ((leftState (removeCluster cID server)).database.clusters.lookup cID).isNone = true) : Removes cID server := by
  have unrecorded : ¬ ClusterRecorded (leftState (removeCluster cID server)) cID := by
    rw [ClusterRecorded, Option.isNone_iff_eq_none.mp gone]
    exact Bool.false_ne_true
  unfold Removes Ends
  cases ran : removeCluster cID server with
  | ok _ after =>
    rw [ran] at unrecorded
    exact unrecorded
  | error _ after =>
    rw [ran] at unrecorded
    exact unrecorded

private theorem failing_leaves : ∃ state, SetupLeaves failingWorld clusterInUse serverInUse .removing state ∧
    Removes clusterInUse.id state :=
  ⟨_, .access rfl (by decide +kernel), removes_of_left (by decide +kernel)⟩

/-- The removal does not look at autodelete, and is right when that is set. -/
theorem setup_honours_iff_failing :
    (HonoursAutodelete failingWorld clusterInUse false serverInUse ↔
      ∀ exit state, SetupLeaves failingWorld clusterInUse serverInUse exit state →
        exit.Honours false (Removes clusterInUse.id state)) ∧
    HonoursAutodelete failingWorld clusterInUse true serverInUse := by
  have recorded : ClusterRecorded serverInUse clusterInUse.id := by
    unfold ClusterRecorded
    decide
  refine ⟨setup_honours_iff recorded, (setup_honours_iff recorded).mpr fun exit state leaves => ?_⟩
  obtain ⟨known, removing, removes⟩ := failing_leaves
  obtain ⟨rfl, rfl⟩ := removing.unique leaves
  exact iff_of_true rfl removes

/-- The cluster is lost, although it should not be deleted. -/
theorem setup_loses_cluster :
    ¬ ∀ world cluster autodelete server, ClusterRecorded server cluster.id → HonoursAutodelete world cluster autodelete server := by
  intro all
  have honours := all failingWorld clusterInUse false serverInUse (by unfold ClusterRecorded; decide)
  have lost : (match ensureClusterSetup failingWorld clusterInUse false serverInUse with
      | .ok _ _ => false
      | .error _ after => (after.database.clusters.lookup clusterInUse.id).isNone) = true := by decide +kernel
  unfold HonoursAutodelete Ends at honours
  cases ran : ensureClusterSetup failingWorld clusterInUse false serverInUse with
  | ok message after =>
    rw [ran] at lost
    cases lost
  | error thrown after =>
    rw [ran] at lost honours
    have gone := Option.isNone_iff_eq_none.mp lost
    exact absurd honours (by simp [ClusterRecorded, gone])

end Slate
