import Slate.ClaimDeletion
import Slate.Proofs.SetupExits

/-! When the list of pods guards a volume claim that is in use. -/

namespace Slate
open Library

section collect
variable {α β : Type} {gives : α → Option (List β)}

/-- There are results exactly when each item gives some, and then they are those. -/
theorem collect_eq_some {items : List α} {results : List β} : collect gives items = some results ↔
    (∀ item ∈ items, (gives item).isSome = true) ∧ results = items.flatMap fun item => (gives item).getD [] := by
  induction items generalizing results with
  | nil =>
    rw [collect, Option.some.injEq]
    exact ⟨fun same => ⟨nofun, same.symm⟩, fun all => all.2.symm⟩
  | cons item items ih =>
    rw [collect]
    cases given : gives item with
    | none => simp [given]
    | some first =>
      cases others : collect gives items with
      | none =>
        have some_missing : ¬ ∀ item ∈ items, (gives item).isSome = true := by
          intro all
          exact absurd (others.symm.trans (ih.mpr ⟨all, rfl⟩)) nofun
        simp [given, some_missing]
      | some rest =>
        obtain ⟨all, same⟩ := ih.mp others
        have here : ∀ other ∈ item :: items, (gives other).isSome = true := by
          intro other member
          rcases List.mem_cons.mp member with rfl | member
          · rw [given]
            rfl
          · exact all other member
        rw [List.flatMap_cons, given, ← same]
        exact ⟨fun result => ⟨here, (Option.some.inj result).symm⟩, fun result => congrArg some result.2.symm⟩

private theorem collect_isSome {items : List α} :
    (collect gives items).isSome = true ↔ ∀ item ∈ items, (gives item).isSome = true := by
  rw [Option.isSome_iff_exists]
  constructor
  · rintro ⟨results, given⟩
    exact (collect_eq_some.mp given).1
  · exact fun all => ⟨_, collect_eq_some.mpr ⟨all, rfl⟩⟩

/-- Items that give nothing can be left out. -/
theorem collect_filter {items : List α} {results : List β} (given : collect gives items = some results)
    {wanted : α → Bool} (unwanted : ∀ item ∈ items, wanted item = false → gives item = some []) :
    collect gives (items.filter wanted) = some results := by
  induction items generalizing results with
  | nil => exact given
  | cons item items ih =>
    obtain ⟨all, rfl⟩ := collect_eq_some.mp given
    have rest := ih (collect_eq_some.mpr ⟨fun other member => all other (List.mem_cons_of_mem _ member), rfl⟩)
      fun other member => unwanted other (List.mem_cons_of_mem _ member)
    rw [List.filter_cons]
    split
    next =>
      obtain ⟨first, gave⟩ := Option.isSome_iff_exists.mp (all item List.mem_cons_self)
      rw [collect, rest, gave]
      simp [gave]
    next skipped =>
      rw [rest, List.flatMap_cons, unwanted item List.mem_cons_self (Bool.eq_false_iff.mpr skipped)]
      rfl

end collect

def listedPods (podData : Json) : Option (List Json) := podData.member "items" >>= Json.getArray

def MountsClaim (name : String) (pod : Json) : Prop :=
  ∃ spec volumes podVolume claim, pod.member "spec" = some spec ∧ spec.member "volumes" = some (.array volumes) ∧
    podVolume ∈ volumes ∧ podVolume.member "persistentVolumeClaim" = some claim ∧
    claim.member "claimName" = some (.string name)

/-- A volume is described as it should be: if it is a claim, then one with a name. -/
def ReadableVolume (podVolume : Json) : Prop :=
  podVolume.isObject = true ∧ ∀ claim, podVolume.member "persistentVolumeClaim" = some claim →
    ∃ claimName, claim.member "claimName" = some claimName

def NamedPod (pod : Json) : Prop :=
  ∃ metadata generateName, pod.member "metadata" = some metadata ∧
    metadata.member "generateName" = some (.string generateName) ∧
    ∀ labels, metadata.member "labels" = some labels → labels.isObject = true ∧
      ∀ instanceID, labels.member "instanceID" = some instanceID → instanceID.isString = true

/-- What a pod must have so that no access to it is asserted. -/
structure ReadablePod (name : String) (pod : Json) : Prop where
  metadata : ∀ metadata, pod.member "metadata" = some metadata → metadata.isObject = true
  volumes : ∃ spec podVolumes, pod.member "spec" = some spec ∧ spec.member "volumes" = some (.array podVolumes) ∧
    ∀ podVolume ∈ podVolumes, ReadableVolume podVolume
  named : MountsClaim name pod → NamedPod pod

private theorem isText_iff {name : String} {value : Json} : isText name value = true ↔ value = .string name := by
  cases value <;> simp [isText]

/-- A volume tells whether it is the claim exactly when it is described as it should be. -/
theorem usesClaim_isSome {name : String} {podVolume : Json} :
    (usesClaim name podVolume).isSome = true ↔ ReadableVolume podVolume := by
  unfold usesClaim ReadableVolume
  cases isObject : podVolume.isObject with
  | false => simp [Json.hasMember_none isObject]
  | true =>
    rw [Json.hasMember_object isObject]
    cases podVolume.member "persistentVolumeClaim" with
    | none => simp
    | some claim => cases found : claim.member "claimName" <;> simp [found]

private theorem usesClaim_true {name : String} {podVolume : Json} : usesClaim name podVolume = some true ↔
    ∃ claim, podVolume.member "persistentVolumeClaim" = some claim ∧ claim.member "claimName" = some (.string name) := by
  unfold usesClaim
  cases isObject : podVolume.isObject with
  | false =>
    rw [Json.hasMember_none isObject]
    constructor
    · nofun
    · rintro ⟨claim, found, -⟩
      exact absurd ((Json.isObject_of_member found).symm.trans isObject) nofun
  | true =>
    rw [Json.hasMember_object isObject]
    cases podVolume.member "persistentVolumeClaim" with
    | none => simp
    | some claim => cases found : claim.member "claimName" <;> simp [found, isText_iff]

private theorem isSome_bind_return {α β : Type} (found : Option α) (f : α → β) :
    (found.bind fun value => some (f value)).isSome = found.isSome := by
  cases found <;> rfl

private theorem getString_isSome {value : Json} : value.getString.isSome = true ↔ value.isString = true := by
  cases value <;> simp [Json.getString, Json.isString]

private theorem podInstance_isSome {metadata : Json} : (podInstance metadata).isSome = true ↔ metadata.isObject = true ∧
    ∀ labels, metadata.member "labels" = some labels → labels.isObject = true ∧
      ∀ instanceID, labels.member "instanceID" = some instanceID → instanceID.isString = true := by
  unfold podInstance
  cases isObject : metadata.isObject with
  | false => simp [Json.hasMember_none isObject]
  | true =>
    rw [Json.hasMember_object isObject]
    cases metadata.member "labels" with
    | none => simp
    | some labels =>
      cases labelled : labels.isObject with
      | false => simp [labelled, Json.hasMember_none labelled]
      | true =>
        simp only [Json.hasMember_object labelled, Option.isSome_some, Option.bind_eq_bind, Option.bind_some, if_true,
          Option.some.injEq, forall_eq', labelled, true_and]
        cases labels.member "instanceID" with
        | none => simp
        | some instanceID =>
          simp only [Option.isSome_some, if_true, Option.bind_some, Option.some.injEq, forall_eq', ← getString_isSome]
          cases instanceID.getString <;> rfl

private theorem podInfo_isSome {pod : Json} : (podInfo pod).isSome = true ↔ NamedPod pod := by
  unfold podInfo NamedPod
  cases pod.member "metadata" with
  | none => simp
  | some metadata =>
    cases found : metadata.member "generateName" with
    | none => simp [found]
    | some generateName =>
      have isObject : metadata.isObject = true := Json.isObject_of_member found
      have labels := @podInstance_isSome metadata
      cases generateName <;> simp [found, Json.getString, isSome_bind_return, labels, isObject]

/-- A volume that is the claim needs a pod that can be named. -/
theorem volumeMounts_isSome {name : String} {pod podVolume : Json} : (volumeMounts name pod podVolume).isSome = true ↔
    ReadableVolume podVolume ∧ (usesClaim name podVolume = some true → NamedPod pod) := by
  rw [← @usesClaim_isSome name, ← podInfo_isSome]
  unfold volumeMounts
  cases usesClaim name podVolume with
  | none => simp
  | some used => cases used <;> simp [isSome_bind_return]

theorem anyOf_isSome {test : Option Bool} {tests : List (Option Bool)} : (anyOf (test :: tests)).isSome = true ↔
    test.isSome = true ∧ (test = some false → (anyOf tests).isSome = true) := by
  rw [anyOf]
  cases test with
  | none => simp
  | some holds => cases holds <;> simp

private theorem anyOf_false {tests : List (Option Bool)} (all : ∀ test ∈ tests, test = some false) : anyOf tests = some false := by
  induction tests with
  | nil => rfl
  | cons test tests ih =>
    rw [anyOf, all test List.mem_cons_self]
    exact ih fun other member => all other (List.mem_cons_of_mem _ member)

theorem member_isSome {name : String} {value : Json} (has : (value.hasMember name).map not = some false) :
    ∃ found, value.member name = some found := by
  obtain ⟨holds, tested, same⟩ := Option.map_eq_some_iff.mp has
  cases holds with
  | false => cases same
  | true => exact Json.member_of_hasMember tested

/-- The metadata is looked into if there is a specification, too. -/
theorem unexpectedStructure_isSome {pod : Json} (isObject : pod.isObject = true) :
    (unexpectedStructure pod).isSome = true ↔
      ∀ metadata spec, pod.member "metadata" = some metadata → pod.member "spec" = some spec → metadata.isObject = true := by
  unfold unexpectedStructure
  constructor
  · intro tested metadata spec hasMetadata hasSpec
    have metadataTest : (pod.hasMember "metadata").map not = some false := by
      rw [Json.hasMember_of_member hasMetadata]
      rfl
    have specTest : (pod.hasMember "spec").map not = some false := by
      rw [Json.hasMember_of_member hasSpec]
      rfl
    have third := (anyOf_isSome.mp ((anyOf_isSome.mp ((anyOf_isSome.mp tested).2 metadataTest)).2 specTest)).1
    rw [hasMetadata, Option.bind_eq_bind, Option.bind_some, Option.isSome_map] at third
    cases described : metadata.isObject with
    | true => rfl
    | false =>
      rw [Json.hasMember_none described] at third
      cases third
  · intro described
    have tested : ∀ {value : Json} {name : String}, value.isObject = true → ((value.hasMember name).map not).isSome = true := by
      intro value name isObject
      rw [Json.hasMember_object isObject]
      rfl
    refine anyOf_isSome.mpr ⟨tested isObject, fun hasMetadata => anyOf_isSome.mpr ⟨tested isObject, fun hasSpec => ?_⟩⟩
    obtain ⟨metadata, foundMetadata⟩ := member_isSome hasMetadata
    obtain ⟨spec, foundSpec⟩ := member_isSome hasSpec
    rw [foundMetadata, foundSpec]
    refine anyOf_isSome.mpr ⟨tested (described metadata spec foundMetadata foundSpec), fun hasName => ?_⟩
    obtain ⟨generateName, foundName⟩ := member_isSome hasName
    refine anyOf_isSome.mpr ⟨?_, fun _ => anyOf_isSome.mpr ⟨rfl, fun specified => ?_⟩⟩
    · rw [Option.bind_eq_bind, Option.bind_some, foundName]
      rfl
    have specObject : spec.isObject = true := by simpa using specified
    refine anyOf_isSome.mpr ⟨tested specObject, fun hasVolumes => anyOf_isSome.mpr ⟨?_, fun _ => rfl⟩⟩
    obtain ⟨volumes, foundVolumes⟩ := member_isSome hasVolumes
    rw [Option.bind_eq_bind, Option.bind_some, foundVolumes]
    rfl

/-- A pod that can be named and has volumes is as expected. -/
theorem unexpectedStructure_false {pod spec : Json} {volumes : List Json} (named : NamedPod pod)
    (hasSpec : pod.member "spec" = some spec) (hasVolumes : spec.member "volumes" = some (.array volumes)) :
    unexpectedStructure pod = some false := by
  obtain ⟨metadata, generateName, hasMetadata, hasName, -⟩ := named
  refine anyOf_false fun test member => ?_
  simp only [List.mem_cons, List.not_mem_nil, or_false, Json.hasMember_of_member hasMetadata, Json.hasMember_of_member hasSpec,
    hasMetadata, hasSpec, Option.bind_eq_bind, Option.bind_some, Json.hasMember_of_member hasName, hasName,
    Json.hasMember_of_member hasVolumes, hasVolumes, Option.map_some, Json.isString, Json.isArray,
    Json.isObject_of_member hasVolumes, Bool.not_true, or_self] at member
  exact member

/-- What a pod gives is what its volumes give. -/
theorem podMounts_eq_some {name : String} {pod : Json} (isObject : pod.isObject = true)
    {mounts : List (String × Option String)} : podMounts name pod = some mounts ↔
      (unexpectedStructure pod).isSome = true ∧ ∃ spec podVolumes, pod.member "spec" = some spec ∧
        spec.member "volumes" = some (.array podVolumes) ∧ collect (volumeMounts name pod) podVolumes = some mounts := by
  unfold podMounts
  rw [if_pos isObject]
  simp only [Option.bind_eq_bind, Option.bind_eq_some_iff]
  constructor
  · rintro ⟨unexpected, tested, spec, hasSpec, volumes, hasVolumes, podVolumes, array, collected⟩
    cases volumes with
    | array items =>
      cases array
      exact ⟨by rw [tested]; rfl, spec, podVolumes, hasSpec, hasVolumes, collected⟩
    | null => cases array
    | bool => cases array
    | number => cases array
    | string => cases array
    | object => cases array
  · rintro ⟨tested, spec, podVolumes, hasSpec, hasVolumes, collected⟩
    obtain ⟨unexpected, tested⟩ := Option.isSome_iff_exists.mp tested
    exact ⟨unexpected, tested, spec, hasSpec, _, hasVolumes, podVolumes, rfl, collected⟩

/-- A claim that is mounted is the one of a volume. -/
theorem mountsClaim_iff {name : String} {pod spec : Json} {podVolumes : List Json} (hasSpec : pod.member "spec" = some spec)
    (hasVolumes : spec.member "volumes" = some (.array podVolumes)) :
    MountsClaim name pod ↔ ∃ podVolume ∈ podVolumes, usesClaim name podVolume = some true := by
  simp only [MountsClaim, hasSpec, Option.some.injEq, usesClaim_true]
  constructor
  · rintro ⟨_, volumes, podVolume, claim, rfl, hasOthers, member, claims, isNamed⟩
    cases hasVolumes.symm.trans hasOthers
    exact ⟨podVolume, member, claim, claims, isNamed⟩
  · rintro ⟨podVolume, member, claim, claims, isNamed⟩
    exact ⟨spec, podVolumes, podVolume, claim, rfl, hasVolumes, member, claims, isNamed⟩

/-- A pod can be gone through exactly when it is no object or has what is looked at. -/
theorem podMounts_isSome {name : String} {pod : Json} :
    (podMounts name pod).isSome = true ↔ (pod.isObject = true → ReadablePod name pod) := by
  cases isObject : pod.isObject with
  | false => simp [podMounts, isObject]
  | true =>
    rw [Option.isSome_iff_exists]
    simp only [podMounts_eq_some isObject, forall_const]
    constructor
    · rintro ⟨mounts, tested, spec, podVolumes, hasSpec, hasVolumes, collected⟩
      have each := (collect_eq_some.mp collected).1
      refine ⟨fun metadata hasMetadata => ?_, ⟨spec, podVolumes, hasSpec, hasVolumes, fun podVolume member => ?_⟩, fun mounted => ?_⟩
      · exact (unexpectedStructure_isSome isObject).mp tested metadata spec hasMetadata hasSpec
      · exact (volumeMounts_isSome.mp (each podVolume member)).1
      · obtain ⟨podVolume, member, used⟩ := (mountsClaim_iff hasSpec hasVolumes).mp mounted
        exact (volumeMounts_isSome.mp (each podVolume member)).2 used
    · rintro ⟨metadata, ⟨spec, podVolumes, hasSpec, hasVolumes, readable⟩, named⟩
      refine ⟨_, ?_, spec, podVolumes, hasSpec, hasVolumes, collect_eq_some.mpr ⟨fun podVolume member => ?_, rfl⟩⟩
      · exact (unexpectedStructure_isSome isObject).mpr fun described _ hasMetadata _ => metadata described hasMetadata
      · exact volumeMounts_isSome.mpr ⟨readable podVolume member,
          fun used => named ((mountsClaim_iff hasSpec hasVolumes).mpr ⟨podVolume, member, used⟩)⟩

/-- A pod that was gone through gives nothing exactly when it does not mount the claim. -/
theorem podMounts_nil {name : String} {pod : Json} {mounts : List (String × Option String)}
    (gone : podMounts name pod = some mounts) : mounts = [] ↔ ¬ MountsClaim name pod := by
  cases isObject : pod.isObject with
  | false =>
    have nothing : mounts = [] := by
      rw [podMounts, isObject] at gone
      exact (Option.some.inj gone).symm
    refine ⟨fun _ => ?_, fun _ => nothing⟩
    rintro ⟨spec, _, _, _, hasSpec, -⟩
    exact absurd ((Json.isObject_of_member hasSpec).symm.trans isObject) nofun
  | true =>
    obtain ⟨-, spec, podVolumes, hasSpec, hasVolumes, collected⟩ := (podMounts_eq_some isObject).mp gone
    obtain ⟨all, rfl⟩ := collect_eq_some.mp collected
    rw [mountsClaim_iff hasSpec hasVolumes, List.flatMap_eq_nil_iff]
    constructor
    · rintro none_ ⟨podVolume, member, used⟩
      have nothing := none_ podVolume member
      have given := all podVolume member
      unfold volumeMounts at nothing given
      rw [used] at nothing given
      cases info : podInfo pod with
      | none => simp [info] at given
      | some info_ => simp [info] at nothing
    · intro unused podVolume member
      have given := all podVolume member
      unfold volumeMounts at given ⊢
      cases used : usesClaim name podVolume with
      | none => simp [used] at given
      | some holds =>
        cases holds with
        | true => exact absurd ⟨podVolume, member, used⟩ unused
        | false => rfl

def usablePod (pod : Json) : Bool := pod.isObject && unexpectedStructure pod == some false

/-- The same list without the pods whose structure cannot be used. -/
def withUsable (podData : Json) : Json :=
  match listedPods podData with
  | some pods => .object [("items", .array (pods.filter usablePod))]
  | none => podData

theorem podsMountedBy_listed {name : String} {podData : Json} {pods : List Json} (listed : listedPods podData = some pods) :
    podsMountedBy name podData = collect (podMounts name) pods := by
  unfold listedPods at listed
  obtain ⟨items, found, array⟩ := Option.bind_eq_some_iff.mp listed
  rw [podsMountedBy, found, Option.bind_eq_bind, Option.bind_some, array]
  rfl

/-- The list can be gone through exactly when there is one, and each of its pods can be. -/
theorem podsMountedBy_isSome {name : String} {podData : Json} : (podsMountedBy name podData).isSome = true ↔
    ∃ pods, listedPods podData = some pods ∧ ∀ pod ∈ pods, pod.isObject = true → ReadablePod name pod := by
  cases listed : listedPods podData with
  | some pods =>
    rw [podsMountedBy_listed listed, collect_isSome]
    simp only [podMounts_isSome, Option.some.injEq, exists_eq_left']
  | none =>
    have nothing : podsMountedBy name podData = none := by
      unfold listedPods at listed
      unfold podsMountedBy
      cases found : podData.member "items" with
      | none => rfl
      | some items =>
        rw [found] at listed
        rw [Option.bind_eq_bind, Option.bind_some, show items.getArray = none from listed]
        rfl
    simp [nothing]

private theorem podsMountedBy_nil {name : String} {podData : Json} {pods : List Json} {mounts : List (String × Option String)}
    (listed : listedPods podData = some pods) (gone : podsMountedBy name podData = some mounts) :
    mounts = [] ↔ ∀ pod ∈ pods, ¬ MountsClaim name pod := by
  rw [podsMountedBy_listed listed] at gone
  obtain ⟨all, rfl⟩ := collect_eq_some.mp gone
  rw [List.flatMap_eq_nil_iff]
  refine forall₂_congr fun pod member => ?_
  obtain ⟨mounts, given⟩ := Option.isSome_iff_exists.mp (all pod member)
  rw [given, Option.getD_some, podMounts_nil given]

/-- A pod whose structure cannot be used does not matter. -/
theorem podMounts_unusable {name : String} {pod : Json} (gone : (podMounts name pod).isSome = true)
    (unusable : usablePod pod = false) : podMounts name pod = some [] := by
  obtain ⟨mounts, given⟩ := Option.isSome_iff_exists.mp gone
  rw [given]
  refine congrArg some ((podMounts_nil given).mpr fun mounted => ?_)
  have ⟨spec, volumes, _, _, hasSpec, hasVolumes, _⟩ := mounted
  have isObject := Json.isObject_of_member hasSpec
  have named := (podMounts_isSome.mp gone isObject).named mounted
  rw [usablePod, isObject, unexpectedStructure_false named hasSpec hasVolumes] at unusable
  cases unusable

/-- Where the list can be gone through, the pods that cannot be used are as good as skipped. -/
theorem podsMountedBy_withUsable {name : String} {podData : Json} (gone : (podsMountedBy name podData).isSome = true) :
    podsMountedBy name (withUsable podData) = podsMountedBy name podData := by
  obtain ⟨mounts, given⟩ := Option.isSome_iff_exists.mp gone
  obtain ⟨pods, listed, -⟩ := podsMountedBy_isSome.mp gone
  have filtered : listedPods (withUsable podData) = some (pods.filter usablePod) := by
    rw [withUsable, listed]
    rfl
  rw [podsMountedBy_listed filtered, given]
  rw [podsMountedBy_listed listed] at given
  refine collect_filter given fun pod member unusable => ?_
  exact podMounts_unusable ((collect_eq_some.mp given).1 pod member) unusable

section
variable {outside : Outside} {parse : String → Json} {volume : PersistentVolumeClaim} {force : Bool} {server : Server}

/-- The claim is gone from its cluster, or its record from the store. -/
def ClaimRemoved (id : String) (server : Server) (after : ClaimWorld) : Prop :=
  after.withdrawn = true ∨
    (server.database.volumes.lookup id).isSome = true ∧ after.server.database.volumes.lookup id = none

/-- The list of pods was obtained, and none of them mounts the claim. -/
def MayRemove (outside : Outside) (parse : String → Json) (volume : PersistentVolumeClaim) (server : Server) : Prop :=
  ∃ group between configPath last podResult pods, findGroupByID volume.group server = .ok group between ∧
    configPathForCluster volume.cluster between = .ok configPath last ∧
    outside.kubectlAnswer configPath (podsArguments group.namespaceName) = .ok podResult ∧ podResult.status = 0 ∧
    listedPods (parse podResult.output) = some pods ∧ ∀ pod ∈ pods, ¬ MountsClaim volume.name pod

/-- No assertion fails, what is removed may be removed, and after an error the record is still there. -/
def EndsSafely (id : String) (server : Server) (may : Prop) (program : ClaimM String) (world : ClaimWorld) : Prop :=
  Ends program world
    (fun result after => (ClaimRemoved id server after → may) ∧
      (result ≠ "" → after.server.database.volumes.lookup id = server.database.volumes.lookup id))
    fun fault after => fault ≠ .assertion ∧ (ClaimRemoved id server after → may)

/-- The deletion ends as it should. Pods are skipped whose structure cannot be used, and no others. -/
structure GuardsClaim (outside : Outside) (parse : String → Json) (volume : PersistentVolumeClaim) (force : Bool)
    (server : Server) : Prop where
  ends : EndsSafely volume.id server (MayRemove outside parse volume server)
    (deleteReachableClaim outside parse volume force) { server }
  skips : deleteReachableClaim outside (fun output => withUsable (parse output)) volume force { server } =
    deleteReachableClaim outside parse volume force { server }

def StoreRemoves (id : String) (server : Server) : Prop :=
  server.outcomes 0 = true ∧ (server.database.volumes.lookup id).isSome = true

/-- Nothing is removed after this exception. -/
def HarmlessAfter (id message : String) (force : Bool) (server : Server) : Prop :=
  message = keyNotFound ∨ force = false ∨ ¬ StoreRemoves id server

/-- Nothing is removed after an answer to the request to delete the claim from its cluster. -/
def HarmlessAnswer (id : String) (force : Bool) (server : Server) : Except String CommandResult → Prop
  | .error message => HarmlessAfter id message force server
  | .ok deletionResult => deletionResult.status ≠ 0 ∧ (force = false ∨ ¬ StoreRemoves id server)

/-- The list that is looked at is one that can be gone through, and was obtained if something is removed;
without such a list, nothing is removed. -/
def Guarded (outside : Outside) (parse : String → Json) (volume : PersistentVolumeClaim) (force : Bool)
    (server : Server) : Prop :=
  match findGroupByID volume.group server with
  | .error _ _ => True
  | .ok group between =>
    match configPathForCluster volume.cluster between with
    | .error message last => HarmlessAfter volume.id message force last
    | .ok configPath last =>
      match outside.kubectlAnswer configPath (podsArguments group.namespaceName) with
      | .error message => HarmlessAfter volume.id message force last
      | .ok podResult => ∃ pods, listedPods (parse podResult.output) = some pods ∧
        (∀ pod ∈ pods, pod.isObject = true → ReadablePod volume.name pod) ∧
        (podResult.status = 0 ∨ (∃ pod ∈ pods, MountsClaim volume.name pod) ∨
          HarmlessAnswer volume.id force last
            (outside.kubectlAnswer configPath (pvcArguments volume group.namespaceName)))

theorem ends_inStore {α : Type} (program : StoreM α) (world : ClaimWorld) (post : α → ClaimWorld → Prop)
    (thrown : ClaimFault → ClaimWorld → Prop) : Ends (inStore program) world post thrown ↔
      Ends program world.server (fun value server => post value { world with server })
        fun message server => thrown (.thrown message) { world with server } := by
  unfold Ends inStore
  cases program world.server <;> rfl

/-- What a removal of the record does, and what may be removed then. -/
theorem endsSafely_removeClaim {world : ClaimWorld} {may : Prop} (same : world.server.database = server.database) :
    EndsSafely volume.id server may (removeClaim volume) world ↔
      (world.withdrawn = true ∨ StoreRemoves volume.id world.server → may) := by
  unfold EndsSafely
  unfold removeClaim removePersistentVolumeClaim modifyVolumes StoreRemoves ClaimRemoved
  simp only [ends_bind, ends_inStore, ends_modify, ends_request, ends_ite, ends_pure]
  cases world.server.outcomes 0 with
  | true =>
    have erased : AList.lookup volume.id (AList.erase volume.id server.database.volumes) = none := by
      rw [FiniteMap.lookup_erase, if_pos rfl]
    simp only [if_true, answered_database, same, erased, and_true, true_and, ne_eq, not_true_eq_false, false_implies]
  | false =>
    have kept : ¬ ((AList.lookup volume.id server.database.volumes).isSome = true ∧
        AList.lookup volume.id server.database.volumes = none) := by
      rintro ⟨present, absent⟩
      rw [absent] at present
      cases present
    simp only [Bool.false_eq_true, if_false, answered_database, same, kept, or_false, false_and, implies_true, and_true]

theorem not_removed {after : ClaimWorld} (kept : after.withdrawn = false) (same : after.server.database = server.database)
    {id : String} : ¬ ClaimRemoved id server after := by
  rintro (withdrawn | ⟨present, absent⟩)
  · exact absurd (withdrawn.symm.trans kept) nofun
  · rw [same] at absent
    rw [absent] at present
    cases present

/-- What is left to do when the claim has been withdrawn from its cluster, or has not. -/
def finishDeletion (volume : PersistentVolumeClaim) (failure : String) : ClaimM String :=
  if failure ≠ "" then return failure else removeClaim volume

theorem endsSafely_failure {world : ClaimWorld} {may : Prop} (kept : world.withdrawn = false)
    (same : world.server.database = server.database) {failure : String} (failed : failure ≠ "") :
    EndsSafely volume.id server may (finishDeletion volume failure) world := by
  rw [finishDeletion, if_pos failed]
  exact ⟨fun removed => absurd removed (not_removed kept same), fun _ => by rw [same]⟩

/-- After an exception, the record is only removed if that is forced. -/
theorem endsSafely_caught {world : ClaimWorld} {may : Prop} (kept : world.withdrawn = false)
    (same : world.server.database = server.database) (message : String) :
    EndsSafely volume.id server may
      ((if message = keyNotFound then throw (.thrown message)
        else return if force then "" else "Failed to delete volume from kubernetes") >>= finishDeletion volume) world ↔
      HarmlessAfter volume.id message force world.server ∨ may := by
  unfold HarmlessAfter
  by_cases missing : message = keyNotFound
  · rw [if_pos missing]
    exact ⟨fun _ => Or.inl (Or.inl missing), fun _ => ⟨nofun, fun removed => absurd removed (not_removed kept same)⟩⟩
  · rw [if_neg missing, pure_bind]
    cases force with
    | false =>
      simp only [Bool.false_eq_true, if_false, true_or, or_true, iff_true]
      exact endsSafely_failure kept same (by decide)
    | true =>
      rw [if_pos rfl, finishDeletion, if_neg (not_not_intro rfl), endsSafely_removeClaim same, kept]
      simp [missing, imp_iff_not_or]

/-- A deletion goes on after what was returned or caught, but not after an assertion. -/
theorem endsSafely_catch {program handler : ClaimM String} {world : ClaimWorld} {may : Prop} :
    EndsSafely volume.id server may (catchThrown program handler >>= finishDeletion volume) world ↔
      Ends program world (fun failure after => EndsSafely volume.id server may (finishDeletion volume failure) after)
        fun fault after => ∃ message, fault = .thrown message ∧ EndsSafely volume.id server may
          ((if message = keyNotFound then throw (.thrown message) else handler) >>= finishDeletion volume) after := by
  unfold EndsSafely catchThrown
  rw [ends_bind, ends_tryCatch]
  refine ⟨fun ends => ends.mono (fun _ _ => id) ?_, fun ends => ends.mono (fun _ _ => id) ?_⟩
  · intro fault after caught
    cases fault with
    | thrown message =>
      refine ⟨message, rfl, ?_⟩
      rw [ends_bind]
      exact caught
    | assertion => exact absurd rfl caught.1
  · rintro fault after ⟨message, rfl, caught⟩
    rw [ends_bind] at caught
    exact caught

/-- What may happen when the cluster is asked to delete the claim. -/
theorem endsSafely_deleteFromCluster {world : ClaimWorld} {may : Prop} (kept : world.withdrawn = false)
    (same : world.server.database = server.database) (configPath nspace : String) :
    EndsSafely volume.id server may (catchThrown (deleteFromCluster outside volume force configPath nspace)
      (return if force then "" else "Failed to delete volume from kubernetes") >>= finishDeletion volume) world ↔
      HarmlessAnswer volume.id force world.server (outside.kubectlAnswer configPath (pvcArguments volume nspace)) ∨ may := by
  rw [endsSafely_catch]
  unfold deleteFromCluster
  rw [ends_bind, ends_inStore, kubectl_answer]
  cases outside.kubectlAnswer configPath (pvcArguments volume nspace) with
  | error message =>
    rw [ofExcept, ends_throw]
    simp only [ClaimFault.thrown.injEq, exists_eq_left']
    exact endsSafely_caught kept same message
  | ok deletionResult =>
    rw [ofExcept, ends_pure, HarmlessAnswer]
    split
    next deleted =>
      simp only [ends_bind, ends_modify, ends_pure]
      rw [finishDeletion, if_neg (not_not_intro rfl)]
      refine (@endsSafely_removeClaim volume server ⟨world.server, true⟩ may same).trans ?_
      simp [deleted]
    next undeleted =>
      rw [ends_pure]
      cases force with
      | false =>
        simp only [Bool.false_eq_true, if_false, undeleted, not_false_eq_true, true_or, and_self, iff_true, ne_eq]
        exact endsSafely_failure kept same (by decide)
      | true =>
        rw [if_pos rfl, finishDeletion, if_neg (not_not_intro rfl)]
        refine (endsSafely_removeClaim same).trans ?_
        simp [undeleted, kept, imp_iff_not_or]

/-- A text that is only added to does not become empty. -/
theorem foldl_append_ne {α : Type} (added : α → String) (items : List α) {text : String} (some_ : text ≠ "") :
    items.foldl (fun text item => text ++ added item) text ≠ "" := by
  induction items generalizing text with
  | nil => exact some_
  | cons item items ih =>
    apply ih
    intro empty
    exact some_ (String.append_eq_empty_iff.mp empty).1

private theorem mountedError_ne (pods : List (String × Option String)) : mountedError pods ≠ "" := by
  unfold mountedError
  simp only [String.append_assoc]
  apply foldl_append_ne
  decide

/-- The withdrawal of a claim and what follows it, once the group is known. -/
theorem endsSafely_withdrawClaim {between : Server} {may : Prop} (same : between.database = server.database) (group : Group) :
    EndsSafely volume.id server may (catchThrown (withdrawClaim outside parse volume force group)
      (return if force then "" else "Failed to delete volume from kubernetes") >>= finishDeletion volume) { server := between } ↔
      match configPathForCluster volume.cluster between with
      | .error message last => HarmlessAfter volume.id message force last ∨ may
      | .ok configPath last =>
        match outside.kubectlAnswer configPath (podsArguments group.namespaceName) with
        | .error message => HarmlessAfter volume.id message force last ∨ may
        | .ok podResult => ∃ mounts, podsMountedBy volume.name (parse podResult.output) = some mounts ∧
          (mounts ≠ [] ∨ HarmlessAnswer volume.id force last
            (outside.kubectlAnswer configPath (pvcArguments volume group.namespaceName)) ∨ may) := by
  rw [endsSafely_catch]
  unfold withdrawClaim
  rw [ends_bind, ends_inStore, Ends]
  have configuring := leads_configPathForCluster looking_keepsTables volume.cluster between
  unfold Ends at configuring
  cases configured : configPathForCluster volume.cluster between with
  | error message last =>
    rw [configured] at configuring
    have kept : last.database = server.database := Eq.trans configuring same
    simp only [ClaimFault.thrown.injEq, exists_eq_left']
    exact endsSafely_caught rfl kept message
  | ok configPath last =>
    rw [configured] at configuring
    have kept : last.database = server.database := Eq.trans configuring same
    dsimp only
    rw [ends_bind, ends_inStore, kubectl_answer]
    cases outside.kubectlAnswer configPath (podsArguments group.namespaceName) with
    | error message =>
      rw [ofExcept, ends_throw]
      simp only [ClaimFault.thrown.injEq, exists_eq_left']
      exact endsSafely_caught rfl kept message
    | ok podResult =>
      rw [ofExcept, ends_pure, ends_bind]
      dsimp only
      cases podsMountedBy volume.name (parse podResult.output) with
      | none =>
        rw [asserting, ends_throw]
        simp
      | some mounts =>
        rw [asserting, ends_pure]
        simp only [Option.some.injEq, exists_eq_left']
        split
        next mounted =>
          rw [ends_pure]
          exact ⟨fun _ => Or.inl mounted, fun _ => endsSafely_failure rfl kept (mountedError_ne mounts)⟩
        next nothing =>
          rw [← endsSafely_catch]
          refine (endsSafely_deleteFromCluster rfl kept configPath group.namespaceName).trans ?_
          exact (or_iff_right nothing).symm

private theorem endsSafely_deleteReachableClaim : EndsSafely volume.id server (MayRemove outside parse volume server)
    (deleteReachableClaim outside parse volume force) { server } ↔ Guarded outside parse volume force server := by
  unfold deleteReachableClaim Guarded
  change EndsSafely _ _ _ (inStore (findGroupByID volume.group) >>= fun group =>
    catchThrown (withdrawClaim outside parse volume force group) _ >>= finishDeletion volume) _ ↔ _
  have finding := leads_findGroupByID looking_keepsTables.toLookingGroups.caching volume.group server
  unfold Ends at finding
  rw [EndsSafely, ends_bind, ends_inStore, Ends]
  cases found : findGroupByID volume.group server with
  | error message after =>
    rw [found] at finding
    have kept : after.database = server.database := finding
    exact ⟨fun _ => trivial, fun _ => ⟨(fun impossible => by cases impossible), fun removed => absurd removed (not_removed rfl kept)⟩⟩
  | ok group between =>
    rw [found] at finding
    refine (endsSafely_withdrawClaim finding group).trans ?_
    have may : MayRemove outside parse volume server → ∃ configPath last podResult pods,
        configPathForCluster volume.cluster between = .ok configPath last ∧
        outside.kubectlAnswer configPath (podsArguments group.namespaceName) = .ok podResult ∧ podResult.status = 0 ∧
        listedPods (parse podResult.output) = some pods ∧ ∀ pod ∈ pods, ¬ MountsClaim volume.name pod := by
      rintro ⟨other, middle, configPath, last, podResult, pods, foundOther, rest⟩
      cases found.symm.trans foundOther
      exact ⟨configPath, last, podResult, pods, rest⟩
    dsimp only
    cases configured : configPathForCluster volume.cluster between with
    | error message last =>
      refine or_iff_left fun allowed => ?_
      obtain ⟨configPath, _, _, _, configuredToo, -⟩ := may allowed
      cases configured.symm.trans configuredToo
    | ok configPath last =>
      dsimp only
      cases answered : outside.kubectlAnswer configPath (podsArguments group.namespaceName) with
      | error message =>
        refine or_iff_left fun allowed => ?_
        obtain ⟨_, _, _, _, configuredToo, answeredToo, -⟩ := may allowed
        cases configured.symm.trans configuredToo
        cases answered.symm.trans answeredToo
      | ok podResult =>
        dsimp only
        constructor
        · rintro ⟨mounts, gone, safe⟩
          obtain ⟨pods, listed, readable⟩ := podsMountedBy_isSome.mp (Option.isSome_iff_exists.mpr ⟨mounts, gone⟩)
          refine ⟨pods, listed, readable, ?_⟩
          rcases safe with mounted | harmless | allowed
          · right
            left
            by_contra unmounted
            exact mounted ((podsMountedBy_nil listed gone).mpr fun pod member mounts => unmounted ⟨pod, member, mounts⟩)
          · exact Or.inr (Or.inr harmless)
          · obtain ⟨_, _, _, _, configuredToo, answeredToo, obtained, -⟩ := may allowed
            cases configured.symm.trans configuredToo
            cases answered.symm.trans answeredToo
            exact Or.inl obtained
        · rintro ⟨pods, listed, readable, safe⟩
          obtain ⟨mounts, gone⟩ := Option.isSome_iff_exists.mp (podsMountedBy_isSome.mpr ⟨pods, listed, readable⟩)
          refine ⟨mounts, gone, ?_⟩
          by_cases nothing : mounts = []
          · have unmounted := (podsMountedBy_nil listed gone).mp nothing
            right
            rcases safe with obtained | ⟨pod, member, mounted⟩ | harmless
            · exact Or.inr ⟨group, between, configPath, last, podResult, pods, found, configured, answered, obtained, listed,
                unmounted⟩
            · exact absurd mounted (unmounted pod member)
            · exact Or.inl harmless
          · exact Or.inl nothing

theorem inStore_ok {α : Type} {program : StoreM α} {world after : ClaimWorld} {value : α}
    (ran : inStore program world = .ok value after) : program world.server = .ok value after.server := by
  unfold inStore at ran
  cases result : program world.server with
  | ok other server =>
    rw [result] at ran
    cases ran
    rfl
  | error message server =>
    rw [result] at ran
    cases ran

/-- Where the deletion ends as it should, pods that cannot be used are skipped. -/
theorem deleteReachableClaim_skips (guarded : Guarded outside parse volume force server) :
    deleteReachableClaim outside (fun output => withUsable (parse output)) volume force { server } =
      deleteReachableClaim outside parse volume force { server } := by
  unfold deleteReachableClaim
  refine bind_at fun group between found => ?_
  have withdrawn : withdrawClaim outside (fun output => withUsable (parse output)) volume force group between =
      withdrawClaim outside parse volume force group between := by
    refine bind_at fun configPath last configured => bind_at fun podResult after answered => ?_
    have answer : outside.kubectlAnswer configPath (podsArguments group.namespaceName) = .ok podResult := by
      have ran := inStore_ok answered
      rw [kubectl_answer] at ran
      cases given : outside.kubectlAnswer configPath (podsArguments group.namespaceName) with
      | ok other =>
        rw [given] at ran
        exact congrArg Except.ok (EStateM.Result.ok.inj ran).1
      | error message =>
        rw [given] at ran
        cases ran
    unfold Guarded at guarded
    rw [inStore_ok found] at guarded
    dsimp only at guarded
    rw [inStore_ok configured] at guarded
    dsimp only at guarded
    rw [answer] at guarded
    obtain ⟨pods, listed, readable, -⟩ := guarded
    dsimp only
    rw [podsMountedBy_withUsable (podsMountedBy_isSome.mpr ⟨pods, listed, readable⟩)]
  have caught : ∀ handler, catchThrown (withdrawClaim outside (fun output => withUsable (parse output)) volume force group)
      handler between = catchThrown (withdrawClaim outside parse volume force group) handler between := by
    intro handler
    unfold catchThrown
    cases ran : withdrawClaim outside parse volume force group between with
    | ok value after => rw [tryCatch_returned ran, tryCatch_returned (withdrawn.trans ran)]
    | error fault after => rw [tryCatch_thrown ran, tryCatch_thrown (withdrawn.trans ran)]
  simp only [bind, EStateM.bind, caught]

/-- The list of pods guards a claim exactly when it can be gone through and was obtained, or nothing is
removed without it. -/
theorem guardsClaim_iff (outside : Outside) (parse : String → Json) (volume : PersistentVolumeClaim) (force : Bool)
    (server : Server) : GuardsClaim outside parse volume force server ↔ Guarded outside parse volume force server :=
  ⟨fun guards => endsSafely_deleteReachableClaim.mp guards.ends, fun guarded =>
    ⟨endsSafely_deleteReachableClaim.mpr guarded, deleteReachableClaim_skips guarded⟩⟩

end

/-- Up to an assertion that fails, the program does what the other one does with the server,
which gives its value in another form. -/
def DoesAs {α β : Type} (form : α → β) (program : ClaimM α) (other : StoreM β) : Prop :=
  ∀ world, Ends program world (fun value after => other world.server = .ok (form value) after.server)
    fun fault after => ∀ message, fault = .thrown message → other world.server = .error message after.server

namespace DoesAs
variable {α β γ δ : Type} {form : α → β} {formed : γ → δ}

theorem pure (value : α) : DoesAs form (Pure.pure value) (Pure.pure (form value)) := fun _ => rfl

theorem inStore (program : StoreM α) : DoesAs id (inStore program) program := by
  intro world
  rw [ends_inStore]
  unfold Ends
  cases program world.server with
  | ok value server => rfl
  | error message server => exact fun other same => congrArg (EStateM.Result.error · server) (ClaimFault.thrown.inj same)

theorem asserted (next : α → ClaimM γ) (other : StoreM δ) : DoesAs formed (asserting none >>= next) other :=
  fun _ _ => nofun

theorem bind {program : ClaimM α} {other : StoreM β} {next : α → ClaimM γ} {after : β → StoreM δ}
    (first : DoesAs form program other) (rest : ∀ value, DoesAs formed (next value) (after (form value))) :
    DoesAs formed (program >>= next) (other >>= after) := by
  intro world
  rw [ends_bind]
  refine (first world).mono (fun value middle ran => ?_) fun fault middle ran message thrown => ?_
  · refine (rest value middle).mono (fun result last done => ?_) fun fault last done message thrown => ?_
    · simp only [Bind.bind, EStateM.bind, ran, done]
    · simp only [Bind.bind, EStateM.bind, ran, done message thrown]
  · simp only [Bind.bind, EStateM.bind, ran message thrown]

theorem ite {condition : Prop} [Decidable condition] {first second : ClaimM α} {third fourth : StoreM β}
    (yes : DoesAs form first third) (no : DoesAs form second fourth) :
    DoesAs form (if condition then first else second) (if condition then third else fourth) := by
  split
  · exact yes
  · exact no

theorem catchThrown {program handler : ClaimM α} {other : StoreM β} {otherHandler : StoreM β}
    (first : DoesAs form program other) (rest : DoesAs form handler otherHandler) :
    DoesAs form (catchThrown program handler) (catchRuntimeError other fun _ => otherHandler) := by
  intro world
  unfold Slate.catchThrown catchRuntimeError
  rw [ends_tryCatch]
  refine (first world).mono (fun value middle ran => ?_) fun fault middle ran => ?_
  · rw [tryCatch_returned ran]
  · cases fault with
    | assertion =>
      intro _ impossible
      cases impossible
    | thrown message =>
      rw [tryCatch_thrown (ran message rfl)]
      dsimp only
      split
      · exact fun other same => congrArg (EStateM.Result.error · middle.server) (ClaimFault.thrown.inj same)
      · exact rest middle

end DoesAs

variable {outside : Outside} {parse : String → Json} {volume : PersistentVolumeClaim} {force : Bool}

private theorem deleteFromCluster_doesAs (configPath nspace : String) :
    DoesAs some (deleteFromCluster outside volume force configPath nspace) (do
      let deletionResult ← kubectl outside configPath (pvcArguments volume nspace)
      return some (if deletionResult.status ≠ 0 ∧ !force then "Failed to delete volume from kubernetes" else "")) := by
  unfold deleteFromCluster
  refine (DoesAs.inStore _).bind fun deletionResult => ?_
  dsimp only [id]
  split
  next deleted =>
    simp only [deleted, ne_eq, not_true_eq_false, false_and, if_false]
    exact fun _ => rfl
  next undeleted =>
    simp only [undeleted, ne_eq, not_false_eq_true, true_and, Bool.not_eq_true']
    cases force <;> exact DoesAs.pure _

private theorem withdrawClaim_doesAs (group : Group) :
    DoesAs some (withdrawClaim outside parse volume force group) (withdrawVolume outside parse volume group force) := by
  unfold withdrawClaim withdrawVolume
  refine (DoesAs.inStore _).bind fun configPath => (DoesAs.inStore _).bind fun podResult => ?_
  dsimp only [id]
  cases podsMountedBy volume.name (parse podResult.output) with
  | none => exact .asserted _ _
  | some pods =>
    cases pods with
    | nil => exact deleteFromCluster_doesAs configPath group.namespaceName
    | cons pod rest => exact DoesAs.pure (mountedError (pod :: rest))

/-- Unless an assertion fails, the server is left as by the deletion that other parts of the server use. -/
theorem deleteReachableClaim_doesAs :
    DoesAs id (deleteReachableClaim outside parse volume force) (deleteVolumeClaim outside parse volume force true) := by
  unfold deleteReachableClaim deleteVolumeClaim
  rw [if_pos rfl]
  refine (DoesAs.inStore _).bind fun group => ?_
  refine ((withdrawClaim_doesAs group).catchThrown (DoesAs.pure _)).bind fun failure => ?_
  refine DoesAs.ite (DoesAs.pure failure) ((DoesAs.inStore _).bind fun success => ?_)
  cases success <;> exact DoesAs.pure _

def podWithoutVolumes : Json :=
  .object [("items", .array [.object [("metadata", .object [("generateName", .string "web-")]), ("spec", .object [])]])]

/-- The pod should be skipped, but its volumes are gone through. -/
theorem pod_without_volumes_asserted : ¬ ∀ outside parse volume force server, GuardsClaim outside parse volume force server := by
  intro all
  have ends := (all (.always {}) (fun _ => podWithoutVolumes) { cluster := clusterInUse.id } false serverInUse).ends
  have asserted : (match deleteReachableClaim (.always {}) (fun _ => podWithoutVolumes) { cluster := clusterInUse.id } false
      { server := serverInUse } with
    | .error .assertion _ => true
    | _ => false) = true := by decide +kernel
  unfold EndsSafely Ends at ends
  split at asserted
  next ran =>
    rw [ran] at ends
    exact ends.1 rfl
  next => cases asserted

end Slate
