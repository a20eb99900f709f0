import Slate.HelmValues

/-! Which groups can put a value of their own among those that every application is
installed with. -/

namespace Slate
open Library Handler Separators

/-- A group that was made by a request, and then changed by any number of them. -/
inductive AcceptedGroup : Group → Prop
  | created {user : User} {value : UInt64} {body : Json} {group : Group} {before after : Server}
      (accepted : requestedGroup user value body before = .ok group after) : AcceptedGroup group
  | updated {targetGroup group : Group} {body : Json} {doUpdate : Bool} {before after : Server}
      (earlier : AcceptedGroup targetGroup)
      (accepted : requestedGroupUpdate targetGroup body before = .ok (group, doUpdate) after) : AcceptedGroup group

def AcceptedCluster (cluster : Cluster) : Prop :=
  ∃ kubeconfig user value body before after, requestedCluster kubeconfig user value body before = .ok cluster after

/-- An instance that was installed by a request, on a cluster that was made by one. -/
def AcceptedInstance (applicationInstance : ApplicationInstance) : Prop :=
  ∃ value appName installSrc tag config ctime group cluster before after, AcceptedCluster cluster ∧
    requestedInstance value appName installSrc tag config ctime group cluster before = .ok applicationInstance after

/-- A text that has no part in the grammar of the values. -/
def Plain (text : String) : Prop := ',' ∉ text.toList ∧ '\\' ∉ text.toList

/-- Each comma of a text has a backslash before it. -/
def NoSeparator (text : String) : Prop := Guarded ',' '\\' false text.toList

/-- What must hold of the texts that no handler looks at. -/
structure Unseparated (store : ServerConfiguration) (group : Group) : Prop where
  email : NoSeparator group.email
  loggingServer : NoSeparator store.appLoggingServerName
  loggingEnd : store.appLoggingServerName.toList.getLast? ≠ some '\\'
  domain : NoSeparator store.baseDomain
  domainEnd : store.baseDomain.toList.getLast? ≠ some '\\'

theorem plain_of_all {text : String} (accepts : Char → Bool) (all : text.toList.all accepts = true)
    (comma : accepts ',' = false) (backslash : accepts '\\' = false) : Plain text := by
  constructor
  · intro member
    rw [List.all_eq_true.mp all _ member] at comma
    cases comma
  · intro member
    rw [List.all_eq_true.mp all _ member] at backslash
    cases backslash

theorem plain_append {first second : String} (left : Plain first) (right : Plain second) : Plain (first ++ second) := by
  rw [Plain, String.toList_append, List.mem_append, List.mem_append]
  exact ⟨not_or.mpr ⟨left.1, right.1⟩, not_or.mpr ⟨left.2, right.2⟩⟩

private theorem plain_generateRawID (value : UInt64) : Plain (generateRawID value) := by
  have inAlphabet : ∀ index, base64Text.getD index 'A' ∈ base64Text := by
    intro index
    rw [List.getD_eq_getElem?_getD]
    cases found : base64Text[index]? with
    | none => exact List.mem_of_elem_eq_true (by decide)
    | some c => exact List.mem_of_getElem? found
  have alphabet : (base64Text.map fileNameSafe).contains ',' = false ∧ (base64Text.map fileNameSafe).contains '\\' = false :=
    ⟨rfl, rfl⟩
  have among : ∀ c, c ∈ (generateRawID value).toList → c ∈ base64Text.map fileNameSafe := by
    intro c member
    rw [generateRawID, String.toList_ofList] at member
    obtain ⟨i, -, rfl⟩ := List.mem_map.mp member
    exact List.mem_map_of_mem (inAlphabet _)
  rw [← Bool.not_eq_true, ← Bool.not_eq_true, List.contains_iff_mem, List.contains_iff_mem] at alphabet
  exact ⟨fun member => alphabet.1 (among _ member), fun member => alphabet.2 (among _ member)⟩

private theorem yields_checkGroupName (name : String) (server : Server) :
    Yields (checkGroupName name) server fun _ _ => validTagGroupName name = true := by
  unfold checkGroupName
  refine Yields.after fun _ server => ?_
  simp only [yields_bind, yields_require, Option.some.injEq]
  intro valid _ _ _
  exact (Yields.trivial _ _).mono fun _ _ _ _ => valid

private theorem yields_requestedGroup (user : User) (value : UInt64) (body : Json) (server : Server) :
    Yields (requestedGroup user value body) server fun group _ => validTagGroupName group.name = true := by
  unfold requestedGroup
  refine Yields.after fun metadata _ => Yields.after fun _ _ => Yields.after fun _ _ => Yields.after fun _ _ => ?_
  refine Yields.after fun _ _ => Yields.after fun _ _ => Yields.after fun name server => ?_
  rw [yields_bind]
  refine (yields_checkGroupName name server).mono fun _ after valid => ?_
  exact Yields.after fun _ _ => valid

private theorem yields_requestedGroupUpdate (targetGroup : Group) (body : Json) (server : Server) :
    Yields (requestedGroupUpdate targetGroup body) server fun answer _ => answer.1.name = targetGroup.name := by
  unfold requestedGroupUpdate
  refine Yields.after fun metadata _ => Yields.after fun email _ => Yields.after fun phone _ => ?_
  exact Yields.after fun scienceField _ => Yields.after fun description _ => rfl

/-- A group that is answered as created has been accepted. -/
theorem yields_createGroup (user : User) (value : UInt64) (body : Json) (server : Server) :
    Yields (createGroup user value body) server fun response _ => ∃ group, AcceptedGroup group ∧ response = groupResponse group := by
  unfold createGroup
  refine Yields.after fun _ before => ?_
  rw [yields_bind]
  refine Yields.of_ran fun group after accepted => ?_
  refine Yields.after fun _ _ => Yields.after fun _ _ => Yields.after fun _ _ => Yields.after fun _ _ => ?_
  exact ⟨group, .created accepted, rfl⟩

theorem AcceptedGroup.name {group : Group} (accepted : AcceptedGroup group) : Plain group.name := by
  induction accepted with
  | @created user value body group before after accepted =>
    exact plain_of_all _ ((yields_requestedGroup user value body before).of_ok accepted) (by decide) (by decide)
  | @updated targetGroup group body doUpdate before after earlier accepted plain =>
    have same : group.name = targetGroup.name := (yields_requestedGroupUpdate targetGroup body before).of_ok accepted
    rwa [same]

private theorem yields_requestedCluster (kubeconfig : String → String → String → String → Option String) (user : User)
    (value : UInt64) (body : Json) (server : Server) : Yields (requestedCluster kubeconfig user value body) server
      fun cluster _ => validDnsToken cluster.name = true ∧ cluster.id = generateClusterID value := by
  unfold requestedCluster
  refine Yields.after fun metadata _ => Yields.after fun _ _ => Yields.after fun _ _ => Yields.after fun _ _ => ?_
  refine Yields.after fun _ _ => Yields.after fun _ _ => Yields.after fun _ _ => Yields.after fun caData _ => ?_
  refine Yields.after fun serverAddress _ => Yields.after fun token _ => Yields.after fun systemNamespace server => ?_
  cases kubeconfig (unquoteString caData) serverAddress token systemNamespace with
  | none => exact (yields_refuse ..).mpr ⟨⟩
  | some config =>
    refine Yields.after fun _ _ => Yields.after fun name _ => Yields.after fun named _ => Yields.after fun organization _ => ?_
    extract_lets owned
    have valid : ∀ owningGroup server, Yields (owned owningGroup) server fun cluster _ =>
        validDnsToken cluster.name = true ∧ cluster.id = generateClusterID value := by
      intro owningGroup server
      refine Yields.after fun member _ => Yields.after fun _ server => ?_
      rw [yields_bind, yields_require]
      intro valid
      refine Yields.after fun _ _ => Yields.after fun _ _ => Yields.after fun _ _ => ?_
      exact ⟨Option.some.inj valid, rfl⟩
    split
    · exact Yields.after fun owningGroup => valid owningGroup
    · refine Yields.after fun group _ => Yields.after fun _ _ => ?_
      exact Yields.after fun owningGroup => valid owningGroup

theorem AcceptedCluster.plain {cluster : Cluster} (accepted : AcceptedCluster cluster) :
    Plain cluster.name ∧ Plain cluster.id := by
  obtain ⟨kubeconfig, user, value, body, before, after, accepted⟩ := accepted
  obtain ⟨valid, id⟩ := (yields_requestedCluster kubeconfig user value body before).of_ok accepted
  refine ⟨plain_of_all _ valid (by decide) (by decide), ?_⟩
  rw [id]
  exact plain_append ⟨by decide, by decide⟩ (plain_generateRawID value)

private theorem yields_requestedInstance (value : UInt64) (appName installSrc tag config ctime : String) (group : Group)
    (cluster : Cluster) (server : Server) :
    Yields (requestedInstance value appName installSrc tag config ctime group cluster) server
      fun made _ => made.id = generateInstanceID value ∧ made.cluster = cluster.id := by
  unfold requestedInstance namedInstance
  exact Yields.after fun _ _ => Yields.after fun _ _ => ⟨rfl, rfl⟩

theorem AcceptedInstance.plain {applicationInstance : ApplicationInstance} (accepted : AcceptedInstance applicationInstance) :
    Plain applicationInstance.id ∧ Plain applicationInstance.cluster := by
  obtain ⟨value, appName, installSrc, tag, config, ctime, group, cluster, before, after, made, accepted⟩ := accepted
  obtain ⟨id, located⟩ := (yields_requestedInstance value appName installSrc tag config ctime group cluster before).of_ok accepted
  rw [id, located]
  exact ⟨plain_append ⟨by decide, by decide⟩ (plain_generateRawID value), made.plain.2⟩

def segment (assignment : String × String) : List Char := assignment.1.toList ++ '=' :: assignment.2.toList

private theorem helmAssignment_segment {assignment : String × String} (key : '=' ∉ assignment.1.toList) :
    helmAssignment (segment assignment) = some assignment := by
  have inKey : ∀ c ∈ assignment.1.toList, decide (c ≠ '=') = true :=
    fun c member => decide_eq_true fun same => key (same ▸ member)
  rw [helmAssignment, segment, List.dropWhile_append_of_pos inKey, List.takeWhile_append_of_pos inKey]
  simp

private theorem segment_of_helmAssignment {text : List Char} {assignment : String × String}
    (read : helmAssignment text = some assignment) : text = segment assignment := by
  have parts := List.takeWhile_append_dropWhile (p := (· ≠ '=')) (l := text)
  unfold helmAssignment at read
  cases dropped : text.dropWhile (· ≠ '=') with
  | nil =>
    rw [dropped] at read
    cases read
  | cons c value =>
    have equals : c = '=' := by
      have stopped := List.head?_dropWhile_not (· ≠ '=') text
      rw [dropped] at stopped
      simpa using stopped
    rw [dropped] at read
    cases read
    rw [segment, String.toList_ofList, String.toList_ofList, ← equals, ← dropped, equals]
    exact parts.symm

/-- The pieces of a text are read as assignments exactly if they are their texts. -/
theorem mapM_helmAssignment_iff {assignments : List (String × String)} (keys : ∀ assignment ∈ assignments, '=' ∉ assignment.1.toList)
    (pieces : List (List Char)) : pieces.mapM helmAssignment = some assignments ↔ pieces = assignments.map segment := by
  induction pieces generalizing assignments with
  | nil => cases assignments <;> simp
  | cons piece pieces ih =>
    cases assignments with
    | nil => simp [List.mapM_cons, Option.bind_eq_some_iff]
    | cons assignment assignments =>
      obtain ⟨key, others⟩ := List.forall_mem_cons.mp keys
      rw [List.map_cons, List.cons_eq_cons, ← ih others, List.mapM_cons]
      constructor
      · intro read
        obtain ⟨first, readFirst, rest⟩ := Option.bind_eq_some_iff.mp read
        obtain ⟨later, readLater, same⟩ := Option.bind_eq_some_iff.mp rest
        cases same
        exact ⟨segment_of_helmAssignment readFirst, readLater⟩
      · rintro ⟨rfl, readLater⟩
        rw [helmAssignment_segment key, readLater]
        rfl

private theorem escapedAfter_eq (text : List Char) : escapedAfter '\\' false text = decide (text.getLast? = some '\\') := by
  cases text using List.reverseRecOn with
  | nil => rfl
  | append_singleton text c => simp [escapedAfter_append]

section
variable {key value : String}

private theorem guarded_segment (plain : Plain key) : Guarded ',' '\\' false (segment (key, value)) ↔ NoSeparator value := by
  rw [segment, guarded_append, guarded_cons]
  constructor
  · exact fun guarded => guarded.2.2
  · exact fun guarded => ⟨guarded_of_not_mem plain.1, fun impossible => absurd impossible (by decide), guarded⟩

private theorem escapedAfter_segment : escapedAfter '\\' false (segment (key, value)) = escapedAfter '\\' false value.toList := by
  rw [segment, escapedAfter_append]
  rfl

theorem Plain.noSeparator (plain : Plain value) : NoSeparator value := guarded_of_not_mem plain.1

theorem Plain.closed (plain : Plain value) : escapedAfter '\\' false value.toList = false :=
  escapedAfter_of_not_mem plain.2

end

private theorem plain_toString (number : Nat) : Plain (toString number) := by
  have digits : (toString number).toList.all Char.isDigit = true := by
    rw [Nat.toString_eq_repr, Nat.repr, String.toList_ofList, List.all_eq_true]
    exact fun _ member => Nat.isDigit_of_mem_toDigits (by decide) (by decide) member
  exact plain_of_all _ digits (by decide) (by decide)

private theorem noSeparator_append {first second : String} (plain : Plain first) : NoSeparator (first ++ second) ↔ NoSeparator second := by
  rw [NoSeparator, String.toList_append, guarded_append, plain.closed]
  exact and_iff_right plain.noSeparator

section
variable (store : ServerConfiguration) (cluster : Cluster) (applicationInstance : ApplicationInstance) (group : Group)

/-- A comma begins each text that the values are put together with, and an equals sign ends it. -/
theorem helmTexts :
    ",SLATE.Logging.Server.Name=".toList = ',' :: ("SLATE.Logging.Server.Name".toList ++ ['=']) ∧
    ",SLATE.Logging.Server.Port=".toList = ',' :: ("SLATE.Logging.Server.Port".toList ++ ['=']) ∧
    ",SLATE.Cluster.Name=".toList = ',' :: ("SLATE.Cluster.Name".toList ++ ['=']) ∧
    ",SLATE.Cluster.DNSName=".toList = ',' :: ("SLATE.Cluster.DNSName".toList ++ ['=']) ∧
    ",SLATE.Cluster.ClusterID=".toList = ',' :: ("SLATE.Cluster.ClusterID".toList ++ ['=']) ∧
    ",SLATE.Instance.ID=".toList = ',' :: ("SLATE.Instance.ID".toList ++ ['=']) ∧
    ",SLATE.Metadata.Group=".toList = ',' :: ("SLATE.Metadata.Group".toList ++ ['=']) ∧
    ",SLATE.Metadata.GroupEmail=".toList = ',' :: ("SLATE.Metadata.GroupEmail".toList ++ ['=']) ∧
    "SLATE.Logging.Enabled=true".toList = "SLATE.Logging.Enabled".toList ++ '=' :: "true".toList ∧
    "SLATE.Logging.Enabled=false".toList = "SLATE.Logging.Enabled".toList ++ '=' :: "false".toList :=
  ⟨rfl, rfl, rfl, rfl, rfl, rfl, rfl, rfl, rfl, rfl⟩

private theorem assembleExtraHelmValues_eq : (assembleExtraHelmValues store cluster applicationInstance group).toList =
    [','].intercalate ((intendedHelmValues store cluster applicationInstance group).map segment) := by
  unfold assembleExtraHelmValues intendedHelmValues
  split
  all_goals
    simp only [String.toList_append, helmTexts, List.map_cons, List.map_nil, List.cons_append, List.nil_append,
      List.intercalate_cons_cons, List.intercalate_singleton, segment, List.append_assoc]

private theorem intendedHelmValues_keys : ∀ assignment ∈ intendedHelmValues store cluster applicationInstance group,
    '=' ∉ assignment.1.toList ∧ Plain assignment.1 := by
  unfold intendedHelmValues Plain
  split
  all_goals
    simp only [List.cons_append, List.nil_append, List.forall_mem_cons, List.not_mem_nil, false_implies, implies_true, and_true]
    repeat' apply And.intro
  all_goals decide

variable {store cluster applicationInstance group}

private theorem noSeparator_dnsName (name : Plain cluster.name) : NoSeparator (store.dnsNameForCluster cluster) ↔
    NoSeparator store.baseDomain :=
  noSeparator_append (plain_append name ⟨by decide, by decide⟩)

private theorem closed_dnsName (name : Plain cluster.name) : escapedAfter '\\' false (store.dnsNameForCluster cluster).toList = false ↔
    store.baseDomain.toList.getLast? ≠ some '\\' := by
  have before : Plain (cluster.name ++ ".") := plain_append name ⟨by decide, by decide⟩
  rw [ServerConfiguration.dnsNameForCluster, String.toList_append, escapedAfter_append, before.closed, escapedAfter_eq,
    decide_eq_false_iff_not]

/-- Every application gets exactly the values that are meant for it, unless one of the texts that
no handler looks at ends the value it is part of. -/
theorem parseHelmValues_assembled (madeCluster : AcceptedCluster cluster) (made : AcceptedInstance applicationInstance)
    (madeGroup : AcceptedGroup group) :
    parseHelmValues (assembleExtraHelmValues store cluster applicationInstance group) =
      some (intendedHelmValues store cluster applicationInstance group) ↔ Unseparated store group := by
  have keys := intendedHelmValues_keys store cluster applicationInstance group
  have some_ : (intendedHelmValues store cluster applicationInstance group).map segment ≠ [] := by
    simp [intendedHelmValues]
  have values : (∀ assignment ∈ intendedHelmValues store cluster applicationInstance group, NoSeparator assignment.2) ∧
      (∀ assignment ∈ (intendedHelmValues store cluster applicationInstance group).dropLast,
        escapedAfter '\\' false assignment.2.toList = false) ↔ Unseparated store group := by
    have port := plain_toString store.appLoggingServerPort.toNat
    have enabled : Plain "true" := ⟨by decide, by decide⟩
    have disabled : Plain "false" := ⟨by decide, by decide⟩
    obtain ⟨clusterName, -⟩ := madeCluster.plain
    obtain ⟨instanceID, clusterID⟩ := made.plain
    have groupName := madeGroup.name
    have domain := @noSeparator_dnsName store _ clusterName
    have domainEnd := @closed_dnsName store _ clusterName
    have loggingEnd := escapedAfter_eq store.appLoggingServerName.toList
    by_cases logging : store.appLoggingServerName ≠ ""
    · simp only [intendedHelmValues, if_pos logging, List.cons_append, List.nil_append, List.forall_mem_cons,
        List.dropLast_cons_cons, List.dropLast_singleton, List.not_mem_nil, false_implies, implies_true, and_true, true_and,
        domain, domainEnd, loggingEnd, port.noSeparator, port.closed, enabled.noSeparator, enabled.closed,
        clusterName.noSeparator, clusterName.closed, clusterID.noSeparator, clusterID.closed, instanceID.noSeparator,
        instanceID.closed, groupName.noSeparator, groupName.closed, decide_eq_false_iff_not]
      constructor
      · rintro ⟨⟨server, domain, email⟩, serverEnd, domainEnd⟩
        exact ⟨email, server, serverEnd, domain, domainEnd⟩
      · rintro ⟨email, server, serverEnd, domain, domainEnd⟩
        exact ⟨⟨server, domain, email⟩, serverEnd, domainEnd⟩
    · simp only [intendedHelmValues, if_neg logging, List.cons_append, List.nil_append, List.forall_mem_cons,
        List.dropLast_cons_cons, List.dropLast_singleton, List.not_mem_nil, false_implies, implies_true, and_true, true_and,
        domain, domainEnd, disabled.noSeparator, disabled.closed,
        clusterName.noSeparator, clusterName.closed, clusterID.noSeparator, clusterID.closed, instanceID.noSeparator,
        instanceID.closed, groupName.noSeparator, groupName.closed]
      have absent : store.appLoggingServerName = "" := not_not.mp logging
      constructor
      · rintro ⟨⟨domain, email⟩, domainEnd⟩
        exact ⟨email, by rw [absent]; exact guarded_nil _, by rw [absent]; decide, domain, domainEnd⟩
      · rintro ⟨email, -, -, domain, domainEnd⟩
        exact ⟨⟨domain, email⟩, domainEnd⟩
  rw [parseHelmValues, mapM_helmAssignment_iff fun assignment member => (keys assignment member).1,
    assembleExtraHelmValues_eq, cut_intercalate (by decide) some_, ← values, ← List.map_dropLast, List.forall_mem_map,
    List.forall_mem_map]
  refine and_congr ⟨fun guarded assignment member => ?_, fun guarded assignment member => ?_⟩ ?_
  · exact (guarded_segment (keys assignment member).2).mp (guarded assignment member)
  · exact (guarded_segment (keys assignment member).2).mpr (guarded assignment member)
  · exact forall₂_congr fun assignment _ => by rw [← escapedAfter_segment]

private theorem intendedHelmValues_email (email : String) : intendedHelmValues store cluster applicationInstance { group with email } =
    (intendedHelmValues store cluster applicationInstance group).map fun assignment =>
      (assignment.1, if assignment.1 = "SLATE.Metadata.GroupEmail" then email else assignment.2) := by
  unfold intendedHelmValues
  split <;> simp

/-- Every application gets exactly the values that are meant for it, unless one of the texts that
no handler looks at ends the value it is part of; then the address of a group is the value of
its key alone. -/
theorem helmValues_intended_iff (madeCluster : AcceptedCluster cluster) (made : AcceptedInstance applicationInstance)
    (madeGroup : AcceptedGroup group) :
    (parseHelmValues (assembleExtraHelmValues store cluster applicationInstance group) =
      some (intendedHelmValues store cluster applicationInstance group) ↔ Unseparated store group) ∧
    ∀ email, AcceptedGroup { group with email } → Unseparated store group → Unseparated store { group with email } →
      ∃ values, parseHelmValues (assembleExtraHelmValues store cluster applicationInstance group) = some values ∧
        parseHelmValues (assembleExtraHelmValues store cluster applicationInstance { group with email }) =
          some (values.map fun assignment =>
            (assignment.1, if assignment.1 = "SLATE.Metadata.GroupEmail" then email else assignment.2)) := by
  refine ⟨parseHelmValues_assembled madeCluster made madeGroup, fun email madeOther unseparated other => ?_⟩
  refine ⟨_, (parseHelmValues_assembled madeCluster made madeGroup).mpr unseparated, ?_⟩
  rw [(parseHelmValues_assembled madeCluster made madeOther).mpr other, intendedHelmValues_email]

end

/-- A kubeconfig, as it is written where each text can stand without quotes. -/
def plainKubeconfig (caData serverAddress token namespace_ : String) : String :=
  "apiVersion: v1\ncurrent-context: " ++ namespace_ ++ "\nkind: Config\npreferences:\n  \x7b\x7d\nclusters:\n" ++
  "  - cluster:\n      certificate-authority-data: " ++ caData ++ "\n      server: " ++ serverAddress ++
  "\n    name: " ++ namespace_ ++ "\ncontexts:\n  - context:\n      namespace: " ++ namespace_ ++
  "\n      user: " ++ namespace_ ++ "\n      cluster: " ++ namespace_ ++ "\n    name: " ++ namespace_ ++
  "\n    user: " ++ token ++ "\nusers:\n  - name: " ++ namespace_ ++ "\n    user:\n      token: " ++ token

def memberUser : User := { valid := true, id := "user_1" }

def groupServer : Server := { database := { memberships := (∅ : FiniteMap _ _).insert ("user_1", "group_1") () } }

def clusterBody : Json :=
  .object [("metadata", .object [("name", .string "atlas"), ("group", .string "group_1"), ("owningOrganization", .string "Atlas"),
    ("caData", .string "data"), ("token", .string "token"), ("serverAddress", .string "address"), ("namespace", .string "slate")])]

def atlasCluster : Cluster :=
  { valid := true, id := generateClusterID 1, name := "atlas", systemNamespace := "slate"
    config := plainKubeconfig (unquoteString "data") "address" "token" "slate"
    owningGroup := "group_1", owningOrganization := "Atlas" }

def groupBody (email : String) : Json :=
  .object [("metadata", .object [("name", .string "web"), ("scienceField", .string "Logic"), ("email", .string email)])]

def plainEmail : String := "a@b.c"
def injectingEmail : String := "a@b.c,SLATE.Cluster.Name=other"

def webGroup (email : String) : Group :=
  { valid := true, id := generateGroupID 2, name := "web", email, phone := " ", scienceField := "Logic", description := " " }

def webInstance : ApplicationInstance :=
  { valid := true, id := generateInstanceID 3, application := "slate-dev/nginx", owningGroup := generateGroupID 2
    cluster := generateClusterID 1, config := "\n", ctime := "today", name := "nginx" }

theorem atlasCluster_accepted : AcceptedCluster atlasCluster :=
  ⟨fun data address token space => some (plainKubeconfig data address token space), memberUser, 1, clusterBody, groupServer,
    _, rfl⟩

theorem webInstance_accepted : AcceptedInstance webInstance :=
  ⟨3, "nginx", "slate-dev/nginx", "", "", "today", webGroup plainEmail, atlasCluster, {}, {}, atlasCluster_accepted, rfl⟩

theorem webGroup_accepted : AcceptedGroup (webGroup plainEmail) ∧ AcceptedGroup (webGroup injectingEmail) :=
  ⟨@AcceptedGroup.created memberUser 2 (groupBody plainEmail) _ {} _ rfl,
    @AcceptedGroup.created memberUser 2 (groupBody injectingEmail) _ {} _ rfl⟩

def loggingStore : ServerConfiguration where
  appLoggingServerName := "logs.example.org"
  appLoggingServerPort := 9200
  baseDomain := "slateci.net"

theorem helmValues_intended_plain :
    parseHelmValues (assembleExtraHelmValues loggingStore atlasCluster webInstance (webGroup plainEmail)) =
      some (intendedHelmValues loggingStore atlasCluster webInstance (webGroup plainEmail)) := by
  refine (helmValues_intended_iff atlasCluster_accepted webInstance_accepted webGroup_accepted.1).1.mpr ?_
  exact ⟨guarded_of_not_mem (by decide), guarded_of_not_mem (by decide), by decide, guarded_of_not_mem (by decide), by decide⟩

/-- An address with a comma is accepted, and sets a value that is meant for the cluster. -/
theorem helmValues_injected : ¬ ∀ (store : ServerConfiguration) (cluster : Cluster) (applicationInstance : ApplicationInstance)
    (group : Group), AcceptedCluster cluster → AcceptedInstance applicationInstance → AcceptedGroup group →
      parseHelmValues (assembleExtraHelmValues store cluster applicationInstance group) =
        some (intendedHelmValues store cluster applicationInstance group) := by
  intro intended
  have read := intended loggingStore atlasCluster webInstance (webGroup injectingEmail) atlasCluster_accepted
    webInstance_accepted webGroup_accepted.2
  have unseparated := (parseHelmValues_assembled atlasCluster_accepted webInstance_accepted webGroup_accepted.2).mp read
  exact absurd (unseparated.email "a@b.c".toList "SLATE.Cluster.Name=other".toList (by decide)) (by decide)

end Slate
