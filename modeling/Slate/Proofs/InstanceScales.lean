import Slate.InstanceScale
import Slate.Proofs.ClientVersions

/-! When scaling acts on one deployment of an instance, by the number asked for. -/

namespace Slate
open Library Handler

def Describes (deployment : Json) (entry : String × Nat) : Prop :=
  ∃ metadata spec, deployment.member "metadata" = some metadata ∧ metadata.member "name" = some (.string entry.1) ∧
    '\x00' ∉ entry.1.toList ∧ deployment.member "spec" = some spec ∧
    spec.member "replicas" = some (.number entry.2) ∧ entry.2 < 2 ^ 64

structure WellFormedList (data : Json) (deployments : List (String × Nat)) : Prop where
  items : ∃ items, data.member "items" = some (.array items) ∧ List.Forall₂ Describes items deployments
  distinct : (deployments.map Prod.fst).Nodup

/-- A plain decimal numeral that fits 64 bits. -/
def Numeral (text : String) (number : Nat) : Prop :=
  text.toList ≠ [] ∧ (∀ c ∈ text.toList, c.isDigit = true) ∧ Nat.ofDigitChars 10 text.toList 0 = number ∧
    number < 2 ^ 64

/-- The deployment that is requested, or the only one when none is. -/
def selectedDeployment (deployments : List (String × Nat)) (requested : String) : Option String :=
  if requested = "" then
    match deployments with
    | [(name, _)] => some name
    | _ => none
  else if requested ∈ deployments.map Prod.fst then some requested
  else none

def scaleCommands (world : ClusterWorld) : List (List String) :=
  world.commands.filter fun arguments => arguments.head? = some "scale"

def scaledCounts (deployments : List (String × Nat)) (selected : String) (number : Nat) : Members :=
  deployments.map fun entry => (entry.1, .number (if entry.1 = selected then number else entry.2 : Nat))

structure ScalesOnce (deployments : List (String × Nat)) (requested nspace text : String)
    (ended : Option Response × ClusterWorld) : Prop where
  succeeds : ∀ response, ended.1 = some response → response.status = 200 → ∃ number selected, Numeral text number ∧
    selectedDeployment deployments requested = some selected ∧
    scaleCommands ended.2 = [scaleArguments selected number nspace] ∧
    response = scaleResponse (scaledCounts deployments selected number)
  otherwise : (∀ response, ended.1 = some response → response.status ≠ 200) → scaleCommands ended.2 = []
  refuses : (∀ number, ¬ Numeral text number) → ∃ response, ended.1 = some response ∧ 400 ≤ response.status ∧
    response.status < 500

theorem Numeral.stoul {text : String} {number : Nat} (numeral : Numeral text number) : stoul text.toList = some number := by
  obtain ⟨proper, digits, value, fits⟩ := numeral
  rw [stoul_digits proper digits (value ▸ fits), value]

theorem Describes.info {deployment : Json} {entry : String × Nat} (describes : Describes deployment entry) :
    deploymentInfo deployment = some entry := by
  obtain ⟨metadata, spec, metadataThere, name, plain, specThere, replicas, fits⟩ := describes
  have whole : entry.1.toList.takeWhile (· ≠ '\x00') = entry.1.toList :=
    List.takeWhile_eq_self_iff.mpr fun c member => decide_eq_true fun same => plain (same ▸ member)
  simp only [deploymentInfo, metadataThere, name, specThere, replicas, Option.bind_eq_bind, Option.bind_some, Json.getCString,
    whole, String.ofList_toList, Json.getUint64_natCast fits, Option.pure_def]

section
variable {items : List Json} {deployments : List (String × Nat)}

private theorem foldl_scale_named (described : List.Forall₂ Describes items deployments) (only : Bool) (replicas : Nat)
    {depName : String} (named : depName ≠ "") (scales : Members) (found : Bool) :
    items.foldl (Selection.scale only replicas) ⟨depName, scales, found⟩ =
      ⟨depName, scales ++ scaledCounts deployments depName replicas,
        found || (deployments.map Prod.fst).contains depName⟩ := by
  induction described generalizing scales found with
  | nil => simp [scaledCounts]
  | @cons deployment entry items deployments describes _ ih =>
    obtain ⟨name, count⟩ := entry
    have kept : (if depName = "" ∧ only = true then name else depName) = depName := if_neg fun both => named both.1
    rw [List.foldl_cons, Selection.scale, describes.info]
    simp only [kept]
    by_cases other : name ≠ depName
    · rw [if_pos other, ih]
      simp [scaledCounts, other, beq_false_of_ne (Ne.symm other)]
    · obtain rfl : name = depName := not_not.mp other
      rw [if_neg other, ih]
      simp [scaledCounts]

private theorem foldl_scale_only {deployment : Json} {entry : String × Nat} (describes : Describes deployment entry) (replicas : Nat) :
    [deployment].foldl (Selection.scale true replicas) ⟨"", [], false⟩ =
      ⟨entry.1, scaledCounts [entry] entry.1 replicas, true⟩ := by
  rw [List.foldl_cons, List.foldl_nil, Selection.scale, describes.info]
  simp [scaledCounts]

/-- The counts that are shown: of the deployment that is asked about, or of all when none is. -/
def shownCounts (deployments : List (String × Nat)) (requested : String) : Members :=
  (deployments.filter fun entry => requested = "" ∨ entry.1 = requested).map fun entry => (entry.1, .number entry.2)

private theorem foldl_show (described : List.Forall₂ Describes items deployments) (depName : String) (scales : Members) (found : Bool) :
    items.foldl Selection.show ⟨depName, scales, found⟩ =
      ⟨depName, scales ++ shownCounts deployments depName,
        found || (decide (depName ≠ "") && (deployments.map Prod.fst).contains depName)⟩ := by
  induction described generalizing scales found with
  | nil => simp [shownCounts]
  | @cons deployment entry items deployments describes _ ih =>
    obtain ⟨name, count⟩ := entry
    rw [List.foldl_cons, Selection.show, describes.info]
    simp only
    by_cases other : depName ≠ "" ∧ name ≠ depName
    · rw [if_pos other, ih]
      simp [shownCounts, other.1, other.2, beq_false_of_ne (Ne.symm other.2)]
    · rw [if_neg other, ih]
      by_cases named : depName = ""
      · simp [shownCounts, named]
      · obtain rfl : name = depName := by_contra fun different => other ⟨named, different⟩
        simp [shownCounts, named]

end

section
variable {outside : Outsides} {configPath nspace instanceID requested : String} {number : Nat} {items : List Json}
  {deployments : List (String × Nat)} (described : List.Forall₂ Describes items deployments) (world : ClusterWorld)

include described

private theorem scaleDeployments_selected {selected : String} (found : selectedDeployment deployments requested = some selected) :
    scaleDeployments outside configPath nspace instanceID requested number items world =
      (do
        let scaleResult ← kubectlRun outside configPath (scaleArguments selected number nspace)
        require (some (scaleResult.status = 0)) 500 (scalingFailed selected number scaleResult)
        return scaleResponse (scaledCounts deployments selected number)) world := by
  unfold selectedDeployment at found
  split at found
  next none =>
    subst none
    split at found
    next name count =>
      cases found
      cases described with
      | cons describes others =>
        cases others
        refine (bind_returned (require_holds _ _ _)).trans ?_
        simp only [List.length_singleton, beq_self_eq_true, foldl_scale_only describes]
        exact bind_returned (require_holds _ _ _)
    next => cases found
  next named =>
    split at found
    next member =>
      cases found
      refine (bind_returned (by rw [decide_eq_false named]; rfl)).trans ?_
      simp only [foldl_scale_named described _ _ named, List.nil_append, Bool.false_or, List.contains_iff_mem.mpr member]
      exact bind_returned (require_holds _ _ _)
    next => cases found

private theorem scaleDeployments_returned {selected : String} (found : selectedDeployment deployments requested = some selected)
    {server after : Server} {commands : List (List String)} {scaleResult : CommandResult}
    (ran : kubectl (outside commands) configPath (scaleArguments selected number nspace) server = .ok scaleResult after) :
    scaleDeployments outside configPath nspace instanceID requested number items ⟨server, commands⟩ =
      if scaleResult.status = 0 then
        .ok (scaleResponse (scaledCounts deployments selected number))
          ⟨after, commands ++ [scaleArguments selected number nspace]⟩
      else .error (.response ⟨500, some (generateError (scalingFailed selected number scaleResult))⟩)
        ⟨after, commands ++ [scaleArguments selected number nspace]⟩ := by
  refine (scaleDeployments_selected described _ found).trans ((bind_returned (kubectlRun_returned ran)).trans ?_)
  split
  next succeeded =>
    rw [decide_eq_true succeeded]
    exact bind_returned (require_holds _ _ _)
  next failed =>
    rw [decide_eq_false failed]
    exact bind_thrown (require_refuses _ _ _)

private theorem scaleDeployments_thrown {selected : String} (found : selectedDeployment deployments requested = some selected)
    {server after : Server} {commands : List (List String)} {message : String}
    (ran : kubectl (outside commands) configPath (scaleArguments selected number nspace) server = .error message after) :
    scaleDeployments outside configPath nspace instanceID requested number items ⟨server, commands⟩ =
      .error (.thrown message) ⟨after, commands⟩ :=
  (scaleDeployments_selected described _ found).trans (bind_thrown (kubectlRun_thrown ran))

private theorem scaleDeployments_unselected (found : selectedDeployment deployments requested = none) :
    ∃ status message, (status = 400 ∨ status = 404) ∧
      scaleDeployments outside configPath nspace instanceID requested number items world =
        .error (.response ⟨status, some (generateError message)⟩) world := by
  unfold selectedDeployment at found
  split at found
  next none =>
    subst none
    have several : items.length ≠ 1 := by
      rw [described.length_eq]
      intro one
      obtain ⟨⟨name, count⟩, rfl⟩ := List.length_eq_one_iff.mp one
      cases found
    have test : (!(decide ("" = "") && decide (items.length ≠ 1))) = false := by rw [decide_eq_true several]; rfl
    rw [scaleDeployments, test]
    exact ⟨400, _, .inl rfl, bind_thrown (require_refuses _ _ _)⟩
  next named =>
    split at found
    next => cases found
    next missing =>
      have absent : (deployments.map Prod.fst).contains requested = false := by
        rw [← Bool.not_eq_true, List.contains_iff_mem]
        exact missing
      have test : (!(decide (requested = "") && decide (items.length ≠ 1))) = true := by rw [decide_eq_false named]; rfl
      have selection := foldl_scale_named described (items.length == 1) number named [] false
      rw [absent] at selection
      rw [scaleDeployments, test, selection]
      exact ⟨404, _, .inr rfl, (bind_returned (require_holds _ _ _)).trans (bind_thrown (require_refuses _ _ _))⟩

end

section
variable {outside : Outsides} {parse : String → Json} {user : User} {instanceID : String} {requested : Option String}
  {server located ready : Server} {applicationInstance : ApplicationInstance} {group : Group} {configPath : String}
  {deploymentResult : CommandResult} {deployments : List (String × Nat)}

/-- The request gets as far as the list of the deployments, which is well formed. -/
structure ListsDeployments (outside : Outsides) (parse : String → Json) (user : User) (instanceID : String)
    (server located ready : Server) (applicationInstance : ApplicationInstance) (group : Group) (configPath : String)
    (deploymentResult : CommandResult) (deployments : List (String × Nat)) : Prop where
  authorized : authorizedInstance user instanceID 404 server = .ok (applicationInstance, group) located
  configured : configPathForCluster applicationInstance.cluster located = .ok configPath ready
  reported : kubectl (outside []) configPath (deploymentArguments applicationInstance.name group.namespaceName) ready =
    .ok deploymentResult ready
  wellFormed : WellFormedList (parse deploymentResult.output) deployments

private theorem scaleApplicationInstance_unread (lists : ListsDeployments outside parse user instanceID server located ready
    applicationInstance group configPath deploymentResult deployments) {text : String} (unread : stoul text.toList = none) :
    scaleApplicationInstance outside parse user instanceID (some text) requested { server } =
      .error (.thrown "stoull") { server := located } := by
  have thrown : requestedReplicas (some text) located = .error (.thrown "stoull") located := by
    rw [requestedReplicas, unread]
    rfl
  exact (bind_returned (onServer_returned lists.authorized)).trans (bind_thrown (onServer_thrown thrown))

private theorem scaleApplicationInstance_reads (lists : ListsDeployments outside parse user instanceID server located ready
    applicationInstance group configPath deploymentResult deployments) {text : String} {number : Nat}
    (read : stoul text.toList = some number) (requested : Option String) :
    ∃ items, List.Forall₂ Describes items deployments ∧
      scaleApplicationInstance outside parse user instanceID (some text) requested { server } =
        scaleDeployments outside configPath group.namespaceName instanceID (requested.getD "") number items
          ⟨ready, [deploymentArguments applicationInstance.name group.namespaceName]⟩ := by
  obtain ⟨items, there, described⟩ := lists.wellFormed.items
  refine ⟨items, described, ?_⟩
  have number_ : requestedReplicas (some text) located = .ok number located := by
    rw [requestedReplicas, read]
    rfl
  have listed : listDeployments outside parse configPath applicationInstance.name group.namespaceName ⟨ready, []⟩ =
      .ok items ⟨ready, [deploymentArguments applicationInstance.name group.namespaceName]⟩ := by
    refine (bind_returned (runProgram_returned lists.reported)).trans ?_
    rw [there]
    rfl
  refine (bind_returned (onServer_returned lists.authorized)).trans ?_
  refine (bind_returned (onServer_returned number_)).trans ?_
  refine (bind_returned (onServer_returned (onStore_returned lists.configured))).trans ?_
  exact bind_returned listed

/-- What is answered to a request for the scale: the counts that there are, unless it asks about a deployment that there is not.
Nothing is run but the command that lists the deployments. -/
theorem getApplicationInstanceScale_shows {items : List Json}
    (authorized : authorizedInstance user instanceID 400 server = .ok (applicationInstance, group) located)
    (configured : configPathForCluster applicationInstance.cluster located = .ok configPath ready)
    (reported : kubectl (outside []) configPath (deploymentArguments applicationInstance.name group.namespaceName) ready =
      .ok deploymentResult ready)
    (listed : (parse deploymentResult.output).member "items" = some (.array items))
    (described : List.Forall₂ Describes items deployments) (requested : Option String) :
    ending (getApplicationInstanceScale outside parse user instanceID requested { server }) =
      (some (if requested.getD "" = "" ∨ requested.getD "" ∈ deployments.map Prod.fst then
          scaleResponse (shownCounts deployments (requested.getD ""))
        else ⟨400, some (generateError ("Deployment " ++ requested.getD "" ++ " not found in " ++ instanceID))⟩),
      ⟨ready, [deploymentArguments applicationInstance.name group.namespaceName]⟩) := by
  have items_ : listDeployments outside parse configPath applicationInstance.name group.namespaceName ⟨ready, []⟩ =
      .ok items ⟨ready, [deploymentArguments applicationInstance.name group.namespaceName]⟩ := by
    refine (bind_returned (runProgram_returned reported)).trans ?_
    rw [listed]
    rfl
  have runs : getApplicationInstanceScale outside parse user instanceID requested { server } = _ :=
    (bind_returned (onServer_returned authorized)).trans <|
      (bind_returned (onServer_returned (onStore_returned configured))).trans (bind_returned items_)
  rw [runs, foldl_show described]
  have test : (decide (requested.getD "" = "") || (false || (decide (requested.getD "" ≠ "") &&
      (deployments.map Prod.fst).contains (requested.getD "")))) =
        decide (requested.getD "" = "" ∨ requested.getD "" ∈ deployments.map Prod.fst) := by
    by_cases none : requested.getD "" = "" <;> simp [none]
  rw [test]
  by_cases known : requested.getD "" = "" ∨ requested.getD "" ∈ deployments.map Prod.fst
  · rw [if_pos known, decide_eq_true known]
    exact congrArg ending (bind_returned (require_holds _ _ _))
  · rw [if_neg known, decide_eq_false known]
    exact congrArg ending (bind_thrown (require_refuses _ _ _))

/-- Scaling does what is asked for once: the number of replicas is a numeral, and the command that scales
succeeds if there is one to run; or something else was taken for a number, but nothing is selected. -/
def ScalesRight (outside : Outsides) (located : Server) (applicationInstance : ApplicationInstance) (group : Group)
    (configPath : String) (deployments : List (String × Nat)) (requested text : String) : Prop :=
  (∃ number, Numeral text number ∧ ∀ selected scaleResult after,
    selectedDeployment deployments requested = some selected →
    kubectl (outside [deploymentArguments applicationInstance.name group.namespaceName]) configPath
      (scaleArguments selected number group.namespaceName) located = .ok scaleResult after → scaleResult.status = 0) ∨
  (∀ number, ¬ Numeral text number) ∧ (stoul text.toList).isSome = true ∧ selectedDeployment deployments requested = none

theorem scaleApplicationInstance_iff (lists : ListsDeployments outside parse user instanceID server located ready
    applicationInstance group configPath deploymentResult deployments) (text : String) :
    ScalesOnce deployments (requested.getD "") group.namespaceName text
        (ending (scaleApplicationInstance outside parse user instanceID (some text) requested { server })) ↔
      ScalesRight outside ready applicationInstance group configPath deployments (requested.getD "") text := by
  cases read : stoul text.toList with
  | none =>
    have unread : ∀ number, ¬ Numeral text number := by
      intro number numeral
      rw [numeral.stoul] at read
      cases read
    rw [scaleApplicationInstance_unread lists read]
    constructor
    · intro once
      obtain ⟨response, answered, -⟩ := once.refuses unread
      cases answered
    · rintro (⟨number, numeral, -⟩ | ⟨-, some_, -⟩)
      · exact absurd numeral (unread number)
      · rw [read] at some_
        cases some_
  | some number =>
    have numeral_read : ∀ other, Numeral text other → other = number := by
      intro other numeral
      exact Option.some.inj (numeral.stoul.symm.trans read)
    obtain ⟨items, described, reads⟩ := scaleApplicationInstance_reads lists read requested
    rw [reads]
    cases found : selectedDeployment deployments (requested.getD "") with
    | none =>
      obtain ⟨status, message, refused, run⟩ := @scaleDeployments_unselected outside configPath group.namespaceName instanceID
        _ number _ _ described ⟨ready, [deploymentArguments applicationInstance.name group.namespaceName]⟩ found
      rw [run]
      refine iff_of_true ⟨?_, fun _ => rfl, fun _ => ⟨_, rfl, ?_⟩⟩ ?_
      · rintro response ⟨⟩ success
        rcases refused with rfl | rfl <;> cases success
      · rcases refused with rfl | rfl <;> exact ⟨by simp, by simp⟩
      · by_cases numeral : ∃ other, Numeral text other
        · obtain ⟨other, numeral⟩ := numeral
          refine .inl ⟨other, numeral, fun selected scaleResult after impossible => ?_⟩
          rw [found] at impossible
          cases impossible
        · exact .inr ⟨not_exists.mp numeral, by rw [read]; rfl, found⟩
    | some selected =>
      have numeral_iff : (∃ other, Numeral text other) ↔ Numeral text number :=
        ⟨fun ⟨other, numeral⟩ => numeral_read other numeral ▸ numeral, fun numeral => ⟨number, numeral⟩⟩
      have none_of : (∀ other, ¬ Numeral text other) ↔ ¬ Numeral text number :=
        not_exists.symm.trans (not_congr numeral_iff)
      rcases ran : kubectl (outside [deploymentArguments applicationInstance.name group.namespaceName]) configPath
        (scaleArguments selected number group.namespaceName) ready with ⟨scaleResult, after⟩ | ⟨message, after⟩
      · rw [scaleDeployments_returned described found ran]
        by_cases succeeded : scaleResult.status = 0
        · rw [if_pos succeeded]
          constructor
          · intro once
            obtain ⟨other, -, numeral, -⟩ := once.succeeds _ rfl rfl
            obtain rfl := numeral_read other numeral
            refine .inl ⟨other, numeral, fun name otherResult later also again => ?_⟩
            obtain rfl := Option.some.inj (found.symm.trans also)
            cases ran.symm.trans again
            exact succeeded
          · rintro (⟨other, numeral, -⟩ | ⟨-, -, unselected⟩)
            · obtain rfl := numeral_read other numeral
              refine ⟨?_, fun failed => absurd rfl (failed _ rfl), fun impossible => absurd numeral (impossible other)⟩
              rintro response ⟨⟩ -
              exact ⟨other, selected, numeral, found, rfl, rfl⟩
            · rw [found] at unselected
              cases unselected
        · rw [if_neg succeeded]
          refine iff_of_false (fun once => ?_) ?_
          · have nothing := once.otherwise fun response answered => by
              cases answered
              exact fun impossible => absurd impossible (by simp)
            cases nothing
          · rintro (⟨other, numeral, succeeds⟩ | ⟨-, -, unselected⟩)
            · obtain rfl := numeral_read other numeral
              exact succeeded (succeeds selected scaleResult after found ran)
            · rw [found] at unselected
              cases unselected
      · rw [scaleDeployments_thrown described found ran]
        constructor
        · intro once
          have numeral : Numeral text number := by
            by_contra unread
            obtain ⟨response, answered, -⟩ := once.refuses (none_of.mpr unread)
            cases answered
          refine .inl ⟨number, numeral, fun name otherResult later also again => ?_⟩
          obtain rfl := Option.some.inj (found.symm.trans also)
          cases ran.symm.trans again
        · rintro (⟨other, numeral, -⟩ | ⟨-, -, unselected⟩)
          · refine ⟨?_, fun _ => rfl, fun impossible => absurd numeral (impossible other)⟩
            rintro response ⟨⟩
          · rw [found] at unselected
            cases unselected

end

def deploymentText : String :=
  "\x7b\"items\":[\x7b\"metadata\":\x7b\"name\":\"web\"\x7d,\"spec\":\x7b\"replicas\":1\x7d\x7d]\x7d"

def deploymentDocument : Json :=
  .object [("items", .array [.object [("metadata", .object [("name", .string "web")]),
    ("spec", .object [("replicas", .number 1)])]])]

/-- Reads that text, and no other one. -/
def parseDeployment (text : String) : Json := if text = deploymentText then deploymentDocument else .null

def scaleOutside : Outsides := fun _ => ⟨fun _ _ _ => .ok { output := deploymentText }⟩

def clusterAdmin : User := { valid := true, id := "user_1", admin := true }

def scaleServer : Server :=
  { database := {
      groups := (∅ : FiniteMap _ _).insert "group_1" ⟨"web", none, none, none, none⟩
      clusters := (∅ : FiniteMap _ _).insert "cluster_1"
        ⟨some "atlas", some "config", some "slate", some "group_1", some "Atlas", none⟩
      instances := (∅ : FiniteMap _ _).insert "instance_1" ⟨"web", "web", "group_1", "cluster_1", "today"⟩ } }

private theorem deploymentDocument_wellFormed : WellFormedList deploymentDocument [("web", 1)] where
  items := ⟨_, rfl, .cons ⟨_, _, rfl, rfl, by decide, rfl, rfl, by decide⟩ .nil⟩
  distinct := by decide

private theorem scaleServer_lists : ∃ located ready applicationInstance group configPath deploymentResult,
    ListsDeployments scaleOutside parseDeployment clusterAdmin "instance_1" scaleServer located ready applicationInstance group
      configPath deploymentResult [("web", 1)] ∧ group.namespaceName = "slate-group-web" :=
  ⟨_, _, _, _, _, _, ⟨rfl, rfl, rfl, deploymentDocument_wellFormed⟩, rfl⟩

theorem scaleApplicationInstance_three : ScalesOnce [("web", 1)] "" "slate-group-web" "3"
    (ending (scaleApplicationInstance scaleOutside parseDeployment clusterAdmin "instance_1" (some "3") none
      { server := scaleServer })) := by
  obtain ⟨located, ready, applicationInstance, group, configPath, deploymentResult, lists, nspace⟩ := scaleServer_lists
  rw [← nspace]
  have three : Numeral "3" 3 := ⟨by simp, by simp, by decide, by decide⟩
  refine (@scaleApplicationInstance_iff _ _ _ _ none _ _ _ _ _ _ _ _ lists "3").mpr (.inl ⟨3, three, ?_⟩)
  intro selected scaleResult after _ ran
  obtain ⟨result, succeeded, same⟩ : ∃ result, result.status = 0 ∧ kubectl (scaleOutside
      [deploymentArguments applicationInstance.name group.namespaceName]) configPath
      (scaleArguments selected 3 group.namespaceName) ready = .ok result ready := ⟨_, rfl, rfl⟩
  cases same.symm.trans ran
  exact succeeded

/-- What is no number is not answered. -/
theorem scaleApplicationInstance_abc : ¬ ∀ (outside : Outsides) (parse : String → Json) (user : User) (instanceID : String)
    (requested : Option String) (server located ready : Server) (applicationInstance : ApplicationInstance) (group : Group)
    (configPath : String) (deploymentResult : CommandResult) (deployments : List (String × Nat)) (text : String),
    ListsDeployments outside parse user instanceID server located ready applicationInstance group configPath deploymentResult
        deployments →
      ScalesOnce deployments (requested.getD "") group.namespaceName text
        (ending (scaleApplicationInstance outside parse user instanceID (some text) requested { server })) := by
  intro once
  obtain ⟨located, ready, applicationInstance, group, configPath, deploymentResult, lists, -⟩ := scaleServer_lists
  have refuses := (once _ _ _ _ none _ _ _ _ _ _ _ _ "abc" lists).refuses
  rw [scaleApplicationInstance_unread lists (by decide)] at refuses
  obtain ⟨response, answered, -⟩ := refuses fun number numeral => absurd (numeral.2.1 'a' (by decide)) (by decide)
  cases answered

end Slate
