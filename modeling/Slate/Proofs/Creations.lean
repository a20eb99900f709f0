import Slate.Library.Confined
import Slate.Proofs.OnlyReads
import Slate.Proofs.SecretHistories
import Slate.VolumeRequests

/-! Requests that make a record and act on a cluster, and take the record back if that fails. -/

namespace Slate
open Library Handler

def LastFailed (before after : Server) : Prop :=
  ∃ n, before.outcomes n = false ∧ ∀ k, after.outcomes k = before.outcomes (n + 1 + k)

/-- The tables are as they were, unless the last request to the database has failed. -/
def NothingLeft (before after : Server) : Prop := after.database = before.database ∨ LastFailed before after

/-- How a request ends that is to make a record. The user is told of it if it is there, and it is there if the
user is told. Only an exception may leave it behind. -/
structure Creates (record : Database → Database) (before after : Server) (answer : Option Response) : Prop where
  made : ∀ response, answer = some response → response.status = 200 → after.database = record before.database
  refused : ∀ response, answer = some response → response.status ≠ 200 → NothingLeft before after
  broken : answer = none → after.database = record before.database ∨ NothingLeft before after

/-- The record is there, and nothing else has changed. -/
structure Stored (record : Database → Database) (before after : Server) : Prop extends Later before after where
  database : after.database = record before.database

/-- A record can be made, and taken back. -/
structure Reversible (record : Database → Database) (add remove : StoreM Bool) (before : Server) : Prop where
  added : ∀ server, OnlyReads before server → Ends add server
    (fun success after => if success then Stored record before after else LastFailed before after)
    fun _ after => OnlyReads before after
  removed : ∀ server, Stored record before server → Ends remove server (fun _ after => NothingLeft before after) fun _ _ => False

theorem LastFailed.of_request {before server after : Server} (later : Later before server) (failed : server.outcomes 0 = false)
    (same : after.outcomes = server.answered.outcomes) : LastFailed before after := by
  obtain ⟨n, shifted⟩ := later.outcomes
  refine ⟨n, (shifted 0).symm.trans failed, fun k => ?_⟩
  rw [same, answered_outcomes, shifted, Nat.add_assoc, Nat.add_comm 1 k]

theorem Stored.reads {record : Database → Database} {before middle after : Server} (stored : Stored record before middle)
    (reads : OnlyReads middle after) : Stored record before after :=
  ⟨stored.toLater.trans reads.toLater, reads.database.trans stored.database⟩

/-- An answer that is given before the last line of a handler is none of success. -/
def Halt.Refusal : Halt → Prop
  | .response answer => answer.status ≠ 200
  | .thrown _ => True
  | .assertion => True

def Halt.Escape : Halt → Prop
  | .response _ => False
  | .thrown _ => True
  | .assertion => True

theorem Halt.Escape.refusal {halt : Halt} (escape : halt.Escape) : halt.Refusal := by
  cases halt with
  | response response => exact escape.elim
  | thrown message => trivial
  | assertion => trivial

section
variable {σ α : Type} {relation : σ → σ → Prop} [IsPreorder σ relation] {allowed : Halt → Prop}

theorem confined_accessing (may : allowed .assertion) (found : Option α) :
    Confined relation allowed (accessing found : EStateM Halt σ α) := by
  cases found with
  | none => exact .throw may
  | some value => exact .pure _

theorem confined_refuse {status : Nat} (bad : status ≠ 200) (text : String) :
    Confined relation Halt.Refusal (refuse status text : EStateM Halt σ α) := .throw bad

theorem confined_require {status : Nat} (bad : status ≠ 200) (test : Option Bool) (text : String) :
    Confined relation Halt.Refusal (require test status text : EStateM Halt σ Unit) :=
  (confined_accessing (show Halt.Refusal .assertion from trivial) test).bind fun _ => .ite (.pure _) (confined_refuse bad text)

theorem confined_fromExcept (may : ∀ message, allowed (.thrown message)) (result : Except String α) :
    Confined relation allowed (fromExcept result : EStateM Halt σ α) := by
  cases result with
  | ok value => exact .pure _
  | error message => exact .throw (may message)

end

section
variable {α : Type} {course : Server → Server → Prop} {allowed : Halt → Prop}

theorem confined_onStore (may : ∀ message, allowed (.thrown message)) {program : StoreM α} (leads : Leads course program) :
    Confined course allowed (onStore program) := by
  intro server
  have ends := leads server
  unfold Ends at ends ⊢
  unfold onStore
  cases ran : program server with
  | ok value after =>
    rw [ran] at ends
    exact ends
  | error message after =>
    rw [ran] at ends
    exact ⟨may message, ends⟩

/-- What is looked up may throw. -/
theorem confined_lookup {program : StoreM α} (leads : Leads course program) : Confined course Halt.Refusal (onStore program) :=
  confined_onStore (fun _ => trivial) leads

theorem confined_onServer {program : HandlerM α} (confined : Confined course allowed program) :
    Confined (ClusterCourse course) allowed (onServer program) := by
  intro world
  have ends := confined world.server
  unfold Ends at ends ⊢
  unfold onServer
  cases ran : program world.server with
  | ok value after =>
    rw [ran] at ends
    exact ends
  | error halt after =>
    rw [ran] at ends
    exact ends

theorem confined_onCluster {program : ClusterM α} (confined : Confined (ClusterCourse course) allowed program) :
    Confined (SecretCourse course) allowed (onCluster program) := by
  intro world
  have ends := confined world.toClusterWorld
  unfold Ends at ends ⊢
  unfold onCluster
  cases ran : program world.toClusterWorld with
  | ok value after =>
    rw [ran] at ends
    exact ends
  | error halt after =>
    rw [ran] at ends
    exact ends

abbrev HandingCourse (course : Server → Server → Prop) : HandingWorld → HandingWorld → Prop :=
  ServerCourse (fun world => world.server) course

theorem confined_withFiles {program : ClusterM α} (confined : Confined (ClusterCourse course) allowed program) :
    Confined (HandingCourse course) allowed (withFiles program) := by
  intro world
  have ends := confined world.toClusterWorld
  unfold Ends at ends ⊢
  unfold withFiles
  cases ran : program world.toClusterWorld with
  | ok value after =>
    rw [ran] at ends
    exact ends
  | error halt after =>
    rw [ran] at ends
    exact ends

theorem confined_inHandler (may : ∀ message, allowed (.thrown message)) {program : StoreM α} (leads : Leads course program) :
    Confined (HandingCourse course) allowed (inHandler program) :=
  confined_withFiles (confined_onServer (confined_onStore may leads))

variable [IsPreorder Server course]

theorem confined_runProgram (may : ∀ message, allowed (.thrown message)) (arguments : List String)
    {program : List (List String) → StoreM α} (leads : ∀ commands, Leads course (program commands)) :
    Confined (ClusterCourse course) allowed (runProgram arguments program) :=
  Confined.get.bind fun world => (confined_onServer (confined_onStore may (leads world.commands))).bind fun _ =>
    Confined.bind (.modifies fun world => refl world.server) fun _ => .pure _

theorem confined_kubectlCreateNamespace (outside : Outsides) (files : TemporaryFiles) (configPath : String) :
    Confined (ClusterCourse course) Halt.Escape (kubectlCreateNamespace outside files configPath) := by
  have thrown : ∀ message, Halt.Escape (.thrown message) := fun _ => trivial
  have version : Confined (ClusterCourse course) Halt.Escape (getControllerVersion outside configPath) :=
    (confined_runProgram thrown _ fun _ => leads_runCommand _ _ _ _).bind fun _ => .pure _
  apply version.bind
  intro _
  apply (confined_fromExcept thrown _).bind
  intro tmpFile
  exact (confined_runProgram thrown _ fun _ => leads_runCommand _ _ _ _).bind fun _ => .ite (.throw trivial) (.pure _)

end

section
variable {σ α : Type} {server : σ → Server} {record : Database → Database} {before : Server}

def Halted (record : Database → Database) (before : Server) : Halt → Server → Prop
  | .response response, after => response.status ≠ 200 ∧ NothingLeft before after
  | .thrown _, after => after.database = record before.database ∨ NothingLeft before after
  | .assertion, after => after.database = record before.database ∨ NothingLeft before after

private theorem Halted.of_reads {halt : Halt} {after : Server} (refusal : halt.Refusal) (reads : OnlyReads before after) :
    Halted record before halt after := by
  cases halt with
  | response response => exact ⟨refusal, .inl reads.database⟩
  | thrown message => exact .inr (.inl reads.database)
  | assertion => exact .inr (.inl reads.database)

private theorem Halted.of_stored {halt : Halt} {after : Server} (escape : halt.Escape) (stored : Stored record before after) :
    Halted record before halt after := by
  cases halt with
  | response response => exact escape.elim
  | thrown message => exact .inl stored.database
  | assertion => exact .inl stored.database

/-- What comes before the record is made. -/
theorem ends_first {program : EStateM Halt σ α} (confined : Confined (ServerCourse server OnlyReads) Halt.Refusal program)
    {state : σ} (reads : OnlyReads before (server state)) :
    Ends program state (fun _ after => OnlyReads before (server after)) fun halt after => Halted record before halt (server after) :=
  (confined state).mono (fun _ _ later => IsTrans.trans (r := OnlyReads) _ _ _ reads later)
    fun _ _ halted => .of_reads halted.1 (IsTrans.trans (r := OnlyReads) _ _ _ reads halted.2)

/-- What comes once the record is made. -/
theorem ends_then {program : EStateM Halt σ α} (confined : Confined (ServerCourse server OnlyReads) Halt.Escape program)
    {state : σ} (stored : Stored record before (server state)) :
    Ends program state (fun _ after => Stored record before (server after)) fun halt after => Halted record before halt (server after) :=
  (confined state).mono (fun _ _ => stored.reads) fun _ _ halted => .of_stored halted.1 (stored.reads halted.2)

/-- What comes once the record is made, and takes it back if it throws. -/
theorem ends_catch {program : EStateM Halt σ α} {handler : String → EStateM Halt σ α}
    (confined : Confined (ServerCourse server OnlyReads) Halt.Escape program)
    (undoes : ∀ message state, Stored record before (server state) → Ends (handler message) state
      (fun _ after => Stored record before (server after)) fun halt after => Halted record before halt (server after))
    {state : σ} (stored : Stored record before (server state)) :
    Ends (catchInHandler program handler) state (fun _ after => Stored record before (server after))
      fun halt after => Halted record before halt (server after) := by
  unfold catchInHandler
  rw [ends_tryCatch]
  apply (confined state).mono
  · exact fun _ _ => stored.reads
  · rintro halt after ⟨escape, reads⟩
    cases halt with
    | response response => exact escape.elim
    | assertion => exact .inl (stored.reads reads).database
    | thrown message =>
      dsimp only
      rw [ends_ite]
      split
      next => exact .inl (stored.reads reads).database
      next => exact undoes message after (stored.reads reads)

/-- A step that makes the record, or is refused. -/
theorem ends_added {add remove : StoreM Bool} (reversible : Reversible record add remove before) {text : String} {status : Nat}
    (bad : status ≠ 200) {server : Server} (reads : OnlyReads before server) :
    Ends (do
        let success ← onStore (catchRuntimeError add fun _ => return false)
        require (some success) status text : HandlerM Unit) server
      (fun _ after => Stored record before after) fun halt after => Halted record before halt after := by
  rw [ends_bind]
  have ends := reversible.added server reads
  unfold Ends at ends ⊢
  unfold onStore
  cases ran : add server with
  | ok success after =>
    rw [ran] at ends
    rw [catchRuntimeError, tryCatch_returned ran]
    cases success with
    | true => exact ends
    | false => exact ⟨bad, .inr ends⟩
  | error message after =>
    rw [ran] at ends
    rw [catchRuntimeError, tryCatch_thrown ran]
    by_cases same : message = keyNotFound
    · rw [if_pos same]
      exact .inr (.inl ends.database)
    · rw [if_neg same]
      exact ⟨bad, .inl ends.database⟩

end

theorem ends_inHandler {α : Type} {program : StoreM α} {world : HandingWorld} {post : α → Server → Prop}
    {thrown : String → Server → Prop} (ends : Ends program world.server post thrown) :
    Ends (inHandler program) world (fun value after => post value after.server)
      fun halt after => ∃ message, halt = .thrown message ∧ thrown message after.server := by
  unfold Ends at ends ⊢
  unfold inHandler withFiles onServer onStore
  cases ran : program world.server with
  | ok value after =>
    rw [ran] at ends
    exact ends
  | error message after =>
    rw [ran] at ends
    exact ⟨message, rfl, ends⟩

/-- The record is taken back before the refusal. -/
theorem ends_takeBack {σ α : Type} {server : σ → Server} {record : Database → Database} {before : Server} {removing : EStateM Halt σ Bool}
    {thrown : Halt → σ → Prop} {state : σ} (removed : Ends removing state (fun _ after => NothingLeft before (server after)) thrown)
    (never : ∀ halt after, ¬ thrown halt after) {status : Nat} (bad : status ≠ 200) (text : String) {post : α → σ → Prop} :
    Ends (do
        let _ ← removing
        refuse status text : EStateM Halt σ α) state post fun halt after => Halted record before halt (server after) := by
  rw [ends_bind]
  apply removed.mono
  · exact fun _ _ left => ⟨bad, left⟩
  · exact fun halt after impossible => absurd impossible (never halt after)

/-- The record is taken back by a handler that hands files to commands. -/
theorem ends_takeBack_inHandler {α : Type} {record : Database → Database} {before : Server} {add remove : StoreM Bool}
    (reversible : Reversible record add remove before) {status : Nat} (bad : status ≠ 200) (text : String)
    {post : α → HandingWorld → Prop} {world : HandingWorld} (stored : Stored record before world.server) :
    Ends (do
        let _ ← inHandler remove
        refuse status text : HandingM α) world post fun halt after => Halted record before halt after.server :=
  ends_takeBack (ends_inHandler (reversible.removed world.server stored)) (fun _ _ impossible => impossible.choose_spec.2) bad text

private theorem Creates.of_none {record : Database → Database} {before after : Server}
    (left : after.database = record before.database ∨ NothingLeft before after) : Creates record before after none where
  made _ same := by cases same
  refused _ same := by cases same
  broken _ := left

private theorem ending_creates {σ : Type} {server : σ → Server} {record : Database → Database} {before : Server}
    {program : EStateM Halt σ Response} {state : σ}
    (ends : Ends program state (fun response after => response.status = 200 ∧ Stored record before (server after))
      fun halt after => Halted record before halt (server after)) :
    Creates record before (server (ending (program state)).2) (ending (program state)).1 := by
  unfold Ends at ends
  cases ran : program state with
  | ok response after =>
    rw [ran] at ends
    refine ⟨fun _ _ _ => ends.2.database, fun other same bad => ?_, fun gone => by cases gone⟩
    cases same
    exact absurd ends.1 bad
  | error halt after =>
    rw [ran] at ends
    cases halt with
    | response response =>
      refine ⟨fun other same good => ?_, fun _ _ _ => ends.2, fun gone => by cases gone⟩
      cases same
      exact absurd good ends.1
    | thrown message => exact .of_none ends
    | assertion => exact .of_none ends

/-- What is known of a success is known of an answer that tells of one. -/
theorem ending_made {σ : Type} {server : σ → Server} {record : Database → Database} {before : Server} {good : Response → σ → Prop}
    {program : EStateM Halt σ Response} {state : σ}
    (ends : Ends program state good fun halt after => Halted record before halt (server after)) {response : Response}
    (answered : (ending (program state)).1 = some response) (success : response.status = 200) :
    good response (ending (program state)).2 := by
  unfold Ends at ends
  cases ran : program state with
  | ok response after =>
    rw [ran] at ends answered
    cases answered
    exact ends
  | error halt after =>
    rw [ran] at ends answered
    cases halt with
    | response response =>
      cases answered
      exact absurd success ends.1
    | thrown message => cases answered
    | assertion => cases answered

/-- How a request ends that is to make a record: with the record if the user is told of one, of which all that is wanted is true. -/
structure Settles {σ : Type} (server : σ → Server) (record : Database → Database) (wanted : Response → σ → Prop)
    (program : EStateM Halt σ Response) (state : σ) : Prop
    extends Creates record (server state) (server (ending (program state)).2) (ending (program state)).1 where
  told : ∀ response, (ending (program state)).1 = some response → response.status = 200 → wanted response (ending (program state)).2

/-- First it is asked for something, and what is asked for is then recorded. -/
theorem settles_bind {σ γ : Type} {server : σ → Server} {ask : EStateM Halt σ γ} {keep : γ → EStateM Halt σ Response}
    {record : γ → Database → Database} {known : γ → σ → Prop} {wanted : γ → Response → σ → Prop} {named : γ → Prop} {state : σ}
    (confined : Confined (ServerCourse server OnlyReads) Halt.Refusal ask) (asked : Yields ask state known)
    (kept : ∀ value middle, known value middle → OnlyReads (server state) (server middle) → Ends (keep value) middle
      (fun response after => (response.status = 200 ∧ Stored (record value) (server state) (server after)) ∧ wanted value response after)
      fun halt after => Halted (record value) (server state) halt (server after))
    (names : ∀ value middle, known value middle → named value) {other : γ} (otherwise : named other) :
    ∃ value, named value ∧ Settles server (record value) (wanted value) (ask >>= keep) state := by
  have early : ∀ record, Ends ask state (fun _ after => OnlyReads (server state) (server after))
      fun halt after => Halted record (server state) halt (server after) :=
    fun record => ends_first confined (refl (r := OnlyReads) (server state))
  have settles : ∀ value, Ends (ask >>= keep) state
      (fun response after => (response.status = 200 ∧ Stored (record value) (server state) (server after)) ∧ wanted value response after)
      (fun halt after => Halted (record value) (server state) halt (server after)) →
      Settles server (record value) (wanted value) (ask >>= keep) state :=
    fun value ends => ⟨ending_creates (ends.mono (fun _ _ => And.left) fun _ _ => id),
      fun _ answered success => (ending_made ends answered success).2⟩
  unfold Yields at asked
  unfold Ends at early
  cases ran : ask state with
  | ok value middle =>
    rw [ran] at asked early
    refine ⟨value, names value middle asked, settles value ?_⟩
    rw [Ends, bind_returned ran]
    exact kept value middle asked (early (record value))
  | error halt after =>
    refine ⟨other, otherwise, settles other ?_⟩
    have halted := early (record other)
    rw [ran] at halted
    rw [Ends, bind_thrown ran]
    exact halted

end Slate
