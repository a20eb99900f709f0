import Slate.UserCalls
import Slate.Proofs.UserCaches

/-! Changes and deletions of users while other calls run. They last when each is
written over the record it was made from, while no other call is about to cache a
record of the user. -/

namespace Slate
open Library

def UserPlace.IsOf (user : User) : UserPlace → Prop
  | byID id => id = user.id
  | byToken token => token = user.token
  | byGlobusID globusID => globusID = user.globusID

/-- Time may pass, but neither the database nor what is cached about users changes. -/
structure Quiet (before after : Server) : Prop extends Later before after where
  database : after.database = before.database
  users : after.users = before.users

theorem Quiet.refl (server : Server) : Quiet server server := ⟨.refl server, rfl, rfl⟩
theorem Quiet.tick (server : Server) : Quiet server server.tick := ⟨.tick server, rfl, rfl⟩
theorem Quiet.answered (server : Server) : Quiet server server.answered := ⟨.answered server, rfl, rfl⟩

namespace UserCall

/-- The steps that change neither the database nor a cache. -/
inductive Goes (server : Server) : UserCall → UserCall → Prop
  | hit {id : String} {purpose : UserPurpose} {entry : CacheRecord User}
      (found : server.users.entry (.byID id) = some entry) (valid : server.clock 0 ≤ entry.expirationTime) :
      Goes server (looking id purpose) (proceed id entry.record purpose)
  | missed {id : String} {purpose : UserPurpose} : Goes server (looking id purpose) (reading id purpose)
  | absent {id : String} {purpose : UserPurpose} : Goes server (reading id purpose) (proceed id {} purpose)
  | read {id : String} {purpose : UserPurpose} {item : UserItem} (found : server.database.users.lookup id = some item) :
      Goes server (reading id purpose) (caching id (userOfItem id item) purpose)
  | prepared {id : String} {purpose : UserPurpose} (record : CacheRecord User) :
      Goes server (caching id record.record purpose)
        (enter record (proceed id record.record purpose) (UserCaching.looked record.record))
  | hitToken {token : String} {entry : CacheRecord User} (found : server.users.entry (.byToken token) = some entry)
      (valid : server.clock 0 ≤ entry.expirationTime) : Goes server (searching token) (.found token entry.record)
  | missedToken {token : String} : Goes server (searching token) (querying token)
  | unknown {token : String} : Goes server (querying token) (.found token {})
  | queried {token id : String} {item : UserItem} (found : server.database.users.lookup id = some item)
      (same : item.token = token) : Goes server (querying token) (cachingFound token (userOfItem id item))
  | preparedFound {token : String} (record : CacheRecord User) :
      Goes server (cachingFound token record.record)
        (enter record (.found token record.record) (UserCaching.looked record.record))
  | failed {change : UserChange} {old : User} : Goes server (updating change old) (updated (change.apply old) old false)
  | replacing {old : User} (record : CacheRecord User) :
      Goes server (stored record.record old)
        (enter record (updated record.record old true) (UserCaching.changed record.record old))
  | forgot {id : String} {places : List UserPlace} : Goes server (forgetting id) (clear id places)
  | undeleted {id : String} : Goes server (deleting id) (deleted id false)

inductive Steps (server after : Server) : UserCall → UserCall → Prop
  | goes {call moved : UserCall} (quiet : Quiet server after) (goes : Goes server call moved) : Steps server after call moved
  | writes {change : UserChange} {old : User} (later : Later server after) (succeeded : server.outcomes 0 = true)
      (users : after.users = server.users)
      (database : after.database.users = server.database.users.insert old.id (itemOfUser (change.apply old))) :
      Steps server after (updating change old) (stored (change.apply old) old)
  | enters {record : CacheRecord User} {first : UserCaching} {rest : List UserCaching} {next : UserCall}
      (later : Later server after) (users : after.users = first.apply record server.users)
      (database : after.database = server.database) :
      Steps server after (entering record first rest next) (enter record next rest)
  | clears {first : UserPlace} {rest : List UserPlace} {id : String} (later : Later server after)
      (users : after.users = server.users.erase first) (database : after.database = server.database) :
      Steps server after (clearing first rest id) (clear id rest)
  | deletes {id : String} (later : Later server after) (succeeded : server.outcomes 0 = true)
      (users : after.users = server.users) (database : after.database.users = AList.erase id server.database.users) :
      Steps server after (deleting id) (deleted id true)

theorem piece_steps {call moved : UserCall} {server after : Server} (busy : call.idle = false)
    (ran : call.piece server = .ok moved after) : Steps server after call moved := by
  suffices covers : Yields call.piece server fun moved after => Steps server after call moved from covers.of_ok ran
  cases call with
  | ready => cases busy
  | got => cases busy
  | found => cases busy
  | refused => cases busy
  | updated => cases busy
  | deleted => cases busy
  | looking id purpose =>
    simp only [piece, yields_bind, yields_get]
    refine Returns.yields (returns_cached (fun entry found valid => ?_) fun passed same => ?_)
    · exact .goes (.tick server) (.hit found valid)
    · rcases same with rfl | rfl
      · exact .goes (.refl passed) .missed
      · exact .goes (.tick server) .missed
  | reading id purpose =>
    simp only [piece, yields_bind, yields_request, yields_ite, yields_pure, yields_get, answered_database]
    split
    next =>
      split
      next => exact .goes (.answered server) .absent
      next item found => exact .goes (.answered server) (.read found)
    next => exact .goes (.answered server) .absent
  | caching id user purpose =>
    simp only [piece, yields_bind, yields_lasting, yields_pure]
    exact .goes (.tick server) (.prepared ⟨user, _⟩)
  | searching token =>
    simp only [piece, yields_bind, yields_get]
    refine Returns.yields (returns_cached (fun entry found valid => ?_) fun passed same => ?_)
    · exact .goes (.tick server) (.hitToken found valid)
    · rcases same with rfl | rfl
      · exact .goes (.refl passed) .missedToken
      · exact .goes (.tick server) .missedToken
  | querying token =>
    simp only [piece, yields_bind, yields_request, yields_ite, yields_pure, yields_get, answered_database]
    split
    next =>
      split
      next => exact .goes (.answered server) .unknown
      next id item rows =>
        have member : (id, item) ∈ server.database.users.select fun _ item => item.token == token := by
          rw [rows]
          exact List.mem_singleton.mpr rfl
        obtain ⟨found, same⟩ := FiniteMap.mem_select.mp member
        exact .goes (.answered server) (.queried found (beq_iff_eq.mp same))
      next => trivial
    next => exact .goes (.answered server) .unknown
  | cachingFound token user =>
    simp only [piece, yields_bind, yields_lasting, yields_pure]
    exact .goes (.tick server) (.preparedFound ⟨user, _⟩)
  | updating change old =>
    simp only [piece, putUserItem, yields_bind, yields_request, yields_ite, yields_pure, yields_modify]
    split
    next succeeded => exact .writes ((Later.answered server).trans (.of_eq rfl rfl)) succeeded rfl rfl
    next => exact .goes (.answered server) .failed
  | stored user old =>
    simp only [piece, yields_bind, yields_lasting, yields_pure]
    exact .goes (.tick server) (.replacing ⟨user, _⟩)
  | entering record first rest next =>
    simp only [piece, yields_bind, yields_modify, yields_pure]
    exact .enters (.of_eq rfl rfl) rfl rfl
  | forgetting id =>
    simp only [piece, yields_bind, yields_get, yields_pure]
    exact .goes (.refl server) .forgot
  | clearing first rest id =>
    simp only [piece, yields_bind, yields_modify, yields_pure]
    exact .clears (.of_eq rfl rfl) rfl rfl
  | deleting id =>
    simp only [piece, deleteUserItem, yields_bind, yields_request, yields_ite, yields_pure, yields_modify]
    split
    next succeeded => exact .deletes ((Later.answered server).trans (.of_eq rfl rfl)) succeeded rfl rfl
    next => exact .goes (.answered server) .undeleted

/-- How a call may go on that has cached a record of the user. -/
def Follows (user : User) : UserCall → Prop
  | got id answer => answer = user ∧ user.id = id
  | .found token answer => answer = user ∧ user.token = token
  | updating _ old => old = user
  | updated changed old _ => changed = user ∧ old.id = user.id
  | refused _ => True
  | forgetting _ => True
  | _ => False

/-- What a call knows of the table is true. -/
def Sound (table : FiniteMap String UserItem) : UserCall → Prop
  | caching id user _ => UserHeld table user ∧ user.id = id
  | cachingFound token user => UserHeld table user ∧ user.token = token
  | updating _ old => old.valid = true
  | stored user old => UserHeld table user ∧ old.id = user.id ∧ old.globusID = user.globusID
  | entering record first rest next => UserHeld table record.record ∧
      (∀ place, .store place ∈ first :: rest → place.IsOf record.record) ∧ next.Follows record.record
  | _ => True

/-- The ID of the user of whom the call has still to cache a record. -/
def pending : UserCall → Option String
  | caching _ user _ => some user.id
  | cachingFound _ user => some user.id
  | stored user _ => some user.id
  | entering record _ _ _ => some record.record.id
  | _ => none

/-- The call has replaced a user in the table, and not yet at this place. -/
def Replaces (place : UserPlace) (user : User) : UserCall → Prop
  | stored changed old => old = user ∧ ∃ step ∈ UserCaching.changed changed old, step.place = place
  | entering _ first rest (updated _ old _) => old = user ∧ ∃ step ∈ first :: rest, step.place = place
  | _ => False

/-- The call has replaced the user with this ID, and has caches to change. -/
def Rewrites (id : String) : UserCall → Prop
  | stored user _ => user.id = id
  | entering record _ _ (updated _ _ _) => record.record.id = id
  | _ => False

/-- The change that the call has still to write, and the ID of the user. -/
def asked : UserCall → Option (String × UserChange)
  | looking id (.change change) => some (id, change)
  | reading id (.change change) => some (id, change)
  | caching id _ (.change change) => some (id, change)
  | updating change old => some (old.id, change)
  | entering _ _ _ next => next.asked
  | _ => none

theorem Rewrites.pending {id : String} {call : UserCall} (rewrites : call.Rewrites id) : call.pending = some id := by
  unfold Rewrites at rewrites
  split at rewrites
  next => exact congrArg some rewrites
  next => exact congrArg some rewrites
  next => cases rewrites

theorem Replaces.rewrites {place : UserPlace} {user : User} {call : UserCall} {table : FiniteMap String UserItem}
    (replaces : call.Replaces place user) (sound : call.Sound table) : call.Rewrites user.id := by
  unfold Replaces at replaces
  split at replaces
  next changed old =>
    obtain ⟨rfl, -⟩ := replaces
    exact sound.2.1.symm
  next record first rest changed old done =>
    obtain ⟨rfl, -⟩ := replaces
    exact sound.2.2.2.symm
  next => cases replaces

end UserCall

/-- The record was read from the table, or a call has replaced it and is about to
say so. -/
def UserKnown (pool : Pool Server UserCall) (user : User) : Prop :=
  UserHeld pool.store.database.users user ∨ ∃ call place, (pool.calls call).Replaces place user

/-- Every cached record that can still be valid is the table's, or is about to be
overwritten or erased by the call that replaced it. -/
structure UsersSettled (pool : Pool Server UserCall) : Prop where
  sound : ∀ call, (pool.calls call).Sound pool.store.database.users
  placed : ∀ place entry, pool.store.users.entry place = some entry → place.IsOf entry.record
  entries : ∀ place entry, pool.store.users.entry place = some entry →
    UserHeld pool.store.database.users entry.record ∨ Spent pool.store (some entry) ∨
      ∃ call, (pool.calls call).Replaces place entry.record
  single : ∀ call other id, (pool.calls call).Rewrites id → (pool.calls other).Rewrites id → call = other

/-- A change is written over the very record it was made from, and a user is deleted
when nothing is cached; in both cases no call is about to cache a record of the user. -/
structure UsersOrderly (event : Event UserRequest) (pool : Pool Server UserCall) : Prop where
  writes : ∀ call change old, event = .advance call → pool.calls call = .updating change old →
    pool.store.outcomes 0 = true →
    UserHeld pool.store.database.users old ∧ ∀ other, (pool.calls other).pending ≠ some old.id
  deletes : ∀ call id, event = .advance call → pool.calls call = .deleting id → pool.store.outcomes 0 = true →
    (∀ other, (pool.calls other).pending ≠ some id) ∧
      ∀ place entry, pool.store.users.entry place = some entry → entry.record.id = id → Spent pool.store (some entry)

namespace UserCall

theorem proceed_cases (id : String) (user : User) (purpose : UserPurpose) :
    proceed id user purpose = got id user ∨ proceed id user purpose = refused id ∨
      proceed id user purpose = forgetting id ∨
      ∃ change, user.valid = true ∧ purpose = .change change ∧ proceed id user purpose = updating change user := by
  cases purpose with
  | answer => exact .inl rfl
  | change change =>
    unfold proceed
    cases user.valid with
    | true => exact .inr (.inr (.inr ⟨change, rfl, rfl, rfl⟩))
    | false => exact .inr (.inl rfl)
  | delete =>
    unfold proceed
    cases user.valid with
    | true => exact .inr (.inr (.inl rfl))
    | false => exact .inr (.inl rfl)

theorem Follows.sound {table : FiniteMap String UserItem} {user : User} {call : UserCall} (follows : call.Follows user)
    (held : UserHeld table user) : call.Sound table := by
  cases call with
  | updating change old =>
    obtain rfl : old = user := follows
    obtain ⟨item, -, whole⟩ := held
    rw [Sound, whole]
    rfl
  | got => trivial
  | found => trivial
  | updated => trivial
  | refused => trivial
  | forgetting => trivial
  | _ => cases follows

theorem sound_enter {table : FiniteMap String UserItem} {record : CacheRecord User} {next : UserCall}
    {steps : List UserCaching} (held : UserHeld table record.record)
    (places : ∀ place, .store place ∈ steps → place.IsOf record.record) (follows : next.Follows record.record) :
    (enter record next steps).Sound table := by
  cases steps with
  | nil => exact follows.sound held
  | cons first rest => exact ⟨held, places, follows⟩

private theorem looked_places {user : User} {place : UserPlace} (member : .store place ∈ UserCaching.looked user) :
    place.IsOf user := by
  simp only [UserCaching.looked, List.mem_cons, UserCaching.store.injEq, List.not_mem_nil, or_false] at member
  obtain rfl | rfl | rfl := member <;> rfl

private theorem changed_places {user old : User} {place : UserPlace} (member : .store place ∈ UserCaching.changed user old) :
    place.IsOf user := by
  have cases : place = .byID user.id ∨ place = .byToken user.token ∨ place = .byGlobusID user.globusID := by
    unfold UserCaching.changed at member
    split at member <;> simpa using member
  obtain rfl | rfl | rfl := cases <;> rfl

/-- An update sees to every place where the old record may be cached. -/
theorem changed_covers {user old : User} (same : old.id = user.id) (globus : old.globusID = user.globusID)
    {place : UserPlace} (isOf : place.IsOf old) : ∃ step ∈ UserCaching.changed user old, step.place = place := by
  unfold UserCaching.changed
  cases place with
  | byID id =>
    obtain rfl : id = old.id := isOf
    exact ⟨.store (.byID user.id), by simp, by rw [same]; rfl⟩
  | byToken token =>
    obtain rfl : token = old.token := isOf
    by_cases kept : old.token = user.token
    · exact ⟨.store (.byToken user.token), by simp, by rw [kept]; rfl⟩
    · exact ⟨.erase (.byToken old.token), by simp [kept], rfl⟩
  | byGlobusID globusID =>
    obtain rfl : globusID = old.globusID := isOf
    exact ⟨.store (.byGlobusID user.globusID), by simp, by rw [globus]; rfl⟩

theorem Goes.sound {server : Server} {call moved : UserCall} (goes : Goes server call moved)
    (sound : call.Sound server.database.users) : moved.Sound server.database.users := by
  have proceeds : ∀ id user purpose, (proceed id user purpose).Sound server.database.users := by
    intro id user purpose
    obtain same | same | same | ⟨change, valid, -, same⟩ := proceed_cases id user purpose <;> rw [same]
    · trivial
    · trivial
    · trivial
    · exact valid
  have follows : ∀ {id : String} {user : User} (purpose : UserPurpose), user.id = id →
      (proceed id user purpose).Follows user := by
    intro id user purpose named
    obtain same | same | same | ⟨change, valid, -, same⟩ := proceed_cases id user purpose <;> rw [same]
    · exact ⟨rfl, named⟩
    · trivial
    · trivial
    · rfl
  cases goes with
  | hit => exact proceeds _ _ _
  | absent => exact proceeds _ _ _
  | read found => exact ⟨userHeld_of_lookup found, rfl⟩
  | prepared record => exact sound_enter sound.1 (fun _ => looked_places) (follows _ sound.2)
  | queried found same => exact ⟨userHeld_of_lookup found, same⟩
  | preparedFound record => exact sound_enter sound.1 (fun _ => looked_places) ⟨rfl, sound.2⟩
  | replacing record => exact sound_enter sound.1 (fun _ => changed_places) ⟨rfl, sound.2.1⟩
  | @forgot id places => cases places <;> trivial
  | _ => trivial

theorem Goes.replaces {server : Server} {call moved : UserCall} (goes : Goes server call moved) (place : UserPlace)
    (user : User) : moved.Replaces place user ↔ call.Replaces place user := by
  cases goes with
  | @hit id purpose entry =>
    obtain same | same | same | ⟨change, -, -, same⟩ := proceed_cases id entry.record purpose <;> rw [same] <;> rfl
  | @absent id purpose =>
    obtain same | same | same | ⟨change, -, -, same⟩ := proceed_cases id {} purpose <;> rw [same] <;> rfl
  | @prepared id purpose record =>
    obtain same | same | same | ⟨change, -, -, same⟩ := proceed_cases id record.record purpose <;> rw [same] <;> rfl
  | @forgot id places => cases places <;> rfl
  | _ => rfl

theorem Goes.rewrites {server : Server} {call moved : UserCall} (goes : Goes server call moved) (id : String) :
    moved.Rewrites id ↔ call.Rewrites id := by
  cases goes with
  | @hit id purpose entry =>
    obtain same | same | same | ⟨change, -, -, same⟩ := proceed_cases id entry.record purpose <;> rw [same] <;> rfl
  | @absent id purpose =>
    obtain same | same | same | ⟨change, -, -, same⟩ := proceed_cases id {} purpose <;> rw [same] <;> rfl
  | @prepared id purpose record =>
    obtain same | same | same | ⟨change, -, -, same⟩ := proceed_cases id record.record purpose <;> rw [same] <;> rfl
  | @forgot id places => cases places <;> rfl
  | _ => rfl

theorem Goes.asked {server : Server} {call moved : UserCall} (goes : Goes server call moved)
    (sound : call.Sound server.database.users)
    (placed : ∀ place entry, server.users.entry place = some entry → place.IsOf entry.record)
    {change : String × UserChange} (asks : moved.asked = some change) : call.asked = some change := by
  have proceeds : ∀ {id : String} {user : User} {purpose : UserPurpose}, (user.valid = true → user.id = id) →
      (proceed id user purpose).asked = some change → ∃ wanted, purpose = .change wanted ∧ change = (id, wanted) := by
    intro id user purpose named asks
    obtain same | same | same | ⟨wanted, valid, rfl, same⟩ := proceed_cases id user purpose <;> rw [same] at asks
    · cases asks
    · cases asks
    · cases asks
    · cases asks
      exact ⟨wanted, rfl, by rw [named valid]⟩
  cases goes with
  | hit found =>
    obtain ⟨wanted, rfl, rfl⟩ := proceeds (fun _ => (placed _ _ found).symm) asks
    rfl
  | @missed id purpose => cases purpose <;> exact asks
  | absent =>
    obtain ⟨wanted, rfl, rfl⟩ := proceeds (fun valid => by cases valid) asks
    rfl
  | @read id purpose item found => cases purpose <;> exact asks
  | prepared record =>
    obtain ⟨wanted, rfl, rfl⟩ := proceeds (fun _ => sound.2) asks
    rfl
  | @forgot id places => cases places <;> cases asks
  | _ => cases asks

theorem Sound.insert {table : FiniteMap String UserItem} {call : UserCall} (sound : call.Sound table) {id : String}
    {item : UserItem} (apart : call.pending ≠ some id) : call.Sound (AList.insert id item table) := by
  have other : ∀ user : User, call.pending = some user.id → user.id ≠ id := fun user same clash =>
    apart (clash ▸ same)
  cases call with
  | caching named user => exact sound.imp_left fun held => held.insert (other user rfl)
  | cachingFound token user => exact sound.imp_left fun held => held.insert (other user rfl)
  | stored user => exact sound.imp_left fun held => held.insert (other user rfl)
  | entering record => exact sound.imp_left fun held => held.insert (other record.record rfl)
  | _ => exact sound

theorem Sound.erase {table : FiniteMap String UserItem} {call : UserCall} (sound : call.Sound table) {id : String}
    (apart : call.pending ≠ some id) : call.Sound (AList.erase id table) := by
  have other : ∀ user : User, call.pending = some user.id → user.id ≠ id := fun user same clash =>
    apart (clash ▸ same)
  cases call with
  | caching named user => exact sound.imp_left fun held => held.erase (other user rfl)
  | cachingFound token user => exact sound.imp_left fun held => held.erase (other user rfl)
  | stored user => exact sound.imp_left fun held => held.erase (other user rfl)
  | entering record => exact sound.imp_left fun held => held.erase (other record.record rfl)
  | _ => exact sound

end UserCall

/-- The pool after one call has moved, in terms of what its step does to the table
and to what is cached. -/
theorem UsersSettled.after {pool after : Pool Server UserCall} (settled : UsersSettled pool) {call : Nat}
    (same : ∀ other, other ≠ call → after.calls other = pool.calls other)
    (mine : (after.calls call).Sound after.store.database.users)
    (others : ∀ other, other ≠ call → (pool.calls other).Sound after.store.database.users)
    (placed : ∀ place entry, after.store.users.entry place = some entry → place.IsOf entry.record)
    (entries : ∀ place entry, after.store.users.entry place = some entry →
      UserHeld after.store.database.users entry.record ∨ Spent after.store (some entry) ∨
        (after.calls call).Replaces place entry.record ∨
        ∃ other, other ≠ call ∧ (pool.calls other).Replaces place entry.record)
    (single : ∀ other id, other ≠ call → (after.calls call).Rewrites id → ¬ (pool.calls other).Rewrites id) :
    UsersSettled after where
  sound := by
    intro other
    rcases eq_or_ne other call with rfl | different
    · exact mine
    · rw [same other different]
      exact others other different
  placed := placed
  entries := by
    intro place entry found
    obtain held | spent | replaced | ⟨other, different, replaced⟩ := entries place entry found
    · exact .inl held
    · exact .inr (.inl spent)
    · exact .inr (.inr ⟨call, replaced⟩)
    · exact .inr (.inr ⟨other, (same other different).symm ▸ replaced⟩)
  single := by
    intro first second id rewrites rewrites'
    by_contra distinct
    rcases eq_or_ne first call with rfl | different
    · rw [same second (Ne.symm distinct)] at rewrites'
      exact single second id (Ne.symm distinct) rewrites rewrites'
    · rw [same first different] at rewrites
      rcases eq_or_ne second call with rfl | different'
      · exact single first id different rewrites' rewrites
      · rw [same second different'] at rewrites'
        exact distinct (settled.single first second id rewrites rewrites')

private theorem UserCall.pending_of_replaces {place : UserPlace} {user : User} {call : UserCall}
    {table : FiniteMap String UserItem} (replaces : call.Replaces place user) (sound : call.Sound table) :
    call.pending = some user.id := (replaces.rewrites sound).pending

private theorem UserCaching.entry_apply {step : UserCaching} {record entry : CacheRecord User} {caches : UserCaches}
    {place : UserPlace} (found : (step.apply record caches).entry place = some entry) :
    step = .store place ∧ entry = record ∨ place ≠ step.place ∧ caches.entry place = some entry := by
  cases step with
  | store target =>
    rw [UserCaching.apply, UserCaches.entry_store] at found
    split at found
    next here =>
      subst here
      exact .inl ⟨rfl, (Option.some.inj found).symm⟩
    next elsewhere => exact .inr ⟨elsewhere, found⟩
  | erase target =>
    rw [UserCaching.apply, UserCaches.entry_erase] at found
    split at found
    next => cases found
    next elsewhere => exact .inr ⟨elsewhere, found⟩

private theorem UserCall.replaces_enter {record : CacheRecord User} {first : UserCaching} {rest : List UserCaching}
    {next : UserCall} {place : UserPlace} {user : User} (replaces : (entering record first rest next).Replaces place user)
    (elsewhere : place ≠ first.place) : (enter record next rest).Replaces place user := by
  cases next with
  | updated changed old done =>
    obtain ⟨same, step, member, here⟩ := replaces
    rcases List.mem_cons.mp member with rfl | inside
    · exact absurd here.symm elsewhere
    · cases rest with
      | nil => cases inside
      | cons second rest => exact ⟨same, step, inside, here⟩
  | _ => cases replaces

private theorem UserCall.rewrites_enter {record : CacheRecord User} {first : UserCaching} {rest : List UserCaching}
    {next : UserCall} {id : String} (follows : next.Follows record.record)
    (rewrites : (enter record next rest).Rewrites id) : (entering record first rest next).Rewrites id := by
  cases rest with
  | nil =>
    cases next with
    | stored => cases follows
    | entering => cases follows
    | _ => cases rewrites
  | cons second rest => cases next <;> exact rewrites

section Steps

variable {pool after : Pool Server UserCall} (settled : UsersSettled pool) {call : Nat}
  (same : ∀ other, other ≠ call → after.calls other = pool.calls other)
include settled

private theorem UsersSettled.apart {before : UserCall} (current : pool.calls call = before) {other : Nat} {id : String}
    (different : other ≠ call) (rewrites : before.Rewrites id) : ¬ (pool.calls other).Rewrites id := by
  subst current
  exact fun rewrites' => different (settled.single other call id rewrites' rewrites)

/-- What is known of an entry that a step does not touch, while the table stays. -/
private theorem UsersSettled.unchanged {before : UserCall} (current : pool.calls call = before) {place : UserPlace}
    {entry : CacheRecord User} (found : pool.store.users.entry place = some entry) (later : Later pool.store after.store)
    (database : after.store.database = pool.store.database) :
    UserHeld after.store.database.users entry.record ∨ Spent after.store (some entry) ∨
      before.Replaces place entry.record ∨ ∃ other, other ≠ call ∧ (pool.calls other).Replaces place entry.record := by
  subst current
  obtain held | spent | ⟨other, replaced⟩ := settled.entries place entry found
  · exact .inl (database.symm ▸ held)
  · exact .inr (.inl (spent.later later))
  · rcases eq_or_ne other call with rfl | different
    · exact .inr (.inr (.inl replaced))
    · exact .inr (.inr (.inr ⟨other, different, replaced⟩))

include same

private theorem UsersSettled.went {before moved : UserCall} (current : pool.calls call = before)
    (next : after.calls call = moved) (quiet : Quiet pool.store after.store) (goes : UserCall.Goes pool.store before moved) :
    UsersSettled after := by
  have mine := settled.sound call
  rw [current] at mine
  refine settled.after same ?_ ?_ ?_ ?_ ?_
  · rw [next, quiet.database]
    exact goes.sound mine
  · rw [quiet.database]
    exact fun other _ => settled.sound other
  · rw [quiet.users]
    exact settled.placed
  · intro place entry found
    rw [quiet.users] at found
    rw [next, goes.replaces]
    exact settled.unchanged current found quiet.toLater quiet.database
  · rw [next]
    exact fun other id different rewrites => settled.apart current different ((goes.rewrites id).mp rewrites)

/-- The table holds the changed record, and the entries of the old one are still to be
replaced by the call. -/
private theorem UsersSettled.wrote {change : UserChange} {old : User} (current : pool.calls call = .updating change old)
    (next : after.calls call = .stored (change.apply old) old) (held : UserHeld pool.store.database.users old)
    (idle : ∀ other, (pool.calls other).pending ≠ some old.id) (later : Later pool.store after.store)
    (users : after.store.users = pool.store.users)
    (database : after.store.database.users = pool.store.database.users.insert old.id (itemOfUser (change.apply old))) :
    UsersSettled after := by
  have mine := settled.sound call
  rw [current] at mine
  have stored := userHeld_stored pool.store.database.users (show (change.apply old).valid = true from mine)
  rw [← show (change.apply old).id = old.id from rfl] at database
  rw [← database] at stored
  refine settled.after same ?_ ?_ ?_ ?_ ?_
  · rw [next]
    exact ⟨stored, rfl, rfl⟩
  · rw [database]
    exact fun other _ => (settled.sound other).insert (idle other)
  · rw [users]
    exact settled.placed
  · intro place entry found
    rw [users] at found
    obtain held' | spent | ⟨other, replaced⟩ := settled.entries place entry found
    · by_cases clash : entry.record.id = old.id
      · obtain replaced : entry.record = old := held'.eq held clash
        have isOf := settled.placed place entry found
        rw [replaced] at isOf
        have covers := UserCall.changed_covers (show old.id = (change.apply old).id from rfl)
          (show old.globusID = (change.apply old).globusID from rfl) isOf
        rw [next, replaced]
        exact .inr (.inr (.inl ⟨rfl, covers⟩))
      · rw [database]
        exact .inl (held'.insert clash)
    · exact .inr (.inl (spent.later later))
    · refine .inr (.inr (.inr ⟨other, ?_, replaced⟩))
      rintro rfl
      rw [current] at replaced
      exact replaced
  · rw [next]
    rintro other id different rewrites rewrites'
    obtain rfl : old.id = id := rewrites
    exact idle other rewrites'.pending

private theorem UsersSettled.entered {record : CacheRecord User} {first : UserCaching} {rest : List UserCaching}
    {following : UserCall} (current : pool.calls call = .entering record first rest following)
    (next : after.calls call = .enter record following rest) (later : Later pool.store after.store)
    (users : after.store.users = first.apply record pool.store.users)
    (database : after.store.database = pool.store.database) : UsersSettled after := by
  have mine := settled.sound call
  rw [current] at mine
  have follows : (UserCall.enter record following rest).Sound pool.store.database.users :=
    UserCall.sound_enter mine.1 (fun place member => mine.2.1 place (List.mem_cons_of_mem _ member)) mine.2.2
  refine settled.after same ?_ ?_ ?_ ?_ ?_
  · rw [next, database]
    exact follows
  · rw [database]
    exact fun other _ => settled.sound other
  · intro place entry found
    rw [users] at found
    obtain ⟨rfl, rfl⟩ | ⟨-, kept⟩ := UserCaching.entry_apply found
    · exact mine.2.1 place (by simp)
    · exact settled.placed place entry kept
  · intro place entry found
    rw [users] at found
    obtain ⟨rfl, rfl⟩ | ⟨elsewhere, kept⟩ := UserCaching.entry_apply found
    · exact .inl (database.symm ▸ mine.1)
    · rw [next]
      refine (settled.unchanged current kept later database).imp_right (Or.imp_right (Or.imp_left ?_))
      exact fun replaces => UserCall.replaces_enter replaces elsewhere
  · rw [next]
    exact fun other id different rewrites => settled.apart current different (UserCall.rewrites_enter mine.2.2 rewrites)

private theorem UsersSettled.cleared {first : UserPlace} {rest : List UserPlace} {id : String}
    (current : pool.calls call = .clearing first rest id) (next : after.calls call = .clear id rest)
    (later : Later pool.store after.store) (users : after.store.users = pool.store.users.erase first)
    (database : after.store.database = pool.store.database) : UsersSettled after := by
  refine settled.after same ?_ ?_ ?_ ?_ ?_
  · rw [next]
    cases rest <;> trivial
  · rw [database]
    exact fun other _ => settled.sound other
  · intro place entry found
    rw [users, UserCaches.entry_erase] at found
    split at found
    next => cases found
    next => exact settled.placed place entry found
  · intro place entry found
    rw [users, UserCaches.entry_erase] at found
    split at found
    next => cases found
    next =>
      refine (settled.unchanged current found later database).imp_right (Or.imp_right (Or.imp_left ?_))
      exact False.elim
  · rw [next]
    intro other id different rewrites
    cases rest <;> cases rewrites

/-- The table loses a user of whom no valid entry is left. -/
private theorem UsersSettled.erased {id : String} (current : pool.calls call = .deleting id)
    (next : after.calls call = .deleted id true) (idle : ∀ other, (pool.calls other).pending ≠ some id)
    (spent : ∀ place entry, pool.store.users.entry place = some entry → entry.record.id = id → Spent pool.store (some entry))
    (later : Later pool.store after.store) (users : after.store.users = pool.store.users)
    (database : after.store.database.users = AList.erase id pool.store.database.users) : UsersSettled after := by
  refine settled.after same ?_ ?_ ?_ ?_ ?_
  · rw [next]
    trivial
  · rw [database]
    exact fun other _ => (settled.sound other).erase (idle other)
  · rw [users]
    exact settled.placed
  · intro place entry found
    rw [users] at found
    by_cases clash : entry.record.id = id
    · exact .inr (.inl ((spent place entry found clash).later later))
    · obtain held | spent | ⟨other, replaced⟩ := settled.entries place entry found
      · rw [database]
        exact .inl (held.erase clash)
      · exact .inr (.inl (spent.later later))
      · refine .inr (.inr (.inr ⟨other, ?_, replaced⟩))
        rintro rfl
        rw [current] at replaced
        exact replaced
  · rw [next]
    exact fun other id different => False.elim

end Steps

/-- The steps of one call keep the pool settled. -/
theorem UsersSettled.advance {pool after : Pool Server UserCall} (settled : UsersSettled pool) {call : Nat}
    (orderly : UsersOrderly (.advance call) pool) (stepped : userSystem.step (.advance call) pool = some after) :
    UsersSettled after := by
  obtain ⟨advanced, same⟩ := System.step_moved stepped
  obtain ⟨busy, ran⟩ := System.advance_ofPieces advanced
  have steps := UserCall.piece_steps busy ran
  generalize current : pool.calls call = before at steps
  generalize next : after.calls call = moved at steps
  cases steps with
  | goes quiet goes => exact settled.went same current next quiet goes
  | writes later succeeded users database =>
    obtain ⟨held, idle⟩ := orderly.writes call _ _ rfl current succeeded
    exact settled.wrote same current next held idle later users database
  | enters later users database => exact settled.entered same current next later users database
  | clears later users database => exact settled.cleared same current next later users database
  | deletes later succeeded users database =>
    obtain ⟨idle, spent⟩ := orderly.deletes call _ rfl current succeeded
    exact settled.erased same current next idle spent later users database

private theorem UserCall.begin_neutral (request : UserRequest) :
    (∀ table, (UserCall.begin request).Sound table) ∧ (∀ place user, ¬ (UserCall.begin request).Replaces place user) ∧
      ∀ id, ¬ (UserCall.begin request).Rewrites id := by
  cases request with
  | deleteUser id own => cases own <;> exact ⟨fun _ => trivial, fun _ _ => False.elim, fun _ => False.elim⟩
  | _ => exact ⟨fun _ => trivial, fun _ _ => False.elim, fun _ => False.elim⟩

private theorem UserCall.idle_neutral {call : UserCall} (idle : call.idle = true) :
    (∀ place user, ¬ call.Replaces place user) ∧ ∀ id, ¬ call.Rewrites id := by
  cases call with
  | ready => exact ⟨fun _ _ => False.elim, fun _ => False.elim⟩
  | got => exact ⟨fun _ _ => False.elim, fun _ => False.elim⟩
  | found => exact ⟨fun _ _ => False.elim, fun _ => False.elim⟩
  | refused => exact ⟨fun _ _ => False.elim, fun _ => False.elim⟩
  | updated => exact ⟨fun _ _ => False.elim, fun _ => False.elim⟩
  | deleted => exact ⟨fun _ _ => False.elim, fun _ => False.elim⟩
  | _ => cases idle

theorem UsersSettled.start {pool after : Pool Server UserCall} (settled : UsersSettled pool) {call : Nat}
    {request : UserRequest} (stepped : userSystem.step (.start call request) pool = some after) : UsersSettled after := by
  obtain ⟨idle, -⟩ := System.step_start stepped
  obtain ⟨store, begun, same⟩ := System.step_started stepped
  change after.calls call = UserCall.begin request at begun
  obtain ⟨sound, replaces, rewrites⟩ := UserCall.begin_neutral request
  refine settled.after same ?_ ?_ ?_ ?_ ?_
  · rw [begun]
    exact sound _
  · rw [store]
    exact fun other _ => settled.sound other
  · rw [store]
    exact settled.placed
  · rw [store]
    intro place entry found
    obtain held | spent | ⟨other, replaced⟩ := settled.entries place entry found
    · exact .inl held
    · exact .inr (.inl spent)
    · refine .inr (.inr (.inr ⟨other, ?_, replaced⟩))
      rintro rfl
      exact (UserCall.idle_neutral idle).1 _ _ replaced
  · rw [begun]
    exact fun other id different begins => absurd begins (rewrites id)

theorem UsersSettled.step {pool after : Pool Server UserCall} (settled : UsersSettled pool) {event : Event UserRequest}
    (orderly : UsersOrderly event pool) (stepped : userSystem.step event pool = some after) : UsersSettled after := by
  cases event with
  | start call request => exact settled.start stepped
  | advance call => exact settled.advance orderly stepped

theorem UsersSettled.fresh {pool : Pool Server UserCall} (empty : pool.store.users = {})
    (ready : ∀ call, pool.calls call = .ready) : UsersSettled pool where
  sound := fun call => (ready call).symm ▸ trivial
  placed := by
    rw [empty]
    intro place entry found
    cases place <;> cases found
  entries := by
    rw [empty]
    intro place entry found
    cases place <;> cases found
  single := by
    intro call other id rewrites
    rw [ready call] at rewrites
    cases rewrites

/-- The property of the user holds in the table, held of every record that a call has
replaced, and no change that is still to be written ends it. -/
structure UserStays (id : String) (kept : User → Prop) (pool : Pool Server UserCall) : Prop where
  row : ∀ item, pool.store.database.users.lookup id = some item → kept (userOfItem id item)
  replaced : ∀ call place user, (pool.calls call).Replaces place user → user.id = id → kept user
  asked : ∀ call change, (pool.calls call).asked = some (id, change) → ∀ user, kept user → kept (change.apply user)

/-- The request does not ask for a change of the user that ends the property. -/
def Respects (id : String) (kept : User → Prop) (event : Event UserRequest) : Prop :=
  ∀ call request, event = .start call request → ∀ change, (UserCall.begin request).asked = some (id, change) →
    ∀ user, kept user → kept (change.apply user)

theorem UserStays.known {id : String} {kept : User → Prop} {pool : Pool Server UserCall} (stays : UserStays id kept pool)
    {user : User} (known : UserKnown pool user) (same : user.id = id) : kept user := by
  obtain ⟨item, found, whole⟩ | ⟨call, place, replaced⟩ := known
  · rw [same] at found whole
    rw [whole]
    exact stays.row item found
  · exact stays.replaced call place user replaced same

private theorem UserCall.replaces_of_enter {record : CacheRecord User} {first : UserCaching} {rest : List UserCaching}
    {next : UserCall} {place : UserPlace} {user : User} (follows : next.Follows record.record)
    (replaces : (enter record next rest).Replaces place user) : (entering record first rest next).Replaces place user := by
  cases rest with
  | nil =>
    cases next with
    | stored => cases follows
    | entering => cases follows
    | _ => cases replaces
  | cons second rest =>
    cases next with
    | updated changed old done =>
      obtain ⟨same, step, member, here⟩ := replaces
      exact ⟨same, step, List.mem_cons_of_mem _ member, here⟩
    | _ => exact replaces

/-- The user a call reads, changes and writes back keeps the property. -/
theorem UserStays.advance {id : String} {kept : User → Prop} {pool after : Pool Server UserCall}
    (stays : UserStays id kept pool) (settled : UsersSettled pool) {call : Nat} (orderly : UsersOrderly (.advance call) pool)
    (stepped : userSystem.step (.advance call) pool = some after) : UserStays id kept after := by
  obtain ⟨advanced, same⟩ := System.step_moved stepped
  obtain ⟨busy, ran⟩ := System.advance_ofPieces advanced
  have steps := UserCall.piece_steps busy ran
  have mine := settled.sound call
  have replaced := stays.replaced call
  have asked := stays.asked call
  suffices moved : (∀ item, after.store.database.users.lookup id = some item → kept (userOfItem id item)) ∧
      (∀ place user, (after.calls call).Replaces place user → user.id = id → kept user) ∧
      ∀ change, (after.calls call).asked = some (id, change) → ∀ user, kept user → kept (change.apply user) by
    obtain ⟨row, replaced', asked'⟩ := moved
    refine ⟨row, fun other place user replaces => ?_, fun other change asks => ?_⟩
    · rcases eq_or_ne other call with rfl | different
      · exact replaced' place user replaces
      · exact stays.replaced other place user (same other different ▸ replaces)
    · rcases eq_or_ne other call with rfl | different
      · exact asked' change asks
      · exact stays.asked other change (same other different ▸ asks)
  generalize current : pool.calls call = before at steps mine replaced asked
  generalize after.calls call = moved at steps
  cases steps with
  | goes quiet goes =>
    refine ⟨?_, fun place user replaces => replaced place user ((goes.replaces place user).mp replaces),
      fun change asks => asked change (goes.asked mine settled.placed asks)⟩
    rw [quiet.database]
    exact stays.row
  | @writes change old later succeeded users database =>
    obtain ⟨held, -⟩ := orderly.writes call change old rfl current succeeded
    have before : old.id = id → kept old := fun named => stays.known (.inl held) named
    refine ⟨fun item found => ?_, ?_, fun change asks => nomatch asks⟩
    · rw [database, FiniteMap.lookup_insert] at found
      split at found
      next named =>
        subst named
        cases found
        have whole : userOfItem old.id (itemOfUser (change.apply old)) = change.apply old :=
          userOfItem_itemOfUser (show (change.apply old).valid = true from mine)
        rw [whole]
        exact asked change rfl old (before rfl)
      next => exact stays.row item found
    · rintro place user ⟨rfl, -⟩ named
      exact before named
  | @enters record first rest following later users database =>
    refine ⟨database.symm ▸ stays.row, fun place user replaces =>
      replaced place user (UserCall.replaces_of_enter mine.2.2 replaces), fun change asks => asked change ?_⟩
    cases rest <;> exact asks
  | @clears first rest named later users database =>
    refine ⟨database.symm ▸ stays.row, fun place user replaces => ?_, fun change asks => ?_⟩
    · cases rest <;> cases replaces
    · cases rest <;> cases asks
  | @deletes named later succeeded users database =>
    refine ⟨fun item found => ?_, fun place user replaces => (nomatch replaces), fun change asks => nomatch asks⟩
    rw [database, FiniteMap.lookup_erase] at found
    split at found
    next => cases found
    next => exact stays.row item found

theorem UserStays.start {id : String} {kept : User → Prop} {pool after : Pool Server UserCall}
    (stays : UserStays id kept pool) {call : Nat} {request : UserRequest}
    (respects : Respects id kept (.start call request))
    (stepped : userSystem.step (.start call request) pool = some after) : UserStays id kept after := by
  obtain ⟨store, begun, same⟩ := System.step_started stepped
  change after.calls call = UserCall.begin request at begun
  refine ⟨store.symm ▸ stays.row, fun other place user replaces => ?_, fun other change asks => ?_⟩
  · rcases eq_or_ne other call with rfl | different
    · rw [begun] at replaces
      exact absurd replaces ((UserCall.begin_neutral request).2.1 place user)
    · exact stays.replaced other place user (same other different ▸ replaces)
  · rcases eq_or_ne other call with rfl | different
    · exact respects other request rfl change (begun ▸ asks)
    · exact stays.asked other change (same other different ▸ asks)

/-- Both properties last through every orderly run of requests that respect them. -/
theorem user_stays_run {id : String} {kept : User → Prop} {events : List (Event UserRequest)}
    {pool final : Pool Server UserCall} (ran : userSystem.run events pool = some final)
    (orderly : userSystem.Meets UsersOrderly events pool) (respects : ∀ event ∈ events, Respects id kept event)
    (settled : UsersSettled pool) (stays : UserStays id kept pool) :
    UsersSettled final ∧ UserStays id kept final := by
  induction events generalizing pool with
  | nil =>
    cases ran
    exact ⟨settled, stays⟩
  | cons event events ih =>
    obtain ⟨middle, stepped, rest⟩ := System.run_cons.mp ran
    refine ih rest (orderly.2 middle stepped) (fun later member => respects later (by simp [member]))
      (settled.step orderly.1 stepped) ?_
    cases event with
    | start call request => exact stays.start (respects _ (by simp)) stepped
    | advance call => exact stays.advance settled orderly.1 stepped

/-- A cached record that is still valid is known. -/
theorem UsersSettled.hit {pool : Pool Server UserCall} (settled : UsersSettled pool) {place : UserPlace}
    {entry : CacheRecord User} (found : pool.store.users.entry place = some entry)
    (valid : pool.store.clock 0 ≤ entry.expirationTime) : UserKnown pool entry.record := by
  obtain held | spent | ⟨other, replaced⟩ := settled.entries place entry found
  · exact .inl held
  · exact absurd (spent entry rfl 0) (Nat.not_lt.mpr valid)
  · exact .inr ⟨other, place, replaced⟩

/-- The answer of a call, and whether it is what the call was to look up. -/
def UserCall.Answers (user : User) : UserCall → Prop
  | got id answer => answer = user ∧ user.id = id
  | .found token answer => answer = user ∧ user.token = token
  | _ => False

def UserCall.answer : UserCall → Option User
  | got _ user => some user
  | .found _ user => some user
  | _ => none

/-- A user that a lookup answers is known, and is one that was asked for. -/
theorem UsersSettled.answered {pool after : Pool Server UserCall} (settled : UsersSettled pool) {call : Nat}
    (stepped : userSystem.step (.advance call) pool = some after) {user : User}
    (answers : (after.calls call).answer = some user) (valid : user.valid = true) :
    UserKnown pool user ∧ (after.calls call).Answers user := by
  obtain ⟨advanced, -⟩ := System.step_moved stepped
  obtain ⟨busy, ran⟩ := System.advance_ofPieces advanced
  have steps := UserCall.piece_steps busy ran
  have mine := settled.sound call
  generalize pool.calls call = before at steps mine
  generalize after.calls call = moved at steps answers
  cases steps with
  | goes quiet goes =>
    cases goes with
    | @hit id purpose entry found fresh =>
      have named : id = entry.record.id := settled.placed _ _ found
      obtain same | same | same | ⟨change, -, -, same⟩ := UserCall.proceed_cases id entry.record purpose <;>
        rw [same] at answers ⊢ <;> cases answers
      exact ⟨settled.hit found fresh, rfl, named.symm⟩
    | @absent id purpose =>
      obtain same | same | same | ⟨change, -, -, same⟩ := UserCall.proceed_cases id {} purpose <;>
        rw [same] at answers <;> cases answers
      cases valid
    | @hitToken token entry found fresh =>
      cases answers
      exact ⟨settled.hit found fresh, rfl, (settled.placed _ _ found).symm⟩
    | unknown =>
      cases answers
      cases valid
    | @forgot id places => cases places <;> cases answers
    | _ => cases answers
  | writes => cases answers
  | @enters record first rest following =>
    cases rest with
    | nil =>
      have follows := mine.2.2
      change following.answer = some user at answers
      cases following with
      | got id answer =>
        cases answers
        obtain ⟨rfl, named⟩ := follows
        exact ⟨.inl mine.1, rfl, named⟩
      | found token answer =>
        cases answers
        obtain ⟨rfl, named⟩ := follows
        exact ⟨.inl mine.1, rfl, named⟩
      | _ => cases answers
    | cons second rest => cases answers
  | @clears first rest id => cases rest <;> cases answers
  | deletes => cases answers

theorem UserCall.Goes.unfinished {server : Server} {call moved : UserCall} (goes : Goes server call moved) :
    (∀ user old, moved ≠ updated user old true) ∧ ∀ id, moved ≠ deleted id true := by
  have proceeds : ∀ id user purpose, (∀ changed old, proceed id user purpose ≠ updated changed old true) ∧
      ∀ named, proceed id user purpose ≠ deleted named true := by
    intro id user purpose
    obtain same | same | same | ⟨change, -, -, same⟩ := proceed_cases id user purpose <;> rw [same] <;> simp
  cases goes with
  | hit => exact proceeds _ _ _
  | absent => exact proceeds _ _ _
  | @forgot id places => cases places <;> simp [clear]
  | _ => simp [enter, UserCaching.looked, UserCaching.changed]

/-- When a change has been made and cached, the table holds it. -/
theorem UsersSettled.updated {pool after : Pool Server UserCall} (settled : UsersSettled pool) {call : Nat}
    (stepped : userSystem.step (.advance call) pool = some after) {user old : User}
    (done : after.calls call = .updated user old true) :
    UserHeld after.store.database.users user ∧
      ∀ other place replaced, (after.calls other).Replaces place replaced → replaced.id ≠ user.id := by
  obtain ⟨advanced, same⟩ := System.step_moved stepped
  obtain ⟨busy, ran⟩ := System.advance_ofPieces advanced
  have steps := UserCall.piece_steps busy ran
  have mine := settled.sound call
  rw [done] at steps
  generalize current : pool.calls call = before at steps mine
  generalize reached : UserCall.updated user old true = moved at steps
  cases steps with
  | goes quiet goes => exact absurd reached.symm (goes.unfinished.1 user old)
  | writes => cases reached
  | @enters record first rest following later users database =>
    cases rest with
    | cons second rest => cases reached
    | nil =>
      obtain rfl : UserCall.updated user old true = following := reached
      obtain ⟨held, -, rfl, -⟩ := mine
      refine ⟨database.symm ▸ held, fun other place replaced replaces clash => ?_⟩
      rcases eq_or_ne other call with rfl | different
      · rw [done] at replaces
        exact replaces
      · rw [same other different] at replaces
        have rewrites := replaces.rewrites (settled.sound other)
        have mine : (pool.calls call).Rewrites record.record.id := by
          rw [current]
          rfl
        exact different (settled.single other call _ (clash ▸ rewrites) mine)
  | @clears first rest id => cases rest <;> cases reached
  | deletes => cases reached

/-- When a user has been deleted, the table does not hold it. -/
theorem UsersSettled.deleted {pool after : Pool Server UserCall} (settled : UsersSettled pool) {call : Nat}
    (orderly : UsersOrderly (.advance call) pool) (stepped : userSystem.step (.advance call) pool = some after) {id : String}
    (done : after.calls call = .deleted id true) :
    after.store.database.users.lookup id = none ∧
      ∀ other place replaced, (after.calls other).Replaces place replaced → replaced.id ≠ id := by
  obtain ⟨advanced, same⟩ := System.step_moved stepped
  obtain ⟨busy, ran⟩ := System.advance_ofPieces advanced
  have steps := UserCall.piece_steps busy ran
  have mine := settled.sound call
  rw [done] at steps
  generalize current : pool.calls call = before at steps mine
  generalize reached : UserCall.deleted id true = moved at steps
  cases steps with
  | goes quiet goes => exact absurd reached.symm (goes.unfinished.2 id)
  | writes => cases reached
  | @enters record first rest following =>
    cases rest with
    | cons second rest => cases reached
    | nil =>
      obtain rfl : UserCall.deleted id true = following := reached
      exact mine.2.2.elim
  | @clears first rest id => cases rest <;> cases reached
  | @deletes named later succeeded users database =>
    cases reached
    obtain ⟨idle, -⟩ := orderly.deletes call id rfl current succeeded
    refine ⟨by rw [database, FiniteMap.lookup_erase, if_pos rfl], fun other place replaced replaces clash => ?_⟩
    rcases eq_or_ne other call with rfl | different
    · rw [done] at replaces
      exact replaces
    · rw [same other different] at replaces
      have waits := UserCall.pending_of_replaces replaces (settled.sound other)
      exact idle other (clash ▸ waits)

/-- No request that is under way, or starts later, asks for such a change of the user. -/
structure NoneAsks (id : String) (change : UserChange → Prop) (pool : Pool Server UserCall)
    (later : List (Event UserRequest)) : Prop where
  waiting : ∀ call asked, (pool.calls call).asked = some (id, asked) → ¬ change asked
  starting : ∀ call request, .start call request ∈ later →
    ∀ asked, (UserCall.begin request).asked = some (id, asked) → ¬ change asked

/-- The user with this ID as the table holds it, or as a lookup answers next. -/
def Shown (id : String) (pool : Pool Server UserCall) (user : User) : Prop :=
  (∃ item, pool.store.database.users.lookup id = some item ∧ user = userOfItem id item) ∨
    user.valid = true ∧ user.id = id ∧
      ∃ call after, userSystem.step (.advance call) pool = some after ∧ (after.calls call).answer = some user

theorem UserStays.shown {id : String} {kept : User → Prop} {pool : Pool Server UserCall} (stays : UserStays id kept pool)
    (settled : UsersSettled pool) {user : User} (shown : Shown id pool user) : kept user := by
  obtain ⟨item, found, rfl⟩ | ⟨valid, named, call, after, stepped, answers⟩ := shown
  · exact stays.row item found
  · exact stays.known (settled.answered stepped answers valid).1 named

/-- In an orderly run, a change that has succeeded is not undone by requests that do
not ask for it, a replaced token finds the user no more, and a deleted user is gone. -/
theorem user_changes_last {pool before middle last : Pool Server UserCall} {earlier later : List (Event UserRequest)}
    {call : Nat} (empty : pool.store.users = {}) (ready : ∀ call, pool.calls call = .ready)
    (ran : userSystem.run earlier pool = some before) (stepped : userSystem.step (.advance call) before = some middle)
    (rest : userSystem.run later middle = some last)
    (orderly : userSystem.Meets UsersOrderly (earlier ++ .advance call :: later) pool) :
    (∀ user old, middle.calls call = .updated user old true →
      UserHeld middle.store.database.users user ∧
      (NoneAsks user.id (fun change => change.admin ≠ none) middle later →
        ∀ shown, Shown user.id last shown → shown.admin = user.admin) ∧
      (NoneAsks user.id (fun change => change.token ≠ none) middle later →
        ∀ shown, Shown user.id last shown → shown.token = user.token) ∧
      (old.token ≠ user.token → NoneAsks user.id (fun change => change.token = some old.token) middle later →
        ∀ reader after answer, userSystem.step (.advance reader) last = some after →
          after.calls reader = .found old.token answer → ¬ (answer.valid = true ∧ answer.id = user.id))) ∧
    (∀ id, middle.calls call = .deleted id true → ∀ shown, ¬ Shown id last shown) := by
  obtain ⟨orderlyFirst, orderlyNow, orderlyRest⟩ := System.meets_append orderly ran
  have reached : UsersSettled before :=
    System.run_meets ran orderlyFirst (.fresh empty ready) fun _ _ _ stepped orderly settled => settled.step orderly stepped
  have settled : UsersSettled middle := reached.advance orderlyNow stepped
  -- A property that holds when the call is done and that no change ends holds at the end.
  have lasts : ∀ id (kept : User → Prop) (change : UserChange → Prop), NoneAsks id change middle later →
      (∀ asked, ¬ change asked → ∀ user, kept user → kept (asked.apply user)) →
      (∀ item, middle.store.database.users.lookup id = some item → kept (userOfItem id item)) →
      (∀ other place replaced, (middle.calls other).Replaces place replaced → replaced.id ≠ id) →
      UsersSettled last ∧ UserStays id kept last := by
    intro id kept change none keeps row replaced
    refine user_stays_run rest (orderlyRest middle stepped) ?_ settled ?_
    · rintro event member starter request rfl asked asks
      exact keeps asked (none.starting starter request member asked asks)
    · exact ⟨row, fun other place user replaces same => absurd same (replaced other place user replaces),
        fun other asked asks => keeps asked (none.waiting other asked asks)⟩
  refine ⟨fun user old done => ?_, fun id done shown shows => ?_⟩
  · obtain ⟨held, others⟩ := reached.updated stepped done
    have row : ∀ item, middle.store.database.users.lookup user.id = some item → userOfItem user.id item = user := by
      intro item found
      obtain ⟨item', found', whole⟩ := held
      rw [found] at found'
      cases found'
      exact whole.symm
    refine ⟨held, fun none shown shows => ?_, fun none shown shows => ?_, fun replaced none reader after answer read found => ?_⟩
    · obtain ⟨settled, stays⟩ := lasts user.id (fun shown => shown.admin = user.admin) _ none
        (fun asked unchanged shown same => by simp only [UserChange.apply, not_not.mp unchanged]; exact same)
        (fun item found => by rw [row item found]) others
      exact stays.shown settled shows
    · obtain ⟨settled, stays⟩ := lasts user.id (fun shown => shown.token = user.token) _ none
        (fun asked unchanged shown same => by simp only [UserChange.apply, not_not.mp unchanged]; exact same)
        (fun item found => by rw [row item found]) others
      exact stays.shown settled shows
    · rintro ⟨valid, named⟩
      have keeps : ∀ asked : UserChange, ¬ asked.token = some old.token → ∀ shown : User, shown.token ≠ old.token →
          (asked.apply shown).token ≠ old.token := by
        intro asked unchanged shown different
        unfold UserChange.apply
        dsimp only
        cases wanted : asked.token with
        | none => exact different
        | some token => exact fun same => unchanged (by rw [wanted]; exact congrArg some same)
      obtain ⟨settled, stays⟩ := lasts user.id (fun shown => shown.token ≠ old.token) _ none keeps
        (fun item found => by rw [row item found]; exact replaced.symm) others
      have answers : (after.calls reader).answer = some answer := congrArg UserCall.answer found
      obtain ⟨known, asked⟩ := settled.answered read answers valid
      rw [found] at asked
      exact stays.known known named asked.2
  · obtain ⟨absent, others⟩ := reached.deleted orderlyNow stepped done
    obtain ⟨settled, stays⟩ := lasts id (fun _ => False) (fun _ => False) ⟨fun _ _ _ => not_false, fun _ _ _ _ _ => not_false⟩
      (fun _ _ _ => False.elim) (fun item found => by rw [absent] at found; cases found) others
    exact stays.shown settled shows

def alice : User :=
  { valid := true, id := "user_1", name := "Alice", email := "a@b", phone := "1", institution := "I", token := "old",
    globusID := "g" }

def alicePool : Pool Server UserCall where
  store := { database := { users := AList.insert "user_1" (itemOfUser alice) ∅ } }
  calls := fun _ => .ready

/-- The first call reads the user and is about to write a new name. Meanwhile the second
replaces the token and the third deletes the account. Then the first writes: the user
exists again, with the token that had been replaced, by which the fourth call finds it. -/
theorem user_resurrected :
    (userSystem.run ([.start 0 (.updateUser "user_1" (some "Alicia") none none none none)] ++
        List.replicate 6 (.advance 0) ++ [.start 1 (.replaceUserToken "user_1" "new")] ++ List.replicate 7 (.advance 1) ++
        [.start 2 (.deleteUser "user_1" true)] ++ List.replicate 5 (.advance 2) ++
        [.advance 0, .start 3 (.findUserByToken "old")] ++ List.replicate 6 (.advance 3)) alicePool).map
      (fun pool => (pool.calls 1, pool.calls 2, pool.calls 3, pool.store.database.users.lookup "user_1")) =
    some (.updated { alice with token := "new" } alice true, .deleted "user_1" true,
      .found "old" { alice with name := "Alicia" }, some (itemOfUser { alice with name := "Alicia" })) := rfl

/-- The next step of the call writes no record and deletes none. -/
def UserCall.calm : UserCall → Bool
  | updating _ _ => false
  | deleting _ => false
  | _ => true

section
variable {pool next : Pool Server UserCall} {events : List (Event UserRequest)} {call : Nat}

private theorem orderly_start {request : UserRequest} (stepped : userSystem.step (.start call request) pool = some next)
    (rest : userSystem.Meets UsersOrderly events next) :
    userSystem.Meets UsersOrderly (.start call request :: events) pool := by
  refine ⟨⟨?_, ?_⟩, fun after stepped' => ?_⟩
  · exact fun _ _ _ impossible => by cases impossible
  · exact fun _ _ impossible => by cases impossible
  · obtain rfl : next = after := Option.some.inj (stepped.symm.trans stepped')
    exact rest

private theorem orderly_advance (stepped : userSystem.step (.advance call) pool = some next)
    (calm : (pool.calls call).calm = true) (rest : userSystem.Meets UsersOrderly events next) :
    userSystem.Meets UsersOrderly (.advance call :: events) pool := by
  refine ⟨⟨?_, ?_⟩, fun after stepped' => ?_⟩
  · rintro other change old same updating -
    cases same
    rw [updating] at calm
    cases calm
  · rintro other id same deleting -
    cases same
    rw [deleting] at calm
    cases calm
  · obtain rfl : next = after := Option.some.inj (stepped.symm.trans stepped')
    exact rest

/-- A record is written that is still what was read, and that no other call is about to write or delete. -/
private theorem orderly_updating {change : UserChange} {old : User} (stepped : userSystem.step (.advance call) pool = some next)
    (current : pool.calls call = .updating change old) (held : UserHeld pool.store.database.users old)
    (alone : ∀ other, (pool.calls other).pending = none) (rest : userSystem.Meets UsersOrderly events next) :
    userSystem.Meets UsersOrderly (.advance call :: events) pool := by
  refine ⟨⟨?_, ?_⟩, fun after stepped' => ?_⟩
  · rintro other change' old' same updating -
    cases same
    rw [current] at updating
    cases updating
    refine ⟨held, fun third => ?_⟩
    rw [alone third]
    exact Option.some_ne_none _ ∘ Eq.symm
  · rintro other id same deleting -
    cases same
    rw [current] at deleting
    cases deleting
  · obtain rfl : next = after := Option.some.inj (stepped.symm.trans stepped')
    exact rest

/-- A record is deleted that no other call is about to write or delete, and that is cached nowhere. -/
private theorem orderly_deleting {id : String} (stepped : userSystem.step (.advance call) pool = some next)
    (current : pool.calls call = .deleting id) (alone : ∀ other, (pool.calls other).pending = none)
    (uncached : ∀ place, pool.store.users.entry place = none) (rest : userSystem.Meets UsersOrderly events next) :
    userSystem.Meets UsersOrderly (.advance call :: events) pool := by
  refine ⟨⟨?_, ?_⟩, fun after stepped' => ?_⟩
  · rintro other change old same updating -
    cases same
    rw [current] at updating
    cases updating
  · rintro other id' same deleting -
    refine ⟨fun third => ?_, fun place entry found => ?_⟩
    · rw [alone third]
      exact Option.some_ne_none _ ∘ Eq.symm
    · rw [uncached place] at found
      cases found
  · obtain rfl : next = after := Option.some.inj (stepped.symm.trans stepped')
    exact rest

end

def tokenReplaced : List (Event UserRequest) := [.start 0 (.replaceUserToken "user_1" "new")] ++ List.replicate 11 (.advance 0)

/-- A token that is replaced and then looked up, and a user who is deleted and then looked up, with nothing in between. -/
theorem user_changes_last_run :
    (∃ last, userSystem.run (tokenReplaced ++ .advance 0 :: [.start 1 (.findUserByToken "old"), .advance 1]) alicePool = some last ∧
      ∀ shown, Shown "user_1" last shown → shown.token = "new") ∧
    ∃ last, userSystem.run [.start 0 (.deleteUser "user_1" true), .advance 0, .advance 0, .advance 0,
        .start 1 (.getUser "user_1"), .advance 1] alicePool = some last ∧
      ∀ shown, ¬ Shown "user_1" last shown := by
  constructor
  · have orderly : userSystem.Meets UsersOrderly
        (tokenReplaced ++ .advance 0 :: [.start 1 (.findUserByToken "old"), .advance 1]) alicePool := by
      refine orderly_start rfl ?_
      iterate 6 refine orderly_advance rfl rfl ?_
      refine orderly_updating rfl rfl ⟨_, rfl, rfl⟩ ?_ ?_
      · intro other
        rcases eq_or_ne other 0 with rfl | different
        · rfl
        · simp only [Function.update_of_ne different]
          rfl
      iterate 5 refine orderly_advance rfl rfl ?_
      refine orderly_start rfl (orderly_advance rfl rfl trivial)
    have lasts := user_changes_last rfl (fun _ => rfl) rfl rfl rfl orderly
    obtain ⟨-, -, token, -⟩ := lasts.1 _ _ rfl
    refine ⟨_, rfl, token ⟨fun other asked asks => ?_, fun other request member asked asks => ?_⟩⟩
    · rcases eq_or_ne other 0 with rfl | different
      · cases asks
      · simp only [Function.update_of_ne different] at asks
        cases asks
    · simp only [List.mem_cons, Event.start.injEq, reduceCtorEq, List.not_mem_nil, or_false] at member
      obtain ⟨-, rfl⟩ := member
      cases asks
  · have orderly : userSystem.Meets UsersOrderly ([.start 0 (.deleteUser "user_1" true), .advance 0, .advance 0] ++
        .advance 0 :: [.start 1 (.getUser "user_1"), .advance 1]) alicePool := by
      refine orderly_start rfl (orderly_advance rfl rfl (orderly_advance rfl rfl ?_))
      refine orderly_deleting rfl rfl ?_ ?_ (orderly_start rfl (orderly_advance rfl rfl trivial))
      · intro other
        rcases eq_or_ne other 0 with rfl | different
        · rfl
        · simp only [Function.update_of_ne different]
          rfl
      · intro place
        cases place <;> rfl
    have lasts := user_changes_last rfl (fun _ => rfl) rfl rfl rfl orderly
    exact ⟨_, rfl, lasts.2 "user_1" rfl⟩

end Slate
