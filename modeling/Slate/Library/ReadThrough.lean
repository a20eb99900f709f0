import Slate.Library.Interleaving
import Mathlib.Data.Set.Basic

/-! Expiring copies of the entries of a table, which any number of calls make and
read at once. A call reads entries in one step and copies them in a later one, so a
copy can be made of an entry that has meanwhile been deleted. A complete listing
answers from all copies, expired or not, for as long as its own stamp lasts. -/

namespace Slate.Library

/-- What matters of a state: the time, the keys in the table, which keys have a copy
that lasts until when, and the keys that a complete listing shows until its stamp. -/
structure Copies (κ : Type) where
  time : Nat
  stored : Set κ
  copied : κ → Nat → Prop
  listed : Set κ
  stamp : Nat

/-- What one step may change. The call has `pending` keys to copy and has collected
those it `shows`; only a call that renews the stamp may change it. -/
structure Copies.Moves {κ : Type} (validity : Nat) (renews : Prop) (before after : Copies κ)
    (pending pending' shows shows' : Set κ) : Prop where
  time : before.time ≤ after.time
  stored : after.stored ⊆ before.stored
  reads : ∀ key ∈ pending', key ∈ pending ∨ key ∈ before.stored
  copied : ∀ key limit, after.copied key limit →
    before.copied key limit ∨ key ∈ pending ∧ limit ≤ after.time + validity
  listed : ∀ key ∈ after.listed, key ∈ before.listed ∨ key ∈ pending
  stamp : after.stamp = before.stamp ∨ renews ∧ after.stamp ≤ after.time + validity
  collects : ∀ key ∈ shows', key ∈ shows ∨ key ∈ pending ∨
    (∃ limit, before.copied key limit ∧ before.time ≤ limit) ∨ key ∈ before.listed ∧ before.time < before.stamp

/-- How the states of a system are read as copies of a table. -/
structure ReadThrough {σ ω π : Type} (system : System σ ω π) (κ : Type) where
  validity : Nat
  sound : σ → Prop
  view : σ → Copies κ
  pending : π → Set κ
  shows : π → Set κ
  renews : π → Prop
  begins : ∀ operation, pending (system.begin operation) = ∅ ∧ shows (system.begin operation) = ∅
  rests : ∀ call, system.idle call = true → pending call = ∅
  moves : ∀ call store moved after, sound store → system.advance call store = some (moved, after) →
    sound after ∧ Copies.Moves validity (renews call) (view store) (view after) (pending call) (pending moved)
      (shows call) (shows moved)

namespace ReadThrough

variable {σ ω π κ : Type} {system : System σ ω π} (through : ReadThrough system κ) {key : κ}
  {events : List (Event ω)} {before after pool final : Pool σ π} {event : Event ω}

/-- No copy and no stamp lasts longer than the validity from now on. -/
structure Dated (store : σ) : Prop where
  sound : through.sound store
  copied : ∀ key limit, (through.view store).copied key limit → limit ≤ (through.view store).time + through.validity
  stamp : (through.view store).stamp ≤ (through.view store).time + through.validity

theorem step_dated (stepped : system.step event before = some after) (dated : through.Dated before.store) :
    through.Dated after.store := by
  cases event with
  | start call operation =>
    obtain ⟨same, -⟩ := System.step_started stepped
    rw [same]
    exact dated
  | advance call =>
    obtain ⟨advanced, -⟩ := System.step_moved stepped
    obtain ⟨sound, moves⟩ := through.moves _ _ _ _ dated.sound advanced
    refine ⟨sound, fun key limit copied => ?_, ?_⟩
    · rcases moves.copied key limit copied with old | ⟨-, fresh⟩
      · have bound := dated.copied key limit old
        have later := moves.time
        omega
      · exact fresh
    · have bound := dated.stamp
      have later := moves.time
      rcases moves.stamp with same | ⟨-, fresh⟩ <;> omega

theorem run_dated (ran : system.run events pool = some final) (dated : through.Dated pool.store) :
    through.Dated final.store :=
  System.run_keeps ran dated fun _ _ _ _ stepped => through.step_dated stepped

/-- What is not in the table does not come back to it. -/
theorem step_unstored (stepped : system.step event before = some after) (sound : through.sound before.store)
    (absent : key ∉ (through.view before.store).stored) : key ∉ (through.view after.store).stored := by
  cases event with
  | start call operation =>
    obtain ⟨same, -⟩ := System.step_started stepped
    rw [same]
    exact absent
  | advance call =>
    obtain ⟨advanced, -⟩ := System.step_moved stepped
    exact fun found => absent ((through.moves _ _ _ _ sound advanced).2.stored found)

/-- A call that has rested since the key is gone never has it to copy. -/
theorem step_unpending {call : Nat} (stepped : system.step event before = some after) (sound : through.sound before.store)
    (absent : key ∉ (through.view before.store).stored) (free : key ∉ through.pending (before.calls call)) :
    key ∉ through.pending (after.calls call) := by
  cases event with
  | start started operation =>
    obtain ⟨-, begun, others⟩ := System.step_started stepped
    by_cases same : call = started
    · subst same
      rw [begun, (through.begins operation).1]
      exact id
    · rw [others call same]
      exact free
  | advance moving =>
    obtain ⟨advanced, others⟩ := System.step_moved stepped
    by_cases same : call = moving
    · subst same
      intro found
      rcases (through.moves _ _ _ _ sound advanced).2.reads key found with kept | stored
      · exact free kept
      · exact absent stored
    · rw [others call same]
      exact free

/-- The key is not in the table. -/
structure Deleted (key : κ) (pool : Pool σ π) : Prop where
  dated : through.Dated pool.store
  absent : key ∉ (through.view pool.store).stored

theorem step_deleted (stepped : system.step event before = some after) (deleted : through.Deleted key before) :
    through.Deleted key after :=
  ⟨through.step_dated stepped deleted.dated, through.step_unstored stepped deleted.dated.sound deleted.absent⟩

theorem run_deleted (ran : system.run events pool = some final) (deleted : through.Deleted key pool) :
    through.Deleted key final :=
  System.run_keeps ran deleted fun _ _ _ _ stepped => through.step_deleted stepped

/-- The key is not in the table, and this call does not have it to copy. -/
structure Drained (key : κ) (call : Nat) (pool : Pool σ π) : Prop where
  deleted : through.Deleted key pool
  pending : key ∉ through.pending (pool.calls call)

/-- Once the key is gone and every call has rested since, nobody has it to copy. -/
theorem run_drained (ran : system.run events pool = some final) (deleted : through.Deleted key pool)
    (rested : ∀ call, ∃ first last middle, events = first ++ last ∧ system.run first pool = some middle ∧
      system.idle (middle.calls call) = true) (call : Nat) :
    through.Drained key call final := by
  obtain ⟨first, last, middle, rfl, early, idle⟩ := rested call
  obtain ⟨middle', early', late⟩ := System.run_append.mp ran
  obtain rfl : middle = middle' := Option.some.inj (early.symm.trans early')
  have start : through.Drained key call middle := by
    refine ⟨through.run_deleted early deleted, ?_⟩
    rw [through.rests _ idle]
    exact id
  refine System.run_keeps late start fun event _ before after stepped drained => ?_
  exact ⟨through.step_deleted stepped drained.deleted,
    through.step_unpending stepped drained.deleted.dated.sound drained.deleted.absent drained.pending⟩

/-- A stamp is renewed only while a complete listing would not show the key. -/
def Purged (key : κ) : Event ω → Pool σ π → Prop
  | .start _ _, _ => True
  | .advance call, pool => through.renews (pool.calls call) → key ∉ (through.view pool.store).listed

/-- The key is gone and nobody copies it again; its copies and whatever listing still
shows it last until the limit at most. -/
structure Gone (key : κ) (limit : Nat) (pool : Pool σ π) : Prop where
  sound : through.sound pool.store
  stored : key ∉ (through.view pool.store).stored
  pending : ∀ call, key ∉ through.pending (pool.calls call)
  copied : ∀ last, (through.view pool.store).copied key last → last ≤ limit
  listed : (through.view pool.store).stamp ≤ limit ∨ key ∉ (through.view pool.store).listed

theorem step_gone {limit : Nat} (stepped : system.step event before = some after) (purged : through.Purged key event before)
    (gone : through.Gone key limit before) : through.Gone key limit after := by
  have free := fun call => through.step_unpending stepped gone.sound gone.stored (gone.pending call)
  have absent := through.step_unstored stepped gone.sound gone.stored
  cases event with
  | start call operation =>
    obtain ⟨same, -⟩ := System.step_started stepped
    refine ⟨?_, absent, free, ?_, ?_⟩
    all_goals rw [same]
    · exact gone.sound
    · exact gone.copied
    · exact gone.listed
  | advance call =>
    obtain ⟨advanced, -⟩ := System.step_moved stepped
    obtain ⟨sound, moves⟩ := through.moves _ _ _ _ gone.sound advanced
    have unlisted : key ∉ (through.view before.store).listed → key ∉ (through.view after.store).listed :=
      fun hidden found => (moves.listed key found).elim hidden (gone.pending call)
    refine ⟨sound, absent, free, fun last copied => ?_, ?_⟩
    · rcases moves.copied key last copied with old | ⟨mine, -⟩
      · exact gone.copied last old
      · exact absurd mine (gone.pending call)
    · rcases moves.stamp with same | ⟨renews, -⟩
      · rw [same]
        exact gone.listed.imp_right unlisted
      · exact .inr (unlisted (purged renews))

/-- The key is gone, the limit has passed, and this call does not show the key. -/
structure Hidden (key : κ) (limit call : Nat) (pool : Pool σ π) : Prop where
  gone : through.Gone key limit pool
  late : limit < (through.view pool.store).time
  shows : key ∉ through.shows (pool.calls call)

theorem step_hidden {limit call : Nat} (stepped : system.step event before = some after)
    (purged : through.Purged key event before) (hidden : through.Hidden key limit call before) :
    through.Hidden key limit call after := by
  have gone := through.step_gone stepped purged hidden.gone
  cases event with
  | start other request =>
    obtain ⟨same, begin, others⟩ := System.step_started stepped
    refine ⟨gone, same.symm ▸ hidden.late, ?_⟩
    by_cases this : call = other
    · subst this
      rw [begin, (through.begins request).2]
      exact id
    · rw [others call this]
      exact hidden.shows
  | advance moving =>
    obtain ⟨advanced, others⟩ := System.step_moved stepped
    have moves := (through.moves _ _ _ _ hidden.gone.sound advanced).2
    refine ⟨gone, hidden.late.trans_le moves.time, ?_⟩
    by_cases this : call = moving
    · subst this
      intro found
      rcases moves.collects key found with old | mine | ⟨last, copied, valid⟩ | ⟨listed, valid⟩
      · exact hidden.shows old
      · exact hidden.gone.pending call mine
      · have bound := hidden.gone.copied last copied
        have late := hidden.late
        omega
      · rcases hidden.gone.listed with stale | unlisted
        · have late := hidden.late
          omega
        · exact unlisted listed
    · rw [others call this]
      exact hidden.shows

/-- A call that begins after the limit never shows the key. -/
theorem run_hidden {limit call : Nat} {operation : ω} {rest : List (Event ω)}
    (ran : system.run (.start call operation :: rest) pool = some final)
    (purged : system.Meets (through.Purged key) (.start call operation :: rest) pool) (gone : through.Gone key limit pool)
    (late : limit < (through.view pool.store).time) : through.Hidden key limit call final := by
  obtain ⟨begun, started, after⟩ := System.run_cons.mp ran
  obtain ⟨same, begin, -⟩ := System.step_started started
  have start : through.Hidden key limit call begun := by
    refine ⟨through.step_gone started purged.1 gone, same.symm ▸ late, ?_⟩
    rw [begin, (through.begins operation).2]
    exact id
  exact System.run_meets after (purged.2 begun started) start fun _ _ _ stepped met => through.step_hidden stepped met

/-- The key has left the table; every call then under way has rested and the validity
has passed. A call that begins now never shows the key, provided that no stamp is
renewed while a listing would show it. -/
theorem stays_gone {between later rest : List (Event ω)} {removed cutoff elapsed : Pool σ π} {call : Nat} {operation : ω}
    (deleted : through.Deleted key removed) (settled : system.run between removed = some cutoff)
    (rested : ∀ call, ∃ first last middle, between = first ++ last ∧ system.run first removed = some middle ∧
      system.idle (middle.calls call) = true)
    (passed : system.run later cutoff = some elapsed)
    (waited : (through.view cutoff.store).time + through.validity < (through.view elapsed.store).time)
    (ran : system.run (.start call operation :: rest) elapsed = some final)
    (purged : system.Meets (through.Purged key) (later ++ .start call operation :: rest) cutoff) :
    key ∉ through.shows (final.calls call) := by
  have drained := through.run_drained settled deleted rested
  have dated := (drained 0).deleted.dated
  have gone : through.Gone key ((through.view cutoff.store).time + through.validity) cutoff :=
    ⟨dated.sound, (drained 0).deleted.absent, fun call => (drained call).pending, dated.copied key, .inl dated.stamp⟩
  obtain ⟨before, after⟩ := System.meets_append purged passed
  have stillGone := System.run_meets passed before gone fun _ _ _ stepped met => through.step_gone stepped met
  exact (through.run_hidden ran after stillGone waited).shows

end ReadThrough
end Slate.Library
