import Slate.Server
import Mathlib.Order.Monotone.Basic

/-! How a server moves on in time while an operation runs, and what single
steps of an operation leave alone. -/

namespace Slate
open Library

def Succeeding (server : Server) : Prop := ∀ n, server.outcomes n = true

/-- No later reading of the clock is smaller than an earlier one. -/
def Steady (server : Server) : Prop := Monotone server.clock

/-- A clock that stands still but for one jump. -/
def jumpingClock (readings : Nat) (time : Time) : Nat → Time := fun n => if n < readings then 0 else time

theorem jumpingClock_monotone (readings : Nat) (time : Time) : Monotone (jumpingClock readings time) := by
  intro first second order
  unfold jumpingClock
  split
  next => exact Nat.zero_le _
  next late => rw [if_neg fun early => late (order.trans_lt early)]

/-- What the second server has still to come, the first had still to come. -/
structure Later (before after : Server) : Prop where
  clock : ∃ n, ∀ k, after.clock k = before.clock (n + k)
  outcomes : ∃ n, ∀ k, after.outcomes k = before.outcomes (n + k)

namespace Later

theorem of_eq {before after : Server} (clock : after.clock = before.clock) (outcomes : after.outcomes = before.outcomes) :
    Later before after :=
  ⟨⟨0, fun k => by rw [clock, Nat.zero_add]⟩, ⟨0, fun k => by rw [outcomes, Nat.zero_add]⟩⟩

theorem refl (server : Server) : Later server server := of_eq rfl rfl

theorem tick (server : Server) : Later server server.tick :=
  ⟨⟨1, fun k => by rw [tick_clock, Nat.add_comm]⟩, ⟨0, fun k => by rw [tick_outcomes, Nat.zero_add]⟩⟩

theorem answered (server : Server) : Later server server.answered :=
  ⟨⟨0, fun k => by rw [answered_clock, Nat.zero_add]⟩, ⟨1, fun k => by rw [answered_outcomes, Nat.add_comm]⟩⟩

theorem trans {first second third : Server} (early : Later first second) (late : Later second third) :
    Later first third := by
  obtain ⟨⟨n, clock⟩, ⟨m, outcomes⟩⟩ := early
  obtain ⟨⟨n', clock'⟩, ⟨m', outcomes'⟩⟩ := late
  exact ⟨⟨n + n', fun k => by rw [clock', clock, Nat.add_assoc]⟩,
    ⟨m + m', fun k => by rw [outcomes', outcomes, Nat.add_assoc]⟩⟩

theorem succeeding {before after : Server} (later : Later before after) (succeeding : Succeeding before) :
    Succeeding after := by
  obtain ⟨m, outcomes⟩ := later.outcomes
  exact fun n => (outcomes n).trans (succeeding _)

theorem steady {before after : Server} (later : Later before after) (steady : Steady before) : Steady after := by
  obtain ⟨n, clock⟩ := later.clock
  intro first second order
  rw [clock, clock]
  exact steady (Nat.add_le_add_left order n)

/-- A reading still to come is one that was to come before. -/
theorem reading {before after : Server} (later : Later before after) (n : Nat) :
    ∃ m, after.clock n = before.clock m := by
  obtain ⟨offset, clock⟩ := later.clock
  exact ⟨_, clock n⟩

end Later

/-- A category or a cache is trusted at some reading still to come. -/
def Trusted (server : Server) (expiration : Time) : Prop := ∃ n, server.clock n < expiration

theorem Later.trusted {before after : Server} (later : Later before after) {expiration : Time}
    (trusted : Trusted after expiration) : Trusted before expiration := by
  obtain ⟨n, early⟩ := trusted
  obtain ⟨m, same⟩ := later.reading n
  exact ⟨m, same ▸ early⟩

/-- No reading still to come is smaller than the next one. -/
theorem Steady.not_trusted {server : Server} (steady : Steady server) {reading : Time}
    (passed : reading ≤ server.clock 0) : ¬ Trusted server reading := by
  rintro ⟨n, early⟩
  exact absurd (passed.trans (steady (Nat.zero_le n))) (Nat.not_le.mpr early)

theorem not_trusted_zero (server : Server) : ¬ Trusted server 0 := fun ⟨_, early⟩ => Nat.not_lt_zero _ early

theorem returns_cached {α : Type} {cache : CuckooHashMap String (CacheRecord α)} {key : String} {server : Server}
    {post : Option α → Server → Prop}
    (hit : ∀ entry, cache.lookup key = some entry → server.clock 0 ≤ entry.expirationTime →
      post (some entry.record) server.tick)
    (miss : ∀ passed, passed = server ∨ passed = server.tick → post none passed) :
    Returns (cached cache key) server post := by
  unfold cached
  cases present : cache.lookup key with
  | none => exact miss _ (.inl rfl)
  | some entry =>
    simp only [returns_bind, returns_current, returns_ite, returns_pure, decide_eq_true_eq]
    split
    next valid => exact hit entry present valid
    next => exact miss _ (.inr rfl)

/-- The record under a key, if there is one, is valid at no reading still to come. -/
def Spent {α : Type} (server : Server) (entry : Option (CacheRecord α)) : Prop :=
  ∀ record, entry = some record → ∀ n, record.expirationTime < server.clock n

theorem Spent.later {α : Type} {before after : Server} {entry : Option (CacheRecord α)} (spent : Spent before entry)
    (later : Later before after) : Spent after entry := by
  intro record found n
  obtain ⟨m, same⟩ := later.reading n
  rw [same]
  exact spent record found m

end Slate
