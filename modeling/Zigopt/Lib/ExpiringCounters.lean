/-
Module: Zigopt.Lib.ExpiringCounters
Layer: Lib
Purpose: Counters of a store with a clock. An increment starts a missing counter at one and keeps the expiry of the
  counter; a counter whose expiry has come is missing.
Main exports: Store, Store.count, Store.increment, Store.expire, Store.advance, KeptUntil
-/
import Mathlib.Logic.Function.Basic

namespace ExpiringCounters

structure Entry where
  count : Nat
  expiry : Option Nat
  deriving DecidableEq, Repr

/-- A clock, and for each key the counter that is set, if any. -/
structure Store (κ : Type) where
  now : Nat
  entries : κ → Option Entry

variable {κ : Type}

def Entry.isLive (entry : Entry) (now : Nat) : Bool :=
  entry.expiry.all fun expiry => now < expiry

namespace Store

def empty (now : Nat) : Store κ where
  now := now
  entries _ := none

/-- The counter of a key that has not expired. -/
def live (store : Store κ) (key : κ) : Option Entry :=
  (store.entries key).filter fun entry => entry.isLive store.now

/-- `GET`, of a counter. -/
def count (store : Store κ) (key : κ) : Nat :=
  ((store.live key).map Entry.count).getD 0

/-- Time passes; what has expired is only noticed by the next read. -/
def advance (store : Store κ) (elapsed : Nat) : Store κ :=
  { store with now := store.now + elapsed }

theorem isLive_of_live {store : Store κ} {key : κ} {entry : Entry} (alive : store.live key = some entry) :
    store.entries key = some entry ∧ entry.isLive store.now = true :=
  Option.filter_eq_some_iff.mp alive

/-- An entry with the expiry of a live one is live, and one without expiry too. -/
theorem isLive_inherited (store : Store κ) (key : κ) (count : Nat) :
    Entry.isLive { count := count, expiry := (store.live key).bind Entry.expiry } store.now = true := by
  cases found : store.live key with
  | none => rfl
  | some entry => exact (isLive_of_live found).2

variable [DecidableEq κ]

/-- `INCR`; it answers the count after it. -/
def increment (store : Store κ) (key : κ) : Store κ :=
  { store with
    entries := Function.update store.entries key
      (some { count := store.count key + 1, expiry := (store.live key).bind Entry.expiry }) }

/-- `EXPIRE`, which does nothing to a missing counter. -/
def expire (store : Store κ) (key : κ) (duration : Nat) : Store κ :=
  match store.live key with
  | some entry =>
      { store with
        entries := Function.update store.entries key (some { entry with expiry := some (store.now + duration) }) }
  | none => store

@[simp]
theorem now_increment (store : Store κ) (key : κ) : (store.increment key).now = store.now := rfl

@[simp]
theorem now_expire (store : Store κ) (key : κ) (duration : Nat) : (store.expire key duration).now = store.now := by
  unfold expire
  split <;> rfl

theorem count_increment_self (store : Store κ) (key : κ) :
    (store.increment key).count key = store.count key + 1 := by
  have alive : (store.increment key).live key =
      some { count := store.count key + 1, expiry := (store.live key).bind Entry.expiry } := by
    apply Option.filter_eq_some_iff.mpr
    exact ⟨Function.update_self _ _ _, isLive_inherited store key _⟩
  rw [count, alive]
  rfl

theorem count_increment_of_ne {store : Store κ} {key other : κ} (apart : other ≠ key) :
    (store.increment key).count other = store.count other := by
  simp only [count, live, increment, Function.update_of_ne apart]

theorem count_expire_of_ne {store : Store κ} {key other : κ} (apart : other ≠ key) (duration : Nat) :
    (store.expire key duration).count other = store.count other := by
  unfold expire
  split
  · simp only [count, live, Function.update_of_ne apart]
  · rfl

theorem count_expire_self (store : Store κ) (key : κ) {duration : Nat} (lasts : 0 < duration) :
    (store.expire key duration).count key = store.count key := by
  unfold expire
  split
  · next entry alive =>
      have kept : ({ store with
          entries := Function.update store.entries key
            (some { entry with expiry := some (store.now + duration) }) } : Store κ).live key =
          some { entry with expiry := some (store.now + duration) } := by
        unfold live
        simp only [Function.update_self]
        rw [Option.filter_eq_some_iff]
        refine ⟨rfl, ?_⟩
        simp [Entry.isLive, lasts]
      rw [count, kept, count, alive]
      rfl
  · rfl

theorem count_expire (store : Store κ) (key other : κ) {duration : Nat} (lasts : 0 < duration) :
    (store.expire key duration).count other = store.count other := by
  by_cases same : other = key
  · rw [same, count_expire_self store key lasts]
  · exact count_expire_of_ne same duration

end Store

/-- The counter, if there is one, is not missing before the deadline. -/
def KeptUntil (store : Store κ) (key : κ) (deadline : Nat) : Prop :=
  ∀ entry, store.entries key = some entry → ∀ expiry, entry.expiry = some expiry → deadline ≤ expiry

theorem KeptUntil.live_eq {store : Store κ} {key : κ} {deadline : Nat} (kept : KeptUntil store key deadline)
    (early : store.now < deadline) : store.live key = store.entries key := by
  unfold Store.live
  cases found : store.entries key with
  | none => rfl
  | some entry =>
      rw [Option.filter_eq_some_iff]
      refine ⟨rfl, ?_⟩
      unfold Entry.isLive
      cases expires : entry.expiry with
      | none => rfl
      | some expiry =>
          have later := kept entry found expiry expires
          simp only [Option.all_some, decide_eq_true_eq]
          omega

theorem keptUntil_empty (now : Nat) (key : κ) (deadline : Nat) : KeptUntil (Store.empty now) key deadline := by
  intro entry found
  cases found

/-- Passing time brings no deadline nearer. -/
theorem KeptUntil.advance {store : Store κ} {key : κ} {deadline : Nat} (kept : KeptUntil store key deadline)
    (elapsed : Nat) : KeptUntil (store.advance elapsed) key deadline :=
  kept

theorem KeptUntil.count_advance {store : Store κ} {key : κ} {deadline : Nat} (kept : KeptUntil store key deadline)
    {elapsed : Nat} (early : store.now + elapsed < deadline) :
    (store.advance elapsed).count key = store.count key := by
  have now : store.live key = store.entries key := kept.live_eq (by omega)
  have later : (store.advance elapsed).live key = store.entries key := (kept.advance elapsed).live_eq early
  rw [Store.count, later, Store.count, now]

variable [DecidableEq κ]

/-- Counting leaves every deadline where it was. -/
theorem KeptUntil.increment {store : Store κ} {key : κ} {deadline : Nat} (kept : KeptUntil store key deadline)
    (other : κ) : KeptUntil (store.increment other) key deadline := by
  intro entry found expiry expires
  by_cases same : key = other
  · subst same
    simp only [Store.increment, Function.update_self, Option.some.injEq] at found
    rw [← found] at expires
    obtain ⟨before, alive, beforeExpires⟩ := Option.bind_eq_some_iff.mp expires
    exact kept before (Store.isLive_of_live alive).1 expiry beforeExpires
  · simp only [Store.increment, Function.update_of_ne same] at found
    exact kept entry found expiry expires

/-- A new expiry keeps a deadline that it does not fall short of. -/
theorem KeptUntil.expire {store : Store κ} {key : κ} {deadline : Nat} (kept : KeptUntil store key deadline)
    {other : κ} {duration : Nat} (lasts : other = key → deadline ≤ store.now + duration) :
    KeptUntil (store.expire other duration) key deadline := by
  intro entry found expiry expires
  unfold Store.expire at found
  split at found
  · by_cases same : key = other
    · subst same
      simp only [Function.update_self, Option.some.injEq] at found
      rw [← found, Option.some.injEq] at expires
      rw [← expires]
      exact lasts rfl
    · simp only [Function.update_of_ne same] at found
      exact kept entry found expiry expires
  · exact kept entry found expiry expires

end ExpiringCounters
