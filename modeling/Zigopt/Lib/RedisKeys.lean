/-
Module: Zigopt.Lib.RedisKeys
Layer: Lib
Purpose: The keys of a Redis server: each has a value of one of five types and perhaps a time it expires at. A command
  works on the slot of a key at some time of the server. It absorbs itself if it leaves the same slot behind whether or
  not it has already been executed before.
Main exports: Entry, Store, onKey, Kind, Kind.edit, Kind.look, expireTo, Absorbs, absorbs_edit
-/
import Mathlib.Data.Finmap
import Mathlib.Algebra.Order.Ring.Rat
import Mathlib.Data.Finset.Sort
import Mathlib.Data.Prod.Lex
import Zigopt.Lib.Raising

namespace RedisKeys

abbrev Bytes := List (Fin 256)

/-- The members of a hash or sorted set. -/
abbrev Table (α : Type) := Finmap fun _ : Bytes => α

/-- The kinds of value that a key holds. -/
inductive Value where
  | string (value : Bytes)
  | list (members : List Bytes)
  | set (members : Finset Bytes)
  | hash (fields : Table Bytes)
  | sortedSet (scores : Table ℚ)
deriving DecidableEq

/-- What is stored under a key, with the time in milliseconds at which it is gone. -/
structure Entry where
  value : Value
  expiry : Option ℤ
deriving DecidableEq

/-- The slot of a key: nothing, or an entry. -/
abbrev Slot := Option Entry

/-- Every key has a slot, though the slot may be empty. -/
abbrev Store := Bytes → Slot

inductive RedisError where
  | wrongType
  | arguments
  | invalidExpire
deriving DecidableEq, Repr

def lasts (time : ℤ) (expiry : Option ℤ) : Bool :=
  expiry.all fun expiry => time < expiry

/-- What is there at a time. -/
def live (time : ℤ) (slot : Slot) : Slot :=
  slot.filter fun entry => lasts time entry.expiry

/-- The store without what has expired. -/
def Store.live (time : ℤ) (store : Store) : Store := fun key => RedisKeys.live time (store key)

/-- A command on one key: from the time and what is there, what is there afterwards, and a reply. -/
abbrev SlotCommand (ρ : Type) := ℤ → Slot → Except RedisError (Slot × ρ)

abbrev Command (ρ : Type) := ℤ → Store → Except RedisError (Store × ρ)

section Commands

variable {ρ V : Type}

/-- A command on one key sees its slot as it is at that time and touches no other. -/
def onKey (key : Bytes) (command : SlotCommand ρ) : Command ρ := fun time store => do
  let (slot, reply) ← command time (live time (store key))
  pure (Store.live time (Function.update store key slot), reply)

/-- A type of values with its empty value, which is never stored. -/
structure Kind (V : Type) where
  make : V → Value
  read : Value → Option V
  empty : V
  read_make : ∀ value, read (make value) = some value

def listKind : Kind (List Bytes) where
  make := .list
  read
    | .list members => some members
    | _ => none
  empty := []
  read_make _ := rfl

def setKind : Kind (Finset Bytes) where
  make := .set
  read
    | .set members => some members
    | _ => none
  empty := ∅
  read_make _ := rfl

def hashKind : Kind (Table Bytes) where
  make := .hash
  read
    | .hash fields => some fields
    | _ => none
  empty := ∅
  read_make _ := rfl

def sortedSetKind : Kind (Table ℚ) where
  make := .sortedSet
  read
    | .sortedSet scores => some scores
    | _ => none
  empty := ∅
  read_make _ := rfl

namespace Kind

variable (kind : Kind V)

/-- A missing key counts as empty. -/
def get : Slot → Except RedisError V
  | none => .ok kind.empty
  | some entry =>
      match kind.read entry.value with
      | some value => .ok value
      | none => .error .wrongType

/-- A key is deleted with its last member. -/
def put [DecidableEq V] (expiry : Option ℤ) (value : V) : Slot :=
  if value = kind.empty then none else some { value := kind.make value, expiry := expiry }

/-- The value is changed; the expiry of the key stays. -/
def edit [DecidableEq V] (change : V → V) (reply : V → ρ) : SlotCommand ρ := fun _ slot => do
  let value ← kind.get slot
  pure (kind.put (slot.bind Entry.expiry) (change value), reply value)

/-- A command that reads a value of its kind, and refuses one of another kind. -/
def look (reply : V → ρ) : SlotCommand ρ := fun _ slot => do
  let value ← kind.get slot
  pure (slot, reply value)

end Kind

/-- EXPIRE and EXPIREAT, for the time that the key is to be gone at. -/
def expireTo (deadline : ℤ → ℤ) (reply : Bool → ρ) : SlotCommand ρ := fun time slot =>
  match slot with
  | none => .ok (none, reply false)
  | some entry => .ok (some { entry with expiry := some (deadline time) }, reply true)

/-- GET. -/
def getString (reply : Option Bytes → ρ) : SlotCommand ρ := fun _ slot =>
  match slot with
  | none => .ok (slot, reply none)
  | some ⟨.string value, _⟩ => .ok (slot, reply (some value))
  | some _ => .error .wrongType

/-- SET, with the seconds that the key lasts. -/
def setString (value : Bytes) (seconds : Option ℤ) (reply : ρ) : SlotCommand ρ := fun time _ =>
  match seconds with
  | none => .ok (some { value := .string value, expiry := none }, reply)
  | some seconds =>
      if seconds ≤ 0 then .error .invalidExpire
      else .ok (some { value := .string value, expiry := some (time + 1000 * seconds) }, reply)

/-- DEL, and EXISTS. -/
def deleteKey (reply : Bool → ρ) : SlotCommand ρ := fun _ slot => .ok (none, reply slot.isSome)

def keyExists (reply : Bool → ρ) : SlotCommand ρ := fun _ slot => .ok (slot, reply slot.isSome)

end Commands

/-! ### Tables -/

namespace Table

variable {α : Type}

/-- HSET. -/
def setAll (items : List (Bytes × α)) (table : Table α) : Table α :=
  items.foldl (fun table item => table.insert item.1 item.2) table

/-- ZADD NX: the score of a member that is there stays. -/
def addNew (items : List (Bytes × α)) (table : Table α) : Table α :=
  items.foldl (fun table item => if item.1 ∈ table then table else table.insert item.1 item.2) table

/-- HDEL, and ZREM. -/
def removeAll (members : List Bytes) (table : Table α) : Table α :=
  members.foldl (fun table member => table.erase member) table

/-- The members of a sorted set with their scores, in its order. -/
def ranked (scores : Table ℚ) : List (ℚ ×ₗ Bytes) :=
  (scores.keys.image fun member => toLex ((scores.lookup member).getD 0, member)).sort (· ≤ ·)

theorem lookup_setAll (items : List (Bytes × α)) (table : Table α) (member : Bytes) :
    (setAll items table).lookup member = (items.reverse.lookup member).or (table.lookup member) := by
  induction items generalizing table with
  | nil => rfl
  | cons item rest inductionHypothesis =>
      have step : setAll (item :: rest) table = setAll rest (table.insert item.1 item.2) := rfl
      rw [step, inductionHypothesis, List.reverse_cons, List.lookup_append, Option.or_assoc]
      congr 1
      by_cases same : member = item.1
      · rw [same, Finmap.lookup_insert, List.lookup_cons_self, Option.some_or]
      · rw [Finmap.lookup_insert_of_ne _ same, List.lookup_cons, beq_false_of_ne same, List.lookup_nil, Option.none_or]

theorem setAll_setAll (items : List (Bytes × α)) (table : Table α) :
    setAll items (setAll items table) = setAll items table := by
  apply Finmap.ext_lookup
  intro member
  rw [lookup_setAll, lookup_setAll, ← Option.or_assoc, Option.or_self]

theorem lookup_addNew (items : List (Bytes × α)) (table : Table α) (member : Bytes) :
    (addNew items table).lookup member = (table.lookup member).or (items.lookup member) := by
  induction items generalizing table with
  | nil => exact (Option.or_none).symm
  | cons item rest inductionHypothesis =>
      have step : addNew (item :: rest) table =
          addNew rest (if item.1 ∈ table then table else table.insert item.1 item.2) := rfl
      rw [step, inductionHypothesis]
      by_cases same : member = item.1
      · subst same
        rw [List.lookup_cons_self]
        split
        next there =>
          obtain ⟨value, found⟩ := Finmap.mem_iff.mp there
          rw [found, Option.some_or, Option.some_or]
        next missing => rw [Finmap.lookup_insert, Finmap.lookup_eq_none.mpr missing, Option.some_or, Option.none_or]
      · rw [List.lookup_cons, beq_false_of_ne same]
        split
        next _ => rfl
        next _ => rw [Finmap.lookup_insert_of_ne _ same]

theorem addNew_addNew (items : List (Bytes × α)) (table : Table α) :
    addNew items (addNew items table) = addNew items table := by
  apply Finmap.ext_lookup
  intro member
  rw [lookup_addNew, lookup_addNew, Option.or_assoc, Option.or_self]

theorem lookup_removeAll (members : List Bytes) (table : Table α) (member : Bytes) :
    (removeAll members table).lookup member = if member ∈ members then none else table.lookup member := by
  induction members generalizing table with
  | nil => rfl
  | cons first rest inductionHypothesis =>
      have step : removeAll (first :: rest) table = removeAll rest (table.erase first) := rfl
      rw [step, inductionHypothesis]
      by_cases same : member = first
      · rw [same, Finmap.lookup_erase, ite_self, if_pos List.mem_cons_self]
      · simp only [Finmap.lookup_erase_ne same, List.mem_cons, same, false_or]

theorem removeAll_removeAll (members : List Bytes) (table : Table α) :
    removeAll members (removeAll members table) = removeAll members table := by
  apply Finmap.ext_lookup
  intro member
  rw [lookup_removeAll, lookup_removeAll]
  split
  · rfl
  · rfl

end Table

/-! ### What is there later -/

theorem lasts_of_le {time later : ℤ} (inOrder : time ≤ later) {expiry : Option ℤ} (still : lasts later expiry = true) :
    lasts time expiry = true := by
  cases expiry with
  | none => rfl
  | some expiry =>
      simp only [lasts, Option.all_some, decide_eq_true_eq] at still ⊢
      omega

@[simp] theorem live_none (time : ℤ) : live time none = none := rfl

theorem live_some_of_lasts {time : ℤ} {entry : Entry} (still : lasts time entry.expiry = true) :
    live time (some entry) = some entry := by
  rw [live, Option.filter_some, still]
  rfl

theorem live_some_of_gone {time : ℤ} {entry : Entry} (gone : lasts time entry.expiry = false) :
    live time (some entry) = none := by
  rw [live, Option.filter_some, gone]
  rfl

/-- What is gone at a time is gone later. -/
theorem live_live {time later : ℤ} (inOrder : time ≤ later) (slot : Slot) : live later (live time slot) = live later slot := by
  cases slot with
  | none => rfl
  | some entry =>
      cases still : lasts time entry.expiry with
      | true => rw [live_some_of_lasts still]
      | false =>
          have gone : lasts later entry.expiry = false := by
            by_contra notGone
            rw [lasts_of_le inOrder (Bool.not_eq_false _ ▸ notGone)] at still
            cases still
          rw [live_some_of_gone still, live_some_of_gone gone, live_none]

theorem live_of_lasts {time : ℤ} {slot : Slot} (still : lasts time (slot.bind Entry.expiry) = true) :
    live time slot = slot := by
  cases slot with
  | none => rfl
  | some entry => exact live_some_of_lasts still

theorem live_of_gone {time : ℤ} {slot : Slot} (gone : lasts time (slot.bind Entry.expiry) = false) :
    live time slot = none := by
  cases slot with
  | none => rfl
  | some entry => exact live_some_of_gone gone

theorem lasts_live (time : ℤ) (slot : Slot) : lasts time ((live time slot).bind Entry.expiry) = true := by
  cases slot with
  | none => rfl
  | some entry =>
      cases still : lasts time entry.expiry with
      | true => rw [live_some_of_lasts still, Option.bind_some, still]
      | false => rw [live_some_of_gone still, Option.bind_none, lasts, Option.all_none]

/-! ### Commands that absorb themselves -/

section Absorbing

variable {ρ V : Type}

/-- What is there after a command. -/
def slotAfter (command : SlotCommand ρ) (time : ℤ) (slot : Slot) : Except RedisError Slot :=
  (command time (live time slot)).map fun answer => live time answer.1

/-- After a first execution a second one leaves what it leaves without the first. -/
def Absorbs (command : SlotCommand ρ) : Prop :=
  ∀ time later slot first, time ≤ later → slotAfter command time slot = .ok first →
    slotAfter command later first = slotAfter command later slot

theorem slotAfter_eq (command : SlotCommand ρ) (time : ℤ) (slot : Slot) :
    slotAfter command time slot = ((command time (live time slot)).map Prod.fst).map (live time) := by
  rw [slotAfter]
  cases command time (live time slot) with
  | ok answer => rfl
  | error failure => rfl

/-- A command that does not look at what is there absorbs itself. -/
theorem absorbs_of_blind {command : SlotCommand ρ}
    (blind : ∀ time slot other, (command time slot).map Prod.fst = (command time other).map Prod.fst) :
    Absorbs command := by
  intro time later slot first _ _
  rw [slotAfter_eq, slotAfter_eq, blind later (live later first) (live later slot)]

/-- A command that only reads absorbs itself. -/
theorem absorbs_of_reads {command : SlotCommand ρ}
    (reads : ∀ time slot answer, command time slot = .ok answer → answer.1 = slot) : Absorbs command := by
  intro time later slot first inOrder executed
  rw [slotAfter, Raising.map_eq_ok] at executed
  obtain ⟨answer, read, rfl⟩ := executed
  rw [slotAfter, slotAfter, reads _ _ _ read, live_live inOrder, live_live inOrder]

theorem absorbs_getString (reply : Option Bytes → ρ) : Absorbs (getString reply) := by
  apply absorbs_of_reads
  intro time slot answer read
  unfold getString at read
  split at read
  · obtain rfl := Except.ok.inj read
    rfl
  · obtain rfl := Except.ok.inj read
    rfl
  · cases read

theorem absorbs_keyExists (reply : Bool → ρ) : Absorbs (keyExists reply) := by
  apply absorbs_of_reads
  intro time slot answer read
  obtain rfl := Except.ok.inj read
  rfl

theorem absorbs_setString (value : Bytes) (seconds : Option ℤ) (reply : ρ) : Absorbs (setString value seconds reply) :=
  absorbs_of_blind fun _ _ _ => rfl

theorem absorbs_deleteKey (reply : Bool → ρ) : Absorbs (deleteKey reply) :=
  absorbs_of_blind fun _ _ _ => rfl

variable (kind : Kind V)

theorem absorbs_look (reply : V → ρ) : Absorbs (kind.look reply) := by
  apply absorbs_of_reads
  intro time slot answer read
  obtain ⟨value, _, isAnswer⟩ := Raising.bind_eq_ok.mp read
  obtain rfl := Raising.pure_eq_ok.mp isAnswer
  rfl

variable [DecidableEq V]

theorem get_put (expiry : Option ℤ) (value : V) : kind.get (kind.put expiry value) = .ok value := by
  rw [Kind.put]
  split
  next isEmpty => rw [isEmpty, Kind.get]
  next _ => rw [Kind.get, kind.read_make]

theorem live_put_of_lasts {time : ℤ} {expiry : Option ℤ} (still : lasts time expiry = true) (value : V) :
    live time (kind.put expiry value) = kind.put expiry value := by
  rw [Kind.put]
  split
  · rfl
  · exact live_some_of_lasts still

theorem live_put_of_gone {time : ℤ} {expiry : Option ℤ} (gone : lasts time expiry = false) (value : V) :
    live time (kind.put expiry value) = none := by
  rw [Kind.put]
  split
  · rfl
  · exact live_some_of_gone gone

theorem put_expiry_put (expiry : Option ℤ) (value : V) :
    kind.put ((kind.put expiry value).bind Entry.expiry) value = kind.put expiry value := by
  by_cases isEmpty : value = kind.empty
  · rw [Kind.put, if_pos isEmpty, Kind.put, if_pos isEmpty]
  · simp only [Kind.put, if_neg isEmpty, Option.bind_some]

theorem slotAfter_edit_of_get {change : V → V} {reply : V → ρ} {time : ℤ} {slot : Slot} {value : V}
    (found : kind.get (live time slot) = .ok value) :
    slotAfter (kind.edit change reply) time slot =
      .ok (live time (kind.put ((live time slot).bind Entry.expiry) (change value))) := by
  rw [slotAfter, Kind.edit, found]
  rfl

/-- A command that changes a value as it would be changed twice absorbs itself. -/
theorem absorbs_edit {change : V → V} (idempotent : ∀ value, change (change value) = change value) (reply : V → ρ) :
    Absorbs (kind.edit change reply) := by
  intro time later slot first inOrder executed
  rw [slotAfter, Raising.map_eq_ok] at executed
  obtain ⟨⟨next, answer⟩, edited, rfl⟩ := executed
  obtain ⟨value, found, isNext⟩ := Raising.bind_eq_ok.mp edited
  obtain ⟨rfl, _⟩ := Prod.mk.inj (Raising.pure_eq_ok.mp isNext)
  rw [live_put_of_lasts kind (lasts_live time slot)]
  cases still : lasts later ((live time slot).bind Entry.expiry) with
  | true =>
      have there : live later slot = live time slot := by rw [← live_live inOrder, live_of_lasts still]
      have thereFirst := live_put_of_lasts kind still (change value)
      have foundFirst := get_put kind ((live time slot).bind Entry.expiry) (change value)
      rw [← thereFirst] at foundFirst
      rw [← there] at found
      rw [slotAfter_edit_of_get kind foundFirst, slotAfter_edit_of_get kind found, thereFirst, idempotent,
        put_expiry_put, there]
  | false =>
      have gone : live later slot = none := by rw [← live_live inOrder, live_of_gone still]
      rw [slotAfter, slotAfter, gone, live_put_of_gone kind still]

end Absorbing

/-! ### Commands that are executed again and again -/

section Repeated

variable {ρ : Type}

/-- Where a command fails the slot stays as it is. -/
def executed (command : SlotCommand ρ) (slot : Slot) (time : ℤ) : Slot :=
  match slotAfter command time slot with
  | .ok next => next
  | .error _ => slot

def executeAll (command : SlotCommand ρ) (times : List ℤ) (slot : Slot) : Slot :=
  times.foldl (executed command) slot

theorem executeAll_cons (command : SlotCommand ρ) (time : ℤ) (rest : List ℤ) (slot : Slot) :
    executeAll command (time :: rest) slot = executeAll command rest (executed command slot time) := rfl

/-- Earlier executions of a command that absorbs itself make no difference. -/
theorem Absorbs.executeAll {command : SlotCommand ρ} (absorbs : Absorbs command) {times : List ℤ} {later : ℤ}
    (inOrder : ∀ time ∈ times, time ≤ later) (slot : Slot) :
    slotAfter command later (executeAll command times slot) = slotAfter command later slot := by
  induction times generalizing slot with
  | nil => rfl
  | cons time rest inductionHypothesis =>
      rw [executeAll_cons, inductionHypothesis fun other isRest => inOrder other (List.mem_cons_of_mem _ isRest)]
      cases after : slotAfter command time slot with
      | ok next =>
          rw [executed, after]
          exact absorbs time later slot next (inOrder time List.mem_cons_self) after
      | error failure => rw [executed, after]

/-! ### Appending to a list -/

section Push

variable {members : List Bytes} {reply : List Bytes → ρ} {later : ℤ}

/-- RPUSH. -/
def push (members : List Bytes) (reply : List Bytes → ρ) : SlotCommand ρ :=
  listKind.edit (fun list => list ++ members) reply

/-- How many members the list has at a time. -/
def sizeAt (time : ℤ) (slot : Slot) : ℕ :=
  match listKind.get (live time slot) with
  | .ok list => list.length
  | .error _ => 0

/-- The slot has an entry that is gone between these times. -/
def GoneBetween (slot : Slot) (time later : ℤ) : Prop :=
  ∃ deadline, slot.bind Entry.expiry = some deadline ∧ time < deadline ∧ deadline ≤ later

theorem sizeAt_push {slot final : Slot} (pushed : slotAfter (push members reply) later slot = .ok final) :
    sizeAt later final = sizeAt later slot + members.length := by
  cases found : listKind.get (live later slot) with
  | ok list =>
      obtain rfl := Except.ok.inj (pushed.symm.trans (slotAfter_edit_of_get listKind found))
      rw [sizeAt, sizeAt, found, live_live le_rfl, live_put_of_lasts listKind (lasts_live later slot), get_put]
      exact List.length_append
  | error failure =>
      rw [slotAfter, push, Kind.edit, found] at pushed
      cases pushed

theorem executed_push_of_get {time : ℤ} {slot : Slot} {list : List Bytes}
    (found : listKind.get (live time slot) = .ok list) :
    executed (push members reply) slot time = listKind.put ((live time slot).bind Entry.expiry) (list ++ members) := by
  rw [executed, push, slotAfter_edit_of_get listKind found]
  exact live_put_of_lasts listKind (lasts_live time slot) _

theorem executed_push_of_error {time : ℤ} {slot : Slot} {failure : RedisError}
    (found : listKind.get (live time slot) = .error failure) : executed (push members reply) slot time = slot := by
  rw [executed, slotAfter, push, Kind.edit, found]
  rfl

/-- Where an entry is not gone between two times, what is there at the first is there at the second. -/
theorem live_later {time : ℤ} (inOrder : time ≤ later) {slot : Slot}
    (still : lasts later ((live time slot).bind Entry.expiry) = true) : live later slot = live time slot := by
  rw [← live_live inOrder, live_of_lasts still]

theorem lasts_of_not_gone {time : ℤ} {slot : Slot} (notGone : ¬GoneBetween slot time later) :
    lasts later ((live time slot).bind Entry.expiry) = true := by
  by_contra notLasting
  apply notGone
  cases slot with
  | none => exact absurd rfl notLasting
  | some entry =>
      cases still : lasts time entry.expiry with
      | false =>
          rw [live_some_of_gone still] at notLasting
          exact absurd rfl notLasting
      | true =>
          rw [live_some_of_lasts still] at notLasting
          cases expires : entry.expiry with
          | none =>
              rw [Option.bind_some, expires] at notLasting
              exact absurd rfl notLasting
          | some deadline =>
              rw [Option.bind_some, expires] at notLasting
              rw [expires] at still
              simp only [lasts, Option.all_some, decide_eq_true_eq] at still notLasting
              exact ⟨deadline, expires, still, by omega⟩

theorem GoneBetween.live_eq {time : ℤ} {slot : Slot} (gone : GoneBetween slot time later) :
    live time slot = slot ∧ live later slot = none := by
  obtain ⟨deadline, expires, before, after⟩ := gone
  constructor
  · apply live_of_lasts
    rw [expires]
    exact decide_eq_true before
  · apply live_of_gone
    rw [expires]
    exact decide_eq_false (by omega)

theorem sizeAt_executed {time : ℤ} (inOrder : time ≤ later) {slot : Slot} {list : List Bytes}
    (found : listKind.get (live time slot) = .ok list)
    (still : lasts later ((live time slot).bind Entry.expiry) = true) :
    sizeAt later (executed (push members reply) slot time) = sizeAt later slot + members.length := by
  rw [executed_push_of_get found, sizeAt, sizeAt, live_later inOrder still, found,
    live_put_of_lasts listKind still, get_put]
  exact List.length_append

theorem le_sizeAt_executed {time : ℤ} (inOrder : time ≤ later) (slot : Slot) :
    sizeAt later slot ≤ sizeAt later (executed (push members reply) slot time) := by
  cases found : listKind.get (live time slot) with
  | error failure => rw [executed_push_of_error found]
  | ok list =>
      cases still : lasts later ((live time slot).bind Entry.expiry) with
      | true =>
          rw [sizeAt_executed inOrder found still]
          exact Nat.le_add_right _ _
      | false =>
          have gone : live later slot = none := by rw [← live_live inOrder, live_of_gone still]
          have empty : sizeAt later slot = 0 := by
            rw [sizeAt, gone]
            rfl
          rw [empty]
          exact Nat.zero_le _

theorem le_sizeAt_executeAll {times : List ℤ} (inOrder : ∀ time ∈ times, time ≤ later) (slot : Slot) :
    sizeAt later slot ≤ sizeAt later (executeAll (push members reply) times slot) := by
  induction times generalizing slot with
  | nil => exact le_rfl
  | cons time rest inductionHypothesis =>
      rw [executeAll_cons]
      exact (le_sizeAt_executed (inOrder time List.mem_cons_self) slot).trans
        (inductionHypothesis (fun other isRest => inOrder other (List.mem_cons_of_mem _ isRest)) _)

/-- The expiry of a list that is pushed to stays. -/
theorem expiry_executed_push (notEmpty : members ≠ []) {time : ℤ} {slot : Slot} (there : live time slot = slot) :
    (executed (push members reply) slot time).bind Entry.expiry = slot.bind Entry.expiry := by
  cases found : listKind.get (live time slot) with
  | error failure => rw [executed_push_of_error found]
  | ok list =>
      have hasMembers : list ++ members ≠ listKind.empty := by
        intro isEmpty
        exact notEmpty (List.append_eq_nil_iff.mp isEmpty).2
      rw [executed_push_of_get found, there, Kind.put, if_neg hasMembers, Option.bind_some]

/-- Earlier pushes make no difference to a push exactly if each was to an entry that is gone by then. -/
theorem executeAll_push_iff (notEmpty : members ≠ []) {times : List ℤ} (inOrder : ∀ time ∈ times, time ≤ later)
    {slot final : Slot} (pushed : slotAfter (push members reply) later (executeAll (push members reply) times slot) =
      .ok final) :
    slotAfter (push members reply) later slot = .ok final ↔ ∀ time ∈ times, GoneBetween slot time later := by
  induction times generalizing slot with
  | nil => exact iff_of_true pushed fun time isTime => (nomatch isTime)
  | cons time rest inductionHypothesis =>
      have timeInOrder := inOrder time List.mem_cons_self
      have restInOrder : ∀ other ∈ rest, other ≤ later :=
        fun other isRest => inOrder other (List.mem_cons_of_mem _ isRest)
      rw [executeAll_cons] at pushed
      by_cases gone : GoneBetween slot time later
      · obtain ⟨there, goneLater⟩ := gone.live_eq
        have sameExpiry : (executed (push members reply) slot time).bind Entry.expiry = slot.bind Entry.expiry :=
          expiry_executed_push notEmpty there
        have sameGone : ∀ other, GoneBetween (executed (push members reply) slot time) other later ↔
            GoneBetween slot other later := by
          intro other
          rw [GoneBetween, GoneBetween, sameExpiry]
        have firstGone := ((sameGone time).mpr gone).live_eq.2
        have sameAfter : slotAfter (push members reply) later (executed (push members reply) slot time) =
            slotAfter (push members reply) later slot := by
          rw [slotAfter, slotAfter, firstGone, goneLater]
        rw [List.forall_mem_cons, and_iff_right gone, ← sameAfter, inductionHypothesis restInOrder pushed]
        exact forall₂_congr fun other _ => sameGone other
      · refine iff_of_false ?_ fun all => gone (all time List.mem_cons_self)
        intro single
        have still := lasts_of_not_gone gone
        have size := sizeAt_push single
        have sizeAll := sizeAt_push pushed
        have grows : sizeAt later (executed (push members reply) slot time) ≤
            sizeAt later (executeAll (push members reply) rest (executed (push members reply) slot time)) :=
          le_sizeAt_executeAll restInOrder _
        have positive := List.length_pos_iff.mpr notEmpty
        cases found : listKind.get (live time slot) with
        | error failure =>
            rw [slotAfter, live_later timeInOrder still, push, Kind.edit, found] at single
            cases single
        | ok list =>
            rw [sizeAt_executed timeInOrder found still] at grows
            omega

end Push

/-! ### Setting an expiry -/

section Expire

variable {deadline : ℤ → ℤ} {reply : Bool → ρ} {later : ℤ}

/-- A key with this expiry is there at each of the times, where each time gives it a new expiry. -/
def outlasts (deadline : ℤ → ℤ) : Option ℤ → List ℤ → Bool
  | _, [] => true
  | expiry, time :: rest => lasts time expiry && outlasts deadline (some (deadline time)) rest

theorem slotAfter_expireTo (time : ℤ) (entry : Entry) :
    slotAfter (expireTo deadline reply) time (some entry) =
      .ok (if lasts time entry.expiry then live time (some { entry with expiry := some (deadline time) }) else none) := by
  cases still : lasts time entry.expiry with
  | true =>
      rw [slotAfter, live_some_of_lasts still, if_pos rfl]
      rfl
  | false =>
      rw [slotAfter, live_some_of_gone still, if_neg Bool.false_ne_true]
      rfl

theorem executeAll_expireTo_none (times : List ℤ) : executeAll (expireTo deadline reply) times none = none := by
  induction times with
  | nil => rfl
  | cons time rest inductionHypothesis => exact inductionHypothesis

theorem not_outlasts_of_gone {time : ℤ} {expiry : Option ℤ} (gone : lasts time expiry = false) {times : List ℤ}
    (some : times ≠ []) (inOrder : ∀ next ∈ times, time ≤ next) : outlasts deadline expiry times = false := by
  cases times with
  | nil => exact absurd rfl some
  | cons next rest =>
      have goneNext : lasts next expiry = false := by
        by_contra notGone
        rw [lasts_of_le (inOrder next List.mem_cons_self) (Bool.not_eq_false _ ▸ notGone)] at gone
        cases gone
      rw [outlasts, goneNext, Bool.false_and]

/-- A key that is given a new expiry again and again is there in the end if it outlasts all the times. -/
theorem slotAfter_executeAll_expireTo {times : List ℤ} (inOrder : (times ++ [later]).Pairwise (· ≤ ·)) (entry : Entry) :
    slotAfter (expireTo deadline reply) later (executeAll (expireTo deadline reply) times (some entry)) =
      .ok (if outlasts deadline entry.expiry (times ++ [later])
        then live later (some { entry with expiry := some (deadline later) }) else none) := by
  induction times generalizing entry with
  | nil =>
      have single : outlasts deadline entry.expiry [later] = lasts later entry.expiry := Bool.and_true _
      rw [List.nil_append, single]
      exact slotAfter_expireTo later entry
  | cons time rest inductionHypothesis =>
      rw [List.cons_append, List.pairwise_cons] at inOrder
      rw [executeAll_cons, executed, slotAfter_expireTo, List.cons_append, outlasts]
      dsimp only
      cases still : lasts time entry.expiry with
      | false =>
          rw [if_neg Bool.false_ne_true, executeAll_expireTo_none, Bool.false_and, if_neg Bool.false_ne_true]
          rfl
      | true =>
          rw [if_pos rfl, Bool.true_and]
          cases stays : lasts time (some (deadline time)) with
          | true =>
              have there : live time (some { entry with expiry := some (deadline time) }) =
                  some { entry with expiry := some (deadline time) } := live_some_of_lasts stays
              rw [there]
              exact inductionHypothesis inOrder.2 _
          | false =>
              have gone : live time (some { entry with expiry := some (deadline time) }) = none :=
                live_some_of_gone stays
              have short : outlasts deadline (some (deadline time)) (rest ++ [later]) = false :=
                not_outlasts_of_gone stays (by simp) inOrder.1
              rw [gone, executeAll_expireTo_none, short, if_neg Bool.false_ne_true]
              rfl

/-- Earlier settings of an expiry make no difference exactly if the key would have been there without them whenever it
is there with them, or is not to be there afterwards at all. -/
theorem executeAll_expireTo_iff {times : List ℤ} (inOrder : (times ++ [later]).Pairwise (· ≤ ·)) {entry : Entry}
    {final : Slot} (set : slotAfter (expireTo deadline reply) later
      (executeAll (expireTo deadline reply) times (some entry)) = .ok final) :
    slotAfter (expireTo deadline reply) later (some entry) = .ok final ↔
      (later < deadline later → outlasts deadline entry.expiry (times ++ [later]) = lasts later entry.expiry) := by
  obtain rfl := Except.ok.inj ((slotAfter_executeAll_expireTo inOrder entry).symm.trans set)
  rw [slotAfter_expireTo, Except.ok.injEq]
  by_cases stays : later < deadline later
  · have there : live later (some { entry with expiry := some (deadline later) }) =
        some { entry with expiry := some (deadline later) } := live_some_of_lasts (decide_eq_true stays)
    rw [there]
    cases outlasts deadline entry.expiry (times ++ [later]) with
    | true =>
        cases lasts later entry.expiry with
        | true => simp
        | false => simp [stays]
    | false =>
        cases lasts later entry.expiry with
        | true => simp [stays]
        | false => simp
  · have gone : live later (some { entry with expiry := some (deadline later) }) = none :=
      live_some_of_gone (decide_eq_false stays)
    rw [gone, ite_self, ite_self]
    exact iff_of_true rfl fun impossible => absurd impossible stays

end Expire

end Repeated

end RedisKeys
