import TapeCalc.BoundedStack

/-!
# Steps and pushes

Steps that may fail are put together one after the other, and the first that fails ends
them all.  A push that finds a free place adds one value and changes nothing else, so what
a bounded stack holds depends on its capacity only in so far as everything fits.

Two runs can be compared step by step.  Their results belong together when both succeed in
states that belong together, or both fail with one fault.  The first run may also be cut off
by a fault that the second is spared, and then nothing is said about the second.

Main definitions:

- {lit}`Action.Couples`: two results that belong together.
- {lit}`BoundedStack.Grows`: a stack onto which values have been put.

Main results:

- Theorems {lit}`Action.bind_of_ok` and {lit}`Action.bind_of_error`: one step after another.
- Theorem {lit}`BoundedStack.push_eq_pushed`: a push with a free place.
- Theorems {lit}`BoundedStack.push_ok` and {lit}`BoundedStack.push_error`: what a push has done.
-/

namespace TapeCalc

/-! ## Steps of an action -/

/-- After a step that succeeds the next one goes on from the state it has reached. -/
theorem Action.bind_of_ok {σ α β : Type} {first : Action σ α} {second : α → Action σ β}
    {before after : σ} {value : α} (h : first before = .ok value after) :
    (first >>= second) before = second value after := by
  simp only [bind, EStateM.bind, h]

/-- After a step that fails there is no next one. -/
theorem Action.bind_of_error {σ α β : Type} {first : Action σ α} {second : α → Action σ β}
    {before after : σ} {fault : Fault} (h : first before = .error fault after) :
    (first >>= second) before = .error fault after := by
  simp only [bind, EStateM.bind, h]

/-- A step that looks at the state goes on with it. -/
theorem Action.get_bind {σ α : Type} {next : σ → Action σ α} (before : σ) :
    ((get : Action σ σ) >>= next) before = next before before := rfl

/-- The state that a step has reached, whether it has succeeded or not. -/
def Action.reached {σ α : Type} : EStateM.Result Fault σ α → σ
  | .ok _ state => state
  | .error _ state => state

/-! ## Two results side by side -/

/-- Two results that belong together: both succeed with one value in related states, or both
fail with one fault, or the first has been cut off. -/
inductive Action.Couples {σ τ α : Type} (related : σ → τ → Prop) (cut : Fault → Prop) :
    EStateM.Result Fault σ α → EStateM.Result Fault τ α → Prop where
  | ok {value : α} {left : σ} {right : τ} (states : related left right) :
      Couples related cut (.ok value left) (.ok value right)
  | fault {fault : Fault} {left : σ} {right : τ} :
      Couples related cut (.error fault left) (.error fault right)
  | cut {fault : Fault} {left : σ} {result : EStateM.Result Fault τ α} (cutOff : cut fault) :
      Couples related cut (.error fault left) result

namespace Action.Couples

variable {σ τ α β : Type} {related : σ → τ → Prop} {cut : Fault → Prop}

/-- What belongs to a success. -/
theorem of_ok {value : α} {left : σ} {result : EStateM.Result Fault τ α}
    (h : Action.Couples related cut (.ok value left) result) :
    ∃ right, result = .ok value right ∧ related left right := by
  cases h with
  | ok states => exact ⟨_, rfl, states⟩

/-- What belongs to a failure. -/
theorem of_error {fault : Fault} {left : σ} {result : EStateM.Result Fault τ α}
    (h : Action.Couples related cut (.error fault left) result) :
    cut fault ∨ ∃ right, result = .error fault right := by
  cases h with
  | fault => exact Or.inr ⟨_, rfl⟩
  | cut cutOff => exact Or.inl cutOff

/-- Steps in a row belong together if each step does. -/
theorem bind {first : Action σ α} {first' : Action τ α} {second : α → Action σ β}
    {second' : α → Action τ β} {left : σ} {right : τ}
    (h : Action.Couples related cut (first left) (first' right))
    (next : ∀ value mid mid', first left = .ok value mid → related mid mid' →
      Action.Couples related cut (second value mid) (second' value mid')) :
    Action.Couples related cut ((first >>= second) left) ((first' >>= second') right) := by
  cases result : first left with
  | ok value mid =>
    rw [result] at h
    obtain ⟨mid', result', states⟩ := h.of_ok
    rw [Action.bind_of_ok result, Action.bind_of_ok result']
    exact next value mid mid' result states
  | error fault mid =>
    rw [result] at h
    rw [Action.bind_of_error result]
    rcases h.of_error with cutOff | ⟨mid', result'⟩
    · exact .cut cutOff
    · rw [Action.bind_of_error result']
      exact .fault

end Action.Couples

/-! ## Pushes -/

namespace BoundedStack

variable {α : Type}

/-- The stack with one value more and one place less. -/
def pushed (value : α) (stack : BoundedStack α) : BoundedStack α :=
  { stack with entries := value :: stack.entries, room := stack.room - 1 }

@[simp] theorem entries_pushed (value : α) (stack : BoundedStack α) :
    (stack.pushed value).entries = value :: stack.entries := rfl

@[simp] theorem room_pushed (value : α) (stack : BoundedStack α) :
    (stack.pushed value).room = stack.room - 1 := rfl

@[simp] theorem size_pushed (value : α) (stack : BoundedStack α) :
    (stack.pushed value).size = stack.size + 1 := rfl

/-- A push that finds a free place takes it. -/
theorem push_eq_pushed (value : α) {stack : BoundedStack α} (h : stack.room ≠ 0) :
    push value stack = .ok () (stack.pushed value) := by
  obtain ⟨room, hroom⟩ := Nat.exists_eq_succ_of_ne_zero h
  simp [push, pushed, hroom]

/-- A push takes a free place or reports that there is none. -/
theorem push_eq (value : α) (stack : BoundedStack α) :
    push value stack =
      if stack.room = 0 then .error (.plain stack.overflow) stack
      else .ok () (stack.pushed value) := by
  split
  · exact push_full value ‹_›
  · exact push_eq_pushed value ‹_›

/-- A push that succeeds has taken a free place. -/
theorem push_ok {value : α} {stack after : BoundedStack α} (h : push value stack = .ok () after) :
    stack.room ≠ 0 ∧ after = stack.pushed value := by
  rw [push_eq] at h
  split at h
  · cases h
  · cases h
    exact ⟨‹_›, rfl⟩

/-- A push that fails has found no free place, and it leaves the stack. -/
theorem push_error {value : α} {stack after : BoundedStack α} {fault : Fault}
    (h : push value stack = .error fault after) :
    stack.room = 0 ∧ fault = .plain stack.overflow ∧ after = stack := by
  rw [push_eq] at h
  split at h
  · cases h
    exact ⟨‹_›, rfl, rfl⟩
  · cases h

@[simp] theorem toList_pushed (value : α) (stack : BoundedStack α) :
    (stack.pushed value).toList = stack.toList ++ [value] := by
  simp [toList]

@[simp] theorem length_toList (stack : BoundedStack α) : stack.toList.length = stack.size := by
  simp [toList, size]

/-! ## Growing -/

/-- Values have been put on top, and nothing else has happened to the stack. -/
structure Grows (before after : BoundedStack α) : Prop where
  isPrefix : before.toList <+: after.toList
  capacity : after.capacity = before.capacity

namespace Grows

/-- A stack that stays as it is. -/
theorem refl (stack : BoundedStack α) : stack.Grows stack := ⟨List.prefix_refl _, rfl⟩

/-- Growing twice. -/
theorem trans {before mid after : BoundedStack α} (first : before.Grows mid)
    (second : mid.Grows after) : before.Grows after :=
  ⟨first.isPrefix.trans second.isPrefix, second.capacity.trans first.capacity⟩

/-- A value that takes a free place. -/
theorem pushed (value : α) {stack : BoundedStack α} (place : stack.room ≠ 0) :
    stack.Grows (stack.pushed value) := by
  refine ⟨⟨[value], by simp⟩, ?_⟩
  rw [BoundedStack.capacity, BoundedStack.capacity, size_pushed, room_pushed]
  omega

end Grows

/-- A push only adds to the stack. -/
theorem grows_push (value : α) (stack : BoundedStack α) :
    stack.Grows (Action.reached (push value stack)) := by
  rw [push_eq]
  split
  · exact .refl stack
  · exact .pushed value ‹_›

/-- A stack never holds more than its capacity. -/
theorem length_toList_le (stack : BoundedStack α) : stack.toList.length ≤ stack.capacity := by
  rw [length_toList, capacity]
  omega

/-! ## Other capacities -/

/-- The stack with another number of places in all. -/
def withCapacity (capacity : Nat) (stack : BoundedStack α) : BoundedStack α :=
  { stack with room := capacity - stack.size }

@[simp] theorem toList_withCapacity (capacity : Nat) (stack : BoundedStack α) :
    (stack.withCapacity capacity).toList = stack.toList := rfl

@[simp] theorem size_withCapacity (capacity : Nat) (stack : BoundedStack α) :
    (stack.withCapacity capacity).size = stack.size := rfl

/-- A push under another capacity. -/
theorem pushed_withCapacity (capacity : Nat) (value : α) (stack : BoundedStack α) :
    (stack.withCapacity capacity).pushed value = (stack.pushed value).withCapacity capacity := by
  simp [pushed, withCapacity, size, Nat.sub_sub]

end BoundedStack

end TapeCalc
