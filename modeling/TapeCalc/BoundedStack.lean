import TapeCalc.Fault

/-!
# Bounded stacks

A stack with a fixed number of places.  Pushing onto a full stack fails with the
fault code the stack was made with, and taking from an empty one fails with an
internal error.

Instead of a capacity the stack keeps the number of places still free, so no
operation can make it hold more than it was made for: a push uses one place and a
pop gives one back.

Main definitions:

- {lit}`Action`: a step on a state that may fail and keeps the state it reached.
- {lit}`BoundedStack.push`, {lit}`BoundedStack.pop`, {lit}`BoundedStack.popTwo`,
  {lit}`BoundedStack.replaceTop`.

Main results:

- Theorem {lit}`BoundedStack.push_full`: a push onto a full stack.
-/

namespace TapeCalc

/-- A step on a state that may fail.  A failing step keeps the state it reached. -/
abbrev Action (σ α : Type) := EStateM Fault σ α

namespace Action

/-- Continue with a finished computation, or fail as it did. -/
def ofExcept {σ α : Type} : Except Fault α → Action σ α
  | .ok value => pure value
  | .error fault => throw fault

/-- Run a step on one part of the state. -/
def onPart {σ τ α : Type} (get : σ → τ) (set : σ → τ → σ) (step : Action τ α) :
    Action σ α := fun state =>
  match step (get state) with
  | .ok value part => .ok value (set state part)
  | .error fault part => .error fault (set state part)

/-- Change the fault of a failing step, looking at the state it reached. -/
def mapFault {σ α : Type} (change : σ → Fault → Fault) (step : Action σ α) :
    Action σ α := fun state =>
  match step state with
  | .ok value reached => .ok value reached
  | .error fault reached => .error (change reached fault) reached

end Action

/-- A stack with a fixed number of places. -/
structure BoundedStack (α : Type) where
  /-- What the stack holds, newest first. -/
  entries : List α
  /-- How many more values it takes. -/
  room : Nat
  /-- The code of the fault a push onto the full stack fails with. -/
  overflow : FaultCode

namespace BoundedStack

variable {α : Type}

/-- An empty stack with a number of places. -/
def empty (capacity : Nat) (overflow : FaultCode) : BoundedStack α :=
  ⟨[], capacity, overflow⟩

/-- A full stack that holds a list, its last element newest. -/
def ofList (items : List α) (overflow : FaultCode) : BoundedStack α :=
  ⟨items.reverse, 0, overflow⟩

/-- What the stack holds, oldest first. -/
def toList (stack : BoundedStack α) : List α := stack.entries.reverse

/-- How many values the stack holds. -/
def size (stack : BoundedStack α) : Nat := stack.entries.length

/-- How many values the stack can hold. -/
def capacity (stack : BoundedStack α) : Nat := stack.size + stack.room

/-- Whether the stack holds nothing. -/
def isEmpty (stack : BoundedStack α) : Bool := stack.entries.isEmpty

/-- Whether no place is left. -/
def isFull (stack : BoundedStack α) : Bool := stack.room == 0

/-- The value at an index counted from the oldest. -/
def get? (stack : BoundedStack α) (index : Nat) : Option α := stack.toList[index]?

/-- What taking from an empty stack is reported as. -/
def underflow : Fault := .broken "STACK UNDERFLOW"

/-- Put a value on top. -/
def push (value : α) : Action (BoundedStack α) Unit := fun stack =>
  match stack.room with
  | 0 => .error (.plain stack.overflow) stack
  | room + 1 => .ok () { stack with entries := value :: stack.entries, room }

/-- Take the value on top. -/
def pop : Action (BoundedStack α) α := fun stack =>
  match stack.entries with
  | [] => .error underflow stack
  | value :: entries => .ok value { stack with entries, room := stack.room + 1 }

/-- Take the two values on top, the lower one first in the answer.  A lone value is
gone after the failure. -/
def popTwo : Action (BoundedStack α) (α × α) := do
  let upper ← pop
  let lower ← pop
  return (lower, upper)

/-- Replace the value on top by what a computation makes of it. -/
def replaceTop (change : α → Except Fault α) : Action (BoundedStack α) Unit := fun stack =>
  match stack.entries with
  | [] => .error underflow stack
  | value :: entries =>
    match change value with
    | .error fault => .error fault stack
    | .ok changed => .ok () { stack with entries := changed :: entries }

@[simp] theorem toList_empty (capacity : Nat) (overflow : FaultCode) :
    (empty capacity overflow : BoundedStack α).toList = [] := rfl

/-- A push onto a full stack changes nothing and reports the stack's own code. -/
theorem push_full (value : α) {stack : BoundedStack α} (h : stack.room = 0) :
    push value stack = .error (.plain stack.overflow) stack := by
  simp [push, h]

end BoundedStack

end TapeCalc
