import TapeCalc.Program.Tape
import TapeCalc.Proofs.Program.Pool

/-!
# Stacks with spare places

Two stacks that hold the same values, one of them with spare places behind the last one,
take the same values until the first of them is full.  Only without spare places is the
second full as well.  So a tape or a pool under a larger limit does what it does under a
smaller one, or the smaller limit has been reached.

Main definitions:

- {lit}`BoundedStack.Spares`: a stack beside one with spare places.

Main results:

- Theorems {lit}`BoundedStack.couples_push`, {lit}`Pool.couples_store` and
  {lit}`Tape.couples_plantConstant`: the operations side by side.
-/

namespace TapeCalc

namespace BoundedStack

variable {α : Type}

/-- The stack with more free places. -/
def widened (spare : Nat) (stack : BoundedStack α) : BoundedStack α :=
  { stack with room := stack.room + spare }

@[simp] theorem room_widened (spare : Nat) (stack : BoundedStack α) :
    (stack.widened spare).room = stack.room + spare := rfl

@[simp] theorem overflow_widened (spare : Nat) (stack : BoundedStack α) :
    (stack.widened spare).overflow = stack.overflow := rfl

@[simp] theorem toList_widened (spare : Nat) (stack : BoundedStack α) :
    (stack.widened spare).toList = stack.toList := rfl

/-- A push with a free place leaves the spare places. -/
theorem pushed_widened (spare : Nat) (value : α) {stack : BoundedStack α} (h : stack.room ≠ 0) :
    (stack.widened spare).pushed value = (stack.pushed value).widened spare := by
  have places : stack.room + spare - 1 = stack.room - 1 + spare := by omega
  simp [pushed, widened, places]

/-- An empty stack of a larger capacity is one with spare places. -/
theorem empty_widened {capacity capacity' : Nat} (le : capacity ≤ capacity')
    (overflow : FaultCode) :
    (empty capacity' overflow : BoundedStack α) =
      (empty capacity overflow).widened (capacity' - capacity) := by
  simp only [empty, widened, Nat.add_sub_cancel' le]

/-- A stack that reports a code when it is full, beside the same stack with spare places. -/
structure Spares (spare : Nat) (code : FaultCode) (narrow wide : BoundedStack α) : Prop where
  wide : wide = narrow.widened spare
  overflow : narrow.overflow = code

/-- The fault of a full stack that one with spare places does not report. -/
def Spared (spare : Nat) (code : FaultCode) (fault : Fault) : Prop :=
  0 < spare ∧ fault.code = code

/-- Pushing a value onto both stacks. -/
theorem couples_push {spare : Nat} {code : FaultCode} {narrow wide : BoundedStack α} (value : α)
    (h : Spares spare code narrow wide) :
    Action.Couples (Spares spare code) (Spared spare code) (push value narrow)
      (push value wide) := by
  rw [h.wide, push_eq, push_eq, room_widened, overflow_widened]
  by_cases full : narrow.room = 0
  · rw [if_pos full]
    by_cases none : spare = 0
    · rw [if_pos (by omega)]
      exact .fault
    · exact .cut ⟨Nat.pos_of_ne_zero none, h.overflow⟩
  · rw [if_neg full, if_neg (by omega)]
    exact .ok ⟨pushed_widened spare value full, h.overflow⟩

end BoundedStack

open BoundedStack

variable {spare : Nat} {code : FaultCode}

/-- Storing a value in both pools. -/
theorem Pool.couples_store {narrow wide : Pool} (value : Float)
    (h : Spares spare code narrow wide) :
    Action.Couples (Spares spare code) (Spared spare code) (Pool.store value narrow)
      (Pool.store value wide) := by
  rw [store, Action.get_bind, Action.get_bind, h.wide, toList_widened]
  cases narrow.toList.findIdx? (· == value) with
  | some index => exact .ok ⟨rfl, h.overflow⟩
  | none =>
    refine (couples_push value ⟨rfl, h.overflow⟩).bind ?_
    intro _ mid mid' _ states
    exact .ok states

/-- Planting an instruction on both tapes. -/
theorem Tape.couples_plant {narrow wide : Tape} (opcode : Opcode)
    (h : Spares spare code narrow wide) :
    Action.Couples (Spares spare code) (Spared spare code) (Tape.plant opcode narrow)
      (Tape.plant opcode wide) :=
  couples_push opcode.word h

/-- Planting the instruction that loads a constant on both tapes.  An index that is no word is
refused by both. -/
theorem Tape.couples_plantConstant {narrow wide : Tape} (index : Nat)
    (h : Spares spare code narrow wide) :
    Action.Couples (Spares spare code) (Spared spare code) (Tape.plantConstant index narrow)
      (Tape.plantConstant index wide) := by
  refine (couples_plant .loadConst h).bind ?_
  intro _ mid mid' _ states
  by_cases word : index < UInt16.size
  · rw [if_pos word]
    exact couples_push _ states
  · rw [if_neg word]
    exact .fault

end TapeCalc
