import TapeCalc.Proofs.Machine.Listing

/-!
# The height of the stack in the course of a run

The instructions that a run starts show the stacks they are started on.  The course of a run has the
other stacks as well: the one that is left at the end of the tape, and the one that a failing
instruction leaves.  An instruction without operands makes the stack higher by one, a unary operation
leaves its height, and a binary operation makes it lower by one.  So how high the stack gets depends
on the order of the instructions, and not on the values.

Main definitions:

- {lit}`Machine.course`: the stacks in the course of a run.
- {lit}`Machine.Within`: stacks that keep to a bound.

Main results:

- Theorem {lit}`Machine.prefix_course`: the stacks that instructions are started on.
- Theorem {lit}`Machine.getLast?_course_of_ok`: a run that leads to a value ends with it alone.
- Theorems {lit}`Machine.within_push`, {lit}`Machine.within_unary` and {lit}`Machine.within_binary`:
  what one instruction needs.
-/

namespace TapeCalc

/-! ## The stacks of a run -/

namespace Machine

variable {environment : Environment}

/-- The stacks in the course of executing entries: the one that each entry finds, and the one that
the last executed entry leaves, also when it fails.  An instruction takes its operands off the stack
before it puts its result on, so the stack is never higher in between. -/
def course (environment : Environment) (stack : ValueStack) : List ListingEntry → List ValueStack
  | [] => [stack]
  | entry :: rest =>
    match entry.perform environment stack with
    | .error _ after => [stack, after]
    | .ok () after => stack :: course environment after rest

/-- The course of a run begins with the stack it is started on. -/
theorem mem_course (environment : Environment) (stack : ValueStack)
    (entries : List ListingEntry) : stack ∈ course environment stack entries := by
  cases entries with
  | nil => exact List.mem_singleton_self stack
  | cons entry rest =>
    rw [course]
    split <;> exact List.mem_cons_self

/-- The stacks that the instructions of a run are started on are the first stacks of the run. -/
theorem prefix_course (environment : Environment) (stack : ValueStack)
    (entries : List PlacedEntry) :
    (runEntries environment stack entries).steps.map Step.stack <+:
      (course environment stack (entries.map PlacedEntry.entry)).map BoundedStack.entries := by
  induction entries generalizing stack with
  | nil => exact List.nil_prefix
  | cons placed rest ih =>
    rw [runEntries, List.map_cons, course]
    cases performed : placed.entry.perform environment stack with
    | error fault after =>
      rw [PlacedEntry.started]
      cases placed.entry.opcode? with
      | none => exact List.nil_prefix
      | some opcode => exact List.prefix_append _ [after.entries]
    | ok _ after =>
      obtain ⟨opcode, shown⟩ := ListingEntry.exists_opcode_of_perform_ok performed
      rw [PlacedEntry.started, shown]
      exact List.cons_prefix_cons.mpr ⟨rfl, ih after⟩

/-- A run that leads to a value ends with this value alone on the stack. -/
theorem getLast?_course_of_ok {stack : ValueStack} {entries : List PlacedEntry} {value : Float}
    (finished : (runEntries environment stack entries).outcome = .ok value) :
    ((course environment stack (entries.map PlacedEntry.entry)).getLast?).map
      BoundedStack.entries = some [value] := by
  induction entries generalizing stack with
  | nil => exact congrArg some (entries_of_result_ok finished)
  | cons placed rest ih =>
    rw [runEntries] at finished
    rw [List.map_cons, course]
    cases performed : placed.entry.perform environment stack with
    | error fault after =>
      rw [performed] at finished
      cases finished
    | ok _ after =>
      rw [performed] at finished
      have last := ih finished
      dsimp only
      rw [List.getLast?_cons]
      cases behind : (course environment after (rest.map PlacedEntry.entry)).getLast? with
      | none =>
        rw [behind] at last
        cases last
      | some stack =>
        rw [behind] at last
        exact last

end Machine

/-- The stacks in the course of evaluating a program, from the empty one on. -/
def Program.course (program : Program) (x y : Float) : List ValueStack :=
  Machine.course ⟨x, y, program.constants⟩ (Machine.emptyStack program.words) program.entries

/-! ## The height of single instructions -/

namespace BoundedStack

variable {α : Type}

/-- Replacing the value on top leaves the height, also when it fails. -/
theorem size_replaceTop (change : α → Except Fault α) (stack : BoundedStack α) :
    (Action.reached (replaceTop change stack)).size = stack.size := by
  rcases stack with ⟨values, room, overflow⟩
  match values with
  | [] => rfl
  | value :: rest =>
    simp only [replaceTop]
    cases change value <;> rfl

end BoundedStack

namespace Machine

variable {environment : Environment}

/-- A binary operation that succeeds makes the stack lower by one, and one that fails does not make
it higher. -/
theorem size_binary (op : BinaryOp) (stack : ValueStack) :
    match binary op stack with
    | .ok () after => after.size + 1 = stack.size
    | .error _ after => after.size ≤ stack.size := by
  rcases stack with ⟨values, room, overflow⟩
  match values with
  | [] => exact Nat.le_refl _
  | [_] => exact Nat.zero_le _
  | rhs :: lhs :: rest =>
    rw [binary_of_two]
    cases op.apply lhs rhs with
    | ok value => rfl
    | error fault => exact Nat.le_add_right _ 2

/-! ## The height of code -/

/-- No stack holds more values than a bound allows. -/
def Within (bound : Nat) (course : List ValueStack) : Prop := ∀ stack ∈ course, stack.size ≤ bound

section Code

variable {bound : Nat} {stack : ValueStack} {entry : ListingEntry} {rest : List ListingEntry}

/-- The stack that is there first keeps to the bound, and so do the stacks behind the next entry. -/
theorem within_cons (here : stack.size ≤ bound)
    (failed : ∀ fault after, entry.perform environment stack = .error fault after →
      after.size ≤ bound)
    (ahead : ∀ after, entry.perform environment stack = .ok () after →
      Within bound (course environment after rest)) :
    Within bound (course environment stack (entry :: rest)) := by
  rw [course]
  cases performed : entry.perform environment stack with
  | error fault after =>
    exact List.forall_mem_cons.mpr
      ⟨here, List.forall_mem_singleton.mpr (failed fault after performed)⟩
  | ok _ after => exact List.forall_mem_cons.mpr ⟨here, ahead after performed⟩

/-- An entry that pushes a value needs one place. -/
theorem within_push {value : Float}
    (pushes : entry.perform environment stack = BoundedStack.push value stack)
    (room : stack.size + 1 ≤ bound)
    (ahead : ∀ after : ValueStack, after.size = stack.size + 1 →
      Within bound (course environment after rest)) :
    Within bound (course environment stack (entry :: rest)) := by
  refine within_cons (Nat.le_of_succ_le room) ?_ ?_
  · intro fault after failed
    rw [pushes] at failed
    obtain ⟨_, _, rfl⟩ := BoundedStack.push_error failed
    exact Nat.le_of_succ_le room
  · intro after performed
    rw [pushes] at performed
    obtain ⟨_, rfl⟩ := BoundedStack.push_ok performed
    exact ahead _ (BoundedStack.size_pushed value stack)

/-- A unary operation needs no place of its own. -/
theorem within_unary {op : UnaryOp} (here : stack.size ≤ bound)
    (ahead : ∀ after : ValueStack, after.size = stack.size →
      Within bound (course environment after rest)) :
    Within bound (course environment stack (.instruction (.unary op) :: rest)) := by
  have height := BoundedStack.size_replaceTop op.apply stack
  refine within_cons here ?_ ?_
  · intro fault after failed
    rw [ListingEntry.perform, perform] at failed
    rw [failed] at height
    exact height.trans_le here
  · intro after performed
    rw [ListingEntry.perform, perform] at performed
    rw [performed] at height
    exact ahead after height

/-- A binary operation gives a place back. -/
theorem within_binary {op : BinaryOp} (here : stack.size ≤ bound)
    (ahead : ∀ after : ValueStack, after.size + 1 = stack.size →
      Within bound (course environment after rest)) :
    Within bound (course environment stack (.instruction (.binary op) :: rest)) := by
  have height := size_binary op stack
  refine within_cons here ?_ ?_
  · intro fault after failed
    rw [ListingEntry.perform, perform] at failed
    rw [failed] at height
    exact Nat.le_trans height here
  · intro after performed
    rw [ListingEntry.perform, perform] at performed
    rw [performed] at height
    exact ahead after height

end Code

end Machine

end TapeCalc
