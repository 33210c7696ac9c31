import TapeCalc.Proofs.Compiler.Faults
import TapeCalc.Proofs.Compiler.Listing
import TapeCalc.Proofs.Machine.Height

/-!
# The stack grows with the nesting

Code in post-order puts the left operand of an operation on the stack and leaves it there while the
right one is computed.  So the stack grows with the operands that wait, and not with the length of
the code.  Operators of a rank group to the left, so in a phrase of one rank at most one operand
waits.  Between two parentheses there are three ranks of operators, and each level of nesting adds
three more.

Main definitions:

- {lit}`Expr.places`: how many places of the stack an expression needs.

Main results:

- Theorem {lit}`Machine.within_code`: the code of an expression needs the places that are counted.
- Theorem {lit}`Derives.places_le`: three places for each level of nesting.
- Theorem {lit}`height_of_compile`: a bound for compiled programs that only depends on the nesting.
-/

namespace TapeCalc

/-! ## The height of code -/

namespace Expr

/-- How many places of the stack an expression needs: the left operand of an operation waits while
the right one is computed. -/
def places : Expr → Nat
  | literal _ => 1
  | load _ => 1
  | pi => 1
  | group inner => inner.places
  | signed _ operand => operand.places
  | call _ argument => argument.places
  | binary _ left right => max left.places (right.places + 1)

/-- Every expression needs a place for its value. -/
theorem places_pos (expr : Expr) : 0 < expr.places := by
  induction expr with
  | literal _ | load _ | pi => exact Nat.one_pos
  | group _ ih | signed _ _ ih | call _ _ ih => exact ih
  | binary _ _ right _ _ => exact Nat.lt_of_lt_of_le (Nat.succ_pos _) (Nat.le_max_right _ _)

end Expr

namespace Machine

variable {environment : Environment} {bound : Nat} {constants : List Float}

/-- Behind an operand, an instruction for a unary operation keeps to the bound of the operand. -/
theorem within_unary_word {op : UnaryOp} {height : Nat} {operand : ValueStack} {rest : List Word}
    (computed : operand.size = height + 1) (room : height < bound)
    (ahead : ∀ after : ValueStack, after.size = height + 1 →
      Within bound (course environment after (ListingEntry.ofWords constants rest))) :
    Within bound (course environment operand
      (ListingEntry.ofWords constants ([(Opcode.unary op).word] ++ rest))) := by
  rw [List.singleton_append, ListingEntry.ofWords_word (by simp)]
  refine within_unary (computed.trans_le room) fun after same => ?_
  exact ahead after (same.trans computed)

/-- While the code of an expression is run the stack is higher by the places of the expression at
most, and behind the code it is higher by one. -/
theorem within_code (environment : Environment) (constants : List Float) (expr : Expr)
    (stack : ValueStack) (rest : List Word) (room : stack.size + expr.places ≤ bound)
    (ahead : ∀ after : ValueStack, after.size = stack.size + 1 →
      Within bound (course environment after (ListingEntry.ofWords constants rest))) :
    Within bound
      (course environment stack (ListingEntry.ofWords constants (expr.code ++ rest))) := by
  -- What stands behind the code differs from operand to operand, and so does the stack below.
  induction expr generalizing stack rest with
  | literal index =>
    rw [Expr.code, List.cons_append, List.cons_append, List.nil_append, ListingEntry.ofWords,
      Opcode.ofWord?_word]
    dsimp only
    cases constants[(UInt16.ofNat index).toNat]? with
    | none =>
      refine within_cons (Nat.le_of_add_right_le room) ?_ ?_
      · intro fault after failed
        cases failed
        exact Nat.le_of_add_right_le room
      · intro after performed
        cases performed
    | some value => exact within_push rfl room ahead
  | load slot =>
    rw [Expr.code, List.singleton_append, ListingEntry.ofWords_word (by simp)]
    exact within_push rfl room ahead
  | pi =>
    rw [Expr.code, List.singleton_append, ListingEntry.ofWords_word (by simp)]
    exact within_push rfl room ahead
  | group inner ih => exact ih stack rest room ahead
  | signed sign operand ih =>
    have place : stack.size < bound := (Nat.lt_add_of_pos_right operand.places_pos).trans_le room
    cases sign with
    | plus => exact ih stack rest room ahead
    | minus =>
      rw [Expr.code, List.append_assoc]
      exact ih stack _ room fun after height => within_unary_word height place ahead
  | call op argument ih =>
    have place : stack.size < bound := (Nat.lt_add_of_pos_right argument.places_pos).trans_le room
    rw [Expr.code, List.append_assoc]
    exact ih stack _ room fun after height => within_unary_word height place ahead
  | binary op left right ihLeft ihRight =>
    have place := right.places_pos
    rw [Expr.places] at room
    rw [Expr.code, List.append_assoc, List.append_assoc]
    refine ihLeft stack _ (by omega) fun lower first => ?_
    refine ihRight lower _ (by omega) fun upper second => ?_
    rw [List.singleton_append, ListingEntry.ofWords_word (by simp)]
    exact within_binary (by omega) fun after third => ahead after (by omega)

end Machine

/-! ## The height and the grammar -/

/-- The places that a phrase of a rank needs where nothing is nested: one for its value, and one
for each rank of operators that may wait for an operand. -/
def Rank.places : Rank → Nat
  | expression => 4
  | term => 3
  | power => 2
  | factor => 1

/-- A phrase needs three places for each level of nesting inside, and those of its rank. -/
theorem Derives.places_le {rank : Rank} {tokens : List Token} {expr : Expr}
    (derives : Derives rank tokens expr) : expr.places ≤ 3 * expr.depth + rank.places := by
  induction derives with
  | @single rank _ _ proper _ ih =>
    have tighter : rank.tighter.places ≤ rank.places := by cases rank <;> decide
    exact Nat.le_trans ih (Nat.add_le_add_left tighter _)
  | @more rank _ _ _ _ _ _ _ isOperator _ ihLeft ihRight =>
    have tighter : rank.tighter.places + 1 ≤ rank.places := by
      cases rank with
      | factor => cases isOperator
      | _ => decide
    simp only [Expr.places, Expr.depth]
    omega
  | literal _ | load _ | pi => exact Nat.le_refl _
  | group _ ih | call _ _ ih =>
    simp only [Expr.places, Expr.depth, Rank.places] at ih ⊢
    omega
  | signed _ _ ih =>
    simp only [Expr.places, Expr.depth, Rank.places] at ih ⊢
    omega

/-! ## Compiled programs -/

/-- In the course of evaluating a program that is the code of an expression the stack holds at most
the places of the expression. -/
theorem Program.within_of_code {program : Program} {expr : Expr} (x y : Float)
    (code : program.words = expr.code) : Machine.Within expr.places (program.course x y) := by
  have within := Machine.within_code ⟨x, y, program.constants⟩ program.constants expr
    (Machine.emptyStack program.words) [] (Nat.zero_add _).le
    fun after height => List.forall_mem_singleton.mpr (height.trans_le expr.places_pos)
  rwa [List.append_nil, ← code] at within

/-- A run starts its instructions on the first stacks of its course. -/
theorem Program.prefix_course (program : Program) (x y : Float) :
    (program.run x y).steps.map Step.stack <+:
      (program.course x y).map BoundedStack.entries := by
  have started := Machine.prefix_course ⟨x, y, program.constants⟩
    (Machine.emptyStack program.words) (ListingEntry.placed 0 program.entries)
  rw [ListingEntry.map_entry_placed] at started
  rw [Program.run, Machine.run_eq_runEntries]
  exact started

/-- A program that evaluates to a value ends with it alone on the stack. -/
theorem Program.getLast?_course_of_ok {program : Program} {x y value : Float}
    (evaluated : program.evaluate x y = .ok value) :
    ∃ last, (program.course x y).getLast? = some last ∧ last.entries = [value] := by
  rw [Program.evaluate, Program.run, Machine.run_eq_runEntries] at evaluated
  have last := Machine.getLast?_course_of_ok evaluated
  rw [ListingEntry.map_entry_placed] at last
  exact Option.map_eq_some_iff.mp last

/-- The stack of a compiled program grows with the nesting that the limits allow, and not with the
length of the text.  At no moment of an evaluation it holds more than three values for each level,
the outermost included, and one.  The instructions are started on the first of the stacks that are
counted.  Unless the evaluation is cut short by a fault of its numbers, the last stack holds exactly
one value, which is the value of the program. -/
theorem height_of_compile {text xName yName : String} {limits : Limits} {program : Program}
    (compiled : compile text xName yName limits = .ok program) (x y : Float) :
    (∀ stack ∈ program.course x y, stack.size ≤ 3 * (limits.maxDepth + 1) + 1) ∧
      (program.run x y).steps.map Step.stack <+:
        (program.course x y).map BoundedStack.entries ∧
      ((∃ fault, program.evaluate x y = .error fault ∧ fault.kind = .evaluation) ∨
        ∃ value last, program.evaluate x y = .ok value ∧
          (program.course x y).getLast? = some last ∧ last.entries = [value]) := by
  obtain ⟨symbols, lexemes, h⟩ := exists_compiled compiled
  obtain ⟨expr, derives, fits⟩ := h.fits
  refine ⟨fun stack member => ?_, program.prefix_course x y, ?_⟩
  · calc
      stack.size ≤ expr.places := Program.within_of_code x y (h.code expr derives) stack member
      _ ≤ 3 * expr.depth + 4 := derives.places_le
      _ ≤ 3 * limits.maxDepth + 4 :=
        Nat.add_le_add_right (Nat.mul_le_mul_left 3 fits.depth) 4
      _ = 3 * (limits.maxDepth + 1) + 1 := by omega
  · cases evaluated : program.evaluate x y with
    | error fault => exact .inl ⟨fault, rfl, h.kind_of_evaluate_error evaluated⟩
    | ok value =>
      obtain ⟨last, found, alone⟩ := Program.getLast?_course_of_ok evaluated
      exact .inr ⟨value, last, rfl, found, alone⟩

/-- Where nothing may be nested, the text {lit}`x+x*x^x` has an operand waiting for each rank: its
program reaches the height of four, and no program goes beyond it. -/
theorem height_of_three_ranks :
    ∃ program, compile "x+x*x^x" "x" "" ⟨7, 0, 0⟩ = .ok program ∧
      ∀ x y, (∃ stack ∈ program.course x y, stack.size = 4) ∧
        ∀ stack ∈ program.course x y, stack.size ≤ 3 * (0 + 1) + 1 := by
  have planted : (compile "x+x*x^x" "x" "" ⟨7, 0, 0⟩).map Program.words =
      .ok ([.load .x, .load .x, .load .x, .load .x, .binary .pow, .binary .mul,
        .binary .add].map Opcode.word) := by decide +kernel
  cases compiled : compile "x+x*x^x" "x" "" ⟨7, 0, 0⟩ with
  | error fault =>
    rw [compiled] at planted
    cases planted
  | ok program =>
    rw [compiled] at planted
    have words := Except.ok.inj planted
    refine ⟨program, rfl, fun x y => ⟨?_, (height_of_compile compiled x y).1⟩⟩
    rw [Program.course, Program.entries, words]
    exact ⟨⟨[x, x, x, x], 3, .internalError⟩,
      .tail _ (.tail _ (.tail _ (.tail _ (Machine.mem_course _ _ _)))), rfl⟩

end TapeCalc
