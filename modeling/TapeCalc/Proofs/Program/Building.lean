import TapeCalc.Machine.Basic
import TapeCalc.Proofs.Program.Pool
import TapeCalc.Proofs.Program.Tape

/-!
# Building programs

A program is built by calls that may come in any order, and a call that fails does not end the
building.  Whatever has been called, tape and pool stay within their limits, no two places of the
pool hold equal values, and nothing that has been put somewhere is ever moved or changed.

A failing call leaves the program as it was, with one exception.  The instruction that loads a
constant is planted before its index, so it stays behind where it has found a place and its index
has not.

Main definitions:

- {lit}`Program.Call`: the calls, and {lit}`Program.afterCalls`: what a sequence of them leaves.
- {lit}`Program.Extends`: words and constants have been added at the ends only.
- {lit}`Program.WithinLimits`: the invariant of a program that is being built.

Main results:

- Theorem {lit}`Program.extends_perform` and {lit}`Program.WithinLimits.perform`: one call.
- Theorem {lit}`Program.extends_afterCalls` and {lit}`Program.withinLimits_afterCalls`: all calls.
- Theorem {lit}`Program.perform_error`: what a failing call leaves.
- Theorem {lit}`Program.building_keeps_program`: all of it, for every sequence of calls.
-/

namespace TapeCalc

namespace Program

/-! ## Calls -/

/-- A call on a program that is being built. -/
inductive Call where
  | plant (opcode : Opcode)
  | plantConstant (index : Nat)
  | storeConstant (value : Float)
  | evaluate (x y : Float)

/-- What a call that succeeds answers. -/
inductive Answer where
  | planted
  | stored (index : Nat)
  | value (result : Float)

/-- Make a call. -/
def perform : Call → Action Program Answer
  | .plant opcode => do
    plant opcode
    return .planted
  | .plantConstant index => do
    plantConstant index
    return .planted
  | .storeConstant value => return .stored (← storeConstant value)
  | .evaluate x y => do
    let program ← get
    return .value (← Action.ofExcept (program.evaluate x y))

/-- The program that calls leave behind, one after the other. -/
def afterCalls (program : Program) (calls : List Call) : Program :=
  calls.foldl (fun program call => Action.reached (perform call program)) program

/-! ## Single calls -/

/-- Planting changes the tape only. -/
theorem planted_eq (step : Action Tape Unit) (program : Program) :
    (do onTape step; return .planted : Action Program Answer) program =
      match step program.tape with
      | .ok () tape => .ok .planted { program with tape }
      | .error fault tape => .error fault { program with tape } := by
  simp only [onTape, Action.onPart, bind, EStateM.bind, pure, EStateM.pure]
  cases step program.tape <;> rfl

/-- Storing a constant changes the pool only. -/
theorem storeConstant_eq (value : Float) (program : Program) :
    storeConstant value program =
      match Pool.store value program.pool with
      | .ok index pool => .ok index { program with pool }
      | .error fault pool => .error fault { program with pool } := by
  simp only [storeConstant, onPool, Action.onPart]
  cases Pool.store value program.pool <;> rfl

/-- Storing a constant answers its index. -/
theorem perform_storeConstant (value : Float) (program : Program) :
    perform (.storeConstant value) program =
      match storeConstant value program with
      | .ok index after => .ok (.stored index) after
      | .error fault after => .error fault after := by
  simp only [perform, bind, EStateM.bind, pure, EStateM.pure]
  cases storeConstant value program <;> rfl

/-! ## What calls leave -/

/-- What planting leaves is the tape that has been reached. -/
theorem reached_planted (step : Action Tape Unit) (program : Program) :
    Action.reached ((do onTape step; return .planted : Action Program Answer) program) =
      { program with tape := Action.reached (step program.tape) } := by
  rw [planted_eq]
  cases step program.tape <;> rfl

/-- What planting an instruction leaves. -/
theorem reached_plant (opcode : Opcode) (program : Program) :
    Action.reached (perform (.plant opcode) program) =
      { program with tape := Action.reached (Tape.plant opcode program.tape) } :=
  reached_planted (Tape.plant opcode) program

/-- What planting a constant leaves. -/
theorem reached_plantConstant (index : Nat) (program : Program) :
    Action.reached (perform (.plantConstant index) program) =
      { program with tape := Action.reached (Tape.plantConstant index program.tape) } :=
  reached_planted (Tape.plantConstant index) program

/-- What storing a constant leaves is the pool that has been reached. -/
theorem reached_storeConstant (value : Float) (program : Program) :
    Action.reached (perform (.storeConstant value) program) =
      { program with pool := Action.reached (Pool.store value program.pool) } := by
  rw [perform_storeConstant, storeConstant_eq]
  cases Pool.store value program.pool <;> rfl

/-- Evaluating leaves everything as it was. -/
theorem reached_evaluate (x y : Float) (program : Program) :
    Action.reached (perform (.evaluate x y) program) = program := by
  rw [perform, Action.get_bind]
  cases program.evaluate x y <;> rfl

/-! ## What calls keep -/

/-- Words and constants have been added at the ends, and nothing else has happened to the
program. -/
structure Extends (before after : Program) : Prop where
  tape : before.tape.Grows after.tape
  pool : before.pool.Grows after.pool

/-- A program that stays as it is. -/
theorem Extends.refl (program : Program) : program.Extends program := ⟨.refl _, .refl _⟩

/-- Adding twice. -/
theorem Extends.trans {before mid after : Program} (first : before.Extends mid)
    (second : mid.Extends after) : before.Extends after :=
  ⟨first.tape.trans second.tape, first.pool.trans second.pool⟩

/-- A call only adds to the program, also where it fails. -/
theorem extends_perform (call : Call) (program : Program) :
    program.Extends (Action.reached (perform call program)) := by
  cases call with
  | plant opcode =>
    rw [reached_plant]
    exact ⟨Tape.grows_plant opcode program.tape, .refl _⟩
  | plantConstant index =>
    rw [reached_plantConstant]
    exact ⟨Tape.grows_plantConstant index program.tape, .refl _⟩
  | storeConstant value =>
    rw [reached_storeConstant]
    exact ⟨.refl _, Pool.grows_store value program.pool⟩
  | evaluate x y =>
    rw [reached_evaluate]
    exact .refl program

/-- Calls only add to the program. -/
theorem extends_afterCalls (program : Program) (calls : List Call) :
    program.Extends (program.afterCalls calls) := by
  induction calls generalizing program with
  | nil => exact .refl program
  | cons call calls ih => exact (extends_perform call program).trans (ih _)

/-- The invariant of a program that is being built: the limits are those of its tape and its pool,
and no two places of the pool hold equal values. -/
structure WithinLimits (limits : Limits) (program : Program) : Prop where
  tape : program.tape.capacity = limits.maxCodeLen
  pool : program.pool.capacity = limits.maxConstants
  apart : program.pool.Apart

/-- The empty program is within its limits. -/
theorem withinLimits_empty (limits : Limits) : WithinLimits limits (empty limits) :=
  ⟨Nat.zero_add _, Nat.zero_add _, .nil⟩

/-- A call does not leave two places of the pool with equal values. -/
theorem apart_perform {program : Program} (call : Call) (h : program.pool.Apart) :
    (Action.reached (perform call program)).pool.Apart := by
  cases call with
  | plant opcode =>
    rw [reached_plant]
    exact h
  | plantConstant index =>
    rw [reached_plantConstant]
    exact h
  | storeConstant value =>
    rw [reached_storeConstant]
    exact h.store value
  | evaluate x y =>
    rw [reached_evaluate]
    exact h

/-- A call stays within the limits. -/
theorem WithinLimits.perform {limits : Limits} {program : Program} (call : Call)
    (h : WithinLimits limits program) :
    WithinLimits limits (Action.reached (perform call program)) := by
  have grown := extends_perform call program
  exact ⟨grown.tape.capacity.trans h.tape, grown.pool.capacity.trans h.pool,
    apart_perform call h.apart⟩

/-- Calls stay within the limits. -/
theorem withinLimits_afterCalls {limits : Limits} {program : Program} (calls : List Call)
    (h : WithinLimits limits program) : WithinLimits limits (program.afterCalls calls) := by
  induction calls generalizing program with
  | nil => exact h
  | cons call calls ih => exact ih (h.perform call)

/-! ## Calls that fail -/

/-- A failing call leaves the program as it was, unless it plants a constant. -/
theorem perform_error {call : Call} {program after : Program} {fault : Fault}
    (other : ∀ index, call ≠ .plantConstant index)
    (h : perform call program = .error fault after) : after = program := by
  cases call with
  | plant opcode =>
    rw [perform, plant, planted_eq] at h
    split at h
    · cases h
    · rename_i fault tape failed
      cases h
      rw [Tape.plant, BoundedStack.push_full _ (Tape.plant_error failed).1] at failed
      cases failed
      rfl
  | plantConstant index => exact absurd rfl (other index)
  | storeConstant value =>
    rw [perform_storeConstant, storeConstant_eq] at h
    cases stored : Pool.store value program.pool with
    | ok index pool =>
      rw [stored] at h
      cases h
    | error fault pool =>
      rw [stored] at h
      cases h
      rw [Pool.eq_of_store_error stored]
  | evaluate x y =>
    have left := reached_evaluate x y program
    rwa [h] at left

/-- Where planting a constant fails, the instruction that loads it stays behind, if it has found a
place. -/
theorem perform_plantConstant_error {index : Nat} {program after : Program} {fault : Fault}
    (h : perform (.plantConstant index) program = .error fault after) :
    after = { program with
      tape := if program.tape.room = 0 then program.tape
        else program.tape.pushed Opcode.loadConst.word } := by
  rw [perform, plantConstant, planted_eq] at h
  split at h
  · cases h
  · rename_i fault tape failed
    cases h
    rw [Tape.reached_of_plantConstant_error failed]

/-- The words that such a failure leaves: one more if there has been a place for it. -/
theorem words_of_plantConstant_error {limits : Limits} {index : Nat} {program after : Program}
    {fault : Fault} (within : WithinLimits limits program)
    (h : perform (.plantConstant index) program = .error fault after) :
    after.words = program.words ++
      if program.words.length < limits.maxCodeLen then [Opcode.loadConst.word] else [] := by
  have room : program.tape.room = 0 ↔ ¬ program.words.length < limits.maxCodeLen := by
    rw [words, BoundedStack.length_toList, ← within.tape, BoundedStack.capacity]
    omega
  rw [perform_plantConstant_error h, words]
  by_cases full : program.tape.room = 0
  · rw [if_pos full, if_neg (room.mp full), List.append_nil, words]
  · rw [if_neg full, if_pos (not_not.mp (mt room.mpr full)), BoundedStack.toList_pushed, words]

/-! ## Every sequence of calls -/

/-- No two places of the pool hold values that compare equal. -/
theorem WithinLimits.index_unique {limits : Limits} {program : Program}
    (h : WithinLimits limits program) {i j : Nat} {value other : Float}
    (first : program.constants[i]? = some value) (second : program.constants[j]? = some other)
    (equal : (value == other) = true) : i = j := by
  obtain ⟨inside, rfl⟩ := List.getElem?_eq_some_iff.mp first
  obtain ⟨inside', rfl⟩ := List.getElem?_eq_some_iff.mp second
  have apart : ∀ (i j : Nat) (inside : i < program.constants.length)
      (inside' : j < program.constants.length), i < j →
        (program.constants[i] == program.constants[j]) = false :=
    List.pairwise_iff_getElem.mp h.apart
  rcases Nat.lt_trichotomy i j with before | same | behind
  · rw [apart i j inside inside' before] at equal
    cases equal
  · exact same
  · rw [beq_double_comm, apart j i inside' inside behind] at equal
    cases equal

/-- A value that has been stored stays at its index, whatever is called later. -/
theorem constants_afterCalls {program after : Program} {value : Float} {index : Nat}
    (h : storeConstant value program = .ok index after) :
    ∃ stored, ((stored == value) = true ∨ value = .nan ∧ stored = value) ∧
      ∀ later, (after.afterCalls later).constants[index]? = some stored := by
  rw [storeConstant_eq] at h
  split at h
  · rename_i place pool kept
    cases h
    obtain ⟨stored, found, same⟩ := (Pool.interns_of_store kept).exists_getElem?
    refine ⟨stored, same, fun later => ?_⟩
    obtain ⟨more, grown⟩ := (extends_afterCalls { program with pool } later).pool.isPrefix
    rw [constants, ← grown, List.getElem?_append_left (List.getElem?_eq_some_iff.mp found).1]
    exact found
  · cases h

/-- A value equal to a stored one is stored again without changing the program, also where the pool
is full. -/
theorem storeConstant_of_mem {program : Program} {value stored : Float}
    (member : stored ∈ program.constants) (same : (stored == value) = true) :
    ∃ index, storeConstant value program = .ok index program := by
  obtain ⟨index, kept⟩ := Pool.exists_store_of_mem member same
  exact ⟨index, by rw [storeConstant_eq, kept]⟩

/-- Whatever is called on a program that is being built, failing calls included: tape and pool stay
within their limits; no two places of the pool hold equal values; words and constants are only ever
added at the ends, so a value that has been stored keeps its index; a value equal to a stored one
can always be stored; evaluating changes nothing; and a failing call changes nothing either, but for
the instruction of a constant that has found a place when its index has not. -/
theorem building_keeps_program (limits : Limits) (calls : List Call) :
    let program := (empty limits).afterCalls calls
    (program.words.length ≤ limits.maxCodeLen ∧
      program.constants.length ≤ limits.maxConstants) ∧
    (∀ (i j : Nat) (value other : Float), program.constants[i]? = some value →
      program.constants[j]? = some other → (value == other) = true → i = j) ∧
    (∀ later, program.words <+: (program.afterCalls later).words ∧
      program.constants <+: (program.afterCalls later).constants) ∧
    (∀ value index after, storeConstant value program = .ok index after →
      ∃ stored, ((stored == value) = true ∨ value = .nan ∧ stored = value) ∧
        ∀ later, (after.afterCalls later).constants[index]? = some stored) ∧
    (∀ value stored, stored ∈ program.constants → (stored == value) = true →
      ∃ index, storeConstant value program = .ok index program) ∧
    (∀ x y, Action.reached (perform (.evaluate x y) program) = program) ∧
    ∀ call fault after, perform call program = .error fault after →
      ((∀ index, call ≠ .plantConstant index) → after = program) ∧
      ∀ index, call = .plantConstant index →
        after.constants = program.constants ∧
        after.words = program.words ++
          if program.words.length < limits.maxCodeLen then [Opcode.loadConst.word] else [] := by
  intro program
  have within : WithinLimits limits program :=
    withinLimits_afterCalls calls (withinLimits_empty limits)
  refine ⟨⟨?_, ?_⟩, ?_, ?_, ?_, ?_, ?_, ?_⟩
  · exact within.tape ▸ program.tape.length_toList_le
  · exact within.pool ▸ program.pool.length_toList_le
  · intro i j value other
    exact within.index_unique
  · intro later
    have grown := extends_afterCalls program later
    exact ⟨grown.tape.isPrefix, grown.pool.isPrefix⟩
  · intro value index after
    exact constants_afterCalls
  · intro value stored
    exact storeConstant_of_mem
  · intro x y
    exact reached_evaluate x y program
  · intro call fault after failed
    refine ⟨fun other => perform_error other failed, ?_⟩
    rintro index rfl
    refine ⟨?_, words_of_plantConstant_error within failed⟩
    rw [perform_plantConstant_error failed]
    rfl

/-- A pool for one value takes both zeros, and the instruction of a constant stays behind at the end
of a tape for one word. -/
example :
    let program := (empty ⟨1, 1, 0⟩).afterCalls
      [.storeConstant 0, .storeConstant (-0), .storeConstant 1, .plantConstant 0, .plant .pi]
    program.words = [Opcode.loadConst.word] ∧ program.constants = [0] := by
  decide +kernel

end Program

end TapeCalc
