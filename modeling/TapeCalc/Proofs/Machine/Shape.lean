import TapeCalc.Proofs.Machine.Instructions

/-!
# Runs and the shape of a tape

A run keeps in step with the walk that only counts heights, as long as the numbers
let it.  Where the walk stops the run stops with the same fault, unless an operation
has been refused on the way there, and where the walk gets through only an operation
can fail.

The stack of a run never holds more values than words have been passed.  As it has
one place for every word of the tape, a push always finds a free place, and every
fault of the machine itself says what is broken.

Main results:

- Theorem {lit}`Machine.follows_walk`: a run keeps in step with the walk.
- Theorem {lit}`Machine.length_le_of_mem_steps`: the height along a run.
- Theorem {lit}`evaluate_follows_shape`: what the shape of a tape says about its
  evaluation, for all tapes, pools and values of the variables.
-/

namespace TapeCalc

/-- A run has been cut short in front of a position: the operation of its last instruction
has refused the numbers it found. -/
def Run.CutShort (run : Run) (fault : Fault) (position : Nat) : Prop :=
  ∃ step, run.steps.getLast? = some step ∧ step.position < position ∧
    step.numericFault? = some fault

/-- A run has come to what a walk predicts. -/
def Run.Follows (run : Run) : Option ShapeFault → Prop
  | none => ∀ fault, run.outcome = .error fault → fault.kind = .evaluation
  | some stop => ∃ fault, run.outcome = .error fault ∧
      (fault = stop.fault ∨ run.CutShort fault stop.position)

namespace Machine

variable {environment : Environment}

/-! ## One word at a time -/

/-- A word without meaning ends a run. -/
theorem run_undefined {position : Nat} {stack : ValueStack} {word : Word} {rest : List Word}
    (h : Opcode.ofWord? word = none) :
    run environment position stack (word :: rest) = ⟨[], .error Opcode.undefined⟩ := by
  rw [run.eq_def]
  simp only [h]

/-- What is left of a run behind an instruction: nothing if it has failed, and the rest of the tape
if it has not. -/
def resume (environment : Environment) (position : Nat) (rest : List Word) :
    EStateM.Result Fault ValueStack Unit → Run
  | .error fault _ => ⟨[], .error fault⟩
  | .ok () stack => run environment position stack rest

/-- An instruction without operand is performed in front of the rest of the tape. -/
theorem run_plain {position : Nat} {stack : ValueStack} {word : Word} {rest : List Word}
    {opcode : Opcode} (h : Opcode.ofWord? word = some opcode) (plain : opcode ≠ .loadConst) :
    run environment position stack (word :: rest) =
      Run.after ⟨position, opcode, stack.entries⟩
        (resume environment (position + 1) rest (perform environment opcode stack)) := by
  cases opcode with
  | loadConst => exact absurd rfl plain
  | _ =>
    rw [run.eq_def]
    simp only [h]
    rfl

/-- A constant that the pool has is pushed in front of the rest of the tape. -/
theorem run_loadConst {position : Nat} {stack : ValueStack} {word index : Word}
    {rest : List Word} {value : Float} (h : Opcode.ofWord? word = some .loadConst)
    (stored : environment.constants[index.toNat]? = some value) (room : stack.room ≠ 0) :
    run environment position stack (word :: index :: rest) =
      Run.after ⟨position, .loadConst, stack.entries⟩
        (run environment (position + 2) (stack.pushed value) rest) := by
  rw [run.eq_def]
  simp only [h, stored, BoundedStack.push_eq_pushed value room]

/-! ## In step with the walk -/

/-- An instruction in front of a run that has come to what the walk predicts. -/
theorem follows_after {run : Run} {stop? : Option ShapeFault} (step : Step)
    (h : run.Follows stop?) : (Run.after step run).Follows stop? := by
  cases stop? with
  | none => exact h
  | some stop =>
    obtain ⟨fault, failed, same | ⟨last, isLast, before, raised⟩⟩ := h
    · exact ⟨fault, failed, Or.inl same⟩
    · refine ⟨fault, failed, Or.inr ⟨last, ?_, before, raised⟩⟩
      simp [Run.after, List.getLast?_cons, isLast]

/-- An instruction that refuses the numbers cuts every walk short that passes it. -/
theorem follows_of_numericFault? {step : Step} {fault : Fault} {stop? : Option ShapeFault}
    (raised : step.numericFault? = some fault)
    (passed : ∀ stop, stop? = some stop → step.position < stop.position) :
    (Run.after step ⟨[], .error fault⟩).Follows stop? := by
  cases stop? with
  | none =>
    intro other failed
    cases failed
    exact Step.kind_of_numericFault? raised
  | some stop => exact ⟨fault, rfl, Or.inr ⟨step, rfl, passed stop rfl, raised⟩⟩

/-- A walk never stops in front of the place it has reached. -/
theorem le_position_of_walk {poolSize position height : Nat} {words : List Word}
    {stop : ShapeFault} (h : Shape.walk poolSize position height words = some stop) :
    position ≤ stop.position := by
  fun_induction Shape.walk poolSize position height words with
  | case1 | case2 => cases h; exact Nat.le_refl _
  | case3 => cases h
  | case4 | case5 | case7 | case8 => cases h; exact Nat.le_refl _
  | case6 _ _ _ _ _ _ _ ih => exact Nat.le_of_add_right_le (ih h)
  | case9 _ _ _ _ _ _ _ _ _ ih => exact Nat.le_of_succ_le (ih h)

/-- The value at the end of a tape, or the fault the height predicts. -/
theorem follows_result (stack : ValueStack) (poolSize position : Nat) :
    (⟨[], result stack⟩ : Run).Follows (Shape.walk poolSize position stack.size []) := by
  rcases stack with ⟨entries, room, overflow⟩
  match entries with
  | [] => exact ⟨_, rfl, Or.inl rfl⟩
  | [value] =>
    intro fault failed
    cases failed
  | _ :: _ :: rest =>
    rw [Shape.walk, if_neg (by simp [BoundedStack.size]), if_pos (by simp [BoundedStack.size])]
    exact ⟨_, rfl, Or.inl rfl⟩

/-- A run keeps in step with the walk, on a stack with a place for every word that is left. -/
theorem follows_walk {position height : Nat} {stack : ValueStack} {words : List Word}
    (room : words.length ≤ stack.room) (same : stack.size = height) :
    (run environment position stack words).Follows
      (Shape.walk environment.constants.length position height words) := by
  fun_induction Shape.walk environment.constants.length position height words
    generalizing stack with
  -- The first three cases are the end of the tape: no value, too many, and one.
  | case1 =>
    have last := follows_result stack environment.constants.length ‹Nat›
    rwa [same, Shape.walk, if_pos rfl] at last
  | case2 position height empty high =>
    have last := follows_result stack environment.constants.length position
    rwa [same, Shape.walk, if_neg empty, if_pos high] at last
  | case3 position height empty high =>
    have last := follows_result stack environment.constants.length position
    rwa [same, Shape.walk, if_neg empty, if_neg high] at last
  -- A word without meaning, and a constant: without an index, in the pool, and beyond it.
  | case4 position height word rest undefined =>
    rw [run_undefined undefined]
    exact ⟨_, rfl, Or.inl rfl⟩
  | case5 position height word decoded =>
    rw [run.eq_def]
    simp only [decoded]
    exact ⟨_, rfl, Or.inl rfl⟩
  | case6 position height word decoded index rest inRange ih =>
    have place : stack.room ≠ 0 := by
      simp only [List.length_cons] at room
      omega
    rw [run_loadConst decoded (List.getElem?_eq_getElem inRange) place]
    refine follows_after _ (ih ?_ (by rw [BoundedStack.size_pushed, same]))
    simp only [List.length_cons, BoundedStack.room_pushed] at room ⊢
    omega
  | case7 position height word decoded index rest outOfRange =>
    have missing := List.getElem?_eq_none (Nat.le_of_not_lt outOfRange)
    rw [run.eq_def]
    simp only [decoded, missing]
    exact ⟨_, rfl, Or.inl rfl⟩
  -- An instruction without operand: the height forbids it, or the walk goes on.
  | case8 position height word rest opcode plain decoded fault forbidden =>
    obtain ⟨after, failed⟩ :=
      perform_of_heightAfter_error environment (same ▸ forbidden)
    rw [run_plain decoded plain, failed]
    exact follows_after _ ⟨_, rfl, Or.inl rfl⟩
  | case9 position height word rest opcode plain decoded next allowed ih =>
    have place : stack.room ≠ 0 := by
      simp only [List.length_cons] at room
      omega
    rw [run_plain decoded plain]
    rcases perform_of_heightAfter_ok environment position place
      (same ▸ allowed) with ⟨after, performed, size, capacity⟩ | ⟨fault, after, failed, raised⟩
    · rw [performed]
      refine follows_after _ (ih ?_ size)
      have grown := le_succ_of_heightAfter_ok allowed
      simp only [List.length_cons, BoundedStack.capacity] at room capacity
      omega
    · rw [failed]
      refine follows_of_numericFault? raised fun stop stopped => ?_
      exact le_position_of_walk stopped

/-- What the first word of a tape leads to: at most one instruction and a fault, or one
instruction and the rest of the tape on a stack with at most one value more. -/
theorem run_cons (environment : Environment) (position : Nat) {stack : ValueStack}
    (room : stack.room ≠ 0) (word : Word) (rest : List Word) :
    (∃ fault, (run environment position stack (word :: rest)).outcome = .error fault ∧
      ∀ step ∈ (run environment position stack (word :: rest)).steps,
        step.position = position ∧ step.stack = stack.entries) ∨
      ∃ opcode passed left after, word :: rest = passed ++ left ∧ passed ≠ [] ∧
        run environment position stack (word :: rest) =
          Run.after ⟨position, opcode, stack.entries⟩
            (run environment (position + passed.length) after left) ∧
        after.size ≤ stack.size + 1 ∧ after.capacity = stack.capacity := by
  have capacity_pushed (value : Float) : (stack.pushed value).capacity = stack.capacity := by
    simp only [BoundedStack.capacity, BoundedStack.size_pushed, BoundedStack.room_pushed]
    omega
  cases decoded : Opcode.ofWord? word with
  | none =>
    rw [run_undefined decoded]
    exact Or.inl ⟨_, rfl, by simp⟩
  | some opcode =>
    by_cases operand : opcode = .loadConst
    · subst operand
      cases rest with
      | nil =>
        rw [run.eq_def]
        simp only [decoded]
        exact Or.inl ⟨_, rfl, by simp [Run.after]⟩
      | cons index rest =>
        cases stored : environment.constants[index.toNat]? with
        | none =>
          rw [run.eq_def]
          simp only [decoded, stored]
          exact Or.inl ⟨_, rfl, by simp [Run.after]⟩
        | some value =>
          refine Or.inr ⟨_, [word, index], rest, _, rfl, by simp,
            run_loadConst decoded stored room, ?_, capacity_pushed value⟩
          exact Nat.le_refl _
    · cases performed : perform environment opcode stack with
      | error fault after =>
        rw [run_plain decoded operand, performed]
        exact Or.inl ⟨_, rfl, by simp [Run.after, resume]⟩
      | ok _ after =>
        refine Or.inr ⟨opcode, [word], rest, after, rfl, by simp, ?_,
          size_le_of_perform_ok room performed⟩
        rw [run_plain decoded operand, performed]
        rfl

/-- Along a run the stack never holds more values than it held at first and words have been
passed since. -/
theorem length_le_of_mem_steps {position : Nat} {stack : ValueStack} {words : List Word}
    (room : words.length ≤ stack.room) {step : Step}
    (h : step ∈ (run environment position stack words).steps) :
    step.stack.length + position ≤ stack.size + step.position ∧
      step.position < position + words.length := by
  -- An instruction may take one word or two, so the recursion is on the words that are left.
  match words with
  | [] => simp [run] at h
  | word :: rest =>
    have place : stack.room ≠ 0 := by
      simp only [List.length_cons] at room
      omega
    rcases run_cons environment position place word rest with
      ⟨_, _, only⟩ | ⟨opcode, passed, left, after, split, some, same, size, capacity⟩
    · obtain ⟨here, found⟩ := only step h
      rw [here, found]
      exact ⟨Nat.le_refl _, by simp⟩
    · have length : passed.length + left.length = rest.length + 1 := by
        rw [← List.length_append, ← split, List.length_cons]
      have positive : 0 < passed.length := List.length_pos_iff.mpr some
      rw [same] at h
      rcases List.mem_cons.mp h with rfl | later
      · exact ⟨Nat.le_refl _, by simp⟩
      · simp only [List.length_cons, BoundedStack.capacity] at room capacity
        obtain ⟨height, before⟩ := length_le_of_mem_steps (by omega) later
        simp only [List.length_cons]
        constructor <;> omega
termination_by words.length

end Machine

/-! ## Every tape -/

namespace Program

/-- The stack a program is run on has a place for each of its words. -/
theorem room_emptyStack (words : List Word) :
    words.length ≤ (Machine.emptyStack words).room := Nat.le_refl _

/-- An evaluation keeps in step with the shape of the tape. -/
theorem run_follows_fault? (program : Program) (x y : Float) :
    (program.run x y).Follows (Shape.fault? program) :=
  Machine.follows_walk (room_emptyStack _) rfl

end Program

/-- What the height forbids is a fault of the machine, told apart by its detail. -/
theorem Shape.broken_of_heightAfter_error {height : Nat} {opcode : Opcode} {fault : Fault}
    (h : heightAfter height opcode = .error fault) :
    ∃ detail, detail ≠ "" ∧ fault = .broken detail := by
  cases opcode with
  | nop => cases h; exact ⟨_, by simp, rfl⟩
  | binary op =>
    simp only [heightAfter] at h
    split at h
    · cases h; exact ⟨_, by simp, rfl⟩
    · cases h
  | load slot => cases h
  | unary op =>
    simp only [heightAfter] at h
    split at h
    · cases h; exact ⟨_, by simp, rfl⟩
    · cases h
  | pi => cases h
  | loadConst => cases h; exact ⟨_, by simp, rfl⟩

/-- A walk only stops with faults of the machine, told apart by their details. -/
theorem Shape.broken_of_walk {poolSize position height : Nat} {words : List Word}
    {stop : ShapeFault} (h : walk poolSize position height words = some stop) :
    ∃ detail, detail ≠ "" ∧ stop.fault = .broken detail := by
  fun_induction walk poolSize position height words with
  | case1 | case2 => cases h; exact ⟨_, by simp, rfl⟩
  | case3 => cases h
  | case4 | case5 | case7 => cases h; exact ⟨_, by simp, rfl⟩
  | case6 _ _ _ _ _ _ _ ih => exact ih h
  | case8 _ _ _ _ _ _ _ _ forbidden =>
    cases h
    exact broken_of_heightAfter_error forbidden
  | case9 _ _ _ _ _ _ _ _ _ ih => exact ih h

/-- The shape of a tape decides how it can be evaluated.  If the walk over its heights gets
through, an evaluation ends with a value or the fault of an operation.  If the walk stops, an
evaluation fails with the very fault the walk stops with, or with the fault of an operation
whose instruction stands in front of that place.  On the way there is always a free place for
a push, and no fault of the machine comes without a detail. -/
theorem evaluate_follows_shape (program : Program) (x y : Float) :
    (match Shape.fault? program with
      | none => ∀ fault, program.evaluate x y = .error fault → fault.kind = .evaluation
      | some stop => stop.fault.kind = .internal ∧
          ∃ fault, program.evaluate x y = .error fault ∧
            (fault = stop.fault ∨
              fault.kind = .evaluation ∧ (program.run x y).CutShort fault stop.position)) ∧
      (∀ step ∈ (program.run x y).steps, step.stack.length < program.words.length) ∧
      ∀ fault, program.evaluate x y = .error fault → fault.kind = .internal →
        fault.detail ≠ "" := by
  have follows := program.run_follows_fault? x y
  refine ⟨?_, ?_, ?_⟩
  · cases walked : Shape.fault? program with
    | none =>
      rw [walked] at follows
      exact follows
    | some stop =>
      rw [walked] at follows
      obtain ⟨detail, _, broken⟩ := Shape.broken_of_walk walked
      refine ⟨by rw [broken]; rfl, ?_⟩
      obtain ⟨fault, failed, same | short⟩ := follows
      · exact ⟨fault, failed, Or.inl same⟩
      · obtain ⟨step, _, _, raised⟩ := id short
        exact ⟨fault, failed, Or.inr ⟨Step.kind_of_numericFault? raised, short⟩⟩
  · intro step member
    obtain ⟨height, before⟩ := Machine.length_le_of_mem_steps (Program.room_emptyStack _) member
    have empty : (Machine.emptyStack program.words).size = 0 := rfl
    omega
  · intro fault failed internal
    have impossible {other : Fault} (evaluation : other.kind = .evaluation) : fault ≠ other := by
      rintro rfl
      rw [evaluation] at internal
      cases internal
    cases walked : Shape.fault? program with
    | none =>
      rw [walked] at follows
      exact absurd rfl (impossible (follows fault failed))
    | some stop =>
      rw [walked] at follows
      obtain ⟨other, failed', same | ⟨step, _, _, raised⟩⟩ := follows
      · obtain ⟨detail, named, broken⟩ := Shape.broken_of_walk walked
        have one : fault = .broken detail :=
          (Except.error.inj (failed.symm.trans failed')).trans (same.trans broken)
        rw [one]
        exact named
      · exact absurd (Except.error.inj (failed.symm.trans failed'))
          (impossible (Step.kind_of_numericFault? raised))

end TapeCalc
