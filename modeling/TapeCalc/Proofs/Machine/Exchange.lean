import TapeCalc.Proofs.Machine.Shape

/-!
# Exchanging the variables of a tape

On a tape the instructions that load the two variables can be exchanged.  Only instructions are
looked at: the index behind an instruction that loads a constant stays, also when it is the word
that one of the variables is loaded by.  A tape with its variables exchanged runs like the tape
when the values of the variables are exchanged as well.

Main definitions:

- {lit}`exchangedWords`: the words of a tape with its variables exchanged.

Main results:

- Theorem {lit}`Machine.run_exchanged`: a run of a tape with its variables exchanged.
- Theorem {lit}`Program.evaluate_exchanged`: its value, or its fault.
-/

namespace TapeCalc

/-! ## Exchanging instructions -/

/-- The other variable. -/
def Slot.other : Slot → Slot
  | .x => .y
  | .y => .x

/-- The instruction with the variables exchanged. -/
def Opcode.exchanged : Opcode → Opcode
  | .load slot => .load slot.other
  | opcode => opcode

/-- The words of a tape with the variables exchanged wherever one is loaded.  The word behind an
instruction that loads a constant is no instruction, and it stays. -/
def exchangedWords : List Word → List Word
  | [] => []
  | word :: rest =>
    match Opcode.ofWord? word with
    | none => word :: exchangedWords rest
    | some .loadConst =>
      match rest with
      | [] => [word]
      | index :: rest => word :: index :: exchangedWords rest
    | some opcode => opcode.exchanged.word :: exchangedWords rest

@[simp] theorem Slot.other_other (slot : Slot) : slot.other.other = slot := by
  cases slot <;> rfl

/-- Exchanging the variables leaves only one instruction that loads a constant. -/
theorem Opcode.exchanged_ne_loadConst {opcode : Opcode} (plain : opcode ≠ .loadConst) :
    opcode.exchanged ≠ .loadConst := by
  cases opcode with
  | loadConst => exact absurd rfl plain
  | _ => exact Opcode.noConfusion

/-- An instruction without operand in front of other words. -/
theorem exchangedWords_word {opcode : Opcode} (plain : opcode ≠ .loadConst) (rest : List Word) :
    exchangedWords (opcode.word :: rest) = opcode.exchanged.word :: exchangedWords rest := by
  cases opcode with
  | loadConst => exact absurd rfl plain
  | _ =>
    rw [exchangedWords.eq_def]
    simp only [Opcode.ofWord?_word]

/-- An instruction that loads a constant in front of other words. -/
theorem exchangedWords_loadConst (index : Word) (rest : List Word) :
    exchangedWords (Opcode.loadConst.word :: index :: rest) =
      Opcode.loadConst.word :: index :: exchangedWords rest := by
  rw [exchangedWords.eq_def]
  simp only [Opcode.ofWord?_word]

/-- The index 7 stays, and of the two variables behind it each is loaded in place of the other. -/
example : exchangedWords [21, 7, 7, 6, 1] = [21, 7, 6, 7, 1] := by decide

/-- Exchanging variables leaves the number of words. -/
@[simp] theorem length_exchangedWords (words : List Word) :
    (exchangedWords words).length = words.length := by
  fun_induction exchangedWords words <;> simp_all

/-! ## Running with exchanged variables -/

/-- The values of the variables exchanged. -/
def Environment.exchanged (environment : Environment) : Environment :=
  { environment with x := environment.y, y := environment.x }

@[simp] theorem Environment.value_exchanged (environment : Environment) (slot : Slot) :
    environment.exchanged.value slot.other = environment.value slot := by
  cases slot <;> rfl

/-- The run with the variables exchanged in the instructions that were started. -/
def Run.exchanged (run : Run) : Run :=
  { run with steps := run.steps.map fun step => { step with opcode := step.opcode.exchanged } }

namespace Machine

variable {environment : Environment}

/-- With the values of the variables exchanged an instruction does what it did. -/
theorem perform_exchanged (environment : Environment) (opcode : Opcode) :
    perform environment.exchanged opcode.exchanged = perform environment opcode := by
  cases opcode with
  | load slot => simp only [Opcode.exchanged, perform, Environment.value_exchanged]
  | _ => rfl

/-- A run of a tape with its variables exchanged, with their values exchanged as well. -/
theorem run_exchanged (environment : Environment) (position : Nat) (stack : ValueStack)
    (words : List Word) :
    run environment.exchanged position stack (exchangedWords words) =
      (run environment position stack words).exchanged := by
  fun_induction exchangedWords words generalizing position stack with
  | case1 => rfl
  | case2 word rest undefined ih =>
    rw [run_undefined undefined, run_undefined undefined]
    rfl
  | case3 word loads =>
    rw [run.eq_def, run.eq_def]
    simp only [loads]
    rfl
  | case4 word loads index rest ih =>
    rw [run.eq_def, run.eq_def environment]
    simp only [loads]
    have same : environment.exchanged.constants = environment.constants := rfl
    rw [same]
    cases environment.constants[index.toNat]? with
    | none => rfl
    | some value =>
      dsimp only
      cases BoundedStack.push value stack with
      | error fault after => rfl
      | ok _ after =>
        dsimp only
        rw [ih]
        rfl
  | case5 word rest opcode plain decoded ih =>
    rw [run_plain (Opcode.ofWord?_word _) (Opcode.exchanged_ne_loadConst plain),
      run_plain decoded plain, perform_exchanged]
    cases perform environment opcode stack with
    | error fault after => rfl
    | ok _ after =>
      rw [resume, resume, ih]
      rfl

end Machine

/-- A program that has the tape of another with the variables exchanged has its value, or its fault,
when the values of the variables are exchanged. -/
theorem Program.evaluate_exchanged {program program' : Program}
    (words : program'.words = exchangedWords program.words)
    (constants : program'.constants = program.constants) (x y : Float) :
    program'.evaluate y x = program.evaluate x y := by
  have places : Machine.emptyStack (exchangedWords program.words) =
      Machine.emptyStack program.words := by
    simp only [Machine.emptyStack, length_exchangedWords]
  have same := congrArg Run.outcome (Machine.run_exchanged ⟨x, y, program.constants⟩ 0
    (Machine.emptyStack program.words) program.words)
  rw [evaluate, evaluate, run, run, words, constants, places]
  exact same

end TapeCalc
