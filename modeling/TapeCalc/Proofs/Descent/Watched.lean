import TapeCalc.Proofs.Descent.Rounds

/-!
# Watching a descent

A descent is written by recursion on the levels of nesting that are left, and operators of a rank are
read in a number of rounds.  So there is nothing in it that could go on for ever, and nothing that
shows how much of its levels and rounds it needs.

Here the same descent keeps the books.  It counts the depth up and down and compares it with a limit
where something is nested, operands call each other with a fuel that only bounds the recursion, and
whoever runs out of fuel or of rounds leaves a note.  Every lexeme that is asked for is noted too, and
every operand that is begun or ended.

Main definitions:

- {lit}`Note`: what is noted, and {lit}`Books.opened`: how many operands are open.
- {lit}`Watched.whole`: the descent that keeps the books.

Main results:

- Theorem {lit}`Watched.keepsDepth_production`: a production gives back the depth it was begun with.
-/

namespace TapeCalc

/-! ## Books -/

/-- What is noted in the course of a descent. -/
inductive Note where
  /-- A lexeme has been asked for: there is one, or the text has ended, or it cannot be read. -/
  | asked (answer : Except Fault (Option Token))
  /-- An operand has been begun. -/
  | entered
  /-- An operand has come to an end, by success or failure. -/
  | left

/-- What has been noted so far, newest first. -/
abbrev Books := List Note

namespace Books

/-- How many operands are open. -/
def opened : Books → Nat
  | [] => 0
  | .asked _ :: earlier => opened earlier
  | .entered :: earlier => opened earlier + 1
  | .left :: earlier => opened earlier - 1

/-- The answers to all questions for lexemes, newest first. -/
def answers : Books → List (Except Fault (Option Token))
  | [] => []
  | .asked answer :: earlier => answer :: answers earlier
  | .entered :: earlier => answers earlier
  | .left :: earlier => answers earlier

/-- How many operands have been begun. -/
def entries : Books → Nat
  | [] => 0
  | .asked _ :: earlier => entries earlier
  | .entered :: earlier => entries earlier + 1
  | .left :: earlier => entries earlier

/-- How many of the answers have been a lexeme or the end of the text. -/
def pulled (books : Books) : Nat := books.answers.countP Except.isOk

/-- An answer that is a lexeme or the end counts. -/
theorem pulled_ok (token? : Option Token) (earlier : Books) :
    pulled (.asked (.ok token?) :: earlier) = pulled earlier + 1 := List.countP_cons_of_pos rfl

end Books

/-- A state with the books that are kept: how deep the descent is, what has happened, and whether it
has run out of fuel or of rounds. -/
structure Watched (σ : Type) where
  inner : σ
  depth : Nat
  books : Books
  exhausted : Bool

namespace Watched

variable {σ : Type}

/-! ## The descent that keeps the books -/

section Descent

variable (feed : Feed σ)

/-- The books of a state before anything has happened. -/
def begin (state : σ) : Watched σ := ⟨state, 0, [], false⟩

/-- Steps on the state that is watched, and a note for each lexeme that is asked for. -/
def watch : Feed (Watched σ) where
  current state := feed.current state.inner
  column state := feed.column state.inner
  advance state :=
    match feed.advance state.inner with
    | .ok () inner =>
      .ok () { state with inner, books := .asked (.ok (feed.current inner)) :: state.books }
    | .error fault inner =>
      .error fault { state with inner, books := .asked (.error fault) :: state.books }
  plant opcode := Action.onPart inner (fun state inner => { state with inner }) (feed.plant opcode)
  plantConstant index :=
    Action.onPart inner (fun state inner => { state with inner }) (feed.plantConstant index)

/-- Leave a note that something has run out. -/
def exhaust : Action (Watched σ) Unit := modify fun state => { state with exhausted := true }

/-- Operators of one rank, each with its operand.  Rounds run out if there is an operator and no
round is left. -/
def chain (operator? : Token → Option BinaryOp) (operand : Action (Watched σ) Unit) :
    Nat → Action (Watched σ) Unit
  | 0 => do
    if ((feed.current (← get).inner).bind operator?).isSome then exhaust
  | rounds + 1 => do
    match (feed.current (← get).inner).bind operator? with
    | none => return
    | some op =>
      (watch feed).advance
      operand
      (watch feed).plant (.binary op)
      chain operator? operand rounds

/-- An operand followed by operators of one rank. -/
def ranked (rounds : Nat) (operator? : Token → Option BinaryOp)
    (operand : Action (Watched σ) Unit) : Action (Watched σ) Unit := do
  operand
  chain feed operator? operand rounds

/-- How phrases of a rank are read, given how factors are. -/
def phrase (rounds : Nat) (factor : Action (Watched σ) Unit) : Rank → Action (Watched σ) Unit
  | .factor => factor
  | .power => ranked feed rounds Token.power? factor
  | .term =>
    ranked feed rounds Token.multiplicative? (ranked feed rounds Token.power? factor)
  | .expression =>
    ranked feed rounds Token.additive?
      (ranked feed rounds Token.multiplicative? (ranked feed rounds Token.power? factor))

/-- One level deeper, if the limit allows it.  The depth is counted down again when the production
has come to an end, also if it has failed. -/
def nested (maxDepth : Nat) (production : Action (Watched σ) Unit) : Action (Watched σ) Unit :=
  fun state =>
    if maxDepth ≤ state.depth then Descent.fail (watch feed) .tooDeeplyNested "" state
    else
      match production { state with depth := state.depth + 1 } with
      | .ok () after => .ok () { after with depth := after.depth - 1 }
      | .error fault after => .error fault { after with depth := after.depth - 1 }

/-- Note that an operand has been begun, and that it has come to an end. -/
def noted (operand : Action (Watched σ) Unit) : Action (Watched σ) Unit := fun state =>
  match operand { state with books := .entered :: state.books } with
  | .ok () after => .ok () { after with books := .left :: after.books }
  | .error fault after => .error fault { after with books := .left :: after.books }

end Descent

end Watched

/-- An operand, given what stands in parentheses and what stands behind a sign. -/
def Descent.operand {σ : Type} (feed : Feed σ) (group signed : Action σ Unit) :
    Action σ Unit := do
  match feed.current (← get) with
  | some (.constant index) =>
    feed.plantConstant index
    feed.advance
  | some (.load slot) =>
    feed.plant (.load slot)
    feed.advance
  | some .pi =>
    feed.plant .pi
    feed.advance
  | some .leftParen =>
    feed.advance
    group
    expect feed .rightParen .expectingRightParenthesis
  | some (.additive sign) =>
    feed.advance
    signed
    if sign = .minus then feed.plant (.unary .neg)
  | some (.function op) =>
    feed.advance
    expect feed .leftParen .expectingLeftParenthesis
    group
    expect feed .rightParen .expectingRightParenthesis
    feed.plant (.unary op)
  | some _ => fail feed .syntaxError ""
  | none => fail feed .syntaxError "EXPECTED OPERAND"

/-- An operand nests expressions in parentheses and operands behind signs. -/
theorem Descent.factorOver_eq {σ : Type} (feed : Feed σ) (rounds : Nat)
    (inner? : Option (Action σ Unit)) :
    factorOver feed rounds inner? =
      operand feed (nested feed (inner?.map (expression feed rounds))) (nested feed inner?) := rfl

namespace Watched

variable {σ : Type} (feed : Feed σ)

/-- An operand.  The fuel only bounds how many operands are inside each other. -/
def factor (rounds maxDepth : Nat) : Nat → Action (Watched σ) Unit
  | 0 => exhaust
  | fuel + 1 =>
    noted (Descent.operand (watch feed)
      (nested feed maxDepth (phrase feed rounds (factor rounds maxDepth fuel) .expression))
      (nested feed maxDepth (factor rounds maxDepth fuel)))

/-- The productions of all ranks. -/
def production (rounds maxDepth fuel : Nat) (rank : Rank) : Action (Watched σ) Unit :=
  phrase feed rounds (factor feed rounds maxDepth fuel) rank

/-- One expression and nothing behind it. -/
def whole (rounds maxDepth fuel : Nat) : Action (Watched σ) Unit := do
  (watch feed).advance
  if (feed.current (← get).inner).isNone then throw (.plain .missingExpression)
  production feed rounds maxDepth fuel .expression
  if (feed.current (← get).inner).isSome then
    Descent.fail (watch feed) .syntaxError "UNEXPECTED LEXEME"

/-! ## The depth is given back -/

/-- An action that ends with the depth it has begun with, whether it succeeds or fails. -/
def KeepsDepth (action : Action (Watched σ) Unit) : Prop :=
  ∀ state, (Action.reached (action state)).depth = state.depth

namespace KeepsDepth

/-- Steps in a row. -/
theorem bind {first second : Action (Watched σ) Unit} (h : KeepsDepth first)
    (next : KeepsDepth second) : KeepsDepth (first >>= fun _ => second) := by
  intro state
  have kept := h state
  cases result : first state with
  | ok _ mid =>
    rw [result] at kept
    rw [Action.bind_of_ok result, next mid]
    exact kept
  | error fault mid =>
    rw [result] at kept
    rw [Action.bind_of_error result]
    exact kept

/-- A step that depends on the state. -/
theorem get_bind {next : Watched σ → Action (Watched σ) Unit}
    (each : ∀ state, KeepsDepth (next state)) : KeepsDepth (get >>= next) :=
  fun state => each state state

/-- A step that may be left out. -/
theorem ite {condition : Prop} [Decidable condition] {first second : Action (Watched σ) Unit}
    (h : KeepsDepth first) (h' : KeepsDepth second) :
    KeepsDepth (if condition then first else second) := by
  split
  · exact h
  · exact h'

/-- Doing nothing. -/
theorem pure : KeepsDepth (Pure.pure () : Action (Watched σ) Unit) := fun _ => rfl

/-- Asking for the next lexeme. -/
theorem advance : KeepsDepth (watch feed).advance := by
  intro state
  simp only [watch]
  cases feed.advance state.inner <;> rfl

/-- Planting something. -/
theorem onPart (step : Action σ Unit) :
    KeepsDepth (Action.onPart inner (fun state inner => { state with inner }) step) := by
  intro state
  rw [Action.onPart]
  cases step state.inner <;> rfl

/-- Failing. -/
theorem fail (code : FaultCode) (detail : String) :
    KeepsDepth (Descent.fail (watch feed) code detail) := fun _ => rfl

/-- Going past a lexeme that has to be there. -/
theorem expect (token : Token) (code : FaultCode) :
    KeepsDepth (Descent.expect (watch feed) token code) :=
  get_bind fun _ => ite (advance feed) (fail feed code "")

variable {feed}

/-- Operators of one rank. -/
theorem chain {operator? : Token → Option BinaryOp} {operand : Action (Watched σ) Unit}
    (h : KeepsDepth operand) (rounds : Nat) :
    KeepsDepth (Watched.chain feed operator? operand rounds) := by
  induction rounds with
  | zero => exact get_bind fun _ => ite (fun _ => rfl) pure
  | succ rounds ih =>
    refine get_bind fun state => ?_
    cases (feed.current state.inner).bind operator? with
    | none => exact pure
    | some op => exact (advance feed).bind (h.bind ((onPart _).bind ih))

/-- An operand with operators of one rank behind it. -/
theorem ranked {operator? : Token → Option BinaryOp} {operand : Action (Watched σ) Unit}
    (h : KeepsDepth operand) (rounds : Nat) :
    KeepsDepth (Watched.ranked feed rounds operator? operand) := h.bind (h.chain rounds)

/-- Phrases of all ranks. -/
theorem phrase {factor : Action (Watched σ) Unit} (h : KeepsDepth factor) (rounds : Nat)
    (rank : Rank) : KeepsDepth (Watched.phrase feed rounds factor rank) := by
  cases rank with
  | factor => exact h
  | power => exact h.ranked rounds
  | term => exact (h.ranked rounds).ranked rounds
  | expression => exact ((h.ranked rounds).ranked rounds).ranked rounds

/-- One level deeper: the depth is counted up and down again. -/
theorem nested {action : Action (Watched σ) Unit} (h : KeepsDepth action) (maxDepth : Nat) :
    KeepsDepth (Watched.nested feed maxDepth action) := by
  intro state
  have kept := h { state with depth := state.depth + 1 }
  rw [Watched.nested]
  split
  · rfl
  · cases result : action { state with depth := state.depth + 1 } with
    | ok _ after =>
      rw [result] at kept
      exact congrArg (· - 1) kept
    | error fault after =>
      rw [result] at kept
      exact congrArg (· - 1) kept

/-- An operand that is noted. -/
theorem noted {action : Action (Watched σ) Unit} (h : KeepsDepth action) :
    KeepsDepth (Watched.noted action) := by
  intro state
  have kept := h { state with books := .entered :: state.books }
  rw [Watched.noted]
  cases result : action { state with books := .entered :: state.books } with
  | ok _ after =>
    rw [result] at kept
    exact kept
  | error fault after =>
    rw [result] at kept
    exact kept

/-- An operand, given what it nests. -/
theorem operand {group signed : Action (Watched σ) Unit} (h : KeepsDepth group)
    (h' : KeepsDepth signed) : KeepsDepth (Descent.operand (watch feed) group signed) := by
  refine get_bind fun state => ?_
  cases (watch feed).current state with
  | none => exact fail feed _ _
  | some token =>
    cases token with
    | constant index => exact (onPart _).bind (advance feed)
    | load slot => exact (onPart _).bind (advance feed)
    | pi => exact (onPart _).bind (advance feed)
    | leftParen => exact (advance feed).bind (h.bind (expect feed _ _))
    | additive sign => exact (advance feed).bind (h'.bind (ite (onPart _) pure))
    | function op =>
      exact (advance feed).bind ((expect feed _ _).bind
        (h.bind ((expect feed _ _).bind (onPart _))))
    | multiplicative _ => exact fail feed _ _
    | power => exact fail feed _ _
    | rightParen => exact fail feed _ _

/-- Operands. -/
theorem factor (rounds maxDepth fuel : Nat) :
    KeepsDepth (Watched.factor feed rounds maxDepth fuel) := by
  induction fuel with
  | zero => exact fun _ => rfl
  | succ fuel ih => exact (((ih.phrase rounds .expression).nested maxDepth).operand
      (ih.nested maxDepth)).noted

end KeepsDepth

/-- A production of any rank ends with the depth it has begun with, whether it succeeds or fails. -/
theorem keepsDepth_production (rounds maxDepth fuel : Nat) (rank : Rank) :
    KeepsDepth (production feed rounds maxDepth fuel rank) :=
  (KeepsDepth.factor rounds maxDepth fuel).phrase rounds rank

end Watched

end TapeCalc
