import TapeCalc.Lexer
import TapeCalc.Proofs.Literal.Value
import TapeCalc.Proofs.Program.Pool
import TapeCalc.Proofs.Symbols

/-!
# What is found at a place in the text

Reading a lexeme has two parts.  What is found depends on the text alone, and only the
value of a literal that has been found goes into the pool.  A scan is the first part.

Main definitions:

- {lit}`Lexer.scan`: what is found at a place, its range and where it ends.
- {lit}`Finds`: all that can be found in a text.

Main results:

- Theorem {lit}`Lexer.next_eq`: the next lexeme is a scan whose value is kept.
- Theorem {lit}`Lexer.finds_scan`: a scan finds one of these.
-/

namespace TapeCalc

/-- The part of a text that a range covers. -/
def Span.slice (span : Span) (text : List Char) : List Char :=
  (text.drop span.start).take (span.stop - span.start)

/-! ## Scans -/

/-- What is found in a text: a symbol, the value of a literal, the end, or a fault. -/
inductive Finding where
  | symbol (token : Token)
  | literal (value : Float)
  | finished
  | fault (code : FaultCode)

/-- What is found, its range, and what is left. -/
structure Scan where
  finding : Finding
  column : Span
  position : Nat
  rest : List Char

/-- What a run of characters is found to be. -/
def Finding.ofRun (run : List Char) : Finding :=
  match Literal.value? run with
  | some value => .literal value
  | none => .fault .badNumberFormat

/-- A finding that takes the next characters behind a gap. -/
def Gap.taken (gap : Gap) (length : Nat) (finding : Finding) : Scan :=
  { finding
    column := ⟨gap.position, gap.position + length⟩
    position := gap.position + length
    rest := gap.rest.drop length }

namespace Lexer

/-- What is found at a position in front of the rest of a text. -/
def scan (symbols : SymbolTable) (position : Nat) (rest : List Char) : Scan :=
  let gap := Gap.scan position none rest
  match gap.openedAt with
  | some start => ⟨.fault .unterminatedComment, ⟨start, gap.position⟩, gap.position, gap.rest⟩
  | none =>
    match symbols.lookup gap.rest with
    | some (length, token) => gap.taken length (.symbol token)
    | none =>
      match gap.rest with
      | [] => gap.taken 0 .finished
      | c :: _ =>
        if Literal.opens c then
          gap.taken (Literal.run gap.rest).1.length (.ofRun (Literal.run gap.rest).1)
        else
          ⟨.fault .notRecognisable, ⟨gap.position, gap.position + 1⟩, gap.position, gap.rest⟩

/-- The lexer behind a scan. -/
def behind (scan : Scan) (pool : Pool) : Lexer := ⟨scan.rest, scan.position, scan.column, pool⟩

/-- What is made of a scan: only the value of a literal goes into the pool. -/
def keep (scan : Scan) (pool : Pool) : EStateM.Result Fault Lexer (Option Token) :=
  match scan.finding with
  | .symbol token => .ok (some token) (behind scan pool)
  | .literal value =>
    match Pool.store value pool with
    | .ok index after => .ok (some (.constant index)) (behind scan after)
    | .error fault after => .error (fault.inColumn scan.column) (behind scan after)
  | .finished => .ok none (behind scan pool)
  | .fault code => .error ((Fault.plain code).inColumn scan.column) (behind scan pool)

/-- A run that is no literal is refused as a whole. -/
theorem literal_of_none (lexer : Lexer) (read : Literal.value? (Literal.run lexer.rest).1 = none) :
    let after := lexer.advance (Literal.run lexer.rest).1.length
    literal lexer = .error (after.fault .badNumberFormat) after := by
  simp only [literal, Action.get_bind, read]
  rfl

/-- The value of a run goes into the pool. -/
theorem literal_of_some (lexer : Lexer) {value : Float}
    (read : Literal.value? (Literal.run lexer.rest).1 = some value) :
    let after := lexer.advance (Literal.run lexer.rest).1.length
    literal lexer =
      match Pool.store value lexer.pool with
      | .ok index pool => .ok (.constant index) { after with pool }
      | .error fault pool => .error (fault.inColumn after.column) { after with pool } := by
  have stored : store value (lexer.advance (Literal.run lexer.rest).1.length) =
      match Pool.store value lexer.pool with
      | .ok index pool => .ok index { lexer.advance (Literal.run lexer.rest).1.length with pool }
      | .error fault pool =>
        let after := { lexer.advance (Literal.run lexer.rest).1.length with pool }
        .error (fault.inColumn after.column) after := by
    simp only [store, Action.mapFault, Action.onPart, advance]
    cases Pool.store value lexer.pool <;> rfl
  simp only [literal, Action.get_bind, read]
  change (store value >>= fun index => pure (Token.constant index)) (lexer.advance _) = _
  cases kept : Pool.store value lexer.pool with
  | ok index pool =>
    rw [kept] at stored
    exact Action.bind_of_ok stored
  | error fault pool =>
    rw [kept] at stored
    exact Action.bind_of_error stored

/-- The next lexeme is what a scan finds, with its value in the pool if it is a literal. -/
theorem next_eq (symbols : SymbolTable) (lexer : Lexer) :
    next symbols lexer = keep (scan symbols lexer.position lexer.rest) lexer.pool := by
  rcases lexer with ⟨rest, position, column, pool⟩
  simp only [next, scan]
  generalize gap : Gap.scan position none rest = found
  rcases found with ⟨place, left, openedAt⟩
  cases openedAt with
  | some start =>
    have unclosed : skip ⟨rest, position, column, pool⟩ =
        .error ((Fault.plain .unterminatedComment).inColumn ⟨start, place⟩)
          ⟨left, place, ⟨start, place⟩, pool⟩ := by
      simp only [skip, gap]
      rfl
    exact Action.bind_of_error unclosed
  | none =>
    have skipped : skip ⟨rest, position, column, pool⟩ = .ok () ⟨left, place, column, pool⟩ := by
      simp only [skip, gap]
    rw [Action.bind_of_ok skipped, Action.get_bind]
    dsimp only
    cases symbols.lookup left with
    | some found => rfl
    | none =>
      cases left with
      | nil => rfl
      | cons c more =>
        dsimp only
        split
        · simp only [Finding.ofRun]
          cases read : Literal.value? (Literal.run (c :: more)).1 with
          | none =>
            have refused := literal_of_none ⟨c :: more, place, column, pool⟩ read
            exact Action.bind_of_error refused
          | some value =>
            have taken := literal_of_some ⟨c :: more, place, column, pool⟩ read
            simp only [keep, Gap.taken]
            cases kept : Pool.store value pool with
            | ok index after =>
              rw [kept] at taken
              exact Action.bind_of_ok taken
            | error fault after =>
              rw [kept] at taken
              exact Action.bind_of_error taken
        · rfl

end Lexer

/-! ## What can be found -/

/-- The codes of the faults that a text without meaning leads to. -/
def lexicalFaults : List FaultCode := [.unterminatedComment, .badNumberFormat, .notRecognisable]

/-- What can be found in a text from a position on: the longest spelling or a literal behind a gap,
nothing but a gap, or a fault. -/
inductive Finds (symbols : SymbolTable) (text : List Char) (position : Nat) : Scan → Prop where
  | symbol {start length : Nat} {token : Token} (behind : position ≤ start)
      (inside : start + length ≤ text.length)
      (found : symbols.lookup (text.drop start) = some (length, token)) :
      Finds symbols text position
        ⟨.symbol token, ⟨start, start + length⟩, start + length, text.drop (start + length)⟩
  | literal {start length : Nat} {value : Float} (behind : position ≤ start)
      (inside : start + length ≤ text.length) (positive : 0 < length) (unsigned : HasNoSign value)
      (read : Literal.value? (Span.slice ⟨start, start + length⟩ text) = some value) :
      Finds symbols text position
        ⟨.literal value, ⟨start, start + length⟩, start + length, text.drop (start + length)⟩
  | finished (behind : position ≤ text.length) :
      Finds symbols text position
        ⟨.finished, .point text.length, text.length, text.drop text.length⟩
  | fault {code : FaultCode} {column : Span} {stop : Nat} (behind : position ≤ stop)
      (inside : stop ≤ text.length) (lexical : code ∈ lexicalFaults) :
      Finds symbols text position ⟨.fault code, column, stop, text.drop stop⟩

/-- What follows a gap is the text without what the gap has taken. -/
theorem Gap.rest_scan (position : Nat) (openedAt : Option Nat) (rest : List Char) :
    (scan position openedAt rest).rest =
      rest.drop ((scan position openedAt rest).position - position) := by
  induction rest generalizing position openedAt with
  | nil => simp [scan]
  | cons c rest ih =>
    have further (openedAt : Option Nat) : (scan (position + 1) openedAt rest).rest =
        (c :: rest).drop ((scan (position + 1) openedAt rest).position - position) := by
      have moved := le_position_scan (position + 1) openedAt rest
      rw [ih, show (scan (position + 1) openedAt rest).position - position =
        (scan (position + 1) openedAt rest).position - (position + 1) + 1 by omega,
        List.drop_succ_cons]
    rw [scan]
    split
    · exact further _
    · split
      · simp
      · exact further _

/-- A gap in a text ends in the text. -/
theorem Gap.scan_drop {text : List Char} {position : Nat} (inside : position ≤ text.length) :
    let gap := scan position none (text.drop position)
    position ≤ gap.position ∧ gap.position ≤ text.length ∧ gap.rest = text.drop gap.position := by
  have moved := le_position_scan position none (text.drop position)
  have length := position_scan position none (text.drop position)
  rw [List.length_drop] at length
  refine ⟨moved, by omega, ?_⟩
  rw [rest_scan, List.drop_drop]
  congr 1
  omega

namespace Lexer

/-- A run that a literal opens is the literal or a fault. -/
theorem finds_run {symbols : SymbolTable} {text : List Char} {position start : Nat}
    (behind : position ≤ start) (within : start ≤ text.length) {c : Char} {rest : List Char}
    (left : text.drop start = c :: rest) (opens : Literal.opens c = true) :
    Finds symbols text position
      ((Gap.mk start (c :: rest) none).taken (Literal.run (c :: rest)).1.length
        (.ofRun (Literal.run (c :: rest)).1)) := by
  obtain ⟨more, head⟩ := Literal.run_of_opens rest opens
  have taken := Literal.take_length_run (c :: rest)
  have length := Literal.length_run_le (c :: rest)
  have room := congrArg List.length left
  rw [List.length_drop] at room
  simp only [Gap.taken, Finding.ofRun]
  rw [← left, List.drop_drop, left]
  cases read : Literal.value? (Literal.run (c :: rest)).1 with
  | none => exact .fault (by omega) (by omega) (by simp [lexicalFaults])
  | some value =>
    refine .literal behind (by omega) ?_ ?_ ?_
    · rw [head, List.length_cons]
      omega
    · rw [head] at read
      exact Literal.hasNoSign_of_value? opens read
    · rw [Span.slice, left, Nat.add_sub_cancel_left, taken, read]

/-- A scan finds what can be found. -/
theorem finds_scan (symbols : SymbolTable) {text : List Char} {position : Nat}
    (inside : position ≤ text.length) :
    Finds symbols text position (scan symbols position (text.drop position)) := by
  have ends := Gap.scan_drop inside
  simp only [scan, Gap.taken]
  generalize Gap.scan position none (text.drop position) = gap at ends
  rcases gap with ⟨start, rest, openedAt⟩
  obtain ⟨behind, within, left⟩ := ends
  dsimp only at behind within left ⊢
  subst left
  cases openedAt with
  | some opened => exact .fault behind within (by simp [lexicalFaults])
  | none =>
    dsimp only
    cases found : symbols.lookup (text.drop start) with
    | some entry =>
      rcases entry with ⟨length, token⟩
      have fits := SymbolTable.length_le_of_lookup found
      rw [List.length_drop] at fits
      dsimp only
      rw [List.drop_drop]
      exact .symbol behind (by omega) found
    | none =>
      dsimp only
      cases left : text.drop start with
      | nil =>
        have last : start = text.length :=
          Nat.le_antisymm within (List.drop_eq_nil_iff.mp left)
        subst last
        simpa [Span.point] using Finds.finished behind
      | cons c rest =>
        dsimp only
        split
        · rename_i opens
          exact finds_run behind within left opens
        · rw [← left]
          exact .fault behind within (by simp [lexicalFaults])

end Lexer

end TapeCalc
