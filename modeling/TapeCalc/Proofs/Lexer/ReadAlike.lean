import TapeCalc.Proofs.Descent.Relocated
import TapeCalc.Proofs.Lexer.Scan

/-!
# Lexers that read alike

Two lexers read alike if their scans find the same, at ranges that one change takes to each
other, and if the lexers behind these scans read alike again.  What they find goes into pools
that are the same, so they read the same lexemes, and their faults differ by the change of
ranges only.

Main definitions:

- {lit}`Lexer.SameScan`: scans that find the same.
- {lit}`Lexer.ReadAlike`: lexers that find the same from now on.

Main results:

- Theorem {lit}`Lexer.ReadAlike.couples_next`: the next lexeme of both.
-/

namespace TapeCalc

namespace Lexer

/-- Scans that find the same, at ranges that a change takes to each other, with related lexers
behind them. -/
structure SameScan (change : Span → Span) (related : Lexer → Lexer → Prop)
    (left right : Scan) : Prop where
  finding : right.finding = left.finding
  column : right.column = change left.column
  behind (pool : Pool) : related (behind left pool) (behind right pool)

/-- Lexers over two tables that find the same, and that find the same again behind it. -/
structure ReadAlike (symbols symbols' : SymbolTable) (change : Span → Span)
    (related : Lexer → Lexer → Prop) : Prop where
  pool {left right : Lexer} : related left right → right.pool = left.pool
  scan {left right : Lexer} : related left right →
    SameScan change related (scan symbols left.position left.rest)
      (scan symbols' right.position right.rest)

/-- Related lexers whose latest lexemes stand at ranges that a change takes to each other. -/
structure Placed (change : Span → Span) (related : Lexer → Lexer → Prop)
    (left right : Lexer) : Prop where
  related : related left right
  column : right.column = change left.column

variable {symbols symbols' : SymbolTable} {change : Span → Span} {related : Lexer → Lexer → Prop}

/-- Two lexers that read alike read the same lexeme, or fail alike. -/
theorem ReadAlike.couples_next (h : ReadAlike symbols symbols' change related) {left right : Lexer}
    (lexers : related left right) :
    Action.Couples (Placed change related) (fun _ => False)
      (relocateFault change (next symbols left)) (next symbols' right) := by
  have scans := h.scan lexers
  rw [next_eq, next_eq, h.pool lexers]
  generalize Lexer.scan symbols left.position left.rest = found at scans ⊢
  generalize Lexer.scan symbols' right.position right.rest = found' at scans ⊢
  obtain ⟨finding, column, behind⟩ := scans
  simp only [keep, finding]
  cases found.finding with
  | symbol token => exact .ok ⟨behind _, column⟩
  | literal value =>
    dsimp only
    cases Pool.store value left.pool with
    | ok index pool => exact .ok ⟨behind pool, column⟩
    | error fault pool =>
      rw [column]
      exact .fault
  | finished => exact .ok ⟨behind _, column⟩
  | fault code =>
    rw [column]
    exact .fault

end Lexer

end TapeCalc
