import TapeCalc.Proofs.Compiler.ReadAlike
import TapeCalc.Proofs.Descent.Books

/-!
# How much work a compilation is

A compilation that keeps the books leads to the same program or fault, and the books show how much it
has done.  Its operands are as deep inside each other as the limit on the nesting allows, whatever the
text.  It asks for no more lexemes than the text has characters, and one for the end, and it asks for
nothing behind the end or a fault.

Main definitions:

- {lit}`Seen`: what is seen of a compilation that keeps the books.
- {lit}`watchedCompile`: a compilation that keeps the books, with a fuel for its operands.

Main results:

- Theorem {lit}`Compiler.measured`: the lexemes ahead are bounded by the characters that are left.
- Theorem {lit}`compiling_is_bounded`: how deep a compilation goes and how much it reads.
-/

namespace TapeCalc

/-- What is seen of a compilation that keeps the books. -/
structure Seen where
  outcome : Except Fault Program
  books : Books
  exhausted : Bool

/-- Compile a text and keep the books.  The fuel is for operands inside each other. -/
def watchedCompile (fuel : Nat) (text xName yName : String) (limits : Limits) : Seen :=
  match SymbolTable.ofNames xName yName with
  | .error fault => ⟨.error fault, [], false⟩
  | .ok symbols =>
    match Watched.whole (Compiler.feed symbols) (text.toList.length + 1) limits.maxDepth fuel
      (Watched.begin (.start text.toList limits)) with
    | .ok () reached => ⟨.ok reached.inner.program, reached.books, reached.exhausted⟩
    | .error fault reached => ⟨.error fault, reached.books, reached.exhausted⟩

/-- The lexemes ahead of a compilation are bounded by the characters that are left. -/
theorem Compiler.measured {symbols : SymbolTable}
    (named : ∀ symbol ∈ symbols.symbols, symbol.spelling ≠ []) :
    (feed symbols).Measured Compiler.size where
  toLessens := lessens named
  toLawful := lawful symbols
  positive := by
    intro state looking
    have present : state.current.isSome := looking
    rw [size, if_pos present]
    exact Nat.succ_pos _

/-- A compilation that keeps the books leads to what it leads to without them, and its books are in
order, if its fuel is greater than the limit on the nesting. -/
theorem watchedCompile_eq (text xName yName : String) {limits : Limits} {fuel : Nat}
    (deep : limits.maxDepth < fuel) :
    ∃ reached : Watched Compiler, reached.Sound (text.toList.length + 1) limits.maxDepth ∧
      watchedCompile fuel text xName yName limits =
        ⟨compile text xName yName limits, reached.books, false⟩ := by
  cases bound : SymbolTable.ofNames xName yName with
  | error fault =>
    refine ⟨.begin (.start text.toList limits), Watched.sound_begin _, ?_⟩
    simp only [watchedCompile, compile, compilation, bound, Watched.begin]
  | ok symbols =>
    have named := (SymbolTable.reachable_of_ofNames bound).spelling_ne_nil
    have first (after : Compiler)
        (moved : (Compiler.feed symbols).advance (.start text.toList limits) = .ok () after) :
        after.size < text.toList.length + 1 :=
      Nat.lt_succ_of_le (Compiler.size_le_of_advance named moved)
    have follows := Watched.follows_whole (Compiler.measured named) (Nat.le_refl _) deep
      (Nat.succ_pos _) first
    obtain ⟨same, sound⟩ := follows.erased_eq
    have plain : Descent.whole (Compiler.feed symbols) (text.toList.length + 1) limits.maxDepth
        (.start text.toList limits) = _ := same.symm
    refine ⟨_, sound, ?_⟩
    rw [watchedCompile, bound, compile_of_ofNames bound, outcome_compileWith, plain]
    dsimp only
    generalize Watched.whole _ _ _ _ _ = result at sound
    cases result with
    | ok _ reached => exact congrArg (Seen.mk _ _) sound.lasts
    | error fault reached => exact congrArg (Seen.mk _ _) sound.lasts

/-- The recursion and the work of a compilation are bounded, whatever the text.  With a fuel for one
operand more than levels it leads to the same outcome, and neither fuel nor rounds run out.  At no
moment more operands are open than there are levels, and one.  There are no more questions for lexemes
than characters, and one, and all answers but the last have been lexemes.  No more operands have been
begun than there have been lexemes and the end.  And every production ends with the depth that it has
begun with, whether it succeeds or fails. -/
theorem compiling_is_bounded (text xName yName : String) (limits : Limits) :
    let seen := watchedCompile (limits.maxDepth + 1) text xName yName limits
    seen.outcome = compile text xName yName limits ∧ seen.exhausted = false ∧
      (∀ moment, moment <:+ seen.books → Books.opened moment ≤ limits.maxDepth + 1) ∧
      seen.books.answers.length ≤ text.toList.length + 1 ∧
      (∀ answer ∈ seen.books.answers.tail, ∃ token, answer = .ok (some token)) ∧
      seen.books.entries ≤ seen.books.pulled ∧
      ∀ (symbols : SymbolTable) (rounds fuel : Nat) (rank : Rank) (state : Watched Compiler),
        (Action.reached (Watched.production (Compiler.feed symbols) rounds limits.maxDepth fuel rank
          state)).depth = state.depth := by
  have depths (symbols : SymbolTable) (rounds fuel : Nat) (rank : Rank) :=
    Watched.keepsDepth_production (Compiler.feed symbols) rounds limits.maxDepth fuel rank
  obtain ⟨reached, sound, same⟩ :=
    watchedCompile_eq text xName yName (Nat.lt_succ_self limits.maxDepth)
  rw [same]
  exact ⟨rfl, rfl, sound.opened, sound.asked, sound.earlier, sound.entries, depths⟩

/-- With a fuel for one operand less, the operand behind the second sign runs out of it. -/
example :
    (watchedCompile 2 "--x" "x" "" ⟨3, 0, 2⟩).exhausted = true ∧
      (watchedCompile 3 "--x" "x" "" ⟨3, 0, 2⟩).exhausted = false := by decide +kernel

end TapeCalc
