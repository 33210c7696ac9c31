import TapeCalc.Proofs.Compiler.Listing

/-!
# The constants of a compiled program

A literal goes into the pool when it is read, one lexeme before the instruction that loads it is
planted.  All the same the tape determines the pool.  The literals of the text are loaded in their
order, every place of the pool is loaded, and for the first time in the order of the places.

Values are pooled by comparing doubles, which takes the two zeros for one and never finds again what
is no number.  Literals have no sign and are numbers, so each finds its own value in the pool, bit
for bit.

Main definitions:

- {lit}`loadedIndices`: the indices that the instructions of a tape load.

Main results:

- Theorem {lit}`loadedIndices_code`: an expression loads its literals from left to right.
- Theorem {lit}`Compiled.eraseDups_indices`: every place of the pool is loaded, in order.
- Theorem {lit}`constants_are_canonical`: both together, for the text of a compilation.
-/

namespace TapeCalc

/-! ## First occurrences -/

/-- The first occurrences of images are the images of the first occurrences, if the map keeps
different elements different. -/
theorem eraseDups_map {α β : Type} [BEq α] [BEq β] {f : α → β} (items : List α)
    (same : ∀ a ∈ items, ∀ b ∈ items, (f a == f b) = (a == b)) :
    (items.map f).eraseDups = items.eraseDups.map f := by
  -- What is left behind the first element is shorter, but it is not its tail.
  induction length : items.length using Nat.strong_induction_on generalizing items with
  | _ length ih =>
    subst length
    cases items with
    | nil => rfl
    | cons a items =>
      have others : (items.map f).filter (fun b => !b == f a) =
          (items.filter fun b => !b == a).map f := by
        rw [List.filter_map]
        refine congrArg (List.map f) (List.filter_congr fun b member => ?_)
        exact congrArg not (same b (List.mem_cons_of_mem _ member) a List.mem_cons_self)
      have shorter : (items.filter fun b => !b == a).length < (a :: items).length :=
        Nat.lt_succ_of_le (List.length_filter_le _ _)
      rw [List.map_cons, List.eraseDups_cons, List.eraseDups_cons, List.map_cons, others,
        ih _ shorter _ (fun b member c member' => ?_) rfl]
      exact same b (List.mem_cons_of_mem _ (List.mem_of_mem_filter member)) c
        (List.mem_cons_of_mem _ (List.mem_of_mem_filter member'))

/-! ## What a tape loads -/

/-- The indices that the instructions of a tape load, in the order of the tape.  The word behind such
an instruction is no instruction, whatever it is. -/
def loadedIndices : List Word → List Word
  | [] => []
  | word :: rest =>
    match Opcode.ofWord? word with
    | some .loadConst =>
      match rest with
      | [] => []
      | index :: rest => index :: loadedIndices rest
    | _ => loadedIndices rest

/-- An instruction without operand loads no constant. -/
theorem loadedIndices_word {opcode : Opcode} (plain : opcode ≠ .loadConst) (rest : List Word) :
    loadedIndices (opcode.word :: rest) = loadedIndices rest := by
  cases opcode with
  | loadConst => exact absurd rfl plain
  | _ =>
    rw [loadedIndices.eq_def]
    simp only [Opcode.ofWord?_word]

/-- The instruction that loads a constant loads the index behind it. -/
theorem loadedIndices_loadConst (index : Word) (rest : List Word) :
    loadedIndices (Opcode.loadConst.word :: index :: rest) = index :: loadedIndices rest := by
  rw [loadedIndices, Opcode.ofWord?_word]

/-- The code of an expression loads its literals from left to right. -/
theorem loadedIndices_code (expr : Expr) (rest : List Word) :
    loadedIndices (expr.code ++ rest) =
      expr.literals.map UInt16.ofNat ++ loadedIndices rest := by
  induction expr generalizing rest with
  | literal index => exact loadedIndices_loadConst _ rest
  | load slot => exact loadedIndices_word (by simp) rest
  | pi => exact loadedIndices_word (by simp) rest
  | group inner ih => exact ih rest
  | signed sign operand ih =>
    cases sign with
    | plus => exact ih rest
    | minus =>
      rw [Expr.code, List.append_assoc, ih]
      exact congrArg _ (loadedIndices_word (by simp) rest)
  | call op argument ih =>
    rw [Expr.code, List.append_assoc, ih]
    exact congrArg _ (loadedIndices_word (by simp) rest)
  | binary op left right ihLeft ihRight =>
    rw [Expr.code, List.append_assoc, List.append_assoc, ihLeft, ihRight, Expr.literals,
      List.map_append, List.append_assoc]
    exact congrArg _ (congrArg _ (loadedIndices_word (by simp) rest))

/-! ## Compiled programs -/

namespace Compiled

variable {symbols : SymbolTable} {text : List Char} {limits : Limits} {lexemes : List Lexeme}
  {program : Program}

/-- The constants of a compiled program are numbers without a sign. -/
theorem hasNoSign (h : Compiled symbols text limits lexemes program) :
    ∀ value ∈ program.constants, HasNoSign value := by
  obtain ⟨last, pool, yields⟩ := h.yields
  rw [Program.constants, pool]
  exact (keeps_of_yields yields).distinct.unsigned

/-- The tape loads the literals of the text, each at its own index. -/
theorem loadedIndices_eq (h : Compiled symbols text limits lexemes program) :
    (loadedIndices program.words).map UInt16.toNat =
      (tokensOf lexemes).filterMap Token.index? := by
  obtain ⟨expr, derives, _⟩ := h.fits
  have loaded := loadedIndices_code expr []
  rw [List.append_nil, loadedIndices, List.append_nil, ← h.code expr derives] at loaded
  rw [loaded, List.map_map, ← derives.literals_eq]
  refine (List.map_congr_left fun index member => ?_).trans (List.map_id _)
  rw [Function.comp_apply, UInt16.toNat_ofNat', Nat.mod_eq_of_lt (h.known derives member).1]
  rfl

/-- The literals of the text load places of the pool. -/
theorem index_lt (h : Compiled symbols text limits lexemes program) {index : Nat}
    (member : index ∈ (tokensOf lexemes).filterMap Token.index?) :
    ∃ inside : index < program.constants.length,
      constant program index = program.constants[index] := by
  obtain ⟨expr, derives, _⟩ := h.fits
  rw [← derives.literals_eq] at member
  obtain ⟨inside, value⟩ := List.getElem?_eq_some_iff.mp (h.known derives member).2
  exact ⟨inside, value.symm⟩

/-- Different literals of the pool compare as their places do. -/
theorem constant_beq (h : Compiled symbols text limits lexemes program) {index other : Nat}
    (member : index ∈ (tokensOf lexemes).filterMap Token.index?)
    (member' : other ∈ (tokensOf lexemes).filterMap Token.index?) :
    (constant program index == constant program other) = (index == other) := by
  obtain ⟨inside, stored⟩ := h.index_lt member
  obtain ⟨inside', stored'⟩ := h.index_lt member'
  rw [Bool.eq_iff_iff, stored, stored', beq_iff_eq_of_unsigned
    (h.hasNoSign _ (List.getElem_mem inside)) (h.hasNoSign _ (List.getElem_mem inside')),
    h.nodup.getElem_inj_iff, beq_iff_eq]

/-- Every place of the pool is loaded, for the first time in the order of the places. -/
theorem eraseDups_indices (h : Compiled symbols text limits lexemes program) :
    ((tokensOf lexemes).filterMap Token.index?).eraseDups =
      List.range program.constants.length := by
  have pooled : program.constants =
      ((tokensOf lexemes).filterMap Token.index?).eraseDups.map (constant program) := by
    rw [← eraseDups_map _ fun index member other member' => h.constant_beq member member',
      ← h.literalValues_eq]
    exact h.constants_eq
  have length := congrArg List.length pooled
  rw [List.length_map] at length
  refine List.ext_getElem (by rw [← length, List.length_range]) fun place inside _ => ?_
  have member := List.mem_eraseDups.mp (List.getElem_mem inside)
  obtain ⟨known, stored⟩ := h.index_lt member
  have within : place < program.constants.length := length ▸ inside
  have placed : program.constants[place] = constant program _ :=
    (List.getElem_of_eq pooled within).trans (List.getElem_map _)
  rw [List.getElem_range]
  exact (h.nodup.getElem_inj_iff.mp (placed.trans stored)).symm

/-- The literals of the text are numbers without a sign. -/
theorem hasNoSign_literalValues (h : Compiled symbols text limits lexemes program) :
    ∀ value ∈ literalValues text lexemes, HasNoSign value := by
  rw [h.literalValues_eq]
  intro value member
  obtain ⟨index, inside, rfl⟩ := List.mem_map.mp member
  obtain ⟨place, stored⟩ := h.index_lt inside
  rw [stored]
  exact h.hasNoSign _ (List.getElem_mem place)

/-- Bit for bit the pool holds the values of the literals in the order of their first
occurrences. -/
theorem toBits_constants (h : Compiled symbols text limits lexemes program) :
    program.constants.map Float.toBits =
      ((literalValues text lexemes).map Float.toBits).eraseDups := by
  rw [eraseDups_map, ← h.constants_eq]
  intro value member other member'
  rw [Bool.eq_iff_iff, beq_iff_eq_of_unsigned (h.hasNoSign_literalValues value member)
    (h.hasNoSign_literalValues other member'), beq_iff_eq, Float.toBits_inj]

end Compiled

/-- The pool of a compiled program holds, bit for bit, the values of the literals of its text in the
order of their first occurrences and each of them once, among them neither a negative zero nor a
value that is no number.  The instructions that load a constant load the literals of the text in
their order, each from a place that holds its very value, and all places of the pool, for the first
time in the order of the places. -/
theorem constants_are_canonical {text xName yName : String} {limits : Limits} {program : Program}
    (compiled : compile text xName yName limits = .ok program) :
    ∃ symbols lexemes, SymbolTable.ofNames xName yName = .ok symbols ∧
      lex symbols text.toList = .ok lexemes ∧
      program.constants.map Float.toBits =
        ((literalValues text.toList lexemes).map Float.toBits).eraseDups ∧
      (program.constants.map Float.toBits).Nodup ∧
      (∀ value ∈ program.constants, value ≠ .nan ∧ value ≠ -0) ∧
      (loadedIndices program.words).map UInt16.toNat =
        (tokensOf lexemes).filterMap Token.index? ∧
      (∀ lexeme ∈ lexemes, ∀ index, lexeme.token = .constant index →
        ∃ value, lexeme.value? text.toList = some value ∧
          program.constants[index]? = some value) ∧
      ((loadedIndices program.words).map UInt16.toNat).eraseDups =
        List.range program.constants.length := by
  obtain ⟨symbols, bound⟩ := exists_ofNames_of_compile compiled
  have named := (SymbolTable.reachable_of_ofNames bound).spelling_ne_nil
  rw [compile_of_ofNames bound] at compiled
  obtain ⟨lexemes, h⟩ := compiled_of_ok named compiled
  refine ⟨symbols, lexemes, bound, (h.lex_eq named).1, h.toBits_constants, ?_, ?_, h.loadedIndices_eq,
    ?_, ?_⟩
  · exact h.nodup.map fun _ _ same => Float.toBits_inj.mp same
  · intro value member
    exact ⟨(h.hasNoSign value member).number, (h.hasNoSign value member).positive⟩
  · intro lexeme member index token
    exact ⟨_, h.constants member token⟩
  · rw [h.loadedIndices_eq, h.eraseDups_indices]

/-- In {lit}`2-0.5*x/2.0` the first and the last literal share the first place of the pool. -/
theorem constants_of_shared_literal :
    ∃ program, compile "2-0.5*x/2.0" "x" "" ⟨100, 2, 0⟩ = .ok program ∧
      (loadedIndices program.words).map UInt16.toNat = [0, 1, 0] ∧
      ((loadedIndices program.words).map UInt16.toNat).eraseDups =
        List.range program.constants.length := by
  have loaded : (compile "2-0.5*x/2.0" "x" "" ⟨100, 2, 0⟩).map
      (fun program => (loadedIndices program.words).map UInt16.toNat) = .ok [0, 1, 0] := by
    decide +kernel
  cases compiled : compile "2-0.5*x/2.0" "x" "" ⟨100, 2, 0⟩ with
  | error fault =>
    rw [compiled] at loaded
    cases loaded
  | ok program =>
    obtain ⟨_, _, _, _, _, _, _, _, _, inOrder⟩ := constants_are_canonical compiled
    rw [compiled] at loaded
    exact ⟨program, rfl, Except.ok.inj loaded, inOrder⟩

end TapeCalc
