import TapeCalc.Proofs.Descent.Trace

/-!
# Phrases are read

If a phrase of the grammar is ahead of a descent, the descent goes past it and plants its
code, and looks at what stands behind it.  Only two things can keep it from doing so: the
feed refuses to plant a word of that code, or the phrase nests deeper than there are levels.

Operators of one rank are read in rounds, and a phrase in the middle of a chain leaves
rounds for what stands behind it.  So the statement about a rank has two forms: one for
phrases at which the chain stops, and one for phrases with which it goes on.

Main definitions:

- {lit}`Feed.Ahead`: the lexemes a feed will hand out.
- {lit}`Feed.Cut`: what can keep a descent from reading a phrase.

Main results:

- Theorem {lit}`Feed.readsPhrase_of_derives`: a phrase that is ahead is read.
- Theorem {lit}`Feed.reaches_complete`: an expression that is all that is ahead is read to
  its end.
-/

namespace TapeCalc

/-! ## Where a phrase stops -/

/-- What stands behind a phrase of a rank does not go on with it: it is no operator of the rank,
nor of a tighter one. -/
def Rank.Stops (rank : Rank) (rest : List Token) : Prop :=
  match rank with
  | .factor => True
  | .power => rest.head?.bind Token.power? = none
  | .term => rest.head?.bind Token.multiplicative? = none ∧ rest.head?.bind Token.power? = none
  | .expression => rest.head?.bind Token.additive? = none ∧
      rest.head?.bind Token.multiplicative? = none ∧ rest.head?.bind Token.power? = none

namespace Rank

/-- Where a phrase stops its last operand stops. -/
theorem Stops.tighter {rank : Rank} {rest : List Token} (h : rank.Stops rest) :
    rank.tighter.Stops rest := by
  cases rank with
  | factor => trivial
  | power => trivial
  | term => exact h.2
  | expression => exact h.2

/-- Where a phrase stops there is no operator of its rank. -/
theorem Stops.head {rank : Rank} {rest : List Token} (h : rank.Stops rest) :
    rest.head?.bind rank.operator? = none := by
  cases rank with
  | factor => cases rest.head? <;> rfl
  | power => exact h
  | term => exact h.1
  | expression => exact h.1

/-- At an operator of a rank its left operand stops. -/
theorem stops_operator {rank : Rank} {operator : Token} {op : BinaryOp} (rest : List Token)
    (h : rank.operator? operator = some op) : rank.tighter.Stops (operator :: rest) := by
  cases rank with
  | factor => cases h
  | power => trivial
  | term =>
    cases operator with
    | multiplicative _ => rfl
    | _ => cases h
  | expression =>
    cases operator with
    | additive _ => exact ⟨rfl, rfl⟩
    | _ => cases h

/-- The tightest rank has no operators. -/
theorem ne_factor {rank : Rank} {operator : Token} {op : BinaryOp}
    (h : rank.operator? operator = some op) : rank ≠ .factor := by
  rintro rfl
  cases h

/-- At the end every phrase stops. -/
theorem stops_nil (rank : Rank) : rank.Stops [] := by
  cases rank with
  | factor => trivial
  | power => rfl
  | term => exact ⟨rfl, rfl⟩
  | expression => exact ⟨rfl, rfl, rfl⟩

/-- At a right parenthesis every phrase stops. -/
theorem stops_rightParen (rank : Rank) (rest : List Token) :
    rank.Stops (.rightParen :: rest) := by
  cases rank with
  | factor => trivial
  | power => rfl
  | term => exact ⟨rfl, rfl⟩
  | expression => exact ⟨rfl, rfl, rfl⟩

end Rank

variable {σ : Type}

/-- What may stand one level deeper, if there is such a level. -/
def Descent.inner? (inner : Nat → Action σ Unit) : Nat → Option (Action σ Unit)
  | 0 => none
  | levels + 1 => some (inner levels)

/-- A factor is read over factors one level deeper. -/
theorem Descent.factor_eq (feed : Feed σ) (rounds levels : Nat) :
    factor feed rounds levels = factorOver feed rounds (inner? (factor feed rounds) levels) := by
  cases levels <;> rfl

/-- Expressions one level deeper are read over factors one level deeper. -/
theorem Descent.map_inner? (feed : Feed σ) (rounds levels : Nat) :
    (inner? (factor feed rounds) levels).map (expression feed rounds) =
      inner? (fun deeper => production feed rounds (factor feed rounds deeper) .expression)
        levels := by
  cases levels <;> rfl

namespace Feed

/-! ## What is ahead -/

/-- The lexemes a feed will hand out, the one that is looked at first, up to the end. -/
def Ahead (feed : Feed σ) : List Token → σ → Prop
  | [], state => feed.current state = none
  | token :: tokens, state => feed.current state = some token ∧
      ∃ after, feed.advance state = .ok () after ∧ Ahead feed tokens after

/-- Planting leaves everything that is ahead. -/
structure Steady (feed : Feed σ) : Prop where
  ahead_of_plant {opcode : Opcode} {before after : σ} {tokens : List Token} :
    feed.plant opcode before = .ok () after → feed.Ahead tokens before → feed.Ahead tokens after
  ahead_of_plantConstant {index : Nat} {before after : σ} {tokens : List Token} :
    feed.plantConstant index before = .ok () after → feed.Ahead tokens before →
      feed.Ahead tokens after

variable {feed : Feed σ}

/-- The first lexeme ahead is the one that is looked at. -/
theorem Ahead.current {tokens : List Token} {state : σ} (h : feed.Ahead tokens state) :
    feed.current state = tokens.head? := by
  cases tokens with
  | nil => exact h
  | cons token tokens => exact h.1

/-- A trace takes its lexemes from those ahead. -/
theorem Trace.ahead (steady : feed.Steady) {before after : σ} {tokens all : List Token}
    {words : List Word} (trace : feed.Trace before tokens words after)
    (ahead : feed.Ahead all before) : ∃ left, all = tokens ++ left ∧ feed.Ahead left after := by
  induction trace generalizing all with
  | refl _ => exact ⟨all, rfl, ahead⟩
  | advance looking moved _ ih =>
    cases all with
    | nil => rw [Ahead.current ahead] at looking; cases looking
    | cons first all =>
      obtain ⟨looked, next, moved', further⟩ := ahead
      rw [looking] at looked
      rw [moved] at moved'
      cases looked
      cases moved'
      obtain ⟨left, rfl, rest⟩ := ih further
      exact ⟨left, rfl, rest⟩
  | plant planted _ ih => exact ih (steady.ahead_of_plant planted ahead)
  | plantConstant _ planted _ ih => exact ih (steady.ahead_of_plantConstant planted ahead)

/-! ## What can keep a descent from reading a phrase -/

/-- The words a state refuses to take. -/
inductive Declines (feed : Feed σ) (state : σ) : List Word → Fault → Prop where
  | plant {opcode : Opcode} {fault : Fault} {after : σ}
      (failed : feed.plant opcode state = .error fault after) :
      Declines feed state [opcode.word] fault
  | plantConstant {index : Nat} {fault : Fault} {after : σ}
      (looking : feed.current state = some (.constant index))
      (failed : feed.plantConstant index state = .error fault after) :
      Declines feed state [Opcode.loadConst.word, UInt16.ofNat index] fault

/-- Some of the words cannot be planted when it is their turn. -/
def Blocked (feed : Feed σ) (before : σ) (words : List Word) (fault : Fault) : Prop :=
  ∃ tokens planted mid next more, feed.Trace before tokens planted mid ∧
    feed.Declines mid next fault ∧ words = planted ++ next ++ more

/-- What can keep a descent from reading a phrase: a word of its code that cannot be planted, or
its depth. -/
def Cut (feed : Feed σ) (before : σ) (words : List Word) (deep : Prop) (fault : Fault) : Prop :=
  feed.Blocked before words fault ∨ fault.code = .tooDeeplyNested ∧ deep

/-- The words are planted and the descent goes on from there, or it has been cut. -/
inductive Reaches (feed : Feed σ) (before : σ) (words : List Word) (deep : Prop)
    (next : σ → EStateM.Result Fault σ Unit → Prop) : EStateM.Result Fault σ Unit → Prop where
  | through {tokens : List Token} {mid : σ} {result : EStateM.Result Fault σ Unit}
      (trace : feed.Trace before tokens words mid) (goesOn : next mid result) :
      Reaches feed before words deep next result
  | cut {fault : Fault} {after : σ} (cut : feed.Cut before words deep fault) :
      Reaches feed before words deep next (.error fault after)

/-- A step that has ended in a state in which given lexemes are ahead. -/
def EndsBefore (feed : Feed σ) (rest : List Token) (mid : σ)
    (result : EStateM.Result Fault σ Unit) : Prop :=
  result = .ok () mid ∧ feed.Ahead rest mid

section Steps

variable {before : σ} {words : List Word} {deep : Prop} {rest : List Token}
  {goal : σ → EStateM.Result Fault σ Unit → Prop}

/-- What cuts the first words cuts all of them. -/
theorem Cut.append {fault : Fault} (h : feed.Cut before words deep fault) (more : List Word) :
    feed.Cut before (words ++ more) deep fault := by
  rcases h with ⟨tokens, planted, mid, next, left, trace, declined, rfl⟩ | tooDeep
  · exact Or.inl ⟨tokens, planted, mid, next, left ++ more, trace, declined, by simp⟩
  · exact Or.inr tooDeep

/-- What cuts the last words cuts all of them. -/
theorem Trace.cut {mid : σ} {tokens : List Token} {more : List Word} {fault : Fault}
    (trace : feed.Trace before tokens words mid) (h : feed.Cut mid more deep fault) :
    feed.Cut before (words ++ more) deep fault := by
  rcases h with ⟨tokens', planted, last, next, left, trace', declined, rfl⟩ | tooDeep
  · exact Or.inl ⟨_, _, last, next, left, trace.trans trace', declined, by simp⟩
  · exact Or.inr tooDeep

/-- The depth counts from a phrase to all it is part of. -/
theorem Reaches.deeper {deep' : Prop} {result : EStateM.Result Fault σ Unit}
    (h : feed.Reaches before words deep goal result) (weaken : deep → deep') :
    feed.Reaches before words deep' goal result := by
  cases h with
  | through trace goesOn => exact .through trace goesOn
  | cut cut =>
    rcases cut with blocked | ⟨code, tooDeep⟩
    · exact .cut (Or.inl blocked)
    · exact .cut (Or.inr ⟨code, weaken tooDeep⟩)

/-- What is reached from the end of a trace is reached from its start. -/
theorem Trace.reaches {mid : σ} {tokens : List Token} {more : List Word}
    {result : EStateM.Result Fault σ Unit} (trace : feed.Trace before tokens words mid)
    (h : feed.Reaches mid more deep goal result) :
    feed.Reaches before (words ++ more) deep goal result := by
  cases h with
  | through further goesOn => exact .through (trace.trans further) goesOn
  | cut cut => exact .cut (trace.cut cut)

/-- Two steps in a row plant the words of both. -/
theorem Reaches.bind {first second : Action σ Unit} {more : List Word}
    (h : feed.Reaches before words deep (feed.EndsBefore rest) (first before))
    (next : ∀ mid, feed.Ahead rest mid → feed.Reaches mid more deep goal (second mid)) :
    feed.Reaches before (words ++ more) deep goal ((first >>= fun _ => second) before) := by
  generalize result : first before = reached at h
  cases h with
  | cut cut =>
    rw [Action.bind_of_error result]
    exact .cut (cut.append more)
  | through trace goesOn =>
    obtain ⟨rfl, ahead⟩ := goesOn
    rw [Action.bind_of_ok result]
    exact trace.reaches (next _ ahead)

/-- Nothing is planted, and what comes next is known. -/
theorem reaches_refl {result : EStateM.Result Fault σ Unit} (h : goal before result) :
    feed.Reaches before [] deep goal result :=
  .through (.refl before) h

/-- Going past a lexeme that is ahead. -/
theorem reaches_advance {token : Token} (ahead : feed.Ahead (token :: rest) before) :
    feed.Reaches before [] deep (feed.EndsBefore rest) (feed.advance before) := by
  obtain ⟨looking, after, moved, further⟩ := ahead
  exact .through (.advance looking moved (.refl after)) ⟨moved, further⟩

/-- Going past a lexeme that is ahead comes first. -/
theorem reaches_behind {token : Token} {second : Action σ Unit}
    (ahead : feed.Ahead (token :: rest) before)
    (next : ∀ mid, feed.Ahead rest mid → feed.Reaches mid words deep goal (second mid)) :
    feed.Reaches before words deep goal ((feed.advance >>= fun _ => second) before) := by
  rw [← List.nil_append words]
  exact (reaches_advance ahead).bind next

/-- Going past a lexeme that is ahead comes last. -/
theorem Reaches.advance {token : Token} {first : Action σ Unit}
    (h : feed.Reaches before words deep (feed.EndsBefore (token :: rest)) (first before)) :
    feed.Reaches before words deep (feed.EndsBefore rest)
      ((first >>= fun _ => feed.advance) before) := by
  rw [← List.append_nil words]
  exact h.bind fun _ ahead => reaches_advance ahead

/-- Going past a lexeme that has to be there and is. -/
theorem reaches_expect {token : Token} (code : FaultCode)
    (ahead : feed.Ahead (token :: rest) before) :
    feed.Reaches before [] deep (feed.EndsBefore rest)
      (Descent.expect feed token code before) := by
  rw [Descent.expect, Action.get_bind, if_pos ahead.1]
  exact reaches_advance ahead

/-- Planting an instruction. -/
theorem reaches_plant (steady : feed.Steady) (opcode : Opcode) (ahead : feed.Ahead rest before) :
    feed.Reaches before [opcode.word] deep (feed.EndsBefore rest) (feed.plant opcode before) := by
  cases result : feed.plant opcode before with
  | error fault after =>
    exact .cut (Or.inl ⟨[], [], before, _, [], .refl before, .plant result, rfl⟩)
  | ok _ after =>
    exact .through (.plant result (.refl after)) ⟨rfl, steady.ahead_of_plant result ahead⟩

/-- Planting the instruction that loads the constant that is looked at. -/
theorem reaches_plantConstant (steady : feed.Steady) {index : Nat}
    (ahead : feed.Ahead (.constant index :: rest) before) :
    feed.Reaches before [Opcode.loadConst.word, UInt16.ofNat index] deep
      (feed.EndsBefore (.constant index :: rest)) (feed.plantConstant index before) := by
  cases result : feed.plantConstant index before with
  | error fault after =>
    exact .cut (Or.inl ⟨[], [], before, _, [], .refl before, .plantConstant ahead.1 result, rfl⟩)
  | ok _ after =>
    exact .through (.plantConstant ahead.1 result (.refl after))
      ⟨rfl, steady.ahead_of_plantConstant result ahead⟩

end Steps

/-! ## Phrases -/

/-- A phrase of a rank is read where it stops. -/
def ReadsPhrase (feed : Feed σ) (rounds : Nat) (rank : Rank) (tokens : List Token) (expr : Expr) :
    Prop :=
  ∀ levels rest before, (tokens ++ rest).length < rounds → feed.Ahead (tokens ++ rest) before →
    rank.Stops rest →
    feed.Reaches before expr.code (levels < expr.depth) (feed.EndsBefore rest)
      (Descent.production feed rounds (Descent.factor feed rounds levels) rank before)

/-- A phrase of a rank is read wherever its last operand stops, and its chain goes on with more
rounds than there are lexemes left. -/
def EntersChain (feed : Feed σ) (rounds : Nat) (rank : Rank) (tokens : List Token) (expr : Expr) :
    Prop :=
  ∀ levels rest before, (tokens ++ rest).length < rounds → feed.Ahead (tokens ++ rest) before →
    rank.tighter.Stops rest →
    feed.Reaches before expr.code (levels < expr.depth)
      (fun mid result => feed.Ahead rest mid ∧ ∃ left, rest.length < left ∧
        result = Descent.chain feed rank.operator?
          (Descent.production feed rounds (Descent.factor feed rounds levels) rank.tighter)
          left mid)
      (Descent.production feed rounds (Descent.factor feed rounds levels) rank before)

section Phrases

variable {rounds : Nat}

/-- A chain ends where the phrase stops. -/
theorem EntersChain.readsPhrase {rank : Rank} {tokens : List Token} {expr : Expr}
    (h : feed.EntersChain rounds rank tokens expr) : feed.ReadsPhrase rounds rank tokens expr := by
  intro levels rest before short ahead stops
  have entered := h levels rest before short ahead stops.tighter
  generalize Descent.production _ _ _ _ _ = result at entered
  cases entered with
  | cut cut => exact .cut cut
  | through trace goesOn =>
    obtain ⟨aheadRest, left, _, rfl⟩ := goesOn
    refine .through trace ⟨?_, aheadRest⟩
    exact Descent.chain_of_none (by rw [aheadRest.current]; exact stops.head) left

/-- A phrase of the next rank enters the chain of a rank. -/
theorem ReadsPhrase.entersChain {rank : Rank} (proper : rank ≠ .factor) {tokens : List Token}
    {expr : Expr} (h : feed.ReadsPhrase rounds rank.tighter tokens expr) :
    feed.EntersChain rounds rank tokens expr := by
  intro levels rest before short ahead stops
  rw [Descent.production_ranked feed rounds _ proper, ← List.append_nil expr.code]
  refine (h levels rest before short ahead stops).bind ?_
  intro mid aheadRest
  refine reaches_refl ⟨aheadRest, rounds, ?_, rfl⟩
  simp only [List.length_append] at short
  omega

/-- A chain goes on with an operator and its right operand. -/
theorem EntersChain.more (steady : feed.Steady) {rank : Rank} {left right : List Token}
    {operator : Token} {op : BinaryOp} {lhs rhs : Expr}
    (first : feed.EntersChain rounds rank left lhs)
    (isOperator : rank.operator? operator = some op)
    (last : feed.ReadsPhrase rounds rank.tighter right rhs) :
    feed.EntersChain rounds rank (left ++ operator :: right) (.binary op lhs rhs) := by
  intro levels rest before short ahead stops
  rw [List.append_assoc, List.cons_append] at short ahead
  have entered := first levels (operator :: (right ++ rest)) before short ahead
    (Rank.stops_operator _ isOperator)
  have deepLeft : levels < lhs.depth → levels < (Expr.binary op lhs rhs).depth := fun deep =>
    Nat.lt_of_lt_of_le deep (Nat.le_max_left _ _)
  have deepRight : levels < rhs.depth → levels < (Expr.binary op lhs rhs).depth := fun deep =>
    Nat.lt_of_lt_of_le deep (Nat.le_max_right _ _)
  rw [Expr.code, List.append_assoc]
  generalize Descent.production _ _ _ rank _ = result at entered ⊢
  cases entered.deeper deepLeft with
  | cut cut => exact .cut (cut.append _)
  | through trace goesOn =>
    obtain ⟨aheadOperator, left, enough, rfl⟩ := goesOn
    -- The operator is still ahead, so the rounds that are left are more than one.
    obtain ⟨further, rfl⟩ : ∃ further, left = further + 1 :=
      ⟨left - 1, by simp only [List.length_cons] at enough; omega⟩
    rw [Descent.chain_of_some (by rw [aheadOperator.current]; exact isOperator)]
    have operandShort : (right ++ rest).length < rounds := by
      simp only [List.length_append, List.length_cons] at short ⊢
      omega
    refine trace.reaches ?_
    refine reaches_behind aheadOperator ?_
    intro afterOperator aheadRight
    refine ((last levels rest afterOperator operandShort aheadRight stops).deeper deepRight).bind ?_
    intro afterOperand aheadRest
    rw [← List.append_nil [_]]
    refine (reaches_plant steady (.binary op) aheadRest).bind ?_
    intro afterPlant aheadRest
    refine reaches_refl ⟨aheadRest, further, ?_, rfl⟩
    simp only [List.length_append, List.length_cons] at enough
    omega

/-- What stands one level deeper is read, or there is no such level. -/
theorem reaches_nested {levels : Nat} {inner : Nat → Action σ Unit}
    {words : List Word} {depth : Nat} {rest : List Token} {before : σ}
    (reads : ∀ deeper, levels = deeper + 1 →
      feed.Reaches before words (deeper < depth) (feed.EndsBefore rest) (inner deeper before)) :
    feed.Reaches before words (levels < depth + 1) (feed.EndsBefore rest)
      (Descent.nested feed (Descent.inner? inner levels) before) := by
  cases levels with
  | zero => exact .cut (Or.inr ⟨rfl, Nat.succ_pos _⟩)
  | succ deeper => exact (reads deeper rfl).deeper Nat.succ_lt_succ

/-- An expression in parentheses is read up to the right one. -/
theorem ReadsPhrase.inParentheses {tokens : List Token} {expr : Expr}
    (h : feed.ReadsPhrase rounds .expression tokens expr) {levels : Nat} {rest : List Token}
    {before : σ} (short : (tokens ++ .rightParen :: rest).length < rounds)
    (ahead : feed.Ahead (tokens ++ .rightParen :: rest) before) :
    feed.Reaches before expr.code (levels < expr.depth + 1)
      (feed.EndsBefore (.rightParen :: rest))
      (Descent.nested feed ((Descent.inner? (Descent.factor feed rounds) levels).map
        (Descent.expression feed rounds)) before) := by
  rw [Descent.map_inner?]
  refine reaches_nested fun deeper _ => ?_
  exact h deeper _ before short ahead (Rank.stops_rightParen _ rest)

/-- A literal is read. -/
theorem readsPhrase_literal (steady : feed.Steady) (index : Nat) :
    feed.ReadsPhrase rounds .factor [.constant index] (.literal index) := by
  intro levels rest before _ ahead _
  rw [Descent.production, Descent.factor_eq, Descent.factorOver, Action.get_bind, ahead.current]
  exact (reaches_plantConstant steady ahead).advance

/-- The name of a variable is read. -/
theorem readsPhrase_load (steady : feed.Steady) (slot : Slot) :
    feed.ReadsPhrase rounds .factor [.load slot] (.load slot) := by
  intro levels rest before _ ahead _
  rw [Descent.production, Descent.factor_eq, Descent.factorOver, Action.get_bind, ahead.current]
  exact (reaches_plant steady (.load slot) ahead).advance

/-- The name of the circle constant is read. -/
theorem readsPhrase_pi (steady : feed.Steady) : feed.ReadsPhrase rounds .factor [.pi] .pi := by
  intro levels rest before _ ahead _
  rw [Descent.production, Descent.factor_eq, Descent.factorOver, Action.get_bind, ahead.current]
  exact (reaches_plant steady .pi ahead).advance

/-- An expression in parentheses is read. -/
theorem ReadsPhrase.group {tokens : List Token} {expr : Expr}
    (h : feed.ReadsPhrase rounds .expression tokens expr) :
    feed.ReadsPhrase rounds .factor (.leftParen :: tokens ++ [.rightParen]) (.group expr) := by
  intro levels rest before short ahead _
  simp only [List.cons_append, List.append_assoc, List.nil_append, List.length_cons] at short ahead
  rw [Descent.production, Descent.factor_eq, Descent.factorOver, Action.get_bind, ahead.current]
  refine reaches_behind ahead ?_
  intro inside aheadInside
  rw [← List.append_nil (Expr.group expr).code]
  refine (h.inParentheses (by omega) aheadInside).bind ?_
  intro behind aheadBehind
  exact reaches_expect _ aheadBehind

/-- A factor with a sign in front of it is read. -/
theorem ReadsPhrase.signed (steady : feed.Steady) (sign : Sign) {tokens : List Token} {expr : Expr}
    (h : feed.ReadsPhrase rounds .factor tokens expr) :
    feed.ReadsPhrase rounds .factor (.additive sign :: tokens) (.signed sign expr) := by
  intro levels rest before short ahead _
  simp only [List.cons_append, List.length_cons] at short ahead
  rw [Descent.production, Descent.factor_eq, Descent.factorOver, Action.get_bind, ahead.current]
  refine reaches_behind ahead ?_
  intro operand aheadOperand
  have reads : feed.Reaches operand expr.code (levels < expr.depth + 1) (feed.EndsBefore rest)
      (Descent.nested feed (Descent.inner? (Descent.factor feed rounds) levels) operand) :=
    reaches_nested fun deeper _ => h deeper rest operand (by omega) aheadOperand trivial
  cases sign with
  | plus =>
    rw [Expr.code, ← List.append_nil expr.code]
    refine reads.bind ?_
    intro behind aheadBehind
    exact reaches_refl ⟨rfl, aheadBehind⟩
  | minus =>
    refine reads.bind ?_
    intro behind aheadBehind
    exact reaches_plant steady (.unary .neg) aheadBehind

/-- A function with its argument is read. -/
theorem ReadsPhrase.call (steady : feed.Steady) (op : UnaryOp) {tokens : List Token} {expr : Expr}
    (h : feed.ReadsPhrase rounds .expression tokens expr) :
    feed.ReadsPhrase rounds .factor (.function op :: .leftParen :: tokens ++ [.rightParen])
      (.call op expr) := by
  intro levels rest before short ahead _
  simp only [List.cons_append, List.append_assoc, List.nil_append, List.length_cons] at short ahead
  rw [Descent.production, Descent.factor_eq, Descent.factorOver, Action.get_bind, ahead.current]
  refine reaches_behind ahead ?_
  intro name aheadName
  rw [← List.nil_append (Expr.call op expr).code]
  refine (reaches_expect _ aheadName).bind ?_
  intro inside aheadInside
  refine (h.inParentheses (by omega) aheadInside).bind ?_
  intro behind aheadBehind
  rw [← List.nil_append [_]]
  refine (reaches_expect _ aheadBehind).bind ?_
  intro call aheadCall
  exact reaches_plant steady (.unary op) aheadCall

/-- Phrases of all ranks are read, and those of all ranks but the tightest enter their chains. -/
theorem readsPhrase_of_derives (steady : feed.Steady) {rank : Rank} {tokens : List Token}
    {expr : Expr} (derives : Derives rank tokens expr) :
    feed.ReadsPhrase rounds rank tokens expr ∧
      (rank ≠ .factor → feed.EntersChain rounds rank tokens expr) := by
  have onlyReads {tokens : List Token} {expr : Expr}
      (h : feed.ReadsPhrase rounds .factor tokens expr) :
      feed.ReadsPhrase rounds .factor tokens expr ∧
        (Rank.factor ≠ .factor → feed.EntersChain rounds .factor tokens expr) :=
    ⟨h, fun impossible => absurd rfl impossible⟩
  -- A phrase with operators needs the second form of its left part and the first of its right one.
  induction derives with
  | single proper _ ih =>
    have enters := ih.1.entersChain proper
    exact ⟨enters.readsPhrase, fun _ => enters⟩
  | more _ isOperator _ ihFirst ihLast =>
    have enters := (ihFirst.2 (Rank.ne_factor isOperator)).more steady isOperator ihLast.1
    exact ⟨enters.readsPhrase, fun _ => enters⟩
  | literal index => exact onlyReads (readsPhrase_literal steady index)
  | load slot => exact onlyReads (readsPhrase_load steady slot)
  | pi => exact onlyReads (readsPhrase_pi steady)
  | group _ ih => exact onlyReads ih.1.group
  | signed sign _ ih => exact onlyReads (ih.1.signed steady sign)
  | call op _ ih => exact onlyReads (ih.1.call steady op)

end Phrases

/-- An expression that is all that is ahead is read to its end, or it has been cut. -/
theorem reaches_complete (steady : feed.Steady) {tokens : List Token} {expr : Expr}
    (derives : Derives .expression tokens expr) {rounds : Nat} (maxDepth : Nat) {first : σ}
    (short : tokens.length < rounds) (ahead : feed.Ahead tokens first) :
    feed.Reaches first expr.code (maxDepth < expr.depth) (feed.EndsBefore [])
      (feed.complete rounds maxDepth first) := by
  have phrase : feed.ReadsPhrase rounds .expression tokens expr :=
    (readsPhrase_of_derives steady derives).1
  have reads := phrase maxDepth [] first
    (by rwa [List.append_nil]) (by rwa [List.append_nil]) (Rank.stops_nil _)
  rw [← List.append_nil expr.code]
  refine reads.bind ?_
  intro last aheadLast
  rw [Action.get_bind, aheadLast.current]
  exact reaches_refl ⟨rfl, aheadLast⟩

end Feed

end TapeCalc
