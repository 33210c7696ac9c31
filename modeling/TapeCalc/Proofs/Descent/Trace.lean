import TapeCalc.Descent
import TapeCalc.Expr.Grammar
import TapeCalc.Proofs.Program.Stack

/-!
# What a descent leaves behind

A descent goes past lexemes and plants instructions, and that is all it does to its
feed.  A trace keeps both in order.  A descent that succeeds has gone past a phrase of
the grammar and planted its code, and the phrase nests no deeper than the levels it was
given.  A descent that fails has left a trace up to one step that was refused.

Nothing here depends on where the lexemes come from.  The only law a feed has to obey
is that planting does not change the lexeme that is looked at.

Main definitions:

- {lit}`Feed.Trace`: the lexemes passed and the words planted between two states.
- {lit}`Feed.Refuses`: a step that fails, and the fault it fails with.
- {lit}`Feed.Ends`: what a step has done when it ends, either way.

Main results:

- Theorem {lit}`Feed.ends_production`: every production reads phrases of its rank.
- Theorem {lit}`Feed.whole_cases`: the three ways a whole descent can end.
-/

namespace TapeCalc

variable {σ : Type}

namespace Feed

/-- Planting leaves the lexeme that is looked at. -/
structure Lawful (feed : Feed σ) : Prop where
  current_of_plant {opcode : Opcode} {before after : σ} :
    feed.plant opcode before = .ok () after → feed.current after = feed.current before
  current_of_plantConstant {index : Nat} {before after : σ} :
    feed.plantConstant index before = .ok () after → feed.current after = feed.current before

variable (feed : Feed σ)

/-! ## Traces -/

/-- The lexemes a descent has gone past and the words it has planted between two states. -/
inductive Trace : σ → List Token → List Word → σ → Prop where
  | refl (state : σ) : Trace state [] [] state
  | advance {before mid after : σ} {token : Token} {tokens : List Token} {words : List Word}
      (looking : feed.current before = some token) (moved : feed.advance before = .ok () mid)
      (rest : Trace mid tokens words after) : Trace before (token :: tokens) words after
  | plant {before mid after : σ} {opcode : Opcode} {tokens : List Token} {words : List Word}
      (planted : feed.plant opcode before = .ok () mid) (rest : Trace mid tokens words after) :
      Trace before tokens (opcode.word :: words) after
  | plantConstant {before mid after : σ} {index : Nat} {tokens : List Token} {words : List Word}
      (looking : feed.current before = some (.constant index))
      (planted : feed.plantConstant index before = .ok () mid)
      (rest : Trace mid tokens words after) :
      Trace before tokens (Opcode.loadConst.word :: UInt16.ofNat index :: words) after

variable {feed}

/-- Traces one after the other are one trace. -/
theorem Trace.trans {before mid after : σ} {tokens tokens' : List Token}
    {words words' : List Word} (first : feed.Trace before tokens words mid)
    (second : feed.Trace mid tokens' words' after) :
    feed.Trace before (tokens ++ tokens') (words ++ words') after := by
  induction first with
  | refl _ => exact second
  | advance looking moved _ ih => exact .advance looking moved (ih second)
  | plant planted _ ih => exact .plant planted (ih second)
  | plantConstant looking planted _ ih => exact .plantConstant looking planted (ih second)

variable (feed)

/-! ## Refusals -/

/-- The codes of the faults a descent finds by itself. -/
def grammarFaults : List FaultCode :=
  [.syntaxError, .expectingLeftParenthesis, .expectingRightParenthesis, .tooDeeplyNested]

/-- A step that fails: the next lexeme cannot be read, an instruction finds no place, or the
lexeme that is looked at cannot stand where it stands. -/
inductive Refuses : σ → Fault → σ → Prop where
  | advance {before after : σ} {fault : Fault} (looking : (feed.current before).isSome)
      (failed : feed.advance before = .error fault after) : Refuses before fault after
  | plant {before after : σ} {fault : Fault} {opcode : Opcode}
      (failed : feed.plant opcode before = .error fault after) : Refuses before fault after
  | plantConstant {before after : σ} {fault : Fault} {index : Nat}
      (looking : feed.current before = some (.constant index))
      (failed : feed.plantConstant index before = .error fault after) :
      Refuses before fault after
  | grammar {state : σ} {code : FaultCode} {detail : String} (found : code ∈ grammarFaults) :
      Refuses state ⟨code, feed.column state, detail⟩ state

/-- A trace up to a step that fails. -/
def Stuck (before : σ) (fault : Fault) (after : σ) : Prop :=
  ∃ tokens words mid, feed.Trace before tokens words mid ∧ feed.Refuses mid fault after

/-- What a step has done when it ends: a trace with a property of what was passed and planted,
or a trace up to a refusal. -/
def Ends (before : σ) (post : List Token → List Word → σ → Prop) :
    EStateM.Result Fault σ Unit → Prop
  | .ok () after => ∃ tokens words, feed.Trace before tokens words after ∧ post tokens words after
  | .error fault after => feed.Stuck before fault after

variable {feed}

/-- A step that fails is stuck where it stands. -/
theorem Refuses.stuck {before after : σ} {fault : Fault} (h : feed.Refuses before fault after) :
    feed.Stuck before fault after := ⟨[], [], before, .refl before, h⟩

/-- Who gets stuck later is stuck. -/
theorem Trace.stuck {before mid after : σ} {tokens : List Token} {words : List Word}
    {fault : Fault} (trace : feed.Trace before tokens words mid)
    (stuck : feed.Stuck mid fault after) : feed.Stuck before fault after := by
  obtain ⟨tokens', words', last, further, refused⟩ := stuck
  exact ⟨_, _, last, trace.trans further, refused⟩

/-! ## Steps in a row -/

section Steps

variable {before : σ} {post goal : List Token → List Word → σ → Prop}

/-- What holds of less holds of more. -/
theorem Ends.mono {result : EStateM.Result Fault σ Unit} (h : feed.Ends before post result)
    (weaken : ∀ tokens words after, post tokens words after → goal tokens words after) :
    feed.Ends before goal result := by
  cases result with
  | ok _ after =>
    obtain ⟨tokens, words, trace, holds⟩ := h
    exact ⟨tokens, words, trace, weaken _ _ _ holds⟩
  | error fault after => exact h

/-- Two steps in a row: the second goes on from the trace of the first. -/
theorem Ends.bind {first second : Action σ Unit} (h : feed.Ends before post (first before))
    (next : ∀ tokens words mid, post tokens words mid →
      feed.Ends mid (fun tokens' words' after => goal (tokens ++ tokens') (words ++ words') after)
        (second mid)) :
    feed.Ends before goal ((first >>= fun _ => second) before) := by
  cases result : first before with
  | error fault after =>
    rw [Action.bind_of_error result]
    rwa [result] at h
  | ok _ mid =>
    rw [result] at h
    obtain ⟨tokens, words, trace, holds⟩ := h
    have further := next tokens words mid holds
    rw [Action.bind_of_ok result]
    cases last : second mid with
    | error fault after =>
      rw [last] at further
      exact trace.stuck further
    | ok _ after =>
      rw [last] at further
      obtain ⟨tokens', words', trace', holds'⟩ := further
      exact ⟨_, _, trace.trans trace', holds'⟩

/-- A step that does nothing. -/
theorem ends_pure (holds : goal [] [] before) :
    feed.Ends before goal ((pure () : Action σ Unit) before) :=
  ⟨[], [], .refl before, holds⟩

/-- Going past the lexeme that is looked at. -/
theorem ends_advance {token : Token} (looking : feed.current before = some token) :
    feed.Ends before (fun tokens words _ => tokens = [token] ∧ words = [])
      (feed.advance before) := by
  cases result : feed.advance before with
  | error fault after => exact (Refuses.advance (by simp [looking]) result).stuck
  | ok _ after => exact ⟨_, _, .advance looking result (.refl after), rfl, rfl⟩

/-- Planting an instruction. -/
theorem ends_plant (lawful : feed.Lawful) (opcode : Opcode) :
    feed.Ends before (fun tokens words after => tokens = [] ∧ words = [opcode.word] ∧
      feed.current after = feed.current before) (feed.plant opcode before) := by
  cases result : feed.plant opcode before with
  | error fault after => exact (Refuses.plant result).stuck
  | ok _ after =>
    exact ⟨_, _, .plant result (.refl after), rfl, rfl, lawful.current_of_plant result⟩

/-- Planting the instruction that loads the constant that is looked at. -/
theorem ends_plantConstant (lawful : feed.Lawful) {index : Nat}
    (looking : feed.current before = some (.constant index)) :
    feed.Ends before (fun tokens words after => tokens = [] ∧
      words = [Opcode.loadConst.word, UInt16.ofNat index] ∧
      feed.current after = feed.current before ∧
      feed.plantConstant index before = .ok () after) (feed.plantConstant index before) := by
  cases result : feed.plantConstant index before with
  | error fault after => exact (Refuses.plantConstant looking result).stuck
  | ok _ after =>
    exact ⟨_, _, .plantConstant looking result (.refl after), rfl, rfl,
      lawful.current_of_plantConstant result, rfl⟩

/-- Failing with a fault of the grammar. -/
theorem ends_fail {code : FaultCode} (detail : String) (found : code ∈ grammarFaults) :
    feed.Ends before goal (Descent.fail feed code detail before) :=
  (Refuses.grammar found).stuck

/-- Going past a lexeme that has to be there. -/
theorem ends_expect (token : Token) {code : FaultCode} (found : code ∈ grammarFaults) :
    feed.Ends before (fun tokens words _ => tokens = [token] ∧ words = [])
      (Descent.expect feed token code before) := by
  by_cases looking : feed.current before = some token
  · rw [Descent.expect, Action.get_bind, if_pos looking]
    exact ends_advance looking
  · rw [Descent.expect, Action.get_bind, if_neg looking]
    exact ends_fail "" found

end Steps

end Feed

/-! ## Productions -/

namespace Descent

variable (feed : Feed σ) (rounds : Nat)

/-- How phrases of a rank are read, given how factors are. -/
def production (operand : Action σ Unit) : Rank → Action σ Unit
  | .factor => operand
  | .power => ranked feed rounds Token.power? operand
  | .term => ranked feed rounds Token.multiplicative? (ranked feed rounds Token.power? operand)
  | .expression => expression feed rounds operand

/-- Phrases of all ranks but the tightest are operators over phrases of the next rank. -/
theorem production_ranked (operand : Action σ Unit) {rank : Rank} (proper : rank ≠ .factor) :
    production feed rounds operand rank =
      ranked feed rounds rank.operator? (production feed rounds operand rank.tighter) := by
  cases rank with
  | factor => exact absurd rfl proper
  | _ => rfl

variable {feed}

/-- Without an operator to look at a chain is over. -/
theorem chain_of_none {operator? : Token → Option BinaryOp} {operand : Action σ Unit} {before : σ}
    (h : (feed.current before).bind operator? = none) (rounds : Nat) :
    chain feed operator? operand rounds before = .ok () before := by
  cases rounds with
  | zero => rfl
  | succ rounds =>
    rw [chain, Action.get_bind, h]
    rfl

/-- With an operator to look at a chain takes it and its right operand. -/
theorem chain_of_some {operator? : Token → Option BinaryOp} {operand : Action σ Unit} {before : σ}
    {op : BinaryOp} (h : (feed.current before).bind operator? = some op) (rounds : Nat) :
    chain feed operator? operand (rounds + 1) before =
      (feed.advance >>= fun _ => operand >>= fun _ => feed.plant (.binary op) >>= fun _ =>
        chain feed operator? operand rounds) before := by
  rw [chain, Action.get_bind, h]

end Descent

namespace Feed

/-- The tokens are a phrase of a rank and the words its code.  It nests no deeper than a number
of levels, and there was place for its literals. -/
def Phrase (feed : Feed σ) (rank : Rank) (levels : Nat) (tokens : List Token)
    (words : List Word) : Prop :=
  ∃ expr, Derives rank tokens expr ∧ words = expr.code ∧ expr.depth ≤ levels ∧
    ∀ index ∈ expr.literals, ∃ before after, feed.plantConstant index before = .ok () after

/-- An action that reads phrases of a rank. -/
def Reads (feed : Feed σ) (rank : Rank) (levels : Nat) (action : Action σ Unit) : Prop :=
  ∀ before, feed.Ends before (fun tokens words _ => feed.Phrase rank levels tokens words)
    (action before)

variable {feed : Feed σ}

/-- A phrase, an operator and a phrase of the next rank are a phrase. -/
theorem Phrase.more {rank : Rank} {levels : Nat} {left right : List Token} {operator : Token}
    {op : BinaryOp} {lhs rhs : List Word} (first : feed.Phrase rank levels left lhs)
    (isOperator : rank.operator? operator = some op)
    (last : feed.Phrase rank.tighter levels right rhs) :
    feed.Phrase rank levels (left ++ operator :: right)
      (lhs ++ rhs ++ [(Opcode.binary op).word]) := by
  obtain ⟨exprLeft, derivesLeft, rfl, depthLeft, plantedLeft⟩ := first
  obtain ⟨exprRight, derivesRight, rfl, depthRight, plantedRight⟩ := last
  refine ⟨.binary op exprLeft exprRight, .more derivesLeft isOperator derivesRight, rfl,
    Nat.max_le.mpr ⟨depthLeft, depthRight⟩, ?_⟩
  intro index member
  rcases List.mem_append.mp member with left | right
  · exact plantedLeft index left
  · exact plantedRight index right

/-- Operators of a rank go on with a phrase of the rank. -/
theorem ends_chain (lawful : feed.Lawful) {rank : Rank} {levels : Nat} {operand : Action σ Unit}
    (reads : feed.Reads rank.tighter levels operand) (rounds : Nat) {before : σ}
    {left : List Token} {lhs : List Word} (phrase : feed.Phrase rank levels left lhs) :
    feed.Ends before (fun tokens words _ => feed.Phrase rank levels (left ++ tokens) (lhs ++ words))
      (Descent.chain feed rank.operator? operand rounds before) := by
  induction rounds generalizing before left lhs with
  | zero => exact ends_pure (by simpa using phrase)
  | succ rounds ih =>
    cases found : (feed.current before).bind rank.operator? with
    | none =>
      rw [Descent.chain_of_none found]
      exact ends_pure (by simpa using phrase)
    | some op =>
      obtain ⟨operator, looking, isOperator⟩ := Option.bind_eq_some_iff.mp found
      rw [Descent.chain_of_some found]
      refine (ends_advance looking).bind ?_
      rintro _ _ afterOperator ⟨rfl, rfl⟩
      refine (reads afterOperator).bind ?_
      intro right rhs afterOperand operandPhrase
      refine (ends_plant lawful (.binary op)).bind ?_
      rintro _ _ afterPlant ⟨rfl, rfl, _⟩
      refine (ih (phrase.more isOperator operandPhrase)).mono ?_
      intro tokens words _ whole
      simpa using whole

/-- A phrase of the next rank with operators behind it. -/
theorem reads_ranked (lawful : feed.Lawful) (rank : Rank) (proper : rank ≠ .factor) {levels : Nat}
    {operand : Action σ Unit} (reads : feed.Reads rank.tighter levels operand) (rounds : Nat) :
    feed.Reads rank levels (Descent.ranked feed rounds rank.operator? operand) := by
  intro before
  refine (reads before).bind ?_
  rintro tokens words mid ⟨expr, derives, same, depth, planted⟩
  exact ends_chain lawful reads rounds ⟨expr, .single proper derives, same, depth, planted⟩

/-- If factors are read, phrases of every rank are. -/
theorem reads_production (lawful : feed.Lawful) {levels : Nat} {operand : Action σ Unit}
    (reads : feed.Reads .factor levels operand) (rounds : Nat) (rank : Rank) :
    feed.Reads rank levels (Descent.production feed rounds operand rank) := by
  have power := reads_ranked lawful .power (by decide) reads rounds
  have term := reads_ranked lawful .term (by decide) power rounds
  cases rank with
  | factor => exact reads
  | power => exact power
  | term => exact term
  | expression => exact reads_ranked lawful .expression (by decide) term rounds

/-- What may stand one level deeper: nothing if no level is left, or phrases of a rank that nest
one level less. -/
def ReadsInner (feed : Feed σ) (rank : Rank) (levels : Nat) (inner? : Option (Action σ Unit)) :
    Prop :=
  ∀ inner, inner? = some inner → ∃ deeper, levels = deeper + 1 ∧ feed.Reads rank deeper inner

/-- Expressions stand one level deeper where factors do. -/
theorem ReadsInner.expression (lawful : feed.Lawful) {levels : Nat}
    {inner? : Option (Action σ Unit)} (reads : feed.ReadsInner .factor levels inner?)
    (rounds : Nat) :
    feed.ReadsInner .expression levels (inner?.map (Descent.expression feed rounds)) := by
  intro inner found
  obtain ⟨operand, given, rfl⟩ := Option.map_eq_some_iff.mp found
  obtain ⟨deeper, same, readsOperand⟩ := reads operand given
  exact ⟨deeper, same, reads_production lawful readsOperand rounds .expression⟩

/-- One level deeper, if there is one. -/
theorem ends_nested {rank : Rank} {levels : Nat} {inner? : Option (Action σ Unit)}
    (reads : feed.ReadsInner rank levels inner?) (before : σ) :
    feed.Ends before
      (fun tokens words _ => ∃ deeper, levels = deeper + 1 ∧ feed.Phrase rank deeper tokens words)
      (Descent.nested feed inner? before) := by
  cases inner? with
  | none => exact ends_fail "" (by simp [grammarFaults])
  | some inner =>
    obtain ⟨deeper, same, readsInner⟩ := reads inner rfl
    exact (readsInner before).mono fun _ _ _ phrase => ⟨deeper, same, phrase⟩

section Factors

variable {levels : Nat} {tokens : List Token} {words : List Word}

/-- An expression in parentheses is a factor of the same code, one level up. -/
theorem Phrase.group (inner : feed.Phrase .expression levels tokens words) :
    feed.Phrase .factor (levels + 1) (.leftParen :: tokens ++ [.rightParen]) words := by
  obtain ⟨expr, derives, same, depth, planted⟩ := inner
  exact ⟨.group expr, .group derives, same, Nat.succ_le_succ depth, planted⟩

/-- A factor with a plus sign is a factor of the same code, one level up. -/
theorem Phrase.plus (operand : feed.Phrase .factor levels tokens words) :
    feed.Phrase .factor (levels + 1) (.additive .plus :: tokens) words := by
  obtain ⟨expr, derives, same, depth, planted⟩ := operand
  exact ⟨.signed .plus expr, .signed .plus derives, same, Nat.succ_le_succ depth, planted⟩

/-- A factor with a minus sign is a factor with a negation behind its code, one level up. -/
theorem Phrase.minus (operand : feed.Phrase .factor levels tokens words) :
    feed.Phrase .factor (levels + 1) (.additive .minus :: tokens)
      (words ++ [(Opcode.unary .neg).word]) := by
  obtain ⟨expr, derives, rfl, depth, planted⟩ := operand
  exact ⟨.signed .minus expr, .signed .minus derives, rfl, Nat.succ_le_succ depth, planted⟩

/-- A function with its argument is a factor with the function behind its code, one level up. -/
theorem Phrase.call (op : UnaryOp) (argument : feed.Phrase .expression levels tokens words) :
    feed.Phrase .factor (levels + 1) (.function op :: .leftParen :: tokens ++ [.rightParen])
      (words ++ [(Opcode.unary op).word]) := by
  obtain ⟨expr, derives, rfl, depth, planted⟩ := argument
  exact ⟨.call op expr, .call op derives, rfl, Nat.succ_le_succ depth, planted⟩

end Factors

/-- Factors are read, given what may stand one level deeper. -/
theorem reads_factorOver (lawful : feed.Lawful) {levels : Nat} {inner? : Option (Action σ Unit)}
    (reads : feed.ReadsInner .factor levels inner?) (rounds : Nat) :
    feed.Reads .factor levels (Descent.factorOver feed rounds inner?) := by
  intro before
  have expressions := reads.expression lawful rounds
  rw [Descent.factorOver, Action.get_bind]
  cases looking : feed.current before with
  | none => exact ends_fail _ (by simp [grammarFaults])
  | some token =>
    cases token with
    | constant index =>
      refine (ends_plantConstant lawful looking).bind ?_
      rintro _ _ mid ⟨rfl, rfl, same, planted⟩
      refine (ends_advance (same.trans looking)).mono ?_
      rintro _ _ _ ⟨rfl, rfl⟩
      refine ⟨.literal index, .literal index, rfl, Nat.zero_le _, ?_⟩
      intro other member
      rw [List.mem_singleton.mp member]
      exact ⟨before, mid, planted⟩
    | load slot =>
      refine (ends_plant lawful (.load slot)).bind ?_
      rintro _ _ mid ⟨rfl, rfl, same⟩
      refine (ends_advance (same.trans looking)).mono ?_
      rintro _ _ _ ⟨rfl, rfl⟩
      exact ⟨.load slot, .load slot, rfl, Nat.zero_le _, by simp [Expr.literals]⟩
    | pi =>
      refine (ends_plant lawful .pi).bind ?_
      rintro _ _ mid ⟨rfl, rfl, same⟩
      refine (ends_advance (same.trans looking)).mono ?_
      rintro _ _ _ ⟨rfl, rfl⟩
      exact ⟨.pi, .pi, rfl, Nat.zero_le _, by simp [Expr.literals]⟩
    | leftParen =>
      refine (ends_advance looking).bind ?_
      rintro _ _ inside ⟨rfl, rfl⟩
      refine (ends_nested expressions inside).bind ?_
      rintro tokens words behind ⟨deeper, rfl, phrase⟩
      refine (ends_expect .rightParen (by simp [grammarFaults])).mono ?_
      rintro _ _ _ ⟨rfl, rfl⟩
      simpa using phrase.group
    | additive sign =>
      refine (ends_advance looking).bind ?_
      rintro _ _ operand ⟨rfl, rfl⟩
      refine (ends_nested reads operand).bind ?_
      rintro tokens words behind ⟨deeper, rfl, phrase⟩
      cases sign with
      | plus =>
        exact ends_pure (by simpa using phrase.plus)
      | minus =>
        refine (ends_plant lawful (.unary .neg)).mono ?_
        rintro _ _ _ ⟨rfl, rfl, _⟩
        simpa using phrase.minus
    | function op =>
      refine (ends_advance looking).bind ?_
      rintro _ _ name ⟨rfl, rfl⟩
      refine (ends_expect .leftParen (by simp [grammarFaults])).bind ?_
      rintro _ _ inside ⟨rfl, rfl⟩
      refine (ends_nested expressions inside).bind ?_
      rintro tokens words behind ⟨deeper, rfl, phrase⟩
      refine (ends_expect .rightParen (by simp [grammarFaults])).bind ?_
      rintro _ _ call ⟨rfl, rfl⟩
      refine (ends_plant lawful (.unary op)).mono ?_
      rintro _ _ _ ⟨rfl, rfl, _⟩
      simpa using phrase.call op
    | multiplicative _ => exact ends_fail _ (by simp [grammarFaults])
    | power => exact ends_fail _ (by simp [grammarFaults])
    | rightParen => exact ends_fail _ (by simp [grammarFaults])

/-- Factors are read, however many levels are left. -/
theorem reads_factor (lawful : feed.Lawful) (rounds levels : Nat) :
    feed.Reads .factor levels (Descent.factor feed rounds levels) := by
  induction levels with
  | zero => exact reads_factorOver lawful (fun _ found => by cases found) rounds
  | succ levels ih =>
    refine reads_factorOver lawful ?_ rounds
    rintro _ ⟨rfl⟩
    exact ⟨levels, rfl, ih⟩

/-- Every production reads phrases of its rank. -/
theorem ends_production (lawful : feed.Lawful) (rounds levels : Nat) (rank : Rank) :
    feed.Reads rank levels
      (Descent.production feed rounds (Descent.factor feed rounds levels) rank) :=
  reads_production lawful (reads_factor lawful rounds levels) rounds rank

/-! ## Whole descents -/

/-- One expression and nothing behind it, from the first lexeme on. -/
def complete (feed : Feed σ) (rounds maxDepth : Nat) : Action σ Unit := do
  Descent.expression feed rounds (Descent.factor feed rounds maxDepth)
  if (feed.current (← get)).isSome then
    Descent.fail feed .syntaxError "UNEXPECTED LEXEME"

/-- A whole descent looks at the first lexeme and goes on if there is one. -/
theorem whole_of_advance {rounds maxDepth : Nat} {start first : σ}
    (moved : feed.advance start = .ok () first) :
    Descent.whole feed rounds maxDepth start =
      if (feed.current first).isNone then .error (.plain .missingExpression) first
      else feed.complete rounds maxDepth first := by
  rw [Descent.whole, Action.bind_of_ok moved, Action.get_bind]
  split <;> rfl

/-- A complete expression has been passed, with nothing left to look at. -/
theorem ends_complete (lawful : feed.Lawful) (rounds maxDepth : Nat) (first : σ) :
    feed.Ends first (fun tokens words after =>
      feed.Phrase .expression maxDepth tokens words ∧ feed.current after = none)
      (feed.complete rounds maxDepth first) := by
  refine (ends_production lawful rounds maxDepth .expression first).bind ?_
  intro tokens words last phrase
  rw [Action.get_bind]
  cases looking : feed.current last with
  | some token => exact ends_fail _ (by simp [grammarFaults])
  | none => exact ends_pure (by simpa using ⟨phrase, looking⟩)

/-- The ways a whole descent can end: with an expression and nothing behind it, with the fault of
the first lexeme or for the lack of one, or stuck on the way. -/
theorem whole_cases (lawful : feed.Lawful) (rounds maxDepth : Nat) (start : σ) :
    match Descent.whole feed rounds maxDepth start with
    | .ok () after => ∃ first tokens words, feed.advance start = .ok () first ∧
        feed.Trace first tokens words after ∧ feed.Phrase .expression maxDepth tokens words ∧
        feed.current after = none
    | .error fault after => feed.advance start = .error fault after ∨
        ∃ first, feed.advance start = .ok () first ∧
          (fault = .plain .missingExpression ∧ feed.current first = none ∧ after = first ∨
            feed.Stuck first fault after) := by
  cases moved : feed.advance start with
  | error fault after =>
    rw [Descent.whole, Action.bind_of_error moved]
    exact Or.inl rfl
  | ok _ first =>
    rw [whole_of_advance moved]
    cases looking : feed.current first with
    | none => exact Or.inr ⟨first, rfl, Or.inl ⟨rfl, looking, rfl⟩⟩
    | some token =>
      have ends := ends_complete lawful rounds maxDepth first
      simp only [Option.isNone_some, Bool.false_eq_true, if_false]
      cases result : feed.complete rounds maxDepth first with
      | error fault after =>
        rw [result] at ends
        exact Or.inr ⟨first, rfl, Or.inr ends⟩
      | ok _ after =>
        rw [result] at ends
        obtain ⟨tokens, words, trace, phrase, finished⟩ := ends
        exact ⟨first, tokens, words, rfl, trace, phrase, finished⟩

end Feed

end TapeCalc
