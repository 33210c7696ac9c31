import TapeCalc.Proofs.Descent.Watched

/-!
# What the books of a descent show

The descent that keeps the books does what the descent without them does, as long as its fuel is
greater than the number of levels and there is a round for every lexeme.  Neither runs out, since
each operand inside another one takes a level, and each round takes a lexeme.

Where a production is begun, as many operands are open as the descent is deep, and one more inside an
operand.  An operand is begun at a lexeme that has been asked for since the operand before it.  So the
levels bound the operands that are open, and the lexemes bound the operands that are begun.

Main definitions:

- {lit}`Feed.Measured`: a size that bounds the lexemes ahead.
- {lit}`Watched.Sound`: what the books always show.
- {lit}`Watched.Stands`: what they show between two steps of a production.
- {lit}`Watched.Follows`: a watched result that belongs to one without books.

Main results:

- Theorem {lit}`Watched.tracks_production`: productions of all ranks.
- Theorem {lit}`Watched.follows_whole`: whole descents.
-/

namespace TapeCalc

variable {σ : Type}

/-- A size of states that bounds the lexemes ahead: it is lessened by each lexeme, and there is no
lexeme where it is zero. -/
structure Feed.Measured (feed : Feed σ) (size : σ → Nat) : Prop extends
    feed.Lessens size, feed.Lawful where
  positive {state : σ} : (feed.current state).isSome → 0 < size state

namespace Watched

/-! ## The invariant -/

/-- What the books show at any time.  Nothing has run out, there are no more questions for lexemes
than a bound allows, and none has been asked behind the end or a fault.  No more operands have ever
been open than there are levels and one more, and no more have been begun than there have been
lexemes and the end. -/
structure Sound (bound maxDepth : Nat) (state : Watched σ) : Prop where
  lasts : state.exhausted = false
  asked : state.books.answers.length ≤ bound
  earlier : ∀ answer ∈ state.books.answers.tail, ∃ token, answer = .ok (some token)
  opened : ∀ moment, moment <:+ state.books → Books.opened moment ≤ maxDepth + 1
  entries : state.books.entries ≤ state.books.pulled

/-- What the books show between two steps, with a number of levels left.  As many operands are open
as the descent is deep, and one more inside an operand.  The latest answer is what is looked at, and
it is fresh if no operand has been begun since. -/
structure Stands (feed : Feed σ) (size : σ → Nat) (bound maxDepth levels inside fresh : Nat)
    (state : Watched σ) : Prop where
  sound : Sound bound maxDepth state
  levels : state.depth + levels = maxDepth
  opened : state.books.opened = state.depth + inside
  latest : state.books.answers.head? = some (.ok (feed.current state.inner))
  ahead : state.books.answers.length + size state.inner ≤ bound
  fresh : state.books.entries + fresh ≤ state.books.pulled

/-- A watched result that belongs to one without books: both succeed in the same state, which is no
greater than a limit, or both fail with the same fault, and the books are in order. -/
inductive Follows (feed : Feed σ) (size : σ → Nat) (bound maxDepth levels inside fresh : Nat)
    (limit : Nat) : EStateM.Result Fault σ Unit → EStateM.Result Fault (Watched σ) Unit → Prop where
  | ok {after : Watched σ} (stands : Stands feed size bound maxDepth levels inside fresh after)
      (le : size after.inner ≤ limit) :
      Follows feed size bound maxDepth levels inside fresh limit (.ok () after.inner) (.ok () after)
  | error {fault : Fault} {after : Watched σ} (sound : Sound bound maxDepth after) :
      Follows feed size bound maxDepth levels inside fresh limit (.error fault after.inner)
        (.error fault after)

variable {feed : Feed σ} {size : σ → Nat} {bound maxDepth levels inside fresh : Nat}

/-! ## Notes -/

/-- An answer that is noted keeps the books in order, if the one before has been a lexeme and there
is one more to be asked for. -/
theorem Sound.answered {state : Watched σ} (h : Sound bound maxDepth state)
    (latest : ∀ answer ∈ state.books.answers.head?, ∃ token, answer = .ok (some token))
    (room : state.books.answers.length < bound) (answer : Except Fault (Option Token))
    (inner : σ) :
    Sound bound maxDepth { state with inner, books := .asked answer :: state.books } where
  lasts := h.lasts
  asked := room
  earlier := by
    intro other member
    change other ∈ state.books.answers at member
    cases answers : state.books.answers with
    | nil =>
      rw [answers] at member
      cases member
    | cons newest older =>
      rw [answers] at member
      rcases List.mem_cons.mp member with rfl | old
      · exact latest other (by rw [answers]; rfl)
      · exact h.earlier other (by rw [answers]; exact old)
  opened := by
    intro moment suffix
    rcases List.suffix_cons_iff.mp suffix with rfl | older
    · exact h.opened state.books (List.suffix_refl _)
    · exact h.opened moment older
  entries := by
    refine Nat.le_trans h.entries ?_
    exact (List.sublist_cons_self answer state.books.answers).countP_le

/-- An operand that is begun keeps the books in order, if there is one more to be begun. -/
theorem Sound.entered {state : Watched σ} (h : Sound bound maxDepth state)
    (room : state.books.opened ≤ maxDepth)
    (fresh : state.books.entries < state.books.pulled) :
    Sound bound maxDepth { state with books := .entered :: state.books } where
  lasts := h.lasts
  asked := h.asked
  earlier := h.earlier
  opened := by
    intro moment suffix
    rcases List.suffix_cons_iff.mp suffix with rfl | older
    · exact Nat.succ_le_succ room
    · exact h.opened moment older
  entries := fresh

/-- An operand that is ended keeps the books in order. -/
theorem Sound.left {state : Watched σ} (h : Sound bound maxDepth state) :
    Sound bound maxDepth { state with books := .left :: state.books } where
  lasts := h.lasts
  asked := h.asked
  earlier := h.earlier
  opened := by
    intro moment suffix
    rcases List.suffix_cons_iff.mp suffix with rfl | older
    · exact Nat.le_trans (Nat.sub_le _ _) (h.opened state.books (List.suffix_refl _))
    · exact h.opened moment older
  entries := h.entries

/-- What the books show at any time depends on neither the state that is watched nor the depth. -/
theorem Sound.elsewhere {state : Watched σ} (h : Sound bound maxDepth state) (inner : σ)
    (depth : Nat) : Sound bound maxDepth { state with inner, depth } :=
  ⟨h.lasts, h.asked, h.earlier, h.opened, h.entries⟩

/-- What is fresh may be taken for stale. -/
theorem Stands.stale {state : Watched σ}
    (h : Stands feed size bound maxDepth levels inside fresh state) :
    Stands feed size bound maxDepth levels inside 0 state :=
  ⟨h.sound, h.levels, h.opened, h.latest, h.ahead, h.sound.entries⟩

/-! ## Results in a row -/

/-- A limit may be raised. -/
theorem Follows.mono {limit limit' : Nat} {plain : EStateM.Result Fault σ Unit}
    {watched : EStateM.Result Fault (Watched σ) Unit}
    (h : Follows feed size bound maxDepth levels inside fresh limit plain watched)
    (le : limit ≤ limit') :
    Follows feed size bound maxDepth levels inside fresh limit' plain watched := by
  cases h with
  | ok stands small => exact .ok stands (Nat.le_trans small le)
  | error sound => exact .error sound

/-- What is fresh may be taken for stale. -/
theorem Follows.stale {limit : Nat} {plain : EStateM.Result Fault σ Unit}
    {watched : EStateM.Result Fault (Watched σ) Unit}
    (h : Follows feed size bound maxDepth levels inside fresh limit plain watched) :
    Follows feed size bound maxDepth levels inside 0 limit plain watched := by
  cases h with
  | ok stands small => exact .ok stands.stale small
  | error sound => exact .error sound

/-- Steps in a row follow each other if each step does. -/
theorem Follows.bind {levels' inside' fresh' limit limit' : Nat} {first second : Action σ Unit}
    {first' second' : Action (Watched σ) Unit} {state : Watched σ}
    (h : Follows feed size bound maxDepth levels inside fresh limit (first state.inner)
      (first' state))
    (next : ∀ mid, first state.inner = .ok () mid.inner →
      Stands feed size bound maxDepth levels inside fresh mid → size mid.inner ≤ limit →
        Follows feed size bound maxDepth levels' inside' fresh' limit' (second mid.inner)
          (second' mid)) :
    Follows feed size bound maxDepth levels' inside' fresh' limit'
      ((first >>= fun _ => second) state.inner) ((first' >>= fun _ => second') state) := by
  generalize ran : first state.inner = plain at h
  generalize watched : first' state = result at h
  cases h with
  | ok stands le =>
    rw [Action.bind_of_ok ran, Action.bind_of_ok watched]
    exact next _ ran stands le
  | error sound =>
    rw [Action.bind_of_error ran, Action.bind_of_error watched]
    exact .error sound

/-! ## Single steps -/

section Steps

variable {state : Watched σ} (h : Stands feed size bound maxDepth levels inside fresh state)
include h

/-- Where a step stands, the state is no greater than the bound. -/
theorem Stands.size_le : size state.inner ≤ bound := Nat.le_of_add_left_le h.ahead

/-- Going past a lexeme: the answer is fresh, and the state has become smaller. -/
theorem Stands.advance (measured : feed.Measured size)
    (looking : (feed.current state.inner).isSome) :
    Follows feed size bound maxDepth levels inside 1 (size state.inner - 1)
      (feed.advance state.inner) ((watch feed).advance state) := by
  have positive := measured.positive looking
  have ahead := h.ahead
  obtain ⟨token, present⟩ := Option.isSome_iff_exists.mp looking
  have latest : ∀ answer ∈ state.books.answers.head?, ∃ token, answer = .ok (some token) := by
    intro answer member
    rw [h.latest, present] at member
    exact ⟨token, (Option.some.inj member).symm⟩
  have answered := h.sound.answered latest (by omega)
  simp only [watch]
  cases moved : feed.advance state.inner with
  | error fault inner => exact .error (answered (.error fault) inner)
  | ok _ inner =>
    have less := measured.advance looking moved
    refine .ok ⟨answered (.ok (feed.current inner)) inner, h.levels, h.opened, rfl, ?_, ?_⟩ ?_
    · dsimp only [Books.answers, List.length_cons]
      omega
    · rw [Books.pulled_ok]
      exact Nat.succ_le_succ h.sound.entries
    · dsimp only
      omega

/-- A step that leaves the lexeme that is looked at, and does not make the state greater. -/
theorem Stands.onPart {step : Action σ Unit}
    (kept : ∀ inner, step state.inner = .ok () inner →
      feed.current inner = feed.current state.inner ∧ size inner ≤ size state.inner) :
    Follows feed size bound maxDepth levels inside fresh (size state.inner) (step state.inner)
      (Action.onPart inner (fun state inner => { state with inner }) step state) := by
  rw [Action.onPart]
  cases done : step state.inner with
  | error fault inner => exact .error (h.sound.elsewhere inner state.depth)
  | ok _ inner =>
    obtain ⟨same, le⟩ := kept inner done
    have ahead := h.ahead
    have latest : state.books.answers.head? = some (.ok (feed.current inner)) := by
      rw [same]
      exact h.latest
    exact .ok ⟨h.sound.elsewhere inner state.depth, h.levels, h.opened, latest,
      Nat.le_trans (Nat.add_le_add_left le _) ahead, h.fresh⟩ le

/-- Planting an instruction. -/
theorem Stands.plant (measured : feed.Measured size) (opcode : Opcode) :
    Follows feed size bound maxDepth levels inside fresh (size state.inner)
      (feed.plant opcode state.inner) ((watch feed).plant opcode state) :=
  h.onPart fun _ done => ⟨measured.current_of_plant done, measured.plant done⟩

/-- Planting the instruction that loads a constant. -/
theorem Stands.plantConstant (measured : feed.Measured size) (index : Nat) :
    Follows feed size bound maxDepth levels inside fresh (size state.inner)
      (feed.plantConstant index state.inner) ((watch feed).plantConstant index state) :=
  h.onPart fun _ done => ⟨measured.current_of_plantConstant done, measured.plantConstant done⟩

/-- Failing at the lexeme that is looked at. -/
theorem Stands.fail {levels' inside' fresh' limit : Nat} (code : FaultCode) (detail : String) :
    Follows feed size bound maxDepth levels' inside' fresh' limit
      (Descent.fail feed code detail state.inner)
      (Descent.fail (watch feed) code detail state) := .error h.sound

/-- Doing nothing. -/
theorem Stands.pure :
    Follows feed size bound maxDepth levels inside fresh (size state.inner)
      ((Pure.pure () : Action σ Unit) state.inner)
      ((Pure.pure () : Action (Watched σ) Unit) state) := .ok h (Nat.le_refl _)

/-- Going past a lexeme that has to be there. -/
theorem Stands.expect (measured : feed.Measured size) (token : Token) (code : FaultCode) :
    Follows feed size bound maxDepth levels inside 1 (size state.inner)
      (Descent.expect feed token code state.inner)
      (Descent.expect (watch feed) token code state) := by
  rw [Descent.expect, Descent.expect, Action.get_bind, Action.get_bind]
  by_cases looking : feed.current state.inner = some token
  · have watched : (watch feed).current state = some token := looking
    rw [if_pos looking, if_pos watched]
    exact (h.advance measured (Option.isSome_of_eq_some looking)).mono (Nat.sub_le _ _)
  · have watched : (watch feed).current state ≠ some token := looking
    rw [if_neg looking, if_neg watched]
    exact h.fail code ""

end Steps

/-! ## Productions -/

/-- A watched action belongs to one without books wherever it is begun at a fresh lexeme. -/
def Tracks (feed : Feed σ) (size : σ → Nat) (bound maxDepth levels inside : Nat)
    (plain : Action σ Unit) (watched : Action (Watched σ) Unit) : Prop :=
  ∀ state, Stands feed size bound maxDepth levels inside 1 state →
    Follows feed size bound maxDepth levels inside 0 (size state.inner) (plain state.inner)
      (watched state)

section Productions

variable (measured : feed.Measured size) {plain : Action σ Unit}
  {watched : Action (Watched σ) Unit}
include measured

/-- Operators of one rank.  Rounds do not run out, since each takes a lexeme. -/
theorem Stands.chain {operator? : Token → Option BinaryOp}
    (operand : Tracks feed size bound maxDepth levels 0 plain watched) {rounds : Nat}
    {state : Watched σ} (h : Stands feed size bound maxDepth levels 0 0 state)
    (enough : size state.inner ≤ rounds) :
    Follows feed size bound maxDepth levels 0 0 (size state.inner)
      (Descent.chain feed operator? plain rounds state.inner)
      (chain feed operator? watched rounds state) := by
  induction rounds generalizing state with
  | zero =>
    have nothing : (feed.current state.inner).bind operator? = none := by
      cases looking : feed.current state.inner with
      | none => rfl
      | some token =>
        have positive := measured.positive (Option.isSome_of_eq_some looking)
        omega
    rw [Descent.chain_of_none nothing, Watched.chain, Action.get_bind, nothing]
    exact h.pure
  | succ rounds ih =>
    cases found : (feed.current state.inner).bind operator? with
    | none =>
      rw [Descent.chain_of_none found, Watched.chain, Action.get_bind, found]
      exact h.pure
    | some op =>
      obtain ⟨operator, looking, _⟩ := Option.bind_eq_some_iff.mp found
      have present := Option.isSome_of_eq_some looking
      have positive := measured.positive present
      rw [Descent.chain_of_some found, Watched.chain, Action.get_bind, found]
      refine (h.advance measured present).bind fun behindOperator _ stands less => ?_
      refine (operand _ stands).bind fun behindOperand _ stands le => ?_
      refine (stands.plant measured (.binary op)).bind fun planted _ stands le' => ?_
      exact (ih stands (by omega)).mono (by omega)

/-- An operand with operators of one rank behind it. -/
theorem Tracks.ranked {operator? : Token → Option BinaryOp} {rounds : Nat}
    (operand : Tracks feed size bound maxDepth levels 0 plain watched) (enough : bound ≤ rounds) :
    Tracks feed size bound maxDepth levels 0 (Descent.ranked feed rounds operator? plain)
      (ranked feed rounds operator? watched) := by
  intro state h
  refine (operand state h).bind fun mid _ stands le => ?_
  exact (stands.chain measured operand (Nat.le_trans stands.size_le enough)).mono le

/-- Phrases of all ranks. -/
theorem Tracks.phrase {rounds : Nat}
    (factor : Tracks feed size bound maxDepth levels 0 plain watched) (enough : bound ≤ rounds)
    (rank : Rank) :
    Tracks feed size bound maxDepth levels 0 (Descent.production feed rounds plain rank)
      (phrase feed rounds watched rank) := by
  cases rank with
  | factor => exact factor
  | power => exact factor.ranked measured enough
  | term => exact (factor.ranked measured enough).ranked measured enough
  | expression =>
    exact ((factor.ranked measured enough).ranked measured enough).ranked measured enough

end Productions

/-- What stands one level deeper: nothing if no level is left, and else what belongs to a watched
action with a level less. -/
def TracksInner (feed : Feed σ) (size : σ → Nat) (bound maxDepth : Nat) (levels : Nat)
    (inner? : Option (Action σ Unit)) (watched : Action (Watched σ) Unit) : Prop :=
  match levels with
  | 0 => inner? = none
  | levels + 1 => ∃ inner, inner? = some inner ∧
      Tracks feed size bound maxDepth levels 0 inner watched

/-- One level deeper.  The limit allows it if and only if a level is left. -/
theorem TracksInner.nested {inner? : Option (Action σ Unit)} {watched : Action (Watched σ) Unit}
    (h : TracksInner feed size bound maxDepth levels inner? watched) :
    Tracks feed size bound maxDepth levels 1 (Descent.nested feed inner?)
      (nested feed maxDepth watched) := by
  intro state stands
  have depth := stands.levels
  rw [Watched.nested]
  cases levels with
  | zero =>
    have none : inner? = none := h
    rw [none, if_pos (by omega)]
    exact stands.fail .tooDeeplyNested ""
  | succ levels =>
    obtain ⟨inner, rfl, tracks⟩ := h
    rw [if_neg (by omega)]
    have deeper : Stands feed size bound maxDepth levels 0 1
        { state with depth := state.depth + 1 } :=
      ⟨stands.sound.elsewhere state.inner _, by dsimp only; omega, stands.opened, stands.latest,
        stands.ahead, stands.fresh⟩
    have follows := tracks _ deeper
    dsimp only [Descent.nested] at follows ⊢
    generalize inner state.inner = plain at follows
    generalize watched { state with depth := state.depth + 1 } = result at follows
    cases follows with
    | @error _ after sound => exact .error (sound.elsewhere after.inner (after.depth - 1))
    | @ok after behind le =>
      have deep := behind.levels
      have opened := behind.opened
      refine .ok ⟨behind.sound.elsewhere after.inner (after.depth - 1), ?_, ?_, behind.latest,
        behind.ahead, behind.fresh⟩ le
      · dsimp only
        omega
      · dsimp only
        omega

/-- An operand that is noted takes up what is fresh, and it is open while it lasts. -/
theorem tracks_noted {plain : Action σ Unit} {watched : Action (Watched σ) Unit}
    (operand : ∀ state, Stands feed size bound maxDepth levels 1 0 state →
      Follows feed size bound maxDepth levels 1 0 (size state.inner) (plain state.inner)
        (watched state)) :
    Tracks feed size bound maxDepth levels 0 plain (noted watched) := by
  intro state stands
  have depth := stands.levels
  have opened := stands.opened
  have room : state.books.opened ≤ maxDepth := by omega
  have begun : Stands feed size bound maxDepth levels 1 0
      { state with books := .entered :: state.books } :=
    ⟨stands.sound.entered room stands.fresh, depth, congrArg (· + 1) opened, stands.latest,
      stands.ahead, stands.fresh⟩
  have follows := operand _ begun
  rw [noted]
  dsimp only at follows ⊢
  generalize plain state.inner = result at follows
  generalize watched { state with books := .entered :: state.books } = result' at follows
  cases follows with
  | @error _ after sound => exact .error sound.left
  | @ok after behind le =>
    exact .ok ⟨behind.sound.left, behind.levels, congrArg (· - 1) behind.opened, behind.latest,
      behind.ahead, behind.fresh⟩ le

/-- An operand that is a single lexeme: an instruction is planted for it, and then it is passed. -/
theorem Follows.passed {step : Action σ Unit} {step' : Action (Watched σ) Unit} {state : Watched σ}
    (planted : Follows feed size bound maxDepth levels inside fresh (size state.inner)
      (step state.inner) (step' state))
    (measured : feed.Measured size) (looking : (feed.current state.inner).isSome)
    (kept : ∀ inner, step state.inner = .ok () inner →
      feed.current inner = feed.current state.inner) :
    Follows feed size bound maxDepth levels inside 0 (size state.inner)
      ((step >>= fun _ => feed.advance) state.inner)
      ((step' >>= fun _ => (watch feed).advance) state) := by
  refine planted.bind fun behind done stands le => ?_
  have present : (feed.current behind.inner).isSome := by rwa [kept _ done]
  exact ((stands.advance measured present).mono (Nat.sub_le _ _)).stale.mono le

/-- An operand, given what it nests. -/
theorem Stands.operand (measured : feed.Measured size) {group signed : Action σ Unit}
    {group' signed' : Action (Watched σ) Unit}
    (groups : Tracks feed size bound maxDepth levels 1 group group')
    (signs : Tracks feed size bound maxDepth levels 1 signed signed') {state : Watched σ}
    (h : Stands feed size bound maxDepth levels 1 0 state) :
    Follows feed size bound maxDepth levels 1 0 (size state.inner)
      (Descent.operand feed group signed state.inner)
      (Descent.operand (watch feed) group' signed' state) := by
  have same : (watch feed).current state = feed.current state.inner := rfl
  rw [Descent.operand, Descent.operand, Action.get_bind, Action.get_bind, same]
  cases looking : feed.current state.inner with
  | none => exact h.fail _ _
  | some token =>
    have present := Option.isSome_of_eq_some looking
    have advanced := (h.advance measured present).mono (Nat.sub_le _ _)
    cases token with
    | constant index =>
      exact (h.plantConstant measured index).passed measured present fun _ done =>
        measured.current_of_plantConstant done
    | load slot =>
      exact (h.plant measured (.load slot)).passed measured present fun _ done =>
        measured.current_of_plant done
    | pi =>
      exact (h.plant measured .pi).passed measured present fun _ done =>
        measured.current_of_plant done
    | leftParen =>
      refine advanced.bind fun inside _ stands le => ?_
      refine ((groups _ stands).mono le).bind fun behind _ stands le => ?_
      exact ((stands.expect measured _ _).mono le).stale
    | additive sign =>
      refine advanced.bind fun operand _ stands le => ?_
      refine ((signs _ stands).mono le).bind fun behind _ stands le => ?_
      split
      · exact (stands.plant measured _).mono le
      · exact stands.pure.mono le
    | function op =>
      refine advanced.bind fun name _ stands le => ?_
      refine ((stands.expect measured _ _).mono le).bind fun inside _ stands le => ?_
      refine ((groups _ stands).mono le).bind fun behind _ stands le => ?_
      refine ((stands.expect measured _ _).mono le).stale.bind fun call _ stands le => ?_
      exact (stands.plant measured _).mono le
    | multiplicative _ => exact h.fail _ _
    | power => exact h.fail _ _
    | rightParen => exact h.fail _ _

/-- Operands.  Fuel does not run out, since each operand inside another one takes a level. -/
theorem tracks_factor (measured : feed.Measured size) {rounds fuel : Nat} (enough : bound ≤ rounds)
    (deep : levels < fuel) :
    Tracks feed size bound maxDepth levels 0 (Descent.factor feed rounds levels)
      (factor feed rounds maxDepth fuel) := by
  induction fuel generalizing levels with
  | zero => exact absurd deep (Nat.not_lt_zero _)
  | succ fuel ih =>
    -- What is nested is read with a level less, or not at all.
    cases levels with
    | zero =>
      have nothing (watched : Action (Watched σ) Unit) :
          TracksInner feed size bound maxDepth 0 none watched := rfl
      rw [Descent.factor, Descent.factorOver_eq]
      exact tracks_noted fun state h =>
        h.operand measured (nothing _).nested (nothing _).nested
    | succ levels =>
      have factors := ih (Nat.lt_of_succ_lt_succ deep)
      have signed : TracksInner feed size bound maxDepth (levels + 1)
          (some (Descent.factor feed rounds levels)) (factor feed rounds maxDepth fuel) :=
        ⟨_, rfl, factors⟩
      have group : TracksInner feed size bound maxDepth (levels + 1)
          (some (Descent.expression feed rounds (Descent.factor feed rounds levels)))
          (phrase feed rounds (factor feed rounds maxDepth fuel) .expression) :=
        ⟨_, rfl, factors.phrase measured enough .expression⟩
      rw [Descent.factor, Descent.factorOver_eq]
      exact tracks_noted fun state h => h.operand measured group.nested signed.nested

/-- Productions of all ranks. -/
theorem tracks_production (measured : feed.Measured size) {rounds fuel : Nat}
    (enough : bound ≤ rounds) (deep : levels < fuel) (rank : Rank) :
    Tracks feed size bound maxDepth levels 0
      (Descent.production feed rounds (Descent.factor feed rounds levels) rank)
      (production feed rounds maxDepth fuel rank) :=
  (tracks_factor measured enough deep).phrase measured enough rank

/-! ## Whole descents -/

/-- What a watched result would be without books. -/
def erased : EStateM.Result Fault (Watched σ) Unit → EStateM.Result Fault σ Unit
  | .ok () after => .ok () after.inner
  | .error fault after => .error fault after.inner

/-- A result that belongs to one without books is that result with the books, and these are in
order. -/
theorem Follows.erased_eq {limit : Nat} {plain : EStateM.Result Fault σ Unit}
    {watched : EStateM.Result Fault (Watched σ) Unit}
    (h : Follows feed size bound maxDepth levels inside fresh limit plain watched) :
    erased watched = plain ∧ Sound bound maxDepth (Action.reached watched) := by
  cases h with
  | ok stands _ => exact ⟨rfl, stands.sound⟩
  | error sound => exact ⟨rfl, sound⟩

/-- The books are in order before anything has happened. -/
theorem sound_begin (start : σ) : Sound bound maxDepth (begin start) where
  lasts := rfl
  asked := Nat.zero_le _
  earlier := nofun
  opened := by
    intro moment suffix
    rw [List.suffix_nil.mp suffix]
    exact Nat.zero_le _
  entries := Nat.le_refl _

/-- The first lexeme of a text, or the lack of one. -/
theorem follows_first {start : σ} (positive : 0 < bound)
    (first : ∀ after, feed.advance start = .ok () after → size after < bound) :
    Follows feed size bound maxDepth maxDepth 0 1 bound (feed.advance (begin start).inner)
      ((watch feed).advance (begin start)) := by
  have sound : Sound bound maxDepth (begin start) := sound_begin start
  have answered := sound.answered nofun positive
  simp only [watch, begin]
  cases moved : feed.advance start with
  | error fault inner => exact .error (answered (.error fault) inner)
  | ok _ inner =>
    have small := first inner moved
    refine .ok ⟨answered (.ok (feed.current inner)) inner, Nat.zero_add _, rfl, rfl, ?_, ?_⟩
      (Nat.le_of_lt small)
    · change 1 + size inner ≤ bound
      omega
    · rw [Books.pulled_ok]
      exact Nat.le_refl _

/-- A whole descent that keeps the books belongs to the one without them. -/
theorem follows_whole (measured : feed.Measured size) {rounds fuel : Nat} (enough : bound ≤ rounds)
    (deep : maxDepth < fuel) {start : σ} (positive : 0 < bound)
    (first : ∀ after, feed.advance start = .ok () after → size after < bound) :
    Follows feed size bound maxDepth maxDepth 0 0 bound
      (Descent.whole feed rounds maxDepth (begin start).inner)
      (whole feed rounds maxDepth fuel (begin start)) := by
  refine (follows_first positive first).bind fun looking _ stands le => ?_
  rw [Action.get_bind, Action.get_bind]
  cases present : feed.current looking.inner with
  | none => exact .error stands.sound
  | some token =>
    refine ((tracks_production measured enough deep .expression _ stands).mono le).bind
      fun behind _ stands le => ?_
    rw [Action.get_bind, Action.get_bind]
    cases feed.current behind.inner with
    | none => exact stands.pure.mono le
    | some token => exact stands.fail _ _

end Watched

end TapeCalc
