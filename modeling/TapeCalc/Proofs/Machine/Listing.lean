import TapeCalc.Proofs.Machine.Shape
import TapeCalc.Proofs.Program.Listing

/-!
# Running a tape and listing it

A listing and a run walk over the same words, each in its own way.  The listing always goes to
the end of the tape, and a run may stop on the way.  As far as the run goes the two walks agree:
running a tape is executing the entries of its listing one after the other.

So the instructions of a run are the first entries of the listing, at the places of the entries,
and the stacks that they are started on are those that executing the entries leads to.  A constant
is pushed with the value that is listed.  An entry that is listed with a {lit}`?` or a {lit}`#` is
never executed, and a run that leads to a value has executed every entry once.

Main definitions:

- {lit}`Program.placedEntries`: the entries of a listing with their places on the tape.
- {lit}`Machine.Executes`: entries that are executed one after the other.
- {lit}`Machine.EndsAt`: how a run ends behind the entries it has executed.
- {lit}`Machine.stacksAlong`: the stacks in front of the executed entries and behind the last.

Main results:

- Theorem {lit}`Machine.run_eq_runEntries`: running a tape is running its listing.
- Theorem {lit}`Machine.Executes.pushes`: what a listed constant does to the stacks.
- Theorem {lit}`run_follows_listing`: how far a run goes in the listing, for all tapes, pools and
  values of the variables.
-/

namespace TapeCalc

/-! ## Entries as instructions -/

namespace ListingEntry

/-- How many words an entry takes on a tape. -/
def width : ListingEntry → Nat
  | instruction _ => 1
  | constant _ => 2
  | outOfRange _ => 2
  | missingOperand => 1
  | undefined _ => 1

/-- The instruction that an entry shows. -/
def opcode? : ListingEntry → Option Opcode
  | instruction opcode => some opcode
  | constant _ => some .loadConst
  | outOfRange _ => some .loadConst
  | missingOperand => some .loadConst
  | undefined _ => none

/-- Execute an entry: a constant that is listed is pushed, and what is listed as broken fails. -/
def perform (environment : Environment) : ListingEntry → Action ValueStack Unit
  | instruction opcode => Machine.perform environment opcode
  | constant value => BoundedStack.push value
  | outOfRange _ => throw (.broken "CONSTANT OUT OF RANGE")
  | missingOperand => throw (.broken "MISSING OPERAND")
  | undefined _ => throw Opcode.undefined

/-- An entry that is listed with a question mark or a number sign. -/
def IsMarked (entry : ListingEntry) : Prop := '?' ∈ entry.text.toList ∨ '#' ∈ entry.text.toList

/-- Instructions without operand are listed by their names, which have no marks. -/
theorem not_isMarked_instruction (opcode : Opcode) : ¬ (instruction opcode).IsMarked := by
  rintro (member | member)
  · cases Opcode.isPlain_of_mem_name member
  · cases Opcode.isPlain_of_mem_name member

/-- Constants are listed by their values, which have no marks. -/
theorem not_isMarked_constant (value : Float) : ¬ (constant value).IsMarked := by
  have shown := @text_of_operand? (constant value) _ rfl
  have unmarked {c : Char} (special : isPlain c = false) (outside : c ≠ '(' ∧ c ≠ ')') :
      c ∉ (constant value).text.toList := by
    rw [shown]
    intro member
    rcases List.mem_append.mp member with name | operand
    · rw [Opcode.isPlain_of_mem_name name] at special
      cases special
    · rcases List.mem_cons.mp operand with opened | inside
      · exact outside.1 opened
      · rcases List.mem_append.mp inside with digit | closed
        · rw [isPlain_of_mem_plainText digit] at special
          cases special
        · exact outside.2 (List.mem_singleton.mp closed)
  rintro (member | member)
  · exact unmarked rfl (by decide) member
  · exact unmarked rfl (by decide) member

/-- What is listed with a mark cannot be executed, whatever the stack holds. -/
theorem perform_of_isMarked {entry : ListingEntry} (marked : entry.IsMarked)
    (environment : Environment) (stack : ValueStack) :
    ∃ fault, entry.perform environment stack = .error fault stack ∧ fault.kind = .internal := by
  cases entry with
  | instruction opcode => exact absurd marked (not_isMarked_instruction opcode)
  | constant value => exact absurd marked (not_isMarked_constant value)
  | outOfRange _ | missingOperand | undefined _ => exact ⟨_, rfl, rfl⟩

/-- What has been executed is listed without a mark. -/
theorem not_isMarked_of_perform_ok {entry : ListingEntry} {environment : Environment}
    {before after : ValueStack} (performed : entry.perform environment before = .ok () after) :
    ¬ entry.IsMarked := by
  intro marked
  obtain ⟨fault, failed, _⟩ := perform_of_isMarked marked environment before
  rw [failed] at performed
  cases performed

/-- What has been executed shows an instruction. -/
theorem exists_opcode_of_perform_ok {entry : ListingEntry} {environment : Environment}
    {before after : ValueStack} (performed : entry.perform environment before = .ok () after) :
    ∃ opcode, entry.opcode? = some opcode := by
  cases entry with
  | undefined word => cases performed
  | _ => exact ⟨_, rfl⟩

end ListingEntry

/-! ## Places of entries -/

/-- An entry of a listing and the place of its first word on the tape. -/
structure PlacedEntry where
  position : Nat
  entry : ListingEntry

namespace ListingEntry

/-- The entries one after the other, from a position on. -/
def placed (position : Nat) : List ListingEntry → List PlacedEntry
  | [] => []
  | entry :: entries => ⟨position, entry⟩ :: placed (position + entry.width) entries

/-- The entries have their places in the order of the listing. -/
theorem map_entry_placed (position : Nat) (entries : List ListingEntry) :
    (placed position entries).map PlacedEntry.entry = entries := by
  induction entries generalizing position with
  | nil => rfl
  | cons entry entries ih => rw [placed, List.map_cons, ih]

/-- The listing of a tape goes on with the listing of the words behind its first entry. -/
theorem ofWords_drop_width {constants : List Float} {words : List Word} {entry : ListingEntry}
    {entries : List ListingEntry} (listed : ofWords constants words = entry :: entries) :
    ofWords constants (words.drop entry.width) = entries := by
  unfold ofWords at listed
  split at listed
  · cases listed
  · split at listed
    · cases listed
      rfl
    · split at listed
      · cases listed
        rfl
      · split at listed <;> cases listed <;> rfl
    · cases listed
      rfl

/-- Each entry of a tape is the first one of the words from its place on. -/
theorem ofWords_drop_position {constants : List Float} {start : Nat} {words : List Word}
    {before after : List PlacedEntry} {here : PlacedEntry}
    (split : placed start (ofWords constants words) = before ++ here :: after) :
    start ≤ here.position ∧
      ofWords constants (words.drop (here.position - start)) =
        here.entry :: after.map PlacedEntry.entry := by
  induction before generalizing start words with
  | nil =>
    cases listed : ofWords constants words with
    | nil =>
      rw [listed] at split
      cases split
    | cons entry entries =>
      rw [listed] at split
      cases split
      rw [Nat.sub_self, List.drop_zero, listed, map_entry_placed]
      exact ⟨Nat.le_refl _, rfl⟩
  | cons first before ih =>
    cases listed : ofWords constants words with
    | nil =>
      rw [listed] at split
      cases split
    | cons entry entries =>
      rw [listed, placed, List.cons_append] at split
      injection split with _ others
      rw [← ofWords_drop_width listed] at others
      obtain ⟨behind, rest⟩ := ih others
      refine ⟨Nat.le_of_add_right_le behind, ?_⟩
      rw [List.drop_drop] at rest
      rw [← rest]
      congr 2
      omega

end ListingEntry

/-- The entries of a program's listing with their places on the tape. -/
def Program.placedEntries (program : Program) : List PlacedEntry :=
  ListingEntry.placed 0 program.entries

/-! ## Running a listing -/

/-- The instruction that is started at an entry, if the entry shows one. -/
def PlacedEntry.started (placed : PlacedEntry) (stack : ValueStack) : List Step :=
  (placed.entry.opcode?.map fun opcode => ⟨placed.position, opcode, stack.entries⟩).toList

/-- An instruction that is started at the place of an entry is the one that the entry shows. -/
def Step.StartsAt (step : Step) (placed : PlacedEntry) : Prop :=
  placed.position = step.position ∧ placed.entry.opcode? = some step.opcode

namespace Machine

variable {environment : Environment}

/-- Execute the entries of a listing one after the other, up to the first that fails. -/
def runEntries (environment : Environment) (stack : ValueStack) : List PlacedEntry → Run
  | [] => ⟨[], result stack⟩
  | placed :: rest =>
    match placed.entry.perform environment stack with
    | .error fault _ => ⟨placed.started stack, .error fault⟩
    | .ok () after =>
      let run := runEntries environment after rest
      ⟨placed.started stack ++ run.steps, run.outcome⟩

/-- Running a tape is running its listing. -/
theorem run_eq_runEntries (environment : Environment) (position : Nat) (stack : ValueStack)
    (words : List Word) :
    run environment position stack words =
      runEntries environment stack
        (ListingEntry.placed position (ListingEntry.ofWords environment.constants words)) := by
  fun_induction ListingEntry.ofWords environment.constants words generalizing position stack with
  | case1 => rfl
  | case2 word rest undefined ih =>
    rw [run_undefined undefined]
    rfl
  | case3 word loads =>
    rw [run.eq_def]
    simp only [loads]
    rfl
  | case4 word loads index rest value stored ih =>
    rw [run.eq_def]
    simp only [loads, stored]
    rw [ListingEntry.placed, runEntries, ListingEntry.perform]
    cases pushed : BoundedStack.push value stack with
    | error fault after => rfl
    | ok _ after =>
      dsimp only
      rw [ih]
      rfl
  | case5 word loads index rest missing ih =>
    rw [run.eq_def]
    simp only [loads, missing]
    rfl
  | case6 word rest opcode plain decoded ih =>
    rw [run_plain decoded plain, ListingEntry.placed, runEntries, ListingEntry.perform]
    cases performed : perform environment opcode stack with
    | error fault after => rfl
    | ok _ after =>
      rw [resume, ih]
      rfl

/-! ## How far a run goes -/

/-- Entries that are executed one after the other, the instructions started on the way, and the
stacks in front of the first and behind the last. -/
inductive Executes (environment : Environment) :
    ValueStack → List PlacedEntry → List Step → ValueStack → Prop where
  | nil (stack : ValueStack) : Executes environment stack [] [] stack
  | cons {before mid after : ValueStack} {placed : PlacedEntry} {opcode : Opcode}
      {executed : List PlacedEntry} {steps : List Step}
      (shown : placed.entry.opcode? = some opcode)
      (performed : placed.entry.perform environment before = .ok () mid)
      (rest : Executes environment mid executed steps after) :
      Executes environment before (placed :: executed)
        (⟨placed.position, opcode, before.entries⟩ :: steps) after

/-- The stacks that executed entries find, one for each, and the one that the last of them leaves,
newest value first. -/
def stacksAlong (steps : List Step) (after : ValueStack) : List (List Float) :=
  steps.map Step.stack ++ [after.entries]

namespace Executes

variable {before after : ValueStack} {executed : List PlacedEntry} {steps : List Step}

/-- What is executed is what has been started. -/
theorem startsAt (h : Executes environment before executed steps after) :
    List.Forall₂ Step.StartsAt steps executed := by
  induction h with
  | nil stack => exact .nil
  | cons shown _ _ ih => exact .cons ⟨rfl, shown⟩ ih

/-- What is executed is listed without a mark. -/
theorem not_isMarked (h : Executes environment before executed steps after) :
    ∀ placed ∈ executed, ¬ placed.entry.IsMarked := by
  induction h with
  | nil stack => simp
  | cons _ performed _ ih =>
    exact List.forall_mem_cons.mpr ⟨ListingEntry.not_isMarked_of_perform_ok performed, ih⟩

/-- The first of the stacks is the one that the entries are executed from. -/
theorem stacksAlong_zero (h : Executes environment before executed steps after) :
    (stacksAlong steps after)[0]? = some before.entries := by
  cases h with
  | nil => rfl
  | cons _ _ _ => rfl

/-- A constant is pushed with the value that is listed: the stack behind it is the one that it
finds, with this value on top. -/
theorem pushes (h : Executes environment before executed steps after) {index position : Nat}
    {value : Float} (listed : executed[index]? = some ⟨position, .constant value⟩) :
    ∃ found, (stacksAlong steps after)[index]? = some found ∧
      (stacksAlong steps after)[index + 1]? = some (value :: found) := by
  induction h generalizing index with
  | nil stack => cases listed
  | @cons before mid after placed opcode executed steps shown performed rest ih =>
    cases index with
    | zero =>
      cases listed
      obtain ⟨_, rfl⟩ := BoundedStack.push_ok performed
      exact ⟨before.entries, rfl, rest.stacksAlong_zero⟩
    | succ index => exact ih listed

end Executes

/-- The value at the end of a tape is the only one on the stack. -/
theorem entries_of_result_ok {stack : ValueStack} {value : Float}
    (finished : result stack = .ok value) : stack.entries = [value] := by
  rcases stack with ⟨values, room, overflow⟩
  match values, finished with
  | [], finished => cases finished
  | [_], finished =>
    cases finished
    rfl
  | _ :: _ :: _, finished => cases finished

/-- How a run ends behind the entries it has executed: with the value at the end of the tape, or at
the next entry with the fault of executing it. -/
inductive EndsAt (environment : Environment) (stack : ValueStack) (steps : List Step) :
    List PlacedEntry → Run → Prop where
  | finished : EndsAt environment stack steps [] ⟨steps, result stack⟩
  | stopped {placed : PlacedEntry} {fault : Fault} {after : ValueStack} (rest : List PlacedEntry)
      (failed : placed.entry.perform environment stack = .error fault after) :
      EndsAt environment stack steps (placed :: rest)
        ⟨steps ++ placed.started stack, .error fault⟩

/-- A run executes entries from the first on and ends behind them. -/
theorem exists_executes (environment : Environment) (stack : ValueStack)
    (entries : List PlacedEntry) :
    ∃ executed ahead steps after, entries = executed ++ ahead ∧
      Executes environment stack executed steps after ∧
      EndsAt environment after steps ahead (runEntries environment stack entries) := by
  induction entries generalizing stack with
  | nil => exact ⟨[], [], [], stack, rfl, .nil stack, .finished⟩
  | cons placed rest ih =>
    rw [runEntries]
    cases performed : placed.entry.perform environment stack with
    | error fault after =>
      exact ⟨[], placed :: rest, [], stack, rfl, .nil stack, .stopped rest performed⟩
    | ok _ mid =>
      obtain ⟨executed, ahead, steps, after, rfl, executes, ends⟩ := ih mid
      obtain ⟨opcode, shown⟩ := ListingEntry.exists_opcode_of_perform_ok performed
      have started : placed.started stack = [⟨placed.position, opcode, stack.entries⟩] := by
        rw [PlacedEntry.started, shown]
        rfl
      refine ⟨placed :: executed, ahead, ⟨placed.position, opcode, stack.entries⟩ :: steps, after,
        rfl, .cons shown performed executes, ?_⟩
      dsimp only
      rw [started]
      generalize runEntries environment mid (executed ++ ahead) = run at ends
      cases ends with
      | finished => exact .finished
      | stopped rest failed => exact .stopped rest failed

/-- The entries at which a run has started an instruction: those it has executed, and the one it
has stopped at if that shows an instruction. -/
theorem EndsAt.exists_startsAt {before stack : ValueStack} {executed ahead : List PlacedEntry}
    {steps : List Step} {run : Run} (executes : Executes environment before executed steps stack)
    (ends : EndsAt environment stack steps ahead run) :
    ∃ last, last <+: ahead.take 1 ∧ List.Forall₂ Step.StartsAt run.steps (executed ++ last) := by
  cases ends with
  | finished => exact ⟨[], List.nil_prefix, by simpa using executes.startsAt⟩
  | @stopped placed fault after rest failed =>
    rw [PlacedEntry.started]
    cases shown : placed.entry.opcode? with
    | none => exact ⟨[], List.nil_prefix, by simpa using executes.startsAt⟩
    | some opcode =>
      exact ⟨[placed], List.prefix_refl _,
        List.rel_append executes.startsAt (.cons ⟨rfl, shown⟩ .nil)⟩

namespace EndsAt

variable {stack : ValueStack} {ahead rest : List PlacedEntry} {steps : List Step} {run : Run}

/-- A run starts its instructions on the stacks along the entries it has executed. -/
theorem steps_along (ends : EndsAt environment stack steps ahead run) :
    run.steps.map Step.stack <+: stacksAlong steps stack := by
  cases ends with
  | finished => exact List.prefix_append _ _
  | @stopped placed fault after rest failed =>
    rw [PlacedEntry.started, List.map_append, stacksAlong]
    cases placed.entry.opcode? with
    | none => exact (List.prefix_append_right_inj _).mpr List.nil_prefix
    | some opcode => exact List.prefix_refl _

/-- A run that has not come to the end of the listing has stopped at the next entry, and if this has
a mark, the fault is one of the machine. -/
theorem exists_fault {placed : PlacedEntry}
    (ends : EndsAt environment stack steps (placed :: rest) run) :
    ∃ fault, run.outcome = .error fault ∧
      (placed.entry.IsMarked → fault.kind = .internal) := by
  cases ends with
  | @stopped _ fault after _ failed =>
    refine ⟨fault, rfl, fun marked => ?_⟩
    obtain ⟨fault', failed', internal⟩ :=
      ListingEntry.perform_of_isMarked marked environment stack
    rw [failed] at failed'
    cases failed'
    exact internal

/-- A run that leads to a value has come to the end of the listing, with the value alone on the
stack. -/
theorem eq_nil_of_ok {value : Float} (ends : EndsAt environment stack steps ahead run)
    (finished : run.outcome = .ok value) :
    ahead = [] ∧ run.steps = steps ∧ stack.entries = [value] := by
  cases ends with
  | finished => exact ⟨rfl, rfl, entries_of_result_ok finished⟩
  | stopped _ _ => cases finished

end EndsAt

end Machine

/-- A run goes through the entries of the listing of its tape, each at its own place, and it never
parts from them.  It executes the entries from the first on and starts one instruction at each of
them, on the stack that executing the entries before it has led to.  At most it starts one more, at
the entry behind, where it stops.  A constant is pushed with the value that is listed: the run goes
on, or ends, with this value on top of the stack that the constant has found.  No entry with a mark
is executed, and a run that comes to one ends there with a fault of the machine.  A run that leads
to a value has executed every entry, none of them has a mark, and the value alone is left. -/
theorem run_follows_listing (program : Program) (x y : Float) :
    program.placedEntries.map PlacedEntry.entry = program.entries ∧
    (∀ before here after, program.placedEntries = before ++ here :: after →
      ListingEntry.ofWords program.constants (program.words.drop here.position) =
        here.entry :: after.map PlacedEntry.entry) ∧
    ∃ executed ahead steps stack,
      program.placedEntries = executed ++ ahead ∧
      Machine.Executes ⟨x, y, program.constants⟩ (Machine.emptyStack program.words) executed steps
        stack ∧
      Machine.EndsAt ⟨x, y, program.constants⟩ stack steps ahead (program.run x y) ∧
      (∃ last, last <+: ahead.take 1 ∧
        List.Forall₂ Step.StartsAt (program.run x y).steps (executed ++ last)) ∧
      (program.run x y).steps.map Step.stack <+: Machine.stacksAlong steps stack ∧
      (∀ index position value, executed[index]? = some ⟨position, .constant value⟩ →
        ∃ found, (Machine.stacksAlong steps stack)[index]? = some found ∧
          (Machine.stacksAlong steps stack)[index + 1]? = some (value :: found)) ∧
      (∀ placed ∈ executed, ¬ placed.entry.IsMarked) ∧
      (∀ placed rest, ahead = placed :: rest → ∃ fault, program.evaluate x y = .error fault ∧
        (placed.entry.IsMarked → fault.kind = .internal)) ∧
      ∀ value, program.evaluate x y = .ok value →
        executed = program.placedEntries ∧ (program.run x y).steps = steps ∧
          stack.entries = [value] ∧ ∀ entry ∈ program.entries, ¬ entry.IsMarked := by
  have entries : program.placedEntries.map PlacedEntry.entry = program.entries :=
    ListingEntry.map_entry_placed 0 program.entries
  refine ⟨entries, fun before here after split => (ListingEntry.ofWords_drop_position split).2, ?_⟩
  obtain ⟨executed, ahead, steps, stack, split, executes, ends⟩ :=
    Machine.exists_executes ⟨x, y, program.constants⟩ (Machine.emptyStack program.words)
      program.placedEntries
  have same : program.run x y = Machine.runEntries ⟨x, y, program.constants⟩
      (Machine.emptyStack program.words) program.placedEntries :=
    Machine.run_eq_runEntries _ 0 _ _
  rw [← same] at ends
  refine ⟨executed, ahead, steps, stack, split, executes, ends, ends.exists_startsAt executes,
    ends.steps_along, fun index position value => executes.pushes, executes.not_isMarked, ?_, ?_⟩
  · rintro placed rest rfl
    exact ends.exists_fault
  · intro value evaluated
    obtain ⟨rfl, started, last⟩ := ends.eq_nil_of_ok evaluated
    rw [List.append_nil] at split
    refine ⟨split.symm, started, last, fun entry member => ?_⟩
    rw [← entries, split] at member
    obtain ⟨placed, inside, rfl⟩ := List.mem_map.mp member
    exact executes.not_isMarked placed inside

end TapeCalc
