import TapeCalc.Proofs.Program.Stack
import TapeCalc.Program.Tape

/-!
# Planting

An instruction that is planted takes a place on the tape.  A constant takes two, one for the
instruction that loads it and one for its index, and they are taken one after the other.

Main results:

- Theorem {lit}`Tape.plantConstant_eq`: what planting a constant does.
- Theorems {lit}`Tape.grows_plant` and {lit}`Tape.grows_plantConstant`: planting adds words at the
  end, also where it fails.
-/

namespace TapeCalc

namespace Tape

/-- An instruction that is planted takes a free place. -/
theorem plant_ok {opcode : Opcode} {tape after : Tape} (h : plant opcode tape = .ok () after) :
    0 < tape.room ∧ after = tape.pushed opcode.word := by
  obtain ⟨room, reached⟩ := BoundedStack.push_ok h
  exact ⟨Nat.pos_of_ne_zero room, reached⟩

/-- An instruction is planted unless there is no place left. -/
theorem plant_error {opcode : Opcode} {tape after : Tape} {fault : Fault}
    (h : plant opcode tape = .error fault after) :
    tape.room = 0 ∧ fault = .plain tape.overflow := by
  obtain ⟨full, fault, _⟩ := BoundedStack.push_error h
  exact ⟨full, fault⟩

/-- Planting a constant plants an instruction and pushes an index, if it is a word. -/
theorem plantConstant_eq (index : Nat) (tape : Tape) :
    plantConstant index tape =
      if tape.room = 0 then .error (.plain tape.overflow) tape
      else if index < UInt16.size then
        BoundedStack.push (UInt16.ofNat index) (tape.pushed Opcode.loadConst.word)
      else .error (.plain .tooManyConstants) (tape.pushed Opcode.loadConst.word) := by
  by_cases full : tape.room = 0
  · rw [if_pos full]
    exact Action.bind_of_error (BoundedStack.push_full _ full)
  · rw [if_neg full, plantConstant, plant,
      Action.bind_of_ok (BoundedStack.push_eq_pushed _ full)]
    split <;> rfl

/-- A constant that is planted takes two places, and its index is a word. -/
theorem plantConstant_ok {index : Nat} {tape after : Tape}
    (h : plantConstant index tape = .ok () after) :
    1 < tape.room ∧ index < UInt16.size ∧
      after = (tape.pushed Opcode.loadConst.word).pushed (UInt16.ofNat index) := by
  rw [plantConstant_eq, BoundedStack.push_eq, BoundedStack.room_pushed] at h
  split at h
  · cases h
  · split at h
    · split at h
      · cases h
      · cases h
        exact ⟨by omega, ‹_›, rfl⟩
    · cases h

/-- A constant is planted unless there are fewer than two places left or its index is no word. -/
theorem plantConstant_error {index : Nat} {tape after : Tape} {fault : Fault}
    (h : plantConstant index tape = .error fault after) :
    (tape.room < 2 ∧ fault = .plain tape.overflow) ∨
      (UInt16.size ≤ index ∧ fault = .plain .tooManyConstants) := by
  rw [plantConstant_eq, BoundedStack.push_eq, BoundedStack.room_pushed] at h
  split at h
  · cases h
    exact Or.inl ⟨by omega, rfl⟩
  · split at h
    · split at h
      · cases h
        exact Or.inl ⟨by omega, rfl⟩
      · cases h
    · cases h
      exact Or.inr ⟨by omega, rfl⟩

/-- Planting an instruction only adds to the tape. -/
theorem grows_plant (opcode : Opcode) (tape : Tape) :
    tape.Grows (Action.reached (plant opcode tape)) :=
  BoundedStack.grows_push opcode.word tape

/-- What planting a constant leaves where it fails: the instruction without its index, if there has
been a place for it. -/
theorem reached_of_plantConstant_error {index : Nat} {tape after : Tape} {fault : Fault}
    (h : plantConstant index tape = .error fault after) :
    after = if tape.room = 0 then tape else tape.pushed Opcode.loadConst.word := by
  rw [plantConstant_eq, BoundedStack.push_eq] at h
  split at h
  · rename_i full
    cases h
    rw [if_pos full]
  · rename_i place
    rw [if_neg place]
    split at h
    · split at h <;> cases h
      rfl
    · cases h
      rfl

/-- Planting a constant only adds to the tape, also where it fails. -/
theorem grows_plantConstant (index : Nat) (tape : Tape) :
    tape.Grows (Action.reached (plantConstant index tape)) := by
  rw [plantConstant_eq]
  by_cases full : tape.room = 0
  · rw [if_pos full]
    exact .refl tape
  · have first : tape.Grows (tape.pushed Opcode.loadConst.word) := .pushed _ full
    rw [if_neg full]
    split
    · exact first.trans (BoundedStack.grows_push _ _)
    · exact first

end Tape

end TapeCalc
