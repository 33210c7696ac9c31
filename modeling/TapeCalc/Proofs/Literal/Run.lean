import TapeCalc.Proofs.Literal.Grammar

/-!
# Runs are as long as they can be

A run is scanned greedily, an exponent mark together with the sign behind it.  What it takes can
be said character by character: each one may stand anywhere in a run, or it is a sign that stands
directly behind an exponent mark.  Of all such beginnings of the text a run is the longest.

Main definitions:

- {lit}`Literal.IsRun`: the texts that a run may consist of.
- {lit}`Literal.IsLongestRun`: the longest of them at the start of a text.

Main results:

- Theorem {lit}`Literal.isLongestRun_run`: a run is as long as it can be.
- Theorem {lit}`Literal.IsRun.isNumeral_iff`: a run is a literal without sign and blanks, or none.
-/

namespace TapeCalc

namespace Literal

/-! ## Characters of a run -/

/-- Whether a character may follow another one in a run. -/
def Follows (c d : Char) : Prop :=
  inRun d = true ∨ isExponentMark c = true ∧ isSign d = true

/-- Each character may stand anywhere in a run, or it is a sign directly behind an exponent mark
of the run. -/
structure IsRun (run : List Char) : Prop where
  first : ∀ c, run.head? = some c → inRun c = true
  chain : run.IsChain Follows

/-- A run at the start of a text that is longer than all others there. -/
structure IsLongestRun (run text : List Char) : Prop where
  isRun : IsRun run
  isPrefix : run <+: text
  longest : ∀ other, IsRun other → other <+: text → other.length ≤ run.length

/-- Nothing is a run. -/
theorem isRun_nil : IsRun [] := ⟨by simp, .nil⟩

/-- One character is a run if it may stand anywhere in one. -/
theorem isRun_singleton {c : Char} : IsRun [c] ↔ inRun c = true :=
  ⟨fun h => h.first c rfl, fun inside => ⟨by simpa using inside, .singleton c⟩⟩

/-- Behind a sign a run goes on as at its start. -/
theorem isChain_cons_of_isSign {d : Char} (h : isSign d = true) (rest : List Char) :
    (d :: rest).IsChain Follows ↔ IsRun rest := by
  have plain : isExponentMark d = false := by
    simp only [isSign, Bool.or_eq_true, beq_iff_eq] at h
    rcases h with rfl | rfl <;> decide
  cases rest with
  | nil => exact ⟨fun _ => isRun_nil, fun _ => .singleton d⟩
  | cons e rest =>
    rw [List.isChain_cons_cons, Follows]
    constructor
    · rintro ⟨inside | ⟨mark, _⟩, chain⟩
      · exact ⟨by simpa using inside, chain⟩
      · rw [plain] at mark
        cases mark
    · intro h
      exact ⟨Or.inl (h.first e rfl), h.chain⟩

/-- A run of two characters and more begins with an exponent mark and its sign, or with a
character that a run goes on behind. -/
theorem isRun_cons_cons (c d : Char) (rest : List Char) :
    IsRun (c :: d :: rest) ↔
      inRun c = true ∧
        if (isExponentMark c && isSign d) = true then IsRun rest else IsRun (d :: rest) := by
  have heads : IsRun (c :: d :: rest) ↔
      inRun c = true ∧ Follows c d ∧ (d :: rest).IsChain Follows := by
    rw [← List.isChain_cons_cons]
    exact ⟨fun h => ⟨h.first c rfl, h.chain⟩, fun ⟨inside, chain⟩ => ⟨by simpa using inside, chain⟩⟩
  rw [heads]
  refine and_congr_right fun _ => ?_
  split
  · rename_i signed
    rw [Bool.and_eq_true] at signed
    rw [isChain_cons_of_isSign signed.2]
    exact and_iff_right (Or.inr signed)
  · rename_i unsigned
    have follows : Follows c d ↔ inRun d = true :=
      or_iff_left fun signed => unsigned (Bool.and_eq_true_iff.mpr signed)
    rw [follows]
    exact ⟨fun ⟨inside, chain⟩ => ⟨by simpa using inside, chain⟩, fun h => ⟨h.first d rfl, h.chain⟩⟩

/-- An exponent mark may stand anywhere in a run. -/
theorem inRun_of_isExponentMark {c : Char} (h : isExponentMark c = true) : inRun c = true := by
  rw [inRun, h, Bool.or_true]

/-! ## The run at the start of a text -/

/-- What is scanned as a run is one. -/
theorem isRun_run (text : List Char) : IsRun (run text).1 := by
  fun_induction run text with
  | case1 => exact isRun_nil
  | case2 c inside => exact isRun_singleton.mpr inside
  | case3 c outside => exact isRun_nil
  | case4 c d rest signed taken left ran ih =>
    rw [ran] at ih
    refine (isRun_cons_cons c d taken).mpr ⟨?_, by rwa [if_pos signed]⟩
    exact inRun_of_isExponentMark (Bool.and_eq_true_iff.mp signed).1
  | case5 c d rest unsigned inside taken left ran ih =>
    rw [ran] at ih
    cases taken with
    | nil => exact isRun_singleton.mpr inside
    | cons e taken =>
      -- The run goes on with the next character, which is no sign of the one in front of it.
      have whole := run_append (d :: rest)
      rw [ran] at whole
      obtain ⟨rfl, _⟩ := List.cons.inj whole
      exact (isRun_cons_cons c e taken).mpr ⟨inside, by rwa [if_neg unsigned]⟩
  | case6 c d rest unsigned outside => exact isRun_nil

/-- No run at the start of a text is longer than the one that is scanned. -/
theorem IsRun.length_le {other text : List Char} (isRun : IsRun other) (front : other <+: text) :
    other.length ≤ (run text).1.length := by
  -- A run of two characters and more is compared with the case of the scan that begins like it.
  fun_induction run text generalizing other with
  | case1 => exact front.length_le
  | case2 c inside => exact front.length_le
  | case3 c outside =>
    rcases List.prefix_cons_iff.mp front with rfl | ⟨other, rfl, _⟩
    · exact Nat.le_refl _
    · exact absurd (isRun.first c rfl) outside
  | case4 c d rest signed taken left ran ih =>
    rw [ran] at ih
    rcases List.prefix_cons_iff.mp front with rfl | ⟨more, rfl, second⟩
    · exact Nat.zero_le _
    · rcases List.prefix_cons_iff.mp second with rfl | ⟨more, rfl, third⟩
      · exact Nat.succ_le_succ (Nat.zero_le _)
      · obtain ⟨_, further⟩ := (isRun_cons_cons c d more).mp isRun
        rw [if_pos signed] at further
        exact Nat.succ_le_succ (Nat.succ_le_succ (ih further third))
  | case5 c d rest unsigned inside taken left ran ih =>
    rw [ran] at ih
    rcases List.prefix_cons_iff.mp front with rfl | ⟨more, rfl, second⟩
    · exact Nat.zero_le _
    · refine Nat.succ_le_succ (ih ?_ second)
      rcases List.prefix_cons_iff.mp second with rfl | ⟨more, rfl, _⟩
      · exact isRun_nil
      · obtain ⟨_, further⟩ := (isRun_cons_cons c d more).mp isRun
        rwa [if_neg unsigned] at further
  | case6 c d rest unsigned outside =>
    rcases List.prefix_cons_iff.mp front with rfl | ⟨other, rfl, _⟩
    · exact Nat.le_refl _
    · exact absurd (isRun.first c rfl) outside

/-- What is scanned is the longest run. -/
theorem isLongestRun_run (text : List Char) : IsLongestRun (run text).1 text :=
  ⟨isRun_run text, ⟨(run text).2, run_append text⟩, fun _ isRun front => isRun.length_le front⟩

/-- A text has one longest run. -/
theorem IsLongestRun.unique {text run run' : List Char} (h : IsLongestRun run text)
    (h' : IsLongestRun run' text) : run = run' := by
  have same : run.length = run'.length :=
    Nat.le_antisymm (h'.longest run h.isRun h.isPrefix) (h.longest run' h'.isRun h'.isPrefix)
  exact (List.prefix_of_prefix_length_le h.isPrefix h'.isPrefix (Nat.le_of_eq same)).eq_of_length
    same

/-! ## Runs that are literals -/

/-- Behind a character of a run there are characters of runs and signs only. -/
theorem inRun_or_isSign_of_isChain {c : Char} {run : List Char}
    (h : (c :: run).IsChain Follows) : ∀ d ∈ run, inRun d = true ∨ isSign d = true := by
  induction run generalizing c with
  | nil => simp
  | cons e run ih =>
    obtain ⟨follows, chain⟩ := List.isChain_cons_cons.mp h
    intro d member
    rcases List.mem_cons.mp member with rfl | later
    · exact follows.imp_right And.right
    · exact ih chain d later

/-- A run consists of characters that may stand anywhere in one, and of signs. -/
theorem IsRun.inRun_or_isSign {run : List Char} (h : IsRun run) :
    ∀ d ∈ run, inRun d = true ∨ isSign d = true := by
  cases run with
  | nil => simp
  | cons c run =>
    intro d member
    rcases List.mem_cons.mp member with rfl | later
    · exact Or.inl (h.first d rfl)
    · exact inRun_or_isSign_of_isChain h.chain d later

/-- There is no blank in a run. -/
theorem IsRun.isBlank {run : List Char} (h : IsRun run) : ∀ c ∈ run, isBlank c = false := by
  intro c member
  rcases h.inRun_or_isSign c member with inside | sign
  · rw [inRun, Bool.or_eq_true] at inside
    exact inside.elim isBlank_of_opens isBlank_of_isExponentMark
  · exact isBlank_of_isSign sign

/-- A sign may not stand anywhere in a run. -/
theorem inRun_of_isSign {c : Char} (h : isSign c = true) : inRun c = false := by
  simp only [isSign, Bool.or_eq_true, beq_iff_eq] at h
  rcases h with rfl | rfl <;> decide

/-- An unsigned literal is a numeral without a sign and without blanks. -/
theorem IsUnsigned.isNumeral {body : List Char} (h : IsUnsigned body) : IsNumeral body :=
  ⟨[], body, [], Or.inl rfl, h, by simp, by simp⟩

/-- If a run is a literal, no sign stands in front of it and no blank behind it. -/
theorem IsRun.isNumeral_iff {run : List Char} (h : IsRun run) :
    IsNumeral run ↔ IsUnsigned run := by
  refine ⟨?_, IsUnsigned.isNumeral⟩
  rintro ⟨sign, body, blanks, isSign, isUnsigned, isBlanks, rfl⟩
  have noBlanks : blanks = [] := by
    refine List.eq_nil_iff_forall_not_mem.mpr fun c member => ?_
    have solid := h.isBlank c (List.mem_append_right _ member)
    rw [isBlanks c member] at solid
    cases solid
  rcases isSign with rfl | ⟨c, isSign, rfl⟩
  · rwa [noBlanks, List.append_nil, List.nil_append]
  · have inside := h.first c rfl
    rw [inRun_of_isSign isSign] at inside
    cases inside

/-- A run has a value if and only if it is an unsigned literal. -/
theorem IsRun.exists_value?_iff {run : List Char} (h : IsRun run) :
    (∃ value, value? run = some value) ↔ IsUnsigned run := by
  rw [← Option.isSome_iff_exists, isSome_value?_iff, h.isNumeral_iff]

end Literal

end TapeCalc
