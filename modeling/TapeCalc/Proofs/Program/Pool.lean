import TapeCalc.Program.Pool
import TapeCalc.Proofs.Decimal.Unsigned
import TapeCalc.Proofs.Program.Stack

/-!
# Storing constants

A value is stored by finding an equal one in the pool, or by putting it at the end.  Which values are
equal is a matter of comparing doubles: the two zeros share a place, and what is no number never
finds itself again.

A pool of doubles without a sign holds each of its values once, and a value that is stored
is found again at its index bit for bit, whether it was new or not.

Main definitions:

- {lit}`Pool.Takes`: a pool has a place for a value.
- {lit}`Pool.Interns`: what storing a value does.
- {lit}`Pool.Apart`: no two places of a pool hold equal values.

Main results:

- Theorem {lit}`Pool.store_withCapacity`: storing under another capacity.
- Theorems {lit}`Pool.exists_store_iff` and {lit}`Pool.store_of_not_takes`: when a value is stored.
- Theorem {lit}`Pool.stores_of_store`: what storing a double without a sign does.
-/

namespace TapeCalc

namespace Pool

/-! ## Storing a value -/

/-- A value is stored at the place of the first equal one, or at the end if there is place. -/
theorem store_eq (value : Float) (pool : Pool) :
    store value pool =
      match pool.toList.findIdx? (· == value) with
      | some index => .ok index pool
      | none =>
        if pool.room = 0 then .error (.plain pool.overflow) pool
        else .ok pool.size (pool.pushed value) := by
  rw [store, Action.get_bind]
  cases pool.toList.findIdx? (· == value) with
  | some index => rfl
  | none =>
    dsimp only
    split
    · exact Action.bind_of_error (BoundedStack.push_full value ‹_›)
    · exact Action.bind_of_ok (BoundedStack.push_eq_pushed value ‹_›)

/-- Storing fails if there is no place left, and then it reports the pool's own code. -/
theorem store_error {value : Float} {pool after : Pool} {fault : Fault}
    (h : store value pool = .error fault after) :
    pool.room = 0 ∧ fault = .plain pool.overflow ∧ after = pool := by
  rw [store_eq] at h
  split at h
  · cases h
  · split at h
    · cases h
      exact ⟨‹_›, rfl, rfl⟩
    · cases h

/-! ## Which values are stored -/

/-- A pool takes a value if it holds an equal one, or if there is a place left. -/
def Takes (value : Float) (pool : Pool) : Prop :=
  (∃ stored ∈ pool.toList, (stored == value) = true) ∨ pool.size < pool.capacity

/-- The index of a value that has been stored, and the pool it is in: as it was if an equal value
has been there, and with the value at its end if not. -/
inductive Interns (value : Float) (pool : Pool) : Nat → Pool → Prop where
  | equal {index : Nat} {stored : Float} (found : pool.toList[index]? = some stored)
      (same : (stored == value) = true) : Interns value pool index pool
  | fresh (place : pool.room ≠ 0)
      (differs : ∀ stored ∈ pool.toList, (stored == value) = false) :
      Interns value pool pool.size (pool.pushed value)

/-- No two places of the pool hold equal values. -/
def Apart (pool : Pool) : Prop := pool.toList.Pairwise fun value other => (value == other) = false

/-- What storing a value does if it succeeds. -/
theorem interns_of_store {value : Float} {pool after : Pool} {index : Nat}
    (h : store value pool = .ok index after) : Interns value pool index after := by
  rw [store_eq] at h
  split at h
  · rename_i found
    cases h
    obtain ⟨inside, equal, _⟩ := List.findIdx?_eq_some_iff_getElem.mp found
    exact .equal (List.getElem?_eq_getElem inside) equal
  · rename_i missing
    split at h
    · cases h
    · rename_i place
      cases h
      exact .fresh place (List.findIdx?_eq_none_iff.mp missing)

/-- A value that finds no equal one is stored only where there is a place left. -/
theorem room_eq_zero_of_not_takes {value : Float} {pool : Pool} (h : ¬ pool.Takes value) :
    pool.room = 0 := by
  have full := (not_or.mp h).2
  rw [BoundedStack.capacity] at full
  omega

/-- A pool that has no place for a value refuses it and stays as it is. -/
theorem store_of_not_takes {value : Float} {pool : Pool} (h : ¬ pool.Takes value) :
    store value pool = .error (.plain pool.overflow) pool := by
  rw [store_eq]
  cases found : pool.toList.findIdx? (· == value) with
  | some index =>
    obtain ⟨inside, equal, _⟩ := List.findIdx?_eq_some_iff_getElem.mp found
    exact absurd (Or.inl ⟨_, List.getElem_mem inside, equal⟩) h
  | none => exact if_pos (room_eq_zero_of_not_takes h)

/-- A value is stored if and only if the pool has a place for it. -/
theorem exists_store_iff {value : Float} {pool : Pool} :
    (∃ index after, store value pool = .ok index after) ↔ pool.Takes value := by
  constructor
  · rintro ⟨index, after, stored⟩
    cases interns_of_store stored with
    | equal found same => exact Or.inl ⟨_, List.mem_of_getElem? found, same⟩
    | fresh place _ =>
      refine Or.inr ?_
      rw [BoundedStack.capacity]
      omega
  · intro takes
    rw [store_eq]
    cases found : pool.toList.findIdx? (· == value) with
    | some index => exact ⟨index, pool, rfl⟩
    | none =>
      have place : pool.room ≠ 0 := by
        rcases takes with ⟨stored, member, same⟩ | room
        · have differs := List.findIdx?_eq_none_iff.mp found stored member
          rw [same] at differs
          cases differs
        · rw [BoundedStack.capacity] at room
          omega
      exact ⟨pool.size, pool.pushed value, if_neg place⟩

/-- A value that is not stored leaves the pool as it is. -/
theorem eq_of_store_error {value : Float} {pool after : Pool} {fault : Fault}
    (h : store value pool = .error fault after) : after = pool := by
  have refused : ¬ pool.Takes value := by
    rw [← exists_store_iff, h]
    rintro ⟨index, stored, impossible⟩
    cases impossible
  rw [store_of_not_takes refused] at h
  cases h
  rfl

/-- A value equal to a stored one is stored without changing anything. -/
theorem exists_store_of_mem {value stored : Float} {pool : Pool} (member : stored ∈ pool.toList)
    (same : (stored == value) = true) : ∃ index, store value pool = .ok index pool := by
  obtain ⟨index, after, ok⟩ := exists_store_iff.mpr (Or.inl ⟨stored, member, same⟩)
  cases interns_of_store ok with
  | equal _ _ => exact ⟨index, ok⟩
  | fresh _ differs =>
    rw [differs stored member] at same
    cases same

namespace Interns

variable {value : Float} {pool after : Pool} {index : Nat}

/-- Storing a value only adds to the pool. -/
theorem grows (h : Interns value pool index after) : pool.Grows after := by
  cases h with
  | equal _ _ => exact .refl pool
  | fresh place _ => exact .pushed value place

/-- No two values that are stored are equal. -/
theorem apart (h : Interns value pool index after) (before : pool.Apart) : after.Apart := by
  cases h with
  | equal _ _ => exact before
  | fresh _ differs =>
    rw [Apart, BoundedStack.toList_pushed]
    refine List.pairwise_append.mpr ⟨before, List.pairwise_singleton _ _, ?_⟩
    intro stored member other last
    rw [List.mem_singleton.mp last]
    exact differs stored member

/-- An equal value stands at the index, or the value itself if it is no number. -/
theorem exists_getElem? (h : Interns value pool index after) :
    ∃ stored, after.toList[index]? = some stored ∧
      ((stored == value) = true ∨ value = .nan ∧ stored = value) := by
  cases h with
  | equal found same => exact ⟨_, found, Or.inl same⟩
  | fresh _ _ =>
    refine ⟨value, ?_, ?_⟩
    · rw [BoundedStack.toList_pushed, ← BoundedStack.length_toList]
      simp
    · by_cases number : value = .nan
      · exact Or.inr ⟨number, rfl⟩
      · exact Or.inl (Float.beq_iff_ne_nan_and_eq.mpr ⟨number, number, Or.inl rfl⟩)

end Interns

/-- Storing a value only adds to the pool, also where it fails. -/
theorem grows_store (value : Float) (pool : Pool) :
    pool.Grows (Action.reached (store value pool)) := by
  cases stored : store value pool with
  | ok index after => exact (interns_of_store stored).grows
  | error fault after => exact eq_of_store_error stored ▸ .refl pool

/-- Storing a value leaves no equal values in two places. -/
theorem Apart.store {pool : Pool} (h : pool.Apart) (value : Float) :
    Apart (Action.reached (Pool.store value pool)) := by
  cases stored : Pool.store value pool with
  | ok index after => exact (interns_of_store stored).apart h
  | error fault after => exact eq_of_store_error stored ▸ h

/-! ## Sizes and capacities -/

/-- Storing never takes anything away, and it adds one value at most. -/
theorem size_le_of_store {value : Float} {pool after : Pool} {index : Nat}
    (h : store value pool = .ok index after) :
    pool.size ≤ after.size ∧ after.size ≤ pool.size + 1 := by
  cases interns_of_store h with
  | equal _ _ => omega
  | fresh _ _ =>
    rw [BoundedStack.size_pushed]
    omega

/-- Storing keeps the capacity. -/
theorem capacity_of_store {value : Float} {pool after : Pool} {index : Nat}
    (h : store value pool = .ok index after) : after.capacity = pool.capacity :=
  (interns_of_store h).grows.capacity

/-- Storing keeps the code that a full pool reports. -/
theorem overflow_of_store {value : Float} {pool after : Pool} {index : Nat}
    (h : store value pool = .ok index after) : after.overflow = pool.overflow := by
  cases interns_of_store h with
  | equal _ _ => rfl
  | fresh _ _ => rfl

/-- What can be stored can be stored under any capacity that it fits. -/
theorem store_withCapacity {value : Float} {pool after : Pool} {index capacity : Nat}
    (h : store value pool = .ok index after) (fits : after.size ≤ capacity) :
    store value (pool.withCapacity capacity) = .ok index (after.withCapacity capacity) := by
  rw [store_eq] at h ⊢
  rw [BoundedStack.toList_withCapacity]
  split at h
  · cases h
    rfl
  · split at h
    · cases h
    · cases h
      rw [BoundedStack.size_pushed] at fits
      rw [if_neg (by simp only [BoundedStack.withCapacity]; omega), BoundedStack.size_withCapacity,
        BoundedStack.pushed_withCapacity]

/-! ## Doubles without a sign -/

/-- The doubles in a pool have no sign, and each is there once. -/
structure Distinct (pool : Pool) : Prop where
  unsigned : ∀ value ∈ pool.toList, HasNoSign value
  nodup : pool.toList.Nodup

/-- An empty pool has nothing in it twice. -/
theorem distinct_empty (places : Nat) : (empty places).Distinct :=
  ⟨by simp [empty], by simp [empty]⟩

/-- The index of a stored value, and the pool it is in: as it was if it had the value, and with
the value at its end if not. -/
inductive Stores (value : Float) (pool : Pool) : Nat → Pool → Prop where
  | known {index : Nat} (found : pool.toList[index]? = some value) : Stores value pool index pool
  | fresh (new : value ∉ pool.toList) : Stores value pool pool.size (pool.pushed value)

/-- Storing a double without a sign keeps the pool's values distinct. -/
theorem stores_of_store {value : Float} {pool after : Pool} {index : Nat}
    (distinct : pool.Distinct) (unsigned : HasNoSign value)
    (h : store value pool = .ok index after) : Stores value pool index after := by
  cases interns_of_store h with
  | @equal index stored found same =>
    have member := distinct.unsigned stored (List.mem_of_getElem? found)
    rw [beq_iff_eq_of_unsigned member unsigned] at same
    exact .known (same ▸ found)
  | fresh _ differs =>
    refine .fresh fun member => ?_
    have different := differs value member
    rw [(beq_iff_eq_of_unsigned unsigned unsigned).mpr rfl] at different
    cases different

namespace Stores

variable {value : Float} {pool after : Pool} {index : Nat}

/-- The value stands at its index. -/
theorem getElem? (h : Stores value pool index after) : after.toList[index]? = some value := by
  cases h with
  | known found => exact found
  | fresh new =>
    rw [BoundedStack.toList_pushed, ← BoundedStack.length_toList]
    simp

/-- What was there stays there. -/
theorem append (h : Stores value pool index after) :
    ∃ more, after.toList = pool.toList ++ more := by
  cases h with
  | known found => exact ⟨[], by simp⟩
  | fresh new => exact ⟨[value], by simp⟩

/-- Nothing but the value has been added. -/
theorem mem_iff (h : Stores value pool index after) (other : Float) :
    other ∈ after.toList ↔ other ∈ pool.toList ∨ other = value := by
  cases h with
  | known found =>
    have member := List.mem_of_getElem? found
    constructor
    · exact Or.inl
    · rintro (old | rfl)
      · exact old
      · exact member
  | fresh new => simp

/-- The values stay distinct. -/
theorem distinct (h : Stores value pool index after) (unsigned : HasNoSign value)
    (before : pool.Distinct) : after.Distinct := by
  refine ⟨fun other member => ?_, ?_⟩
  · rcases (h.mem_iff other).mp member with old | rfl
    · exact before.unsigned other old
    · exact unsigned
  · cases h with
    | known found => exact before.nodup
    | fresh new =>
      rw [BoundedStack.toList_pushed]
      refine List.nodup_append.mpr ⟨before.nodup, by simp, ?_⟩
      rintro a member b last rfl
      exact new (List.mem_singleton.mp last ▸ member)

/-- Storing a value is one step of leaving out all values that have been there. -/
theorem eraseDups (h : Stores value pool index after) (unsigned : HasNoSign value)
    (before : pool.Distinct) (more : List Float) :
    List.eraseDupsBy.loop (· == ·) (value :: more) pool.entries =
      List.eraseDupsBy.loop (· == ·) more after.entries := by
  have seen : pool.entries.any (value == ·) = true ↔ value ∈ pool.toList := by
    rw [List.any_eq_true]
    constructor
    · rintro ⟨other, member, equal⟩
      have known := before.unsigned other (List.mem_reverse.mpr member)
      rw [(beq_iff_eq_of_unsigned unsigned known).mp equal]
      exact List.mem_reverse.mpr member
    · intro member
      exact ⟨value, List.mem_reverse.mp member, (beq_iff_eq_of_unsigned unsigned unsigned).mpr rfl⟩
  rw [List.eraseDupsBy.loop]
  cases h with
  | known found => rw [seen.mpr (List.mem_of_getElem? found)]
  | fresh new => rw [Bool.eq_false_iff.mpr (new ∘ seen.mp), BoundedStack.entries_pushed]

end Stores

end Pool

end TapeCalc
