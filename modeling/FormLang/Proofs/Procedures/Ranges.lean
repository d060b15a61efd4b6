import FormLang.Procedure.Apply
import FormLang.Proofs.Numeric.Sums

/-!
Contract: the list that a range makes.

The items are computed from their indices, so nothing accumulates from one to the next. The
first is the start, and the last is the one in front of the first that exceeds the end, or the
one with the greatest index that a range looks at.

Owns: which bounds and increments a range takes, what it fails with for all others, and which
items it makes.
-/

set_option autoImplicit false

namespace FormLang.Procedure

open Numeric

/-- The bounds and the increment that a range takes. -/
structure TakenByRange (start finish increment : Float) : Prop where
  startFinite : start.isFinite = true
  finishFinite : finish.isFinite = true
  incrementFinite : increment.isFinite = true
  ascending : start < finish
  positive : 0 < increment
  bounded : (finish - start) / increment ≤ (2 ^ 20 : Nat).toFloat

section Progression

variable {start finish increment : Float}

/-- The difference may be infinite, but it is always a number, and so is the quotient. So what
does not exceed the limit is at most the limit. -/
theorem not_lt_quotient_iff (startFinite : start.isFinite = true)
    (finishFinite : finish.isFinite = true) (incrementFinite : increment.isFinite = true)
    (positive : 0 < increment) :
    ¬ rangeLimit.toFloat < (finish - start) / increment ↔
      (finish - start) / increment ≤ (2 ^ 20 : Nat).toFloat := by
  have difference := isNaN_sub_of_isFinite finishFinite startFinite
  exact not_lt_iff_le (isNaN_toFloat _) (isNaN_div_of_pos difference incrementFinite positive)

/-- A range refuses exactly what it does not take. -/
theorem rangeViolation?_eq_none_iff :
    rangeViolation? start finish increment = none ↔ TakenByRange start finish increment := by
  have checks : rangeViolation? start finish increment = none ↔
      (start.isFinite = true ∧ finish.isFinite = true ∧ increment.isFinite = true) ∧
        ¬ finish ≤ start ∧ ¬ increment ≤ 0 ∧
          ¬ rangeLimit.toFloat < (finish - start) / increment := by
    grind [rangeViolation?]
  have zero : (0 : Float).isNaN = false := by decide +kernel
  rw [checks]
  constructor
  · rintro ⟨⟨startFinite, finishFinite, incrementFinite⟩, ascending, positive, bounded⟩
    rw [not_le_iff_lt (isNaN_of_isFinite finishFinite) (isNaN_of_isFinite startFinite)]
      at ascending
    rw [not_le_iff_lt (isNaN_of_isFinite incrementFinite) zero] at positive
    rw [not_lt_quotient_iff startFinite finishFinite incrementFinite positive] at bounded
    exact ⟨startFinite, finishFinite, incrementFinite, ascending, positive, bounded⟩
  · rintro ⟨startFinite, finishFinite, incrementFinite, ascending, positive, bounded⟩
    refine ⟨⟨startFinite, finishFinite, incrementFinite⟩, ?_, ?_, ?_⟩
    · rwa [not_le_iff_lt (isNaN_of_isFinite finishFinite) (isNaN_of_isFinite startFinite)]
    · rwa [not_le_iff_lt (isNaN_of_isFinite incrementFinite) zero]
    · rwa [not_lt_quotient_iff startFinite finishFinite incrementFinite positive]

/-- The search looks at no more indices than it may, passes none whose item exceeds the bound,
and ends in front of the last of them only at an item that exceeds it. -/
theorem firstBeyond_spec (start increment bound : Float) (index remaining : Nat) :
    firstBeyond start increment bound index remaining ≤ index + remaining ∧
      (∀ other, index ≤ other → other < firstBeyond start increment bound index remaining →
        progressionItem start increment other ≤ bound) ∧
      (firstBeyond start increment bound index remaining < index + remaining →
        ¬ progressionItem start increment (firstBeyond start increment bound index remaining) ≤
          bound) := by
  induction remaining generalizing index with
  | zero =>
      rw [firstBeyond]
      exact ⟨le_rfl, fun other from_ below => by omega, fun less => by omega⟩
  | succ remaining inductionHypothesis =>
      rw [firstBeyond]
      obtain ⟨atMost, inside, beyond⟩ := inductionHypothesis (index + 1)
      split
      · next within =>
          refine ⟨by omega, fun other atLeast below => ?_, fun less => beyond (by omega)⟩
          rcases Nat.eq_or_lt_of_le atLeast with rfl | behind
          · exact within
          · exact inside other behind below
      · next exceeds =>
          exact ⟨by omega, fun other atLeast below => by omega, fun _ => exceeds⟩

/-- The items of a range are numbers, so that each of them either exceeds the bound or not. -/
theorem not_item_le_iff (taken : TakenByRange start finish increment) (index : Nat) :
    ¬ progressionItem start increment index ≤ finish + threshold ↔
      finish + threshold < start + index.toFloat * increment := by
  have product := isNaN_mul_of_pos (isNaN_toFloat index) taken.incrementFinite taken.positive
  exact not_le_iff_lt (isNaN_add_of_isFinite taken.startFinite product)
    (isNaN_add_of_isFinite taken.finishFinite (by decide +kernel))

/-- The item with index zero is the start. -/
theorem progressionItem_zero (taken : TakenByRange start finish increment)
    (cleared : Cleared start) : progressionItem start increment 0 = start := by
  show start + 0 * increment = start
  rw [zero_mul_of_pos taken.incrementFinite taken.positive, cleared.add_zero]

/-- The first items of a progression. -/
def firstItems (start increment : Float) (count : Nat) : List Expr :=
  (List.range count).map fun index => .ofNumber (start + index.toFloat * increment)

/-- The number of items of a range: the least index whose item exceeds the end by more than the
threshold, or one more than `2 ^ 20` if none up to that one does. -/
structure IsItemCount (start finish increment : Float) (count : Nat) : Prop where
  inside : ∀ index < count, ¬ finish + threshold < start + index.toFloat * increment
  beyond : count ≤ 2 ^ 20 → finish + threshold < start + count.toFloat * increment
  bounded : count ≤ 2 ^ 20 + 1

theorem exists_itemCount (taken : TakenByRange start finish increment) :
    ∃ count, IsItemCount start finish increment count ∧
      (progression start finish increment).map Expr.ofNumber = firstItems start increment count := by
  obtain ⟨count, counted⟩ : ∃ count,
    firstBeyond start increment (finish + threshold) 0 (rangeLimit + 1) = count := ⟨_, rfl⟩
  obtain ⟨atMost, inside, beyond⟩ :=
    firstBeyond_spec start increment (finish + threshold) 0 (rangeLimit + 1)
  rw [counted] at atMost inside beyond
  have limit : rangeLimit = 2 ^ 20 := rfl
  refine ⟨count, ⟨fun index below => ?_, fun within => ?_, by omega⟩, ?_⟩
  · rw [← not_item_le_iff taken, not_not]
    exact inside index (Nat.zero_le index) below
  · rw [← not_item_le_iff taken]
    exact beyond (by omega)
  · rw [progression, counted, List.map_map]
    rfl

/-- The first item is the start, as the end is above it. -/
theorem IsItemCount.head? {count : Nat} (isCount : IsItemCount start finish increment count)
    (taken : TakenByRange start finish increment) (cleared : Cleared start) :
    (firstItems start increment count).head? = some (.leaf (.number start)) := by
  have tolerant : start ≤ finish + threshold :=
    le_trans_of_lt taken.ascending (le_add_of_nonneg taken.finishFinite (by decide +kernel))
  have zero := progressionItem_zero taken cleared
  cases count with
  | zero =>
      have exceeds := (not_item_le_iff taken 0).mpr (isCount.beyond (Nat.zero_le _))
      rw [zero] at exceeds
      exact absurd tolerant exceeds
  | succ more =>
      rw [firstItems, List.range_succ_eq_map, List.map_cons, List.head?_cons,
        show start + (0 : Nat).toFloat * increment = start from zero]
      exact congrArg (fun value => some (Expr.leaf (.number value))) cleared

end Progression

/-- A range of three real numbers is made exactly of the numbers that it takes, and all others
are outside of its domain. Its items are computed from their indices, without a gap, and the
start is the first of them. -/
theorem range_items {start finish increment : Expr} {first last step : Float}
    (startHead : start.head = .number first) (finishHead : finish.head = .number last)
    (incrementHead : increment.head = .number step) (cleared : Cleared first) :
    (TakenByRange first last step → ∃ count, IsItemCount first last step count ∧
      Procedure.range.apply [start, finish, increment] =
        .ok (.list (firstItems first step count)) ∧
      (firstItems first step count).head? = some (.leaf (.number first))) ∧
    (¬ TakenByRange first last step → ∃ limit,
      Procedure.range.apply [start, finish, increment] =
        .error (.outsideDomain (.procedure .range) limit)) := by
  rw [Procedure.apply, applyRange, startHead, finishHead, incrementHead]
  constructor
  · intro taken
    obtain ⟨count, isCount, items⟩ := exists_itemCount taken
    refine ⟨count, isCount, ?_, isCount.head? taken cleared⟩
    simp only [Atom.number?, rangeViolation?_eq_none_iff.mpr taken, items]
  · intro notTaken
    cases violated : rangeViolation? first last step with
    | none => exact absurd (rangeViolation?_eq_none_iff.mp violated) notTaken
    | some limit =>
        refine ⟨limit, ?_⟩
        simp only [Atom.number?, violated, refuseDomain]

theorem range_items_halves :
    TakenByRange 0 1 0.5 ∧ Cleared 0 ∧
      Procedure.range.apply [.leaf (.number 0), .leaf (.number 1), .leaf (.number 0.5)] =
        .ok (.list [.leaf (.number 0), .leaf (.number 0.5), .leaf (.number 1)]) := by
  have taken : TakenByRange 0 1 0.5 := by
    refine ⟨?_, ?_, ?_, ?_, ?_, ?_⟩ <;> decide +kernel
  have cleared : Cleared 0 := cleared_iff.mpr (.inr (.inl rfl))
  have head (value : Float) : (Expr.leaf (.number value)).head = .number value := rfl
  obtain ⟨count, isCount, outcome, -⟩ :=
    (range_items (head 0) (head 1) (head 0.5) cleared).1 taken
  refine ⟨taken, cleared, ?_⟩
  have least : count = 3 := by
    rcases lt_trichotomy count 3 with fewer | three | more
    · have exceeds := isCount.beyond (by omega)
      interval_cases count <;> exact absurd exceeds (by decide +kernel)
    · exact three
    · exact absurd (isCount.inside 3 more) (by decide +kernel)
  rw [outcome, least]
  decide +kernel

end FormLang.Procedure
