import Mathlib.Algebra.Order.Ring.Int
import Mathlib.Data.List.Chain

/-!
# Recurring events and their windows

The first of a series of times lies in a window, and each later one follows the one before after at
least one delay and at most another. Then the window of every time of the series is known, as is
that of the next one to come.
-/

namespace LayerPingPong.Pacing

/-- The window of the first time, and the least and the greatest delay of each later one. -/
structure Pace (Time : Type) where
  earliest : Time
  latest : Time
  least : Time
  most : Time

namespace Pace

variable {Time : Type} [AddCommMonoid Time] (pace : Pace Time)

/-- When the next time is possible. -/
def earliestNext (times : List Time) : Time :=
  times.getLast?.elim pace.earliest (· + pace.least)

/-- When the next time is due. -/
def latestNext (times : List Time) : Time :=
  times.getLast?.elim pace.latest (· + pace.most)

variable {pace} {times : List Time} {time : Time}

@[simp]
theorem earliestNext_nil : pace.earliestNext [] = pace.earliest := rfl

@[simp]
theorem latestNext_nil : pace.latestNext [] = pace.latest := rfl

@[simp]
theorem earliestNext_concat : pace.earliestNext (times ++ [time]) = time + pace.least := by
  rw [earliestNext, List.getLast?_concat, Option.elim_some]

theorem earliestNext_of_getLast? (h : times.getLast? = some time) :
    pace.earliestNext times = time + pace.least := by
  rw [earliestNext, h, Option.elim_some]

theorem latestNext_of_getLast? (h : times.getLast? = some time) :
    pace.latestNext times = time + pace.most := by
  rw [latestNext, h, Option.elim_some]

variable [PartialOrder Time]

variable (pace) in
/-- The times so far are in their windows. -/
structure Kept (times : List Time) : Prop where
  first : ∀ time ∈ times.head?, pace.earliest ≤ time ∧ time ≤ pace.latest
  gaps : times.IsChain fun time next ↦ time + pace.least ≤ next ∧ next ≤ time + pace.most

theorem kept_nil : pace.Kept [] := ⟨nofun, .nil⟩

/-- A time in the window for the next one keeps the pace. -/
theorem Kept.concat (h : pace.Kept times) (hearliest : pace.earliestNext times ≤ time)
    (hlatest : time ≤ pace.latestNext times) : pace.Kept (times ++ [time]) := by
  cases hlast : times.getLast? with
  | none =>
    obtain rfl := List.getLast?_eq_none_iff.mp hlast
    refine ⟨fun first hfirst ↦ ?_, .singleton time⟩
    obtain rfl : time = first := Option.some.inj hfirst
    exact ⟨hearliest, hlatest⟩
  | some last =>
    rw [earliestNext_of_getLast? hlast] at hearliest
    rw [latestNext_of_getLast? hlast] at hlatest
    have hne : times ≠ [] := by
      rintro rfl
      cases hlast
    refine ⟨fun first hfirst ↦ ?_, h.gaps.append (.singleton time) fun before hbefore after hafter ↦ ?_⟩
    · rw [List.head?_append_of_ne_nil _ hne] at hfirst
      exact h.first first hfirst
    · obtain rfl : last = before := Option.some.inj (hlast.symm.trans hbefore)
      obtain rfl : time = after := Option.some.inj hafter
      exact ⟨hearliest, hlatest⟩

variable [IsOrderedAddMonoid Time]

/-- Times with others between them are as far apart as the delays add up to. -/
theorem Kept.between (h : pace.Kept times) {index : ℕ} {before after : Time}
    (hbefore : times[index]? = some before) (count : ℕ)
    (hafter : times[index + count]? = some after) :
    before + count • pace.least ≤ after ∧ after ≤ before + count • pace.most := by
  induction count generalizing after with
  | zero =>
    obtain rfl : before = after := Option.some.inj (hbefore.symm.trans hafter)
    rw [zero_nsmul, zero_nsmul, add_zero]
    exact ⟨le_rfl, le_rfl⟩
  | succ count ih =>
    rw [succ_nsmul, succ_nsmul, ← add_assoc, ← add_assoc]
    obtain ⟨hlt, rfl⟩ := List.getElem?_eq_some_iff.mp hafter
    obtain ⟨hleast, hmost⟩ := ih (List.getElem?_eq_getElem (Nat.lt_of_succ_lt hlt))
    obtain ⟨hgap, hgap'⟩ := List.isChain_iff_getElem.mp h.gaps (index + count) hlt
    constructor
    · exact (add_le_add_left hleast _).trans hgap
    · exact hgap'.trans (add_le_add_left hmost _)

/-- The window of each time. -/
theorem Kept.window (h : pace.Kept times) {index : ℕ} (htime : times[index]? = some time) :
    pace.earliest + index • pace.least ≤ time ∧ time ≤ pace.latest + index • pace.most := by
  have hlength := (List.getElem?_eq_some_iff.mp htime).1
  obtain ⟨first, hfirst⟩ : ∃ first, times[0]? = some first :=
    ⟨_, List.getElem?_eq_getElem (Nat.zero_lt_of_lt hlength)⟩
  obtain ⟨hearliest, hlatest⟩ := h.first first (List.head?_eq_getElem?.trans hfirst)
  obtain ⟨hleast, hmost⟩ := h.between hfirst index (by rwa [Nat.zero_add])
  constructor
  · exact (add_le_add_left hearliest _).trans hleast
  · exact hmost.trans (add_le_add_left hlatest _)

/-- The window of the next time, as seen from an earlier one. -/
theorem Kept.next_of_getElem? (h : pace.Kept times) {index : ℕ} (htime : times[index]? = some time) :
    time + (times.length - index) • pace.least ≤ pace.earliestNext times ∧
      pace.latestNext times ≤ time + (times.length - index) • pace.most := by
  have hlength := (List.getElem?_eq_some_iff.mp htime).1
  obtain ⟨count, hcount⟩ : ∃ count, times.length = index + count + 1 :=
    ⟨times.length - index - 1, by omega⟩
  obtain ⟨last, hlast⟩ : ∃ last, times[index + count]? = some last :=
    ⟨_, List.getElem?_eq_getElem (by omega)⟩
  have hgetLast : times.getLast? = some last := by
    rw [List.getLast?_eq_getElem?, hcount]
    exact hlast
  obtain ⟨hleast, hmost⟩ := h.between htime count hlast
  have hsub : times.length - index = count + 1 := by omega
  rw [hsub, succ_nsmul, succ_nsmul, ← add_assoc, ← add_assoc, earliestNext_of_getLast? hgetLast,
    latestNext_of_getLast? hgetLast]
  exact ⟨add_le_add_left hleast _, add_le_add_left hmost _⟩

/-- The window of the next time. -/
theorem Kept.next (h : pace.Kept times) :
    pace.earliest + times.length • pace.least ≤ pace.earliestNext times ∧
      pace.latestNext times ≤ pace.latest + times.length • pace.most := by
  cases hfirst : times[0]? with
  | none =>
    obtain rfl := List.length_eq_zero_iff.mp (Nat.le_zero.mp (List.getElem?_eq_none_iff.mp hfirst))
    simp
  | some first =>
    obtain ⟨hearliest, hlatest⟩ := h.first first (List.head?_eq_getElem?.trans hfirst)
    obtain ⟨hleast, hmost⟩ := h.next_of_getElem? hfirst
    constructor
    · exact (add_le_add_left hearliest _).trans hleast
    · exact hmost.trans (add_le_add_left hlatest _)

end Pace

end LayerPingPong.Pacing
