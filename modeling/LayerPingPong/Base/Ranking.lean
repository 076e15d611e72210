import Mathlib.Data.List.Sort

/-!
# Keeping the first elements of a sorted list

`topOf r n l` is the sorted prefix a bounded ranking table should hold. Inserting one element into
the table and cutting it again agrees with sorting everything first. A table of fixed size that
starts full of a padding value is covered as long as every entry may stand before the padding.
-/

namespace LayerPingPong.Ranking

open List

variable {α : Type*}

theorem insertIdx_length_append (front rest : List α) (x : α) :
    (front ++ rest).insertIdx front.length x = front ++ x :: rest := by
  induction front with
  | nil => rfl
  | cons y front ih => simp [insertIdx_succ_cons, ih]

variable (r : α → α → Prop) [DecidableRel r]

/-- The first `n` elements of `l` after sorting by `r`. -/
def topOf (n : ℕ) (l : List α) : List α := (l.insertionSort r).take n

/-- The table of `n` rows: the ranked entries, then padding. -/
def padded (n : ℕ) (pad : α) (l : List α) : List α :=
  topOf r n l ++ replicate (n - l.length) pad

@[simp]
theorem topOf_length (n : ℕ) (l : List α) : (topOf r n l).length = min n l.length := by
  simp [topOf]

@[simp]
theorem padded_nil (n : ℕ) (pad : α) : padded r n pad [] = replicate n pad := by
  simp [padded, topOf]

@[simp]
theorem padded_length (n : ℕ) (pad : α) (l : List α) : (padded r n pad l).length = n := by
  simp [padded]
  omega

theorem padded_take (n : ℕ) (pad : α) (l : List α) :
    (padded r n pad l).take (min l.length n) = topOf r n l := by
  rw [padded, take_left' (by rw [topOf_length, Nat.min_comm])]

/-- Only the ranked entries stand in the first rows. -/
theorem padded_take_length (n : ℕ) (pad : α) (l : List α) :
    (padded r n pad l).take l.length = topOf r n l := by
  rw [padded, take_append, topOf_length, take_of_length_le (by rw [topOf_length]; omega),
    take_replicate]
  rcases Nat.le_total n l.length with h | h
  · simp [Nat.sub_eq_zero_of_le h]
  · simp [Nat.min_eq_right h]

theorem padded_drop_length (n : ℕ) (pad : α) (l : List α) :
    (padded r n pad l).drop l.length = replicate (n - l.length) pad := by
  rw [padded, drop_append, topOf_length, drop_of_length_le (by rw [topOf_length]; omega),
    drop_replicate, nil_append]
  congr 1
  omega

theorem topOf_eq_take (n : ℕ) (l : List α) :
    topOf r n l = (l.insertionSort r).take (min l.length n) := by
  rw [topOf, take_eq_take_iff, length_insertionSort]
  omega

theorem mem_of_mem_topOf {n : ℕ} {l : List α} {x : α} (h : x ∈ topOf r n l) : x ∈ l :=
  (mem_insertionSort r).mp (mem_of_mem_take h)

/-- Cutting before the insertion does not change the first `n` elements. -/
theorem take_orderedInsert_take (n : ℕ) (x : α) (l : List α) :
    ((l.take n).orderedInsert r x).take n = (l.orderedInsert r x).take n := by
  induction l generalizing n with
  | nil => simp
  | cons y l ih =>
    cases n with
    | zero => simp
    | succ n =>
      by_cases hr : r x y
      · cases n with
        | zero => simp [hr]
        | succ n => simp [hr, take_take]
      · simp [hr, ih]

/-- An element that may stand before the padding never enters it. -/
theorem orderedInsert_append_replicate {x pad : α} (h : r x pad) (l : List α) (count : ℕ) :
    (l ++ replicate (count + 1) pad).orderedInsert r x =
      l.orderedInsert r x ++ replicate (count + 1) pad := by
  induction l with
  | nil => simp [replicate_succ, h]
  | cons y l ih =>
    by_cases hr : r x y
    · simp [hr]
    · simp [hr, ih]

variable [Std.Total r] [IsTrans α r]

/-- Whatever is left out of the table is ranked behind every row of it. -/
theorem rel_of_mem_topOf_of_not_mem {n : ℕ} {l : List α} {x y : α}
    (hx : x ∈ topOf r n l) (hy : y ∈ l) (hout : y ∉ topOf r n l) : r x y := by
  have hsorted := pairwise_insertionSort r l
  rw [← take_append_drop n (l.insertionSort r), pairwise_append] at hsorted
  have hmem : y ∈ (l.insertionSort r).take n ++ (l.insertionSort r).drop n := by
    rw [take_append_drop]
    exact (mem_insertionSort r).mpr hy
  exact hsorted.2.2 x hx y ((mem_append.mp hmem).resolve_left hout)

variable [Std.Antisymm r]

/-- Sorting with one more element at the end inserts it into the sorted list. -/
theorem insertionSort_concat (l : List α) (x : α) :
    (l ++ [x]).insertionSort r = (l.insertionSort r).orderedInsert r x := by
  apply Perm.eq_of_pairwise' (pairwise_insertionSort r _)
    ((pairwise_insertionSort r l).orderedInsert x _)
  calc
    (l ++ [x]).insertionSort r ~ l ++ [x] := perm_insertionSort r _
    _ ~ x :: l := perm_append_singleton x l
    _ ~ x :: l.insertionSort r := (perm_insertionSort r l).symm.cons x
    _ ~ (l.insertionSort r).orderedInsert r x := (perm_orderedInsert r x _).symm

theorem topOf_concat (n : ℕ) (l : List α) (x : α) :
    topOf r n (l ++ [x]) = ((topOf r n l).orderedInsert r x).take n := by
  rw [topOf, insertionSort_concat, topOf, take_orderedInsert_take]

/-- One table update: insert, then drop the last row. -/
theorem padded_concat {pad : α} (n : ℕ) (l : List α) (x : α) (h : r x pad) :
    ((padded r n pad l).orderedInsert r x).take n = padded r n pad (l ++ [x]) := by
  rcases Nat.lt_or_ge l.length n with hlt | hge
  · obtain ⟨count, hcount⟩ : ∃ count, n - l.length = count + 1 :=
      ⟨n - l.length - 1, by omega⟩
    have hlength : ((topOf r n l).orderedInsert r x).length ≤ n := by
      rw [orderedInsert_length, topOf_length]
      omega
    have hrest : n - (l ++ [x]).length = count := by
      simp only [length_append, length_singleton]
      omega
    have hcut : n - ((topOf r n l).orderedInsert r x).length = count := by
      rw [orderedInsert_length, topOf_length]
      omega
    rw [padded, hcount, orderedInsert_append_replicate r h, take_append, take_of_length_le hlength,
      hcut, padded, hrest, topOf_concat, take_of_length_le hlength]
    simp
  · have hfull : n - l.length = 0 := by omega
    have hstill : n - (l ++ [x]).length = 0 := by
      simp only [length_append, length_singleton]
      omega
    rw [padded, hfull, padded, hstill, topOf_concat]
    simp

end LayerPingPong.Ranking
