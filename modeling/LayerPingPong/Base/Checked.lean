import Mathlib.Algebra.Order.Ring.Int
import Mathlib.Data.List.Basic

/-!
# Checked execution of C++ fragments

Vector accesses, `int` increments and integer divisions have no result outside their range.
The operations below return a `Fault` there, so a run without a fault performs only defined steps.
-/

namespace LayerPingPong.Checked

/-- The ways in which a modelled C++ operation fails to produce a result. -/
inductive Fault where
  | lengthError
  | divisionByZero
  | outOfRange
  | signedOverflow
  deriving DecidableEq, Repr

abbrev Result := Except Fault

variable {α β : Type}

/-- `std::vector::resize` on an empty vector; a negative `int` exceeds `max_size` as a `size_t`. -/
def resize (value : α) (count : Int32) : Result (List α) :=
  if count < 0 then .error .lengthError else .ok (List.replicate count.toInt.toNat value)

/-- Read one element of a vector. -/
def fetch (values : List α) (index : ℕ) : Result α :=
  match values[index]? with
  | some value => .ok value
  | none => .error .outOfRange

/-- Overwrite one element of a vector. -/
def store (values : List α) (index : ℕ) (value : α) : Result (List α) :=
  if index < values.length then .ok (values.set index value) else .error .outOfRange

/-- The increment of an `int`, undefined at the largest value. -/
def increment (value : Int32) : Result Int32 :=
  if value = Int32.maxValue then .error .signedOverflow else .ok (value + 1)

@[simp]
theorem ok_bind (value : α) (next : α → Result β) :
    ((Except.ok value : Result α) >>= next) = next value := rfl

theorem bind_eq_ok {first : Result α} {next : α → Result β} {result : β} :
    (first >>= next) = .ok result ↔ ∃ value, first = .ok value ∧ next value = .ok result := by
  cases first with
  | error fault => simp [bind, Except.bind]
  | ok value => simp [bind, Except.bind]

theorem resize_eq_ok {value : α} {count : Int32} {values : List α}
    (h : resize value count = .ok values) :
    0 ≤ count ∧ values = List.replicate count.toInt.toNat value := by
  unfold resize at h
  split at h
  · cases h
  · rename_i hcount
    refine ⟨Int32.not_lt.mp hcount, ?_⟩
    injection h with h
    exact h.symm

theorem fetch_eq {values : List α} {index : ℕ} (h : index < values.length) :
    fetch values index = .ok values[index] := by
  simp [fetch, List.getElem?_eq_getElem h]

theorem fetch_of_getElem? {values : List α} {index : ℕ} {value : α}
    (h : values[index]? = some value) : fetch values index = .ok value := by
  rw [fetch, h]

theorem store_eq {values : List α} {index : ℕ} (h : index < values.length) (value : α) :
    store values index value = .ok (values.set index value) := if_pos h

theorem store_length {values stored : List α} {index : ℕ} {value : α}
    (h : store values index value = .ok stored) : stored.length = values.length := by
  unfold store at h
  split at h
  · rw [← Except.ok.inj h, List.length_set]
  · cases h

theorem increment_toInt {value next : Int32} (h : increment value = .ok next) :
    next.toInt = value.toInt + 1 := by
  unfold increment at h
  split at h
  · cases h
  · rename_i hne
    rw [← Except.ok.inj h, Int32.toInt_add]
    have hmax : value.toInt ≠ Int32.maxValue.toInt := fun heq ↦ hne (Int32.toInt_inj.mp heq)
    have hle := value.toInt_le
    have hge := value.le_toInt
    change (value.toInt + 1).bmod (2 ^ 32) = value.toInt + 1
    rw [show Int32.maxValue.toInt = 2 ^ 31 - 1 by decide] at hmax hle
    exact Int.bmod_eq_of_le (by omega) (by omega)

theorem exists_increment {value : Int32} (h : value.toInt + 1 < 2 ^ 31) :
    ∃ next, increment value = .ok next := by
  have hne : value ≠ Int32.maxValue := by
    rintro rfl
    exact absurd h (by decide)
  exact ⟨value + 1, if_neg hne⟩

/-- Counting up from zero by `increment` agrees with the natural numbers below `2 ^ 31 - 1`. -/
theorem increment_ofNat {count : ℕ} (h : count + 1 < 2 ^ 31) :
    increment (Int32.ofNat count) = .ok (Int32.ofNat (count + 1)) := by
  have hcount : (Int32.ofNat count).toInt = count := Int32.toInt_ofNat_of_lt (by omega)
  have hne : Int32.ofNat count ≠ Int32.maxValue := by
    intro heq
    have hmax : (Int32.maxValue).toInt = 2 ^ 31 - 1 := by decide
    rw [heq, hmax] at hcount
    omega
  simp [increment, hne]

/-- The conversion to an unsigned type keeps a value that is not negative. -/
theorem int64_toUInt64_toNat {value : Int64} (h : 0 ≤ value) :
    (value.toUInt64.toNat : ℤ) = value.toInt := by
  have hnonneg : 0 ≤ value.toInt := Int64.le_iff_toInt_le.mp h
  rw [Int64.toNat_toUInt64_of_le h]
  exact Int.toNat_of_nonneg hnonneg

/-! ## Loops over a list of inputs -/

section Loop

variable {step : α → β → Result α} {inputs : List β} (holds : List β → α → Prop)

theorem length_succ_le_of_split {past rest : List β} {input : β}
    (h : inputs = past ++ input :: rest) : past.length + 1 ≤ inputs.length := by
  rw [h, List.length_append, List.length_cons]
  omega

/-- What every step preserves holds after all inputs, if the loop has a result. -/
theorem foldlM_invariant
    (hstep : ∀ past input rest state next, inputs = past ++ input :: rest → holds past state →
      step state input = .ok next → holds (past ++ [input]) next)
    {past rest : List β} (hinputs : inputs = past ++ rest) {state last : α} (h : holds past state)
    (hrun : rest.foldlM step state = .ok last) : holds inputs last := by
  induction rest generalizing past state with
  | nil =>
    rw [List.append_nil] at hinputs
    rw [List.foldlM_nil] at hrun
    cases hrun
    exact hinputs ▸ h
  | cons input rest ih =>
    rw [List.foldlM_cons, bind_eq_ok] at hrun
    obtain ⟨next, hnext, hrun⟩ := hrun
    have hsplit : inputs = (past ++ [input]) ++ rest := by rw [hinputs, List.append_cons]
    exact ih hsplit (hstep past input rest state next hinputs h hnext) hrun

/-- If every step also has a result, so has the loop. -/
theorem foldlM_defined
    (hstep : ∀ past input rest state, inputs = past ++ input :: rest → holds past state →
      ∃ next, step state input = .ok next ∧ holds (past ++ [input]) next)
    {past rest : List β} (hinputs : inputs = past ++ rest) {state : α} (h : holds past state) :
    ∃ last, rest.foldlM step state = .ok last ∧ holds inputs last := by
  induction rest generalizing past state with
  | nil =>
    rw [List.append_nil] at hinputs
    exact ⟨state, rfl, hinputs ▸ h⟩
  | cons input rest ih =>
    obtain ⟨next, hnext, hholds⟩ := hstep past input rest state hinputs h
    have hsplit : inputs = (past ++ [input]) ++ rest := by rw [hinputs, List.append_cons]
    obtain ⟨last, hrun, hlast⟩ := ih hsplit hholds
    refine ⟨last, ?_, hlast⟩
    rw [List.foldlM_cons, hnext, ok_bind, hrun]

end Loop

/-- A loop whose iterations all have a result collects their results. -/
theorem mapM_eq_ok {f : α → Result β} {g : α → β} {values : List α}
    (h : ∀ value ∈ values, f value = .ok (g value)) : values.mapM f = .ok (values.map g) := by
  induction values with
  | nil => rfl
  | cons value values ih =>
    rw [List.forall_mem_cons] at h
    rw [List.mapM_cons, h.1, ok_bind, ih h.2]
    rfl

/-- A loop over the positions of a list is a map if every iteration depends on its entry only. -/
theorem mapM_range_eq_ok {γ : Type} {rows : List γ} {body : ℕ → Result β} {g : γ → β}
    (h : ∀ i row, rows[i]? = some row → body i = .ok (g row)) :
    (List.range rows.length).mapM body = .ok (rows.map g) := by
  have hrange : List.range rows.length = rows.zipIdx.map Prod.snd := by
    rw [List.zipIdx_map_snd, List.range_eq_range']
  have hrows : rows.zipIdx.map (g ∘ Prod.fst) = rows.map g := by
    rw [← List.map_map, List.zipIdx_map_fst]
  rw [hrange, List.mapM_map, ← hrows]
  refine mapM_eq_ok fun row hrow ↦ h row.2 row.1 ?_
  exact List.mk_mem_zipIdx_iff_getElem?.mp hrow

end LayerPingPong.Checked
