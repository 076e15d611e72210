import LayerPingPong.Base.Checked

/-!
# The latency histogram and its top-N table

`HistReport` counts latencies by bin and keeps the largest ones with their sample numbers. The
table lives in two parallel vectors that `add` shifts with a nested loop.
-/

namespace LayerPingPong.MeasureCommon

open Checked

/-- The parallel vectors `top_ns_` and `top_idx_`. -/
structure TopTable where
  topNs : List UInt64
  topIdx : List Int32
  deriving DecidableEq, Repr

structure HistReport extends TopTable where
  bins : List UInt32
  binsNum : Int32
  binWidthNs : UInt64
  idx : Int32
  maxTopn : Int32
  deriving DecidableEq, Repr

/-- The constructor; its callers leave the last two arguments at 1000 and 10. -/
def HistReport.new (binsNum : Int32) (binWidthNs : UInt64 := 1000) (maxTopn : Int32 := 10) :
    Result HistReport := do
  let bins ← resize 0 binsNum
  let topNs ← resize 0 maxTopn
  let topIdx ← resize 0 maxTopn
  return { topNs, topIdx, bins, binsNum, binWidthNs, idx := 0, maxTopn }

/-- `int bi = ns / bin_width_ns_`: the 64-bit quotient is narrowed to 32 bits. -/
def HistReport.binIndex (report : HistReport) (ns : UInt64) : Int32 :=
  (ns / report.binWidthNs).toUInt32.toInt32

/-- The first statement of `add`. A negative index passes the one-sided test. -/
def HistReport.countBin (report : HistReport) (ns : UInt64) : Result (List UInt32) :=
  if report.binWidthNs = 0 then .error .divisionByZero
  else
    let bi := report.binIndex ns
    if bi < report.binsNum then
      if bi < 0 then .error .outOfRange
      else do
        let count ← fetch report.bins bi.toInt.toNat
        store report.bins bi.toInt.toNat (count + 1)
    else .ok report.bins

/-- The inner loop `for (int j = max_topn_ - 1; j > i; j--)`, entered with the current `j`. -/
def TopTable.shiftBackward (i : ℕ) : ℕ → TopTable → Result TopTable
  | 0, table => .ok table
  | j + 1, table =>
    if j + 1 > i then do
      let ns ← fetch table.topNs j
      let topNs ← store table.topNs (j + 1) ns
      let idx ← fetch table.topIdx j
      let topIdx ← store table.topIdx (j + 1) idx
      TopTable.shiftBackward i j { topNs, topIdx }
    else .ok table

/-- The body after the `continue`: shift the tail, then write row `i`. -/
def TopTable.insertAt (table : TopTable) (ns : UInt64) (idx : Int32) (maxTopn i : ℕ) :
    Result TopTable := do
  let shifted ← table.shiftBackward i (maxTopn - 1)
  let topNs ← store shifted.topNs i ns
  let topIdx ← store shifted.topIdx i idx
  return { topNs, topIdx }

/-- The outer loop over `i`, with `remaining = max_topn_ - i` iterations to go. -/
def TopTable.update (ns : UInt64) (idx : Int32) (maxTopn : ℕ) :
    ℕ → TopTable → Result TopTable
  | 0, table => .ok table
  | remaining + 1, table => do
    let i := maxTopn - (remaining + 1)
    let top ← fetch table.topNs i
    if ns < top then TopTable.update ns idx maxTopn remaining table
    else table.insertAt ns idx maxTopn i

def HistReport.add (report : HistReport) (ns : UInt64) : Result HistReport := do
  let bins ← report.countBin ns
  let rows := report.maxTopn.toInt.toNat
  let table ← report.toTopTable.update ns report.idx rows rows
  let idx ← increment report.idx
  return { report with toTopTable := table, bins, idx }

/-- Feed a sequence of samples, in order. -/
def HistReport.addAll (report : HistReport) (samples : List UInt64) : Result HistReport :=
  samples.foldlM HistReport.add report

/-- The rows that `topnToHist` writes. -/
def HistReport.topRows (report : HistReport) : List (UInt64 × Int32) :=
  report.topNs.zip report.topIdx

/-! ## The index that the narrowed quotient selects -/

/-- The exact quotient of a sample. -/
def HistReport.quotient (report : HistReport) (ns : UInt64) : ℕ :=
  ns.toNat / report.binWidthNs.toNat

/-- The narrowing keeps the residue modulo `2 ^ 32` and reads its upper half as negative. -/
theorem binIndex_toInt (report : HistReport) (ns : UInt64) :
    (report.quotient ns % 2 ^ 32 < 2 ^ 31 ∧
        (report.binIndex ns).toInt = (report.quotient ns : ℤ) % 2 ^ 32) ∨
      (2 ^ 31 ≤ report.quotient ns % 2 ^ 32 ∧
        (report.binIndex ns).toInt = (report.quotient ns : ℤ) % 2 ^ 32 - 2 ^ 32) := by
  have hnat : (ns / report.binWidthNs).toUInt32.toBitVec.toNat =
      report.quotient ns % 2 ^ 32 := by
    simp [HistReport.quotient]
  have htoInt : (report.binIndex ns).toInt =
      (ns / report.binWidthNs).toUInt32.toBitVec.toInt := rfl
  rw [htoInt, BitVec.toInt_eq_toNat_cond, hnat]
  split_ifs <;> omega

/-- A sample for which the vector access of `add`, if it is made at all, is in range. -/
def HistReport.BinUpdateInRange (report : HistReport) (ns : UInt64) : Prop :=
  report.binIndex ns < report.binsNum → 0 ≤ report.binIndex ns

instance (report : HistReport) (ns : UInt64) : Decidable (report.BinUpdateInRange ns) :=
  inferInstanceAs (Decidable (_ → _))

/-! ## The parts of one update -/

theorem countBin_of_ge {report : HistReport} {ns : UInt64} (hwidth : report.binWidthNs ≠ 0)
    (h : report.binsNum ≤ report.binIndex ns) : report.countBin ns = .ok report.bins := by
  rw [HistReport.countBin, if_neg hwidth]
  exact if_neg (Int32.not_lt.mpr h)

theorem countBin_of_neg {report : HistReport} {ns : UInt64} (hwidth : report.binWidthNs ≠ 0)
    (h : report.binIndex ns < report.binsNum) (hneg : report.binIndex ns < 0) :
    report.countBin ns = .error .outOfRange := by
  simp only [HistReport.countBin, if_neg hwidth, if_pos h, if_pos hneg]

/-- An access in range increments one element. -/
theorem countBin_of_lt {report : HistReport} {ns : UInt64} (hwidth : report.binWidthNs ≠ 0)
    (hlength : report.bins.length = report.binsNum.toInt.toNat)
    (h : report.binIndex ns < report.binsNum) (hnonneg : 0 ≤ report.binIndex ns) :
    ∃ hindex : (report.binIndex ns).toInt.toNat < report.bins.length,
      report.countBin ns = .ok (report.bins.set (report.binIndex ns).toInt.toNat
        (report.bins[(report.binIndex ns).toInt.toNat] + 1)) := by
  have hindex : (report.binIndex ns).toInt.toNat < report.bins.length := by
    rw [Int32.lt_iff_toInt_lt] at h
    have hzero : (0 : ℤ) ≤ (report.binIndex ns).toInt := Int32.le_iff_toInt_le.mp hnonneg
    omega
  refine ⟨hindex, ?_⟩
  simp only [HistReport.countBin, if_neg hwidth, if_pos h, if_neg (Int32.not_lt.mpr hnonneg),
    fetch_eq hindex, ok_bind, store_eq hindex]

/-- The histogram statement is defined exactly on the samples whose access is in range. -/
theorem countBin_defined_iff {report : HistReport} {ns : UInt64} (hwidth : report.binWidthNs ≠ 0)
    (hlength : report.bins.length = report.binsNum.toInt.toNat) :
    (∃ bins, report.countBin ns = .ok bins) ↔ report.BinUpdateInRange ns := by
  constructor
  · rintro ⟨bins, hbins⟩ hlt
    by_contra hneg
    rw [countBin_of_neg hwidth hlt (Int32.not_le.mp hneg)] at hbins
    cases hbins
  · intro hrange
    by_cases hlt : report.binIndex ns < report.binsNum
    · obtain ⟨_, hbins⟩ := countBin_of_lt hwidth hlength hlt (hrange hlt)
      exact ⟨_, hbins⟩
    · exact ⟨_, countBin_of_ge hwidth (Int32.not_lt.mp hlt)⟩

theorem countBin_length {report : HistReport} {ns : UInt64} {bins : List UInt32}
    (h : report.countBin ns = .ok bins) : bins.length = report.bins.length := by
  unfold HistReport.countBin at h
  split at h
  · cases h
  · dsimp only at h
    split at h
    · split at h
      · cases h
      · obtain ⟨count, -, hstore⟩ := bind_eq_ok.mp h
        exact store_length hstore
    · rw [Except.ok.inj h]

theorem add_eq_ok {report next : HistReport} {ns : UInt64} :
    report.add ns = .ok next ↔ ∃ bins table idx,
      report.countBin ns = .ok bins ∧
      report.toTopTable.update ns report.idx report.maxTopn.toInt.toNat
        report.maxTopn.toInt.toNat = .ok table ∧
      increment report.idx = .ok idx ∧
      next = { report with toTopTable := table, bins, idx } := by
  simp only [HistReport.add, bind_eq_ok, pure, Except.pure, Except.ok.injEq]
  constructor
  · rintro ⟨bins, hbins, table, htable, idx, hidx, rfl⟩
    exact ⟨bins, table, idx, hbins, htable, hidx, rfl⟩
  · rintro ⟨bins, table, idx, hbins, htable, hidx, rfl⟩
    exact ⟨bins, hbins, table, htable, idx, hidx, rfl⟩

theorem new_eq_ok {binsNum maxTopn : Int32} {binWidthNs : UInt64} {fresh : HistReport}
    (h : HistReport.new binsNum binWidthNs maxTopn = .ok fresh) :
    0 ≤ binsNum ∧ 0 ≤ maxTopn ∧
      fresh = { topNs := List.replicate maxTopn.toInt.toNat 0,
                topIdx := List.replicate maxTopn.toInt.toNat 0,
                bins := List.replicate binsNum.toInt.toNat 0,
                binsNum, binWidthNs, idx := 0, maxTopn } := by
  simp only [HistReport.new, bind_eq_ok, pure, Except.pure, Except.ok.injEq] at h
  obtain ⟨bins, hbins, topNs, htopNs, topIdx, htopIdx, rfl⟩ := h
  obtain ⟨hbinsNum, rfl⟩ := resize_eq_ok hbins
  obtain ⟨hmaxTopn, rfl⟩ := resize_eq_ok htopNs
  obtain ⟨-, rfl⟩ := resize_eq_ok htopIdx
  exact ⟨hbinsNum, hmaxTopn, rfl⟩

@[simp]
theorem addAll_nil (report : HistReport) : report.addAll [] = .ok report := rfl

@[simp]
theorem addAll_cons (report : HistReport) (ns : UInt64) (samples : List UInt64) :
    report.addAll (ns :: samples) = report.add ns >>= fun next ↦ next.addAll samples := rfl

theorem addAll_append (report : HistReport) (first second : List UInt64) :
    report.addAll (first ++ second) = report.addAll first >>= fun next ↦ next.addAll second :=
  List.foldlM_append

/-- Every sample is counted, also those that are in neither table. -/
theorem addAll_idx {report last : HistReport} {samples : List UInt64}
    (h : report.addAll samples = .ok last) :
    last.idx.toInt = report.idx.toInt + samples.length := by
  refine foldlM_invariant (fun past state ↦ state.idx.toInt = report.idx.toInt + past.length)
    (fun past ns rest state next _ hidx hadd ↦ ?_) (List.nil_append samples).symm (by simp) h
  obtain ⟨bins, table, idx, -, -, hincrement, rfl⟩ := add_eq_ok.mp hadd
  rw [increment_toInt hincrement, hidx, List.length_append, List.length_singleton]
  push_cast
  omega

end LayerPingPong.MeasureCommon
