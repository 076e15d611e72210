import LayerPingPong.Base.Checked

/-!
# The time series of latencies

`TimeSeriesReport` keeps the first latencies in a vector of fixed size. Its index goes on counting
after the vector is full and is compared with the size only, so it has to stay an `int`.
-/

namespace LayerPingPong.MeasureCommon

open Checked

structure TimeSeriesReport where
  maxDataNum : Int32
  idx : Int32
  data : List UInt64
  deriving DecidableEq, Repr

def TimeSeriesReport.new (maxDataNum : Int32) : Result TimeSeriesReport := do
  let data ← resize 0 maxDataNum
  return { maxDataNum, idx := 0, data }

/-- The first statement of `add`. A negative index passes the one-sided test. -/
def TimeSeriesReport.record (report : TimeSeriesReport) (ns : UInt64) : Result (List UInt64) :=
  if report.idx < report.maxDataNum then
    if report.idx < 0 then .error .outOfRange else store report.data report.idx.toInt.toNat ns
  else .ok report.data

def TimeSeriesReport.add (report : TimeSeriesReport) (ns : UInt64) : Result TimeSeriesReport := do
  let data ← report.record ns
  let idx ← increment report.idx
  return { report with data, idx }

/-- Feed a sequence of samples, in order. -/
def TimeSeriesReport.addAll (report : TimeSeriesReport) (samples : List UInt64) :
    Result TimeSeriesReport := samples.foldlM TimeSeriesReport.add report

/-! ## The parts of one update -/

theorem timeSeries_add_eq_ok {report next : TimeSeriesReport} {ns : UInt64} :
    report.add ns = .ok next ↔ ∃ data idx, report.record ns = .ok data ∧
      increment report.idx = .ok idx ∧ next = { report with data, idx } := by
  simp only [TimeSeriesReport.add, bind_eq_ok, pure, Except.pure, Except.ok.injEq]
  constructor
  · rintro ⟨data, hdata, idx, hidx, rfl⟩
    exact ⟨data, idx, hdata, hidx, rfl⟩
  · rintro ⟨data, idx, hdata, hidx, rfl⟩
    exact ⟨data, hdata, idx, hidx, rfl⟩

theorem timeSeries_new_eq_ok {maxDataNum : Int32} {fresh : TimeSeriesReport}
    (h : TimeSeriesReport.new maxDataNum = .ok fresh) :
    0 ≤ maxDataNum ∧
      fresh = { maxDataNum, idx := 0, data := List.replicate maxDataNum.toInt.toNat 0 } := by
  simp only [TimeSeriesReport.new, bind_eq_ok, pure, Except.pure, Except.ok.injEq] at h
  obtain ⟨data, hdata, rfl⟩ := h
  obtain ⟨hmaxDataNum, rfl⟩ := resize_eq_ok hdata
  exact ⟨hmaxDataNum, rfl⟩

/-! ## Whole runs -/

/-- The vector after the samples: the first ones, then the zeros of the constructor. -/
def series (capacity : ℕ) (samples : List UInt64) : List UInt64 :=
  samples.take capacity ++ List.replicate (capacity - samples.length) 0

@[simp]
theorem series_length (capacity : ℕ) (samples : List UInt64) :
    (series capacity samples).length = capacity := by
  simp [series]
  omega

theorem series_getElem?_of_lt {capacity i : ℕ} {samples : List UInt64}
    (h : i < min samples.length capacity) : (series capacity samples)[i]? = samples[i]? := by
  rw [series, List.getElem?_append_left (by rw [List.length_take]; omega),
    List.getElem?_take_of_lt (by omega)]

theorem series_getElem?_of_ge {capacity i : ℕ} {samples : List UInt64} (hi : samples.length ≤ i)
    (h : i < capacity) : (series capacity samples)[i]? = some 0 := by
  rw [series, List.getElem?_append_right (by rw [List.length_take]; omega),
    List.getElem?_replicate, List.length_take, if_pos (by omega)]

/-- One more sample takes the place of the first zero, if there is one. -/
theorem series_concat (capacity : ℕ) (samples : List UInt64) (ns : UInt64) :
    series capacity (samples ++ [ns]) =
      if samples.length < capacity then (series capacity samples).set samples.length ns
      else series capacity samples := by
  split
  · rename_i hlt
    apply List.ext_getElem?
    intro i
    rw [List.getElem?_set, series_length, if_pos hlt]
    by_cases hi : i < capacity
    · rcases Nat.lt_trichotomy i samples.length with hbefore | rfl | hafter
      · rw [if_neg hbefore.ne', series_getElem?_of_lt (by rw [List.length_append]; omega),
          series_getElem?_of_lt (by omega), List.getElem?_append_left hbefore]
      · rw [if_pos rfl, series_getElem?_of_lt (by rw [List.length_append]; simp; omega)]
        simp
      · rw [if_neg hafter.ne, series_getElem?_of_ge hafter.le hi,
          series_getElem?_of_ge (by rw [List.length_append]; exact hafter) hi]
    · rw [List.getElem?_eq_none (by simpa using hi), if_neg (by omega),
        List.getElem?_eq_none (by simpa using hi)]
  · rename_i hge
    have hfull : capacity - samples.length = 0 := by omega
    have hstill : capacity - (samples ++ [ns]).length = 0 := by
      rw [List.length_append]
      omega
    rw [series, series, hfull, hstill, List.take_append_of_le_length (by omega)]

/-- The state of a report that was `fresh` and has since received `samples`. -/
structure TimeSeriesReport.Fed (fresh : TimeSeriesReport) (samples : List UInt64)
    (report : TimeSeriesReport) : Prop where
  maxDataNum : report.maxDataNum = fresh.maxDataNum
  idx : report.idx = Int32.ofNat samples.length
  data : report.data = series fresh.maxDataNum.toInt.toNat samples

theorem timeSeries_fed_new {maxDataNum : Int32} {fresh : TimeSeriesReport}
    (h : TimeSeriesReport.new maxDataNum = .ok fresh) : fresh.Fed [] fresh := by
  obtain ⟨-, rfl⟩ := timeSeries_new_eq_ok h
  exact ⟨rfl, rfl, by simp [series]⟩

/-- The write is in range as long as the index has not overflowed. -/
theorem TimeSeriesReport.Fed.record_spec {fresh report : TimeSeriesReport} {samples : List UInt64}
    (h : fresh.Fed samples report) (hcount : samples.length < 2 ^ 31) (ns : UInt64) :
    report.record ns = .ok (series fresh.maxDataNum.toInt.toNat (samples ++ [ns])) := by
  have hidx : report.idx.toInt = samples.length := by
    rw [h.idx, Int32.toInt_ofNat_of_lt hcount]
  have hnonneg : ¬ report.idx < 0 := by
    rw [Int32.lt_iff_toInt_lt, hidx]
    exact not_lt.mpr (Int.natCast_nonneg _)
  have htest : report.idx < report.maxDataNum ↔
      samples.length < fresh.maxDataNum.toInt.toNat := by
    rw [Int32.lt_iff_toInt_lt, hidx, h.maxDataNum]
    omega
  have hposition : report.idx.toInt.toNat = samples.length := by omega
  rw [series_concat, TimeSeriesReport.record, h.data, hposition]
  by_cases hlt : samples.length < fresh.maxDataNum.toInt.toNat
  · rw [if_pos (htest.mpr hlt), if_neg hnonneg, if_pos hlt, store_eq (by simpa using hlt)]
  · rw [if_neg (htest.not.mpr hlt), if_neg hlt]

theorem TimeSeriesReport.Fed.add {fresh report : TimeSeriesReport} {samples : List UInt64}
    (h : fresh.Fed samples report) (hcount : samples.length + 1 < 2 ^ 31) (ns : UInt64) :
    ∃ next, report.add ns = .ok next ∧ fresh.Fed (samples ++ [ns]) next := by
  have hidx := increment_ofNat hcount
  rw [← h.idx] at hidx
  refine ⟨_, timeSeries_add_eq_ok.mpr
    ⟨_, _, h.record_spec (Nat.lt_of_succ_lt hcount) ns, hidx, rfl⟩, h.maxDataNum, ?_, rfl⟩
  simp

theorem TimeSeriesReport.Fed.addAll {fresh : TimeSeriesReport} {samples : List UInt64}
    (h : fresh.Fed [] fresh) (hcount : samples.length < 2 ^ 31) :
    ∃ report, fresh.addAll samples = .ok report ∧ fresh.Fed samples report := by
  apply foldlM_defined fresh.Fed ?_ (List.nil_append samples).symm h
  intro past ns rest report hsplit hfed
  have hlength := length_succ_le_of_split hsplit
  exact hfed.add (by omega) ns

/-- Every sample is counted, also those that are not kept. -/
theorem timeSeries_addAll_idx {report last : TimeSeriesReport} {samples : List UInt64}
    (h : report.addAll samples = .ok last) :
    last.idx.toInt = report.idx.toInt + samples.length := by
  refine foldlM_invariant (fun past state ↦ state.idx.toInt = report.idx.toInt + past.length)
    (fun past ns rest state next _ hidx hadd ↦ ?_) (List.nil_append samples).symm (by simp) h
  obtain ⟨data, idx, -, hincrement, rfl⟩ := timeSeries_add_eq_ok.mp hadd
  rw [increment_toInt hincrement, hidx, List.length_append, List.length_singleton]
  push_cast
  omega

/-- All updates are defined, and the vector keeps the first samples from then on. -/
structure KeepsFirst (fresh : TimeSeriesReport) (samples : List UInt64) : Prop where
  defined : ∃ report, fresh.addAll samples = .ok report
  kept : ∀ past rest report, samples = past ++ rest → fresh.addAll past = .ok report →
    (∀ i < min past.length fresh.maxDataNum.toInt.toNat, report.data[i]? = samples[i]?) ∧
      ∀ i, past.length ≤ i → i < fresh.maxDataNum.toInt.toNat → report.data[i]? = some 0

/-- The series is right exactly for the runs that do not overflow the index. -/
theorem keepsFirst_iff {maxDataNum : Int32} {fresh : TimeSeriesReport} {samples : List UInt64}
    (hnew : TimeSeriesReport.new maxDataNum = .ok fresh) :
    KeepsFirst fresh samples ↔ samples.length < 2 ^ 31 := by
  constructor
  · rintro ⟨⟨report, hrun⟩, -⟩
    have hidx := timeSeries_addAll_idx hrun
    have hlt := report.idx.toInt_lt
    obtain ⟨-, rfl⟩ := timeSeries_new_eq_ok hnew
    rw [show (0 : Int32).toInt = 0 from rfl] at hidx
    omega
  · intro hcount
    have hfresh := timeSeries_fed_new hnew
    obtain ⟨report, hrun, -⟩ := hfresh.addAll hcount
    refine ⟨⟨report, hrun⟩, fun past rest report hsplit hpast ↦ ?_⟩
    have hlength : past.length < 2 ^ 31 := by
      rw [hsplit, List.length_append] at hcount
      omega
    obtain ⟨report', hrun', hfed⟩ := hfresh.addAll hlength
    obtain rfl : report = report' := Except.ok.inj (hpast.symm.trans hrun')
    refine ⟨fun i hi ↦ ?_, fun i hpadding hi ↦ ?_⟩
    · rw [hfed.data, series_getElem?_of_lt hi, hsplit, List.getElem?_append_left (by omega)]
    · rw [hfed.data, series_getElem?_of_ge hpadding hi]

/-- Three samples and room for two. -/
theorem keepsFirst_iff_three : ∃ fresh, TimeSeriesReport.new 2 = .ok fresh ∧
    KeepsFirst fresh [7, 0, 9] :=
  ⟨_, rfl, (keepsFirst_iff (rfl : TimeSeriesReport.new 2 = .ok _)).mpr (by simp)⟩

/-- The sample number `2 ^ 31` overflows the index. -/
theorem keepsFirst_fails : ∃ fresh, TimeSeriesReport.new 2 = .ok fresh ∧
    ¬ KeepsFirst fresh (List.replicate (2 ^ 31) 7) := by
  refine ⟨_, rfl, fun h ↦ ?_⟩
  obtain ⟨report, hrun⟩ := h.defined
  have hidx := timeSeries_addAll_idx hrun
  have hlt := report.idx.toInt_lt
  rw [List.length_replicate, show (0 : Int32).toInt = 0 from rfl] at hidx
  omega

end LayerPingPong.MeasureCommon
