import LayerPingPong.MeasureCommon.TimeSeriesReport
import LayerPingPong.MeasureCommon.TopN

/-!
# What the reports export

Each report is written as a file of two integer columns. The loops run over the whole vectors, so
the rows that no sample has reached are written with the zeros of the constructor.
-/

namespace LayerPingPong.MeasureCommon

open Checked Ranking

structure Csv where
  header : String
  rows : List (ℤ × ℤ)
  deriving DecidableEq, Repr

def Csv.lines (csv : Csv) : List String :=
  csv.header :: csv.rows.map fun row ↦ toString row.1 ++ "," ++ toString row.2

/-- An export writes its file, or says on `cerr` that it cannot be opened. -/
inductive Export where
  | written (filename : String) (csv : Csv)
  | failed (line : String)
  deriving DecidableEq, Repr

/-- The frame of the three exports. `opens` says which files can be opened for writing. -/
def exportCsv (opens : String → Bool) (filename header : String)
    (loop : Result (List (ℤ × ℤ))) : Result Export :=
  if opens filename then do
    let rows ← loop
    return .written filename { header, rows }
  else .ok (.failed ("failed to open " ++ filename ++ "."))

/-- The loop that writes a vector with its positions. -/
def indexedRows {α : Type} (count : Int32) (values : List α) (value : α → ℤ) :
    Result (List (ℤ × ℤ)) :=
  (List.range count.toInt.toNat).mapM fun i ↦ do
    let entry ← fetch values i
    return ((i : ℤ), value entry)

def HistReport.histRows (report : HistReport) : Result (List (ℤ × ℤ)) :=
  indexedRows report.binsNum report.bins fun count ↦ count.toNat

def HistReport.topnRows (report : HistReport) : Result (List (ℤ × ℤ)) :=
  (List.range report.maxTopn.toInt.toNat).mapM fun i ↦ do
    let ns ← fetch report.topNs i
    let idx ← fetch report.topIdx i
    return ((ns.toNat : ℤ), idx.toInt)

def TimeSeriesReport.csvRows (report : TimeSeriesReport) : Result (List (ℤ × ℤ)) :=
  indexedRows report.maxDataNum report.data fun ns ↦ ns.toNat

def HistReport.histToCsv (report : HistReport) (opens : String → Bool) (filename : String) :
    Result Export := exportCsv opens filename "latency,count" report.histRows

def HistReport.topnToHist (report : HistReport) (opens : String → Bool) (filename : String) :
    Result Export := exportCsv opens filename "latency,index" report.topnRows

def TimeSeriesReport.toCsv (report : TimeSeriesReport) (opens : String → Bool)
    (filename : String) : Result Export := exportCsv opens filename "idx,latency" report.csvRows

/-- The export writes this file whenever it can be opened. -/
def Writes (toFile : (String → Bool) → String → Result Export) (csv : Csv) : Prop :=
  ∀ opens filename, opens filename = true → toFile opens filename = .ok (.written filename csv)

theorem exportCsv_eq {header : String} {loop : Result (List (ℤ × ℤ))} {rows : List (ℤ × ℤ)}
    (h : loop = .ok rows) (opens : String → Bool) (filename : String) :
    exportCsv opens filename header loop = .ok (if opens filename then
      .written filename { header, rows } else .failed ("failed to open " ++ filename ++ ".")) := by
  unfold exportCsv
  split
  · rw [h]
    rfl
  · rfl

theorem writes_of_rows {header : String} {loop : Result (List (ℤ × ℤ))} {rows : List (ℤ × ℤ)}
    (h : loop = .ok rows) :
    Writes (fun opens filename ↦ exportCsv opens filename header loop) { header, rows } := by
  intro opens filename hopens
  simp only [exportCsv_eq h, hopens, if_true]

/-! ## The rows of a report that has received some samples -/

/-- A row of the top-N file. -/
def Sample.row (sample : Sample) : ℤ × ℤ := (sample.1.toNat, (Int32.ofNat sample.2).toInt)

theorem HistReport.Fed.topnRows_eq {fresh report : HistReport} {samples : List UInt64}
    (h : fresh.Fed samples report) : report.topnRows =
      .ok ((padded RanksBefore fresh.maxTopn.toInt.toNat (0, 0) samples.zipIdx).map Sample.row) := by
  obtain ⟨rows, hrows⟩ :
      ∃ rows, rows = padded RanksBefore fresh.maxTopn.toInt.toNat (0, 0) samples.zipIdx := ⟨_, rfl⟩
  have htable := h.table
  rw [← hrows] at htable ⊢
  have hlength : report.maxTopn.toInt.toNat = rows.length := by
    rw [hrows, padded_length, h.maxTopn]
  rw [HistReport.topnRows, hlength]
  refine mapM_range_eq_ok fun i row hrow ↦ ?_
  have hns : report.topNs[i]? = some row.1 := by
    rw [htable.topNs, List.getElem?_map, hrow]
    rfl
  have hidx : report.topIdx[i]? = some (Int32.ofNat row.2) := by
    rw [htable.topIdx, List.getElem?_map, hrow]
    rfl
  rw [fetch_of_getElem? hns, ok_bind, fetch_of_getElem? hidx, ok_bind]
  rfl

theorem indexedRows_eq {α : Type} {count : Int32} {values : List α} {value : α → ℤ}
    (h : values.length = count.toInt.toNat) : indexedRows count values value =
      .ok (values.zipIdx.map fun row ↦ ((row.2 : ℤ), value row.1)) := by
  rw [indexedRows, ← h, ← List.length_zipIdx (l := values)]
  refine mapM_range_eq_ok fun i row hrow ↦ ?_
  rw [List.getElem?_zipIdx, Option.map_eq_some_iff] at hrow
  obtain ⟨entry, hentry, rfl⟩ := hrow
  rw [fetch_of_getElem? hentry, ok_bind, Nat.zero_add]
  rfl

theorem HistReport.Fed.histRows_eq {fresh report : HistReport} {samples : List UInt64}
    (h : fresh.Fed samples report) : report.histRows =
      .ok (report.bins.zipIdx.map fun row ↦ ((row.2 : ℤ), (row.1.toNat : ℤ))) :=
  indexedRows_eq (by rw [h.bins_length, h.binsNum])

theorem TimeSeriesReport.Fed.csvRows_eq {fresh report : TimeSeriesReport} {samples : List UInt64}
    (h : fresh.Fed samples report) : report.csvRows =
      .ok ((series fresh.maxDataNum.toInt.toNat samples).zipIdx.map
        fun row ↦ ((row.2 : ℤ), (row.1.toNat : ℤ))) := by
  rw [← h.data]
  exact indexedRows_eq (by rw [h.data, series_length, h.maxDataNum])

/-! ## Agreement of the files -/

/-- Every row of the top-N file names a sample of its own, and the time series shows the same
latency for it as far as it goes. -/
structure RowsAgree (samples : List UInt64) (capacity : ℕ) (rows seriesRows : List (ℤ × ℤ)) :
    Prop where
  received : ∀ row ∈ rows, ∃ (idx : ℕ) (ns : UInt64), samples[idx]? = some ns ∧
    row = ((ns.toNat : ℤ), (idx : ℤ))
  distinct : (rows.map Prod.snd).Nodup
  series : ∀ row ∈ rows, row.2 < capacity → seriesRows[row.2.toNat]? = some (row.2, row.1)

theorem sample_row_eq {samples : List UInt64} (hcount : samples.length < 2 ^ 31) {sample : Sample}
    (h : sample ∈ samples.zipIdx) : sample.row = ((sample.1.toNat : ℤ), (sample.2 : ℤ)) := by
  have hlt := List.snd_lt_of_mem_zipIdx h
  rw [Sample.row, Int32.toInt_ofNat_of_lt (by omega)]

/-- The ranked rows agree with the time series. -/
theorem rowsAgree_topOf {samples : List UInt64} (hcount : samples.length < 2 ^ 31) (n capacity : ℕ) :
    RowsAgree samples capacity ((topOf RanksBefore n samples.zipIdx).map Sample.row)
      ((MeasureCommon.series capacity samples).zipIdx.map
        fun row ↦ ((row.2 : ℤ), (row.1.toNat : ℤ))) := by
  refine ⟨fun row hrow ↦ ?_, ?_, fun row hrow hlt ↦ ?_⟩
  · obtain ⟨sample, hsample, rfl⟩ := List.mem_map.mp hrow
    have hmem := mem_of_mem_topOf RanksBefore hsample
    exact ⟨sample.2, sample.1, List.mk_mem_zipIdx_iff_getElem?.mp hmem, sample_row_eq hcount hmem⟩
  · have hcompose : ((topOf RanksBefore n samples.zipIdx).map Sample.row).map Prod.snd =
        ((topOf RanksBefore n samples.zipIdx).map fun row ↦ Int32.ofNat row.2).map Int32.toInt := by
      rw [List.map_map, List.map_map]
      rfl
    rw [hcompose]
    exact (topOf_positions_nodup hcount n).map fun _ _ heq ↦ Int32.toInt_inj.mp heq
  · obtain ⟨sample, hsample, rfl⟩ := List.mem_map.mp hrow
    have hmem := mem_of_mem_topOf RanksBefore hsample
    have hsome : samples[sample.2]? = some sample.1 := List.mk_mem_zipIdx_iff_getElem?.mp hmem
    have hidx := List.snd_lt_of_mem_zipIdx hmem
    rw [sample_row_eq hcount hmem] at hlt ⊢
    have hposition : sample.2 < capacity := Int.ofNat_lt.mp hlt
    have hseries : (MeasureCommon.series capacity samples)[sample.2]? = some sample.1 := by
      rw [series_getElem?_of_lt (by omega), hsome]
    rw [Int.toNat_natCast, List.getElem?_map, List.getElem?_zipIdx, hseries]
    simp

/-- A file whose rows all name samples of their own has no more rows than there are samples. -/
theorem RowsAgree.length_le {samples : List UInt64} {capacity : ℕ} {rows seriesRows : List (ℤ × ℤ)}
    (h : RowsAgree samples capacity rows seriesRows) : rows.length ≤ samples.length := by
  have hsubset : rows.map Prod.snd ⊆ (List.range samples.length).map Int.ofNat := by
    intro position hposition
    obtain ⟨row, hrow, rfl⟩ := List.mem_map.mp hposition
    obtain ⟨idx, ns, hns, rfl⟩ := h.received row hrow
    exact List.mem_map_of_mem (List.mem_range.mpr (List.getElem?_eq_some_iff.mp hns).1)
  simpa using (List.subperm_of_subset h.distinct hsubset).length_le

/-- Fed with the same latencies, the two reports agree in all rows of the top-N file that stand for
a sample. Both files have as many rows as the constructors were told. The rows that stand for no
sample are zero, so all rows agree only if the table is full. -/
theorem topnRows_agree {binsNum maxTopn maxDataNum : Int32} {binWidthNs : UInt64}
    {freshHist : HistReport} {freshSeries : TimeSeriesReport} {samples : List UInt64}
    (hhist : HistReport.new binsNum binWidthNs maxTopn = .ok freshHist)
    (hseries : TimeSeriesReport.new maxDataNum = .ok freshSeries) (hwidth : 0 < binWidthNs)
    (hcount : samples.length < 2 ^ 31) (hrange : ∀ ns ∈ samples, freshHist.BinUpdateInRange ns) :
    ∃ hist timeSeries rows seriesRows, freshHist.addAll samples = .ok hist ∧
      freshSeries.addAll samples = .ok timeSeries ∧
      Writes hist.topnToHist ⟨"latency,index", rows⟩ ∧
      Writes timeSeries.toCsv ⟨"idx,latency", seriesRows⟩ ∧
      rows.length = maxTopn.toInt.toNat ∧ seriesRows.length = maxDataNum.toInt.toNat ∧
      RowsAgree samples maxDataNum.toInt.toNat (rows.take samples.length) seriesRows ∧
      rows.drop samples.length = List.replicate (maxTopn.toInt.toNat - samples.length) (0, 0) ∧
      (RowsAgree samples maxDataNum.toInt.toNat rows seriesRows ↔
        maxTopn.toInt.toNat ≤ samples.length) := by
  have hconfig : freshHist.maxTopn = maxTopn ∧ freshHist.binWidthNs = binWidthNs := by
    obtain ⟨-, -, rfl⟩ := new_eq_ok hhist
    exact ⟨rfl, rfl⟩
  have hcapacity : freshSeries.maxDataNum = maxDataNum := by
    obtain ⟨-, rfl⟩ := timeSeries_new_eq_ok hseries
    rfl
  have hwidth' : freshHist.binWidthNs ≠ 0 := by
    rw [hconfig.2]
    exact (UInt64.ne_of_lt hwidth).symm
  obtain ⟨hist, hrun, hfed⟩ := (fed_new hhist).addAll_defined hwidth' hcount hrange
  obtain ⟨timeSeries, hseriesRun, hseriesFed⟩ := (timeSeries_fed_new hseries).addAll hcount
  have hrows := hfed.topnRows_eq
  have hseriesRows := hseriesFed.csvRows_eq
  rw [hconfig.1] at hrows
  rw [hcapacity] at hseriesRows
  have htake := padded_take_length RanksBefore maxTopn.toInt.toNat (0, 0) samples.zipIdx
  have hdrop := padded_drop_length RanksBefore maxTopn.toInt.toNat (0, 0) samples.zipIdx
  rw [List.length_zipIdx] at htake hdrop
  have hagree := rowsAgree_topOf hcount maxTopn.toInt.toNat maxDataNum.toInt.toNat
  refine ⟨hist, timeSeries, _, _, hrun, hseriesRun, writes_of_rows hrows,
    writes_of_rows hseriesRows, ?_, ?_, ?_, ?_, ?_, fun hfull ↦ ?_⟩
  · rw [List.length_map, padded_length]
  · rw [List.length_map, List.length_zipIdx, series_length]
  · rw [← List.map_take, htake]
    exact hagree
  · rw [← List.map_drop, hdrop, List.map_replicate]
    rfl
  · intro hall
    simpa using hall.length_le
  · have hnothing : maxTopn.toInt.toNat - samples.zipIdx.length = 0 := by
      rw [List.length_zipIdx]
      omega
    rw [padded, hnothing, List.replicate_zero, List.append_nil]
    exact hagree

/-- Two rows for three samples, of which the time series keeps two. -/
theorem topnRows_agree_three : ∃ freshHist hist rows seriesRows,
    HistReport.new 4 3 2 = .ok freshHist ∧ freshHist.addAll [7, 0, 7] = .ok hist ∧
      Writes hist.topnToHist ⟨"latency,index", rows⟩ ∧ rows.length = 2 ∧
      RowsAgree [7, 0, 7] 2 rows seriesRows := by
  have hcount : [(7 : UInt64), 0, 7].length < 2 ^ 31 := by simp
  obtain ⟨hist, timeSeries, rows, seriesRows, hrun, -, hrows, -, hlength, -, -, -, hall⟩ :=
    topnRows_agree (rfl : HistReport.new 4 3 2 = .ok _) (rfl : TimeSeriesReport.new 2 = .ok _)
      (by decide) hcount (by
        simp only [List.forall_mem_cons]
        exact ⟨by decide, by decide, by decide, nofun⟩)
  exact ⟨_, hist, rows, seriesRows, rfl, hrun, hrows, hlength, hall.mpr (by decide)⟩

/-- One sample does not fill a table of two rows: sample number 0 is named twice, the second time
with latency zero. -/
theorem topnRows_padding : ∃ freshHist freshSeries hist timeSeries rows seriesRows,
    HistReport.new 4 3 2 = .ok freshHist ∧ TimeSeriesReport.new 2 = .ok freshSeries ∧
      freshHist.addAll [5] = .ok hist ∧ freshSeries.addAll [5] = .ok timeSeries ∧
      Writes hist.topnToHist ⟨"latency,index", rows⟩ ∧
      Writes timeSeries.toCsv ⟨"idx,latency", seriesRows⟩ ∧ rows = [(5, 0), (0, 0)] ∧
      ¬ RowsAgree [5] 2 rows seriesRows := by
  refine ⟨_, _, _, _, [(5, 0), (0, 0)], [(0, 5), (1, 0)], rfl, rfl, rfl, rfl,
    writes_of_rows (by decide), writes_of_rows (by decide), rfl, fun h ↦ ?_⟩
  exact absurd h.distinct (by decide)

end LayerPingPong.MeasureCommon
