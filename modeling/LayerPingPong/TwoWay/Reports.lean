import LayerPingPong.MeasureCommon.Export
import LayerPingPong.TwoWay.Arguments

/-!
# The reports of a run

`ping` and `pong` allocate their reports before the measurement, feed them from the callback and
export them afterwards. Which reports are allocated and which files are written depends on the file
names, by conditions that are written separately.
-/

namespace LayerPingPong.TwoWay

open Checked MeasureCommon

/-- The names of the report files of one process; an empty name asks for no file. -/
structure ReportFilenames where
  hist : String
  topn : String
  timeseries : String
  deriving DecidableEq, Repr

/-- The pointers `hist` and `timeSeries`. -/
structure Reports where
  hist : Option HistReport
  timeSeries : Option TimeSeriesReport
  deriving DecidableEq, Repr

/-- A message that the callback is called with, and the clock that the callback reads. -/
structure Delivery where
  message : Data
  clock : ℕ
  deriving DecidableEq, Repr

/-- Where a run has no defined continuation. -/
inductive RunFault where
  | nullPointer
  | fault (fault : Fault)
  deriving DecidableEq, Repr

/-- How a call of `ping` or `pong` ends. -/
inductive Ending where
  | layerNameError
  | exported (exports : List Export)
  deriving DecidableEq, Repr

variable {Report : Type}

def allocateIf (needed : Prop) [Decidable needed] (new : Result Report) :
    Result (Option Report) :=
  if needed then some <$> new else .ok none

/-- The allocation of `ping` and of `pong`. -/
def allocate (names : ReportFilenames) (iterations : ℕ) : Result Reports := do
  let hist ← allocateIf (names.hist ≠ "" ∨ names.timeseries ≠ "") (HistReport.new 5000)
  let timeSeries ← allocateIf (names.timeseries ≠ "")
    (TimeSeriesReport.new (Int32.ofNat iterations))
  return { hist, timeSeries }

def addIfAllocated (add : Report → UInt64 → Result Report) (pointer : Option Report)
    (ns : UInt64) : Result (Option Report) :=
  match pointer with
  | some report => some <$> add report ns
  | none => .ok none

/-- The end of both callbacks. -/
def Reports.add (reports : Reports) (ns : UInt64) : Result Reports := do
  let hist ← addIfAllocated HistReport.add reports.hist ns
  let timeSeries ← addIfAllocated TimeSeriesReport.add reports.timeSeries ns
  return { hist, timeSeries }

def pingCallback (reports : Reports) (delivery : Delivery) : Result Reports :=
  let subTime := timespecToUint64 delivery.clock
  reports.add (latency subTime delivery.message)

/-- The message is stamped and published before its latency is computed. -/
def pongCallback (reports : Reports) (delivery : Delivery) : Result Reports :=
  let message := { delivery.message with timeSentPongNs := stamp delivery.clock }
  let subTime := timespecToUint64 delivery.clock
  reports.add (latency subTime message)

/-- An export of a report whose file has a name; the pointer is not tested. -/
def exportIf (opens : String → Bool) (name : String) (pointer : Option Report)
    (toFile : Report → (String → Bool) → String → Result Export) :
    Except RunFault (List Export) :=
  if name = "" then .ok []
  else
    match pointer with
    | none => .error .nullPointer
    | some report => (toFile report opens name).mapError .fault |>.map fun file ↦ [file]

/-- The export section of `ping` and of `pong`. -/
def exportReports (opens : String → Bool) (names : ReportFilenames) (reports : Reports) :
    Except RunFault (List Export) := do
  let hist ← exportIf opens names.hist reports.hist HistReport.histToCsv
  let topn ← exportIf opens names.topn reports.hist HistReport.topnToHist
  let timeSeries ← exportIf opens names.timeseries reports.timeSeries TimeSeriesReport.toCsv
  return hist ++ topn ++ timeSeries

def layers : List String := ["rclcpp", "rcl", "rmw", "dds"]

section Run

variable (callback : Reports → Delivery → Result Reports) (names : ReportFilenames)

/-- The reports just before the export section. -/
def measure (params : Params) (deliveries : List Delivery) : Result Reports := do
  let reports ← allocate names params.rt.iterations
  deliveries.foldlM callback reports

/-- `ping` and `pong` as far as they deal with the reports. -/
def run (opens : String → Bool) (params : Params) (deliveries : List Delivery) :
    Except RunFault Ending :=
  if params.layer ∈ layers then do
    let reports ← (measure callback names params deliveries).mapError .fault
    let exports ← exportReports opens names reports
    return .exported exports
  else .ok .layerNameError

end Run

def Params.pingFilenames (params : Params) : ReportFilenames where
  hist := params.pingHistFilename
  topn := params.pingTopnFilename
  timeseries := params.pingTimeseriesFilename

def Params.pongFilenames (params : Params) : ReportFilenames where
  hist := params.pongHistFilename
  topn := params.pongTopnFilename
  timeseries := params.pongTimeseriesFilename

def ping (opens : String → Bool) (params : Params) (deliveries : List Delivery) :
    Except RunFault Ending := run pingCallback params.pingFilenames opens params deliveries

def pong (opens : String → Bool) (params : Params) (deliveries : List Delivery) :
    Except RunFault Ending := run pongCallback params.pongFilenames opens params deliveries

/-! ## What a run owes -/

/-- The latency that both callbacks compute. -/
def Delivery.latency (delivery : Delivery) : UInt64 :=
  TwoWay.latency (timespecToUint64 delivery.clock) delivery.message

def HistReceived (latencies : List UInt64) (report : HistReport) : Prop :=
  ∃ fresh, HistReport.new 5000 = .ok fresh ∧ fresh.addAll latencies = .ok report

def TimeSeriesReceived (iterations : ℕ) (latencies : List UInt64) (report : TimeSeriesReport) :
    Prop :=
  ∃ fresh, TimeSeriesReport.new (Int32.ofNat iterations) = .ok fresh ∧
    fresh.addAll latencies = .ok report

/-- A file is written exactly if it has a name, from a report that has received the latencies. -/
def WrittenOnRequest (opens : String → Bool) (name : String) (received : Report → Prop)
    (toFile : Report → (String → Bool) → String → Result Export) (exports : List Export) : Prop :=
  if name = "" then exports = []
  else ∃ report csv, received report ∧ Writes (toFile report) csv ∧
    exports = [if opens name then .written name csv else
      .failed ("failed to open " ++ name ++ ".")]

/-- The run writes the files that have a name, and no other ones. -/
def ExportsAll (opens : String → Bool) (names : ReportFilenames) (iterations : ℕ)
    (latencies : List UInt64) (result : Except RunFault Ending) : Prop :=
  ∃ hist topn timeSeries, result = .ok (.exported (hist ++ topn ++ timeSeries)) ∧
    WrittenOnRequest opens names.hist (HistReceived latencies) HistReport.histToCsv hist ∧
    WrittenOnRequest opens names.topn (HistReceived latencies) HistReport.topnToHist topn ∧
    WrittenOnRequest opens names.timeseries (TimeSeriesReceived iterations latencies)
      TimeSeriesReport.toCsv timeSeries

/-! ## The reports after the measurement -/

/-- The pointer is non-null exactly if the report is needed, and the report has the property. -/
structure Allocated (needed : Prop) (received : Report → Prop) (pointer : Option Report) :
    Prop where
  some_of : needed → ∃ report, pointer = some report ∧ received report
  none_of : ¬ needed → pointer = none

theorem allocateIf_spec {needed : Prop} [Decidable needed] {new : Result Report}
    {received : Report → Prop} {pointer : Option Report}
    (h : allocateIf needed new = .ok pointer) (hnew : ∀ fresh, new = .ok fresh → received fresh) :
    Allocated needed received pointer := by
  unfold allocateIf at h
  split at h
  · rename_i hneeded
    refine ⟨fun _ ↦ ?_, fun hnot ↦ absurd hneeded hnot⟩
    cases new with
    | error fault => cases h
    | ok fresh => exact ⟨fresh, (Except.ok.inj h).symm, hnew fresh rfl⟩
  · rename_i hneeded
    exact ⟨fun h ↦ absurd h hneeded, fun _ ↦ (Except.ok.inj h).symm⟩

theorem Allocated.add {needed : Prop} {before after : Report → Prop}
    {pointer next : Option Report} {add : Report → UInt64 → Result Report} {ns : UInt64}
    (h : Allocated needed before pointer) (hnext : addIfAllocated add pointer ns = .ok next)
    (hadd : ∀ report last, before report → add report ns = .ok last → after last) :
    Allocated needed after next := by
  cases pointer with
  | none =>
    refine ⟨fun hneeded ↦ ?_, fun _ ↦ (Except.ok.inj hnext).symm⟩
    obtain ⟨report, hsome, -⟩ := h.some_of hneeded
    cases hsome
  | some report =>
    have hneeded : needed := by
      by_contra hnot
      cases h.none_of hnot
    obtain ⟨_, hsome, hbefore⟩ := h.some_of hneeded
    cases hsome
    refine ⟨fun _ ↦ ?_, fun hnot ↦ absurd hneeded hnot⟩
    cases hlast : add report ns with
    | error fault =>
      simp only [addIfAllocated, hlast] at hnext
      cases hnext
    | ok last =>
      simp only [addIfAllocated, hlast] at hnext
      exact ⟨last, (Except.ok.inj hnext).symm, hadd report last hbefore hlast⟩

theorem HistReceived.add {latencies : List UInt64} {report last : HistReport} {ns : UInt64}
    (h : HistReceived latencies report) (hadd : report.add ns = .ok last) :
    HistReceived (latencies ++ [ns]) last := by
  obtain ⟨fresh, hfresh, hrun⟩ := h
  refine ⟨fresh, hfresh, ?_⟩
  rw [addAll_append, hrun, ok_bind, addAll_cons, hadd, ok_bind, addAll_nil]

theorem TimeSeriesReceived.add {iterations : ℕ} {latencies : List UInt64}
    {report last : TimeSeriesReport} {ns : UInt64}
    (h : TimeSeriesReceived iterations latencies report) (hadd : report.add ns = .ok last) :
    TimeSeriesReceived iterations (latencies ++ [ns]) last := by
  obtain ⟨fresh, hfresh, hrun⟩ := h
  refine ⟨fresh, hfresh, ?_⟩
  rw [TimeSeriesReport.addAll] at hrun ⊢
  rw [List.foldlM_append, hrun, ok_bind, List.foldlM_cons, hadd, ok_bind]
  rfl

/-- The state of the reports of a run that has met these latencies. -/
structure ReportsFed (names : ReportFilenames) (iterations : ℕ) (latencies : List UInt64)
    (reports : Reports) : Prop where
  hist : Allocated (names.hist ≠ "" ∨ names.timeseries ≠ "") (HistReceived latencies)
    reports.hist
  timeSeries : Allocated (names.timeseries ≠ "") (TimeSeriesReceived iterations latencies)
    reports.timeSeries

theorem ReportsFed.add {names : ReportFilenames} {iterations : ℕ} {latencies : List UInt64}
    {reports next : Reports} {ns : UInt64} (h : ReportsFed names iterations latencies reports)
    (hadd : reports.add ns = .ok next) : ReportsFed names iterations (latencies ++ [ns]) next := by
  simp only [Reports.add, bind_eq_ok, pure, Except.pure, Except.ok.injEq] at hadd
  obtain ⟨hist, hhist, timeSeries, htimeSeries, rfl⟩ := hadd
  refine ⟨h.hist.add hhist ?_, h.timeSeries.add htimeSeries ?_⟩
  · intro report last hreceived hlast
    exact hreceived.add hlast
  · intro report last hreceived hlast
    exact hreceived.add hlast

theorem fed_allocate {names : ReportFilenames} {iterations : ℕ} {reports : Reports}
    (h : allocate names iterations = .ok reports) : ReportsFed names iterations [] reports := by
  simp only [allocate, bind_eq_ok, pure, Except.pure, Except.ok.injEq] at h
  obtain ⟨hist, hhist, timeSeries, htimeSeries, rfl⟩ := h
  refine ⟨allocateIf_spec hhist ?_, allocateIf_spec htimeSeries ?_⟩
  · intro fresh hfresh
    exact ⟨fresh, hfresh, rfl⟩
  · intro fresh hfresh
    exact ⟨fresh, hfresh, rfl⟩

section Measure

variable {callback : Reports → Delivery → Result Reports} {names : ReportFilenames}
  {params : Params} {deliveries : List Delivery} {reports : Reports}
  (hcallback : ∀ reports delivery, callback reports delivery = reports.add delivery.latency)

include hcallback

/-- The reports that were allocated have received every latency, in order. -/
theorem fed_measure (h : measure callback names params deliveries = .ok reports) :
    ReportsFed names params.rt.iterations (deliveries.map Delivery.latency) reports := by
  obtain ⟨allocated, hallocated, hrun⟩ := bind_eq_ok.mp h
  have hcallback' : callback = fun reports delivery ↦ reports.add delivery.latency := by
    funext reports delivery
    exact hcallback reports delivery
  rw [hcallback', ← List.foldlM_map] at hrun
  apply foldlM_invariant (ReportsFed names params.rt.iterations) ?_
    (List.nil_append _).symm (fed_allocate hallocated) hrun
  intro past ns rest state next _ hfed hadd
  exact hfed.add hadd

end Measure

/-! ## The export section -/

/-- The export reads no row outside the vectors of the report. -/
def Exportable (toFile : Report → (String → Bool) → String → Result Export) (report : Report) :
    Prop :=
  ∃ header rows, toFile report = fun opens name ↦ exportCsv opens name header (.ok rows)

theorem exportable_of_rows {toFile : Report → (String → Bool) → String → Result Export}
    {report : Report} {header : String} {loop : Result (List (ℤ × ℤ))} {rows : List (ℤ × ℤ)}
    (hfile : toFile report = fun opens name ↦ exportCsv opens name header loop)
    (h : loop = .ok rows) : Exportable toFile report := ⟨header, rows, by rw [hfile, h]⟩

theorem HistReceived.fed {latencies : List UInt64} {report : HistReport}
    (h : HistReceived latencies report) : ∃ fresh : HistReport, fresh.Fed latencies report := by
  obtain ⟨fresh, hfresh, hrun⟩ := h
  have hidx := addAll_idx hrun
  have hlt := report.idx.toInt_lt
  have hzero : fresh.idx.toInt = 0 := by
    obtain ⟨-, -, rfl⟩ := new_eq_ok hfresh
    rfl
  have hcount : latencies.length < 2 ^ 31 := by omega
  exact ⟨fresh, (fed_new hfresh).addAll hcount hrun⟩

theorem HistReceived.exportable {latencies : List UInt64} {report : HistReport}
    (h : HistReceived latencies report) :
    Exportable HistReport.histToCsv report ∧ Exportable HistReport.topnToHist report := by
  obtain ⟨fresh, hfed⟩ := h.fed
  constructor
  · exact exportable_of_rows rfl hfed.histRows_eq
  · exact exportable_of_rows rfl hfed.topnRows_eq

theorem TimeSeriesReceived.exportable {iterations : ℕ} {latencies : List UInt64}
    {report : TimeSeriesReport} (h : TimeSeriesReceived iterations latencies report) :
    Exportable TimeSeriesReport.toCsv report := by
  obtain ⟨fresh, hfresh, hrun⟩ := h
  have hidx := timeSeries_addAll_idx hrun
  have hlt := report.idx.toInt_lt
  have hzero : fresh.idx.toInt = 0 := by
    obtain ⟨-, rfl⟩ := timeSeries_new_eq_ok hfresh
    rfl
  have hcount : latencies.length < 2 ^ 31 := by omega
  obtain ⟨report', hrun', hfed⟩ := (timeSeries_fed_new hfresh).addAll hcount
  obtain rfl : report = report' := Except.ok.inj (hrun.symm.trans hrun')
  exact exportable_of_rows rfl hfed.csvRows_eq

section Export

variable {opens : String → Bool} {name : String} {pointer : Option Report}
  {toFile : Report → (String → Bool) → String → Result Export}

theorem exportIf_none (hname : name ≠ "") :
    exportIf opens name none toFile = .error .nullPointer := if_neg hname

/-- An export succeeds if a named file comes with an allocated report. -/
theorem exportIf_spec (opens : String → Bool) {needed : Prop} {received : Report → Prop}
    (h : Allocated needed received pointer) (hname : name ≠ "" → needed)
    (hrows : ∀ report, received report → Exportable toFile report) :
    ∃ exports, exportIf opens name pointer toFile = .ok exports ∧
      WrittenOnRequest opens name received toFile exports := by
  by_cases hempty : name = ""
  · exact ⟨[], if_pos hempty, by rw [WrittenOnRequest, if_pos hempty]⟩
  · obtain ⟨report, rfl, hreceived⟩ := h.some_of (hname hempty)
    obtain ⟨header, rows, hfile⟩ := hrows report hreceived
    refine ⟨[if opens name then .written name ⟨header, rows⟩ else
      .failed ("failed to open " ++ name ++ ".")], ?_, ?_⟩
    · rw [exportIf, if_neg hempty]
      simp only [hfile, exportCsv_eq rfl]
      rfl
    · rw [WrittenOnRequest, if_neg hempty]
      refine ⟨report, ⟨header, rows⟩, hreceived, ?_, rfl⟩
      rw [hfile]
      exact writes_of_rows rfl

end Export

/-- Only the top-N file can be asked for without an allocation of the report that it shows. -/
def TopnHasReport (names : ReportFilenames) : Prop :=
  names.topn ≠ "" → names.hist ≠ "" ∨ names.timeseries ≠ ""

instance (names : ReportFilenames) : Decidable (TopnHasReport names) :=
  inferInstanceAs (Decidable (_ → _))

theorem exportReports_of_topnHasReport (opens : String → Bool) {names : ReportFilenames}
    {iterations : ℕ} {latencies : List UInt64} {reports : Reports}
    (h : ReportsFed names iterations latencies reports) (htopn : TopnHasReport names) :
    ∃ exports, exportReports opens names reports = .ok exports ∧
      ExportsAll opens names iterations latencies (.ok (.exported exports)) := by
  obtain ⟨hist, hhist, hwritten⟩ := exportIf_spec opens h.hist Or.inl
    fun report hreceived ↦ hreceived.exportable.1
  obtain ⟨topn, htopn, hwritten'⟩ := exportIf_spec opens h.hist htopn
    fun report hreceived ↦ hreceived.exportable.2
  obtain ⟨timeSeries, htimeSeries, hwritten''⟩ := exportIf_spec opens h.timeSeries id
    fun report hreceived ↦ hreceived.exportable
  refine ⟨_, ?_, hist, topn, timeSeries, rfl, hwritten, hwritten', hwritten''⟩
  simp only [exportReports, hhist, htopn, htimeSeries]
  rfl

theorem exportReports_of_not_topnHasReport {opens : String → Bool} {names : ReportFilenames}
    {iterations : ℕ} {latencies : List UInt64} {reports : Reports}
    (h : ReportsFed names iterations latencies reports) (htopn : ¬ TopnHasReport names) :
    exportReports opens names reports = .error .nullPointer := by
  simp only [TopnHasReport, Classical.not_imp, not_or, not_not] at htopn
  obtain ⟨hname, hhist, htimeseries⟩ := htopn
  have hpointer : reports.hist = none := h.hist.none_of (by simp [hhist, htimeseries])
  have hfirst : exportIf opens names.hist reports.hist HistReport.histToCsv = .ok [] :=
    if_pos hhist
  rw [exportReports, hfirst, hpointer, exportIf_none hname]
  rfl

theorem exportsAll_run_iff {opens : String → Bool} {callback : Reports → Delivery → Result Reports}
    {names : ReportFilenames} {params : Params} {deliveries : List Delivery} {reports : Reports}
    (hcallback : ∀ reports delivery, callback reports delivery = reports.add delivery.latency)
    (hlayer : params.layer ∈ layers)
    (hmeasure : measure callback names params deliveries = .ok reports) :
    ExportsAll opens names params.rt.iterations (deliveries.map Delivery.latency)
      (run callback names opens params deliveries) ↔ TopnHasReport names := by
  have hfed := fed_measure hcallback hmeasure
  have hrun : run callback names opens params deliveries =
      (exportReports opens names reports).map .exported := by
    rw [run, if_pos hlayer, hmeasure]
    rfl
  rw [hrun]
  constructor
  · intro h
    by_contra htopn
    obtain ⟨hist, topn, timeSeries, hresult, -⟩ := h
    rw [exportReports_of_not_topnHasReport hfed htopn] at hresult
    cases hresult
  · intro htopn
    obtain ⟨exports, hexports, hall⟩ :=
      exportReports_of_topnHasReport opens hfed htopn
    rw [hexports]
    exact hall

/-! ## Both processes -/

inductive Process where
  | ping
  | pong
  deriving DecidableEq, Repr

def Process.callback : Process → Reports → Delivery → Result Reports
  | .ping => pingCallback
  | .pong => pongCallback

def Process.filenames (params : Params) : Process → ReportFilenames
  | .ping => params.pingFilenames
  | .pong => params.pongFilenames

def Process.run : Process → (String → Bool) → Params → List Delivery → Except RunFault Ending
  | .ping => TwoWay.ping
  | .pong => TwoWay.pong

/-- The run has come to its export section, with these reports. -/
structure Process.ReachesExport (process : Process) (params : Params) (deliveries : List Delivery)
    (reports : Reports) : Prop where
  layer : params.layer ∈ layers
  measured : measure process.callback (process.filenames params) params deliveries = .ok reports

/-- A run that reaches its export section writes the reports it was asked for exactly if the top-N
file does not come alone. -/
theorem exportsAll_iff_topnHasReport {process : Process} {opens : String → Bool} {params : Params}
    {deliveries : List Delivery} {reports : Reports}
    (h : process.ReachesExport params deliveries reports) :
    ExportsAll opens (process.filenames params) params.rt.iterations
      (deliveries.map Delivery.latency) (process.run opens params deliveries) ↔
        TopnHasReport (process.filenames params) := by
  cases process with
  | ping => exact exportsAll_run_iff (fun _ _ ↦ rfl) h.layer h.measured
  | pong => exact exportsAll_run_iff (fun _ _ ↦ rfl) h.layer h.measured

/-- The parameters of a run on the rmw layer with these file names in both processes. -/
def paramsFor (names : ReportFilenames) : Params where
  rt := { iterations := 2, updatePeriod := 1000000 }
  layer := "rmw"
  type := "intra"
  side := ""
  pingHistFilename := names.hist
  pingTopnFilename := names.topn
  pingTimeseriesFilename := names.timeseries
  pongHistFilename := names.hist
  pongTopnFilename := names.topn
  pongTimeseriesFilename := names.timeseries

/-- One message and all three files, of which one cannot be opened. -/
theorem exportsAll_iff_topnHasReport_three :
    let params := paramsFor ⟨"hist.csv", "topn.csv", "series.csv"⟩
    let opens := fun name ↦ decide (name ≠ "topn.csv")
    ExportsAll opens params.pongFilenames 2 [5000] (pong opens params [⟨default, 5000⟩]) := by
  obtain ⟨fresh, hnew⟩ : ∃ fresh, HistReport.new 5000 = .ok fresh := ⟨_, rfl⟩
  have hconfig : fresh.binWidthNs ≠ 0 ∧ fresh.BinUpdateInRange 5000 := by
    obtain ⟨-, -, rfl⟩ := new_eq_ok hnew
    exact ⟨by decide, by decide⟩
  obtain ⟨hist, hadd⟩ := (fed_new hnew).add_defined hconfig.1 (by simp) hconfig.2
  have hmeasure : measure pongCallback ⟨"hist.csv", "topn.csv", "series.csv"⟩
      (paramsFor ⟨"hist.csv", "topn.csv", "series.csv"⟩) [⟨default, 5000⟩] =
        .ok ⟨some hist, some ⟨2, 1, [5000, 0]⟩⟩ := by
    have hcallback : pongCallback ⟨some fresh, some ⟨2, 0, [0, 0]⟩⟩ ⟨default, 5000⟩ =
        .ok ⟨some hist, some ⟨2, 1, [5000, 0]⟩⟩ := by
      change Reports.add _ 5000 = _
      rw [Reports.add, addIfAllocated, hadd]
      rfl
    rw [measure, allocate, hnew]
    change (pongCallback ⟨some fresh, some ⟨2, 0, [0, 0]⟩⟩ ⟨default, 5000⟩ >>= pure) = _
    rw [hcallback]
    rfl
  have hreach : Process.pong.ReachesExport (paramsFor ⟨"hist.csv", "topn.csv", "series.csv"⟩)
      [⟨default, 5000⟩] _ := ⟨by decide, hmeasure⟩
  exact (exportsAll_iff_topnHasReport hreach).mpr fun _ ↦ Or.inl (by decide)

/-- Only the top-N file is asked for. Both processes dereference a null pointer. -/
theorem topn_alone :
    let params := paramsFor ⟨"", "topn.csv", ""⟩
    let deliveries : List Delivery := [⟨default, 5000⟩]
    (∃ reports, Process.ping.ReachesExport params deliveries reports) ∧
      (∃ reports, Process.pong.ReachesExport params deliveries reports) ∧
      ping (fun _ ↦ true) params deliveries = .error .nullPointer ∧
      pong (fun _ ↦ true) params deliveries = .error .nullPointer ∧
      ¬ ExportsAll (fun _ ↦ true) params.pingFilenames 2 [5000]
        (ping (fun _ ↦ true) params deliveries) := by
  refine ⟨⟨_, by decide, rfl⟩, ⟨_, by decide, rfl⟩, rfl, rfl, ?_⟩
  rintro ⟨hist, topn, timeSeries, hresult, -⟩
  cases hresult

end LayerPingPong.TwoWay
