import LayerPingPong.MeasureCommon.Histogram
import LayerPingPong.TwoWay.OneWay
import LayerPingPong.TwoWay.Reports

/-!
# What the files say about the exchange

The files that `ping` and `pong` write are functions of the latencies that their callbacks have
added in the exchange, as long as no latency reaches the `2 ^ 31` bins that the narrowed index of
the histogram can tell apart. A run shorter than that has only such latencies.
-/

namespace LayerPingPong.TwoWay

open Checked MeasureCommon Ranking TransitionSystem

/-! ## The files of some latencies -/

/-- The number of latencies in each of the 5000 bins of one microsecond. -/
def histFile (latencies : List UInt64) : Csv where
  header := "latency,count"
  rows := (List.range 5000).map fun bin : ℕ ↦
    ((bin : ℤ), ((latencies.countP fun ns ↦ ns.toNat / 1000 = bin : ℕ) : ℤ))

/-- The ten largest latencies, with zeros after the last one. -/
def topnFile (latencies : List UInt64) : Csv where
  header := "latency,index"
  rows := (padded RanksBefore 10 (0, 0) latencies.zipIdx).map MeasureCommon.Sample.row

/-- The first latencies, with zeros after the last one. -/
def seriesFile (iterations : ℕ) (latencies : List UInt64) : Csv where
  header := "idx,latency"
  rows := (series iterations latencies).zipIdx.map fun row ↦ ((row.2 : ℤ), (row.1.toNat : ℤ))

/-- A file that is written if it has a name and can be opened. -/
def fileIf (opens : String → Bool) (name : String) (csv : Csv) : List Export :=
  if name = "" then []
  else [if opens name then .written name csv else .failed ("failed to open " ++ name ++ ".")]

def files (opens : String → Bool) (names : ReportFilenames) (iterations : ℕ)
    (latencies : List UInt64) : List Export :=
  fileIf opens names.hist (histFile latencies) ++ fileIf opens names.topn (topnFile latencies) ++
    fileIf opens names.timeseries (seriesFile iterations latencies)

/-! ## The rows of the reports -/

/-- Below `2 ^ 31` bins of 1000 nanoseconds. -/
def Countable (latencies : List UInt64) : Prop :=
  ∀ ns ∈ latencies, ns.toNat < 2147483648000

theorem quotientSurvives_of_lt {ns : UInt64} (h : ns.toNat < 2147483648000) :
    QuotientSurvives 5000 1000 ns := by
  have hbins : (5000 : Int32).toInt.toNat = 5000 := rfl
  have hwidth : (1000 : UInt64).toNat = 1000 := rfl
  unfold QuotientSurvives
  rw [hbins, hwidth]
  dsimp only
  omega

theorem binUpdateInRange_of_lt {fresh : HistReport} (hnew : HistReport.new 5000 = .ok fresh)
    {ns : UInt64} (h : ns.toNat < 2147483648000) : fresh.BinUpdateInRange ns := by
  obtain ⟨hbins, hbinsNum, hwidth⟩ := new_config hnew
  have hsurvives : QuotientSurvives fresh.binsNum fresh.binWidthNs ns := by
    rw [hbinsNum, hwidth]
    exact quotientSurvives_of_lt h
  intro hlt
  rcases (quotientSurvives_iff hbins ns).mp hsurvives with ⟨-, hindex⟩ | ⟨-, hge⟩
  · have hzero : (0 : ℤ) ≤ (fresh.binIndex ns).toInt := by omega
    exact Int32.le_iff_toInt_le.mpr hzero
  · exact absurd hlt (Int32.not_lt.mpr hge)

section Rows

variable {latencies : List UInt64}

theorem HistReceived.histRows {report : HistReport} (h : HistReceived latencies report)
    (hcountable : Countable latencies) (hcount : latencies.length < 2 ^ 31) :
    report.histRows = .ok (histFile latencies).rows := by
  obtain ⟨fresh, hnew, hrun⟩ := h
  obtain ⟨hbins, hbinsNum, hwidth⟩ := new_config hnew
  have hfed := fed_new hnew
  have hne : fresh.binWidthNs ≠ 0 := by
    rw [hwidth]
    decide
  have hexact := HistogramExact.of_quotientSurvives hfed (countsNarrowed_new hnew) hbins hne hcount
    fun ns hns ↦ by
      rw [hbinsNum, hwidth]
      exact quotientSurvives_of_lt (hcountable ns hns)
  have hreport := hfed.addAll hcount hrun
  have hlength : report.bins.length = 5000 := by
    rw [hreport.bins_length, hbinsNum]
    rfl
  rw [hreport.histRows_eq]
  apply congrArg
  apply List.ext_getElem?
  intro bin
  rw [List.getElem?_map, List.getElem?_zipIdx, histFile, List.getElem?_map]
  by_cases hbin : bin < 5000
  · obtain ⟨count, hsome, htoNat⟩ := hexact.counts report hrun bin (by rw [hbinsNum]; exact hbin)
    have hquotient : latencies.countP (fun ns ↦ fresh.quotient ns = bin) =
        latencies.countP fun ns ↦ ns.toNat / 1000 = bin := by
      unfold HistReport.quotient
      rw [hwidth]
      rfl
    rw [hsome, List.getElem?_range hbin]
    simp [htoNat, hquotient]
  · have hrange : (List.range 5000)[bin]? = none := by
      rw [List.getElem?_eq_none_iff, List.length_range]
      omega
    rw [List.getElem?_eq_none (by omega), hrange]
    rfl

theorem HistReceived.topnRows {report : HistReport} (h : HistReceived latencies report)
    (hcount : latencies.length < 2 ^ 31) :
    report.topnRows = .ok (topnFile latencies).rows := by
  obtain ⟨fresh, hnew, hrun⟩ := h
  have hmax : fresh.maxTopn.toInt.toNat = 10 := by
    obtain ⟨-, -, rfl⟩ := new_eq_ok hnew
    rfl
  have hrows := ((fed_new hnew).addAll hcount hrun).topnRows_eq
  rw [hmax] at hrows
  exact hrows

theorem TimeSeriesReceived.csvRows {report : TimeSeriesReport} {iterations : ℕ}
    (h : TimeSeriesReceived iterations latencies report) (hiterations : iterations < 2 ^ 31)
    (hcount : latencies.length < 2 ^ 31) :
    report.csvRows = .ok (seriesFile iterations latencies).rows := by
  obtain ⟨fresh, hnew, hrun⟩ := h
  have hmax : fresh.maxDataNum.toInt.toNat = iterations := by
    obtain ⟨-, rfl⟩ := timeSeries_new_eq_ok hnew
    change (Int32.ofNat iterations).toInt.toNat = iterations
    rw [Int32.toInt_ofNat_of_lt hiterations, Int.toNat_natCast]
  obtain ⟨report', hrun', hfed⟩ := (timeSeries_fed_new hnew).addAll hcount
  obtain rfl : report = report' := Except.ok.inj (hrun.symm.trans hrun')
  have hrows := hfed.csvRows_eq
  rw [hmax] at hrows
  exact hrows

end Rows

/-! ## One process -/

theorem writes_inj {toFile : (String → Bool) → String → Result Export}
    {csv csv' : Csv} (h : Writes toFile csv) (h' : Writes toFile csv') : csv = csv' := by
  have hfile := h (fun _ ↦ true) "" rfl
  rw [h' (fun _ ↦ true) "" rfl] at hfile
  injection hfile with hwritten
  injection hwritten with _ hcsv
  exact hcsv.symm

theorem writes_file (header : String) {loop : Result (List (ℤ × ℤ))} {csv : Csv}
    (hrows : loop = .ok csv.rows) (hheader : csv.header = header) :
    Writes (fun opens filename ↦ exportCsv opens filename header loop) csv := by
  have hwrites : Writes (fun opens filename ↦ exportCsv opens filename header loop)
      { header, rows := csv.rows } := writes_of_rows hrows
  rwa [← hheader] at hwrites ⊢

theorem WrittenOnRequest.eq_fileIf {Report : Type} {opens : String → Bool} {name : String}
    {received : Report → Prop} {toFile : Report → (String → Bool) → String → Result Export}
    {exports : List Export} {csv : Csv}
    (h : WrittenOnRequest opens name received toFile exports)
    (hcsv : ∀ report, received report → Writes (toFile report) csv) :
    exports = fileIf opens name csv := by
  unfold WrittenOnRequest at h
  unfold fileIf
  split at h
  · rename_i hname
    rw [if_pos hname, h]
  · rename_i hname
    obtain ⟨report, csv', hreceived, hwrites, rfl⟩ := h
    rw [if_neg hname, writes_inj hwrites (hcsv report hreceived)]

section Run

variable {callback : Reports → Delivery → Result Reports} {names : ReportFilenames}
  {params : Params} {deliveries : List Delivery}

theorem allocateIf_defined {Report : Type} (needed : Prop) [Decidable needed]
    {new : Result Report} (h : ∃ fresh, new = .ok fresh) : ∃ pointer, allocateIf needed new = .ok pointer := by
  obtain ⟨fresh, hfresh⟩ := h
  by_cases hneeded : needed
  · exact ⟨some fresh, by rw [allocateIf, if_pos hneeded, hfresh]; rfl⟩
  · exact ⟨none, if_neg hneeded⟩

theorem timeSeries_new_defined {iterations : ℕ} (h : iterations < 2 ^ 31) :
    ∃ fresh, TimeSeriesReport.new (Int32.ofNat iterations) = .ok fresh := by
  have hnonneg : ¬ Int32.ofNat iterations < 0 := by
    rw [Int32.lt_iff_toInt_lt, Int32.toInt_ofNat_of_lt h]
    exact not_lt.mpr (Int.natCast_nonneg iterations)
  unfold TimeSeriesReport.new resize
  rw [if_neg hnonneg]
  exact ⟨_, rfl⟩

theorem allocate_defined (names : ReportFilenames) {iterations : ℕ} (h : iterations < 2 ^ 31) :
    ∃ reports, allocate names iterations = .ok reports := by
  obtain ⟨hist, hhist⟩ := allocateIf_defined (names.hist ≠ "" ∨ names.timeseries ≠ "")
    (⟨_, rfl⟩ : ∃ fresh, HistReport.new 5000 = .ok fresh)
  obtain ⟨timeSeries, htimeSeries⟩ := allocateIf_defined (names.timeseries ≠ "")
    (timeSeries_new_defined h)
  refine ⟨⟨hist, timeSeries⟩, ?_⟩
  rw [allocate, hhist, ok_bind, htimeSeries, ok_bind]
  rfl

theorem addIfAllocated_defined {Report : Type} {needed : Prop} {received : Report → Prop}
    {pointer : Option Report} {add : Report → UInt64 → Result Report} {ns : UInt64}
    (h : Allocated needed received pointer)
    (hadd : ∀ report, received report → ∃ next, add report ns = .ok next) :
    ∃ next, addIfAllocated add pointer ns = .ok next := by
  by_cases hneeded : needed
  · obtain ⟨report, rfl, hreceived⟩ := h.some_of hneeded
    obtain ⟨next, hnext⟩ := hadd report hreceived
    exact ⟨some next, by rw [addIfAllocated, hnext]; rfl⟩
  · rw [h.none_of hneeded]
    exact ⟨none, rfl⟩

theorem ReportsFed.add_defined {iterations : ℕ} {latencies : List UInt64} {reports : Reports}
    {ns : UInt64} (h : ReportsFed names iterations latencies reports)
    (hns : ns.toNat < 2147483648000) (hcount : latencies.length + 1 < 2 ^ 31) :
    ∃ next, reports.add ns = .ok next := by
  obtain ⟨hist, hhist⟩ : ∃ hist, addIfAllocated HistReport.add reports.hist ns = .ok hist := by
    apply addIfAllocated_defined h.hist
    rintro report ⟨fresh, hnew, hrun⟩
    have hwidth : fresh.binWidthNs ≠ 0 := by
      rw [(new_config hnew).2.2]
      decide
    exact ((fed_new hnew).addAll (by omega) hrun).add_defined hwidth hcount
      (binUpdateInRange_of_lt hnew hns)
  obtain ⟨timeSeries, htimeSeries⟩ :
      ∃ timeSeries, addIfAllocated TimeSeriesReport.add reports.timeSeries ns = .ok timeSeries := by
    apply addIfAllocated_defined h.timeSeries
    rintro report ⟨fresh, hnew, hrun⟩
    obtain ⟨report', hrun', hfed⟩ := (timeSeries_fed_new hnew).addAll
      (show latencies.length < 2 ^ 31 by omega)
    obtain rfl : report = report' := Except.ok.inj (hrun.symm.trans hrun')
    obtain ⟨next, hnext, -⟩ := hfed.add hcount ns
    exact ⟨next, hnext⟩
  refine ⟨⟨hist, timeSeries⟩, ?_⟩
  rw [Reports.add, hhist, ok_bind, htimeSeries, ok_bind]
  rfl

theorem measure_defined
    (hcallback : ∀ reports delivery, callback reports delivery = reports.add delivery.latency)
    (hiterations : params.rt.iterations < 2 ^ 31)
    (hcountable : Countable (deliveries.map Delivery.latency))
    (hcount : deliveries.length < 2 ^ 31) :
    ∃ reports, measure callback names params deliveries = .ok reports := by
  obtain ⟨allocated, hallocated⟩ := allocate_defined names hiterations
  have hcallback' : callback = fun reports delivery ↦ reports.add delivery.latency := by
    funext reports delivery
    exact hcallback reports delivery
  obtain ⟨reports, hreports, -⟩ : ∃ reports,
      (deliveries.map Delivery.latency).foldlM Reports.add allocated = .ok reports ∧
        ReportsFed names params.rt.iterations (deliveries.map Delivery.latency) reports := by
    apply foldlM_defined (ReportsFed names params.rt.iterations) ?_ (List.nil_append _).symm
      (fed_allocate hallocated)
    intro past ns rest state hsplit hfed
    have hlength := length_succ_le_of_split hsplit
    rw [List.length_map] at hlength
    obtain ⟨next, hnext⟩ := hfed.add_defined (hcountable ns (by simp [hsplit])) (by omega)
    exact ⟨next, hnext, hfed.add hnext⟩
  rw [List.foldlM_map] at hreports
  refine ⟨reports, ?_⟩
  rw [measure, hallocated, ok_bind, hcallback']
  exact hreports

/-- The ending of a run with these latencies: without a layer there is none, and a top-N file that
was asked for alone has no report. -/
def ending (opens : String → Bool) (names : ReportFilenames) (params : Params)
    (latencies : List UInt64) : Except RunFault Ending :=
  if params.layer ∈ layers then
    if TopnHasReport names then .ok (.exported (files opens names params.rt.iterations latencies))
    else .error .nullPointer
  else .ok .layerNameError

theorem ending_of_layer {opens : String → Bool} {names : ReportFilenames} {params : Params}
    {latencies : List UInt64} (hlayer : params.layer ∈ layers) (hnames : TopnHasReport names) :
    ending opens names params latencies =
      .ok (.exported (files opens names params.rt.iterations latencies)) := by
  rw [ending, if_pos hlayer, if_pos hnames]

/-- Every run with countable latencies ends with the files of its latencies. -/
theorem run_eq_ending (opens : String → Bool)
    (hcallback : ∀ reports delivery, callback reports delivery = reports.add delivery.latency)
    (hiterations : params.rt.iterations < 2 ^ 31)
    (hcountable : Countable (deliveries.map Delivery.latency))
    (hcount : deliveries.length < 2 ^ 31) :
    run callback names opens params deliveries =
      ending opens names params (deliveries.map Delivery.latency) := by
  have hlength : (deliveries.map Delivery.latency).length < 2 ^ 31 := by rwa [List.length_map]
  obtain ⟨reports, hmeasure⟩ : ∃ reports, measure callback names params deliveries = .ok reports :=
    measure_defined hcallback hiterations hcountable hcount
  unfold ending
  split
  · rename_i hlayer
    split
    · rename_i hnames
      have hall : ExportsAll opens names params.rt.iterations (deliveries.map Delivery.latency)
          (run callback names opens params deliveries) :=
        (exportsAll_run_iff hcallback hlayer hmeasure).mpr hnames
      obtain ⟨hist, topn, timeSeries, hrun, hhist, htopn, htimeSeries⟩ := hall
      have hhist' : hist = fileIf opens names.hist (histFile (deliveries.map Delivery.latency)) :=
        hhist.eq_fileIf fun _ h ↦ writes_file "latency,count" (h.histRows hcountable hlength) rfl
      have htopn' : topn = fileIf opens names.topn (topnFile (deliveries.map Delivery.latency)) :=
        htopn.eq_fileIf fun _ h ↦ writes_file "latency,index" (h.topnRows hlength) rfl
      have htimeSeries' : timeSeries = fileIf opens names.timeseries
          (seriesFile params.rt.iterations (deliveries.map Delivery.latency)) :=
        htimeSeries.eq_fileIf fun _ h ↦
          writes_file "idx,latency" (h.csvRows hiterations hlength) rfl
      rw [hhist', htopn', htimeSeries'] at hrun
      exact hrun
    · rename_i hnames
      rw [run, if_pos hlayer, hmeasure]
      change (exportReports opens names reports).map Ending.exported = _
      rw [exportReports_of_not_topnHasReport (fed_measure hcallback hmeasure) hnames]
      rfl
  · rename_i hlayer
    exact if_neg hlayer

end Run

theorem process_run_eq_ending (process : Process) (opens : String → Bool) {params : Params}
    {deliveries : List Delivery} (hiterations : params.rt.iterations < 2 ^ 31)
    (hcountable : Countable (deliveries.map Delivery.latency))
    (hcount : deliveries.length < 2 ^ 31) :
    process.run opens params deliveries =
      ending opens (process.filenames params) params (deliveries.map Delivery.latency) := by
  cases process with
  | ping => exact run_eq_ending opens (fun _ _ ↦ rfl) hiterations hcountable hcount
  | pong => exact run_eq_ending opens (fun _ _ ↦ rfl) hiterations hcountable hcount

/-! ## Both processes of an exchange -/

/-- The latencies that the callback of a process has added. -/
def State.samples (state : State) : Process → List Sample
  | .ping => state.pingSamples
  | .pong => state.pongSamples

/-- The index of the ping that the given sample of a process belongs to. -/
def State.measured (state : State) (number : ℕ) : Process → Option ℕ
  | .ping => state.origin number
  | .pong => state.pings.taken[number]?

/-- The messages that the callback of a process has been called with. -/
def State.deliveries (state : State) : Process → List Delivery
  | .ping => List.zipWith (fun index sample ↦
      ⟨state.replies.published[index]?.getD default, sample.receiveClock⟩)
      state.replies.taken state.pingSamples
  | .pong => List.zipWith (fun index sample ↦
      ⟨state.pings.published[index]?.getD default, sample.receiveClock⟩)
      state.pings.taken state.pongSamples

/-- A delivery for each sample, with the message that was taken for it. -/
theorem map_zipWith_deliveries {taken : List ℕ} {samples : List Sample} {message : ℕ → Data}
    (h : ∀ (number : ℕ) (sample : Sample), samples[number]? = some sample →
      ∃ index, taken[number]? = some index ∧
        sample.latency = latency (timespecToUint64 sample.receiveClock) (message index)) :
    (List.zipWith (fun index sample ↦ (⟨message index, sample.receiveClock⟩ : Delivery))
        taken samples).map (fun delivery ↦ (⟨delivery.clock, delivery.latency⟩ : Sample)) =
      samples := by
  apply List.ext_getElem?
  intro number
  rw [List.getElem?_map, List.getElem?_zipWith]
  cases hsample : samples[number]? with
  | none => cases taken[number]? <;> rfl
  | some sample =>
    obtain ⟨index, htaken, hlatency⟩ := h number sample hsample
    rw [htaken]
    exact congrArg (fun ns ↦ some (⟨sample.receiveClock, ns⟩ : Sample)) hlatency.symm

section Exchange

variable {rt : RtParams} {state next : State} {event : Event}

/-- The samples are what the callback adds for its deliveries. -/
theorem map_deliveries (h : Invariant rt state) (hpong : PongSamplesRecorded state)
    (process : Process) :
    (state.deliveries process).map (fun delivery ↦ (⟨delivery.clock, delivery.latency⟩ : Sample)) =
      state.samples process := by
  cases process with
  | ping =>
    apply map_zipWith_deliveries
    intro number sample hsample
    obtain ⟨index, reply, -, htaken, hreply, -, -, -, hlatency⟩ :=
      h.samples.measured number sample hsample
    refine ⟨index, htaken, ?_⟩
    rw [hreply]
    exact hlatency
  | pong =>
    apply map_zipWith_deliveries
    intro number sample hsample
    obtain ⟨reply, hreply, -, hlatency⟩ := hpong.added number sample hsample
    obtain ⟨replyClock, -, index, ping, sendClock, htaken, hsent, rfl, -⟩ :=
      h.replies.answered number reply hreply
    refine ⟨index, htaken, ?_⟩
    rw [hsent.published]
    exact hlatency

theorem samples_exact (h : Invariant rt state) (hpong : PongSamplesRecorded state)
    (process : Process) {number : ℕ} {sample : Sample}
    (hsample : (state.samples process)[number]? = some sample) :
    ∃ index sendClock : ℕ, state.measured number process = some index ∧
      state.sendClocks[index]? = some sendClock ∧ sendClock ≤ sample.receiveClock ∧
      sample.receiveClock ≤ state.now ∧
      (sample.receiveClock < 2 ^ 63 →
        sample.latency.toNat = sample.receiveClock - sendClock) := by
  cases process with
  | ping =>
    obtain ⟨reply, replyClock, index, sendClock, htaken, -, hindex, hsend, hle, hreceive, hpast,
      hexact⟩ := pingSample_exact h hsample
    exact ⟨index, sendClock, Option.bind_eq_some_iff.mpr ⟨reply, htaken, hindex⟩, hsend,
      hle.trans hreceive, hpast, hexact⟩
  | pong =>
    obtain ⟨index, sendClock, htaken, hsend, hle, -, hpast, hexact⟩ :=
      pongSample_exact h hpong hsample
    exact ⟨index, sendClock, htaken, hsend, hle, hpast, hexact⟩

theorem samples_length_le (h : Invariant rt state) (process : Process) :
    (state.samples process).length ≤ rt.iterations := by
  obtain ⟨hping, hpong, hreplies, hpings⟩ := h.bounded
  cases process with
  | ping => exact hping.trans (hreplies.trans hpings)
  | pong => exact hpong.trans (hreplies.trans hpings)

/-- A process with countable latencies ends with their files, whatever its own parameters are. -/
theorem run_deliveries (h : Invariant rt state) (hpong : PongSamplesRecorded state)
    (process : Process) (opens : String → Bool) (params : Params)
    (hiterations : rt.iterations < 2 ^ 31) (hcapacity : params.rt.iterations < 2 ^ 31)
    (hcountable : Countable ((state.samples process).map Sample.latency)) :
    process.run opens params (state.deliveries process) =
      ending opens (process.filenames params) params
        ((state.samples process).map Sample.latency) := by
  have hmap := map_deliveries h hpong process
  have hlatencies : (state.deliveries process).map Delivery.latency =
      (state.samples process).map Sample.latency := by
    rw [← hmap, List.map_map]
    rfl
  have hlength : (state.deliveries process).length < 2 ^ 31 := by
    have hbound := samples_length_le h process
    rw [← hmap, List.length_map] at hbound
    exact hbound.trans_lt hiterations
  rw [← hlatencies] at hcountable ⊢
  exact process_run_eq_ending process opens hcapacity hcountable hlength

/-- No clock reading is from before the start. -/
structure Since (start : ℕ) (state : State) : Prop where
  now : start ≤ state.now
  stamped : ∀ clock, state.ping = .stamped clock → start ≤ clock
  sent : ∀ clock ∈ state.sendClocks, start ≤ clock

theorem Since.preserved {start : ℕ} (h : Since start state)
    (htransition : Transition rt state event next) : Since start next := by
  cases htransition with
  | tick hnow => exact ⟨h.now.trans hnow, h.stamped, h.sent⟩
  | wake _ _ =>
    refine ⟨h.now, fun clock hpc ↦ ?_, h.sent⟩
    cases hpc
    exact h.now
  | publishPing hpc =>
    refine ⟨h.now, nofun, fun clock hmem ↦ ?_⟩
    rcases List.mem_append.mp hmem with hold | hnew
    · exact h.sent clock hold
    · rw [List.mem_singleton.mp hnew]
      exact h.stamped _ hpc
  | takeReply _ _ => exact ⟨h.now, nofun, h.sent⟩
  | pingCallback _ _ | pingTimeout _ _ =>
    exact ⟨h.now, fun clock hpc ↦ absurd hpc (loopHead_ne_stamped _ clock), h.sent⟩
  | _ => exact ⟨h.now, h.stamped, h.sent⟩

theorem since_of_reachable {now wakeAt : ℕ} (h : (exchange rt now wakeAt).Reachable state) :
    Since now state := by
  refine h.invariant (Since now) ?_ fun _ _ _ hold _ hstep ↦
    hold.preserved (transition_of_step rt hstep)
  rintro _ rfl
  refine ⟨le_rfl, fun clock hpc ↦ ?_, nofun⟩
  change (if 0 < rt.iterations then PingPc.sleeping wakeAt else .finished) = _ at hpc
  split at hpc <;> cases hpc

/-- What a process of the exchange writes, in the state that it has come to: the files of its
latencies, each of which is the time from the sending of a ping to the reading of the callback. -/
theorem files_of_exchange {now wakeAt : ℕ} (hnow : now < 2 ^ 63)
    (h : (exchange rt now wakeAt).ReachableUnder ClockInRange state)
    (hshort : state.now < now + 2147483648000) (process : Process) (opens : String → Bool)
    {params : Params} (hrt : params.rt = rt) (hlayer : params.layer ∈ layers)
    (hnames : TopnHasReport (process.filenames params)) (hiterations : rt.iterations < 2 ^ 31) :
    process.run opens params (state.deliveries process) = .ok (.exported
      (files opens (process.filenames params) rt.iterations
        ((state.samples process).map Sample.latency))) ∧
    (state.samples process).length ≤ rt.iterations ∧
    ∀ (number : ℕ) (sample : Sample), (state.samples process)[number]? = some sample →
      ∃ index sendClock : ℕ, state.measured number process = some index ∧
        state.sendClocks[index]? = some sendClock ∧
        (sample.latency.toNat : ℤ) = sample.receiveClock - sendClock := by
  have hinvariant := invariant_of_reachable h.reachable
  have hpong := pongSamplesRecorded_of_reachable h.reachable
  have hlt := now_lt_of_clockInRange hnow h
  have hsince := since_of_reachable h.reachable
  refine ⟨?_, samples_length_le hinvariant process, fun number sample hsample ↦ ?_⟩
  · subst hrt
    rw [← ending_of_layer hlayer hnames]
    apply run_deliveries hinvariant hpong process opens params hiterations hiterations
    intro ns hns
    obtain ⟨sample, hmem, rfl⟩ := List.mem_map.mp hns
    obtain ⟨number, hsample⟩ := List.mem_iff_getElem?.mp hmem
    obtain ⟨index, sendClock, -, hsend, hle, hpast, hexact⟩ :=
      samples_exact hinvariant hpong process hsample
    have hstart := hsince.sent sendClock (List.mem_of_getElem? hsend)
    have hlatency := hexact (hpast.trans_lt hlt)
    omega
  · obtain ⟨index, sendClock, hmeasured, hsend, hle, hpast, hexact⟩ :=
      samples_exact hinvariant hpong process hsample
    have hlatency := hexact (hpast.trans_lt hlt)
    exact ⟨index, sendClock, hmeasured, hsend, by omega⟩

/-- One ping is lost; the files of `ping` show the latency of the other one. -/
theorem files_of_exchange_two : ∃ state : State,
    (exchange ⟨2, 1000000⟩ 0 5).ReachableUnder ClockInRange state ∧
      Process.ping.run (fun _ ↦ true) (paramsFor ⟨"hist.csv", "topn.csv", "series.csv"⟩)
        (state.deliveries .ping) = .ok (.exported (files (fun _ ↦ true)
          ⟨"hist.csv", "topn.csv", "series.csv"⟩ 2 [20])) := by
  have htwo : (exchange ⟨2, 1000000⟩ 0 5).ReachableUnder ClockInRange _ :=
    System.ReachableUnder.runUnder (.initial rfl)
      [.tick 5, .wake, .publishPing, .losePing 0, .tick 10, .pingTimeout, .tick 15, .wake,
        .publishPing, .tick 20, .takePing 1, .stampReply, .tick 25, .publishReply, .addLatency,
        .tick 30, .takeReply 0, .tick 35, .pingCallback] rfl
  exact ⟨_, htwo, (files_of_exchange (by decide) htwo (by decide) .ping (fun _ ↦ true) rfl
    (by decide) (by decide) (by decide)).1⟩

end Exchange

end LayerPingPong.TwoWay
