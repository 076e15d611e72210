import LayerPingPong.MeasureCommon.Text
import LayerPingPong.TwoWay.Files

/-!
# What can be read back from the files

The text of each file determines what the file shows. The time series keeps the latencies up to
zeros at their end, which cannot be told from the rows that no latency has reached, and the lowest
bin of the histogram settles how many of these were measured. An export truncates the file that it
opens, so of several reports that go to one file only the last one can be read back.
-/

namespace LayerPingPong.TwoWay

open MeasureCommon Ranking

/-! ## One file -/

/-- Numbers that can be decoded are determined by their codes. -/
theorem map_eq_map_iff_of_decode {α β : Type} {encode : α → β} (decode : β → α)
    {values others : List α} (hvalues : ∀ value ∈ values, decode (encode value) = value)
    (hothers : ∀ value ∈ others, decode (encode value) = value) :
    values.map encode = others.map encode ↔ values = others := by
  have hdecoded (list : List α) (hlist : ∀ value ∈ list, decode (encode value) = value) :
      (list.map encode).map decode = list := by
    rw [List.map_map]
    exact (List.map_congr_left hlist).trans (List.map_id list)
  constructor
  · intro h
    rw [← hdecoded values hvalues, h, hdecoded others hothers]
  · intro h
    rw [h]

/-- The histogram shows how many latencies fall into each bin. -/
theorem histFile_text_iff {latencies others : List UInt64} :
    (histFile latencies).text = (histFile others).text ↔
      ∀ bin < 5000, (latencies.countP fun ns ↦ ns.toNat / 1000 = bin) =
        others.countP fun ns ↦ ns.toNat / 1000 = bin := by
  apply (Csv.text_inj_of_header (by decide)).trans
  rw [List.map_inj_left]
  simp

theorem mem_padded {l : List MeasureCommon.Sample} {n : ℕ} {pad row : MeasureCommon.Sample}
    (h : row ∈ padded RanksBefore n pad l) : row = pad ∨ row ∈ l := by
  rcases List.mem_append.mp h with htop | hpad
  · exact .inr ((List.mem_insertionSort _).mp (List.mem_of_mem_take htop))
  · exact .inl (List.eq_of_mem_replicate hpad)

/-- The top-N file shows the largest latencies with their numbers. -/
theorem topnFile_text_iff {latencies others : List UInt64} (hlatencies : latencies.length < 2 ^ 31)
    (hothers : others.length < 2 ^ 31) :
    (topnFile latencies).text = (topnFile others).text ↔
      padded RanksBefore 10 (0, 0) latencies.zipIdx = padded RanksBefore 10 (0, 0) others.zipIdx := by
  have hdecode (list : List UInt64) (hlist : list.length < 2 ^ 31) :
      ∀ row ∈ padded RanksBefore 10 (0, 0) list.zipIdx,
        (UInt64.ofNat row.row.1.toNat, row.row.2.toNat) = row := by
    intro row hrow
    have hindex : row.2 < 2 ^ 31 := by
      rcases mem_padded hrow with rfl | hmem
      · decide
      · exact (List.snd_lt_of_mem_zipIdx hmem).trans_le (by simpa using hlist.le)
    have hnumber : (Int32.ofNat row.2).toInt = row.2 := Int32.toInt_ofNat_of_lt hindex
    ext
    · simp [MeasureCommon.Sample.row]
    · simp [MeasureCommon.Sample.row, hnumber]
  apply (Csv.text_inj_of_header (by decide)).trans
  exact map_eq_map_iff_of_decode (fun row ↦ (UInt64.ofNat row.1.toNat, row.2.toNat))
    (hdecode latencies hlatencies) (hdecode others hothers)

theorem seriesFile_text_iff {iterations : ℕ} {latencies others : List UInt64} :
    (seriesFile iterations latencies).text = (seriesFile iterations others).text ↔
      series iterations latencies = series iterations others := by
  apply (Csv.text_inj_of_header (by decide)).trans
  rw [map_eq_map_iff_of_decode fun row ↦ (UInt64.ofNat row.2.toNat, row.1.toNat)]
  · constructor
    · intro h
      rw [← List.zipIdx_map_fst 0 (series iterations latencies), h, List.zipIdx_map_fst]
    · intro h
      rw [h]
  all_goals
    intro row _
    simp

/-! ## Zeros at the end -/

theorem eq_append_replicate {first second : List UInt64} {zeros zeros' : ℕ}
    (h : first ++ List.replicate zeros 0 = second ++ List.replicate zeros' 0)
    (hle : first.length ≤ second.length) :
    second = first ++ List.replicate (second.length - first.length) 0 := by
  have hlength := congrArg List.length h
  rw [List.length_append, List.length_append, List.length_replicate, List.length_replicate]
    at hlength
  have htake := congrArg (List.take second.length) h
  rw [List.take_left, List.take_append, List.take_of_length_le hle, List.take_replicate,
    min_eq_left (by omega)] at htake
  exact htake.symm

theorem append_replicate_of_eq {capacity : ℕ} {first second : List UInt64} {zeros : ℕ}
    (h : second = first ++ List.replicate zeros 0) (hle : second.length ≤ capacity) :
    first ++ List.replicate (capacity - first.length) 0 =
      second ++ List.replicate (capacity - second.length) 0 := by
  have hlength := congrArg List.length h
  rw [List.length_append, List.length_replicate] at hlength
  rw [h, List.append_assoc, List.replicate_append_replicate, ← h, hlength]
  congr 2
  omega

/-- Series with room for all latencies differ unless one list only adds zeros to the other. -/
theorem series_eq_series_iff {capacity : ℕ} {latencies others : List UInt64}
    (hlatencies : latencies.length ≤ capacity) (hothers : others.length ≤ capacity) :
    series capacity latencies = series capacity others ↔
      ∃ zeros, latencies = others ++ List.replicate zeros 0 ∨
        others = latencies ++ List.replicate zeros 0 := by
  unfold series
  rw [List.take_of_length_le hlatencies, List.take_of_length_le hothers]
  constructor
  · intro h
    rcases le_total latencies.length others.length with hle | hle
    · exact ⟨_, .inr (eq_append_replicate h hle)⟩
    · exact ⟨_, .inl (eq_append_replicate h.symm hle)⟩
  · rintro ⟨zeros, hzeros | hzeros⟩
    · exact (append_replicate_of_eq hzeros hlatencies).symm
    · exact append_replicate_of_eq hzeros hothers

/-- Zeros at the end of a series are counted in the lowest bin. -/
theorem eq_of_series_of_lowestBin {capacity : ℕ} {latencies others : List UInt64}
    (hlatencies : latencies.length ≤ capacity) (hothers : others.length ≤ capacity)
    (hseries : series capacity latencies = series capacity others)
    (hlowest : (latencies.countP fun ns ↦ ns.toNat / 1000 = 0) =
      others.countP fun ns ↦ ns.toNat / 1000 = 0) : latencies = others := by
  obtain ⟨zeros, hzeros | hzeros⟩ := (series_eq_series_iff hlatencies hothers).mp hseries
  all_goals
    rw [hzeros, List.countP_append, List.countP_replicate] at hlowest
    have hnone : zeros = 0 := by simpa using hlowest
    rw [hzeros, hnone, List.replicate_zero, List.append_nil]

/-! ## What is left in the files -/

section Contents

variable {File : Type} [DecidableEq File] (file : String → File)

/-- The text that an export writes into a file. `file` says which file a name stands for. -/
def Export.textFor (target : File) : Export → Option String
  | .written name csv => if file name = target then some csv.text else none
  | .failed _ => none

/-- The text that the last export into a file has left there. -/
def contents (exports : List Export) (target : File) : Option String :=
  exports.reverse.findSome? (Export.textFor file target)

def IsWritten (opens : String → Bool) (name : String) : Prop := name ≠ "" ∧ opens name = true

instance (opens : String → Bool) (name : String) : Decidable (IsWritten opens name) :=
  inferInstanceAs (Decidable (_ ∧ _))

/-- What is written under this name is not overwritten under the later ones. -/
def Stays (opens : String → Bool) (name : String) (later : List String) : Prop :=
  IsWritten opens name ∧ ∀ other ∈ later, IsWritten opens other → file other ≠ file name

@[simp]
theorem contents_nil (target : File) : contents file [] target = none := rfl

theorem contents_append (first second : List Export) (target : File) :
    contents file (first ++ second) target =
      (contents file second target).or (contents file first target) := by
  unfold contents
  rw [List.reverse_append, List.findSome?_append]

theorem contents_fileIf (opens : String → Bool) (name : String) (csv : Csv) (target : File) :
    contents file (fileIf opens name csv) target =
      if IsWritten opens name ∧ file name = target then some csv.text else none := by
  unfold fileIf IsWritten
  by_cases hname : name = ""
  · simp [hname]
  · by_cases hopens : opens name = true <;> simp [hname, hopens, contents, Export.textFor]

theorem contents_fileIf_append_none_iff {opens : String → Bool} {name : String} {csv : Csv}
    {exports : List Export} {target : File} :
    contents file (fileIf opens name csv ++ exports) target = none ↔
      (IsWritten opens name → file name ≠ target) ∧ contents file exports target = none := by
  rw [contents_append, Option.or_eq_none_iff, contents_fileIf, and_comm]
  simp

/-- Exports into the same files, with other texts perhaps. -/
def SameFiles (exports others : List Export) : Prop :=
  ∀ target, contents file exports target = none ↔ contents file others target = none

variable {file} {opens : String → Bool} {name : String} {csv other : Csv}
  {exports others : List Export}

theorem SameFiles.fileIf_append (h : SameFiles file exports others) :
    SameFiles file (fileIf opens name csv ++ exports) (fileIf opens name other ++ others) := by
  intro target
  rw [contents_append, contents_append, Option.or_eq_none_iff, Option.or_eq_none_iff, h target,
    contents_fileIf, contents_fileIf]
  apply and_congr_right
  intro _
  split
  · exact iff_of_false (Option.some_ne_none _) (Option.some_ne_none _)
  · exact Iff.rfl

/-- The first of several files shows what it is left with, if it is not overwritten. -/
theorem contents_fileIf_append_iff (h : SameFiles file exports others) :
    contents file (fileIf opens name csv ++ exports) =
        contents file (fileIf opens name other ++ others) ↔
      (IsWritten opens name → contents file exports (file name) = none → csv.text = other.text) ∧
        contents file exports = contents file others := by
  constructor
  · intro heq
    have heach (target : File) := congrFun heq target
    simp only [contents_append, contents_fileIf] at heach
    constructor
    · intro hwritten hnone
      have hname := heach (file name)
      rw [hnone, (h _).mp hnone, if_pos ⟨hwritten, rfl⟩, if_pos ⟨hwritten, rfl⟩] at hname
      exact Option.some.inj hname
    · funext target
      have htarget := heach target
      cases hleft : contents file exports target with
      | none => rw [(h target).mp hleft]
      | some text =>
        cases hright : contents file others target with
        | none =>
          rw [(h target).mpr hright] at hleft
          cases hleft
        | some text' => rwa [hleft, hright] at htarget
  · rintro ⟨hfirst, hrest⟩
    funext target
    rw [contents_append, contents_append, contents_fileIf, contents_fileIf, hrest]
    cases hleft : contents file others target with
    | some text => rfl
    | none =>
      split
      · rename_i hwritten
        obtain ⟨hwritten, rfl⟩ := hwritten
        rw [hfirst hwritten (by rw [hrest, hleft])]
      · rfl

theorem stays_imp_iff {later : List String} {p : Prop}
    (h : contents file exports (file name) = none ↔
      ∀ other ∈ later, IsWritten opens other → file other ≠ file name) :
    (IsWritten opens name → contents file exports (file name) = none → p) ↔
      (Stays file opens name later → p) := by
  rw [h, Stays, and_imp]

end Contents

/-! ## The files of a process -/

/-- The files are left without a difference between these latencies. -/
structure Alike {File : Type} (file : String → File) (opens : String → Bool)
    (names : ReportFilenames) (latencies others : List UInt64) : Prop where
  hist : Stays file opens names.hist [names.topn, names.timeseries] →
    ∀ bin < 5000, (latencies.countP fun ns ↦ ns.toNat / 1000 = bin) =
      others.countP fun ns ↦ ns.toNat / 1000 = bin
  topn : Stays file opens names.topn [names.timeseries] →
    padded RanksBefore 10 (0, 0) latencies.zipIdx = padded RanksBefore 10 (0, 0) others.zipIdx
  timeseries : Stays file opens names.timeseries [] →
    ∃ zeros, latencies = others ++ List.replicate zeros 0 ∨
      others = latencies ++ List.replicate zeros 0

section Files

variable {File : Type} {file : String → File} {opens : String → Bool} {names : ReportFilenames}
  {iterations : ℕ} {latencies others : List UInt64}

theorem files_eq : files opens names iterations latencies =
    fileIf opens names.hist (histFile latencies) ++ (fileIf opens names.topn (topnFile latencies) ++
      (fileIf opens names.timeseries (seriesFile iterations latencies) ++ [])) := by
  rw [files, List.append_assoc, List.append_nil]

theorem contents_files_iff [DecidableEq File] (hiterations : iterations < 2 ^ 31)
    (hlatencies : latencies.length ≤ iterations) (hothers : others.length ≤ iterations) :
    contents file (files opens names iterations latencies) =
        contents file (files opens names iterations others) ↔
      Alike file opens names latencies others := by
  have hnothing : SameFiles file [] [] := fun _ ↦ Iff.rfl
  have hnone : contents file [] (file names.timeseries) = none ↔
      ∀ other ∈ [], IsWritten opens other → file other ≠ file names.timeseries := by simp
  have hlast (target : File) :
      contents file (fileIf opens names.timeseries (seriesFile iterations latencies) ++ []) target =
          none ↔
        ∀ other ∈ [names.timeseries], IsWritten opens other → file other ≠ target := by
    simp only [contents_fileIf_append_none_iff, contents_nil, and_true, List.mem_cons,
      List.not_mem_nil, or_false, forall_eq]
  have hrest (target : File) :
      contents file (fileIf opens names.topn (topnFile latencies) ++
          (fileIf opens names.timeseries (seriesFile iterations latencies) ++ [])) target = none ↔
        ∀ other ∈ [names.topn, names.timeseries], IsWritten opens other → file other ≠ target := by
    simp only [contents_fileIf_append_none_iff, contents_nil, and_true, List.mem_cons,
      List.not_mem_nil, or_false, forall_eq_or_imp, forall_eq]
  have htopn := topnFile_text_iff (hlatencies.trans_lt hiterations) (hothers.trans_lt hiterations)
  have hseries : (seriesFile iterations latencies).text = (seriesFile iterations others).text ↔ _ :=
    seriesFile_text_iff.trans (series_eq_series_iff hlatencies hothers)
  rw [files_eq, files_eq, contents_fileIf_append_iff hnothing.fileIf_append.fileIf_append,
    contents_fileIf_append_iff hnothing.fileIf_append, contents_fileIf_append_iff hnothing,
    histFile_text_iff, htopn, hseries]
  constructor
  · rintro ⟨hhist, htopn, htimeseries, -⟩
    exact ⟨(stays_imp_iff (hrest _)).mp hhist, (stays_imp_iff (hlast _)).mp htopn,
      (stays_imp_iff hnone).mp htimeseries⟩
  · intro h
    exact ⟨(stays_imp_iff (hrest _)).mpr h.hist, (stays_imp_iff (hlast _)).mpr h.topn,
      (stays_imp_iff hnone).mpr h.timeseries, rfl⟩

/-- The histogram and the time series together determine the latencies. -/
theorem alike_iff_eq (hlatencies : latencies.length ≤ iterations)
    (hothers : others.length ≤ iterations)
    (hhist : Stays file opens names.hist [names.topn, names.timeseries])
    (htimeseries : IsWritten opens names.timeseries) :
    Alike file opens names latencies others ↔ latencies = others := by
  constructor
  · intro h
    apply eq_of_series_of_lowestBin hlatencies hothers
    · exact (series_eq_series_iff hlatencies hothers).mpr
        (h.timeseries ⟨htimeseries, List.forall_mem_nil _⟩)
    · exact h.hist hhist 0 (by decide)
  · rintro rfl
    exact ⟨fun _ _ _ ↦ rfl, fun _ ↦ rfl, fun _ ↦ ⟨0, .inl (List.append_nil _).symm⟩⟩

end Files

/-- Two runs of a process leave the same files exactly if no file that is not overwritten shows a
difference between their latencies, and with a histogram and a time series exactly if these are the
same. -/
theorem contents_of_runs (process : Process) (opens : String → Bool) {File : Type}
    [DecidableEq File] (file : String → File) {params : Params} (hlayer : params.layer ∈ layers)
    (hnames : TopnHasReport (process.filenames params)) (hiterations : params.rt.iterations < 2 ^ 31)
    {first second : List Delivery} (hfirst : first.length ≤ params.rt.iterations)
    (hsecond : second.length ≤ params.rt.iterations)
    (hcountable : Countable (first.map Delivery.latency))
    (hcountable' : Countable (second.map Delivery.latency)) :
    ∃ exports others, process.run opens params first = .ok (.exported exports) ∧
      process.run opens params second = .ok (.exported others) ∧
      (contents file exports = contents file others ↔
        Alike file opens (process.filenames params) (first.map Delivery.latency)
          (second.map Delivery.latency)) ∧
      (Stays file opens (process.filenames params).hist
          [(process.filenames params).topn, (process.filenames params).timeseries] →
        IsWritten opens (process.filenames params).timeseries →
        (contents file exports = contents file others ↔
          first.map Delivery.latency = second.map Delivery.latency)) := by
  have hlength : (first.map Delivery.latency).length ≤ params.rt.iterations := by
    rwa [List.length_map]
  have hlength' : (second.map Delivery.latency).length ≤ params.rt.iterations := by
    rwa [List.length_map]
  have halike : _ ↔ Alike file opens (process.filenames params) _ _ :=
    contents_files_iff hiterations hlength hlength'
  refine ⟨_, _, ?_, ?_, halike, fun hhist htimeseries ↦ ?_⟩
  · rw [process_run_eq_ending process opens hiterations hcountable (hfirst.trans_lt hiterations)]
    exact ending_of_layer hlayer hnames
  · rw [process_run_eq_ending process opens hiterations hcountable' (hsecond.trans_lt hiterations)]
    exact ending_of_layer hlayer hnames
  · exact halike.trans (alike_iff_eq hlength hlength' hhist htimeseries)

/-- A second latency of zero changes the histogram, but not the time series, so that it cannot be
read back if the time series is written over the histogram. -/
theorem contents_of_runs_zero :
    (∃ exports others,
      Process.ping.run (fun _ ↦ true) (paramsFor ⟨"hist.csv", "topn.csv", "series.csv"⟩)
        [⟨default, 5000⟩] = .ok (.exported exports) ∧
      Process.ping.run (fun _ ↦ true) (paramsFor ⟨"hist.csv", "topn.csv", "series.csv"⟩)
        [⟨default, 5000⟩, ⟨default, 0⟩] = .ok (.exported others) ∧
      contents id exports ≠ contents id others) ∧
    ∃ exports others,
      Process.ping.run (fun _ ↦ true) (paramsFor ⟨"all.csv", "all.csv", "all.csv"⟩)
        [⟨default, 5000⟩] = .ok (.exported exports) ∧
      Process.ping.run (fun _ ↦ true) (paramsFor ⟨"all.csv", "all.csv", "all.csv"⟩)
        [⟨default, 5000⟩, ⟨default, 0⟩] = .ok (.exported others) ∧
      contents id exports = contents id others := by
  have hnone : Countable [] := List.forall_mem_nil _
  have hlong : (5000 : UInt64).toNat < 2147483648000 := by decide
  have hshort : (0 : UInt64).toNat < 2147483648000 := by decide
  have hfirst : Countable ([(⟨default, 5000⟩ : Delivery)].map Delivery.latency) :=
    List.forall_mem_cons.mpr ⟨hlong, hnone⟩
  have hsecond : Countable ([(⟨default, 5000⟩ : Delivery), ⟨default, 0⟩].map Delivery.latency) :=
    List.forall_mem_cons.mpr ⟨hlong, List.forall_mem_cons.mpr ⟨hshort, hnone⟩⟩
  constructor
  · have hlayer : (paramsFor ⟨"hist.csv", "topn.csv", "series.csv"⟩).layer ∈ layers := by decide
    obtain ⟨exports, others, hrun, hrun', -, hexact⟩ := contents_of_runs .ping (fun _ ↦ true) id
      hlayer (by decide) (by decide) (by decide) (by decide) hfirst hsecond
    refine ⟨exports, others, hrun, hrun', fun h ↦ ?_⟩
    have hstays : Stays id (fun _ ↦ true) "hist.csv" ["topn.csv", "series.csv"] := by
      unfold Stays
      decide
    exact absurd ((hexact hstays (by decide)).mp h) (by decide)
  · have hlayer : (paramsFor ⟨"all.csv", "all.csv", "all.csv"⟩).layer ∈ layers := by decide
    obtain ⟨exports, others, hrun, hrun', halike, -⟩ := contents_of_runs .ping (fun _ ↦ true) id
      hlayer (by decide) (by decide) (by decide) (by decide) hfirst hsecond
    refine ⟨exports, others, hrun, hrun', halike.mpr ⟨fun h ↦ ?_, fun h ↦ ?_, fun _ ↦ ⟨1, .inr rfl⟩⟩⟩
    · exact absurd rfl (h.2 "all.csv" (by decide) (by decide))
    · exact absurd rfl (h.2 "all.csv" (by decide) (by decide))

end LayerPingPong.TwoWay
