import LayerPingPong.MeasureCommon.TopN

/-!
# Which latencies the histogram counts correctly

The quotient of a sample by the bin width is narrowed to `int` before it is compared with the
number of bins. A quotient whose narrowing lies below the number of bins is counted in a wrong bin
or leaves the vector, so the counts are exact only for runs without such samples.
-/

namespace LayerPingPong.MeasureCommon

open Checked

/-- Every bin holds the number of samples with that quotient, and every access is in range. -/
structure HistogramExact (fresh : HistReport) (samples : List UInt64) : Prop where
  defined : ∃ report, fresh.addAll samples = .ok report
  counts : ∀ report, fresh.addAll samples = .ok report →
    ∀ bin < fresh.binsNum.toInt.toNat, ∃ count, report.bins[bin]? = some count ∧
      count.toNat = samples.countP fun ns ↦ fresh.quotient ns = bin
  beyond : ∀ front ns rest report next, samples = front ++ ns :: rest →
    fresh.addAll front = .ok report → report.add ns = .ok next →
    fresh.binsNum.toInt.toNat ≤ fresh.quotient ns → next.bins = report.bins

/-- The quotient is a bin number, or the low half of its residue still exceeds them all. -/
def QuotientSurvives (binsNum : Int32) (binWidthNs ns : UInt64) : Prop :=
  let quotient := ns.toNat / binWidthNs.toNat
  quotient < binsNum.toInt.toNat ∨
    (binsNum.toInt.toNat ≤ quotient % 2 ^ 32 ∧ quotient % 2 ^ 32 < 2 ^ 31)

instance (binsNum : Int32) (binWidthNs ns : UInt64) :
    Decidable (QuotientSurvives binsNum binWidthNs ns) :=
  inferInstanceAs (Decidable (_ ∨ _ ∧ _))

/-- In the surviving cases the test on the narrowed index agrees with the exact one. -/
theorem quotientSurvives_iff {fresh : HistReport} (hbins : 0 ≤ fresh.binsNum) (ns : UInt64) :
    QuotientSurvives fresh.binsNum fresh.binWidthNs ns ↔
      (fresh.quotient ns < fresh.binsNum.toInt.toNat ∧
        (fresh.binIndex ns).toInt = fresh.quotient ns) ∨
      (fresh.binsNum.toInt.toNat ≤ fresh.quotient ns ∧ fresh.binsNum ≤ fresh.binIndex ns) := by
  have hindex := binIndex_toInt fresh ns
  have hzero : (0 : ℤ) ≤ fresh.binsNum.toInt := Int32.le_iff_toInt_le.mp hbins
  have hbound := fresh.binsNum.toInt_lt
  have hsurvives : QuotientSurvives fresh.binsNum fresh.binWidthNs ns ↔
      fresh.quotient ns < fresh.binsNum.toInt.toNat ∨
        (fresh.binsNum.toInt.toNat ≤ fresh.quotient ns % 2 ^ 32 ∧
          fresh.quotient ns % 2 ^ 32 < 2 ^ 31) := Iff.rfl
  rw [hsurvives, Int32.le_iff_toInt_le]
  omega

/-! ## What a run without a fault counts -/

/-- The bins count narrowed quotients, whatever the exact quotients are. -/
def HistReport.CountsNarrowed (fresh : HistReport) (samples : List UInt64) (report : HistReport) :
    Prop :=
  ∀ bin < fresh.binsNum.toInt.toNat, report.bins[bin]? =
    some (UInt32.ofNat (samples.countP fun ns ↦ (fresh.binIndex ns).toInt = bin))

theorem countsNarrowed_new {binsNum maxTopn : Int32} {binWidthNs : UInt64} {fresh : HistReport}
    (h : HistReport.new binsNum binWidthNs maxTopn = .ok fresh) : fresh.CountsNarrowed [] fresh := by
  obtain ⟨-, -, rfl⟩ := new_eq_ok h
  intro bin hbin
  simpa [List.getElem?_replicate] using hbin

theorem HistReport.Fed.binIndex_eq {fresh report : HistReport} {samples : List UInt64}
    (h : fresh.Fed samples report) (ns : UInt64) : report.binIndex ns = fresh.binIndex ns := by
  simp only [HistReport.binIndex, h.binWidthNs]

/-- What one defined update does to the bins. -/
theorem HistReport.Fed.add_bins {fresh report next : HistReport} {samples : List UInt64}
    {ns : UInt64} (h : fresh.Fed samples report) (hwidth : fresh.binWidthNs ≠ 0)
    (hadd : report.add ns = .ok next) :
    (fresh.binsNum ≤ fresh.binIndex ns ∧ next.bins = report.bins) ∨
      (0 ≤ fresh.binIndex ns ∧ fresh.binIndex ns < fresh.binsNum ∧
        ∃ hindex : (fresh.binIndex ns).toInt.toNat < report.bins.length,
          next.bins = report.bins.set (fresh.binIndex ns).toInt.toNat
            (report.bins[(fresh.binIndex ns).toInt.toNat] + 1)) := by
  obtain ⟨bins, table, idx, hbins, -, -, rfl⟩ := add_eq_ok.mp hadd
  have hwidth' : report.binWidthNs ≠ 0 := by rwa [h.binWidthNs]
  have hlength : report.bins.length = report.binsNum.toInt.toNat := by
    rw [h.bins_length, h.binsNum]
  have hrange := (countBin_defined_iff hwidth' hlength).mp ⟨bins, hbins⟩
  rw [← h.binIndex_eq ns, ← h.binsNum]
  by_cases hlt : report.binIndex ns < report.binsNum
  · obtain ⟨hindex, hset⟩ := countBin_of_lt hwidth' hlength hlt (hrange hlt)
    rw [hset, Except.ok.injEq] at hbins
    exact .inr ⟨hrange hlt, hlt, hindex, hbins.symm⟩
  · have hge := Int32.not_lt.mp hlt
    rw [countBin_of_ge hwidth' hge, Except.ok.injEq] at hbins
    exact .inl ⟨hge, hbins.symm⟩

theorem HistReport.CountsNarrowed.add {fresh report next : HistReport} {samples : List UInt64}
    {ns : UInt64} (hcounts : fresh.CountsNarrowed samples report) (h : fresh.Fed samples report)
    (hwidth : fresh.binWidthNs ≠ 0) (hadd : report.add ns = .ok next) :
    fresh.CountsNarrowed (samples ++ [ns]) next := by
  intro bin hbin
  have hold := hcounts bin hbin
  rw [List.countP_append, List.countP_singleton]
  rcases h.add_bins hwidth hadd with ⟨hge, hbins⟩ | ⟨hnonneg, hlt, hindex, hbins⟩
  · have hother : (fresh.binIndex ns).toInt ≠ bin := by
      rw [Int32.le_iff_toInt_le] at hge
      omega
    simpa [hbins, hother] using hold
  · rw [hbins, List.getElem?_set]
    have hzero : (0 : ℤ) ≤ (fresh.binIndex ns).toInt := Int32.le_iff_toInt_le.mp hnonneg
    by_cases hhit : (fresh.binIndex ns).toInt = bin
    · have hnat : (fresh.binIndex ns).toInt.toNat = bin := by omega
      subst hnat
      rw [List.getElem?_eq_getElem hindex, Option.some.injEq] at hold
      rw [if_pos rfl, if_pos hindex, hold, if_pos (by simpa using hhit), UInt32.ofNat_add]
      rfl
    · have hnat : (fresh.binIndex ns).toInt.toNat ≠ bin := by omega
      rw [if_neg hnat, hold, if_neg (by simpa using hhit), Nat.add_zero]

theorem HistReport.CountsNarrowed.addAll {fresh report : HistReport} {samples : List UInt64}
    (hcounts : fresh.CountsNarrowed [] fresh) (h : fresh.Fed [] fresh)
    (hwidth : fresh.binWidthNs ≠ 0) (hcount : samples.length < 2 ^ 31)
    (hrun : fresh.addAll samples = .ok report) : fresh.CountsNarrowed samples report := by
  have hboth : fresh.Fed samples report ∧ fresh.CountsNarrowed samples report := by
    apply foldlM_invariant (fun past state ↦ fresh.Fed past state ∧ fresh.CountsNarrowed past state)
      ?_ (List.nil_append samples).symm ⟨h, hcounts⟩ hrun
    intro past ns rest state next hsplit hstate hadd
    have hlength := length_succ_le_of_split hsplit
    exact ⟨hstate.1.add (by omega) hadd, hstate.2.add hstate.1 hwidth hadd⟩
  exact hboth.2

/-! ## Exactness -/

theorem new_config {binsNum maxTopn : Int32} {binWidthNs : UInt64} {fresh : HistReport}
    (h : HistReport.new binsNum binWidthNs maxTopn = .ok fresh) :
    0 ≤ fresh.binsNum ∧ fresh.binsNum = binsNum ∧ fresh.binWidthNs = binWidthNs := by
  obtain ⟨hbins, -, rfl⟩ := new_eq_ok h
  exact ⟨hbins, rfl, rfl⟩

/-- A sample in an exact run survives: a bin it does not belong to would have changed. -/
theorem HistogramExact.quotientSurvives {fresh : HistReport} {samples : List UInt64}
    (h : HistogramExact fresh samples) (hfed : fresh.Fed [] fresh) (hbins : 0 ≤ fresh.binsNum)
    (hwidth : fresh.binWidthNs ≠ 0) (hcount : samples.length < 2 ^ 31) {ns : UInt64}
    (hns : ns ∈ samples) : QuotientSurvives fresh.binsNum fresh.binWidthNs ns := by
  by_cases hsmall : fresh.quotient ns < fresh.binsNum.toInt.toNat
  · exact .inl hsmall
  · obtain ⟨front, rest, rfl⟩ := List.append_of_mem hns
    obtain ⟨last, hrun⟩ := h.defined
    rw [addAll_append, bind_eq_ok] at hrun
    obtain ⟨report, hfront, hrun⟩ := hrun
    rw [addAll_cons, bind_eq_ok] at hrun
    obtain ⟨next, hadd, -⟩ := hrun
    have hsame := h.beyond front ns rest report next rfl hfront hadd (Nat.not_lt.mp hsmall)
    have hlength : front.length < 2 ^ 31 := by
      rw [List.length_append] at hcount
      omega
    have hreport := hfed.addAll hlength hfront
    rcases hreport.add_bins hwidth hadd with ⟨hge, -⟩ | ⟨-, -, hindex, hset⟩
    · exact (quotientSurvives_iff hbins ns).mpr (.inr ⟨Nat.not_lt.mp hsmall, hge⟩)
    · have helement := congrArg (·[(fresh.binIndex ns).toInt.toNat]?) (hset.symm.trans hsame)
      simp only [List.getElem?_set_self hindex, List.getElem?_eq_getElem hindex,
        Option.some.injEq] at helement
      exact absurd helement (by simp)

/-- Surviving quotients make the narrowed counts the exact ones. -/
theorem HistogramExact.of_quotientSurvives {fresh : HistReport} {samples : List UInt64}
    (hfed : fresh.Fed [] fresh) (hcounts : fresh.CountsNarrowed [] fresh)
    (hbins : 0 ≤ fresh.binsNum) (hwidth : fresh.binWidthNs ≠ 0) (hcount : samples.length < 2 ^ 31)
    (h : ∀ ns ∈ samples, QuotientSurvives fresh.binsNum fresh.binWidthNs ns) :
    HistogramExact fresh samples := by
  have hcases := fun ns hns ↦ (quotientSurvives_iff hbins ns).mp (h ns hns)
  have hrange : ∀ ns ∈ samples, fresh.BinUpdateInRange ns := by
    intro ns hns hlt
    rcases hcases ns hns with ⟨-, hindex⟩ | ⟨-, hge⟩
    · have hzero : (0 : ℤ) ≤ (fresh.binIndex ns).toInt := by omega
      exact Int32.le_iff_toInt_le.mpr hzero
    · exact absurd hlt (Int32.not_lt.mpr hge)
  obtain ⟨last, hlast, -⟩ := hfed.addAll_defined hwidth hcount hrange
  refine ⟨⟨last, hlast⟩, ?_, ?_⟩
  · intro report hrun bin hbin
    have hnarrowed := hcounts.addAll hfed hwidth hcount hrun bin hbin
    have hcongr : samples.countP (fun ns ↦ (fresh.binIndex ns).toInt = bin) =
        samples.countP fun ns ↦ fresh.quotient ns = bin := by
      apply List.countP_congr
      intro ns hns
      simp only [decide_eq_true_eq]
      rcases hcases ns hns with ⟨-, hindex⟩ | ⟨hge, hindex⟩
      · omega
      · rw [Int32.le_iff_toInt_le] at hindex
        omega
    refine ⟨_, hnarrowed, ?_⟩
    rw [hcongr, UInt32.toNat_ofNat_of_lt']
    exact (List.countP_le_length).trans_lt (hcount.trans (by decide))
  · intro front ns rest report next hsplit hfront hadd hlarge
    have hlength := length_succ_le_of_split hsplit
    have hlength : front.length < 2 ^ 31 := by omega
    rcases (hfed.addAll hlength hfront).add_bins hwidth hadd with ⟨-, hsame⟩ | ⟨-, hlt, -⟩
    · exact hsame
    · rcases hcases ns (by simp [hsplit]) with ⟨hsmall, -⟩ | ⟨-, hge⟩
      · omega
      · exact absurd hlt (Int32.not_lt.mpr hge)

/-- The histogram of a fresh report is exact for precisely the runs of surviving quotients. -/
theorem histogramExact_iff {binsNum maxTopn : Int32} {binWidthNs : UInt64} {fresh : HistReport}
    {samples : List UInt64} (hnew : HistReport.new binsNum binWidthNs maxTopn = .ok fresh)
    (hwidth : 0 < binWidthNs) (hcount : samples.length < 2 ^ 31) :
    HistogramExact fresh samples ↔ ∀ ns ∈ samples, QuotientSurvives binsNum binWidthNs ns := by
  obtain ⟨hbins, rfl, rfl⟩ := new_config hnew
  have hne : fresh.binWidthNs ≠ 0 := (UInt64.ne_of_lt hwidth).symm
  constructor
  · intro h ns hns
    exact h.quotientSurvives (fed_new hnew) hbins hne hcount hns
  · exact .of_quotientSurvives (fed_new hnew) (countsNarrowed_new hnew) hbins hne hcount

theorem histogramExact_iff_three :
    ∃ fresh, HistReport.new 3 10 1 = .ok fresh ∧ HistogramExact fresh [5, 29, 30, 12] := by
  have hcount : [(5 : UInt64), 29, 30, 12].length < 2 ^ 31 := by simp
  refine ⟨_, rfl,
    (histogramExact_iff (rfl : HistReport.new 3 10 1 = .ok _) (by decide) hcount).mpr ?_⟩
  simp only [List.forall_mem_cons]
  exact ⟨by decide, by decide, by decide, by decide, nofun⟩

/-- In the report of both sides, a latency of about 72 minutes is counted as zero, and one of
about 36 minutes makes the index negative. -/
theorem histogramExact_fails :
    ∃ fresh, HistReport.new 5000 = .ok fresh ∧ ¬ HistogramExact fresh [4294967296000] ∧
      fresh.addAll [2147483648000] = .error .outOfRange := by
  have hnew : HistReport.new 5000 = .ok _ := rfl
  obtain ⟨hbins, hbinsNum, hbinWidthNs⟩ := new_config hnew
  refine ⟨_, hnew, ?_, ?_⟩
  · intro h
    have hsurvives := h.quotientSurvives (fed_new hnew) hbins
      (by rw [hbinWidthNs]; decide) (by decide) List.mem_cons_self
    rw [hbinsNum, hbinWidthNs] at hsurvives
    exact absurd hsurvives (by decide)
  · rw [addAll_cons, HistReport.add, countBin_of_neg]
    · rfl
    all_goals decide

end LayerPingPong.MeasureCommon
