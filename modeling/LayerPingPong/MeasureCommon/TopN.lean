import Mathlib.Data.List.InsertIdx
import LayerPingPong.Base.Ranking
import LayerPingPong.MeasureCommon.HistReport

/-!
# The top-N table holds the largest samples

The nested loop is an insertion into a list of rows that is then cut to its old length. Over a
whole run this makes the table the first rows of all samples sorted by descending latency, the
later sample first among equals, followed by the zero rows of the constructor.
-/

namespace LayerPingPong.MeasureCommon

open Checked Ranking

/-- A sample with its position in the run. -/
abbrev Sample := UInt64 × ℕ

/-- Descending lexicographic order: larger latency first, among equal ones the later sample. -/
def RanksBefore (x y : Sample) : Prop := y.1 < x.1 ∨ (y.1 = x.1 ∧ y.2 ≤ x.2)

instance : DecidableRel RanksBefore :=
  fun x y ↦ inferInstanceAs (Decidable (y.1 < x.1 ∨ (y.1 = x.1 ∧ y.2 ≤ x.2)))

theorem ranksBefore_iff {x y : Sample} :
    RanksBefore x y ↔ y.1.toNat < x.1.toNat ∨ (y.1.toNat = x.1.toNat ∧ y.2 ≤ x.2) := by
  rw [RanksBefore, UInt64.lt_iff_toNat_lt, UInt64.toNat_inj]

instance : Std.Total RanksBefore where
  total x y := by
    simp only [ranksBefore_iff]
    omega

instance : IsTrans Sample RanksBefore where
  trans x y z := by
    simp only [ranksBefore_iff]
    omega

instance : Std.Antisymm RanksBefore where
  antisymm x y hxy hyx := by
    rw [ranksBefore_iff] at hxy hyx
    apply Prod.ext
    · exact UInt64.toNat_inj.mp (by omega)
    · omega

/-- A new sample ranks before a row exactly when the loop's test does not skip that row. -/
theorem ranksBefore_latest {ns : UInt64} {position : ℕ} {row : Sample} (h : row.2 ≤ position) :
    RanksBefore (ns, position) row ↔ ¬ ns < row.1 := by
  rw [ranksBefore_iff, UInt64.lt_iff_toNat_lt]
  dsimp only
  omega

/-! ## The shifting loop -/

/-- `new` is `old` with rows `i + 1, …, j` each taken from the row above. -/
structure Shifted {α : Type} (i j : ℕ) (old new : List α) : Prop where
  length : new.length = old.length
  getElem? : ∀ row, new[row]? = if i < row ∧ row ≤ j then old[row - 1]? else old[row]?

theorem Shifted.refl {α : Type} {i j : ℕ} (h : j ≤ i) (values : List α) :
    Shifted i j values values where
  length := rfl
  getElem? row := by
    rw [if_neg (by omega)]

/-- One iteration of the inner loop, followed by the remaining ones. -/
theorem Shifted.of_set {α : Type} {i j : ℕ} {old new : List α} (hi : i < j + 1)
    (hj : j + 1 < old.length) (h : Shifted i j (old.set (j + 1) old[j]) new) :
    Shifted i (j + 1) old new where
  length := by rw [h.length, List.length_set]
  getElem? row := by
    rw [h.getElem?, List.getElem?_set, List.getElem?_set]
    by_cases hlast : row = j + 1
    · subst hlast
      simp [hi, hj, List.getElem?_eq_getElem (by omega : j < old.length)]
    · have hne : j + 1 ≠ row := fun heq ↦ hlast heq.symm
      by_cases hrow : i < row ∧ row ≤ j
      · have hne' : j + 1 ≠ row - 1 := by omega
        rw [if_pos hrow, if_neg hne', if_pos (by omega)]
      · rw [if_neg hrow, if_neg hne, if_neg (by omega)]

/-- Writing row `i` after the shift inserts there and drops the last row. -/
theorem Shifted.set_eq_insertIdx {α : Type} {i : ℕ} {old new : List α}
    (h : Shifted i (old.length - 1) old new) (hi : i < old.length) (value : α) :
    new.set i value = (old.insertIdx i value).take old.length := by
  apply List.ext_getElem?
  intro row
  rw [List.getElem?_set, h.length, List.getElem?_take, List.getElem?_insertIdx, h.getElem?]
  rcases Nat.lt_trichotomy row i with hlt | heq | hgt
  · rw [if_neg (by omega), if_neg (by omega), if_pos (by omega), if_pos hlt]
  · subst heq
    simp [hi, Nat.le_of_lt hi]
  · rw [if_neg (by omega)]
    by_cases hrow : row < old.length
    · rw [if_pos (by omega), if_pos hrow, if_neg (by omega), if_neg (by omega)]
    · rw [if_neg (by omega), if_neg hrow, List.getElem?_eq_none (by omega)]

theorem shiftBackward_spec (i j : ℕ) (table : TopTable)
    (hns : j < table.topNs.length) (hidx : j < table.topIdx.length) :
    ∃ shifted, table.shiftBackward i j = .ok shifted ∧
      Shifted i j table.topNs shifted.topNs ∧ Shifted i j table.topIdx shifted.topIdx := by
  induction j generalizing table with
  | zero => exact ⟨table, rfl, .refl (by omega) _, .refl (by omega) _⟩
  | succ j ih =>
    by_cases hi : j + 1 > i
    · let next : TopTable :=
        { topNs := table.topNs.set (j + 1) table.topNs[j],
          topIdx := table.topIdx.set (j + 1) table.topIdx[j] }
      obtain ⟨shifted, hrun, hshiftNs, hshiftIdx⟩ := ih next
        (by simp only [next, List.length_set]; omega) (by simp only [next, List.length_set]; omega)
      refine ⟨shifted, ?_, .of_set hi hns hshiftNs, .of_set hi hidx hshiftIdx⟩
      rw [TopTable.shiftBackward, if_pos hi, fetch_eq (by omega), fetch_eq (by omega)]
      simpa only [ok_bind, store_eq hns, store_eq hidx, next] using hrun
    · refine ⟨table, ?_, .refl (by omega) _, .refl (by omega) _⟩
      rw [TopTable.shiftBackward, if_neg hi]

/-! ## One update -/

/-- The two columns of a list of rows. -/
structure TopTable.Holds (table : TopTable) (rows : List Sample) : Prop where
  topNs : table.topNs = rows.map Prod.fst
  topIdx : table.topIdx = rows.map fun row ↦ Int32.ofNat row.2

theorem insertAt_spec {table : TopTable} {rows : List Sample} (h : table.Holds rows)
    (ns : UInt64) (position : ℕ) {i : ℕ} (hi : i < rows.length) :
    ∃ inserted, table.insertAt ns (Int32.ofNat position) rows.length i = .ok inserted ∧
      inserted.Holds ((rows.insertIdx i (ns, position)).take rows.length) := by
  have hns : table.topNs.length = rows.length := by rw [h.topNs, List.length_map]
  have hidx : table.topIdx.length = rows.length := by rw [h.topIdx, List.length_map]
  obtain ⟨shifted, hrun, hshiftNs, hshiftIdx⟩ :=
    shiftBackward_spec i (rows.length - 1) table (by omega) (by omega)
  refine ⟨{ topNs := shifted.topNs.set i ns,
            topIdx := shifted.topIdx.set i (Int32.ofNat position) }, ?_, ?_, ?_⟩
  · have hstoreNs := store_eq (by rw [hshiftNs.length, hns]; exact hi :
      i < shifted.topNs.length) ns
    have hstoreIdx := store_eq (by rw [hshiftIdx.length, hidx]; exact hi :
      i < shifted.topIdx.length) (Int32.ofNat position)
    simp only [TopTable.insertAt, hrun, ok_bind, hstoreNs, hstoreIdx, pure, Except.pure]
  · rw [← hns] at hshiftNs
    change shifted.topNs.set i ns = _
    rw [hshiftNs.set_eq_insertIdx (by omega), List.map_take, List.map_insertIdx, hns, h.topNs]
  · rw [← hidx] at hshiftIdx
    change shifted.topIdx.set i (Int32.ofNat position) = _
    rw [hshiftIdx.set_eq_insertIdx (by omega), List.map_take, List.map_insertIdx, hidx, h.topIdx]

/-- The outer loop over the rows `rest`, after it has skipped the rows `front`. -/
theorem update_spec {table : TopTable} (ns : UInt64) {position : ℕ} (front rest : List Sample)
    (h : table.Holds (front ++ rest)) (hold : ∀ row ∈ rest, row.2 ≤ position) :
    ∃ updated, table.update ns (Int32.ofNat position) (front ++ rest).length rest.length =
        .ok updated ∧
      updated.Holds ((front ++ rest.orderedInsert RanksBefore (ns, position)).take
        (front ++ rest).length) := by
  induction rest generalizing front with
  | nil =>
    refine ⟨table, rfl, ?_⟩
    simpa using h
  | cons row rest ih =>
    have hindex : (front ++ row :: rest).length - (rest.length + 1) = front.length := by
      simp
    have hfetch : fetch table.topNs front.length = .ok row.1 := by
      rw [h.topNs, fetch_eq (by simp)]
      simp
    have hrank : RanksBefore (ns, position) row ↔ ¬ ns < row.1 :=
      ranksBefore_latest (hold row List.mem_cons_self)
    by_cases hskip : ns < row.1
    · have hassoc : front ++ row :: rest = (front ++ [row]) ++ rest := by simp
      rw [hassoc] at h ⊢
      obtain ⟨updated, hrun, hholds⟩ := ih (front ++ [row]) h
        fun later hlater ↦ hold later (List.mem_cons_of_mem row hlater)
      refine ⟨updated, ?_, ?_⟩
      · rw [← hassoc] at hrun ⊢
        simpa only [List.length_cons, TopTable.update, hindex, hfetch, ok_bind,
          if_pos hskip] using hrun
      · rw [List.orderedInsert_of_not_le _ _ (by rw [hrank]; exact not_not_intro hskip)]
        simpa using hholds
    · obtain ⟨updated, hrun, hholds⟩ :=
        insertAt_spec h ns position (i := front.length) (by simp)
      refine ⟨updated, ?_, ?_⟩
      · simpa only [List.length_cons, TopTable.update, hindex, hfetch, ok_bind,
          if_neg hskip] using hrun
      · rw [List.orderedInsert_cons_of_le _ _ (hrank.mpr hskip)]
        rwa [insertIdx_length_append] at hholds

/-! ## Whole runs -/

/-- The state of a report that was `fresh` and has since received `samples`. -/
structure HistReport.Fed (fresh : HistReport) (samples : List UInt64) (report : HistReport) :
    Prop where
  binsNum : report.binsNum = fresh.binsNum
  binWidthNs : report.binWidthNs = fresh.binWidthNs
  maxTopn : report.maxTopn = fresh.maxTopn
  bins_length : report.bins.length = fresh.binsNum.toInt.toNat
  idx : report.idx = Int32.ofNat samples.length
  table : report.toTopTable.Holds
    (padded RanksBefore fresh.maxTopn.toInt.toNat (0, 0) samples.zipIdx)

theorem fed_new {binsNum maxTopn : Int32} {binWidthNs : UInt64} {fresh : HistReport}
    (h : HistReport.new binsNum binWidthNs maxTopn = .ok fresh) : fresh.Fed [] fresh := by
  obtain ⟨-, -, rfl⟩ := new_eq_ok h
  exact ⟨rfl, rfl, rfl, by simp, rfl, ⟨by simp, by simp⟩⟩

/-- The table update of one `add` is defined and ranks the new sample. -/
theorem HistReport.Fed.update_spec {fresh report : HistReport} {samples : List UInt64}
    (h : fresh.Fed samples report) (ns : UInt64) :
    ∃ table, report.toTopTable.update ns report.idx report.maxTopn.toInt.toNat
        report.maxTopn.toInt.toNat = .ok table ∧
      table.Holds (padded RanksBefore fresh.maxTopn.toInt.toNat (0, 0)
        (samples ++ [ns]).zipIdx) := by
  have hpositions : ∀ row ∈ padded RanksBefore fresh.maxTopn.toInt.toNat (0, 0) samples.zipIdx,
      row.2 ≤ samples.length := by
    intro row hrow
    rcases List.mem_append.mp hrow with hranked | hpad
    · have hlt := List.snd_lt_of_mem_zipIdx (mem_of_mem_topOf RanksBefore hranked)
      omega
    · rw [List.eq_of_mem_replicate hpad]
      exact Nat.zero_le _
  have hpad : RanksBefore (ns, samples.length) (0, 0) :=
    (ranksBefore_latest (Nat.zero_le _)).mpr (UInt64.not_lt.mpr UInt64.zero_le)
  obtain ⟨table, hrun, hholds⟩ := MeasureCommon.update_spec ns []
    (padded RanksBefore fresh.maxTopn.toInt.toNat (0, 0) samples.zipIdx) h.table hpositions
  refine ⟨table, ?_, ?_⟩
  · simpa only [List.nil_append, padded_length, h.idx, h.maxTopn] using hrun
  · have hsamples : (samples ++ [ns]).zipIdx = samples.zipIdx ++ [(ns, samples.length)] := by
      simp [List.zipIdx_append]
    rw [hsamples, ← padded_concat RanksBefore _ _ _ hpad]
    simpa only [List.nil_append, padded_length] using hholds

theorem HistReport.Fed.add {fresh report next : HistReport} {samples : List UInt64} {ns : UInt64}
    (h : fresh.Fed samples report) (hcount : samples.length + 1 < 2 ^ 31)
    (hadd : report.add ns = .ok next) : fresh.Fed (samples ++ [ns]) next := by
  obtain ⟨bins, table, idx, hbins, htable, hidx, rfl⟩ := add_eq_ok.mp hadd
  obtain ⟨table', htable', hholds⟩ := h.update_spec ns
  rw [htable, Except.ok.injEq] at htable'
  rw [h.idx, increment_ofNat hcount, Except.ok.injEq] at hidx
  refine ⟨h.binsNum, h.binWidthNs, h.maxTopn, ?_, ?_, ?_⟩
  · exact (countBin_length hbins).trans h.bins_length
  · simp [← hidx]
  · exact htable' ▸ hholds

theorem HistReport.Fed.binUpdateInRange_iff {fresh report : HistReport} {samples : List UInt64}
    (h : fresh.Fed samples report) (ns : UInt64) :
    report.BinUpdateInRange ns ↔ fresh.BinUpdateInRange ns := by
  simp only [HistReport.BinUpdateInRange, HistReport.binIndex, h.binsNum, h.binWidthNs]

/-- The only fault a run shorter than `2 ^ 31` can meet is in the histogram. -/
theorem HistReport.Fed.add_defined {fresh report : HistReport} {samples : List UInt64}
    {ns : UInt64} (h : fresh.Fed samples report) (hwidth : fresh.binWidthNs ≠ 0)
    (hcount : samples.length + 1 < 2 ^ 31) (hrange : fresh.BinUpdateInRange ns) :
    ∃ next, report.add ns = .ok next := by
  have hwidth' : report.binWidthNs ≠ 0 := by rwa [h.binWidthNs]
  have hlength : report.bins.length = report.binsNum.toInt.toNat := by
    rw [h.bins_length, h.binsNum]
  rw [← h.binUpdateInRange_iff, ← countBin_defined_iff hwidth' hlength] at hrange
  obtain ⟨bins, hbins⟩ := hrange
  obtain ⟨table, htable, -⟩ := h.update_spec ns
  have hidx := increment_ofNat hcount
  rw [← h.idx] at hidx
  exact ⟨_, add_eq_ok.mpr ⟨bins, table, _, hbins, htable, hidx, rfl⟩⟩

theorem HistReport.Fed.addAll {fresh report : HistReport} {samples : List UInt64}
    (h : fresh.Fed [] fresh) (hcount : samples.length < 2 ^ 31)
    (hrun : fresh.addAll samples = .ok report) : fresh.Fed samples report := by
  apply foldlM_invariant fresh.Fed ?_ (List.nil_append samples).symm h hrun
  intro past ns rest state next hsplit hfed hadd
  have hlength := length_succ_le_of_split hsplit
  exact hfed.add (by omega) hadd

theorem HistReport.Fed.addAll_defined {fresh : HistReport} {samples : List UInt64}
    (h : fresh.Fed [] fresh) (hwidth : fresh.binWidthNs ≠ 0) (hcount : samples.length < 2 ^ 31)
    (hrange : ∀ ns ∈ samples, fresh.BinUpdateInRange ns) :
    ∃ report, fresh.addAll samples = .ok report ∧ fresh.Fed samples report := by
  apply foldlM_defined fresh.Fed ?_ (List.nil_append samples).symm h
  intro past ns rest state hsplit hfed
  have hlength := length_succ_le_of_split hsplit
  have hns := hrange ns (by simp [hsplit])
  obtain ⟨next, hadd⟩ := hfed.add_defined hwidth (by omega) hns
  exact ⟨next, hadd, hfed.add (by omega) hadd⟩

/-- All samples of a run with their positions, the worst first. -/
def rankedSamples (samples : List UInt64) : List Sample :=
  samples.zipIdx.insertionSort RanksBefore

/-- The rows of the table that are not padding any more. -/
theorem HistReport.Fed.topRows_take {fresh report : HistReport} {samples : List UInt64}
    (h : fresh.Fed samples report) :
    report.topRows.take (min samples.length fresh.maxTopn.toInt.toNat) =
      (topOf RanksBefore fresh.maxTopn.toInt.toNat samples.zipIdx).map
        fun row ↦ (row.1, Int32.ofNat row.2) := by
  have hzip : report.topRows =
      (padded RanksBefore fresh.maxTopn.toInt.toNat (0, 0) samples.zipIdx).map
        fun row ↦ (row.1, Int32.ofNat row.2) := by
    rw [HistReport.topRows, h.table.topNs, h.table.topIdx, List.zip_map']
  rw [hzip, ← List.map_take, ← padded_take RanksBefore _ (0, 0), List.length_zipIdx]

theorem int32_ofNat_injOn {first second : ℕ} (hfirst : first < 2 ^ 31) (hsecond : second < 2 ^ 31)
    (h : Int32.ofNat first = Int32.ofNat second) : first = second := by
  have htoInt := congrArg Int32.toInt h
  rw [Int32.toInt_ofNat_of_lt hfirst, Int32.toInt_ofNat_of_lt hsecond] at htoInt
  exact_mod_cast htoInt

theorem topOf_positions_nodup {samples : List UInt64} (hcount : samples.length < 2 ^ 31) (n : ℕ) :
    ((topOf RanksBefore n samples.zipIdx).map fun row ↦ Int32.ofNat row.2).Nodup := by
  have hsorted : ((samples.zipIdx.insertionSort RanksBefore).map Prod.snd).Nodup := by
    have hperm := (List.perm_insertionSort RanksBefore samples.zipIdx).map Prod.snd
    rw [hperm.nodup_iff, List.zipIdx_map_snd]
    exact List.nodup_range'
  have htop : ((topOf RanksBefore n samples.zipIdx).map Prod.snd).Nodup := by
    rw [topOf, List.map_take]
    exact hsorted.sublist (List.take_sublist _ _)
  have hcompose : ((topOf RanksBefore n samples.zipIdx).map fun row ↦ Int32.ofNat row.2) =
      ((topOf RanksBefore n samples.zipIdx).map Prod.snd).map Int32.ofNat := by
    rw [List.map_map]
    rfl
  rw [hcompose]
  refine htop.map_on ?_
  intro first hfirst second hsecond heq
  have hbound : ∀ position ∈ (topOf RanksBefore n samples.zipIdx).map Prod.snd,
      position < 2 ^ 31 := by
    intro position hposition
    obtain ⟨row, hrow, rfl⟩ := List.mem_map.mp hposition
    have hlt := List.snd_lt_of_mem_zipIdx (mem_of_mem_topOf RanksBefore hrow)
    omega
  exact int32_ofNat_injOn (hbound first hfirst) (hbound second hsecond) heq

/-- After a run of samples the filled rows of the table are the first rows of the ranked samples.
Their sample numbers are distinct, and nothing left out ranks before a row. -/
theorem topRows_eq_rankedSamples {binsNum maxTopn : Int32} {binWidthNs : UInt64}
    {fresh : HistReport} {samples : List UInt64}
    (hnew : HistReport.new binsNum binWidthNs maxTopn = .ok fresh) (hwidth : 0 < binWidthNs)
    (hcount : samples.length < 2 ^ 31) (hrange : ∀ ns ∈ samples, fresh.BinUpdateInRange ns) :
    ∃ report, fresh.addAll samples = .ok report ∧
      let filled := min samples.length maxTopn.toInt.toNat
      report.topRows.take filled =
          ((rankedSamples samples).take filled).map (fun row ↦ (row.1, Int32.ofNat row.2)) ∧
        ((report.topRows.take filled).map Prod.snd).Nodup ∧
        ∀ row ∈ (rankedSamples samples).take filled, ∀ other ∈ samples.zipIdx,
          other ∉ (rankedSamples samples).take filled → RanksBefore row other := by
  have hconfig : fresh.maxTopn = maxTopn ∧ fresh.binWidthNs = binWidthNs := by
    obtain ⟨-, -, rfl⟩ := new_eq_ok hnew
    exact ⟨rfl, rfl⟩
  have hwidth' : fresh.binWidthNs ≠ 0 := by
    rw [hconfig.2]
    exact (UInt64.ne_of_lt hwidth).symm
  obtain ⟨report, hrun, hfed⟩ := (fed_new hnew).addAll_defined hwidth' hcount hrange
  have htake := topOf_eq_take RanksBefore maxTopn.toInt.toNat samples.zipIdx
  rw [List.length_zipIdx] at htake
  have hrows := hfed.topRows_take
  rw [hconfig.1] at hrows
  refine ⟨report, hrun, ?_, ?_, ?_⟩
  · rw [hrows, htake, rankedSamples]
  · rw [hrows, List.map_map]
    exact topOf_positions_nodup hcount _
  · rw [rankedSamples, ← htake]
    intro row hrow other hother hout
    exact rel_of_mem_topOf_of_not_mem RanksBefore hrow hother hout

/-- Two rows kept out of four samples, with a tie and a zero latency. -/
theorem topRows_eq_rankedSamples_four :
    ∃ fresh report, HistReport.new 4 3 2 = .ok fresh ∧
      fresh.addAll [7, 0, 7, 9] = .ok report ∧ report.topRows.take 2 = [(9, 3), (7, 2)] := by
  have hcount : [(7 : UInt64), 0, 7, 9].length < 2 ^ 31 := by simp
  obtain ⟨report, hrun, hrows, -⟩ := topRows_eq_rankedSamples
    (rfl : HistReport.new 4 3 2 = .ok _) (by decide) hcount (by
      simp only [List.forall_mem_cons]
      exact ⟨by decide, by decide, by decide, by decide, nofun⟩)
  exact ⟨_, report, rfl, hrun, hrows.trans (by decide)⟩

end LayerPingPong.MeasureCommon
