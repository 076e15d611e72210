import LayerPingPong.Base.Codec
import LayerPingPong.MeasureCommon.Export

/-!
# The text of a report file

A line feed ends each line, and a comma separates the two numbers of a row. The numbers are written
in decimal, so neither mark occurs in them, and the text determines the header and all rows.
-/

namespace LayerPingPong.MeasureCommon

open Codec

/-! ## Decimal numbers -/

theorem mem_toString {value : ℤ} {c : Char} (h : c ∈ (toString value).toList) :
    c = '-' ∨ c.isDigit = true := by
  rw [Int.toString_eq_repr, Int.repr_eq_if] at h
  split at h
  · rw [Nat.toList_repr] at h
    exact .inr (Nat.isDigit_of_mem_toDigits (by decide) (by decide) h)
  · rw [String.toList_append, Nat.toList_repr] at h
    rcases List.mem_append.mp h with hminus | hdigit
    · exact .inl (by simpa using hminus)
    · exact .inr (Nat.isDigit_of_mem_toDigits (by decide) (by decide) hdigit)

theorem repr_injective {first second : ℕ} (h : first.repr = second.repr) : first = second := by
  have hdigits := congrArg String.toList h
  rw [Nat.toList_repr, Nat.toList_repr] at hdigits
  simpa using congrArg (Nat.ofDigitChars 10 · 0) hdigits

theorem minus_notMem_repr (value : ℕ) : '-' ∉ value.repr.toList := by
  rw [Nat.toList_repr]
  intro h
  exact absurd (Nat.isDigit_of_mem_toDigits (by decide) (by decide) h) (by decide)

theorem toString_injective {first second : ℤ} (h : toString first = toString second) :
    first = second := by
  rw [Int.toString_eq_repr, Int.toString_eq_repr, Int.repr_eq_if, Int.repr_eq_if] at h
  by_cases hfirst : 0 ≤ first <;> by_cases hsecond : 0 ≤ second
  · rw [if_pos hfirst, if_pos hsecond] at h
    have hnat := repr_injective h
    omega
  · rw [if_pos hfirst, if_neg hsecond] at h
    exact absurd (h ▸ by simp) (minus_notMem_repr first.toNat)
  · rw [if_neg hfirst, if_pos hsecond] at h
    exact absurd (h ▸ by simp) (minus_notMem_repr second.toNat)
  · rw [if_neg hfirst, if_neg hsecond] at h
    have hnat := repr_injective ((String.append_right_inj "-").mp h)
    omega

/-! ## Files -/

/-- What is written to the file. -/
def Csv.text (csv : Csv) : String := String.join (csv.lines.map (· ++ "\n"))

theorem mem_row {row : ℤ × ℤ} {c : Char}
    (h : c ∈ (toString row.1 ++ "," ++ toString row.2).toList) :
    c = ',' ∨ c = '-' ∨ c.isDigit = true := by
  rw [String.toList_append, String.toList_append, List.mem_append, List.mem_append] at h
  rcases h with (hfirst | hcomma) | hsecond
  · exact .inr (mem_toString hfirst)
  · exact .inl (by simpa using hcomma)
  · exact .inr (mem_toString hsecond)

theorem row_injective {row other : ℤ × ℤ}
    (h : toString row.1 ++ "," ++ toString row.2 = toString other.1 ++ "," ++ toString other.2) :
    row = other := by
  have hcomma (value : ℤ) : ',' ∉ (toString value).toList := fun hmem ↦
    absurd (mem_toString hmem) (by decide)
  have hlist := congrArg String.toList h
  simp only [String.toList_append, List.append_assoc] at hlist
  obtain ⟨hfirst, hsecond⟩ := (append_cons_inj (hcomma row.1) (hcomma other.1)).mp hlist
  ext
  · exact toString_injective (String.toList_injective hfirst)
  · exact toString_injective (String.toList_injective hsecond)

/-- Files whose headers are single lines have the same text only if they are the same. -/
theorem Csv.text_inj {csv other : Csv} (hcsv : '\n' ∉ csv.header.toList)
    (hother : '\n' ∉ other.header.toList) : csv.text = other.text ↔ csv = other := by
  constructor
  · intro h
    have hlines (csv : Csv) (hheader : '\n' ∉ csv.header.toList) :
        ∀ line ∈ csv.lines.map String.toList, '\n' ∉ line := by
      simp only [Csv.lines, List.map_cons, List.map_map, List.forall_mem_cons, List.forall_mem_map]
      exact ⟨hheader, fun row _ hmem ↦ absurd (mem_row hmem) (by decide)⟩
    have htext (csv : Csv) :
        csv.text.toList = (csv.lines.map String.toList).flatMap (· ++ ['\n']) := by
      simp [Csv.text, List.flatMap_map]
    have hlist := congrArg String.toList h
    rw [htext, htext, flatMap_concat_inj (hlines csv hcsv) (hlines other hother)] at hlist
    have hsame := List.map_injective_iff.mpr (fun _ _ ↦ String.toList_injective) hlist
    obtain ⟨hheader, hrows⟩ := List.cons.inj hsame
    have hrow := List.map_injective_iff.mpr (fun _ _ ↦ row_injective) hrows
    cases csv
    cases other
    exact congrArg₂ Csv.mk hheader hrow
  · intro h
    rw [h]

theorem Csv.text_inj_of_header {header : String} (hheader : '\n' ∉ header.toList)
    {rows others : List (ℤ × ℤ)} :
    (⟨header, rows⟩ : Csv).text = (⟨header, others⟩ : Csv).text ↔ rows = others := by
  rw [Csv.text_inj hheader hheader, Csv.mk.injEq, and_iff_right rfl]

end LayerPingPong.MeasureCommon
