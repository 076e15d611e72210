import Mathlib.Data.List.TakeWhile
import LayerPingPong.TwoWay.HandOver

/-!
# What the command line sets

A setting is spelled in one token or in two, with the name of its option in full or cut short. The
scan finds exactly the settings that are spelled before the first operand, whatever is skipped
between them, and of several settings of one option the last one counts.
-/

namespace LayerPingPong.TwoWay

/-! ## The spelling of a setting -/

/-- The tokens that set the option to this value. -/
inductive Spells (c : Char) : String → List String → Prop
  | attached {name : List Char} : findLongopt name = some c → ∀ value : String,
      Spells c value [String.ofList ('-' :: '-' :: (name ++ '=' :: value.toList))]
  | separate {name : List Char} : findLongopt name = some c → ∀ value : String,
      Spells c value [String.ofList ('-' :: '-' :: name), value]

/-- The command lines, without the name of the program, that spell these settings in this order. -/
inductive CommandLine : List (Char × String) → List String → Prop
  | done {rest : List String} : NoOption rest → CommandLine [] rest
  | terminated (rest : List String) : CommandLine [] ("--" :: rest)
  | missing {token : String} {c : Char} : classify token = .listed c none → CommandLine [] [token]
  | skipped {settings : List (Char × String)} {token : String} {rest : List String} :
      classify token = .unlisted → CommandLine settings rest → CommandLine settings (token :: rest)
  | setting {settings : List (Char × String)} {c : Char} {value : String}
      {spelled rest : List String} : Spells c value spelled → CommandLine settings rest →
      CommandLine ((c, value) :: settings) (spelled ++ rest)

/-- A name that is found is not empty and has no `'='`. -/
theorem name_of_findLongopt {name : List Char} {c : Char} (h : findLongopt name = some c) :
    name ≠ [] ∧ '=' ∉ name := by
  have hlisted : ∀ option ∈ longopts, option.1.toList ≠ [] ∧ '=' ∉ option.1.toList := by decide
  unfold findLongopt at h
  split at h
  · rename_i option hfind
    have hname : option.1.toList = name := by simpa using List.find?_some hfind
    exact hname ▸ hlisted option (List.mem_of_find?_eq_some hfind)
  · split at h
    · rename_i option hfilter
      have hmem : option ∈ longopts ∧ name.isPrefixOf option.1.toList = true := by
        apply List.mem_filter.mp
        rw [hfilter]
        exact List.mem_singleton_self option
      constructor
      · rintro rfl
        have hlength := congrArg List.length hfilter
        simp [longopts] at hlength
      · intro hequals
        have hstart := List.isPrefixOf_iff_prefix.mp hmem.2
        exact (hlisted option hmem.1).2 (hstart.subset hequals)
    · cases h

/-- What stands before the first `'='`, and what stands after it. -/
theorem takeWhile_name {name : List Char} (h : '=' ∉ name) (value : List Char) :
    (name ++ '=' :: value).takeWhile (· ≠ '=') = name := by
  have hall : ∀ char ∈ name, decide (char ≠ '=') = true := fun char hmem ↦
    decide_eq_true (ne_of_mem_of_not_mem hmem h)
  rw [List.takeWhile_append_of_pos hall, List.takeWhile_cons_of_neg (by simp), List.append_nil]

theorem takeWhile_append_drop {text : List Char} (h : '=' ∈ text) :
    text.takeWhile (· ≠ '=') ++ '=' :: text.drop ((text.takeWhile (· ≠ '=')).length + 1) = text := by
  induction text with
  | nil => cases h
  | cons char text ih =>
    by_cases hchar : char = '='
    · simp [hchar]
    · have hmem : '=' ∈ text := List.mem_of_ne_of_mem (Ne.symm hchar) h
      rw [List.takeWhile_cons_of_pos (by simp [hchar]), List.cons_append, List.length_cons,
        List.drop_succ_cons, ih hmem]

theorem classify_attached {name : List Char} {c : Char} (h : findLongopt name = some c)
    (value : String) :
    classify (String.ofList ('-' :: '-' :: (name ++ '=' :: value.toList))) =
      .listed c (some value) := by
  obtain ⟨hne, hequals⟩ := name_of_findLongopt h
  obtain ⟨char, rest, rfl⟩ := List.exists_cons_of_ne_nil hne
  have htake := takeWhile_name hequals value.toList
  unfold classify
  rw [String.toList_ofList]
  simp only [List.cons_append] at htake ⊢
  simp only [htake, h]
  simp

theorem classify_separate {name : List Char} {c : Char} (h : findLongopt name = some c) :
    classify (String.ofList ('-' :: '-' :: name)) = .listed c none := by
  obtain ⟨hne, hequals⟩ := name_of_findLongopt h
  obtain ⟨char, rest, rfl⟩ := List.exists_cons_of_ne_nil hne
  have htake : (char :: rest).takeWhile (· ≠ '=') = char :: rest :=
    List.takeWhile_eq_self_iff.mpr fun other hmem ↦
      decide_eq_true (ne_of_mem_of_not_mem hmem hequals)
  unfold classify
  rw [String.toList_ofList]
  simp only [htake, h]
  simp [hequals]

theorem exists_text_of_classify {token : String} {c : Char} {attached : Option String}
    (h : classify token = .listed c attached) :
    ∃ text, token = String.ofList ('-' :: '-' :: text) ∧
      findLongopt (text.takeWhile (· ≠ '=')) = some c ∧
      attached = if '=' ∈ text then
        some (String.ofList (text.drop ((text.takeWhile (· ≠ '=')).length + 1))) else none := by
  unfold classify at h
  split at h
  · cases h
  · rename_i text _ hlist
    have htoken : token = String.ofList ('-' :: '-' :: text) := by rw [← hlist, String.ofList_toList]
    cases hfind : findLongopt (text.takeWhile (· ≠ '=')) with
    | none =>
      simp only [hfind] at h
      cases h
    | some found =>
      simp only [hfind] at h
      injection h with hc hattached
      exact ⟨text, htoken, hc ▸ hfind, hattached.symm⟩
  all_goals cases h

theorem spells_of_classify_attached {token value : String} {c : Char}
    (h : classify token = .listed c (some value)) : Spells c value [token] := by
  obtain ⟨text, htoken, hfind, hvalue⟩ := exists_text_of_classify h
  split at hvalue
  · rename_i hequals
    have hspells := Spells.attached hfind value
    rw [Option.some.inj hvalue, String.toList_ofList, takeWhile_append_drop hequals] at hspells
    rw [htoken, Option.some.inj hvalue]
    exact hspells
  · cases hvalue

theorem spells_of_classify_separate {token : String} {c : Char}
    (h : classify token = .listed c none) (value : String) : Spells c value [token, value] := by
  obtain ⟨text, htoken, hfind, hvalue⟩ := exists_text_of_classify h
  split at hvalue
  · cases hvalue
  · rename_i hequals
    have htake : text.takeWhile (· ≠ '=') = text := List.takeWhile_eq_self_iff.mpr fun other hmem ↦
      decide_eq_true (ne_of_mem_of_not_mem hmem hequals)
    rw [htake] at hfind
    rw [htoken]
    exact .separate hfind value

/-! ## The scan finds the settings -/

def Step.setting : Step → Option (Char × String)
  | .option c optarg _ => some (c, optarg)
  | .unknown _ | .terminator => none

def settings (tokens : List String) : List (Char × String) :=
  (scan tokens).1.filterMap Step.setting

section Settings

variable {token : String} {rest : List String} {c : Char}

theorem settings_done (h : NoOption rest) : settings rest = [] := by
  rw [settings, (scan_eq_nil_iff rest).mpr h]
  rfl

theorem settings_terminated (rest : List String) : settings ("--" :: rest) = [] := by
  have kind : classify "--" = .terminator := by decide
  simp [settings, scan, kind, List.filterMap_cons, Step.setting]

theorem settings_missing (kind : classify token = .listed c none) : settings [token] = [] := by
  simp [settings, scan, kind, List.filterMap_cons, Step.setting]

theorem settings_skipped (kind : classify token = .unlisted) :
    settings (token :: rest) = settings rest := by
  simp [settings, scan, kind, List.filterMap_cons, Step.setting]

theorem settings_attached {value : String} (kind : classify token = .listed c (some value)) :
    settings (token :: rest) = (c, value) :: settings rest := by
  simp [settings, scan, kind, Step.setting]

theorem settings_separate (value : String) (kind : classify token = .listed c none) :
    settings (token :: value :: rest) = (c, value) :: settings rest := by
  simp [settings, scan, kind, Step.setting]

end Settings

theorem CommandLine.settings_eq {found : List (Char × String)} {tokens : List String}
    (h : CommandLine found tokens) : settings tokens = found := by
  induction h with
  | done hrest => exact settings_done hrest
  | terminated rest => exact settings_terminated rest
  | missing kind => exact settings_missing kind
  | skipped kind _ ih => exact (settings_skipped kind).trans ih
  | @setting found c value spelled rest hspells _ ih =>
    cases hspells with
    | attached hfind =>
      exact (settings_attached (classify_attached hfind value)).trans (congrArg _ ih)
    | separate hfind =>
      exact (settings_separate value (classify_separate hfind)).trans (congrArg _ ih)

theorem commandLine_settings (tokens : List String) : CommandLine (settings tokens) tokens := by
  induction tokens using scan.induct with
  | case1 => exact .done (by simp [NoOption])
  | case2 token rest kind =>
    have hrest : NoOption (token :: rest) := by simpa [NoOption] using kind
    rw [settings_done hrest]
    exact .done hrest
  | case3 token rest kind =>
    rw [eq_of_classify_eq_terminator kind, settings_terminated]
    exact .terminated rest
  | case4 token rest kind ih =>
    rw [settings_skipped kind]
    exact .skipped kind ih
  | case5 token rest c value kind ih =>
    rw [settings_attached kind]
    exact .setting (spells_of_classify_attached kind) ih
  | case6 token c kind =>
    rw [settings_missing kind]
    exact .missing kind
  | case7 token c kind value rest ih =>
    rw [settings_separate value kind]
    exact .setting (spells_of_classify_separate kind value) ih

/-! ## The last setting of an option counts -/

/-- The field that the `switch` assigns. -/
def Params.field (params : Params) : Char → String
  | 'p' => params.type
  | 's' => params.side
  | 'l' => params.layer
  | 'h' => params.pingHistFilename
  | 'n' => params.pingTopnFilename
  | 't' => params.pingTimeseriesFilename
  | 'i' => params.pongHistFilename
  | 'o' => params.pongTopnFilename
  | 'u' => params.pongTimeseriesFilename
  | _ => ""

/-- The `switch` assigns to the field of the option and to no other one. -/
theorem field_assign (params : Params) (c : Char) (optarg : String) {option : String × Char}
    (h : option ∈ longopts) :
    (params.assign c optarg).field option.2 =
      if option.2 = c then optarg else params.field option.2 := by
  by_cases hc : option.2 = c
  · rw [if_pos hc, ← hc]
    simp only [longopts, List.mem_cons, List.not_mem_nil, or_false] at h
    rcases h with rfl | rfl | rfl | rfl | rfl | rfl | rfl | rfl | rfl <;> rfl
  · rw [if_neg hc]
    simp only [longopts, List.mem_cons, List.not_mem_nil, or_false] at h
    unfold Params.assign
    rcases h with rfl | rfl | rfl | rfl | rfl | rfl | rfl | rfl | rfl <;> split <;>
      first | rfl | exact absurd rfl hc

theorem field_foldl_apply (steps : List Step) (params : Params) {option : String × Char}
    (h : option ∈ longopts) :
    (steps.foldl Params.apply params).field option.2 =
      ((steps.filterMap Step.setting).reverse.lookup option.2).getD (params.field option.2) := by
  induction steps generalizing params with
  | nil => rfl
  | cons step steps ih =>
    rw [List.foldl_cons, ih]
    cases step with
    | option c optarg tokens =>
      have hcons : (Step.option c optarg tokens :: steps).filterMap Step.setting =
          (c, optarg) :: steps.filterMap Step.setting := List.filterMap_cons_some rfl
      rw [hcons, List.reverse_cons, List.lookup_append, Option.getD_or]
      apply congrArg
      calc
        (params.assign c optarg).field option.2 =
            if option.2 = c then optarg else params.field option.2 := field_assign params c optarg h
        _ = (List.lookup option.2 [(c, optarg)]).getD (params.field option.2) := by
          rw [List.lookup_cons, List.lookup_nil]
          by_cases hc : option.2 = c
          · simp [hc]
          · simp [hc, beq_eq_false_iff_ne.mpr hc]
    | unknown token | terminator => rfl

theorem field_getParams (readArgs : List String → Window → RtParams) (argv : List String)
    (c : Char) :
    (getParams readArgs argv).field c = ((scanned argv).foldl Params.apply default).field c := by
  unfold Params.field getParams
  split <;> rfl

theorem field_getParams_eq (readArgs : List String → Window → RtParams) (program : String)
    (tokens : List String) {option : String × Char} (h : option ∈ longopts) :
    (getParams readArgs (program :: tokens)).field option.2 =
      ((settings tokens).reverse.lookup option.2).getD "" := by
  have hempty : (default : Params).field option.2 = "" := by
    unfold Params.field
    split <;> rfl
  rw [field_getParams, field_foldl_apply _ _ h, hempty]
  rfl

/-- Each command line spells one list of settings, and every field of the parameters is the value of
the last setting of its option, or empty if there is none. -/
theorem getParams_of_commandLine (readArgs : List String → Window → RtParams) (program : String)
    (tokens : List String) :
    ∃ found, (∀ other, CommandLine other tokens ↔ other = found) ∧
      ∀ option ∈ longopts, (getParams readArgs (program :: tokens)).field option.2 =
        (found.reverse.lookup option.2).getD "" := by
  refine ⟨settings tokens, fun other ↦ ?_, fun option hoption ↦ ?_⟩
  · constructor
    · intro h
      exact h.settings_eq.symm
    · intro h
      rw [h]
      exact commandLine_settings tokens
  · exact field_getParams_eq readArgs program tokens hoption

end LayerPingPong.TwoWay
