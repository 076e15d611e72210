import LayerPingPong.TwoWay.Arguments

/-!
# What the window hands over

A token that was not consumed as a long option or its argument is meant for the reader of the
window, which skips the first token as the name of the program. Such a token is in the window only
if nothing was scanned after it. The window starts in front of the command line if nothing was
scanned at all.
-/

namespace LayerPingPong.TwoWay

/-- The step that has taken the token at this place of the scanned ones. -/
def stepAt : List Step → ℕ → Option Step
  | [], _ => none
  | step :: steps, place =>
    if place < step.tokens.length then some step else stepAt steps (place - step.tokens.length)

/-- The token with this index is a long option that was read, or its argument. -/
def Consumed (argv : List String) (index : ℕ) : Prop :=
  ∃ c optarg tokens, stepAt (scanned argv) (index - 1) = some (.option c optarg tokens)

/-- The window starts inside `argv`, and every token but the name of the program, `"--"` and the
consumed ones has a place after its first one. -/
structure HandsOn (argv : List String) : Prop where
  start : 0 ≤ (window argv).start
  kept : ∀ index token, argv[index]? = some token → 1 ≤ index → ¬ Consumed argv index →
    token ≠ "--" → ∃ place : ℕ, 1 ≤ place ∧ (place : ℤ) < (window argv).length ∧
      (index : ℤ) = (window argv).start + place

/-- Listed long options, each with its argument. -/
inductive Listed : List String → Prop
  | nil : Listed []
  | attached {token : String} {c : Char} {optarg : String} {options : List String} :
      classify token = .listed c (some optarg) → Listed options → Listed (token :: options)
  | separate {token : String} {c : Char} {options : List String} (optarg : String) :
      classify token = .listed c none → Listed options → Listed (token :: optarg :: options)

def NoOption (tokens : List String) : Prop := ∀ token ∈ tokens.head?, classify token = .operand

/-- The command lines, without the name of the program, for which two tokens before the first one
that was not scanned is the right place: one token at most stands between the listed options and
an operand, and one at least has been scanned. -/
inductive Separable : List String → Prop
  | listed {options rest : List String} :
      Listed options → options ≠ [] → NoOption rest → Separable (options ++ rest)
  | terminated {options : List String} (rest : List String) :
      Listed options → Separable (options ++ "--" :: rest)
  | skipped {options rest : List String} {token : String} :
      Listed options → classify token = .unlisted → NoOption rest →
        Separable (options ++ token :: rest)
  | missing {options : List String} {token : String} {c : Char} :
      Listed options → classify token = .listed c none → Separable (options ++ [token])

/-- A token was scanned, and one that was skipped is the last one scanned. -/
structure SkipsLast (steps : List Step) : Prop where
  scanned : steps ≠ []
  last : ∀ past token later, steps = past ++ .unknown token :: later → later = []

/-! ## The tokens of a scan -/

theorem eq_of_classify_eq_terminator {token : String} (h : classify token = .terminator) :
    token = "--" := by
  unfold classify at h
  split at h
  · rename_i chars
    apply String.toList_inj.mp
    rw [chars]
    rfl
  · dsimp only at h
    split at h <;> cases h
  · cases h
  · cases h

theorem ne_of_classify_ne_terminator {token : String} (h : classify token ≠ .terminator) :
    token ≠ "--" := by
  intro htoken
  rw [htoken] at h
  exact h (by decide)

/-- The tokens before the first operand are those of the steps, in their order. -/
theorem scan_tokens (tokens : List String) :
    (scan tokens).1.flatMap Step.tokens ++ (scan tokens).2 = tokens := by
  induction tokens using scan.induct with
  | case1 => rfl
  | case2 token rest kind => simp [scan, kind]
  | case3 token rest kind =>
    have htoken := eq_of_classify_eq_terminator kind
    simp [scan, kind, Step.tokens, htoken.symm]
  | case4 token rest kind ih => simp [scan, kind, Step.tokens, ih]
  | case5 token rest c optarg kind ih => simp [scan, kind, Step.tokens, ih]
  | case6 token c kind => simp [scan, kind, Step.tokens]
  | case7 token c kind optarg rest ih => simp [scan, kind, Step.tokens, ih]

/-- What the scan promises of its steps: an option has taken tokens, and `"--"` is not skipped. -/
def Step.Sound : Step → Prop
  | .option _ _ tokens => tokens ≠ []
  | .unknown token => token ≠ "--"
  | .terminator => True

theorem Step.Sound.tokens_ne_nil {step : Step} (h : step.Sound) : step.tokens ≠ [] := by
  cases step with
  | option c optarg tokens => exact h
  | unknown token => simp [Step.tokens]
  | terminator => simp [Step.tokens]

theorem sound_of_mem_scan (tokens : List String) : ∀ step ∈ (scan tokens).1, step.Sound := by
  induction tokens using scan.induct with
  | case1 => simp [scan]
  | case2 token rest kind => simp [scan, kind]
  | case3 token rest kind => simp [scan, kind, Step.Sound]
  | case4 token rest kind ih =>
    have htoken : token ≠ "--" := ne_of_classify_ne_terminator (by simp [kind])
    simpa [scan, kind, Step.Sound, htoken] using ih
  | case5 token rest c optarg kind ih => simpa [scan, kind, Step.Sound] using ih
  | case6 token c kind =>
    have htoken : token ≠ "--" := ne_of_classify_ne_terminator (by simp [kind])
    simpa [scan, kind, Step.Sound] using htoken
  | case7 token c kind optarg rest ih => simpa [scan, kind, Step.Sound] using ih

theorem sound_of_mem_scanned {argv : List String} {step : Step} (h : step ∈ scanned argv) :
    step.Sound := sound_of_mem_scan argv.tail step h

/-! ## The step that has taken a token -/

theorem stepAt_length_add (past : List Step) (step : Step) (later : List Step) {offset : ℕ}
    (h : offset < step.tokens.length) :
    stepAt (past ++ step :: later) ((past.flatMap Step.tokens).length + offset) = some step := by
  induction past with
  | nil => simp [stepAt, h]
  | cons head past ih =>
    have hhead : ¬ head.tokens.length + (past.flatMap Step.tokens).length + offset <
        head.tokens.length := by omega
    have hplace : head.tokens.length + (past.flatMap Step.tokens).length + offset -
        head.tokens.length = (past.flatMap Step.tokens).length + offset := by omega
    simp only [List.cons_append, List.flatMap_cons, List.length_append, stepAt]
    rw [if_neg hhead, hplace]
    exact ih

/-- A scanned token was taken by one of the steps. -/
theorem exists_stepAt {steps : List Step} {place : ℕ}
    (h : place < (steps.flatMap Step.tokens).length) :
    ∃ past step later offset, steps = past ++ step :: later ∧ offset < step.tokens.length ∧
      place = (past.flatMap Step.tokens).length + offset := by
  induction steps generalizing place with
  | nil => simp at h
  | cons head steps ih =>
    by_cases hhead : place < head.tokens.length
    · exact ⟨[], head, steps, place, rfl, hhead, by simp⟩
    · simp only [List.flatMap_cons, List.length_append] at h
      obtain ⟨past, step, later, offset, hsteps, hoffset, hplace⟩ :=
        @ih (place - head.tokens.length) (by omega)
      apply Exists.intro (head :: past)
      refine ⟨step, later, offset, by simp [hsteps], hoffset, ?_⟩
      simp only [List.flatMap_cons, List.length_append]
      omega

/-- The tokens of a step, by their indices in `argv`. -/
theorem getElem?_of_scanned {argv : List String} {past later : List Step} {step : Step} {offset : ℕ}
    (h : scanned argv = past ++ step :: later) (hoffset : offset < step.tokens.length) :
    argv[1 + ((past.flatMap Step.tokens).length + offset)]? = step.tokens[offset]? := by
  cases argv with
  | nil => simp [scanned, scan] at h
  | cons program tokens =>
    have htokens := scan_tokens tokens
    have hscan : (scan tokens).1 = past ++ step :: later := h
    rw [hscan] at htokens
    rw [add_comm 1, List.getElem?_cons_succ, ← htokens]
    simp only [List.flatMap_append, List.flatMap_cons, List.append_assoc]
    rw [List.getElem?_append_right (by omega), Nat.add_sub_cancel_left,
      List.getElem?_append_left hoffset]

theorem optind_of_scanned {argv : List String} (past : List Step) {later : List Step} {step : Step}
    (h : scanned argv = past ++ step :: later) :
    optind argv = 1 + ((past.flatMap Step.tokens).length + step.tokens.length +
      (later.flatMap Step.tokens).length) := by
  unfold optind
  rw [h]
  simp only [List.flatMap_append, List.flatMap_cons, List.length_append]
  omega

/-! ## When everything is handed on -/

theorem two_le_optind_iff (argv : List String) : 2 ≤ optind argv ↔ scanned argv ≠ [] := by
  constructor
  · intro h hscanned
    simp [optind, hscanned] at h
  · intro h
    obtain ⟨step, steps, hsteps⟩ := List.exists_cons_of_ne_nil h
    have hmem : step ∈ scanned argv := hsteps ▸ List.mem_cons_self
    have hsound := sound_of_mem_scanned hmem
    have hlength := List.length_pos_iff.mpr hsound.tokens_ne_nil
    rw [optind_of_scanned [] hsteps]
    omega

/-- A token that was scanned but not consumed is `"--"`, or the last one scanned. -/
theorem optind_le_succ {argv : List String} (h : SkipsLast (scanned argv)) {index : ℕ}
    {token : String} (hindex : argv[index]? = some token) (hone : 1 ≤ index)
    (hconsumed : ¬ Consumed argv index) (htoken : token ≠ "--") : optind argv ≤ index + 1 := by
  by_contra! hlt
  have hplace : index - 1 < ((scanned argv).flatMap Step.tokens).length := by
    unfold optind at hlt
    omega
  obtain ⟨past, step, later, offset, hscanned, hoffset, hat⟩ := exists_stepAt hplace
  have hstep : stepAt (scanned argv) (index - 1) = some step := by
    rw [hscanned, hat]
    exact stepAt_length_add past step later hoffset
  have hargv := getElem?_of_scanned hscanned hoffset
  rw [← hat, Nat.add_sub_cancel' hone, hindex] at hargv
  cases step with
  | option c optarg tokens => exact hconsumed ⟨c, optarg, tokens, hstep⟩
  | unknown skipped =>
    have hlater := h.last past skipped later hscanned
    have hoptind := optind_of_scanned past hscanned
    simp only [hlater, Step.tokens, List.length_singleton, List.flatMap_nil,
      List.length_nil] at hoptind
    omega
  | terminator =>
    apply htoken
    have hzero : offset = 0 := by simpa [Step.tokens] using hoffset
    simpa [hzero, Step.tokens] using hargv

theorem handsOn_of_skipsLast {argv : List String} (h : SkipsLast (scanned argv)) :
    HandsOn argv := by
  have htwo := (two_le_optind_iff argv).mpr h.scanned
  refine ⟨by simp only [window]; omega, fun index token hindex hone hconsumed htoken ↦ ?_⟩
  have hoptind := optind_le_succ h hindex hone hconsumed htoken
  have hlength := (List.getElem?_eq_some_iff.mp hindex).1
  apply Exists.intro (index + 2 - optind argv)
  simp only [window]
  omega

/-- A token that is skipped is handed on only if it is the last one scanned. -/
theorem HandsOn.later_eq_nil {argv : List String} (h : HandsOn argv) {past later : List Step}
    {token : String} (hscanned : scanned argv = past ++ .unknown token :: later) : later = [] := by
  have hsound (step : Step) (hstep : step ∈ past ++ .unknown token :: later) : step.Sound :=
    sound_of_mem_scanned (hscanned ▸ hstep)
  have hoffset : 0 < (Step.unknown token).tokens.length := by simp [Step.tokens]
  have hindex := getElem?_of_scanned hscanned hoffset
  have hconsumed : ¬ Consumed argv (1 + ((past.flatMap Step.tokens).length + 0)) := by
    rintro ⟨c, optarg, tokens, hstep⟩
    rw [Nat.add_sub_cancel_left, hscanned, stepAt_length_add past _ later hoffset] at hstep
    cases hstep
  obtain ⟨place, hone, -, hplace⟩ := h.kept _ token hindex (by omega) hconsumed
    (hsound (.unknown token) (by simp))
  have hoptind := optind_of_scanned past hscanned
  have hlater : (later.flatMap Step.tokens).length = 0 := by
    simp only [window, Step.tokens, List.length_singleton] at hplace hoptind
    omega
  apply List.eq_nil_iff_forall_not_mem.mpr
  intro step hstep
  apply (hsound step (by simp [hstep])).tokens_ne_nil
  rw [List.length_eq_zero_iff, List.flatMap_eq_nil_iff] at hlater
  exact hlater step hstep

theorem HandsOn.skipsLast {argv : List String} (h : HandsOn argv) : SkipsLast (scanned argv) := by
  have htwo : 2 ≤ optind argv := by
    have hstart := h.start
    simp only [window] at hstart
    omega
  exact ⟨(two_le_optind_iff argv).mp htwo, fun past token later hscanned ↦ h.later_eq_nil hscanned⟩

/-! ## Which command lines these are -/

theorem Listed.append {options more : List String} (h : Listed options) (hmore : Listed more) :
    Listed (options ++ more) := by
  induction h with
  | nil => exact hmore
  | attached kind _ ih => exact .attached kind ih
  | separate optarg kind _ ih => exact .separate optarg kind ih

theorem Separable.append {options tokens : List String} (h : Listed options)
    (htokens : Separable tokens) : Separable (options ++ tokens) := by
  cases htokens with
  | listed hmore hne hrest =>
    rw [← List.append_assoc]
    exact .listed (h.append hmore) (by simp [hne]) hrest
  | terminated rest hmore =>
    rw [← List.append_assoc]
    exact .terminated rest (h.append hmore)
  | skipped hmore kind hrest =>
    rw [← List.append_assoc]
    exact .skipped (h.append hmore) kind hrest
  | missing hmore kind =>
    rw [← List.append_assoc]
    exact .missing (h.append hmore) kind

theorem scan_eq_nil_iff (tokens : List String) : (scan tokens).1 = [] ↔ NoOption tokens := by
  induction tokens using scan.induct with
  | case1 => simp [scan, NoOption]
  | case2 token rest kind => simp [scan, kind, NoOption]
  | case3 token rest kind => simp [scan, kind, NoOption]
  | case4 token rest kind => simp [scan, kind, NoOption]
  | case5 token rest c optarg kind => simp [scan, kind, NoOption]
  | case6 token c kind => simp [scan, kind, NoOption]
  | case7 token c kind optarg rest => simp [scan, kind, NoOption]

/-- Listed options are read, and the scan goes on after them. -/
theorem scan_listed_append {options : List String} (h : Listed options) (rest : List String) :
    ∃ read, (scan (options ++ rest)).1 = read ++ (scan rest).1 ∧
      (∀ token, .unknown token ∉ read) ∧ (options ≠ [] → read ≠ []) := by
  induction h with
  | nil => exact ⟨[], by simp⟩
  | @attached token c optarg options kind _ ih =>
    obtain ⟨read, hread, hknown, -⟩ := ih
    exact ⟨.option c optarg [token] :: read, by simp [scan, kind, hread], by simp [hknown], by simp⟩
  | @separate token c options optarg kind _ ih =>
    obtain ⟨read, hread, hknown, -⟩ := ih
    exact ⟨.option c optarg [token, optarg] :: read, by simp [scan, kind, hread], by simp [hknown],
      by simp⟩

theorem skipsLast_of_known {steps : List Step} (h : steps ≠ [])
    (hknown : ∀ token, .unknown token ∉ steps) : SkipsLast steps where
  scanned := h
  last past token later hsteps := absurd (by simp [hsteps]) (hknown token)

theorem skipsLast_concat {read : List Step} (step : Step) (hknown : ∀ token, .unknown token ∉ read) :
    SkipsLast (read ++ [step]) where
  scanned := by simp
  last past token later hsteps := by
    rcases List.eq_nil_or_concat later with hlater | ⟨init, last, hlater⟩
    · exact hlater
    · rw [hlater, List.concat_eq_append, ← List.cons_append, ← List.append_assoc] at hsteps
      have hread := List.append_inj_left' hsteps rfl
      exact absurd (by simp [hread]) (hknown token)

theorem SkipsLast.of_cons {step : Step} {steps : List Step} (h : SkipsLast (step :: steps))
    (hsteps : steps ≠ []) : SkipsLast steps where
  scanned := hsteps
  last past token later heq := h.last (step :: past) token later (by simp [heq])

/-- A listed option in front changes nothing about what comes after it. -/
theorem separable_of_skipsLast_cons {options rest : List String} {step : Step}
    (hoptions : Listed options) (hne : options ≠ [])
    (ih : SkipsLast (scan rest).1 → Separable rest)
    (h : SkipsLast (step :: (scan rest).1)) : Separable (options ++ rest) := by
  by_cases hrest : (scan rest).1 = []
  · exact .listed hoptions hne ((scan_eq_nil_iff rest).mp hrest)
  · exact .append hoptions (ih (h.of_cons hrest))

theorem Separable.of_skipsLast (tokens : List String) (h : SkipsLast (scan tokens).1) :
    Separable tokens := by
  induction tokens using scan.induct with
  | case1 => exact absurd rfl h.scanned
  | case2 token rest kind => exact absurd (by simp [scan, kind]) h.scanned
  | case3 token rest kind =>
    rw [eq_of_classify_eq_terminator kind]
    exact .terminated rest .nil
  | case4 token rest kind =>
    have hrest := h.last [] token (scan rest).1 (by simp [scan, kind])
    exact .skipped .nil kind ((scan_eq_nil_iff rest).mp hrest)
  | case5 token rest c optarg kind ih =>
    have hsteps : SkipsLast (.option c optarg [token] :: (scan rest).1) := by
      simpa [scan, kind] using h
    exact separable_of_skipsLast_cons (.attached kind .nil) (by simp) ih hsteps
  | case6 token c kind => exact .missing .nil kind
  | case7 token c kind optarg rest ih =>
    have hsteps : SkipsLast (.option c optarg [token, optarg] :: (scan rest).1) := by
      simpa [scan, kind] using h
    exact separable_of_skipsLast_cons (.separate optarg kind .nil) (by simp) ih hsteps

theorem skipsLast_scan_append {options rest : List String} {step : Step} (h : Listed options)
    (hlast : (scan rest).1 = [step]) : SkipsLast (scan (options ++ rest)).1 := by
  obtain ⟨read, hread, hknown, -⟩ := scan_listed_append h rest
  rw [hread, hlast]
  exact skipsLast_concat step hknown

theorem Separable.skipsLast {tokens : List String} (h : Separable tokens) :
    SkipsLast (scan tokens).1 := by
  cases h with
  | @listed options rest hoptions hne hrest =>
    obtain ⟨read, hread, hknown, hread_ne⟩ := scan_listed_append hoptions rest
    rw [hread, (scan_eq_nil_iff rest).mpr hrest, List.append_nil]
    exact skipsLast_of_known (hread_ne hne) hknown
  | terminated rest hoptions =>
    have kind : classify "--" = .terminator := by decide
    have hlast : (scan ("--" :: rest)).1 = [.terminator] := by simp [scan, kind]
    exact skipsLast_scan_append hoptions hlast
  | @skipped options rest token hoptions kind hrest =>
    have hlast : (scan (token :: rest)).1 = [.unknown token] := by
      simp [scan, kind, (scan_eq_nil_iff rest).mpr hrest]
    exact skipsLast_scan_append hoptions hlast
  | @missing options token c hoptions kind =>
    have hlast : (scan [token]).1 = [.unknown token] := by simp [scan, kind]
    exact skipsLast_scan_append hoptions hlast

/-- Every token that is meant for the reader of the window reaches it exactly for the separable
command lines. -/
theorem handsOn_iff (argv : List String) : HandsOn argv ↔ Separable argv.tail := by
  constructor
  · intro h
    exact .of_skipsLast argv.tail h.skipsLast
  · intro h
    exact handsOn_of_skipsLast h.skipsLast

/-- Without arguments the window starts in front of `argv`. An option with an attached value that
is followed by a listed option is not in the window. -/
theorem window_loses_option :
    ¬ HandsOn ["two_way"] ∧ ¬ HandsOn ["two_way", "-i100", "--layer", "rmw"] := by
  constructor
  · intro h
    exact absurd h.start (by decide)
  · intro h
    have hstep : stepAt (scanned ["two_way", "-i100", "--layer", "rmw"]) 0 =
        some (.unknown "-i100") := by decide
    have hconsumed : ¬ Consumed ["two_way", "-i100", "--layer", "rmw"] 1 := by
      rintro ⟨c, optarg, tokens, hoption⟩
      rw [hstep] at hoption
      cases hoption
    have hstart : (window ["two_way", "-i100", "--layer", "rmw"]).start = 2 := by decide
    obtain ⟨place, hone, -, hplace⟩ := h.kept 1 "-i100" rfl (by decide) hconsumed (by decide)
    rw [hstart] at hplace
    omega

end LayerPingPong.TwoWay
