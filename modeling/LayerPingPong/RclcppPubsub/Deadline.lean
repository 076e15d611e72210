import LayerPingPong.RclcppPubsub.Waiting

/-!
# The deadline of the rclcpp subscriber

Each turn of the loop gives the executor the whole timeout again. Work other than `sub_callback`
that becomes ready before the deadline therefore starts a wait beyond it. Here no message arrives,
and the executor returns at the first wake-up or when the timeout it was given has passed.
-/

namespace LayerPingPong.RclcppPubsub

variable {Message : Type}

/-- The timeout in nanoseconds. -/
def budget (timeout : Int64) : ℕ := timeout.toInt.toNat

theorem budget_cast {timeout : Int64} (h : 0 ≤ timeout) : (budget timeout : ℤ) = timeout.toInt :=
  Int.toNat_of_nonneg (Int64.le_iff_toInt_le.mp h)

/-- When a wait that starts at `time` with this budget ends, and the wake-ups that are still to come
then. -/
def idleWait (given : Int64) (time : ℕ) : List ℕ → ℕ × List ℕ
  | [] => (time + budget given, [])
  | wakeUp :: wakeUps =>
    if wakeUp ≤ time + budget given then (max time wakeUp, wakeUps)
    else (time + budget given, wakeUp :: wakeUps)

/-- Each call of the executor waits for as long as the budget it is given allows, and the clock is
read when it returns. -/
def Answered (ok : ℕ → Bool) : ℕ → List ℕ → List (Action Message) → Prop
  | _, _, [] => True
  | time, wakeUps, .ok value :: actions => value = ok time ∧ Answered ok time wakeUps actions
  | time, wakeUps, .execute given :: .clock now :: actions =>
    now = (idleWait given time wakeUps).1 ∧ Answered ok now (idleWait given time wakeUps).2 actions
  | _, _, _ => False

/-- A run from `time` on that no message reaches. -/
structure Idle (ok : ℕ → Bool) (time : ℕ) (wakeUps : List ℕ) (run : Run Message) : Prop where
  returned : run.returned = true
  answered : Answered ok time wakeUps run.actions

/-- The turns of an idle loop at `time`, if it gives the executor the whole timeout. -/
def idleTurns (ok : ℕ → Bool) (timeout : Int64) : ℕ → List ℕ → List (Turn Message)
  | time, [] => [⟨ok time, .nothing, time + budget timeout⟩]
  | time, wakeUp :: wakeUps =>
    if wakeUp ≤ time + budget timeout then
      ⟨ok time, .unrelated, max time wakeUp⟩ :: idleTurns ok timeout (max time wakeUp) wakeUps
    else [⟨ok time, .nothing, time + budget timeout⟩]

def Action.reading : Action Message → Option ℕ
  | .clock now => some now
  | _ => none

/-- The last reading of the clock. -/
def returnTime (time : ℕ) (actions : List (Action Message)) : ℕ :=
  (actions.filterMap Action.reading).getLastD time

/-- The calls of the executor, each with the time it is made at. -/
def executorCalls : ℕ → List (Action Message) → List (ℕ × Int64)
  | _, [] => []
  | time, .execute given :: actions => (time, given) :: executorCalls time actions
  | _, .clock now :: actions => executorCalls now actions
  | time, .ok _ :: actions | time, .callback _ _ :: actions => executorCalls time actions

/-- The function returns at the deadline at the latest. -/
def OnTime (base : ℕ) (timeout : Int64) (run : Run Message) : Prop :=
  run.returned = true ∧ (returnTime base run.actions : ℤ) ≤ base + timeout.toInt

/-- No call of the executor is given more than the time left to the deadline. -/
def WithinBudget (base : ℕ) (timeout : Int64) (run : Run Message) : Prop :=
  ∀ call ∈ executorCalls base run.actions, call.2.toInt ≤ base + timeout.toInt - call.1

/-! ## The run of an idle loop -/

/-- The times of the executor calls and of the return. -/
def idleRun (ok : ℕ → Bool) (base : ℕ) (timeout : Int64) : ℕ → List ℕ → List ℕ × ℕ
  | time, [] => if ok time then ([time], time + budget timeout) else ([], time)
  | time, wakeUp :: wakeUps =>
    if ok time then
      if wakeUp ≤ time + budget timeout then
        if base + budget timeout ≤ max time wakeUp then ([time], max time wakeUp)
        else
          let rest := idleRun ok base timeout (max time wakeUp) wakeUps
          (time :: rest.1, rest.2)
      else ([time], time + budget timeout)
    else ([], time)

theorem idleRun_of_not_ok {ok : ℕ → Bool} {time : ℕ} (base : ℕ) (timeout : Int64)
    (hok : ¬ ok time = true) (wakeUps : List ℕ) :
    idleRun ok base timeout time wakeUps = ([], time) := by
  cases wakeUps with
  | nil | cons wakeUp wakeUps => rw [idleRun, if_neg hok]

/-- A wait that ends before the timeout has passed is followed by another one. -/
theorem idleRun_of_ok {ok : ℕ → Bool} {base time : ℕ} (timeout : Int64) (hok : ok time = true)
    (hle : base ≤ time) (wakeUps : List ℕ) :
    let wait := idleWait timeout time wakeUps
    let rest := idleRun ok base timeout wait.1 wait.2
    idleRun ok base timeout time wakeUps =
      if base + budget timeout ≤ wait.1 then ([time], wait.1) else (time :: rest.1, rest.2) := by
  have hwhole : base + budget timeout ≤ time + budget timeout := Nat.add_le_add_right hle _
  cases wakeUps with
  | nil =>
    rw [idleRun, if_pos hok]
    exact (if_pos hwhole).symm
  | cons wakeUp wakeUps =>
    rw [idleRun, if_pos hok, idleWait]
    by_cases hready : wakeUp ≤ time + budget timeout
    · rw [if_pos hready, if_pos hready]
    · rw [if_neg hready, if_neg hready]
      exact (if_pos hwhole).symm

theorem le_idleWait (given : Int64) (time : ℕ) (wakeUps : List ℕ) :
    time ≤ (idleWait given time wakeUps).1 := by
  cases wakeUps with
  | nil => exact Nat.le_add_right _ _
  | cons wakeUp wakeUps =>
    rw [idleWait]
    split
    · exact le_max_left _ _
    · exact Nat.le_add_right _ _

/-- A turn without a callback, in which the executor has used the budget that the turn gives it. -/
theorem answered_turn_iff {ok : ℕ → Bool} {timeout : Int64} {time : ℕ} {wakeUps : List ℕ}
    {turn : Turn Message} {actions : List (Action Message)} :
    Answered ok time wakeUps (turn.actions timeout ++ actions) ↔
      ok time = true ∧ turn.work.actions = [] ∧ turn.now = (idleWait timeout time wakeUps).1 ∧
        Answered ok turn.now (idleWait timeout time wakeUps).2 actions := by
  rw [Turn.actions, List.cons_append, List.cons_append, Answered, eq_comm]
  apply and_congr_right
  intro _
  cases turn.work with
  | message data finished =>
    constructor
    · intro h
      cases h
    · rintro ⟨h, -⟩
      cases h
  | unrelated | nothing => exact (and_iff_right rfl).symm

theorem next_of_actions_eq_nil {work : Work Message} (h : work.actions = []) (state : State) :
    work.next state = state := by
  cases work with
  | message data finished => cases h
  | unrelated | nothing => rfl

/-- What the trace of an idle loop shows. -/
structure Shows (timeout : Int64) (time : ℕ) (run : Run Message) (times : List ℕ × ℕ) : Prop where
  returned : run.returned = true
  calls : executorCalls time run.actions = times.1.map fun call ↦ (call, timeout)
  returnTime : returnTime time run.actions = times.2

theorem Shows.onTime_iff {timeout : Int64} (h : 0 ≤ timeout) {base : ℕ} {run : Run Message}
    {times : List ℕ × ℕ} (hshows : Shows timeout base run times) :
    OnTime base timeout run ↔ times.2 ≤ base + budget timeout := by
  have hbudget := budget_cast h
  rw [OnTime, hshows.returnTime]
  constructor
  · rintro ⟨-, hle⟩
    omega
  · intro hle
    exact ⟨hshows.returned, by omega⟩

theorem Shows.withinBudget_iff {timeout : Int64} {base : ℕ} {run : Run Message}
    {times : List ℕ × ℕ} (hshows : Shows timeout base run times) :
    WithinBudget base timeout run ↔ ∀ call ∈ times.1, call ≤ base := by
  rw [WithinBudget, hshows.calls, List.forall_mem_map]
  apply forall₂_congr
  intro call _
  dsimp only
  omega

theorem Shows.stop {timeout : Int64} {time : ℕ} {state : State} {value : Bool} :
    Shows timeout time (⟨[.ok value], true, state⟩ : Run Message) ([], time) :=
  ⟨rfl, rfl, rfl⟩

theorem Shows.timeout {timeout : Int64} {time : ℕ} {state : State} {turn : Turn Message}
    (hidle : turn.work.actions = []) :
    Shows timeout time ⟨turn.actions timeout, true, state⟩ ([time], turn.now) := by
  rw [Turn.actions, hidle]
  exact ⟨rfl, rfl, rfl⟩

theorem Shows.continue {timeout : Int64} {time : ℕ} {turn : Turn Message} {run : Run Message}
    {times : List ℕ × ℕ} (hidle : turn.work.actions = []) (h : Shows timeout turn.now run times) :
    Shows timeout time { run with actions := turn.actions timeout ++ run.actions }
      (time :: times.1, times.2) := by
  rw [Turn.actions, hidle]
  refine ⟨h.returned, ?_, ?_⟩
  · change (time, timeout) :: executorCalls turn.now run.actions = _
    rw [h.calls, List.map_cons]
  · change (turn.now :: run.actions.filterMap Action.reading).getLastD time = _
    rw [List.getLastD_cons, ← h.returnTime]
    rfl

section Loop

variable {elapsedNs : ℕ → ℕ → UInt64} {timeout : Int64} (h : 0 ≤ timeout) {base : ℕ}
  {since : State → ℕ} {continues : State → Bool} {state : State} (hsince : since state = base)
  (hcontinues : continues state = true)

include h hsince

/-- The test at the end of a turn without a callback. -/
theorem timeout_le_elapsed_idle {turn : Turn Message} {turns : List (Turn Message)}
    (hidle : turn.work.actions = []) (hle : base ≤ turn.now)
    (hexact : ElapsedExact elapsedNs (readings base (turn :: turns))) :
    timeout.toUInt64 ≤ elapsedNs (since (turn.work.next state)) turn.now ↔
      base + budget timeout ≤ turn.now := by
  have hbudget := budget_cast h
  have hdifference := hexact base List.mem_cons_self turn.now (by simp [readings, Turn.readings]) hle
  rw [next_of_actions_eq_nil hidle, hsince, timeout_le_elapsed_iff h hle hdifference]
  omega

include hcontinues

/-- The loop on an idle executor, for either function. -/
theorem loop_shows {ok : ℕ → Bool} {time : ℕ} {wakeUps : List ℕ} {turns : List (Turn Message)}
    (hle : base ≤ time) (hexact : ElapsedExact elapsedNs (readings base turns))
    (hidle : Idle ok time wakeUps (loop elapsedNs since continues timeout state turns)) :
    Shows timeout time (loop elapsedNs since continues timeout state turns)
      (idleRun ok base timeout time wakeUps) := by
  induction turns generalizing time wakeUps with
  | nil => cases hidle.returned
  | cons turn turns ih =>
    by_cases hok : turn.ok = true
    · have hcontinue : (turn.ok && continues state) = true := by rw [hok, hcontinues]; rfl
      by_cases htimeout :
          timeout.toUInt64 ≤ elapsedNs (since (turn.work.next state)) turn.now
      · rw [loop_of_timeout hcontinue htimeout] at hidle ⊢
        have hanswered := hidle.answered
        rw [← List.append_nil (turn.actions timeout)] at hanswered
        obtain ⟨hup, hnone, hnow, -⟩ := answered_turn_iff.mp hanswered
        have hlater : base ≤ turn.now := hnow ▸ hle.trans (le_idleWait timeout time wakeUps)
        have hpassed := (timeout_le_elapsed_idle h hsince hnone hlater hexact).mp htimeout
        rw [idleRun_of_ok timeout hup hle, ← hnow, if_pos hpassed]
        exact Shows.timeout hnone
      · rw [loop_of_continue hcontinue htimeout] at hidle ⊢
        obtain ⟨hreturned, hanswered⟩ := hidle
        obtain ⟨hup, hnone, hnow, hrest⟩ := answered_turn_iff.mp hanswered
        rw [next_of_actions_eq_nil hnone] at hreturned hrest ⊢
        have hlater : base ≤ turn.now := hnow ▸ hle.trans (le_idleWait timeout time wakeUps)
        have hpassed := mt (timeout_le_elapsed_idle h hsince hnone hlater hexact).mpr htimeout
        have hexact' := hexact.mono (readings_tail_sublist base turn turns).subset
        rw [idleRun_of_ok timeout hup hle, ← hnow, if_neg hpassed]
        exact (ih hlater hexact' ⟨hreturned, hrest⟩).continue hnone
    · have hstop : ¬ (turn.ok && continues state) = true := by simp [hok]
      rw [loop_of_stop hstop] at hidle ⊢
      have hdown : ¬ ok time = true := by
        rw [← hidle.answered.1]
        exact hok
      rw [idleRun_of_not_ok base timeout hdown]
      exact Shows.stop

/-- A turn in which the executor answers by the budget it is given. -/
theorem loop_idle_turn {ok : ℕ → Bool} {time : ℕ} {wakeUps : List ℕ} {turn : Turn Message}
    {turns : List (Turn Message)} (hle : base ≤ time)
    (hexact : ElapsedExact elapsedNs (readings base (turn :: turns))) (hok : turn.ok = ok time)
    (hnone : turn.work.actions = []) (hnow : turn.now = (idleWait timeout time wakeUps).1)
    (hrest : turn.now < base + budget timeout →
      Idle ok turn.now (idleWait timeout time wakeUps).2
        (loop elapsedNs since continues timeout state turns)) :
    Idle ok time wakeUps (loop elapsedNs since continues timeout state (turn :: turns)) := by
  have hlater : base ≤ turn.now := hnow ▸ hle.trans (le_idleWait timeout time wakeUps)
  have htest := timeout_le_elapsed_idle h hsince hnone hlater hexact
  by_cases hup : ok time = true
  · have hcontinue : (turn.ok && continues state) = true := by rw [hok, hup, hcontinues]; rfl
    by_cases hpassed : base + budget timeout ≤ turn.now
    · rw [loop_of_timeout hcontinue (htest.mpr hpassed), ← List.append_nil (turn.actions timeout)]
      exact ⟨rfl, answered_turn_iff.mpr ⟨hup, hnone, hnow, trivial⟩⟩
    · have hidle := hrest (not_le.mp hpassed)
      rw [loop_of_continue hcontinue (mt htest.mp hpassed), next_of_actions_eq_nil hnone]
      exact ⟨hidle.returned, answered_turn_iff.mpr ⟨hup, hnone, hnow, hidle.answered⟩⟩
  · rw [loop_of_stop (by simp [hok, hup])]
    exact ⟨rfl, hok, trivial⟩

/-- The turns above are those of an idle executor, for either function. -/
theorem loop_idleTurns (ok : ℕ → Bool) {time : ℕ} {wakeUps : List ℕ} (hle : base ≤ time)
    (hexact : ElapsedExact elapsedNs
      (readings base (idleTurns ok timeout time wakeUps : List (Turn Message)))) :
    Idle ok time wakeUps (loop elapsedNs since continues timeout state
      (idleTurns ok timeout time wakeUps : List (Turn Message))) := by
  induction wakeUps generalizing time with
  | nil =>
    apply loop_idle_turn h hsince hcontinues hle hexact rfl rfl rfl
    exact fun hlt ↦ absurd hlt (not_lt.mpr (Nat.add_le_add_right hle _))
  | cons wakeUp wakeUps ih =>
    rw [idleTurns] at hexact ⊢
    by_cases hready : wakeUp ≤ time + budget timeout
    · rw [if_pos hready] at hexact ⊢
      have hwait : idleWait timeout time (wakeUp :: wakeUps) = (max time wakeUp, wakeUps) :=
        if_pos hready
      have hexact' := hexact.mono (readings_tail_sublist base _ _).subset
      apply loop_idle_turn h hsince hcontinues hle hexact rfl rfl (by rw [hwait])
      intro _
      rw [hwait]
      exact ih (hle.trans (le_max_left _ _)) hexact'
    · rw [if_neg hready] at hexact ⊢
      have hwait : idleWait timeout time (wakeUp :: wakeUps) =
          (time + budget timeout, wakeUp :: wakeUps) := if_neg hready
      apply loop_idle_turn h hsince hcontinues hle hexact rfl rfl (by rw [hwait])
      exact fun hlt ↦ absurd hlt (not_lt.mpr (Nat.add_le_add_right hle _))

end Loop

/-! ## When the idle loop keeps its deadline -/

/-- Strictly between the start of the timeout and the deadline. -/
def Inside (base : ℕ) (timeout : Int64) (time : ℕ) : Prop :=
  base < time ∧ time < base + budget timeout

/-- A wake-up before the deadline does no harm if another one is at the deadline, or if `rclcpp::ok`
is false at the start or at a wake-up before the deadline. -/
def ReturnsInTime (ok : ℕ → Bool) (base : ℕ) (timeout : Int64) (wakeUps : List ℕ) : Prop :=
  (∃ wakeUp ∈ wakeUps, Inside base timeout wakeUp) →
    ok base = false ∨ base + budget timeout ∈ wakeUps ∨
      ∃ wakeUp ∈ wakeUps, Inside base timeout wakeUp ∧ ok wakeUp = false

/-- No wake-up is before the deadline while `rclcpp::ok` holds. -/
def Undisturbed (ok : ℕ → Bool) (base : ℕ) (timeout : Int64) (wakeUps : List ℕ) : Prop :=
  ok base = true → ∀ wakeUp ∈ wakeUps, Inside base timeout wakeUp →
    ∃ first ∈ wakeUps, Inside base timeout first ∧ first ≤ wakeUp ∧ ok first = false

section Idle

variable {ok : ℕ → Bool} {base : ℕ} {timeout : Int64}

/-- The loop is at `time`, which is the start or a wake-up that came before the deadline. -/
structure AtHead (base : ℕ) (timeout : Int64) (time : ℕ) (wakeUps : List ℕ) : Prop where
  le : base ≤ time
  before : base < time → time < base + budget timeout
  sorted : wakeUps.Pairwise (· ≤ ·)
  pending : base < time → ∀ wakeUp ∈ wakeUps, time ≤ wakeUp

theorem atHead_start {wakeUps : List ℕ} (hsorted : wakeUps.Pairwise (· ≤ ·)) :
    AtHead base timeout base wakeUps where
  le := le_rfl
  before h := absurd h (lt_irrefl base)
  sorted := hsorted
  pending h := absurd h (lt_irrefl base)

theorem AtHead.ge_head {time wakeUp : ℕ} {wakeUps : List ℕ}
    (h : AtHead base timeout time (wakeUp :: wakeUps)) :
    ∀ later ∈ wakeUp :: wakeUps, wakeUp ≤ later :=
  List.forall_mem_cons.mpr ⟨le_rfl, fun _ hlater ↦ List.rel_of_pairwise_cons h.sorted hlater⟩

/-- The next turn, if the timeout has not passed. -/
theorem AtHead.next {time wakeUp : ℕ} {wakeUps : List ℕ}
    (h : AtHead base timeout time (wakeUp :: wakeUps))
    (hbefore : ¬ base + budget timeout ≤ max time wakeUp) :
    AtHead base timeout (max time wakeUp) wakeUps where
  le := h.le.trans (le_max_left _ _)
  before _ := not_le.mp hbefore
  sorted := (List.pairwise_cons.mp h.sorted).2
  pending hlt later hlater := by
    have hhead := h.ge_head later (List.mem_cons_of_mem _ hlater)
    rcases h.le.eq_or_lt with heq | htime
    · omega
    · exact max_le (h.pending htime later (List.mem_cons_of_mem _ hlater)) hhead

/-- If the timeout has not passed at the next turn, `rclcpp::ok` is false there exactly if it is at
a wake-up that counts. -/
theorem AtHead.ok_next_iff {time wakeUp : ℕ} {wakeUps : List ℕ}
    (h : AtHead base timeout time (wakeUp :: wakeUps)) (hok : ok time = true)
    (hbefore : ¬ base + budget timeout ≤ max time wakeUp) :
    ok (max time wakeUp) = false ↔ Inside base timeout wakeUp ∧ ok wakeUp = false := by
  have hle := h.le
  rcases le_or_gt wakeUp time with hearly | hlate
  · rw [max_eq_left hearly, hok]
    constructor
    · intro hfalse
      cases hfalse
    · rintro ⟨hinside, hfalse⟩
      have heq : wakeUp = time :=
        le_antisymm hearly (h.pending (hinside.1.trans_le hearly) wakeUp List.mem_cons_self)
      rw [heq, hok] at hfalse
      exact hfalse
  · rw [max_eq_right hlate.le] at hbefore ⊢
    exact ⟨fun hfalse ↦ ⟨⟨by omega, by omega⟩, hfalse⟩, fun hboth ↦ hboth.2⟩

theorem AtHead.le_deadline {time : ℕ} {wakeUps : List ℕ} (h : AtHead base timeout time wakeUps) :
    time ≤ base + budget timeout := by
  rcases h.le.eq_or_lt with heq | hlt
  · omega
  · exact (h.before hlt).le

theorem AtHead.not_inside {time wakeUp : ℕ} {wakeUps : List ℕ}
    (h : AtHead base timeout time (wakeUp :: wakeUps)) (hge : base + budget timeout ≤ wakeUp) :
    ∀ later ∈ wakeUp :: wakeUps, ¬ Inside base timeout later := by
  intro later hlater hinside
  exact absurd (hge.trans (h.ge_head later hlater)) (not_le.mpr hinside.2)

/-- What `ReturnsInTime` says of the loop at `time`. -/
def ReturnsInTimeFrom (ok : ℕ → Bool) (base : ℕ) (timeout : Int64) (time : ℕ) (wakeUps : List ℕ) :
    Prop :=
  (base < time ∨ ∃ wakeUp ∈ wakeUps, Inside base timeout wakeUp) →
    ok time = false ∨ base + budget timeout ∈ wakeUps ∨
      ∃ wakeUp ∈ wakeUps, Inside base timeout wakeUp ∧ ok wakeUp = false

/-- A wake-up that ends the loop does so in time only if it is at the deadline. -/
theorem AtHead.returnsInTime_passed {time wakeUp : ℕ} {wakeUps : List ℕ}
    (h : AtHead base timeout time (wakeUp :: wakeUps)) (hok : ok time = true)
    (hready : wakeUp ≤ time + budget timeout) (hpassed : base + budget timeout ≤ max time wakeUp) :
    max time wakeUp ≤ base + budget timeout ↔
      ReturnsInTimeFrom ok base timeout time (wakeUp :: wakeUps) := by
  have hbefore := h.before
  constructor
  · intro hontime hdisturbed
    by_cases hdeadline : base + budget timeout ≤ wakeUp
    · right
      left
      rw [show base + budget timeout = wakeUp by omega]
      exact List.mem_cons_self
    · rcases hdisturbed with hlt | ⟨later, -, hafter, hearly⟩
      · have htime := hbefore hlt
        omega
      · omega
  · intro hintime
    apply max_le h.le_deadline
    rcases h.le.eq_or_lt with heq | hlt
    · omega
    · rcases hintime (.inl hlt) with hfalse | hdeadline | ⟨later, hlater, hinside, -⟩
      · rw [hok] at hfalse
        cases hfalse
      · exact h.ge_head _ hdeadline
      · exact (h.ge_head later hlater).trans hinside.2.le

/-- If nothing wakes the loop before its wait is over, the wait has to start with the timeout. -/
theorem AtHead.returnsInTime_idle {time wakeUp : ℕ} {wakeUps : List ℕ}
    (h : AtHead base timeout time (wakeUp :: wakeUps)) (hok : ok time = true)
    (hready : ¬ wakeUp ≤ time + budget timeout) :
    time + budget timeout ≤ base + budget timeout ↔
      ReturnsInTimeFrom ok base timeout time (wakeUp :: wakeUps) := by
  have hle := h.le
  have hnone := h.not_inside (by omega)
  constructor
  · intro hontime hdisturbed
    rcases hdisturbed with hlt | ⟨later, hlater, hinside⟩
    · omega
    · exact absurd hinside (hnone later hlater)
  · intro hintime
    by_contra hlate
    rcases hintime (.inl (by omega)) with hfalse | hdeadline | ⟨later, hlater, hinside, -⟩
    · rw [hok] at hfalse
      cases hfalse
    · have hhead := h.ge_head _ hdeadline
      omega
    · exact hnone later hlater hinside

/-- A wake-up before the deadline leaves the condition to the next turn. -/
theorem AtHead.returnsInTime_next {time wakeUp : ℕ} {wakeUps : List ℕ}
    (h : AtHead base timeout time (wakeUp :: wakeUps)) (hok : ok time = true)
    (hbefore : ¬ base + budget timeout ≤ max time wakeUp) :
    ReturnsInTimeFrom ok base timeout (max time wakeUp) wakeUps ↔
      ReturnsInTimeFrom ok base timeout time (wakeUp :: wakeUps) := by
  have hle := h.le
  have hpremise : (base < max time wakeUp ∨ ∃ later ∈ wakeUps, Inside base timeout later) ↔
      (base < time ∨ ∃ later ∈ wakeUp :: wakeUps, Inside base timeout later) := by
    rw [List.exists_mem_cons_iff, Inside, ← or_assoc]
    apply or_congr_left
    omega
  have hdeadline : base + budget timeout ∈ wakeUp :: wakeUps ↔
      base + budget timeout ∈ wakeUps := by
    rw [List.mem_cons]
    apply or_iff_right
    omega
  unfold ReturnsInTimeFrom
  rw [hpremise, hdeadline, h.ok_next_iff hok hbefore, hok]
  apply imp_congr_right
  intro _
  rw [List.exists_mem_cons_iff, or_iff_right (by decide : ¬ true = false)]
  exact or_left_comm

theorem returnsInTimeFrom_of_stopped {time : ℕ} (wakeUps : List ℕ) (hok : ¬ ok time = true) :
    ReturnsInTimeFrom ok base timeout time wakeUps := fun _ ↦ .inl (by simpa using hok)

theorem idleRun_returnTime_iff {time : ℕ} {wakeUps : List ℕ}
    (h : AtHead base timeout time wakeUps) :
    (idleRun ok base timeout time wakeUps).2 ≤ base + budget timeout ↔
      ReturnsInTimeFrom ok base timeout time wakeUps := by
  induction wakeUps generalizing time with
  | nil =>
    by_cases hok : ok time = true
    · rw [idleRun, if_pos hok]
      simp [ReturnsInTimeFrom, hok]
    · rw [idleRun_of_not_ok base timeout hok]
      exact iff_of_true h.le_deadline (returnsInTimeFrom_of_stopped _ hok)
  | cons wakeUp wakeUps ih =>
    by_cases hok : ok time = true
    · rw [idleRun, if_pos hok]
      by_cases hready : wakeUp ≤ time + budget timeout
      · rw [if_pos hready]
        by_cases hpassed : base + budget timeout ≤ max time wakeUp
        · rw [if_pos hpassed]
          exact h.returnsInTime_passed hok hready hpassed
        · rw [if_neg hpassed]
          exact (ih (h.next hpassed)).trans (h.returnsInTime_next hok hpassed)
      · rw [if_neg hready]
        exact h.returnsInTime_idle hok hready
    · rw [idleRun_of_not_ok base timeout hok]
      exact iff_of_true h.le_deadline (returnsInTimeFrom_of_stopped _ hok)

/-- What `Undisturbed` says of the loop at `time`. -/
structure UndisturbedFrom (ok : ℕ → Bool) (base : ℕ) (timeout : Int64) (time : ℕ)
    (wakeUps : List ℕ) : Prop where
  stopped : base < time → ok time = false
  rest : ok time = true → ∀ wakeUp ∈ wakeUps, Inside base timeout wakeUp →
    ∃ first ∈ wakeUps, Inside base timeout first ∧ first ≤ wakeUp ∧ ok first = false

theorem UndisturbedFrom.time_le {time : ℕ} {wakeUps : List ℕ}
    (h : UndisturbedFrom ok base timeout time wakeUps) (hok : ok time = true) : time ≤ base := by
  by_contra hlt
  have hfalse := h.stopped (not_le.mp hlt)
  rw [hok] at hfalse
  cases hfalse

/-- The last call of the executor: nothing wakes it before the deadline. -/
theorem AtHead.undisturbed_last {time wakeUp : ℕ} {wakeUps : List ℕ}
    (h : AtHead base timeout time (wakeUp :: wakeUps)) (hok : ok time = true)
    (hlast : wakeUp ≤ time + budget timeout → base + budget timeout ≤ max time wakeUp) :
    (∀ call ∈ [time], call ≤ base) ↔
      UndisturbedFrom ok base timeout time (wakeUp :: wakeUps) := by
  rw [List.forall_mem_singleton]
  constructor
  · intro htime
    refine ⟨fun hlt ↦ absurd htime (not_le.mpr hlt), fun _ later hlater hinside ↦ ?_⟩
    obtain ⟨hafter, hbefore⟩ := hinside
    have hle := h.le
    have hhead := h.ge_head later hlater
    omega
  · intro hundisturbed
    exact hundisturbed.time_le hok

/-- A call at the start of the timeout leaves the condition to the next turn. -/
theorem AtHead.undisturbed_next {time wakeUp : ℕ} {wakeUps : List ℕ}
    (h : AtHead base timeout time (wakeUp :: wakeUps)) (hok : ok time = true)
    (hbefore : ¬ base + budget timeout ≤ max time wakeUp) :
    (time ≤ base ∧ UndisturbedFrom ok base timeout (max time wakeUp) wakeUps) ↔
      UndisturbedFrom ok base timeout time (wakeUp :: wakeUps) := by
  have hle := h.le
  have hnext := h.ok_next_iff hok hbefore
  constructor
  · rintro ⟨htime, hrest⟩
    refine ⟨fun hlt ↦ absurd htime (not_le.mpr hlt), fun _ later hlater hinside ↦ ?_⟩
    by_cases hup : ok (max time wakeUp) = true
    · have hnow := hrest.time_le hup
      have hmem : later ∈ wakeUps := by
        refine (List.mem_cons.mp hlater).resolve_left fun heq ↦ ?_
        have hafter := hinside.1
        omega
      obtain ⟨first, hfirst, hprops⟩ := hrest.rest hup later hmem hinside
      exact ⟨first, List.mem_cons_of_mem _ hfirst, hprops⟩
    · obtain ⟨hwake, hdown⟩ := hnext.mp (by simpa using hup)
      exact ⟨wakeUp, List.mem_cons_self, hwake, h.ge_head later hlater, hdown⟩
  · intro hundisturbed
    have htime := hundisturbed.time_le hok
    refine ⟨htime, fun hlt ↦ hnext.mpr ?_, fun hup later hlater hinside ↦ ?_⟩
    · have hwake : Inside base timeout wakeUp := ⟨by omega, by omega⟩
      obtain ⟨first, hfirst, -, hearlier, hdown⟩ :=
        hundisturbed.rest hok wakeUp List.mem_cons_self hwake
      rw [le_antisymm hearlier (h.ge_head first hfirst)] at hdown
      exact ⟨hwake, hdown⟩
    · obtain ⟨first, hfirst, hwake, hearlier, hdown⟩ :=
        hundisturbed.rest hok later (List.mem_cons_of_mem _ hlater) hinside
      rcases List.mem_cons.mp hfirst with rfl | hfirst
      · rw [hnext.mpr ⟨hwake, hdown⟩] at hup
        cases hup
      · exact ⟨first, hfirst, hwake, hearlier, hdown⟩

theorem undisturbedFrom_of_stopped {time : ℕ} (wakeUps : List ℕ) (hok : ¬ ok time = true) :
    UndisturbedFrom ok base timeout time wakeUps :=
  ⟨fun _ ↦ by simpa using hok, fun hup ↦ absurd hup hok⟩

/-- A call beyond the budget is one that follows a wake-up. -/
theorem idleRun_calls_iff {time : ℕ} {wakeUps : List ℕ} (h : AtHead base timeout time wakeUps) :
    (∀ call ∈ (idleRun ok base timeout time wakeUps).1, call ≤ base) ↔
      UndisturbedFrom ok base timeout time wakeUps := by
  induction wakeUps generalizing time with
  | nil =>
    by_cases hok : ok time = true
    · rw [idleRun, if_pos hok, List.forall_mem_singleton]
      constructor
      · intro htime
        exact ⟨fun hlt ↦ absurd htime (not_le.mpr hlt), nofun⟩
      · intro hundisturbed
        exact hundisturbed.time_le hok
    · rw [idleRun_of_not_ok base timeout hok]
      exact iff_of_true nofun (undisturbedFrom_of_stopped _ hok)
  | cons wakeUp wakeUps ih =>
    by_cases hok : ok time = true
    · rw [idleRun, if_pos hok]
      by_cases hready : wakeUp ≤ time + budget timeout
      · rw [if_pos hready]
        by_cases hpassed : base + budget timeout ≤ max time wakeUp
        · rw [if_pos hpassed]
          exact h.undisturbed_last hok fun _ ↦ hpassed
        · rw [if_neg hpassed, List.forall_mem_cons, ih (h.next hpassed)]
          exact h.undisturbed_next hok hpassed
      · rw [if_neg hready]
        exact h.undisturbed_last hok fun hwake ↦ absurd hwake hready
    · rw [idleRun_of_not_ok base timeout hok]
      exact iff_of_true nofun (undisturbedFrom_of_stopped _ hok)

theorem idleRun_returnsInTime_iff {wakeUps : List ℕ} (hsorted : wakeUps.Pairwise (· ≤ ·)) :
    (idleRun ok base timeout base wakeUps).2 ≤ base + budget timeout ↔
      ReturnsInTime ok base timeout wakeUps := by
  rw [idleRun_returnTime_iff (atHead_start hsorted), ReturnsInTimeFrom,
    or_iff_right (lt_irrefl base)]
  rfl

theorem idleRun_undisturbed_iff {wakeUps : List ℕ} (hsorted : wakeUps.Pairwise (· ≤ ·)) :
    (∀ call ∈ (idleRun ok base timeout base wakeUps).1, call ≤ base) ↔
      Undisturbed ok base timeout wakeUps := by
  rw [idleRun_calls_iff (atHead_start hsorted)]
  constructor
  · intro h
    exact h.rest
  · intro h
    exact ⟨fun hlt ↦ absurd hlt (lt_irrefl base), h⟩

end Idle

/-! ## Both functions -/

theorem loop_append {elapsedNs : ℕ → ℕ → UInt64} {since : State → ℕ} {continues : State → Bool}
    {timeout : Int64} {state : State} {past turns : List (Turn Message)}
    (hrunning : (loop elapsedNs since continues timeout state past).returned = false) :
    loop elapsedNs since continues timeout state (past ++ turns) =
      { loop elapsedNs since continues timeout
          (loop elapsedNs since continues timeout state past).state turns with
        actions := (loop elapsedNs since continues timeout state past).actions ++
          (loop elapsedNs since continues timeout
            (loop elapsedNs since continues timeout state past).state turns).actions } := by
  induction past generalizing state with
  | nil => rfl
  | cons turn past ih =>
    rw [List.cons_append]
    by_cases hok : (turn.ok && continues state) = true
    · by_cases htimeout : timeout.toUInt64 ≤ elapsedNs (since (turn.work.next state)) turn.now
      · rw [loop_of_timeout hok htimeout] at hrunning
        cases hrunning
      · rw [loop_of_continue hok htimeout] at hrunning ⊢
        rw [loop_of_continue hok htimeout, ih hrunning, List.append_assoc]
    · rw [loop_of_stop hok] at hrunning
      cases hrunning

/-- `last_exec_` is the end of the last callback. -/
theorem loop_lastExec {elapsedNs : ℕ → ℕ → UInt64} {since : State → ℕ} {continues : State → Bool}
    {timeout : Int64} (state : State) (turns : List (Turn Message)) :
    (loop elapsedNs since continues timeout state turns).state.lastExec =
      lastEnd state.lastExec (loop elapsedNs since continues timeout state turns).actions := by
  induction turns generalizing state with
  | nil => rfl
  | cons turn turns ih =>
    by_cases hok : (turn.ok && continues state) = true
    · by_cases htimeout : timeout.toUInt64 ≤ elapsedNs (since (turn.work.next state)) turn.now
      · rw [loop_of_timeout hok htimeout, lastEnd_turn]
      · rw [loop_of_continue hok htimeout, lastEnd_append, lastEnd_turn]
        exact ih _
    · rw [loop_of_stop hok]
      rfl

/-- `spin_once`, and `spin` after its start or a callback at `base`, return by the deadline exactly
if wake-ups before it do no harm. Their waits stay within it exactly if there are none. For all
wake-ups there are such runs. -/
theorem onTime_iff_returnsInTime {elapsedNs : ℕ → ℕ → UInt64} {timeout : Int64} (h : 0 ≤ timeout)
    {ok : ℕ → Bool} {base : ℕ} {wakeUps : List ℕ} (hsorted : wakeUps.Pairwise (· ≤ ·)) :
    (∀ turns : List (Turn Message), ElapsedExact elapsedNs (readings base turns) →
      (∀ state, let run := spinOnce elapsedNs timeout base state turns
        Idle ok base wakeUps run →
          (OnTime base timeout run ↔ ReturnsInTime ok base timeout wakeUps) ∧
            (WithinBudget base timeout run ↔ Undisturbed ok base timeout wakeUps)) ∧
      ∀ start state (past : List (Turn Message)),
        let before := spin elapsedNs timeout start state past
        before.returned = false → lastEnd start before.actions = base →
          ∃ run, spin elapsedNs timeout start state (past ++ turns) =
              { run with actions := before.actions ++ run.actions } ∧
            (Idle ok base wakeUps run →
              (OnTime base timeout run ↔ ReturnsInTime ok base timeout wakeUps) ∧
                (WithinBudget base timeout run ↔ Undisturbed ok base timeout wakeUps))) ∧
    (ElapsedExact elapsedNs
        (readings base (idleTurns ok timeout base wakeUps : List (Turn Message))) →
      (∀ state, Idle ok base wakeUps (spinOnce elapsedNs timeout base state
        (idleTurns ok timeout base wakeUps) : Run Message)) ∧
      ∀ start state (past : List (Turn Message)),
        let before := spin elapsedNs timeout start state past
        before.returned = false → lastEnd start before.actions = base →
          ∃ run, spin elapsedNs timeout start state (past ++ idleTurns ok timeout base wakeUps) =
              { run with actions := before.actions ++ run.actions } ∧ Idle ok base wakeUps run) := by
  have hkept : ∀ run : Run Message, Shows timeout base run (idleRun ok base timeout base wakeUps) →
      (OnTime base timeout run ↔ ReturnsInTime ok base timeout wakeUps) ∧
        (WithinBudget base timeout run ↔ Undisturbed ok base timeout wakeUps) := by
    intro run hshows
    constructor
    · exact (hshows.onTime_iff h).trans (idleRun_returnsInTime_iff hsorted)
    · exact hshows.withinBudget_iff.trans (idleRun_undisturbed_iff hsorted)
  have hlastExec : ∀ start state (past : List (Turn Message)),
      lastEnd start (spin elapsedNs timeout start state past).actions = base →
        (spin elapsedNs timeout start state past).state.lastExec = base := by
    intro start state past hbase
    rw [← hbase]
    exact loop_lastExec _ past
  constructor
  · intro turns hexact
    constructor
    · intro state run hidle
      exact hkept _ (loop_shows h rfl rfl le_rfl hexact hidle)
    · intro start state past before hrunning hbase
      refine ⟨_, loop_append hrunning, fun hidle ↦ hkept _ ?_⟩
      exact loop_shows h (hlastExec start state past hbase) rfl le_rfl hexact hidle
  · intro hexact
    constructor
    · intro state
      exact loop_idleTurns h rfl rfl ok le_rfl hexact
    · intro start state past before hrunning hbase
      refine ⟨_, loop_append hrunning, ?_⟩
      exact loop_idleTurns h (hlastExec start state past hbase) rfl ok le_rfl hexact

/-- Other work at the start and at the deadline. -/
theorem onTime_iff_returnsInTime_two :
    let turns : List (Turn ℕ) := idleTurns (fun _ ↦ true) 10 5 [5, 15]
    let once := spinOnce elapsed 10 5 ⟨0, false⟩ turns
    let run := spin elapsed 10 5 ⟨0, false⟩ turns
    OnTime 5 10 once ∧ WithinBudget 5 10 once ∧ OnTime 5 10 run ∧ WithinBudget 5 10 run := by
  intro turns once run
  have htimeout : (0 : Int64) ≤ 10 := by decide
  have hsorted : [5, 15].Pairwise (· ≤ ·) := by decide
  have hexact : ElapsedExact elapsed (readings 5 turns) := by
    unfold ElapsedExact
    decide
  have hinside : ∀ wakeUp ∈ [5, 15], ¬ Inside 5 10 wakeUp := by
    unfold Inside
    decide
  have hintime : ReturnsInTime (fun _ ↦ true) 5 10 [5, 15] := by
    rintro ⟨wakeUp, hmem, hwake⟩
    exact absurd hwake (hinside wakeUp hmem)
  have hundisturbed : Undisturbed (fun _ ↦ true) 5 10 [5, 15] := by
    intro _ wakeUp hmem hwake
    exact absurd hwake (hinside wakeUp hmem)
  obtain ⟨hkept, hidle⟩ :=
    @onTime_iff_returnsInTime ℕ elapsed 10 htimeout (fun _ ↦ true) 5 [5, 15] hsorted
  obtain ⟨hkeptOnce, hkeptRun⟩ := hkept turns hexact
  obtain ⟨hidleOnce, hidleRun⟩ := hidle hexact
  obtain ⟨hontime, hwithin⟩ := hkeptOnce ⟨0, false⟩ (hidleOnce ⟨0, false⟩)
  obtain ⟨later, hlater, hontime', hwithin'⟩ : ∃ later, run = later ∧
      (OnTime 5 10 later ↔ ReturnsInTime (fun _ ↦ true) 5 10 [5, 15]) ∧
      (WithinBudget 5 10 later ↔ Undisturbed (fun _ ↦ true) 5 10 [5, 15]) := by
    obtain ⟨later, hlater, hiff⟩ := hkeptRun 5 ⟨0, false⟩ [] rfl rfl
    obtain ⟨later', hlater', hidle'⟩ := hidleRun 5 ⟨0, false⟩ [] rfl rfl
    have hsame : later' = later := hlater'.symm.trans hlater
    exact ⟨later, hlater, hiff (hsame ▸ hidle')⟩
  rw [hlater]
  exact ⟨hontime.mpr hintime, hwithin.mpr hundisturbed, hontime'.mpr hintime,
    hwithin'.mpr hundisturbed⟩

/-- Other work one nanosecond before the deadline doubles the wait of both functions. -/
theorem deadline_overrun :
    let turns : List (Turn ℕ) := idleTurns (fun _ ↦ true) 3000000000 0 [2999999999]
    let once := spinOnce elapsed 3000000000 0 ⟨0, false⟩ turns
    let run := spin elapsed 3000000000 0 ⟨0, false⟩ turns
    Idle (fun _ ↦ true) 0 [2999999999] once ∧ returnTime 0 once.actions = 5999999999 ∧
      ¬ OnTime 0 3000000000 once ∧ ¬ WithinBudget 0 3000000000 once ∧
      Idle (fun _ ↦ true) 0 [2999999999] run ∧ ¬ OnTime 0 3000000000 run ∧
      ¬ WithinBudget 0 3000000000 run := by
  refine ⟨⟨by decide, ?_⟩, by decide, fun h ↦ absurd h.2 (by decide), fun h ↦ ?_,
    ⟨by decide, ?_⟩, fun h ↦ absurd h.2 (by decide), fun h ↦ ?_⟩
  · exact ⟨by decide, by decide, by decide, by decide, trivial⟩
  · exact absurd (h (2999999999, 3000000000) (by decide)) (by decide)
  · exact ⟨by decide, by decide, by decide, by decide, trivial⟩
  · exact absurd (h (2999999999, 3000000000) (by decide)) (by decide)

end LayerPingPong.RclcppPubsub
