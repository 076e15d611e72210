import LayerPingPong.Base.Checked
import LayerPingPong.RclcppPubsub.Subscriber

/-!
# The rclcpp subscriber waits out its timeout

Neither function gives up before the timeout has passed, whatever the executor runs meanwhile, and
`spin_once` delivers at most one message. The time counts from `last_exec_` in `spin`, which is the
later of its start and the end of the last callback.
-/

namespace LayerPingPong.RclcppPubsub

open Checked

variable {Message : Type}

/-- The end of a callback. -/
def Action.finished : Action Message → Option ℕ
  | .callback _ finished => some finished
  | _ => none

/-- The clock readings of a turn, in order. -/
def Turn.readings (turn : Turn Message) : List ℕ :=
  turn.work.actions.filterMap Action.finished ++ [turn.now]

def readings (start : ℕ) (turns : List (Turn Message)) : List ℕ :=
  start :: turns.flatMap Turn.readings

/-- The time between two readings is computed exactly. -/
def ElapsedExact (elapsedNs : ℕ → ℕ → UInt64) (clocks : List ℕ) : Prop :=
  ∀ start ∈ clocks, ∀ now ∈ clocks, start ≤ now → (elapsedNs start now).toNat = now - start

/-- The end of the last callback, or the start if there was none. -/
def lastEnd (start : ℕ) (actions : List (Action Message)) : ℕ :=
  (actions.filterMap Action.finished).getLastD start

/-- The loop has made some turns. It has then found that `rclcpp::ok` is false, or at the end of its
last turn that the timeout has passed. -/
inductive WaitedOut (since : ℕ) (timeout : Int64) :
    List (Turn Message) → List (Action Message) → Prop where
  | stop {turn : Turn Message} {turns : List (Turn Message)} : turn.ok = false →
      WaitedOut since timeout (turn :: turns) [.ok false]
  | passed {turn : Turn Message} {turns : List (Turn Message)} : turn.ok = true →
      (since : ℤ) + timeout.toInt ≤ turn.now →
      WaitedOut since timeout (turn :: turns) (turn.actions timeout)
  | next {turn : Turn Message} {turns : List (Turn Message)} {actions : List (Action Message)} :
      turn.ok = true → WaitedOut since timeout turns actions →
      WaitedOut since timeout (turn :: turns) (turn.actions timeout ++ actions)

theorem ElapsedExact.mono {elapsedNs : ℕ → ℕ → UInt64} {clocks clocks' : List ℕ}
    (h : ElapsedExact elapsedNs clocks) (hsubset : clocks' ⊆ clocks) :
    ElapsedExact elapsedNs clocks' :=
  fun start hstart now hnow hle ↦ h start (hsubset hstart) now (hsubset hnow) hle

/-! ## The readings of a run -/

theorem work_finished (work : Work Message) (state : State) :
    work.actions.filterMap Action.finished = [] ∧ work.next state = state ∨
      ∃ finished, work.actions.filterMap Action.finished = [finished] ∧
        work.next state = subCallback finished := by
  cases work with
  | message data finished => exact .inr ⟨finished, rfl, rfl⟩
  | unrelated | nothing => exact .inl ⟨rfl, rfl⟩

theorem turn_finished (timeout : Int64) (turn : Turn Message) :
    (turn.actions timeout).filterMap Action.finished =
      turn.work.actions.filterMap Action.finished := by
  rw [Turn.actions, List.filterMap_cons_none rfl, List.filterMap_cons_none rfl,
    List.filterMap_append]
  exact List.append_nil _

/-- After a turn, `last_exec_`, the reading of the turn and those to come are readings of the run. -/
theorem turn_sublist (state : State) (turn : Turn Message) (turns : List (Turn Message)) :
    List.Sublist ((turn.work.next state).lastExec :: turn.now :: turns.flatMap Turn.readings)
      (readings state.lastExec (turn :: turns)) := by
  unfold readings
  rw [List.flatMap_cons, Turn.readings]
  rcases work_finished turn.work state with ⟨hnone, hnext⟩ | ⟨finished, hsome, hnext⟩
  · rw [hnone, hnext]
    exact List.Sublist.refl _
  · rw [hsome, hnext]
    exact List.sublist_cons_self _ _

theorem readings_next_sublist (state : State) (turn : Turn Message) (turns : List (Turn Message)) :
    List.Sublist (readings (turn.work.next state).lastExec turns)
      (readings state.lastExec (turn :: turns)) := by
  refine List.Sublist.trans ?_ (turn_sublist state turn turns)
  exact (List.sublist_cons_self _ _).cons_cons _

theorem lastEnd_append (start : ℕ) (first second : List (Action Message)) :
    lastEnd start (first ++ second) = lastEnd (lastEnd start first) second := by
  unfold lastEnd
  rw [List.filterMap_append]
  cases hsecond : second.filterMap Action.finished with
  | nil => rw [List.append_nil]; rfl
  | cons finished rest => simp [List.getLastD_eq_getLast?]

theorem lastEnd_turn (timeout : Int64) (state : State) (turn : Turn Message) :
    lastEnd state.lastExec (turn.actions timeout) = (turn.work.next state).lastExec := by
  unfold lastEnd
  rw [turn_finished]
  rcases work_finished turn.work state with ⟨hnone, hnext⟩ | ⟨finished, hsome, hnext⟩
  · rw [hnone, hnext]
    rfl
  · rw [hsome, hnext]
    rfl

/-- The test at the end of the loop, for readings whose difference is exact. -/
theorem timeout_le_elapsed_iff {elapsedNs : ℕ → ℕ → UInt64} {timeout : Int64} (h : 0 ≤ timeout)
    {since now : ℕ} (hle : since ≤ now) (hexact : (elapsedNs since now).toNat = now - since) :
    timeout.toUInt64 ≤ elapsedNs since now ↔ (since : ℤ) + timeout.toInt ≤ now := by
  have htimeout := int64_toUInt64_toNat h
  rw [UInt64.le_iff_toNat_le, hexact]
  omega

/-! ## Both functions -/

/-- The loop returns at the end of a turn. -/
theorem turn_waitedOut {elapsedNs : ℕ → ℕ → UInt64} {timeout : Int64} (h : 0 ≤ timeout) {since : ℕ}
    {turn : Turn Message} (hok : turn.ok = true) (hle : since ≤ turn.now)
    (hexact : (elapsedNs since turn.now).toNat = turn.now - since)
    (htimeout : timeout.toUInt64 ≤ elapsedNs since turn.now) (turns : List (Turn Message)) :
    WaitedOut since timeout (turn :: turns) (turn.actions timeout) :=
  .passed hok ((timeout_le_elapsed_iff h hle hexact).mp htimeout)

/-- The loop returns at its test. -/
theorem stop_waitedOut (since : ℕ) (timeout : Int64) {turn : Turn Message} (hok : turn.ok = false)
    (turns : List (Turn Message)) : WaitedOut since timeout (turn :: turns) [.ok turn.ok] := by
  rw [hok]
  exact .stop hok

/-- In `spin` the time counts from the end of the last callback. -/
theorem loop_lastExec_waitedOut {elapsedNs : ℕ → ℕ → UInt64} {timeout : Int64} (h : 0 ≤ timeout)
    {state : State} {turns : List (Turn Message)} {run : Run Message}
    (hsorted : (readings state.lastExec turns).Pairwise (· ≤ ·))
    (hexact : ElapsedExact elapsedNs (readings state.lastExec turns))
    (hrun : loop elapsedNs State.lastExec (fun _ ↦ true) timeout state turns = run)
    (hreturned : run.returned = true) :
    WaitedOut (lastEnd state.lastExec run.actions) timeout turns run.actions := by
  induction turns generalizing state run with
  | nil =>
    rw [← hrun] at hreturned
    cases hreturned
  | cons turn turns ih =>
    have hturn := turn_sublist state turn turns
    have hnext := readings_next_sublist state turn turns
    by_cases hok : (turn.ok && true) = true
    · have hgoes : turn.ok = true := by simpa using hok
      by_cases htimeout : timeout.toUInt64 ≤ elapsedNs (turn.work.next state).lastExec turn.now
      · have hle : (turn.work.next state).lastExec ≤ turn.now :=
          List.rel_of_pairwise_cons (hsorted.sublist hturn) List.mem_cons_self
        rw [← hrun, loop_of_timeout hok htimeout, lastEnd_turn]
        apply turn_waitedOut h hgoes hle _ htimeout
        exact (hexact.mono hturn.subset) _ (by simp) _ (by simp) hle
      · rw [loop_of_continue hok htimeout] at hrun
        rw [← hrun] at hreturned ⊢
        rw [lastEnd_append, lastEnd_turn]
        exact .next hgoes (ih (hsorted.sublist hnext) (hexact.mono hnext.subset) rfl hreturned)
    · rw [← hrun, loop_of_stop hok]
      exact stop_waitedOut _ timeout (by simpa using hok) turns

theorem readings_tail_sublist (start : ℕ) (turn : Turn Message) (turns : List (Turn Message)) :
    List.Sublist (readings start turns) (readings start (turn :: turns)) := by
  unfold readings
  rw [List.flatMap_cons]
  exact (List.sublist_append_right _ _).cons_cons _

/-- In `spin_once` the time counts from the start. -/
theorem loop_start_waitedOut {elapsedNs : ℕ → ℕ → UInt64} {timeout : Int64} (h : 0 ≤ timeout)
    {state : State} {start : ℕ} {turns : List (Turn Message)} {run : Run Message}
    (hsorted : (readings start turns).Pairwise (· ≤ ·))
    (hexact : ElapsedExact elapsedNs (readings start turns)) (hdone : state.doneCallback = false)
    (hrun : loop elapsedNs (fun _ ↦ start) (fun state ↦ !state.doneCallback) timeout state turns =
      run)
    (hreturned : run.returned = true) (hnone : run.actions.filterMap Action.finished = []) :
    WaitedOut start timeout turns run.actions := by
  induction turns generalizing state run with
  | nil =>
    rw [← hrun] at hreturned
    cases hreturned
  | cons turn turns ih =>
    have htail := readings_tail_sublist start turn turns
    by_cases hok : (turn.ok && !state.doneCallback) = true
    · have hgoes : turn.ok = true := (Bool.and_eq_true_iff.mp hok).1
      by_cases htimeout : timeout.toUInt64 ≤ elapsedNs start turn.now
      · have hle : start ≤ turn.now := by
          apply List.rel_of_pairwise_cons hsorted
          simp [Turn.readings]
        rw [← hrun, loop_of_timeout hok htimeout]
        apply turn_waitedOut h hgoes hle _ htimeout
        exact hexact _ List.mem_cons_self _ (by simp [readings, Turn.readings]) hle
      · rw [loop_of_continue hok htimeout] at hrun
        rw [← hrun] at hreturned hnone ⊢
        rw [List.filterMap_append, turn_finished, List.append_eq_nil_iff] at hnone
        rcases work_finished turn.work state with ⟨-, hnext⟩ | ⟨finished, hsome, -⟩
        · rw [hnext] at hreturned hnone ⊢
          exact .next hgoes (ih (hsorted.sublist htail) (hexact.mono htail.subset) hdone rfl
            hreturned hnone.2)
        · rw [hsome] at hnone
          cases hnone.1
    · rw [← hrun, loop_of_stop hok]
      exact stop_waitedOut _ timeout (by simpa [hdone] using hok) turns

/-- After its callback, `spin_once` makes no further turn. -/
theorem loop_of_done (elapsedNs : ℕ → ℕ → UInt64) (timeout : Int64) (start : ℕ) {state : State}
    (hdone : state.doneCallback = true) (turns : List (Turn Message)) :
    (loop elapsedNs (fun _ ↦ start) (fun state ↦ !state.doneCallback) timeout state
      turns).actions.filterMap Action.finished = [] := by
  cases turns with
  | nil => rfl
  | cons turn turns =>
    rw [loop_of_stop (by simp [hdone])]
    rfl

theorem loop_callbacks_le_one (elapsedNs : ℕ → ℕ → UInt64) (timeout : Int64) (start : ℕ)
    (state : State) (turns : List (Turn Message)) :
    ((loop elapsedNs (fun _ ↦ start) (fun state ↦ !state.doneCallback) timeout state
      turns).actions.filterMap Action.finished).length ≤ 1 := by
  induction turns generalizing state with
  | nil => exact Nat.zero_le 1
  | cons turn turns ih =>
    have hwork := work_finished turn.work state
    by_cases hok : (turn.ok && !state.doneCallback) = true
    · by_cases htimeout : timeout.toUInt64 ≤ elapsedNs start turn.now
      · rw [loop_of_timeout hok htimeout, turn_finished]
        rcases hwork with ⟨hnone, -⟩ | ⟨finished, hsome, -⟩
        · simp [hnone]
        · simp [hsome]
      · rw [loop_of_continue hok htimeout, List.filterMap_append, turn_finished]
        rcases hwork with ⟨hnone, -⟩ | ⟨finished, hsome, hnext⟩
        · rw [hnone, List.nil_append]
          exact ih _
        · rw [hsome, hnext, loop_of_done elapsedNs timeout start rfl]
          simp
    · rw [loop_of_stop hok]
      exact Nat.zero_le 1

/-- The end of a callback is a reading of its turn. -/
theorem finished_mem_readings {elapsedNs : ℕ → ℕ → UInt64} {since : State → ℕ}
    {continues : State → Bool} {timeout : Int64} {state : State} {turns : List (Turn Message)}
    {finished : ℕ}
    (h : finished ∈ (loop elapsedNs since continues timeout state turns).actions.filterMap
      Action.finished) : finished ∈ turns.flatMap Turn.readings := by
  induction turns generalizing state with
  | nil => cases h
  | cons turn turns ih =>
    rw [List.flatMap_cons, Turn.readings]
    by_cases hok : (turn.ok && continues state) = true
    · by_cases htimeout : timeout.toUInt64 ≤ elapsedNs (since (turn.work.next state)) turn.now
      · rw [loop_of_timeout hok htimeout, turn_finished] at h
        exact List.mem_append_left _ (List.mem_append_left _ h)
      · rw [loop_of_continue hok htimeout, List.filterMap_append, turn_finished] at h
        rcases List.mem_append.mp h with hfirst | hrest
        · exact List.mem_append_left _ (List.mem_append_left _ hfirst)
        · exact List.mem_append_right _ (ih hrest)
    · rw [loop_of_stop hok] at h
      cases h

theorem le_lastEnd {start : ℕ} {actions : List (Action Message)}
    (h : ∀ finished ∈ actions.filterMap Action.finished, start ≤ finished) :
    start ≤ lastEnd start actions := by
  unfold lastEnd
  rw [List.getLastD_eq_getLast?]
  cases hlast : (actions.filterMap Action.finished).getLast? with
  | none => exact le_rfl
  | some finished => exact h finished (List.mem_of_getLast? hlast)

/-- `spin_once` delivers at most one message, and returns without one only after its timeout.
`spin` returns only when the timeout has passed since its start and since its last callback. -/
theorem waitedOut_of_returned {elapsedNs : ℕ → ℕ → UInt64} {timeout : Int64} (h : 0 ≤ timeout)
    {start : ℕ} {turns : List (Turn Message)}
    (hsorted : (readings start turns).Pairwise (· ≤ ·))
    (hexact : ElapsedExact elapsedNs (readings start turns)) (state : State) :
    let once := spinOnce elapsedNs timeout start state turns
    let run := spin elapsedNs timeout start state turns
    (once.actions.filterMap Action.finished).length ≤ 1 ∧
      (once.returned = true → once.actions.filterMap Action.finished = [] →
        WaitedOut start timeout turns once.actions) ∧
      (run.returned = true →
        WaitedOut (max start (lastEnd start run.actions)) timeout turns run.actions) := by
  intro once run
  refine ⟨loop_callbacks_le_one elapsedNs timeout start _ turns, ?_, ?_⟩
  · intro hreturned hnone
    exact loop_start_waitedOut h hsorted hexact rfl rfl hreturned hnone
  · intro hreturned
    have hle : start ≤ lastEnd start run.actions := by
      apply le_lastEnd
      intro finished hfinished
      exact List.rel_of_pairwise_cons hsorted (finished_mem_readings hfinished)
    rw [max_eq_right hle]
    exact loop_lastExec_waitedOut h hsorted hexact rfl hreturned

/-- The difference of two readings as `uint64_t`. -/
def elapsed (start now : ℕ) : UInt64 := UInt64.ofNat (now - start)

/-- Other work, then a message, then nothing until the timeout has passed. Without the message,
`spin_once` waits for as long. -/
theorem waitedOut_of_returned_three :
    let turns : List (Turn ℕ) :=
      [⟨true, .unrelated, 4⟩, ⟨true, .message 7 9, 9⟩, ⟨true, .nothing, 19⟩, ⟨true, .nothing, 29⟩]
    let quiet : List (Turn ℕ) := [⟨true, .unrelated, 4⟩, ⟨true, .nothing, 14⟩]
    WaitedOut 9 10 turns (spin elapsed 10 0 ⟨0, false⟩ turns).actions ∧
      ((spinOnce elapsed 10 0 ⟨0, false⟩ turns).actions.filterMap Action.finished).length ≤ 1 ∧
      WaitedOut 0 10 quiet (spinOnce elapsed 10 0 ⟨0, false⟩ quiet).actions := by
  intro turns quiet
  have hturns : ElapsedExact elapsed (readings 0 turns) := by
    unfold ElapsedExact
    decide
  have hquiet : ElapsedExact elapsed (readings 0 quiet) := by
    unfold ElapsedExact
    decide
  have htimeout : (0 : Int64) ≤ 10 := by decide
  obtain ⟨hone, -, hspin⟩ := waitedOut_of_returned htimeout (by decide) hturns ⟨0, false⟩
  have honce := (waitedOut_of_returned htimeout (by decide) hquiet ⟨0, false⟩).2.1
  exact ⟨hspin (by decide), hone, honce (by decide) (by decide)⟩

end LayerPingPong.RclcppPubsub
