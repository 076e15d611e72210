import LayerPingPong.RclcppPubsub.Waiting

/-!
# What the rclcpp subscriber delivers

The loops hand over whatever the executor runs. A turn in which the executor has found nothing to do
has lasted for the whole timeout and ends the loop, if the clock is read correctly.
-/

namespace LayerPingPong.RclcppPubsub

variable {Message : Type}

/-- The message handed to `callback_`. -/
def Action.delivered : Action Message → Option Message
  | .callback data _ => some data
  | _ => none

def Work.received : Work Message → Option Message
  | .message data _ => some data
  | .unrelated | .nothing => none

def Work.isNothing : Work Message → Bool
  | .nothing => true
  | _ => false

/-- The turns of a loop whose timeout counts from `since`: each but a last one without any work ends
before the timeout. -/
def InTime (timeout : Int64) : ℕ → List (Turn Message) → Prop
  | _, [] => True
  | since, turn :: turns => turn.ok = true ∧
    match turn.work with
    | .message _ finished =>
      finished ≤ turn.now ∧ (turn.now : ℤ) < finished + timeout.toInt ∧
        InTime timeout finished turns
    | .unrelated =>
      since ≤ turn.now ∧ (turn.now : ℤ) < since + timeout.toInt ∧ InTime timeout since turns
    | .nothing => (since : ℤ) + timeout.toInt ≤ turn.now ∧ turns = []

theorem turn_delivered (timeout : Int64) (turn : Turn Message) :
    (turn.actions timeout).filterMap Action.delivered = turn.work.received.toList := by
  rw [Turn.actions, List.filterMap_cons_none rfl, List.filterMap_cons_none rfl,
    List.filterMap_append]
  cases turn.work <;> rfl

section Loop

variable {elapsedNs : ℕ → ℕ → UInt64} {timeout : Int64}

/-- A loop that counts from the end of the last callback makes all its turns and returns after one
without any work. -/
theorem loop_lastExec_inTime (h : 0 ≤ timeout) {state : State} {turns : List (Turn Message)}
    (hexact : ElapsedExact elapsedNs (readings state.lastExec turns))
    (hintime : InTime timeout state.lastExec turns) :
    loop elapsedNs State.lastExec (fun _ ↦ true) timeout state turns =
      ⟨turns.flatMap (Turn.actions timeout), turns.any fun turn ↦ turn.work.isNothing,
        turns.foldl (fun state turn ↦ turn.work.next state) state⟩ := by
  induction turns generalizing state with
  | nil => rfl
  | cons turn turns ih =>
    obtain ⟨hok, hwork⟩ := hintime
    have hcontinues : (turn.ok && true) = true := by rw [hok]; rfl
    have hturn := turn_sublist state turn turns
    have hnext := readings_next_sublist state turn turns
    have hdifference (hle : (turn.work.next state).lastExec ≤ turn.now) :=
      timeout_le_elapsed_iff h hle
        ((hexact.mono hturn.subset) _ (by simp) _ (by simp) hle)
    cases hkind : turn.work with
    | nothing =>
      rw [hkind] at hwork
      obtain ⟨hover, rfl⟩ := hwork
      have hsame : (turn.work.next state).lastExec = state.lastExec := by rw [hkind]; rfl
      have hle : (turn.work.next state).lastExec ≤ turn.now := by
        have hnonneg : 0 ≤ timeout.toInt := Int64.le_iff_toInt_le.mp h
        rw [hsame]
        omega
      have htimeout := (hdifference hle).mpr (hsame ▸ hover)
      have hnothing : turn.work.isNothing = true := by rw [hkind]; rfl
      rw [loop_of_timeout hcontinues htimeout, List.flatMap_singleton, List.any_cons, hnothing]
      rfl
    | message data finished | unrelated =>
      have hgoes : (turn.work.next state).lastExec ≤ turn.now ∧
          (turn.now : ℤ) < (turn.work.next state).lastExec + timeout.toInt ∧
            InTime timeout (turn.work.next state).lastExec turns := by
        rw [hkind] at hwork ⊢
        exact hwork
      obtain ⟨hle, hlt, hrest⟩ := hgoes
      have htimeout : ¬ timeout.toUInt64 ≤ elapsedNs (turn.work.next state).lastExec turn.now := by
        rw [hdifference hle]
        exact not_le.mpr hlt
      have hnothing : turn.work.isNothing = false := by rw [hkind]; rfl
      rw [loop_of_continue hcontinues htimeout, ih (hexact.mono hnext.subset) hrest, List.any_cons,
        hnothing, Bool.false_or]
      rfl

theorem spin_inTime (h : 0 ≤ timeout) {start : ℕ} {turns : List (Turn Message)}
    (hexact : ElapsedExact elapsedNs (readings start turns))
    (hintime : InTime timeout start turns) (state : State) :
    spin elapsedNs timeout start state turns =
      ⟨turns.flatMap (Turn.actions timeout), turns.any fun turn ↦ turn.work.isNothing,
        turns.foldl (fun state turn ↦ turn.work.next state) { state with lastExec := start }⟩ := by
  unfold spin
  exact loop_lastExec_inTime h hexact hintime

/-- `spin` hands over every message. -/
theorem spin_delivered (h : 0 ≤ timeout) {start : ℕ} {turns : List (Turn Message)}
    (hexact : ElapsedExact elapsedNs (readings start turns))
    (hintime : InTime timeout start turns) (state : State) :
    (spin elapsedNs timeout start state turns).actions.filterMap Action.delivered =
      turns.filterMap fun turn ↦ turn.work.received := by
  rw [spin_inTime h hexact hintime, List.filterMap_flatMap, List.filterMap_eq_flatMap_toList]
  exact List.flatMap_congr fun turn _ ↦ turn_delivered timeout turn

end Loop

/-- `spin_once` hands over the message of its first turn. -/
theorem spinOnce_delivered (elapsedNs : ℕ → ℕ → UInt64) (timeout : Int64) (start : ℕ)
    {turn : Turn Message} (hok : turn.ok = true) (state : State) :
    (spinOnce elapsedNs timeout start state [turn]).actions.filterMap Action.delivered =
      turn.work.received.toList := by
  have hcontinues : (turn.ok && !({ state with doneCallback := false } : State).doneCallback) =
      true := by
    rw [hok]
    rfl
  unfold spinOnce
  by_cases htimeout : timeout.toUInt64 ≤ elapsedNs start turn.now
  · rw [loop_of_timeout hcontinues htimeout, turn_delivered]
  · rw [loop_of_continue hcontinues htimeout]
    change (turn.actions timeout ++ []).filterMap Action.delivered = _
    rw [List.append_nil, turn_delivered]

/-- `spin_once` ends with its first turn: it returns, or its loop test is going to fail. -/
theorem spinOnce_ends {elapsedNs : ℕ → ℕ → UInt64} {timeout : Int64} {start : ℕ}
    {turn : Turn Message} (hok : turn.ok = true)
    (hwaited : turn.work.received = none → timeout.toUInt64 ≤ elapsedNs start turn.now)
    (state : State) :
    let run := spinOnce elapsedNs timeout start state [turn]
    run.returned = true ∨ run.state.doneCallback = true := by
  intro run
  have hcontinues : (turn.ok && !({ state with doneCallback := false } : State).doneCallback) =
      true := by
    rw [hok]
    rfl
  by_cases htimeout : timeout.toUInt64 ≤ elapsedNs start turn.now
  · left
    change (loop _ _ _ _ _ [turn]).returned = true
    rw [loop_of_timeout hcontinues htimeout]
  · right
    change (loop _ _ _ _ _ [turn]).state.doneCallback = true
    rw [loop_of_continue hcontinues htimeout]
    change (turn.work.next _).doneCallback = true
    cases hkind : turn.work with
    | message data finished => rfl
    | unrelated | nothing =>
      rw [hkind] at hwaited
      exact absurd (hwaited rfl) htimeout

end LayerPingPong.RclcppPubsub
