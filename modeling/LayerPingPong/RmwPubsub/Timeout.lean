import LayerPingPong.Base.Checked
import LayerPingPong.RclPubsub.Subscriber
import LayerPingPong.RmwPubsub.Subscriber

/-!
# How long the rmw subscriber waits

`rmw_wait` waits for the seconds and the nanoseconds of `wait_timeout_` together. The nanoseconds
are the whole timeout again, not what the seconds leave of it, so the wait is longer than the one of
the rcl subscriber from one second on.
-/

namespace LayerPingPong.RmwPubsub

open Checked

/-- The time that `rmw_wait` waits, in nanoseconds. -/
def RmwTime.duration (time : RmwTime) : ℕ := time.sec.toNat * 1000000000 + time.nsec.toNat

/-! ## The split of the timeout -/

theorem seconds_toInt {timeout : Int64} (h : 0 ≤ timeout) :
    (timeout / 1000000000).toInt = timeout.toInt / 1000000000 := by
  have hnonneg : 0 ≤ timeout.toInt := Int64.le_iff_toInt_le.mp h
  rw [Int64.toInt_div_of_ne_right _ _ (by decide), Int.tdiv_eq_ediv_of_nonneg hnonneg]
  rfl

theorem waitTimeout_sec {timeout : Int64} (h : 0 ≤ timeout) :
    ((waitTimeout timeout).sec.toNat : ℤ) = timeout.toInt / 1000000000 := by
  have hnonneg : 0 ≤ timeout.toInt := Int64.le_iff_toInt_le.mp h
  have hsec : 0 ≤ timeout / 1000000000 := by
    rw [Int64.le_iff_toInt_le, seconds_toInt h]
    exact Int.ediv_nonneg hnonneg (by decide)
  rw [← seconds_toInt h]
  exact int64_toUInt64_toNat hsec

theorem waitTimeout_nsec {timeout : Int64} (h : 0 ≤ timeout) :
    ((waitTimeout timeout).nsec.toNat : ℤ) = timeout.toInt := int64_toUInt64_toNat h

/-- The whole seconds are waited for twice. -/
theorem waitTimeout_duration {timeout : Int64} (h : 0 ≤ timeout) :
    ((waitTimeout timeout).duration : ℤ) =
      timeout.toInt + timeout.toInt / 1000000000 * 1000000000 := by
  unfold RmwTime.duration
  push_cast
  rw [waitTimeout_sec h, waitTimeout_nsec h, add_comm]

/-! ## The waits of a call -/

variable {Message : Type}

def Call.timeout : Call Message → Int64
  | .spin timeout _ => timeout
  | .spinOnce timeout _ => timeout

/-- The time spent in a wait that times out. -/
def Action.idle : Action Message → ℤ
  | .wait _ time .timeout => time.duration
  | _ => 0

/-- The time spent in a wait of the rcl subscriber that times out. -/
def rclIdle : RclPubsub.Action Message → ℤ
  | .wait timeoutNs .timeout => timeoutNs.toInt
  | _ => 0

variable (callback : Message → Message)

theorem loopBody_wait_time {entry entry' : Bool} {timeout time : RmwTime} {data : Message}
    {turn : Turn Message} {outcome : WaitOutcome}
    (h : Action.wait entry' time outcome ∈
      (loopBody callback entry timeout data turn).actions) : time = timeout := by
  obtain ⟨wait, take⟩ := turn
  cases entry <;> rcases wait with (_ | _) | _ | _ <;> cases take <;> simp_all [loopBody]

theorem spinFrom_wait_time {entry entry' : Bool} {timeout time : RmwTime} {data : Message}
    {turns : List (Turn Message)} {outcome : WaitOutcome}
    (h : Action.wait entry' time outcome ∈ spinFrom callback entry timeout data turns) :
    time = timeout := by
  induction turns generalizing entry data with
  | nil => cases h
  | cons turn turns ih =>
    unfold spinFrom at h
    dsimp only at h
    split at h
    · exact loopBody_wait_time callback h
    · rcases List.mem_append.mp h with hfirst | hrest
      · exact loopBody_wait_time callback hfirst
      · exact ih hrest

variable [Inhabited Message]

theorem actions_wait_time {call : Call Message} {entry : Bool} {time : RmwTime}
    {outcome : WaitOutcome} (h : Action.wait entry time outcome ∈ call.actions callback) :
    time = waitTimeout call.timeout := by
  cases call with
  | spin timeout turns => exact spinFrom_wait_time callback h
  | spinOnce timeout turn => exact loopBody_wait_time callback h

/-- Every wait is given the timeout as seconds and a remainder. If no message arrives, the waits are
as long as those of the rcl subscriber. -/
structure WaitsLikeRcl (timeout : Int64) : Prop where
  split : ∀ call : Call Message, call.timeout = timeout → ∀ entry time outcome,
    Action.wait entry time outcome ∈ call.actions callback →
      time.nsec.toNat < 1000000000 ∧ (time.duration : ℤ) = timeout.toInt
  spin : ∀ (turn : Turn Message) turns (rclTurn : RclPubsub.Turn Message) rclTurns,
    turn.wait = .timeout → rclTurn.wait = .timeout →
      ((spin callback timeout (turn :: turns)).map Action.idle).sum =
        ((RclPubsub.spin callback timeout (rclTurn :: rclTurns)).map rclIdle).sum
  spinOnce : ∀ (turn : Turn Message) (rclTurn : RclPubsub.Turn Message),
    turn.wait = .timeout → rclTurn.wait = .timeout →
      ((spinOnce callback timeout turn).map Action.idle).sum =
        ((RclPubsub.spinOnce callback timeout rclTurn).map rclIdle).sum

theorem spinOnce_idle {timeout : Int64} {turn : Turn Message} (hwait : turn.wait = .timeout) :
    ((spinOnce callback timeout turn).map Action.idle).sum = (waitTimeout timeout).duration := by
  simp [spinOnce, loopBody, hwait, Action.idle]

theorem spin_idle {timeout : Int64} {turn : Turn Message} (turns : List (Turn Message))
    (hwait : turn.wait = .timeout) :
    ((spin callback timeout (turn :: turns)).map Action.idle).sum =
      (waitTimeout timeout).duration := by
  simp [spin, spinFrom, loopBody, hwait, Action.idle]

theorem rclSpinOnce_idle {timeout : Int64} {turn : RclPubsub.Turn Message}
    (hwait : turn.wait = .timeout) :
    ((RclPubsub.spinOnce callback timeout turn).map rclIdle).sum = timeout.toInt := by
  simp [RclPubsub.spinOnce, RclPubsub.loopBody, hwait, rclIdle]

theorem rclSpin_idle {timeout : Int64} {turn : RclPubsub.Turn Message}
    (turns : List (RclPubsub.Turn Message)) (hwait : turn.wait = .timeout) :
    ((RclPubsub.spin callback timeout (turn :: turns)).map rclIdle).sum = timeout.toInt := by
  simp [RclPubsub.spin, RclPubsub.spinFrom, RclPubsub.loopBody, hwait, rclIdle]

/-- The rmw subscriber waits as it was told, and as the rcl subscriber does, exactly below one
second. -/
theorem waitsLikeRcl_iff {timeout : Int64} (h : 0 ≤ timeout) :
    WaitsLikeRcl callback timeout ↔ timeout < 1000000000 := by
  have hnonneg : 0 ≤ timeout.toInt := Int64.le_iff_toInt_le.mp h
  have hnsec := waitTimeout_nsec h
  rw [Int64.lt_iff_toInt_lt, show (1000000000 : Int64).toInt = 1000000000 by decide]
  constructor
  · intro hwaits
    have hmem : Action.wait true (waitTimeout timeout) .timeout ∈
        (Call.spinOnce timeout ⟨.timeout, .ok none⟩ : Call Message).actions callback :=
      List.mem_singleton_self _
    obtain ⟨hlt, -⟩ := hwaits.split _ rfl _ _ _ hmem
    omega
  · intro hlt
    have hduration : ((waitTimeout timeout).duration : ℤ) = timeout.toInt := by
      rw [waitTimeout_duration h, Int.ediv_eq_zero_of_lt hnonneg hlt, zero_mul, add_zero]
    refine ⟨?_, ?_, ?_⟩
    · intro call htimeout entry time outcome hmem
      rw [actions_wait_time callback hmem, htimeout]
      exact ⟨by omega, hduration⟩
    · intro turn turns rclTurn rclTurns hwait hrclWait
      rw [spin_idle callback turns hwait, rclSpin_idle callback rclTurns hrclWait, hduration]
    · intro turn rclTurn hwait hrclWait
      rw [spinOnce_idle callback hwait, rclSpinOnce_idle callback hrclWait, hduration]

/-- Half a second. -/
theorem waitsLikeRcl_iff_half : WaitsLikeRcl (id : ℕ → ℕ) 500000000 :=
  (waitsLikeRcl_iff id (by decide)).mpr (by decide)

/-- With the timeout of three seconds that the program uses, the rmw subscriber waits for six. -/
theorem waitsTwice :
    ((spinOnce (id : ℕ → ℕ) 3000000000 ⟨.timeout, .ok none⟩).map Action.idle).sum = 6000000000 ∧
      ((RclPubsub.spinOnce (id : ℕ → ℕ) 3000000000 ⟨.timeout, .error⟩).map rclIdle).sum =
        3000000000 ∧
      ¬ WaitsLikeRcl (id : ℕ → ℕ) 3000000000 := by
  refine ⟨by decide, by decide, fun h ↦ ?_⟩
  exact absurd (h.spinOnce ⟨.timeout, .ok none⟩ ⟨.timeout, .error⟩ rfl rfl) (by decide)

end LayerPingPong.RmwPubsub
