import Mathlib.Algebra.Order.Ring.Int
import Mathlib.Data.List.Basic

/-!
# The rclcpp subscriber

`RclcppSubscriber::spin` and `RclcppSubscriber::spin_once` run the executor until the timeout has
passed by the monotonic clock. `spin` counts from `last_exec_`, which `sub_callback` moves to the
end of each callback, and `spin_once` from its own start. The executor gets the whole timeout in
every turn of the loop.
-/

namespace LayerPingPong.RclcppPubsub

/-- What `exec_->spin_once` runs: `sub_callback`, which ends with a clock reading, or other work. -/
inductive Work (Message : Type) where
  | message (data : Message) (finished : ℕ)
  | unrelated
  | nothing
  deriving DecidableEq, Repr

/-- What a turn of the loop meets: `rclcpp::ok`, the executor and the clock. -/
structure Turn (Message : Type) where
  ok : Bool
  work : Work Message
  now : ℕ
  deriving DecidableEq, Repr

/-- The calls a subscriber makes, with their results. -/
inductive Action (Message : Type) where
  | ok (value : Bool)
  | execute (budget : Int64)
  | callback (data : Message) (finished : ℕ)
  | clock (now : ℕ)
  deriving DecidableEq, Repr

/-- The fields `last_exec_` and `done_callback_`. -/
structure State where
  lastExec : ℕ
  doneCallback : Bool
  deriving DecidableEq, Repr

/-- The calls made, whether the function has returned, and the fields. -/
structure Run (Message : Type) where
  actions : List (Action Message)
  returned : Bool
  state : State
  deriving DecidableEq, Repr

variable {Message : Type}

def subCallback (finished : ℕ) : State where
  lastExec := finished
  doneCallback := true

def Work.next (state : State) : Work Message → State
  | .message _ finished => subCallback finished
  | .unrelated | .nothing => state

def Work.actions : Work Message → List (Action Message)
  | .message data finished => [.callback data finished]
  | .unrelated | .nothing => []

/-- The calls of a turn that passes the loop test. -/
def Turn.actions (timeout : Int64) (turn : Turn Message) : List (Action Message) :=
  .ok true :: .execute timeout :: (turn.work.actions ++ [.clock turn.now])

section Loop

-- `subtract_timespecs` and `timespec_to_uint64`
variable (elapsedNs : ℕ → ℕ → UInt64)

/-- The loop of both functions, which differ in the clock reading that the timeout counts from and
in the loop test after `rclcpp::ok`. -/
def loop (since : State → ℕ) (continues : State → Bool) (timeout : Int64) :
    State → List (Turn Message) → Run Message
  | state, [] => ⟨[], false, state⟩
  | state, turn :: turns =>
    if turn.ok && continues state then
      let next := turn.work.next state
      let timeoutNs := timeout.toUInt64
      if timeoutNs ≤ elapsedNs (since next) turn.now then ⟨turn.actions timeout, true, next⟩
      else
        let rest := loop since continues timeout next turns
        { rest with actions := turn.actions timeout ++ rest.actions }
    else ⟨[.ok turn.ok], true, state⟩

def spin (timeout : Int64) (start : ℕ) (state : State) (turns : List (Turn Message)) :
    Run Message :=
  loop elapsedNs State.lastExec (fun _ ↦ true) timeout { state with lastExec := start } turns

def spinOnce (timeout : Int64) (start : ℕ) (state : State) (turns : List (Turn Message)) :
    Run Message :=
  loop elapsedNs (fun _ ↦ start) (fun state ↦ !state.doneCallback) timeout
    { state with doneCallback := false } turns

end Loop

/-! ## One turn -/

section Turn

variable {elapsedNs : ℕ → ℕ → UInt64} {since : State → ℕ} {continues : State → Bool}
  {timeout : Int64} {state : State} {turn : Turn Message} {turns : List (Turn Message)}

theorem loop_of_stop (h : ¬ (turn.ok && continues state) = true) :
    loop elapsedNs since continues timeout state (turn :: turns) =
      ⟨[.ok turn.ok], true, state⟩ := if_neg h

theorem loop_of_timeout (h : (turn.ok && continues state) = true)
    (htimeout : timeout.toUInt64 ≤ elapsedNs (since (turn.work.next state)) turn.now) :
    loop elapsedNs since continues timeout state (turn :: turns) =
      ⟨turn.actions timeout, true, turn.work.next state⟩ := by
  rw [loop, if_pos h]
  exact if_pos htimeout

theorem loop_of_continue (h : (turn.ok && continues state) = true)
    (htimeout : ¬ timeout.toUInt64 ≤ elapsedNs (since (turn.work.next state)) turn.now) :
    loop elapsedNs since continues timeout state (turn :: turns) =
      { loop elapsedNs since continues timeout (turn.work.next state) turns with
        actions := turn.actions timeout ++
          (loop elapsedNs since continues timeout (turn.work.next state) turns).actions } := by
  rw [loop, if_pos h]
  exact if_neg htimeout

end Turn

end LayerPingPong.RclcppPubsub
