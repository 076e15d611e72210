import Mathlib.Algebra.Order.Ring.Int
import Mathlib.Data.List.Basic

/-!
# The rcl subscriber

`RclSubscriber::spin` and `RclSubscriber::spin_once` as functions of what `rcl_wait` and `rcl_take`
return. The wait set has a single entry (`num_sub` is 1). It is cleared and filled again before each
wait, and what `rcl_wait` leaves in it decides whether a take is made. The result is the trace of
waits, takes and callbacks.
-/

namespace LayerPingPong.RclPubsub

/-- The result of `rcl_wait`; `RCL_RET_OK` comes with the readiness of the subscription. -/
inductive WaitOutcome where
  | ok (ready : Bool)
  | timeout
  | error
  deriving DecidableEq, Repr

/-- The result of `rcl_take`; only `RCL_RET_OK` fills `data`. -/
inductive TakeOutcome (Message : Type) where
  | ok (message : Message)
  | error
  deriving DecidableEq, Repr

/-- What the middleware returns in one turn of the loop, if it is asked. -/
structure Turn (Message : Type) where
  wait : WaitOutcome
  take : TakeOutcome Message
  deriving DecidableEq, Repr

/-- The calls a subscriber makes, with their results. -/
inductive Action (Message : Type) where
  | wait (timeoutNs : Int64) (outcome : WaitOutcome)
  | take (outcome : TakeOutcome Message)
  | callback (data : Message)
  deriving DecidableEq, Repr

variable {Message : Type}

/-- Whether the entry of the wait set is non-null after `rcl_wait`. -/
def entryAfterWait (entry : Bool) : WaitOutcome → Bool
  | .ok ready => entry && ready
  | .timeout => false
  | .error => entry

/-- The content of `data` after `rcl_take`. -/
def TakeOutcome.fill (data : Message) : TakeOutcome Message → Message
  | .ok message => message
  | .error => data

variable (callback : Message → Message)

/-- The body of the loop, and all of `spin_once`. The callback may change `data` in place. -/
def loopBody (timeoutNs : Int64) (data : Message) (turn : Turn Message) :
    List (Action Message) × Message :=
  -- `rcl_wait_set_clear` and `rcl_wait_set_add_subscription` leave the entry non-null
  let entry := entryAfterWait true turn.wait
  if turn.wait = .timeout then ([.wait timeoutNs turn.wait], data)
  else if entry then
    -- the result of `rcl_take` is assigned to `ret` and not read
    let data := turn.take.fill data
    ([.wait timeoutNs turn.wait, .take turn.take, .callback data], callback data)
  else ([.wait timeoutNs turn.wait], data)

/-- The loop of `spin`, up to its return or to the end of the given turns. -/
def spinFrom (timeoutNs : Int64) (data : Message) : List (Turn Message) → List (Action Message)
  | [] => []
  | turn :: turns =>
    let body := loopBody callback timeoutNs data turn
    if turn.wait = .timeout then body.1 else body.1 ++ spinFrom timeoutNs body.2 turns

variable [Inhabited Message]

/-- A message starts with all fields zero. -/
def spin (timeoutNs : Int64) (turns : List (Turn Message)) : List (Action Message) :=
  spinFrom callback timeoutNs default turns

def spinOnce (timeoutNs : Int64) (turn : Turn Message) : List (Action Message) :=
  (loopBody callback timeoutNs default turn).1

/-- A call on the subscriber with the results it meets. -/
inductive Call (Message : Type) where
  | spin (timeoutNs : Int64) (turns : List (Turn Message))
  | spinOnce (timeoutNs : Int64) (turn : Turn Message)
  deriving DecidableEq, Repr

def Call.actions : Call Message → List (Action Message)
  | .spin timeoutNs turns => RclPubsub.spin callback timeoutNs turns
  | .spinOnce timeoutNs turn => RclPubsub.spinOnce callback timeoutNs turn

/-- The trace of any number of calls. -/
def session (calls : List (Call Message)) : List (Action Message) :=
  calls.flatMap (Call.actions callback)

end LayerPingPong.RclPubsub
