import Mathlib.Algebra.Order.Ring.Int
import Mathlib.Data.List.Basic

/-!
# The rmw subscriber

`RmwSubscriber::spin` and `RmwSubscriber::spin_once` as functions of what `rmw_wait` and
`rmw_take_with_info` return. `spin_once` puts the subscription into `subscribers[0]` before its only
wait. `spin` does so before its loop, and an entry that `rmw_wait` has replaced by `NULL` stays
there for the following waits.
-/

namespace LayerPingPong.RmwPubsub

/-- `rmw_time_t`. -/
structure RmwTime where
  sec : UInt64
  nsec : UInt64
  deriving DecidableEq, Repr

/-- The result of `rmw_wait`; `RMW_RET_OK` says whether it kept `subscribers[0]`. An error comes
with the text of `rmw_get_error_string`. -/
inductive WaitOutcome where
  | ok (kept : Bool)
  | timeout
  | error (text : String)
  deriving DecidableEq, Repr

/-- The result of `rmw_take_with_info`; `RMW_RET_OK` comes with the message if `taken` is true. -/
inductive TakeOutcome (Message : Type) where
  | ok (taken : Option Message)
  | error (text : String)
  deriving DecidableEq, Repr

/-- What the middleware returns in one turn of the loop, if it is asked. -/
structure Turn (Message : Type) where
  wait : WaitOutcome
  take : TakeOutcome Message
  deriving DecidableEq, Repr

/-- The calls a subscriber makes, with their results. A wait is given `subscribers[0]`, of which
only matters whether it is non-null, and `wait_timeout_`. -/
inductive Action (Message : Type) where
  | wait (entry : Bool) (timeout : RmwTime) (outcome : WaitOutcome)
  | take (outcome : TakeOutcome Message)
  | callback (data : Message)
  | print (line : String)
  deriving DecidableEq, Repr

variable {Message : Type}

/-- `wait_timeout_` for a timeout of type `std::chrono::nanoseconds`. -/
def waitTimeout (timeout : Int64) : RmwTime where
  sec := (timeout / 1000000000).toUInt64
  nsec := timeout.toUInt64

/-- The actions of one turn, whether it has left the function, and what it leaves in
`subscribers[0]` and `data`. -/
structure Body (Message : Type) where
  actions : List (Action Message)
  returned : Bool
  entry : Bool
  data : Message
  deriving DecidableEq, Repr

variable (callback : Message → Message)

/-- The body of the loop, and the end of `spin_once`. The callback may change `data` in place. -/
def loopBody (entry : Bool) (timeout : RmwTime) (data : Message) (turn : Turn Message) :
    Body Message :=
  let wait := Action.wait entry timeout turn.wait
  match turn.wait with
  | .ok kept =>
    if entry && kept then
      match turn.take with
      | .ok taken =>
        -- `taken` is not read
        let data := taken.getD data
        ⟨[wait, .take turn.take, .callback data], false, true, callback data⟩
      | .error text =>
        ⟨[wait, .take turn.take, .print ("rmw_take_with_info fail: " ++ text)], true, true, data⟩
    else ⟨[wait, .print "unknown fired!?"], false, false, data⟩
  | .timeout => ⟨[wait], true, entry, data⟩
  | .error text => ⟨[wait, .print ("rmw_wait fail: " ++ text)], true, entry, data⟩

/-- The loop of `spin`, up to its return or to the end of the given turns. -/
def spinFrom (entry : Bool) (timeout : RmwTime) (data : Message) :
    List (Turn Message) → List (Action Message)
  | [] => []
  | turn :: turns =>
    let body := loopBody callback entry timeout data turn
    if body.returned then body.actions
    else body.actions ++ spinFrom body.entry timeout body.data turns

variable [Inhabited Message]

/-- A message starts with all fields zero. -/
def spin (timeout : Int64) (turns : List (Turn Message)) : List (Action Message) :=
  spinFrom callback true (waitTimeout timeout) default turns

def spinOnce (timeout : Int64) (turn : Turn Message) : List (Action Message) :=
  (loopBody callback true (waitTimeout timeout) default turn).actions

/-- A call on the subscriber with the results it meets. -/
inductive Call (Message : Type) where
  | spin (timeout : Int64) (turns : List (Turn Message))
  | spinOnce (timeout : Int64) (turn : Turn Message)
  deriving DecidableEq, Repr

def Call.actions : Call Message → List (Action Message)
  | .spin timeout turns => RmwPubsub.spin callback timeout turns
  | .spinOnce timeout turn => RmwPubsub.spinOnce callback timeout turn

/-- The trace of any number of calls. -/
def session (calls : List (Call Message)) : List (Action Message) :=
  calls.flatMap (Call.actions callback)

end LayerPingPong.RmwPubsub
