import LayerPingPong.Base.Channel
import LayerPingPong.Base.Checked
import LayerPingPong.Base.TransitionSystem
import LayerPingPong.TwoWay.Message

/-!
# Ping against pong

The send loop of `ping` and the `spin` of `pong` with their callbacks, connected by the topics
`/ping` and `/pong`. One monotonic clock serves both processes. `spin_once` hands over one reply or
times out, and `spin` hands over pings until it times out. Which message is taken, lost or late, and
when a sleep or a wait ends, is up to the events: the steps record the times and do not check them.
-/

namespace LayerPingPong.TwoWay

open Checked TransitionSystem

/-- The real-time parameters that `ping` reads. -/
structure RtParams where
  iterations : ℕ
  updatePeriod : ℕ
  deriving DecidableEq, Repr

/-- The timeout of `spin` and `spin_once`, in both processes. -/
def spinTimeout : ℕ := 3000000000

/-- The next statement of the send loop. -/
inductive PingPc where
  | sleeping (wakeAt : ℕ)
  | stamped (clock : ℕ)
  | waiting (since : ℕ)
  | taken (reply : Data)
  | finished
  deriving DecidableEq, Repr

/-- The next statement of `spin` and the callback in `pong`. -/
inductive PongPc where
  | waiting (since : ℕ)
  | taken (message : Data)
  | stamped (message : Data) (clock : ℕ)
  | published (message : Data) (clock : ℕ)
  | returned
  deriving DecidableEq, Repr

/-- A latency that a callback has added to the reports, with the clock reading it comes from. -/
structure Sample where
  receiveClock : ℕ
  latency : UInt64
  deriving DecidableEq, Repr

/-- Both processes and the two topics. `sendClocks` and `replyClocks` record the clock readings that
the pings and replies carry, and `timeouts` the number of `spin_once` calls that have timed out. -/
structure State where
  now : ℕ
  pings : Channel Data
  replies : Channel Data
  ping : PingPc
  iteration : Int32
  count : Int32
  message : Data
  pingSamples : List Sample
  pong : PongPc
  pongSamples : List Sample
  sendClocks : List ℕ
  replyClocks : List ℕ
  timeouts : ℕ

inductive Event where
  | tick (now : ℕ)
  /-- The sleep ends and `msg` gets its number and time. -/
  | wake
  | publishPing
  | takeReply (index : ℕ)
  | pingCallback
  | pingTimeout
  | takePing (index : ℕ)
  /-- The callback of `pong` reads the clock. -/
  | stampReply
  | publishReply
  | addLatency
  | pongTimeout
  | losePing (index : ℕ)
  | loseReply (index : ℕ)
  deriving DecidableEq, Repr

variable (params : RtParams)

/-- The head of the send loop: the test, then the sleep. -/
def State.loopHead (state : State) : PingPc :=
  if state.iteration.toInt < params.iterations then .sleeping (state.now + params.updatePeriod)
  else .finished

/-- The end of one turn of the send loop. -/
def State.nextIteration (state : State) : Option State :=
  match increment state.iteration with
  | .ok iteration => some { state with
      iteration
      ping := { state with iteration }.loopHead params }
  | .error _ => none

/-- The static counters of the callbacks are left out, as nothing reads them. -/
def step (state : State) : Event → Option State
  | .tick now => if state.now ≤ now then some { state with now } else none
  | .wake =>
    match state.ping, increment state.count with
    | .sleeping _, .ok count =>
      some { state with
        ping := .stamped state.now
        count
        message := { state.message with
          data := state.count.toInt64
          timeSentNs := stamp state.now } }
    | _, _ => none
  | .publishPing =>
    match state.ping with
    | .stamped clock =>
      some { state with
        ping := .waiting state.now
        pings := state.pings.publish state.message
        sendClocks := state.sendClocks ++ [clock] }
    | _ => none
  | .takeReply index =>
    match state.ping, state.replies.take index with
    | .waiting _, some (reply, replies) => some { state with ping := .taken reply, replies }
    | _, _ => none
  | .pingCallback =>
    match state.ping with
    | .taken reply =>
      State.nextIteration params { state with
        pingSamples := state.pingSamples ++
          [⟨state.now, latency (timespecToUint64 state.now) reply⟩] }
    | _ => none
  | .pingTimeout =>
    match state.ping with
    | .waiting _ => State.nextIteration params { state with timeouts := state.timeouts + 1 }
    | _ => none
  | .takePing index =>
    match state.pong, state.pings.take index with
    | .waiting _, some (message, pings) => some { state with pong := .taken message, pings }
    | _, _ => none
  | .stampReply =>
    match state.pong with
    | .taken message =>
      some { state with
        pong := .stamped { message with timeSentPongNs := stamp state.now } state.now }
    | _ => none
  | .publishReply =>
    match state.pong with
    | .stamped message clock =>
      some { state with
        pong := .published message clock
        replies := state.replies.publish message
        replyClocks := state.replyClocks ++ [clock] }
    | _ => none
  | .addLatency =>
    match state.pong with
    | .published message clock =>
      some { state with
        pong := .waiting state.now
        pongSamples := state.pongSamples ++ [⟨clock, latency (timespecToUint64 clock) message⟩] }
    | _ => none
  | .pongTimeout =>
    match state.pong with
    | .waiting _ => some { state with pong := .returned }
    | _ => none
  | .losePing index => (state.pings.drop index).map fun pings ↦ { state with pings }
  | .loseReply index => (state.replies.drop index).map fun replies ↦ { state with replies }

/-- What each step requires and does. -/
inductive Transition (state : State) : Event → State → Prop where
  | tick {now : ℕ} : state.now ≤ now → Transition state (.tick now) { state with now }
  | wake {wakeAt : ℕ} {count : Int32} : state.ping = .sleeping wakeAt →
      increment state.count = .ok count →
      Transition state .wake { state with
        ping := .stamped state.now
        count
        message := { state.message with
          data := state.count.toInt64
          timeSentNs := stamp state.now } }
  | publishPing {clock : ℕ} : state.ping = .stamped clock →
      Transition state .publishPing { state with
        ping := .waiting state.now
        pings := state.pings.publish state.message
        sendClocks := state.sendClocks ++ [clock] }
  | takeReply {index since : ℕ} {reply : Data} {replies : Channel Data} :
      state.ping = .waiting since → state.replies.Took index reply replies →
      Transition state (.takeReply index) { state with ping := .taken reply, replies }
  | pingCallback {reply : Data} {iteration : Int32} : state.ping = .taken reply →
      increment state.iteration = .ok iteration →
      Transition state .pingCallback { state with
        ping := { state with iteration }.loopHead params
        iteration
        pingSamples := state.pingSamples ++
          [⟨state.now, latency (timespecToUint64 state.now) reply⟩] }
  | pingTimeout {since : ℕ} {iteration : Int32} : state.ping = .waiting since →
      increment state.iteration = .ok iteration →
      Transition state .pingTimeout { state with
        ping := { state with iteration }.loopHead params
        iteration
        timeouts := state.timeouts + 1 }
  | takePing {index since : ℕ} {message : Data} {pings : Channel Data} :
      state.pong = .waiting since → state.pings.Took index message pings →
      Transition state (.takePing index) { state with pong := .taken message, pings }
  | stampReply {message : Data} : state.pong = .taken message →
      Transition state .stampReply { state with
        pong := .stamped { message with timeSentPongNs := stamp state.now } state.now }
  | publishReply {message : Data} {clock : ℕ} : state.pong = .stamped message clock →
      Transition state .publishReply { state with
        pong := .published message clock
        replies := state.replies.publish message
        replyClocks := state.replyClocks ++ [clock] }
  | addLatency {message : Data} {clock : ℕ} : state.pong = .published message clock →
      Transition state .addLatency { state with
        pong := .waiting state.now
        pongSamples := state.pongSamples ++ [⟨clock, latency (timespecToUint64 clock) message⟩] }
  | pongTimeout {since : ℕ} : state.pong = .waiting since →
      Transition state .pongTimeout { state with pong := .returned }
  | losePing {index : ℕ} {pings : Channel Data} : state.pings.Dropped index pings →
      Transition state (.losePing index) { state with pings }
  | loseReply {index : ℕ} {replies : Channel Data} : state.replies.Dropped index replies →
      Transition state (.loseReply index) { state with replies }

theorem nextIteration_eq_some {state next : State} (h : state.nextIteration params = some next) :
    ∃ iteration, increment state.iteration = .ok iteration ∧
      next = { state with iteration, ping := { state with iteration }.loopHead params } := by
  unfold State.nextIteration at h
  split at h
  · rename_i iteration hiteration
    exact ⟨iteration, hiteration, (Option.some.inj h).symm⟩
  · cases h

theorem transition_of_step {state next : State} {event : Event}
    (h : step params state event = some next) : Transition params state event next := by
  cases event
  all_goals dsimp only [step] at h
  case tick =>
    split at h
    · rename_i hnow
      cases h
      exact .tick hnow
    · cases h
  case wake =>
    split at h
    · rename_i hpc hcount
      cases h
      exact .wake hpc hcount
    · cases h
  case publishPing =>
    split at h
    · rename_i hpc
      cases h
      exact .publishPing hpc
    · cases h
  case takeReply =>
    split at h
    · rename_i hpc htake
      cases h
      exact .takeReply hpc (Channel.took_of_take htake)
    · cases h
  case pingCallback =>
    split at h
    · rename_i hpc
      obtain ⟨iteration, hiteration, rfl⟩ := nextIteration_eq_some params h
      exact .pingCallback hpc hiteration
    · cases h
  case pingTimeout =>
    split at h
    · rename_i hpc
      obtain ⟨iteration, hiteration, rfl⟩ := nextIteration_eq_some params h
      exact .pingTimeout hpc hiteration
    · cases h
  case takePing =>
    split at h
    · rename_i hpc htake
      cases h
      exact .takePing hpc (Channel.took_of_take htake)
    · cases h
  case stampReply =>
    split at h
    · rename_i hpc
      cases h
      exact .stampReply hpc
    · cases h
  case publishReply =>
    split at h
    · rename_i hpc
      cases h
      exact .publishReply hpc
    · cases h
  case addLatency =>
    split at h
    · rename_i hpc
      cases h
      exact .addLatency hpc
    · cases h
  case pongTimeout =>
    split at h
    · rename_i hpc
      cases h
      exact .pongTimeout hpc
    · cases h
  case losePing =>
    obtain ⟨pings, hdrop, rfl⟩ := Option.map_eq_some_iff.mp h
    exact .losePing (Channel.dropped_of_drop hdrop)
  case loseReply =>
    obtain ⟨replies, hdrop, rfl⟩ := Option.map_eq_some_iff.mp h
    exact .loseReply (Channel.dropped_of_drop hdrop)

/-- Both processes are set up: `ping` enters its loop, in which the first sleep ends at `wakeAt`,
and `pong` waits in `spin`. -/
def State.start (now wakeAt : ℕ) : State where
  now := now
  pings := .empty
  replies := .empty
  ping := if 0 < params.iterations then .sleeping wakeAt else .finished
  iteration := 0
  count := 0
  message := default
  pingSamples := []
  pong := .waiting now
  pongSamples := []
  sendClocks := []
  replyClocks := []
  timeouts := 0

/-- All interleavings, delays and losses from the given start. -/
def exchange (now wakeAt : ℕ) : System State Event where
  initial state := state = .start params now wakeAt
  step := step params

end LayerPingPong.TwoWay
