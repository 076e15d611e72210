import LayerPingPong.Base.Simulation
import LayerPingPong.FastrtpsPubsub.TypeSupport
import LayerPingPong.TwoWay.Exchange

/-!
# Ping against pong over bytes

In the fastrtps layer a topic carries the bytes that the type support writes. `publish` gives up
where `write` fails, and `spin` and `spin_once` return where `takeNextData` fails. `spin` reads all
pings into one variable, which still holds the last one as its callback has left it. None of this
shows: event by event, the two processes do over bytes what they do over messages.
-/

namespace LayerPingPong.TwoWay

open Checked Codec FastrtpsPubsub TransitionSystem

variable {Format : Type}

/-- `Publisher::write` makes the bytes of a message, and `Subscriber::takeNextData` reads bytes into
a message that is there before. -/
structure Transport where
  write : Data → Option (List UInt8)
  takeNextData : List UInt8 → Data → Option Data

/-- Both give the type support a new object of fastcdr: `write` one with room for the estimated
size, and `takeNextData` one on the bytes of a message. -/
structure Transport.UsesTypeSupport (transport : Transport) (cdr : Fastcdr Format)
    (callbacks : Callbacks Format Data) : Prop where
  write : ∀ message, ∃ format, cdr.Fresh format ∧ ∀ bytes after,
    Writes ((MyMessageTypeSupport.construct callbacks).serializeROSmessage cdr message callbacks)
      format bytes true after →
    bytes.length ≤ (MyMessageTypeSupport.construct callbacks).getEstimatedSerializedSize message
      callbacks → transport.write message = some bytes
  takeNextData : ∀ bytes old, ∃ format, cdr.Fresh format ∧ ∀ message last,
    Reads ((MyMessageTypeSupport.construct callbacks).deserializeROSmessage cdr old callbacks)
      format bytes (true, message) last → transport.takeNextData bytes old = some message

/-- The processes with their topics, and the variable `data` of `spin`. The topics of the processes
themselves are not used. -/
structure WireState where
  processes : State
  pings : Channel (List UInt8)
  replies : Channel (List UInt8)
  data : Data

section Step

variable (transport : Transport) (params : RtParams)

/-- A step that touches no topic. -/
def WireState.local (state : WireState) (event : Event) : Option WireState :=
  (step params state.processes event).map fun processes ↦ { state with processes }

def wireStep (state : WireState) : Event → Option WireState
  | .publishPing =>
    match state.processes.ping with
    | .stamped clock =>
      let sent := { state.processes with ping := .waiting state.processes.now }
      match transport.write state.processes.message with
      | some bytes => some { state with
          processes := { sent with sendClocks := sent.sendClocks ++ [clock] }
          pings := state.pings.publish bytes }
      -- cannot publish data
      | none => some { state with processes := sent }
    | _ => none
  | .takeReply index =>
    match state.processes.ping, state.replies.take index with
    | .waiting _, some (bytes, replies) =>
      -- `data` is a new variable in every call of `spin_once`
      match transport.takeNextData bytes default with
      | some reply => some { state with
          processes := { state.processes with ping := .taken reply }
          replies }
      | none =>
        (state.processes.nextIteration params).map fun processes ↦ { state with processes, replies }
    | _, _ => none
  | .takePing index =>
    match state.processes.pong, state.pings.take index with
    | .waiting _, some (bytes, pings) =>
      match transport.takeNextData bytes state.data with
      | some message => some { state with
          processes := { state.processes with pong := .taken message }
          pings
          data := message }
      | none => some { state with
          processes := { state.processes with pong := .returned }
          pings }
    | _, _ => none
  | .stampReply =>
    (state.local params .stampReply).map fun next ↦ { next with
      data := { state.data with timeSentPongNs := stamp state.processes.now } }
  | .publishReply =>
    match state.processes.pong with
    | .stamped message clock =>
      let sent := { state.processes with pong := .published message clock }
      match transport.write message with
      | some bytes => some { state with
          processes := { sent with replyClocks := sent.replyClocks ++ [clock] }
          replies := state.replies.publish bytes }
      | none => some { state with processes := sent }
    | _ => none
  | .losePing index => (state.pings.drop index).map fun pings ↦ { state with pings }
  | .loseReply index => (state.replies.drop index).map fun replies ↦ { state with replies }
  | .tick now => state.local params (.tick now)
  | .wake => state.local params .wake
  | .pingCallback => state.local params .pingCallback
  | .pingTimeout => state.local params .pingTimeout
  | .addLatency => state.local params .addLatency
  | .pongTimeout => state.local params .pongTimeout

/-- The members of a new `data` are zero. -/
def WireState.start (now wakeAt : ℕ) : WireState where
  processes := .start params now wakeAt
  pings := .empty
  replies := .empty
  data := default

/-- All interleavings, delays and losses over bytes. -/
def wireExchange (now wakeAt : ℕ) : System WireState Event where
  initial state := state = .start params now wakeAt
  step := wireStep transport params

end Step

/-! ## A message survives its bytes -/

/-- Every message can be written, and is read from its bytes whatever was there before. -/
def Transport.Lossless (transport : Transport) : Prop :=
  ∀ message, ∃ bytes, transport.write message = some bytes ∧
    ∀ old, transport.takeNextData bytes old = some message

section Lossless

variable {transport : Transport} {cdr : Fastcdr Format} {callbacks : Callbacks Format Data}

/-- Two messages differ, so that the type is not empty. -/
theorem hasData_of_lawful (hcdr : cdr.Symmetric) (hlawful : callbacks.Lawful cdr)
    (hmax : (callbacks.maxSerializedSize true).1 + 5 < 2 ^ 32) {format : Format}
    (hformat : cdr.Fresh format) : (MyMessageTypeSupport.construct callbacks).hasData = true := by
  by_contra hnot
  rw [Bool.not_eq_true, MyMessageTypeSupport.construct_hasData_eq_false_iff hmax] at hnot
  have heq := hlawful.eq_of_size_zero hcdr hformat hnot.1 hnot.2 ⟨0, 0, 0⟩ ⟨0, 0, 1⟩
  exact absurd heq (by decide)

theorem Transport.UsesTypeSupport.lossless (h : transport.UsesTypeSupport cdr callbacks)
    (hcdr : cdr.Symmetric) (hlawful : callbacks.Lawful cdr)
    (hmax : (callbacks.maxSerializedSize true).1 + 5 < 2 ^ 32) : transport.Lossless := by
  intro message
  obtain ⟨format, hformat, hwrite⟩ := h.write message
  have hdata := hasData_of_lawful hcdr hlawful hmax hformat
  obtain ⟨header, between, hfour, hheader, hread⟩ := hcdr.header format hformat
  obtain ⟨bytes, after, last, hlength, hbytes, hmessage⟩ :=
    hlawful.undoes message format header between hformat hheader
  apply Exists.intro (header ++ bytes)
  constructor
  · apply hwrite _ after (MyMessageTypeSupport.serialize_of_hasData hdata hheader hbytes)
    rw [List.length_append, hfour, hlength]
    exact MyMessageTypeSupport.size_le_estimate hlawful hmax message
  · intro old
    obtain ⟨other, hother, htake⟩ := h.takeNextData (header ++ bytes) old
    exact htake message last
      (MyMessageTypeSupport.deserialize_of_hasData hdata (hread other hother) (hmessage old))

end Lossless

/-! ## The same run over messages -/

/-- Bytes on a topic stand for the message they were written for. -/
def Transport.Carries (transport : Transport) (bytes : List UInt8) (message : Data) : Prop :=
  transport.write message = some bytes

theorem Transport.Lossless.takeNextData {transport : Transport} (h : transport.Lossless)
    {bytes : List UInt8} {message : Data} (hcarries : transport.Carries bytes message)
    (old : Data) : transport.takeNextData bytes old = some message := by
  obtain ⟨bytes', hwrite, hread⟩ := h message
  obtain rfl : bytes' = bytes := Option.some.inj (hwrite.symm.trans hcarries)
  exact hread old

def State.withTopics (state : State) (pings replies : Channel Data) : State :=
  { state with pings, replies }

/-- The processes are in the same state, and the topics carry the same messages. -/
structure Represents (transport : Transport) (state : WireState) (other : State) : Prop where
  processes : other = state.processes.withTopics other.pings other.replies
  pings : state.pings.Corresponds transport.Carries other.pings
  replies : state.replies.Corresponds transport.Carries other.replies

/-- The events of one process alone. -/
def Event.isLocal : Event → Bool
  | .tick _ | .wake | .pingCallback | .pingTimeout | .stampReply | .addLatency | .pongTimeout => true
  | _ => false

theorem nextIteration_withTopics (params : RtParams) (state : State)
    (pings replies : Channel Data) :
    (state.withTopics pings replies).nextIteration params =
      (state.nextIteration params).map (·.withTopics pings replies) := by
  unfold State.nextIteration State.withTopics
  dsimp only
  cases increment state.iteration <;> rfl

/-- Such an event neither reads nor changes the topics. -/
theorem step_withTopics (params : RtParams) (state : State) (pings replies : Channel Data)
    {event : Event} (hlocal : event.isLocal = true) :
    step params (state.withTopics pings replies) event =
      (step params state event).map (·.withTopics pings replies) := by
  cases event with
  | tick now =>
    by_cases hnow : state.now ≤ now
    · simp [step, State.withTopics, hnow]
    · simp [step, State.withTopics, hnow]
  | wake =>
    dsimp only [step, State.withTopics]
    cases state.ping <;> cases increment state.count <;> rfl
  | pingCallback =>
    dsimp only [step, State.withTopics]
    cases state.ping with
    | taken reply =>
      exact nextIteration_withTopics params { state with
        ping := .taken reply
        pingSamples := state.pingSamples ++
          [⟨state.now, latency (timespecToUint64 state.now) reply⟩] } pings replies
    | _ => rfl
  | pingTimeout =>
    dsimp only [step, State.withTopics]
    cases state.ping with
    | waiting since =>
      exact nextIteration_withTopics params { state with
        ping := .waiting since
        timeouts := state.timeouts + 1 } pings replies
    | _ => rfl
  | stampReply | addLatency | pongTimeout =>
    dsimp only [step, State.withTopics]
    cases state.pong <;> rfl
  | publishPing | takeReply | takePing | publishReply | losePing | loseReply => cases hlocal

section LockStep

variable {transport : Transport} (params : RtParams) {state : WireState} {other : State}

theorem Represents.local (h : Represents transport state other) {event : Event}
    (hlocal : event.isLocal = true) :
    Option.Rel (Represents transport) (state.local params event) (step params other event) := by
  rw [h.processes, step_withTopics params _ _ _ hlocal, WireState.local]
  cases step params state.processes event with
  | none => exact .none
  | some next => exact .some ⟨rfl, h.pings, h.replies⟩

theorem Represents.publishPing (h : Represents transport state other)
    (hlossless : transport.Lossless) :
    Option.Rel (Represents transport) (wireStep transport params state .publishPing)
      (step params other .publishPing) := by
  obtain ⟨bytes, hwrite, -⟩ := hlossless state.processes.message
  rw [h.processes]
  dsimp only [wireStep, step, State.withTopics]
  cases state.processes.ping with
  | stamped clock =>
    simp only [hwrite]
    exact .some ⟨rfl, h.pings.publish hwrite, h.replies⟩
  | _ => exact .none

theorem Represents.publishReply (h : Represents transport state other)
    (hlossless : transport.Lossless) :
    Option.Rel (Represents transport) (wireStep transport params state .publishReply)
      (step params other .publishReply) := by
  rw [h.processes]
  dsimp only [wireStep, step, State.withTopics]
  cases state.processes.pong with
  | stamped message clock =>
    obtain ⟨bytes, hwrite, -⟩ := hlossless message
    simp only [hwrite]
    exact .some ⟨rfl, h.pings, h.replies.publish hwrite⟩
  | _ => exact .none

theorem Represents.takeReply (h : Represents transport state other)
    (hlossless : transport.Lossless) (index : ℕ) :
    Option.Rel (Represents transport) (wireStep transport params state (.takeReply index))
      (step params other (.takeReply index)) := by
  rw [h.processes]
  dsimp only [wireStep, step, State.withTopics]
  have htake := h.replies.take index
  generalize state.replies.take index = taken at htake ⊢
  generalize other.replies.take index = taken' at htake ⊢
  cases state.processes.ping with
  | waiting since =>
    cases htake with
    | none => exact .none
    | some hpair =>
      simp only [hlossless.takeNextData hpair.1]
      exact .some ⟨rfl, h.pings, hpair.2⟩
  | _ => exact .none

theorem Represents.takePing (h : Represents transport state other)
    (hlossless : transport.Lossless) (index : ℕ) :
    Option.Rel (Represents transport) (wireStep transport params state (.takePing index))
      (step params other (.takePing index)) := by
  rw [h.processes]
  dsimp only [wireStep, step, State.withTopics]
  have htake := h.pings.take index
  generalize state.pings.take index = taken at htake ⊢
  generalize other.pings.take index = taken' at htake ⊢
  cases state.processes.pong with
  | waiting since =>
    cases htake with
    | none => exact .none
    | some hpair =>
      simp only [hlossless.takeNextData hpair.1]
      exact .some ⟨rfl, hpair.2, h.replies⟩
  | _ => exact .none

theorem Represents.stampReply (h : Represents transport state other) :
    Option.Rel (Represents transport) (wireStep transport params state .stampReply)
      (step params other .stampReply) := by
  have hlocal := h.local params (show Event.isLocal .stampReply = true from rfl)
  unfold wireStep
  generalize state.local params .stampReply = next at hlocal ⊢
  generalize step params other .stampReply = next' at hlocal ⊢
  cases hlocal with
  | none => exact .none
  | some hnext => exact .some ⟨hnext.processes, hnext.pings, hnext.replies⟩

theorem Represents.lose (h : Represents transport state other) (index : ℕ) :
    Option.Rel (Represents transport) (wireStep transport params state (.losePing index))
        (step params other (.losePing index)) ∧
      Option.Rel (Represents transport) (wireStep transport params state (.loseReply index))
        (step params other (.loseReply index)) := by
  have hpings := h.pings.drop index
  have hreplies := h.replies.drop index
  rw [h.processes]
  dsimp only [wireStep, step, State.withTopics]
  constructor
  · generalize state.pings.drop index = next at hpings ⊢
    generalize other.pings.drop index = next' at hpings ⊢
    cases hpings with
    | none => exact .none
    | some hnext => exact .some ⟨rfl, hnext, h.replies⟩
  · generalize state.replies.drop index = next at hreplies ⊢
    generalize other.replies.drop index = next' at hreplies ⊢
    cases hreplies with
    | none => exact .none
    | some hnext => exact .some ⟨rfl, h.pings, hnext⟩

theorem lockStep_wireExchange (hlossless : transport.Lossless) (now wakeAt : ℕ) :
    (wireExchange transport params now wakeAt).LockStep (exchange params now wakeAt)
      (Represents transport) := by
  intro state other event h
  change Option.Rel _ (wireStep transport params state event) (step params other event)
  cases event with
  | publishPing => exact h.publishPing params hlossless
  | publishReply => exact h.publishReply params hlossless
  | takeReply index => exact h.takeReply params hlossless index
  | takePing index => exact h.takePing params hlossless index
  | stampReply => exact h.stampReply params
  | losePing index => exact (h.lose params index).1
  | loseReply index => exact (h.lose params index).2
  | tick | wake | pingCallback | pingTimeout | addLatency | pongTimeout => exact h.local params rfl

theorem represents_start (transport : Transport) (now wakeAt : ℕ) :
    Represents transport (.start params now wakeAt) (.start params now wakeAt) where
  processes := rfl
  pings := Channel.corresponds_empty transport.Carries
  replies := Channel.corresponds_empty transport.Carries

end LockStep

/-- Over bytes the same schedules can be run as over messages, and they leave the processes, with
all latencies added, in the same state. -/
theorem wireExchange_run {transport : Transport} {cdr : Fastcdr Format}
    {callbacks : Callbacks Format Data} (h : transport.UsesTypeSupport cdr callbacks)
    (hcdr : cdr.Symmetric) (hlawful : callbacks.Lawful cdr)
    (hmax : (callbacks.maxSerializedSize true).1 + 5 < 2 ^ 32) (params : RtParams)
    (now wakeAt : ℕ) (events : List Event) :
    Option.Rel (Represents transport)
      ((wireExchange transport params now wakeAt).run (.start params now wakeAt) events)
      ((exchange params now wakeAt).run (.start params now wakeAt) events) := by
  have hlossless := h.lossless hcdr hlawful hmax
  exact (lockStep_wireExchange params hlossless now wakeAt).run
    (represents_start params transport now wakeAt) events

/-! ## Three numbers of eight bytes -/

/-- The bytes of a field of type `int64`, in the order of the format. -/
def int64Bytes (format : Endianness) (value : Int64) : List UInt8 :=
  let bytes := littleEndian 8 value.toUInt64.toNat
  if format = .little then bytes else bytes.reverse

def writeInt64 (value : Int64) : Serializer Endianness Unit := do
  writeBytes (int64Bytes (← get).format value)

def readInt64 : Deserializer Endianness Int64 := do
  let bytes ← readBytes 8
  let bytes := if (← get).format = .little then bytes else bytes.reverse
  return (UInt64.ofNat (ofLittleEndian bytes)).toInt64

theorem length_int64Bytes (format : Endianness) (value : Int64) :
    (int64Bytes format value).length = 8 := by
  unfold int64Bytes
  split
  · exact length_littleEndian 8 _
  · rw [List.length_reverse, length_littleEndian]

theorem writes_int64 (format : Endianness) (value : Int64) :
    Writes (writeInt64 value) format (int64Bytes format value) () format := by
  intro written
  exact Writes.bytes format (int64Bytes format value) written

theorem reads_int64 (format : Endianness) (value : Int64) :
    Reads readInt64 format (int64Bytes format value) value format := by
  have hbytes := Reads.bytes format (int64Bytes format value)
  rw [length_int64Bytes] at hbytes
  have hvalue : (UInt64.ofNat (ofLittleEndian (if format = .little then int64Bytes format value
      else (int64Bytes format value).reverse))).toInt64 = value := by
    have hlt : value.toUInt64.toNat < 256 ^ 8 := value.toUInt64.toNat_lt
    have hnumber := ofLittleEndian_littleEndian hlt
    cases format with
    | little => simp [int64Bytes, hnumber]
    | big => simp [int64Bytes, hnumber]
  have hrest : Reads (do
      let bytes := if (← get).format = .little then int64Bytes format value
        else (int64Bytes format value).reverse
      return (UInt64.ofNat (ofLittleEndian bytes)).toInt64) format [] value format := by
    intro rest
    exact congrArg (fun result ↦ some (result, (⟨format, rest⟩ : Reader Endianness))) hvalue
  rw [← List.append_nil (int64Bytes format value)]
  exact hbytes.bind hrest

/-- The callbacks of `message::msg::Data`, with the fields in the order of its definition. -/
def dataCallbacks : Callbacks Endianness Data where
  messageNamespace := "message::msg"
  messageName := "Data"
  cdrSerialize message := do
    writeInt64 message.timeSentNs
    writeInt64 message.timeSentPongNs
    writeInt64 message.data
    return true
  cdrDeserialize _old := do
    let timeSentNs ← readInt64
    let timeSentPongNs ← readInt64
    let data ← readInt64
    return (true, ⟨timeSentNs, timeSentPongNs, data⟩)
  getSerializedSize _message := 24
  maxSerializedSize fullBounded := (24, fullBounded)

theorem dataCallbacks_lawful : dataCallbacks.Lawful endianCdr where
  undoes message _ _ format _ _ := by
    apply Exists.intro (int64Bytes format message.timeSentNs ++
      (int64Bytes format message.timeSentPongNs ++ (int64Bytes format message.data ++ [])))
    refine ⟨format, format, ?_, ?_, fun old ↦ ?_⟩
    · simp [length_int64Bytes, dataCallbacks]
    · apply (writes_int64 format message.timeSentNs).bind
      apply (writes_int64 format message.timeSentPongNs).bind
      exact (writes_int64 format message.data).bind (.pure format true)
    · apply (reads_int64 format message.timeSentNs).bind
      apply (reads_int64 format message.timeSentPongNs).bind
      exact (reads_int64 format message.data).bind (.pure format (true, message))
  bound _ _ := Nat.le_refl 24

/-- A writer and a reader of fastcdr in little-endian order, as `write` and `takeNextData` make them
on a little-endian machine. -/
def dataTransport : Transport where
  write message :=
    let support := MyMessageTypeSupport.construct dataCallbacks
    let (written, ser) := (support.serializeROSmessage endianCdr message dataCallbacks).run
      ⟨.little, []⟩
    if written && decide (ser.written.length ≤
      support.getEstimatedSerializedSize message dataCallbacks) then some ser.written else none
  takeNextData bytes old :=
    match ((MyMessageTypeSupport.construct dataCallbacks).deserializeROSmessage endianCdr old
      dataCallbacks).run ⟨.little, bytes⟩ with
    | some ((true, message), _) => some message
    | _ => none

theorem dataTransport_usesTypeSupport :
    dataTransport.UsesTypeSupport endianCdr dataCallbacks where
  write message := by
    refine ⟨.little, trivial, fun bytes after hwrites hle ↦ ?_⟩
    have hrun := hwrites []
    rw [List.nil_append] at hrun
    simp [dataTransport, hrun, hle]
  takeNextData bytes old := by
    refine ⟨.little, trivial, fun message last hreads ↦ ?_⟩
    have hrun := hreads []
    rw [List.append_nil] at hrun
    simp [dataTransport, hrun]

/-- One ping and its reply over bytes. -/
theorem wireExchange_run_data :
    ((exchange ⟨1, 0⟩ 0 0).run (.start ⟨1, 0⟩ 0 0)
        [.wake, .publishPing, .takePing 0, .tick 5, .stampReply, .publishReply, .addLatency,
          .takeReply 0, .tick 9, .pingCallback]).isSome = true ∧
      Option.Rel (Represents dataTransport)
        ((wireExchange dataTransport ⟨1, 0⟩ 0 0).run (.start ⟨1, 0⟩ 0 0)
          [.wake, .publishPing, .takePing 0, .tick 5, .stampReply, .publishReply, .addLatency,
            .takeReply 0, .tick 9, .pingCallback])
        ((exchange ⟨1, 0⟩ 0 0).run (.start ⟨1, 0⟩ 0 0)
          [.wake, .publishPing, .takePing 0, .tick 5, .stampReply, .publishReply, .addLatency,
            .takeReply 0, .tick 9, .pingCallback]) :=
  ⟨by decide, wireExchange_run dataTransport_usesTypeSupport endianCdr_symmetric
    dataCallbacks_lawful (by decide) ⟨1, 0⟩ 0 0 _⟩

end LayerPingPong.TwoWay
