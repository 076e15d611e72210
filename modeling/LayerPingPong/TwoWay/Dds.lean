import LayerPingPong.FastrtpsPubsub.Readiness
import LayerPingPong.FastrtpsPubsub.Topic
import LayerPingPong.TwoWay.Files
import LayerPingPong.TwoWay.Wire

/-!
# Ping against pong on the dds layer

Both processes with the listener and the spinning thread of each subscriber. `pong` is in `spin`
from the start, and `ping` calls `spin_once` after each ping. Every interleaving of the four threads
with the network does what some run of the exchange does, in which a message driven out of a history
is a lost one. Threads that read an unset field do not go on.
-/

namespace LayerPingPong.TwoWay

open FastrtpsPubsub TransitionSystem

/-- Both processes and the two topics. The topics of the processes themselves are not used. -/
structure DdsState where
  processes : State
  pings : Topic Data
  replies : Topic Data

inductive DdsEvent where
  /-- A statement outside `spin` and `spin_once` or in a callback, or a loss in the network. -/
  | process (event : Event)
  | arrivePing (index evicted : ℕ)
  | arriveReply (index evicted : ℕ)
  | enterSpinOnce
  /-- A step of the threads that share the subscriber of `pong`. -/
  | pong (event : FastrtpsPubsub.Event (ℕ × Data))
  /-- A step of the threads that share the subscriber of `ping`. -/
  | ping (event : FastrtpsPubsub.Event (ℕ × Data))
  deriving DecidableEq, Repr

section Step

variable (params : RtParams)

def DdsState.processStep (state : DdsState) : Event → Option DdsState
  | .publishPing =>
    match state.processes.ping with
    | .stamped clock => some { state with
        processes := { state.processes with
          ping := .waiting state.processes.now
          sendClocks := state.processes.sendClocks ++ [clock] }
        pings := state.pings.publish state.processes.message }
    | _ => none
  | .stampReply =>
    match state.pings.subscriber.spinner with
    | .calling _ => (step params state.processes .stampReply).map fun processes ↦
        { state with processes }
    | _ => none
  | .publishReply =>
    match state.processes.pong with
    | .stamped message clock => some { state with
        processes := { state.processes with
          pong := .published message clock
          replyClocks := state.processes.replyClocks ++ [clock] }
        replies := state.replies.publish message }
    | _ => none
  | .losePing index => (state.pings.lose index).map fun pings ↦ { state with pings }
  | .loseReply index => (state.replies.lose index).map fun replies ↦ { state with replies }
  | .tick now => (step params state.processes (.tick now)).map fun processes ↦
    { state with processes }
  | .wake => (step params state.processes .wake).map fun processes ↦ { state with processes }
  -- the rest of the events are steps of the threads
  | .takePing _ | .takeReply _ | .pongTimeout | .pingTimeout | .addLatency | .pingCallback => none

/-- How `pong` goes on after a step of the threads. The last statement of the callback comes with
its return. -/
def State.afterPong (state : State) : Outcome (ℕ × Data) → Option State
  | .silent => some state
  | .took sample => some { state with pong := .taken sample.2 }
  | .returned => step params state .pongTimeout
  | .called => step params state .addLatency

def State.afterPing (state : State) : Outcome (ℕ × Data) → Option State
  | .silent => some state
  | .took sample => some { state with ping := .taken sample.2 }
  | .returned => step params state .pingTimeout
  | .called => step params state .pingCallback

def ddsStep (state : DdsState) : DdsEvent → Option DdsState
  | .process event => state.processStep params event
  | .arrivePing index evicted => (state.pings.arrive index evicted).map fun pings ↦
    { state with pings }
  | .arriveReply index evicted => (state.replies.arrive index evicted).map fun replies ↦
    { state with replies }
  | .enterSpinOnce =>
    match state.processes.ping with
    | .waiting _ => (FastrtpsPubsub.step state.replies.subscriber (.enter .spinOnce)).map
        fun subscriber ↦ { state with replies := { state.replies with subscriber } }
    | _ => none
  | .pong event =>
    if event.ofThreads then
      (FastrtpsPubsub.step state.pings.subscriber event).bind fun subscriber ↦
        (state.processes.afterPong params (outcome event subscriber.spinner)).map fun processes ↦
          { state with processes, pings := { state.pings with subscriber } }
    else none
  | .ping event =>
    if event.ofThreads then
      (FastrtpsPubsub.step state.replies.subscriber event).bind fun subscriber ↦
        (state.processes.afterPing params (outcome event subscriber.spinner)).map fun processes ↦
          { state with processes, replies := { state.replies with subscriber } }
    else none

/-- Both subscribers have been constructed and have their callbacks, and no call has been made on
them before. -/
def DdsState.start (now wakeAt : ℕ) : DdsState where
  processes := .start params now wakeAt
  pings := { network := .empty, subscriber := { FastrtpsPubsub.State.allocated with
    object := .constructed
    callbackSet := true
    spinner := .entering } }
  replies := { network := .empty, subscriber := { FastrtpsPubsub.State.allocated with
    object := .constructed
    callbackSet := true
    call := .spinOnce } }

/-- All interleavings of the threads, delays and losses from the given start. -/
def dds (now wakeAt : ℕ) : System DdsState DdsEvent where
  initial state := state = .start params now wakeAt
  step := ddsStep params

end Step

/-! ## What the exchange is told -/

def pongReport : Outcome (ℕ × Data) → List Event
  | .silent => []
  | .took sample => [.takePing sample.1]
  | .returned => [.pongTimeout]
  | .called => [.addLatency]

def pingReport : Outcome (ℕ × Data) → List Event
  | .silent => []
  | .took sample => [.takeReply sample.1]
  | .returned => [.pingTimeout]
  | .called => [.pingCallback]

def ddsReport (state : DdsState) : DdsEvent → List Event
  | .process event => [event]
  | .arrivePing _ evicted => (state.pings.lost evicted).map .losePing
  | .arriveReply _ evicted => (state.replies.lost evicted).map .loseReply
  | .enterSpinOnce => []
  | .pong event => ((FastrtpsPubsub.step state.pings.subscriber event).map fun subscriber ↦
    pongReport (outcome event subscriber.spinner)).getD []
  | .ping event => ((FastrtpsPubsub.step state.replies.subscriber event).map fun subscriber ↦
    pingReport (outcome event subscriber.spinner)).getD []

/-- The topics carry what the channels of the exchange do, and a process whose thread is in a wait
waits. -/
structure Linked (state : DdsState) (pings replies : Channel Data) : Prop where
  pings : state.pings.Carries pings
  replies : state.replies.Carries replies
  pong : state.pings.subscriber.spinner.waits = true → ∃ since, state.processes.pong = .waiting since
  ping : state.replies.subscriber.spinner.waits = true →
    ∃ since, state.processes.ping = .waiting since
  pongCall : state.pings.subscriber.call = .spin
  pingCall : state.replies.subscriber.call = .spinOnce
  pongCallback : state.pings.subscriber.callbackSet = true
  pingCallback : state.replies.subscriber.callbackSet = true

theorem linked_start (params : RtParams) (now wakeAt : ℕ) :
    Linked (.start params now wakeAt) .empty .empty where
  pings := ⟨rfl, List.Perm.nil, rfl, fun _ hmem ↦ absurd hmem List.not_mem_nil⟩
  replies := ⟨rfl, List.Perm.nil, rfl, fun _ hmem ↦ absurd hmem List.not_mem_nil⟩
  pong _ := ⟨now, rfl⟩
  ping hwaits := absurd hwaits Bool.false_ne_true
  pongCall := rfl
  pingCall := rfl
  pongCallback := rfl
  pingCallback := rfl

/-! ## One step -/

section Link

variable {params : RtParams} {now wakeAt : ℕ} {state next : DdsState}
  {pings replies : Channel Data}

theorem step_local {processes processes' : State} {event : Event}
    (hstep : step params processes event = some processes') (hlocal : event.isLocal = true) :
    step params (processes.withTopics pings replies) event =
      some (processes'.withTopics pings replies) := by
  rw [step_withTopics params _ _ _ hlocal, hstep]
  rfl

theorem Linked.processStep (h : Linked state pings replies) {event : Event}
    (hstep : state.processStep params event = some next) :
    ∃ pings' replies', step params (state.processes.withTopics pings replies) event =
      some (next.processes.withTopics pings' replies') ∧ Linked next pings' replies' := by
  cases event with
  | publishPing =>
    dsimp only [DdsState.processStep] at hstep
    split at hstep
    · rename_i clock hping
      cases hstep
      refine ⟨_, replies, ?_, { h with
        pings := h.pings.publish state.processes.message
        ping := fun _ ↦ ⟨_, rfl⟩ }⟩
      simp only [step, State.withTopics, hping]
    · cases hstep
  | stampReply =>
    dsimp only [DdsState.processStep] at hstep
    split at hstep
    · rename_i sample hspinner
      obtain ⟨processes, hlocal, rfl⟩ := Option.map_eq_some_iff.mp hstep
      refine ⟨pings, replies, step_local hlocal rfl, ?_⟩
      cases transition_of_step params hlocal
      refine { h with pong := fun hwaits ↦ ?_ }
      rw [show state.pings.subscriber.spinner = _ from hspinner] at hwaits
      cases hwaits
    · cases hstep
  | publishReply =>
    dsimp only [DdsState.processStep] at hstep
    split at hstep
    · rename_i message clock hpong
      cases hstep
      refine ⟨pings, _, ?_, { h with
        replies := h.replies.publish message
        pong := fun hwaits ↦ ?_ }⟩
      · simp only [step, State.withTopics, hpong]
      · obtain ⟨since, hwaiting⟩ := h.pong hwaits
        cases hpong.symm.trans hwaiting
    · cases hstep
  | losePing index =>
    obtain ⟨topic, hlose, rfl⟩ := Option.map_eq_some_iff.mp hstep
    obtain ⟨channel, hdrop, hcarries, hsame⟩ := h.pings.lose hlose
    refine ⟨channel, replies, ?_, ?_⟩
    · simp only [step, State.withTopics, hdrop, Option.map_some]
    · exact { h with
        pings := hcarries
        pong := by rw [hsame]; exact h.pong
        pongCall := by rw [hsame]; exact h.pongCall
        pongCallback := by rw [hsame]; exact h.pongCallback }
  | loseReply index =>
    obtain ⟨topic, hlose, rfl⟩ := Option.map_eq_some_iff.mp hstep
    obtain ⟨channel, hdrop, hcarries, hsame⟩ := h.replies.lose hlose
    refine ⟨pings, channel, ?_, ?_⟩
    · simp only [step, State.withTopics, hdrop, Option.map_some]
    · exact { h with
        replies := hcarries
        ping := by rw [hsame]; exact h.ping
        pingCall := by rw [hsame]; exact h.pingCall
        pingCallback := by rw [hsame]; exact h.pingCallback }
  | tick now =>
    obtain ⟨processes, hlocal, rfl⟩ := Option.map_eq_some_iff.mp hstep
    refine ⟨pings, replies, step_local hlocal rfl, ?_⟩
    cases transition_of_step params hlocal
    exact { h with }
  | wake =>
    obtain ⟨processes, hlocal, rfl⟩ := Option.map_eq_some_iff.mp hstep
    refine ⟨pings, replies, step_local hlocal rfl, ?_⟩
    cases transition_of_step params hlocal with
    | wake hping _ =>
      refine { h with ping := fun hwaits ↦ ?_ }
      obtain ⟨since, hwaiting⟩ := h.ping hwaits
      cases hping.symm.trans hwaiting
  | takePing | takeReply | pongTimeout | pingTimeout | addLatency | pingCallback => cases hstep

/-- A step of the threads of `pong`. -/
theorem Linked.pongThreads (h : Linked state pings replies)
    {event : FastrtpsPubsub.Event (ℕ × Data)} (hthreads : event.ofThreads = true)
    {subscriber : FastrtpsPubsub.State (ℕ × Data)}
    (hstep : FastrtpsPubsub.step state.pings.subscriber event = some subscriber) {processes : State}
    (hafter : state.processes.afterPong params (outcome event subscriber.spinner) =
      some processes) :
    ∃ pings', (exchange params now wakeAt).runUnder (fun _ _ ↦ True)
        (state.processes.withTopics pings replies)
        (pongReport (outcome event subscriber.spinner)) =
      some (processes.withTopics pings' replies) ∧
    Linked { state with processes, pings := { state.pings with subscriber } } pings' replies := by
  obtain ⟨heffect, hcall, hcallback⟩ := effect_of_step hthreads h.pongCallback hstep
  generalize outcome event subscriber.spinner = result at heffect hafter ⊢
  have hcall' := hcall.trans h.pongCall
  cases hresult : result with
  | silent =>
    rw [hresult] at heffect hafter
    obtain rfl := Option.some.inj hafter
    refine ⟨pings, rfl, { h with
      pings := h.pings.stay heffect rfl
      pong := fun hnext ↦ ?_
      pongCall := hcall'
      pongCallback := hcallback }⟩
    cases heffect with
    | silent _ _ _ hwaits => exact h.pong (hwaits hnext)
  | took sample =>
    rw [hresult] at heffect hafter
    obtain rfl := Option.some.inj hafter
    obtain ⟨pings', htake, hcarries⟩ := h.pings.take heffect
    cases heffect with
    | took hwaits _ _ hspinner =>
      obtain ⟨since, hpong⟩ := h.pong hwaits
      refine ⟨pings', System.runUnder_singleton trivial ?_, { h with
        pings := hcarries
        pong := fun hnext ↦ ?_
        pongCall := hcall'
        pongCallback := hcallback }⟩
      · simp only [exchange, step, State.withTopics, hpong, htake]
      · rw [hspinner] at hnext
        cases hnext
  | returned =>
    rw [hresult] at heffect hafter
    have hlocal : step params state.processes .pongTimeout = some processes := hafter
    refine ⟨pings, System.runUnder_singleton trivial (step_local hlocal rfl), ?_⟩
    cases transition_of_step params hlocal
    refine { h with
      pings := h.pings.stay heffect rfl
      pong := fun hnext ↦ ?_
      pongCall := hcall'
      pongCallback := hcallback }
    cases heffect with
    | returned _ _ _ hspinner =>
      rw [hspinner] at hnext
      cases hnext
  | called =>
    rw [hresult] at heffect hafter
    have hlocal : step params state.processes .addLatency = some processes := hafter
    refine ⟨pings, System.runUnder_singleton trivial (step_local hlocal rfl), ?_⟩
    cases transition_of_step params hlocal
    exact { h with
      pings := h.pings.stay heffect rfl
      pong := fun _ ↦ ⟨_, rfl⟩
      pongCall := hcall'
      pongCallback := hcallback }

/-- A step of the threads of `ping`. -/
theorem Linked.pingThreads (h : Linked state pings replies)
    {event : FastrtpsPubsub.Event (ℕ × Data)} (hthreads : event.ofThreads = true)
    {subscriber : FastrtpsPubsub.State (ℕ × Data)}
    (hstep : FastrtpsPubsub.step state.replies.subscriber event = some subscriber)
    {processes : State}
    (hafter : state.processes.afterPing params (outcome event subscriber.spinner) =
      some processes) :
    ∃ replies', (exchange params now wakeAt).runUnder (fun _ _ ↦ True)
        (state.processes.withTopics pings replies)
        (pingReport (outcome event subscriber.spinner)) =
      some (processes.withTopics pings replies') ∧
    Linked { state with processes, replies := { state.replies with subscriber } } pings
      replies' := by
  obtain ⟨heffect, hcall, hcallback⟩ := effect_of_step hthreads h.pingCallback hstep
  generalize outcome event subscriber.spinner = result at heffect hafter ⊢
  have hcall' := hcall.trans h.pingCall
  cases hresult : result with
  | silent =>
    rw [hresult] at heffect hafter
    obtain rfl := Option.some.inj hafter
    refine ⟨replies, rfl, { h with
      replies := h.replies.stay heffect rfl
      ping := fun hnext ↦ ?_
      pingCall := hcall'
      pingCallback := hcallback }⟩
    cases heffect with
    | silent _ _ _ hwaits => exact h.ping (hwaits hnext)
  | took sample =>
    rw [hresult] at heffect hafter
    obtain rfl := Option.some.inj hafter
    obtain ⟨replies', htake, hcarries⟩ := h.replies.take heffect
    cases heffect with
    | took hwaits _ _ hspinner =>
      obtain ⟨since, hping⟩ := h.ping hwaits
      refine ⟨replies', System.runUnder_singleton trivial ?_, { h with
        replies := hcarries
        ping := fun hnext ↦ ?_
        pingCall := hcall'
        pingCallback := hcallback }⟩
      · simp only [exchange, step, State.withTopics, hping, htake]
      · rw [hspinner] at hnext
        cases hnext
  | returned =>
    rw [hresult] at heffect hafter
    have hlocal : step params state.processes .pingTimeout = some processes := hafter
    refine ⟨replies, System.runUnder_singleton trivial (step_local hlocal rfl), ?_⟩
    cases transition_of_step params hlocal
    refine { h with
      replies := h.replies.stay heffect rfl
      ping := fun hnext ↦ ?_
      pingCall := hcall'
      pingCallback := hcallback }
    cases heffect with
    | returned _ _ _ hspinner =>
      rw [hspinner] at hnext
      cases hnext
  | called =>
    rw [hresult] at heffect hafter
    have hlocal : step params state.processes .pingCallback = some processes := hafter
    refine ⟨replies, System.runUnder_singleton trivial (step_local hlocal rfl), ?_⟩
    cases transition_of_step params hlocal
    refine { h with
      replies := h.replies.stay heffect rfl
      ping := fun hnext ↦ ?_
      pingCall := hcall'
      pingCallback := hcallback }
    cases heffect with
    | called _ _ _ hspinner =>
      rw [hspinner, h.pingCall] at hnext
      cases hnext

/-- The exchange loses what an arrival drives out of a history. -/
theorem runUnder_losePings {processes : State} {indices : List ℕ} {pings' : Channel Data}
    (h : pings.dropAll indices = some pings') :
    (exchange params now wakeAt).runUnder (fun _ _ ↦ True) (processes.withTopics pings replies)
      (indices.map .losePing) = some (processes.withTopics pings' replies) := by
  induction indices generalizing pings with
  | nil =>
    obtain rfl : pings = pings' := Option.some.inj h
    rfl
  | cons index indices ih =>
    obtain ⟨middle, hdrop, hrest⟩ := Option.bind_eq_some_iff.mp h
    have hlose : step params (processes.withTopics pings replies) (.losePing index) =
        some (processes.withTopics middle replies) := by
      simp only [step, State.withTopics, hdrop, Option.map_some]
    exact System.runUnder_append (System.runUnder_singleton trivial hlose) (ih hrest)

theorem runUnder_loseReplies {processes : State} {indices : List ℕ} {replies' : Channel Data}
    (h : replies.dropAll indices = some replies') :
    (exchange params now wakeAt).runUnder (fun _ _ ↦ True) (processes.withTopics pings replies)
      (indices.map .loseReply) = some (processes.withTopics pings replies') := by
  induction indices generalizing replies with
  | nil =>
    obtain rfl : replies = replies' := Option.some.inj h
    rfl
  | cons index indices ih =>
    obtain ⟨middle, hdrop, hrest⟩ := Option.bind_eq_some_iff.mp h
    have hlose : step params (processes.withTopics pings replies) (.loseReply index) =
        some (processes.withTopics pings middle) := by
      simp only [step, State.withTopics, hdrop, Option.map_some]
    exact System.runUnder_append (System.runUnder_singleton trivial hlose) (ih hrest)

end Link

/-- The state of the exchange that a state of the threads stands for. -/
def StandsFor (state : DdsState) (other : State) : Prop :=
  ∃ pings replies, other = state.processes.withTopics pings replies ∧ Linked state pings replies

/-- The exchange can do what it is told of each step. -/
theorem refines_exchange (params : RtParams) (now wakeAt : ℕ) :
    (dds params now wakeAt).Refines (exchange params now wakeAt) (fun _ _ ↦ True)
      (fun _ _ ↦ True) ddsReport StandsFor := by
  rintro state event next other ⟨pings, replies, rfl, hlinked⟩ - hstep
  change ddsStep params state event = some next at hstep
  cases event with
  | process event =>
    obtain ⟨pings', replies', hnext, hlinked'⟩ := hlinked.processStep hstep
    exact ⟨_, System.runUnder_singleton trivial hnext, pings', replies', rfl, hlinked'⟩
  | arrivePing index evicted =>
    obtain ⟨topic, harrive, rfl⟩ := Option.map_eq_some_iff.mp hstep
    obtain ⟨pings', hdrop, hcarries, hspinner, hcall, hcallback⟩ := hlinked.pings.arrive harrive
    refine ⟨_, runUnder_losePings hdrop, pings', replies, rfl, { hlinked with
      pings := hcarries
      pong := ?_
      pongCall := hcall.trans hlinked.pongCall
      pongCallback := hcallback.trans hlinked.pongCallback }⟩
    rw [hspinner]
    exact hlinked.pong
  | arriveReply index evicted =>
    obtain ⟨topic, harrive, rfl⟩ := Option.map_eq_some_iff.mp hstep
    obtain ⟨replies', hdrop, hcarries, hspinner, hcall, hcallback⟩ := hlinked.replies.arrive harrive
    refine ⟨_, runUnder_loseReplies hdrop, pings, replies', rfl, { hlinked with
      replies := hcarries
      ping := ?_
      pingCall := hcall.trans hlinked.pingCall
      pingCallback := hcallback.trans hlinked.pingCallback }⟩
    rw [hspinner]
    exact hlinked.ping
  | enterSpinOnce =>
    dsimp only [ddsStep] at hstep
    split at hstep
    · rename_i since hping
      obtain ⟨subscriber, henter, rfl⟩ := Option.map_eq_some_iff.mp hstep
      obtain ⟨-, htransition⟩ := FastrtpsPubsub.transition_of_step henter
      cases htransition with
      | enter _ _ houtside =>
        refine ⟨_, rfl, pings, replies, rfl, { hlinked with
          replies := ⟨hlinked.replies.published, hlinked.replies.inFlight, ?_,
            hlinked.replies.samples⟩
          ping := fun _ ↦ ⟨since, hping⟩
          pingCall := rfl }⟩
        have htaken := hlinked.replies.taken
        rw [houtside] at htaken
        exact htaken
    · cases hstep
  | pong event =>
    dsimp only [ddsStep] at hstep
    split at hstep
    · rename_i hthreads
      obtain ⟨subscriber, hsubscriber, hrest⟩ := Option.bind_eq_some_iff.mp hstep
      obtain ⟨processes, hafter, rfl⟩ := Option.map_eq_some_iff.mp hrest
      obtain ⟨pings', hrun, hlinked'⟩ := hlinked.pongThreads hthreads hsubscriber hafter
      refine ⟨_, ?_, pings', replies, rfl, hlinked'⟩
      rw [ddsReport, hsubscriber]
      exact hrun
    · cases hstep
  | ping event =>
    dsimp only [ddsStep] at hstep
    split at hstep
    · rename_i hthreads
      obtain ⟨subscriber, hsubscriber, hrest⟩ := Option.bind_eq_some_iff.mp hstep
      obtain ⟨processes, hafter, rfl⟩ := Option.map_eq_some_iff.mp hrest
      obtain ⟨replies', hrun, hlinked'⟩ := hlinked.pingThreads hthreads hsubscriber hafter
      refine ⟨_, ?_, pings, replies', rfl, hlinked'⟩
      rw [ddsReport, hsubscriber]
      exact hrun
    · cases hstep

/-! ## Whole runs -/

/-- The messages that the callback of a process has been called with or is about to be, with their
numbers. -/
def DdsState.handedOver (state : DdsState) : Process → List (ℕ × Data)
  | .ping => state.replies.subscriber.delivered ++ state.replies.subscriber.spinner.inHand
  | .pong => state.pings.subscriber.delivered ++ state.pings.subscriber.spinner.inHand

/-- The state of the exchange has the processes of the threads, and has taken the messages that the
threads have handed over. -/
structure SameExchange (state : DdsState) (other : State) : Prop where
  processes : other = state.processes.withTopics other.pings other.replies
  pings : state.pings.Carries other.pings
  replies : state.replies.Carries other.replies
  nodup : ∀ process, ((state.handedOver process).map Prod.fst).Nodup
  exact : ∀ (process : Process) (number : ℕ) (sample : Sample),
    (state.processes.samples process)[number]? = some sample →
      ∃ index sendClock : ℕ, other.measured number process = some index ∧
        state.processes.sendClocks[index]? = some sendClock ∧ sendClock ≤ sample.receiveClock ∧
        (sample.receiveClock < 2 ^ 63 → sample.latency.toNat = sample.receiveClock - sendClock)

/-- Whatever the threads and the network do, the two processes do what they do in some run of the
exchange, whose events are read off the steps. -/
theorem dds_refines_exchange {params : RtParams} {now wakeAt : ℕ} {events : List DdsEvent}
    {last : DdsState}
    (hrun : (dds params now wakeAt).run (.start params now wakeAt) events = some last) :
    ∃ state, (exchange params now wakeAt).run (.start params now wakeAt)
      ((dds params now wakeAt).reports ddsReport (.start params now wakeAt) events) = some state ∧
        SameExchange last state := by
  have hstart : StandsFor (.start params now wakeAt) (.start params now wakeAt) :=
    ⟨.empty, .empty, rfl, linked_start params now wakeAt⟩
  obtain ⟨state, hstate, pings, replies, rfl, hlinked⟩ :=
    (refines_exchange params now wakeAt).run hstart (System.runUnder_trivial hrun)
  have hexchange := System.run_of_runUnder hstate
  have hreachable : (exchange params now wakeAt).Reachable (last.processes.withTopics pings replies) :=
    System.Reachable.run (.initial rfl) _ hexchange
  refine ⟨_, hexchange, rfl, hlinked.pings, hlinked.replies, fun process ↦ ?_,
    fun process number sample hsample ↦ ?_⟩
  · cases process with
    | ping => exact hlinked.replies.taken ▸ replies.taken_nodup
    | pong => exact hlinked.pings.taken ▸ pings.taken_nodup
  · have hsample' : ((last.processes.withTopics pings replies).samples process)[number]? =
        some sample := by
      cases process with
      | ping | pong => exact hsample
    obtain ⟨index, sendClock, hmeasured, hsend, hle, -, hlatency⟩ :=
      samples_exact (invariant_of_reachable hreachable)
        (pongSamplesRecorded_of_reachable hreachable) process hsample'
    exact ⟨index, sendClock, hmeasured, hsend, hle, hlatency⟩

/-- One ping and its reply through all four threads. -/
theorem dds_refines_exchange_one : ∃ (last : DdsState) (state : State),
    last.processes.pongSamples = [⟨6, 1⟩] ∧ last.processes.pingSamples = [⟨8, 3⟩] ∧
      (exchange ⟨2, 1000000⟩ 0 5).run (.start ⟨2, 1000000⟩ 0 5) [.tick 5, .wake, .publishPing,
        .takePing 0, .tick 6, .stampReply, .publishReply, .addLatency, .tick 8, .takeReply 0,
        .pingCallback] = some state ∧ SameExchange last state := by
  have hrun : (dds ⟨2, 1000000⟩ 0 5).run (.start ⟨2, 1000000⟩ 0 5)
      ([.pong .attachMutex, .pong .attachVariable, .process (.tick 5), .process .wake,
        .process .publishPing, .enterSpinOnce, .ping .attachMutex, .ping .attachVariable,
        .arrivePing 0 0] ++
      List.map DdsEvent.pong [.listenerCount, .listenerLock, .listenerStore, .listenerUnlock,
        .listenerNotify, .lock, .evaluate, .unlock, .takeNextData, .dataTakenCount,
        .dataTakenStore] ++
      [.process (.tick 6), .process .stampReply, .process .publishReply, .pong .callback,
        .process (.tick 8), .arriveReply 0 0] ++
      List.map DdsEvent.ping [.listenerCount, .listenerLock, .listenerStore, .listenerUnlock,
        .listenerNotify, .lock, .evaluate, .unlock, .takeNextData, .dataTakenCount,
        .dataTakenStore, .callback]) = some _ := rfl
  obtain ⟨state, hstate, hsame⟩ := dds_refines_exchange hrun
  exact ⟨_, state, rfl, rfl, hstate, hsame⟩

end LayerPingPong.TwoWay
