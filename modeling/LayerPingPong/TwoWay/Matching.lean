import LayerPingPong.TwoWay.Soundness

/-!
# Which reply an iteration receives

Over queues that lose nothing, `spin_once` takes the oldest reply. It never looks at `data`, and a
reply that arrives after a timeout stays in the queue. So every timeout makes all later iterations
receive the reply to one ping earlier.
-/

namespace LayerPingPong.TwoWay

open TransitionSystem

variable {params : RtParams} {state next : State} {event : Event}

/-- Both topics hand over their oldest message and lose none. -/
def Queues (state : State) : Event → Prop
  | .takePing index => state.pings.inFlight.head? = some index
  | .takeReply index => state.replies.inFlight.head? = some index
  | .losePing _ | .loseReply _ => False
  | _ => True

instance (state : State) (event : Event) : Decidable (Queues state event) :=
  match event with
  | .takePing index => inferInstanceAs (Decidable (state.pings.inFlight.head? = some index))
  | .takeReply index => inferInstanceAs (Decidable (state.replies.inFlight.head? = some index))
  | .losePing _ | .loseReply _ => inferInstanceAs (Decidable False)
  | .tick _ | .wake | .publishPing | .pingCallback | .pingTimeout | .stampReply | .publishReply
  | .addLatency | .pongTimeout => inferInstanceAs (Decidable True)

/-- What the queues add to the invariant of all runs. -/
structure Queued (state : State) : Prop where
  pings : state.pings.InOrder
  replies : state.replies.InOrder
  iteration : state.iteration.toInt = state.pingSamples.length + state.timeouts
  last : state.ping.sent = 1 → state.pings.published.getLast? = some state.message

theorem queued_start (now wakeAt : ℕ) : Queued (.start params now wakeAt) := by
  refine ⟨Channel.inOrder_empty, Channel.inOrder_empty, rfl, ?_⟩
  change PingPc.sent (if 0 < params.iterations then .sleeping wakeAt else .finished) = 1 → _
  split <;> exact nofun

theorem loopHead_sent (state : State) : (state.loopHead params).sent = 0 := by
  unfold State.loopHead
  split <;> rfl

theorem Queued.preserved (h : Queued state) (hguard : Queues state event)
    (htransition : Transition params state event next) : Queued next := by
  obtain ⟨hpings, hreplies, hiteration, hlast⟩ := h
  cases htransition with
  | wake _ _ => exact ⟨hpings, hreplies, hiteration, nofun⟩
  | publishPing _ =>
    exact ⟨hpings.publish _, hreplies, hiteration, fun _ ↦ List.getLast?_concat⟩
  | takeReply hpc htook =>
    exact ⟨hpings, (hreplies.took htook hguard).2, hiteration, fun _ ↦ hlast (by rw [hpc]; rfl)⟩
  | @pingCallback reply iteration hpc hincrement =>
    refine ⟨hpings, hreplies, ?_, fun hsent ↦ ?_⟩
    · rw [List.length_append, List.length_singleton, Checked.increment_toInt hincrement, hiteration]
      push_cast
      omega
    · rw [loopHead_sent] at hsent
      cases hsent
  | @pingTimeout since iteration hpc hincrement =>
    refine ⟨hpings, hreplies, ?_, fun hsent ↦ ?_⟩
    · rw [Checked.increment_toInt hincrement, hiteration]
      push_cast
      omega
    · rw [loopHead_sent] at hsent
      cases hsent
  | takePing _ htook =>
    refine ⟨(hpings.took htook hguard).2, hreplies, hiteration, fun hsent ↦ ?_⟩
    rw [htook.published]
    exact hlast hsent
  | publishReply _ => exact ⟨hpings, hreplies.publish _, hiteration, hlast⟩
  | losePing _ | loseReply _ => cases hguard
  | _ => exact ⟨hpings, hreplies, hiteration, hlast⟩

theorem queued_of_queues {now wakeAt : ℕ}
    (h : (exchange params now wakeAt).ReachableUnder Queues state) : Queued state := by
  refine h.invariant Queued ?_ fun _ _ _ hold hguard hstep ↦
    hold.preserved hguard (transition_of_step params hstep)
  rintro _ rfl
  exact queued_start now wakeAt

/-- Replies come back in the order of the pings. -/
theorem reply_answers_number (h : Invariant params state) (hqueued : Queued state) {reply : Data}
    (hpc : state.ping = .taken reply) :
    ∃ ping, state.pings.published[state.pingSamples.length]? = some ping ∧
      reply.data = ping.data ∧ reply.timeSentNs = ping.timeSentNs := by
  obtain ⟨index, htaken, hreply⟩ := h.samples.taken reply hpc
  obtain ⟨_, -, origin, ping, _, horigin, hsent, rfl, -⟩ := h.replies.answered index reply hreply
  rw [hqueued.replies.taken] at htaken
  rw [hqueued.pings.taken] at horigin
  obtain rfl : state.pingSamples.length = index := by
    simpa using (List.getElem?_eq_some_iff.mp htaken).2
  obtain rfl : state.pingSamples.length = origin := by
    simpa using (List.getElem?_eq_some_iff.mp horigin).2
  exact ⟨ping, hsent.published, rfl, rfl⟩

/-- The reply delivered in an iteration lags behind by the number of earlier timeouts. Without one
it answers the ping that the iteration has just sent. -/
theorem reply_lags_by_timeouts {now wakeAt : ℕ} {reply : Data}
    (h : (exchange params now wakeAt).ReachableUnder Queues state)
    (hpc : state.ping = .taken reply) :
    reply.data.toInt = state.iteration.toInt - state.timeouts ∧
      (reply.data.toInt = state.iteration.toInt ↔ state.timeouts = 0) ∧
      (state.timeouts = 0 → reply.timeSentNs = state.message.timeSentNs) := by
  have hinvariant := invariant_of_reachable h.reachable
  have hqueued := queued_of_queues h
  obtain ⟨ping, hping, hdata, htime⟩ := reply_answers_number hinvariant hqueued hpc
  have hnumber : reply.data.toInt = state.pingSamples.length := by
    rw [hdata]
    exact hinvariant.counted.data _ ping hping
  have hiteration := hqueued.iteration
  refine ⟨by omega, by omega, fun htimeouts ↦ ?_⟩
  have hsent : state.ping.sent = 1 := by rw [hpc]; rfl
  have hcount := hinvariant.counted.iteration
  have hlast := hqueued.last hsent
  have hnumberLast : state.pings.published.length - 1 = state.pingSamples.length := by omega
  rw [List.getLast?_eq_getElem?, hnumberLast, hping] at hlast
  rw [htime, Option.some.inj hlast]

/-- A run in which the first reply comes after the timeout of its iteration. -/
def lateReply : List Event :=
  [.tick 10, .wake, .publishPing, .tick 2000000000, .takePing 0, .stampReply, .publishReply,
    .addLatency, .tick 3000000010, .pingTimeout, .tick 3000000020, .wake, .publishPing,
    .tick 3000000030, .takeReply 0]

theorem reply_lags_by_timeouts_late : ∃ (state : State) (reply : Data),
    (exchange ⟨2, 10⟩ 0 10).ReachableUnder Queues state ∧ state.ping = .taken reply ∧
      state.timeouts = 1 ∧ reply.data.toInt = state.iteration.toInt - state.timeouts := by
  have hlate : (exchange ⟨2, 10⟩ 0 10).ReachableUnder Queues _ :=
    System.ReachableUnder.runUnder (.initial rfl) lateReply rfl
  exact ⟨_, _, hlate, rfl, rfl, (reply_lags_by_timeouts hlate rfl).1⟩

/-- The second iteration receives the reply to the first ping. -/
theorem reply_not_matched : ∃ (state : State) (reply : Data),
    (exchange ⟨2, 10⟩ 0 10).ReachableUnder Queues state ∧ state.ping = .taken reply ∧
      state.iteration = 1 ∧ reply.data = 0 := by
  have hlate : (exchange ⟨2, 10⟩ 0 10).ReachableUnder Queues _ :=
    System.ReachableUnder.runUnder (.initial rfl) lateReply rfl
  exact ⟨_, _, hlate, rfl, rfl, rfl⟩

end LayerPingPong.TwoWay
