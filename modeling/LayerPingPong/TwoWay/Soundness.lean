import LayerPingPong.TwoWay.Counting

/-!
# Every latency belongs to one ping

The histories of both topics only grow, so a lookup in them stays valid. Each reply is traced to the
ping that `pong` took for it, and each latency of `ping` to the reply it took. Messages are taken at
most once, hence different latencies belong to different pings.
-/

namespace LayerPingPong.TwoWay

open TransitionSystem

variable {params : RtParams} {state next : State} {event : Event}

/-! ## Histories -/

/-- The clock and the histories have gone forward. -/
structure Grows (state next : State) : Prop where
  now : state.now ≤ next.now
  pings : state.pings.published <+: next.pings.published
  pingsTaken : state.pings.taken <+: next.pings.taken
  replies : state.replies.published <+: next.replies.published
  repliesTaken : state.replies.taken <+: next.replies.taken
  sendClocks : state.sendClocks <+: next.sendClocks
  replyClocks : state.replyClocks <+: next.replyClocks

theorem grows_of_transition (htransition : Transition params state event next) :
    Grows state next := by
  have hsame : Grows state state := ⟨le_rfl, List.prefix_rfl, List.prefix_rfl, List.prefix_rfl,
    List.prefix_rfl, List.prefix_rfl, List.prefix_rfl⟩
  cases htransition with
  | tick hnow => exact { hsame with now := hnow }
  | publishPing _ =>
    exact { hsame with
      pings := List.prefix_append _ _
      sendClocks := List.prefix_append _ _ }
  | takeReply _ htook =>
    exact { hsame with
      replies := htook.published ▸ List.prefix_rfl
      repliesTaken := htook.taken ▸ List.prefix_append _ _ }
  | takePing _ htook =>
    exact { hsame with
      pings := htook.published ▸ List.prefix_rfl
      pingsTaken := htook.taken ▸ List.prefix_append _ _ }
  | publishReply _ =>
    exact { hsame with
      replies := List.prefix_append _ _
      replyClocks := List.prefix_append _ _ }
  | losePing hdropped =>
    exact { hsame with
      pings := hdropped.published ▸ List.prefix_rfl
      pingsTaken := hdropped.taken ▸ List.prefix_rfl }
  | loseReply hdropped =>
    exact { hsame with
      replies := hdropped.published ▸ List.prefix_rfl
      repliesTaken := hdropped.taken ▸ List.prefix_rfl }
  | _ => exact { hsame with }

/-- The ping with this number was sent with the given clock reading. -/
structure Sent (state : State) (index : ℕ) (ping : Data) (sendClock : ℕ) : Prop where
  published : state.pings.published[index]? = some ping
  clock : state.sendClocks[index]? = some sendClock
  stamped : ping.timeSentNs = stamp sendClock
  past : sendClock ≤ state.now

theorem Sent.grows {index sendClock : ℕ} {ping : Data} (h : Sent state index ping sendClock)
    (hgrows : Grows state next) : Sent next index ping sendClock where
  published := getElem?_of_prefix hgrows.pings h.published
  clock := getElem?_of_prefix hgrows.sendClocks h.clock
  stamped := h.stamped
  past := h.past.trans hgrows.now

/-- `reply` is the answer to the ping that `pong` took as the given one in order, stamped with the
given clock reading and otherwise unchanged. -/
def Answers (state : State) (number : ℕ) (reply : Data) (replyClock : ℕ) : Prop :=
  ∃ index ping sendClock, state.pings.taken[number]? = some index ∧
    Sent state index ping sendClock ∧ reply = { ping with timeSentPongNs := stamp replyClock } ∧
    sendClock ≤ replyClock ∧ replyClock ≤ state.now

theorem Answers.grows {number replyClock : ℕ} {reply : Data}
    (h : Answers state number reply replyClock) (hgrows : Grows state next) :
    Answers next number reply replyClock := by
  obtain ⟨index, ping, sendClock, htaken, hsent, hreply, hle, hpast⟩ := h
  exact ⟨index, ping, sendClock, getElem?_of_prefix hgrows.pingsTaken htaken, hsent.grows hgrows,
    hreply, hle, hpast.trans hgrows.now⟩

/-- The sample is the latency of the reply that `ping` took as the given one in order. -/
def Measures (state : State) (number : ℕ) (sample : Sample) : Prop :=
  ∃ index reply replyClock, state.replies.taken[number]? = some index ∧
    state.replies.published[index]? = some reply ∧ state.replyClocks[index]? = some replyClock ∧
    replyClock ≤ sample.receiveClock ∧ sample.receiveClock ≤ state.now ∧
    sample.latency = latency (timespecToUint64 sample.receiveClock) reply

theorem Measures.grows {number : ℕ} {sample : Sample} (h : Measures state number sample)
    (hgrows : Grows state next) : Measures next number sample := by
  obtain ⟨index, reply, replyClock, htaken, hreply, hclock, hle, hpast, hlatency⟩ := h
  exact ⟨index, reply, replyClock, getElem?_of_prefix hgrows.repliesTaken htaken,
    getElem?_of_prefix hgrows.replies hreply, getElem?_of_prefix hgrows.replyClocks hclock, hle,
    hpast.trans hgrows.now, hlatency⟩

/-! ## Pings -/

/-- Every ping carries the clock reading recorded for it. -/
structure PingsRecorded (state : State) : Prop where
  length : state.sendClocks.length = state.pings.published.length
  sent : ∀ index ping, state.pings.published[index]? = some ping →
    ∃ sendClock, Sent state index ping sendClock
  stamped : ∀ clock, state.ping = .stamped clock →
    state.message.timeSentNs = stamp clock ∧ clock ≤ state.now

theorem PingsRecorded.frame (h : PingsRecorded state) (hgrows : Grows state next)
    (hpublished : next.pings.published = state.pings.published)
    (hclocks : next.sendClocks = state.sendClocks)
    (hstamped : ∀ clock, next.ping = .stamped clock →
      next.message.timeSentNs = stamp clock ∧ clock ≤ next.now) : PingsRecorded next where
  length := by rw [hclocks, hpublished, h.length]
  sent index ping hping := by
    rw [hpublished] at hping
    obtain ⟨sendClock, hsent⟩ := h.sent index ping hping
    exact ⟨sendClock, hsent.grows hgrows⟩
  stamped := hstamped

theorem loopHead_ne_stamped (state : State) (clock : ℕ) :
    state.loopHead params ≠ .stamped clock := by
  unfold State.loopHead
  split <;> simp

theorem PingsRecorded.preserved (h : PingsRecorded state)
    (htransition : Transition params state event next) : PingsRecorded next := by
  have hgrows := grows_of_transition htransition
  cases htransition with
  | tick hle =>
    refine h.frame hgrows rfl rfl fun clock hpc ↦ ?_
    obtain ⟨hstamp, hpast⟩ := h.stamped clock hpc
    exact ⟨hstamp, hpast.trans hle⟩
  | wake _ _ =>
    refine h.frame hgrows rfl rfl fun clock hpc ↦ ?_
    cases hpc
    exact ⟨rfl, le_rfl⟩
  | @publishPing clock hpc =>
    obtain ⟨hstamp, hpast⟩ := h.stamped clock hpc
    refine ⟨?_, fun index ping hping ↦ ?_, nofun⟩
    · change (state.sendClocks ++ [clock]).length = (state.pings.published ++ [state.message]).length
      rw [List.length_append, List.length_append, h.length]
      rfl
    · rcases getElem?_concat_eq_some_iff.mp hping with hold | ⟨rfl, rfl⟩
      · obtain ⟨sendClock, hsent⟩ := h.sent index ping hold
        exact ⟨sendClock, hsent.grows hgrows⟩
      · exact ⟨clock, hping, getElem?_concat_eq_some_iff.mpr (.inr ⟨h.length.symm, rfl⟩), hstamp,
          hpast⟩
  | takeReply _ _ => exact h.frame hgrows rfl rfl nofun
  | pingCallback _ _ | pingTimeout _ _ =>
    exact h.frame hgrows rfl rfl fun clock hpc ↦
      absurd hpc (loopHead_ne_stamped _ clock)
  | takePing _ htook => exact h.frame hgrows htook.published rfl h.stamped
  | losePing hdropped => exact h.frame hgrows hdropped.published rfl h.stamped
  | _ => exact h.frame hgrows rfl rfl h.stamped

/-! ## Replies -/

/-- Every reply, published or about to be, answers the ping that was taken for it. -/
structure RepliesRecorded (state : State) : Prop where
  length : state.replyClocks.length = state.replies.published.length
  answered : ∀ number reply, state.replies.published[number]? = some reply →
    ∃ replyClock, state.replyClocks[number]? = some replyClock ∧
      Answers state number reply replyClock
  taken : ∀ message, state.pong = .taken message →
    ∃ index, state.pings.taken[state.replies.published.length]? = some index ∧
      state.pings.published[index]? = some message
  stamped : ∀ message clock, state.pong = .stamped message clock →
    Answers state state.replies.published.length message clock

theorem RepliesRecorded.frame (h : RepliesRecorded state) (hgrows : Grows state next)
    (hpublished : next.replies.published = state.replies.published)
    (hclocks : next.replyClocks = state.replyClocks) (hpong : next.pong = state.pong) :
    RepliesRecorded next where
  length := by rw [hclocks, hpublished, h.length]
  answered number reply hreply := by
    rw [hpublished] at hreply
    obtain ⟨replyClock, hclock, hanswers⟩ := h.answered number reply hreply
    exact ⟨replyClock, getElem?_of_prefix hgrows.replyClocks hclock, hanswers.grows hgrows⟩
  taken message hpc := by
    rw [hpong] at hpc
    obtain ⟨index, htaken, hping⟩ := h.taken message hpc
    rw [hpublished]
    exact ⟨index, getElem?_of_prefix hgrows.pingsTaken htaken,
      getElem?_of_prefix hgrows.pings hping⟩
  stamped message clock hpc := by
    rw [hpong] at hpc
    rw [hpublished]
    exact (h.stamped message clock hpc).grows hgrows

theorem RepliesRecorded.preserved (h : RepliesRecorded state) (hpings : PingsRecorded state)
    (hhands : HandsCounted state) (htransition : Transition params state event next) :
    RepliesRecorded next := by
  have hgrows := grows_of_transition htransition
  have hanswered : ∀ number reply, state.replies.published[number]? = some reply →
      ∃ replyClock, next.replyClocks[number]? = some replyClock ∧
        Answers next number reply replyClock := by
    intro number reply hreply
    obtain ⟨replyClock, hclock, hanswers⟩ := h.answered number reply hreply
    exact ⟨replyClock, getElem?_of_prefix hgrows.replyClocks hclock, hanswers.grows hgrows⟩
  cases htransition with
  | @takePing index _ message pings hpc htook =>
    have hlength := hhands.pings
    rw [hpc] at hlength
    refine ⟨h.length, hanswered, fun other hother ↦ ?_, nofun⟩
    cases hother
    refine ⟨index, ?_, ?_⟩
    · change pings.taken[state.replies.published.length]? = some index
      rw [htook.taken]
      exact getElem?_concat_eq_some_iff.mpr (.inr ⟨hlength.symm, rfl⟩)
    · change pings.published[index]? = some message
      rw [htook.published]
      exact htook.message
  | @stampReply message hpc =>
    refine ⟨h.length, hanswered, nofun, fun other clock hother ↦ ?_⟩
    cases hother
    obtain ⟨index, htaken, hping⟩ := h.taken message hpc
    obtain ⟨sendClock, hsent⟩ := hpings.sent index message hping
    exact ⟨index, message, sendClock, htaken, hsent.grows hgrows, rfl, hsent.past, le_rfl⟩
  | @publishReply message clock hpc =>
    refine ⟨?_, fun number reply hreply ↦ ?_, nofun, nofun⟩
    · change (state.replyClocks ++ [clock]).length = (state.replies.published ++ [message]).length
      rw [List.length_append, List.length_append, h.length]
      rfl
    · rcases getElem?_concat_eq_some_iff.mp hreply with hold | ⟨rfl, rfl⟩
      · exact hanswered number reply hold
      · exact ⟨clock, getElem?_concat_eq_some_iff.mpr (.inr ⟨h.length.symm, rfl⟩),
          (h.stamped message clock hpc).grows hgrows⟩
  | addLatency _ | pongTimeout _ => exact ⟨h.length, hanswered, nofun, nofun⟩
  | takeReply _ htook => exact h.frame hgrows htook.published rfl rfl
  | loseReply hdropped => exact h.frame hgrows hdropped.published rfl rfl
  | _ => exact h.frame hgrows rfl rfl rfl

/-! ## Samples -/

/-- Every latency added by `ping`, or about to be, belongs to the reply that was taken for it. -/
structure SamplesRecorded (state : State) : Prop where
  measured : ∀ number sample, state.pingSamples[number]? = some sample →
    Measures state number sample
  taken : ∀ reply, state.ping = .taken reply →
    ∃ index, state.replies.taken[state.pingSamples.length]? = some index ∧
      state.replies.published[index]? = some reply

theorem SamplesRecorded.frame (h : SamplesRecorded state) (hgrows : Grows state next)
    (hsamples : next.pingSamples = state.pingSamples)
    (hping : ∀ reply, next.ping = .taken reply → state.ping = .taken reply) :
    SamplesRecorded next where
  measured number sample hsample := by
    rw [hsamples] at hsample
    exact (h.measured number sample hsample).grows hgrows
  taken reply hpc := by
    obtain ⟨index, htaken, hreply⟩ := h.taken reply (hping reply hpc)
    rw [hsamples]
    exact ⟨index, getElem?_of_prefix hgrows.repliesTaken htaken,
      getElem?_of_prefix hgrows.replies hreply⟩

theorem loopHead_ne_taken (state : State) (reply : Data) :
    state.loopHead params ≠ .taken reply := by
  unfold State.loopHead
  split <;> simp

theorem SamplesRecorded.preserved (h : SamplesRecorded state) (hreplies : RepliesRecorded state)
    (hhands : HandsCounted state)
    (htransition : Transition params state event next) : SamplesRecorded next := by
  have hgrows := grows_of_transition htransition
  cases htransition with
  | @takeReply index _ reply replies hpc htook =>
    have hlength := hhands.replies
    rw [hpc] at hlength
    refine ⟨fun number sample hsample ↦ (h.measured number sample hsample).grows hgrows,
      fun other hother ↦ ?_⟩
    cases hother
    refine ⟨index, ?_, ?_⟩
    · change replies.taken[state.pingSamples.length]? = some index
      rw [htook.taken]
      exact getElem?_concat_eq_some_iff.mpr (.inr ⟨hlength.symm, rfl⟩)
    · change replies.published[index]? = some reply
      rw [htook.published]
      exact htook.message
  | @pingCallback reply iteration hpc _ =>
    refine ⟨fun number sample hsample ↦ ?_, fun other hother ↦
      absurd hother (loopHead_ne_taken _ other)⟩
    rcases getElem?_concat_eq_some_iff.mp hsample with hold | ⟨rfl, rfl⟩
    · exact (h.measured number sample hold).grows hgrows
    · obtain ⟨index, htaken, hreply⟩ := h.taken reply hpc
      obtain ⟨replyClock, hclock, _, _, _, _, _, _, _, hpast⟩ :=
        hreplies.answered index reply hreply
      exact ⟨index, reply, replyClock, htaken, hreply, hclock, hpast, le_rfl, rfl⟩
  | publishPing _ | wake _ _ => exact h.frame hgrows rfl nofun
  | pingTimeout _ _ =>
    exact h.frame hgrows rfl fun reply hpc ↦ absurd hpc (loopHead_ne_taken _ reply)
  | _ => exact h.frame hgrows rfl fun _ hpc ↦ hpc

/-! ## Reachable states -/

/-- What holds in every state of every run. -/
structure Invariant (params : RtParams) (state : State) : Prop where
  counted : PingsCounted params state
  hands : HandsCounted state
  pings : PingsRecorded state
  replies : RepliesRecorded state
  samples : SamplesRecorded state

theorem Invariant.preserved (h : Invariant params state)
    (hstep : step params state event = some next) : Invariant params next := by
  have htransition := transition_of_step params hstep
  exact ⟨h.counted.preserved htransition, h.hands.preserved htransition,
    h.pings.preserved htransition, h.replies.preserved h.pings h.hands htransition,
    h.samples.preserved h.replies h.hands htransition⟩

theorem invariant_start (now wakeAt : ℕ) :
    Invariant params (.start params now wakeAt) := by
  have hpc : (State.start params now wakeAt).ping =
      if 0 < params.iterations then .sleeping wakeAt else .finished := rfl
  refine ⟨pingsCounted_start now wakeAt, handsCounted_start now wakeAt,
    ⟨rfl, nofun, fun clock hstamped ↦ ?_⟩, ⟨rfl, nofun, nofun, nofun⟩,
    ⟨nofun, fun reply htaken ↦ ?_⟩⟩
  · rw [hpc] at hstamped
    split at hstamped <;> cases hstamped
  · rw [hpc] at htaken
    split at htaken <;> cases htaken

theorem invariant_of_reachable {now wakeAt : ℕ} (h : (exchange params now wakeAt).Reachable state) :
    Invariant params state := by
  refine h.invariant (Invariant params) ?_ fun _ _ _ hold _ hstep ↦ hold.preserved hstep
  rintro _ rfl
  exact invariant_start now wakeAt

/-! ## Soundness of the measurement -/

/-- The ping answered by the reply that `ping` took as the given one in order. -/
def State.origin (state : State) (number : ℕ) : Option ℕ :=
  state.replies.taken[number]?.bind (state.pings.taken[·]?)

/-- Two replies taken never answer the same ping. -/
theorem origin_injective {first second index : ℕ} (hfirst : state.origin first = some index)
    (hsecond : state.origin second = some index) : first = second := by
  obtain ⟨reply, hreply, hindex⟩ := Option.bind_eq_some_iff.mp hfirst
  obtain ⟨reply', hreply', hindex'⟩ := Option.bind_eq_some_iff.mp hsecond
  obtain rfl : reply = reply' :=
    (List.getElem?_inj (List.getElem?_eq_some_iff.mp hindex).1 state.pings.taken_nodup).mp
      (hindex.trans hindex'.symm)
  exact (List.getElem?_inj (List.getElem?_eq_some_iff.mp hreply).1 state.replies.taken_nodup).mp
    (hreply.trans hreply'.symm)

/-- All clock readings are below `2 ^ 63` nanoseconds. -/
def ClockInRange (_ : State) : Event → Prop
  | .tick now => now < 2 ^ 63
  | _ => True

instance (state : State) (event : Event) : Decidable (ClockInRange state event) :=
  match event with
  | .tick now => inferInstanceAs (Decidable (now < 2 ^ 63))
  | .wake | .publishPing | .takeReply _ | .pingCallback | .pingTimeout | .takePing _ | .stampReply
  | .publishReply | .addLatency | .pongTimeout | .losePing _ | .loseReply _ =>
    inferInstanceAs (Decidable True)

theorem now_lt_of_clockInRange {now wakeAt : ℕ} (hnow : now < 2 ^ 63)
    (h : (exchange params now wakeAt).ReachableUnder ClockInRange state) :
    state.now < 2 ^ 63 := by
  refine h.invariant (fun state ↦ state.now < 2 ^ 63) ?_ fun state event next hold hguard hstep ↦ ?_
  · rintro _ rfl
    exact hnow
  · cases transition_of_step params hstep with
    | tick _ => exact hguard
    | _ => exact hold

/-- The latencies of `ping` belong to different pings and are exact. -/
structure LatenciesExact (state : State) : Prop where
  exact : ∀ (number : ℕ) (sample : Sample), state.pingSamples[number]? = some sample →
    ∃ index sendClock : ℕ, state.origin number = some index ∧
      state.sendClocks[index]? = some sendClock ∧
      (sample.latency.toNat : ℤ) = sample.receiveClock - sendClock
  injective : ∀ first second index, state.origin first = some index →
    state.origin second = some index → first = second

/-- A reply is the ping it answers with a later time of `pong`, and it is received later still. -/
structure RepliesFaithful (state : State) : Prop where
  unchanged : ∀ (number : ℕ) (reply : Data), state.replies.published[number]? = some reply →
    ∃ (index : ℕ) (ping : Data), state.pings.taken[number]? = some index ∧
      state.pings.published[index]? = some ping ∧ reply.data = ping.data ∧
      reply.timeSentNs = ping.timeSentNs ∧
      reply.timeSentNs.toInt ≤ reply.timeSentPongNs.toInt
  received : ∀ (number : ℕ) (sample : Sample), state.pingSamples[number]? = some sample →
    ∃ (index : ℕ) (reply : Data), state.replies.taken[number]? = some index ∧
      state.replies.published[index]? = some reply ∧
      reply.timeSentPongNs.toInt ≤ sample.receiveClock

/-- Nothing is counted twice. -/
structure Bounded (params : RtParams) (state : State) : Prop where
  pingSamples : state.pingSamples.length ≤ state.replies.published.length
  pongSamples : state.pongSamples.length ≤ state.replies.published.length
  replies : state.replies.published.length ≤ state.pings.published.length
  pings : state.pings.published.length ≤ params.iterations

/-- The reply behind a sample, with the ping it answers and all clock readings in order. -/
theorem Invariant.trace (h : Invariant params state) {number : ℕ} {sample : Sample}
    (hsample : state.pingSamples[number]? = some sample) :
    ∃ replyIndex replyClock index ping sendClock, state.replies.taken[number]? = some replyIndex ∧
      state.replies.published[replyIndex]? =
        some { ping with timeSentPongNs := stamp replyClock } ∧
      state.pings.taken[replyIndex]? = some index ∧ Sent state index ping sendClock ∧
      sendClock ≤ replyClock ∧ replyClock ≤ sample.receiveClock ∧
      sample.receiveClock ≤ state.now ∧
      sample.latency = latency (timespecToUint64 sample.receiveClock)
        { ping with timeSentPongNs := stamp replyClock } := by
  obtain ⟨replyIndex, reply, replyClock, htaken, hreply, hclock, hreceive, hpast, hlatency⟩ :=
    h.samples.measured number sample hsample
  obtain ⟨recorded, hrecorded, index, ping, sendClock, hindex, hsent, rfl, hle, -⟩ :=
    h.replies.answered replyIndex reply hreply
  obtain rfl : replyClock = recorded := Option.some.inj (hclock.symm.trans hrecorded)
  exact ⟨replyIndex, replyClock, index, ping, sendClock, htaken, hreply, hindex, hsent, hle,
    hreceive, hpast, hlatency⟩

theorem Invariant.latenciesExact (h : Invariant params state) (hnow : state.now < 2 ^ 63) :
    LatenciesExact state := by
  refine ⟨fun number sample hsample ↦ ?_, fun _ _ _ ↦ origin_injective⟩
  obtain ⟨replyIndex, replyClock, index, ping, sendClock, htaken, _, hindex, hsent, hle, hreceive,
    hpast, hlatency⟩ := h.trace hsample
  have hsend : sendClock ≤ sample.receiveClock := hle.trans hreceive
  have hexact : sample.latency.toNat = sample.receiveClock - sendClock := by
    rw [hlatency]
    exact latency_toNat hsent.stamped hsend (hpast.trans_lt hnow)
  refine ⟨index, sendClock, Option.bind_eq_some_iff.mpr ⟨replyIndex, htaken, hindex⟩, hsent.clock,
    ?_⟩
  rw [hexact, Int.ofNat_sub hsend]

theorem Invariant.repliesFaithful (h : Invariant params state) (hnow : state.now < 2 ^ 63) :
    RepliesFaithful state := by
  refine ⟨fun number reply hreply ↦ ?_, fun number sample hsample ↦ ?_⟩
  · obtain ⟨replyClock, -, index, ping, sendClock, hindex, hsent, rfl, hle, hpong⟩ :=
      h.replies.answered number reply hreply
    have hlt : replyClock < 2 ^ 63 := hpong.trans_lt hnow
    refine ⟨index, ping, hindex, hsent.published, rfl, rfl, ?_⟩
    change ping.timeSentNs.toInt ≤ (stamp replyClock).toInt
    rw [hsent.stamped, stamp_toInt (hle.trans_lt hlt), stamp_toInt hlt]
    exact Int.ofNat_le.mpr hle
  · obtain ⟨replyIndex, replyClock, _, ping, _, htaken, hreply, _, _, _, hreceive, hpast, _⟩ :=
      h.trace hsample
    refine ⟨replyIndex, _, htaken, hreply, ?_⟩
    change (stamp replyClock).toInt ≤ sample.receiveClock
    rw [stamp_toInt ((hreceive.trans hpast).trans_lt hnow)]
    exact Int.ofNat_le.mpr hreceive

theorem Invariant.bounded (h : Invariant params state) : Bounded params state := by
  obtain ⟨hpings, hreplies, hsamples⟩ := h.hands
  have htaken := state.replies.taken_length_le
  have htaken' := state.pings.taken_length_le
  exact ⟨by omega, by omega, by omega, h.counted.le_iterations⟩

/-- In every reachable state the measurement is sound: latencies are exact and belong to different
pings, replies keep what they answer, and no count exceeds the one it stems from. -/
theorem sound_of_reachable {now wakeAt : ℕ} (hnow : now < 2 ^ 63)
    (h : (exchange params now wakeAt).ReachableUnder ClockInRange state) :
    LatenciesExact state ∧ RepliesFaithful state ∧ Bounded params state :=
  have hinvariant := invariant_of_reachable h.reachable
  have hlt := now_lt_of_clockInRange hnow h
  ⟨hinvariant.latenciesExact hlt, hinvariant.repliesFaithful hlt, hinvariant.bounded⟩

/-- One ping is lost, and the next one is answered and measured. -/
theorem sound_of_reachable_two : ∃ state : State,
    (exchange ⟨2, 5⟩ 0 5).ReachableUnder ClockInRange state ∧
      state.pingSamples = [⟨40, 25⟩] ∧ state.sendClocks = [5, 15] ∧
      LatenciesExact state ∧ RepliesFaithful state ∧ Bounded ⟨2, 5⟩ state := by
  have htwo : (exchange ⟨2, 5⟩ 0 5).ReachableUnder ClockInRange _ :=
    System.ReachableUnder.runUnder (.initial rfl)
      [.tick 5, .wake, .publishPing, .losePing 0, .tick 10, .pingTimeout, .tick 15, .wake,
        .publishPing, .tick 20, .takePing 1, .stampReply, .tick 25, .publishReply, .addLatency,
        .tick 30, .takeReply 0, .tick 40, .pingCallback] rfl
  exact ⟨_, htwo, rfl, rfl, sound_of_reachable (by decide) htwo⟩

end LayerPingPong.TwoWay
