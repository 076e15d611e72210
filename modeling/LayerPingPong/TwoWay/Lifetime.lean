import LayerPingPong.TwoWay.Soundness
import LayerPingPong.TwoWay.Timing

/-!
# The phases of a timely run

While `pong` receives every ping in time, a run goes through the same phases in each iteration:
sleep, ping on its way, ping in hand, reply on its way, reply in hand. Each phase fixes the program
counters, the messages in flight and a bound on the clock by the planned times. The lemmas below say
which phase an event leads to.
-/

namespace LayerPingPong.TwoWay

variable {scenario : Scenario} {i : ℕ} {state next : State} {event : Event}

/-- `pong` has taken the given pings and only the lost reply is left over from earlier
iterations. -/
structure Background (scenario : Scenario) (i taken : ℕ) (inFlight : List ℕ) (state : State) :
    Prop where
  pings : state.pings.inFlight = inFlight
  taken : state.pings.taken = List.range taken
  replies : ∀ index ∈ state.replies.inFlight, index < i → scenario.lost = .reply index

/-- `pong` waits for the ping with this number, or is about to do so at this very instant. -/
inductive PongReady (scenario : Scenario) (i : ℕ) (state : State) : Prop where
  | waiting {since : ℕ} : state.pong = .waiting since →
      since + spinTimeout = scenario.deadline i → PongReady scenario i state
  | published {message : Data} {clock : ℕ} : state.pong = .published message clock →
      state.now + spinTimeout = scenario.deadline i → PongReady scenario i state

/-- The sleep before a ping. -/
structure BeforeWake (scenario : Scenario) (i : ℕ) (state : State) : Prop where
  background : Background scenario i i [] state
  published : state.pings.published.length = i
  pong : PongReady scenario i state
  ping : state.ping = .sleeping (scenario.sendTime i)
  now_le : state.now ≤ scenario.sendTime i

/-- The instant at which a ping is sent. -/
structure BeforeSend (scenario : Scenario) (i : ℕ) (state : State) : Prop where
  background : Background scenario i i [] state
  published : state.pings.published.length = i
  pong : PongReady scenario i state
  ping : state.ping = .stamped (scenario.sendTime i)
  now_eq : state.now = scenario.sendTime i

/-- A ping is on its way. -/
structure PingOnWay (scenario : Scenario) (i : ℕ) (state : State) : Prop where
  background : Background scenario i i [i] state
  published : state.pings.published.length = i + 1
  pong : PongReady scenario i state
  ping : state.ping = .waiting (scenario.sendTime i)
  clock : state.sendClocks[i]? = some (scenario.sendTime i)
  now_le : state.now ≤ scenario.arrivalTime i

/-- The instant at which `pong` answers a ping. -/
structure PingInHand (scenario : Scenario) (i : ℕ) (state : State) : Prop where
  background : Background scenario i (i + 1) [] state
  published : state.pings.published.length = i + 1
  pong : (∃ message, state.pong = .taken message) ∨
    ∃ message, state.pong = .stamped message (scenario.arrivalTime i)
  ping : state.ping = .waiting (scenario.sendTime i)
  now_eq : state.now = scenario.arrivalTime i

/-- The reply has been published. If it is lost, `ping` waits for its timeout. -/
structure ReplyOnWay (scenario : Scenario) (i : ℕ) (state : State) : Prop where
  background : Background scenario i (i + 1) [] state
  published : state.pings.published.length = i + 1
  pong : PongReady scenario (i + 1) state
  ping : state.ping = .waiting (scenario.sendTime i)
  clock : state.replyClocks[i]? = some (scenario.arrivalTime i)
  mem : i ∈ state.replies.inFlight
  now_le : state.now + scenario.params.updatePeriod ≤ scenario.sendTime (i + 1)

/-- The instant at which `ping` receives the reply. -/
structure ReplyInHand (scenario : Scenario) (i : ℕ) (state : State) : Prop where
  background : Background scenario (i + 1) (i + 1) [] state
  published : state.pings.published.length = i + 1
  pong : PongReady scenario (i + 1) state
  ping : ∃ reply, state.ping = .taken reply
  now_eq : state.now + scenario.params.updatePeriod = scenario.sendTime (i + 1)

/-! ## Parts of a phase -/

theorem Background.congr {taken : ℕ} {inFlight : List ℕ}
    (h : Background scenario i taken inFlight state)
    (hpings : next.pings.inFlight = state.pings.inFlight)
    (htaken : next.pings.taken = state.pings.taken)
    (hreplies : next.replies.inFlight = state.replies.inFlight) :
    Background scenario i taken inFlight next where
  pings := hpings.trans h.pings
  taken := htaken.trans h.taken
  replies := hreplies ▸ h.replies

theorem PongReady.congr (h : PongReady scenario i state) (hpong : next.pong = state.pong)
    (hnow : next.now = state.now) : PongReady scenario i next := by
  cases h with
  | waiting hpc hdeadline => exact .waiting (hpong.trans hpc) hdeadline
  | published hpc hdeadline => exact .published (hpong.trans hpc) (hnow ▸ hdeadline)

/-- Time passes only once `pong` waits. -/
theorem PongReady.exists_waiting (h : PongReady scenario i state)
    (hbusy : state.pong.busy = false) :
    ∃ since, state.pong = .waiting since ∧ since + spinTimeout = scenario.deadline i := by
  cases h with
  | waiting hpc hdeadline => exact ⟨_, hpc, hdeadline⟩
  | published hpc _ =>
    rw [hpc] at hbusy
    cases hbusy

theorem PongReady.tick {now : ℕ} (h : PongReady scenario i state)
    (hpass : TimeMayPass scenario state now) : PongReady scenario i { state with now } := by
  obtain ⟨since, hpc, hdeadline⟩ := h.exists_waiting hpass.pong
  exact .waiting hpc hdeadline

/-- Adding the latency of the last reply restarts the timer of `pong`. -/
theorem PongReady.addLatency {message : Data} {clock : ℕ} (h : PongReady scenario i state)
    (hpc : state.pong = .published message clock) (hpong : next.pong = .waiting state.now) :
    PongReady scenario i next := by
  cases h with
  | waiting hwaiting _ => cases hpc.symm.trans hwaiting
  | published _ hdeadline => exact .waiting hpong hdeadline

theorem PongReady.not_inHand (h : PongReady scenario i state) : state.pong.inHand = 0 := by
  cases h with
  | waiting hpc _ | published hpc _ => rw [hpc]; rfl

theorem PongReady.ne_returned (h : PongReady scenario i state) : state.pong ≠ .returned := by
  cases h with
  | waiting hpc _ | published hpc _ => simp [hpc]

/-- `pong` gives up no earlier than planned. -/
theorem PongReady.deadline_le {due : ℕ} (h : PongReady scenario i state)
    (hdue : due ∈ state.pong.timer) : scenario.deadline i = due := by
  cases h with
  | waiting hpc hdeadline =>
    rw [hpc] at hdue
    cases hdue
    exact hdeadline.symm
  | published hpc _ =>
    rw [hpc] at hdue
    cases hdue

/-- The reply to an earlier ping has no arrival. -/
theorem Background.replyArrival_eq_none {taken index : ℕ} {inFlight : List ℕ}
    (h : Background scenario i taken inFlight state) (hmem : index ∈ state.replies.inFlight)
    (hlt : index < i) : scenario.replyArrival state index = none := by
  have hlost := h.replies index hmem hlt
  unfold Scenario.replyArrival
  split
  · rename_i origin clock horigin _
    rw [h.taken] at horigin
    obtain rfl : index = origin := by simpa using (List.getElem?_eq_some_iff.mp horigin).2
    rw [if_pos hlost]
  · rfl

/-- Nothing makes `pong` answer while it holds no ping. -/
theorem PongReady.not_stampReply (h : PongReady scenario i state) :
    ¬ Transition scenario.params state .stampReply next := by
  intro htransition
  have hhand := h.not_inHand
  cases htransition with
  | stampReply hpc =>
    rw [hpc] at hhand
    cases hhand

theorem PongReady.not_publishReply (h : PongReady scenario i state) :
    ¬ Transition scenario.params state .publishReply next := by
  intro htransition
  have hhand := h.not_inHand
  cases htransition with
  | publishReply hpc =>
    rw [hpc] at hhand
    cases hhand

theorem PongReady.not_pongTimeout (h : PongReady scenario i state)
    (hlt : state.now < scenario.deadline i) : ¬ Timely scenario state .pongTimeout := by
  rintro ⟨due, htimer, hdue⟩
  rw [h.deadline_le htimer] at hlt
  exact Nat.not_le_of_lt hlt hdue

theorem Background.not_takePing {taken index : ℕ} (h : Background scenario i taken [] state) :
    ¬ Transition scenario.params state (.takePing index) next := by
  intro htransition
  cases htransition with
  | takePing _ htook =>
    have hmem := htook.mem
    rw [h.pings] at hmem
    cases hmem

/-- No reply arrives before the ping of the iteration is answered. -/
theorem Background.not_takeReply {taken index : ℕ} {inFlight : List ℕ}
    (h : Background scenario i taken inFlight state)
    (hpublished : state.replies.published.length = i)
    (hguard : Timely scenario state (.takeReply index)) :
    ¬ Transition scenario.params state (.takeReply index) next := by
  intro htransition
  obtain ⟨arrival, harrival, -⟩ := hguard
  cases htransition with
  | takeReply _ htook =>
    have hlt := state.replies.lt_length index (List.mem_append_left _ htook.mem)
    rw [h.replyArrival_eq_none htook.mem (hpublished ▸ hlt)] at harrival
    cases harrival

/-! ## From the sleep to the ping -/

theorem BeforeWake.tick {now : ℕ} (h : BeforeWake scenario i state)
    (hpass : TimeMayPass scenario state now) : BeforeWake scenario i { state with now } where
  background := h.background.congr rfl rfl rfl
  published := h.published
  pong := h.pong.tick hpass
  ping := h.ping
  now_le := hpass.pingTimer _ (by rw [h.ping]; rfl)

theorem BeforeWake.wake (h : BeforeWake scenario i state) (hguard : Timely scenario state .wake)
    (htransition : Transition scenario.params state .wake next) : BeforeSend scenario i next := by
  obtain ⟨due, htimer, hdue⟩ := hguard
  rw [h.ping] at htimer
  cases htimer
  have hnow : state.now = scenario.sendTime i := h.now_le.antisymm hdue
  cases htransition with
  | wake _ _ =>
    exact ⟨h.background.congr rfl rfl rfl, h.published, h.pong.congr rfl rfl,
      congrArg PingPc.stamped hnow, hnow⟩

theorem BeforeWake.addLatency (h : BeforeWake scenario i state)
    (htransition : Transition scenario.params state .addLatency next) :
    BeforeWake scenario i next := by
  cases htransition with
  | addLatency hpc =>
    exact ⟨h.background.congr rfl rfl rfl, h.published, h.pong.addLatency hpc rfl, h.ping,
      h.now_le⟩

theorem BeforeSend.addLatency (h : BeforeSend scenario i state)
    (htransition : Transition scenario.params state .addLatency next) :
    BeforeSend scenario i next := by
  cases htransition with
  | addLatency hpc =>
    exact ⟨h.background.congr rfl rfl rfl, h.published, h.pong.addLatency hpc rfl, h.ping,
      h.now_eq⟩

theorem BeforeSend.publishPing (h : BeforeSend scenario i state)
    (hinvariant : Invariant scenario.params state)
    (htransition : Transition scenario.params state .publishPing next) :
    PingOnWay scenario i next := by
  have hlength : state.sendClocks.length = i := hinvariant.pings.length.trans h.published
  cases htransition with
  | publishPing hpc =>
    cases h.ping.symm.trans hpc
    refine ⟨⟨?_, h.background.taken, h.background.replies⟩, ?_, h.pong.congr rfl rfl,
      congrArg PingPc.waiting h.now_eq, ?_, ?_⟩
    · change state.pings.inFlight ++ [state.pings.published.length] = [i]
      rw [h.background.pings, h.published, List.nil_append]
    · change (state.pings.published ++ [state.message]).length = i + 1
      rw [List.length_append, h.published, List.length_singleton]
    · exact getElem?_concat_eq_some_iff.mpr (.inr ⟨hlength.symm, rfl⟩)
    · exact h.now_eq.trans_le (Nat.le_add_right _ _)

/-! ## From the ping to the reply -/

theorem PingOnWay.pingArrival_eq (h : PingOnWay scenario i state) (hlost : scenario.lost ≠ .ping i) :
    scenario.pingArrival state i = some (scenario.arrivalTime i) := by
  rw [Scenario.pingArrival, if_neg hlost, h.clock]
  rfl

theorem PingOnWay.tick {now : ℕ} (h : PingOnWay scenario i state)
    (hlost : scenario.lost ≠ .ping i) (hpass : TimeMayPass scenario state now) :
    PingOnWay scenario i { state with now } where
  background := h.background.congr rfl rfl rfl
  published := h.published
  pong := h.pong.tick hpass
  ping := h.ping
  clock := h.clock
  now_le := by
    have hmem : i ∈ state.pings.inFlight := by simp [h.background.pings]
    have hwaiting : state.pong.isWaiting = true := by
      obtain ⟨since, hpc, -⟩ := h.pong.exists_waiting hpass.pong
      rw [hpc]
      rfl
    exact hpass.pings hwaiting i hmem _ (h.pingArrival_eq hlost)

theorem PingOnWay.addLatency (h : PingOnWay scenario i state)
    (htransition : Transition scenario.params state .addLatency next) :
    PingOnWay scenario i next := by
  cases htransition with
  | addLatency hpc =>
    exact ⟨h.background.congr rfl rfl rfl, h.published, h.pong.addLatency hpc rfl, h.ping,
      h.clock, h.now_le⟩

theorem PingOnWay.replies_length (h : PingOnWay scenario i state) (hhands : HandsCounted state) :
    state.replies.published.length = i := by
  have hpings := hhands.pings
  rw [h.background.taken, List.length_range, h.pong.not_inHand] at hpings
  exact hpings.symm

theorem PingOnWay.takePing {index : ℕ} (h : PingOnWay scenario i state)
    (hguard : Timely scenario state (.takePing index))
    (htransition : Transition scenario.params state (.takePing index) next) :
    PingInHand scenario i next := by
  obtain ⟨arrival, harrival, hdue⟩ := hguard
  cases htransition with
  | @takePing _ _ message pings hpc htook =>
    have hmem := htook.mem
    rw [h.background.pings, List.mem_singleton] at hmem
    subst hmem
    have hlost : scenario.lost ≠ .ping index := by
      intro hlost
      rw [Scenario.pingArrival, if_pos hlost] at harrival
      cases harrival
    rw [h.pingArrival_eq hlost] at harrival
    cases harrival
    refine ⟨⟨?_, ?_, h.background.replies⟩, ?_, .inl ⟨message, rfl⟩, h.ping,
      h.now_le.antisymm hdue⟩
    · rw [htook.inFlight, h.background.pings, List.erase_cons_head]
    · rw [htook.taken, h.background.taken, List.range_succ]
    · rw [htook.published]
      exact h.published

theorem PingInHand.stampReply (h : PingInHand scenario i state)
    (htransition : Transition scenario.params state .stampReply next) :
    PingInHand scenario i next := by
  cases htransition with
  | stampReply _ =>
    exact ⟨h.background.congr rfl rfl rfl, h.published, .inr ⟨_, by rw [← h.now_eq]⟩, h.ping,
      h.now_eq⟩

theorem PingInHand.replies_length (h : PingInHand scenario i state) (hhands : HandsCounted state) :
    state.replies.published.length = i := by
  have hpings := hhands.pings
  have hhand : state.pong.inHand = 1 := by
    rcases h.pong with ⟨_, hpc⟩ | ⟨_, hpc⟩
    · rw [hpc]; rfl
    · rw [hpc]; rfl
  rw [h.background.taken, List.length_range, hhand] at hpings
  exact (Nat.succ_injective hpings).symm

theorem PingInHand.publishReply (h : PingInHand scenario i state)
    (hwithin : scenario.arrivalTime i < scenario.sendTime i + spinTimeout)
    (hinvariant : Invariant scenario.params state)
    (htransition : Transition scenario.params state .publishReply next) :
    ReplyOnWay scenario i next := by
  cases htransition with
  | @publishReply message clock hpc =>
    have hclock : clock = scenario.arrivalTime i := by
      rcases h.pong with ⟨_, htaken⟩ | ⟨_, hstamped⟩
      · cases hpc.symm.trans htaken
      · cases hpc.symm.trans hstamped
        rfl
    have hreplies := h.replies_length hinvariant.hands
    have hlength : state.replyClocks.length = i := hinvariant.replies.length.trans hreplies
    refine ⟨⟨h.background.pings, h.background.taken, fun index hmem hlt ↦ ?_⟩, h.published,
      .published rfl ?_, h.ping, ?_, ?_, ?_⟩
    · change index ∈ state.replies.inFlight ++ [state.replies.published.length] at hmem
      rw [hreplies] at hmem
      rcases List.mem_append.mp hmem with hold | hnew
      · exact h.background.replies index hold hlt
      · exact absurd (List.mem_singleton.mp hnew) hlt.ne
    · exact congrArg (· + spinTimeout) h.now_eq
    · exact getElem?_concat_eq_some_iff.mpr (.inr ⟨hlength.symm, hclock⟩)
    · exact List.mem_append_right _ (List.mem_singleton.mpr hreplies.symm)
    · change state.now + _ ≤ _
      rw [h.now_eq]
      exact Scenario.arrivalTime_add_le hwithin

/-! ## From the reply to the next sleep -/

theorem ReplyOnWay.replyArrival_eq (h : ReplyOnWay scenario i state) :
    scenario.replyArrival state i =
      if scenario.lost = .reply i then none
      else some (scenario.arrivalTime i + scenario.replyDelay i) := by
  have htaken : state.pings.taken[i]? = some i := by
    rw [h.background.taken]
    exact List.getElem?_range (Nat.lt_succ_self i)
  simp only [Scenario.replyArrival, htaken, h.clock]

theorem ReplyOnWay.tick {now : ℕ} (h : ReplyOnWay scenario i state)
    (hpass : TimeMayPass scenario state now) : ReplyOnWay scenario i { state with now } where
  background := h.background.congr rfl rfl rfl
  published := h.published
  pong := h.pong.tick hpass
  ping := h.ping
  clock := h.clock
  mem := h.mem
  now_le := by
    change now + _ ≤ _
    by_cases hlost : scenario.lost = .reply i
    · have hdue := hpass.pingTimer (scenario.sendTime i + spinTimeout) (by rw [h.ping]; rfl)
      rw [Scenario.sendTime_succ_of_lost hlost]
      exact Nat.add_le_add_right hdue _
    · have hdue := hpass.replies (by rw [h.ping]; rfl) i h.mem
        (scenario.arrivalTime i + scenario.replyDelay i) (by rw [h.replyArrival_eq, if_neg hlost]; rfl)
      rw [Scenario.sendTime_succ_of_not_lost hlost]
      exact Nat.add_le_add_right hdue _

theorem ReplyOnWay.addLatency (h : ReplyOnWay scenario i state)
    (htransition : Transition scenario.params state .addLatency next) :
    ReplyOnWay scenario i next := by
  cases htransition with
  | addLatency hpc =>
    exact ⟨h.background.congr rfl rfl rfl, h.published, h.pong.addLatency hpc rfl, h.ping,
      h.clock, h.mem, h.now_le⟩

/-- Only the reply to the last ping can arrive, and the next ping follows one period later. -/
theorem ReplyOnWay.eq_of_arrival {index arrival : ℕ} (h : ReplyOnWay scenario i state)
    (hhands : HandsCounted state) (hmem : index ∈ state.replies.inFlight)
    (harrival : arrival ∈ scenario.replyArrival state index) :
    index = i ∧ arrival + scenario.params.updatePeriod = scenario.sendTime (i + 1) := by
  have hreplies : state.replies.published.length = i + 1 := by
    have hpings := hhands.pings
    rw [h.background.taken, List.length_range, h.pong.not_inHand] at hpings
    exact hpings.symm
  have hindex : index = i := by
    rcases Nat.lt_or_ge index i with hlt | hge
    · rw [h.background.replyArrival_eq_none hmem hlt] at harrival
      cases harrival
    · have hlt := state.replies.lt_length index (List.mem_append_left _ hmem)
      omega
  subst hindex
  refine ⟨rfl, ?_⟩
  rw [h.replyArrival_eq] at harrival
  split at harrival
  · cases harrival
  · rename_i hlost
    cases harrival
    exact (Scenario.sendTime_succ_of_not_lost hlost).symm

theorem ReplyOnWay.takeReply {index : ℕ} (h : ReplyOnWay scenario i state)
    (hinvariant : Invariant scenario.params state)
    (hguard : Timely scenario state (.takeReply index))
    (htransition : Transition scenario.params state (.takeReply index) next) :
    ReplyInHand scenario i next := by
  obtain ⟨arrival, harrival, hdue⟩ := hguard
  cases htransition with
  | @takeReply _ _ reply replies hpc htook =>
    obtain ⟨rfl, hnext⟩ := h.eq_of_arrival hinvariant.hands htook.mem harrival
    refine ⟨⟨h.background.pings, h.background.taken, fun other hmem hlt ↦ ?_⟩, h.published,
      h.pong.congr rfl rfl, ⟨reply, rfl⟩, ?_⟩
    · change other ∈ replies.inFlight at hmem
      have hnodup := state.replies.nodup.sublist (List.sublist_append_left _ _)
      rw [htook.inFlight, hnodup.mem_erase_iff] at hmem
      exact h.background.replies other hmem.2 (Nat.lt_of_le_of_ne (Nat.le_of_lt_succ hlt) hmem.1)
    · exact h.now_le.antisymm (hnext ▸ Nat.add_le_add_right hdue _)

/-- The next turn of the send loop begins, as the loop is not over. -/
theorem loopHead_eq_sleeping {iteration : Int32} (hinvariant : Invariant scenario.params state)
    (hsent : state.ping.sent = 1) (hpublished : state.pings.published.length = i + 1)
    (hi : i + 1 < scenario.params.iterations)
    (hincrement : Checked.increment state.iteration = .ok iteration) :
    State.loopHead scenario.params { state with iteration } =
      .sleeping (state.now + scenario.params.updatePeriod) := by
  have hcount := hinvariant.counted.iteration
  have hnext := Checked.increment_toInt hincrement
  rw [hsent, hpublished] at hcount
  refine if_pos ?_
  change iteration.toInt < _
  rw [hnext]
  omega

theorem ReplyOnWay.pingTimeout (h : ReplyOnWay scenario i state)
    (hadmissible : scenario.Admissible) (hi : i + 1 < scenario.params.iterations)
    (hping : scenario.lost ≠ .ping i) (hinvariant : Invariant scenario.params state)
    (hguard : Timely scenario state .pingTimeout)
    (htransition : Transition scenario.params state .pingTimeout next) :
    scenario.lost = .reply i ∧ BeforeWake scenario (i + 1) next := by
  obtain ⟨due, htimer, hdue⟩ := hguard
  rw [h.ping] at htimer
  cases htimer
  have hle := h.now_le
  have hlost : scenario.lost = .reply i := by
    by_contra hlost
    have htrip := hadmissible.roundTrip i (Nat.lt_of_succ_lt hi) hping hlost
    rw [Scenario.sendTime_succ_of_not_lost hlost, Scenario.arrivalTime] at hle
    omega
  have hnow : state.now + scenario.params.updatePeriod = scenario.sendTime (i + 1) := by
    rw [Scenario.sendTime_succ_of_lost hlost] at hle ⊢
    omega
  refine ⟨hlost, ?_⟩
  cases htransition with
  | @pingTimeout _ iteration _ hincrement =>
    have hhead := loopHead_eq_sleeping hinvariant (by rw [h.ping]; rfl) h.published hi hincrement
    refine ⟨⟨h.background.pings, h.background.taken, fun index hmem hlt ↦ ?_⟩, h.published,
      h.pong.congr rfl rfl, hhead.trans (congrArg PingPc.sleeping hnow), ?_⟩
    · rcases Nat.lt_succ_iff_lt_or_eq.mp hlt with hbefore | rfl
      · exact h.background.replies index hmem hbefore
      · exact hlost
    · exact hnow ▸ Nat.le_add_right _ _

theorem ReplyInHand.addLatency (h : ReplyInHand scenario i state)
    (htransition : Transition scenario.params state .addLatency next) :
    ReplyInHand scenario i next := by
  cases htransition with
  | addLatency hpc =>
    exact ⟨h.background.congr rfl rfl rfl, h.published, h.pong.addLatency hpc rfl, h.ping,
      h.now_eq⟩

theorem ReplyInHand.pingCallback (h : ReplyInHand scenario i state)
    (hi : i + 1 < scenario.params.iterations) (hinvariant : Invariant scenario.params state)
    (htransition : Transition scenario.params state .pingCallback next) :
    BeforeWake scenario (i + 1) next := by
  cases htransition with
  | @pingCallback reply iteration hpc hincrement =>
    have hhead := loopHead_eq_sleeping hinvariant (by rw [hpc]; rfl) h.published hi hincrement
    exact ⟨h.background.congr rfl rfl rfl, h.published, h.pong.congr rfl rfl,
      hhead.trans (congrArg PingPc.sleeping h.now_eq), h.now_eq ▸ Nat.le_add_right _ _⟩

end LayerPingPong.TwoWay
