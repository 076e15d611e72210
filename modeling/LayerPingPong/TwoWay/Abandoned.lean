import LayerPingPong.TwoWay.Outlives

/-!
# When ping is abandoned

Both processes time out after the same time. If `pong` misses a ping, its timer has run out when
`ping` gives up waiting for the reply, and the next ping is sent to nobody. The schedules below lead
to that state from the first ping that `pong` does not serve.
-/

namespace LayerPingPong.TwoWay

open TransitionSystem

variable {scenario : Scenario} {i : ℕ} {state next : State} {event : Event}

abbrev TimelyReachable (scenario : Scenario) (state : State) : Prop :=
  (exchange scenario.params 0 scenario.firstSend).ReachableUnder (Timely scenario) state

theorem TimelyReachable.invariant (h : TimelyReachable scenario state) :
    Invariant scenario.params state := invariant_of_reachable h.reachable

theorem TimelyReachable.tick {now : ℕ} (h : TimelyReachable scenario state)
    (hnow : state.now ≤ now) (hpass : TimeMayPass scenario state now) :
    TimelyReachable scenario { state with now } :=
  have hguard : Timely scenario state (.tick now) := hpass
  .step h hguard (if_pos hnow)

/-- One more event. -/
theorem TimelyReachable.extend (h : TimelyReachable scenario state) (event : Event)
    (hguard : Timely scenario state event)
    (henabled : ∃ next, step scenario.params state event = some next) :
    ∃ next, TimelyReachable scenario next ∧ Transition scenario.params state event next := by
  obtain ⟨next, hstep⟩ := henabled
  exact ⟨next, .step h hguard hstep, transition_of_step _ hstep⟩

/-! ## Events that can happen -/

section Counters

variable (hinvariant : Invariant scenario.params state)
  (hcounters : scenario.params.iterations < 2 ^ 31)

include hinvariant hcounters

theorem exists_wake {wakeAt : ℕ} (hping : state.ping = .sleeping wakeAt) :
    ∃ next, step scenario.params state .wake = some next := by
  have hcount := hinvariant.counted.count
  have hiteration := hinvariant.counted.iteration
  have hrunning := hinvariant.counted.running (by simp [hping])
  rw [hping] at hcount hiteration
  simp only [PingPc.prepared, PingPc.sent] at hcount hiteration
  obtain ⟨count, hincrement⟩ : ∃ count, Checked.increment state.count = .ok count :=
    Checked.exists_increment (by omega)
  simp [step, hping, hincrement]

theorem exists_nextIteration (hping : state.ping ≠ .finished) :
    ∃ iteration, Checked.increment state.iteration = .ok iteration := by
  have hrunning := hinvariant.counted.running hping
  exact Checked.exists_increment (by omega)

theorem exists_pingTimeout {since : ℕ} (hping : state.ping = .waiting since) :
    ∃ next, step scenario.params state .pingTimeout = some next := by
  obtain ⟨iteration, hincrement⟩ := exists_nextIteration hinvariant hcounters (by simp [hping])
  simp [step, hping, State.nextIteration, hincrement]

theorem exists_pingCallback {reply : Data} (hping : state.ping = .taken reply) :
    ∃ next, step scenario.params state .pingCallback = some next := by
  obtain ⟨iteration, hincrement⟩ := exists_nextIteration hinvariant hcounters (by simp [hping])
  simp [step, hping, State.nextIteration, hincrement]

end Counters

/-! ## How long nothing happens -/

theorem BeforeWake.timeMayPass (h : BeforeWake scenario i state) {since now : ℕ}
    (hpong : state.pong = .waiting since) (hsend : now ≤ scenario.sendTime i)
    (hdeadline : now ≤ scenario.deadline i) : TimeMayPass scenario state now where
  ping := by rw [h.ping]; rfl
  pong := by rw [hpong]; rfl
  pingTimer := by simpa [h.ping, PingPc.timer] using hsend
  pongTimer due hdue := h.pong.deadline_le hdue ▸ hdeadline
  replies := by simp [h.ping, PingPc.isWaiting]
  pings := by simp [h.background.pings]

theorem PingOnWay.replyArrival_eq_none {index : ℕ} (h : PingOnWay scenario i state)
    (hhands : HandsCounted state) (hmem : index ∈ state.replies.inFlight) :
    scenario.replyArrival state index = none := by
  have hlt := state.replies.lt_length index (List.mem_append_left _ hmem)
  rw [h.replies_length hhands] at hlt
  exact h.background.replyArrival_eq_none hmem hlt

theorem PingOnWay.timeMayPass (h : PingOnWay scenario i state) (hhands : HandsCounted state)
    {since now : ℕ} (hpong : state.pong = .waiting since)
    (htimer : now ≤ scenario.sendTime i + spinTimeout) (hdeadline : now ≤ scenario.deadline i)
    (harrives : scenario.lost ≠ .ping i → now ≤ scenario.arrivalTime i) :
    TimeMayPass scenario state now where
  ping := by rw [h.ping]; rfl
  pong := by rw [hpong]; rfl
  pingTimer := by simpa [h.ping, PingPc.timer] using htimer
  pongTimer due hdue := h.pong.deadline_le hdue ▸ hdeadline
  replies _ index hmem arrival harrival := by
    rw [h.replyArrival_eq_none hhands hmem] at harrival
    cases harrival
  pings _ index hmem arrival harrival := by
    rw [h.background.pings, List.mem_singleton] at hmem
    subst hmem
    by_cases hlost : scenario.lost = .ping index
    · rw [Scenario.pingArrival, if_pos hlost] at harrival
      cases harrival
    · rw [h.pingArrival_eq hlost] at harrival
      cases harrival
      exact harrives hlost

/-- The wait of `ping` can last until the reply arrives or the timer runs out. -/
theorem ReplyOnWay.timeMayPass (h : ReplyOnWay scenario i state)
    (hadmissible : scenario.Admissible) (hi : i < scenario.params.iterations)
    (hping : scenario.lost ≠ .ping i) {since now : ℕ} (hpong : state.pong = .waiting since)
    (hhands : HandsCounted state)
    (hnow : now + scenario.params.updatePeriod = scenario.sendTime (i + 1)) :
    TimeMayPass scenario state now := by
  have htimer : now ≤ scenario.sendTime i + spinTimeout ∧
      now ≤ scenario.arrivalTime i + spinTimeout := by
    rw [Scenario.arrivalTime]
    by_cases hlost : scenario.lost = .reply i
    · rw [Scenario.sendTime_succ_of_lost hlost] at hnow
      omega
    · have htrip := hadmissible.roundTrip i hi hping hlost
      rw [Scenario.sendTime_succ_of_not_lost hlost, Scenario.arrivalTime] at hnow
      omega
  refine ⟨by rw [h.ping]; rfl, by rw [hpong]; rfl, ?_, fun due hdue ↦ ?_,
    fun _ index hmem arrival harrival ↦ ?_, ?_⟩
  · simpa [h.ping, PingPc.timer] using htimer.1
  · rw [← h.pong.deadline_le hdue]
    exact htimer.2
  · have hnext := (h.eq_of_arrival hhands hmem harrival).2
    omega
  · simp [h.background.pings]

/-- Without `pong` only the timer of `ping` and the replies on their way matter. -/
theorem timeMayPass_of_returned {due : ℕ} (hpong : state.pong = .returned)
    (hping : state.ping.timer = some due)
    (hreplies : state.ping.isWaiting = true → ∀ index ∈ state.replies.inFlight,
      scenario.replyArrival state index = none) : TimeMayPass scenario state due where
  ping := by
    cases hpc : state.ping with
    | sleeping _ | waiting _ | finished => rfl
    | stamped _ | taken _ =>
      rw [hpc] at hping
      cases hping
  pong := by rw [hpong]; rfl
  pingTimer := by simp [hping]
  pongTimer := by simp [hpong, PongPc.timer]
  replies hwaiting index hmem arrival harrival := by
    rw [hreplies hwaiting index hmem] at harrival
    cases harrival
  pings := by simp [hpong, PongPc.isWaiting]

/-! ## One iteration -/

/-- The ping is sent when its time has come. -/
theorem BeforeWake.exists_pingOnWay (hreachable : TimelyReachable scenario state)
    (h : BeforeWake scenario i state) (hcounters : scenario.params.iterations < 2 ^ 31)
    {since : ℕ} (hpong : state.pong = .waiting since)
    (hdeadline : scenario.sendTime i ≤ scenario.deadline i) :
    ∃ next, TimelyReachable scenario next ∧ PingOnWay scenario i next ∧
      next.pong = state.pong ∧ next.now = scenario.sendTime i := by
  have hpass := h.timeMayPass hpong le_rfl hdeadline
  have htick := hreachable.tick h.now_le hpass
  have hwake := h.tick hpass
  have hguard : Timely scenario { state with now := scenario.sendTime i } .wake :=
    ⟨_, by rw [hwake.ping]; rfl, le_rfl⟩
  obtain ⟨stamped, hstamped, htransition⟩ :=
    htick.extend .wake hguard (exists_wake htick.invariant hcounters hwake.ping)
  have hsend := hwake.wake hguard htransition
  have hsame : stamped.pong = state.pong := by
    cases htransition
    rfl
  obtain ⟨sent, hsent, hpublish⟩ :=
    hstamped.extend .publishPing trivial (by simp [step, hsend.ping])
  refine ⟨sent, hsent, hsend.publishPing hstamped.invariant hpublish, ?_, ?_⟩
  · cases hpublish
    exact hsame
  · cases hpublish
    exact hsend.now_eq

/-- `pong` answers a ping at once and waits for the next one. -/
theorem PingInHand.exists_replyOnWay (hreachable : TimelyReachable scenario state)
    (h : PingInHand scenario i state)
    (hwithin : scenario.arrivalTime i < scenario.sendTime i + spinTimeout) {message : Data}
    (hpong : state.pong = .taken message) :
    ∃ next, TimelyReachable scenario next ∧ ReplyOnWay scenario i next ∧
      next.pong = .waiting (scenario.arrivalTime i) ∧ next.now = scenario.arrivalTime i := by
  obtain ⟨stamped, hstamped, hstamp⟩ :=
    hreachable.extend .stampReply trivial (by simp [step, hpong])
  have hhand := h.stampReply hstamp
  obtain ⟨answer, clock, hanswer⟩ : ∃ answer clock, stamped.pong = .stamped answer clock := by
    cases hstamp
    exact ⟨_, _, rfl⟩
  obtain ⟨published, hpublished, hpublish⟩ :=
    hstamped.extend .publishReply trivial (by simp [step, hanswer])
  have hreply := hhand.publishReply hwithin hstamped.invariant hpublish
  obtain ⟨answer, clock, hanswer⟩ : ∃ answer clock, published.pong = .published answer clock := by
    cases hpublish
    exact ⟨_, _, rfl⟩
  obtain ⟨waiting, hwaiting, hadd⟩ :=
    hpublished.extend .addLatency trivial (by simp [step, hanswer])
  have hnow : published.now = scenario.arrivalTime i := by
    cases hpublish
    exact hhand.now_eq
  refine ⟨waiting, hwaiting, hreply.addLatency hadd, ?_, ?_⟩
  · cases hadd
    exact congrArg PongPc.waiting hnow
  · cases hadd
    exact hnow

/-- A ping in time is answered. -/
theorem PingOnWay.exists_replyOnWay (hreachable : TimelyReachable scenario state)
    (h : PingOnWay scenario i state) {since : ℕ} (hpong : state.pong = .waiting since)
    (hlost : scenario.lost ≠ .ping i) (hinTime : scenario.arrivalTime i < scenario.deadline i)
    (hwithin : scenario.arrivalTime i < scenario.sendTime i + spinTimeout) :
    ∃ next, TimelyReachable scenario next ∧ ReplyOnWay scenario i next ∧
      next.pong = .waiting (scenario.arrivalTime i) ∧ next.now = scenario.arrivalTime i := by
  have hpass := h.timeMayPass hreachable.invariant.hands hpong hwithin.le hinTime.le fun _ ↦ le_rfl
  have htick := hreachable.tick h.now_le hpass
  have harrived := h.tick hlost hpass
  have hflight : i ∈ state.pings.inFlight := by simp [h.background.pings]
  obtain ⟨message, pings, htake⟩ := Channel.exists_take hflight
  have hguard : Timely scenario { state with now := scenario.arrivalTime i } (.takePing i) :=
    ⟨_, harrived.pingArrival_eq hlost, le_rfl⟩
  obtain ⟨taken, htaken, htransition⟩ :=
    htick.extend (.takePing i) hguard (by simp [step, hpong, htake])
  have hhand := harrived.takePing hguard htransition
  obtain ⟨message, hmessage⟩ : ∃ message, taken.pong = .taken message := by
    cases htransition
    exact ⟨_, rfl⟩
  exact hhand.exists_replyOnWay htaken hwithin hmessage

/-- The next turn of the send loop begins while `pong` still waits. -/
theorem ReplyOnWay.exists_beforeWake (hreachable : TimelyReachable scenario state)
    (h : ReplyOnWay scenario i state) (hadmissible : scenario.Admissible)
    (hcounters : scenario.params.iterations < 2 ^ 31) (hi : i + 1 < scenario.params.iterations)
    (hping : scenario.lost ≠ .ping i) {since : ℕ} (hpong : state.pong = .waiting since) :
    ∃ next, TimelyReachable scenario next ∧ BeforeWake scenario (i + 1) next ∧
      next.pong = state.pong ∧
      next.now + scenario.params.updatePeriod = scenario.sendTime (i + 1) := by
  obtain ⟨now, hnow⟩ : ∃ now, now + scenario.params.updatePeriod = scenario.sendTime (i + 1) :=
    ⟨_, Nat.sub_add_cancel (Nat.le_of_add_left_le h.now_le)⟩
  have hpass := h.timeMayPass hadmissible (Nat.lt_of_succ_lt hi) hping hpong
    hreachable.invariant.hands hnow
  have hle : state.now ≤ now := Nat.le_of_add_le_add_right (hnow ▸ h.now_le)
  have htick := hreachable.tick hle hpass
  have hend := h.tick hpass
  by_cases hlost : scenario.lost = .reply i
  · have hguard : Timely scenario { state with now } .pingTimeout := by
      refine ⟨scenario.sendTime i + spinTimeout, by rw [hend.ping]; rfl, ?_⟩
      rw [Scenario.sendTime_succ_of_lost hlost] at hnow
      exact (Nat.add_right_cancel hnow).ge
    obtain ⟨next, hnext, htransition⟩ :=
      htick.extend .pingTimeout hguard (exists_pingTimeout htick.invariant hcounters hend.ping)
    have hwake := (hend.pingTimeout hadmissible hi hping htick.invariant hguard htransition).2
    refine ⟨next, hnext, hwake, ?_⟩
    cases htransition
    exact ⟨rfl, hnow⟩
  · have hguard : Timely scenario { state with now } (.takeReply i) := by
      refine ⟨_, by rw [hend.replyArrival_eq, if_neg hlost]; rfl, ?_⟩
      rw [Scenario.sendTime_succ_of_not_lost hlost] at hnow
      exact (Nat.add_right_cancel hnow).ge
    obtain ⟨reply, replies, htake⟩ := Channel.exists_take h.mem
    obtain ⟨taken, htaken, htransition⟩ :=
      htick.extend (.takeReply i) hguard (by simp [step, h.ping, htake])
    have hhand := hend.takeReply htick.invariant hguard htransition
    obtain ⟨reply, hreply⟩ := hhand.ping
    obtain ⟨next, hnext, hcallback⟩ :=
      htaken.extend .pingCallback trivial (exists_pingCallback htaken.invariant hcounters hreply)
    refine ⟨next, hnext, hhand.pingCallback hi htaken.invariant hcallback, ?_⟩
    cases htransition
    cases hcallback
    exact ⟨rfl, hnow⟩

/-! ## Pings to nobody -/

/-- The sleep of `ping` goes on without `pong`. -/
theorem not_pongOutlives_of_sleeping (hreachable : TimelyReachable scenario state)
    (hcounters : scenario.params.iterations < 2 ^ 31) {wakeAt : ℕ}
    (hping : state.ping = .sleeping wakeAt) (hnow : state.now ≤ wakeAt)
    (hpong : state.pong = .returned) : ¬ PongOutlives scenario := by
  intro houtlives
  have hpass : TimeMayPass scenario state wakeAt :=
    timeMayPass_of_returned hpong (by rw [hping]; rfl) (by simp [hping, PingPc.isWaiting])
  have htick := hreachable.tick hnow hpass
  have hguard : Timely scenario { state with now := wakeAt } .wake :=
    ⟨wakeAt, by rw [hping]; rfl, le_rfl⟩
  obtain ⟨next, hnext, htransition⟩ :=
    htick.extend .wake hguard (exists_wake htick.invariant hcounters hping)
  cases htransition with
  | wake => exact houtlives _ hnext _ rfl hpong

/-- The wait of `ping` goes on without `pong`. -/
theorem not_pongOutlives_of_waiting (hreachable : TimelyReachable scenario state)
    (hcounters : scenario.params.iterations < 2 ^ 31) (hi : i + 1 < scenario.params.iterations)
    (hpublished : state.pings.published.length = i + 1) {since : ℕ}
    (hping : state.ping = .waiting since) (hnow : state.now ≤ since + spinTimeout)
    (hreplies : ∀ index ∈ state.replies.inFlight, scenario.replyArrival state index = none)
    (hpong : state.pong = .returned) : ¬ PongOutlives scenario := by
  have hpass : TimeMayPass scenario state (since + spinTimeout) :=
    timeMayPass_of_returned hpong (by rw [hping]; rfl) fun _ ↦ hreplies
  have htick := hreachable.tick hnow hpass
  have hguard : Timely scenario { state with now := since + spinTimeout } .pingTimeout :=
    ⟨since + spinTimeout, by rw [hping]; rfl, le_rfl⟩
  obtain ⟨next, hnext, htransition⟩ :=
    htick.extend .pingTimeout hguard (exists_pingTimeout htick.invariant hcounters hping)
  cases htransition with
  | pingTimeout hpc hincrement =>
    have hhead := loopHead_eq_sleeping htick.invariant (by rw [hpc]; rfl) hpublished hi hincrement
    exact not_pongOutlives_of_sleeping hnext hcounters hhead (Nat.le_add_right _ _) hpong

/-- `pong` gives up at its deadline. -/
theorem TimelyReachable.pongTimeout (h : TimelyReachable scenario state)
    (hready : PongReady scenario i state) {since : ℕ} (hpong : state.pong = .waiting since)
    (hnow : state.now ≤ scenario.deadline i)
    (hpass : TimeMayPass scenario state (scenario.deadline i)) :
    TimelyReachable scenario
      { state with now := scenario.deadline i, pong := .returned } := by
  have hguard : Timely scenario { state with now := scenario.deadline i } .pongTimeout :=
    ⟨since + spinTimeout, by rw [hpong]; rfl, (hready.deadline_le (by rw [hpong]; rfl)).ge⟩
  obtain ⟨next, hnext, htransition⟩ :=
    (h.tick hnow hpass).extend .pongTimeout hguard (by simp [step, hpong])
  cases htransition
  exact hnext

/-- `pong` gives up during the sleep of `ping`. -/
theorem BeforeWake.not_pongOutlives (hreachable : TimelyReachable scenario state)
    (h : BeforeWake scenario i state) (hcounters : scenario.params.iterations < 2 ^ 31)
    {since : ℕ} (hpong : state.pong = .waiting since) (hnow : state.now ≤ scenario.deadline i)
    (hdeadline : scenario.deadline i ≤ scenario.sendTime i) : ¬ PongOutlives scenario := by
  have hpass := h.timeMayPass hpong hdeadline le_rfl
  have hreturned := hreachable.pongTimeout h.pong hpong hnow hpass
  exact not_pongOutlives_of_sleeping hreturned hcounters h.ping hdeadline rfl

/-- `pong` gives up while a ping is on its way, or lost. -/
theorem PingOnWay.not_pongOutlives (hreachable : TimelyReachable scenario state)
    (h : PingOnWay scenario i state) (hcounters : scenario.params.iterations < 2 ^ 31)
    (hi : i + 1 < scenario.params.iterations) (hserves : ∀ j < i, scenario.Serves j)
    {since : ℕ} (hpong : state.pong = .waiting since) (hnow : state.now ≤ scenario.deadline i)
    (hlate : scenario.lost ≠ .ping i → scenario.deadline i ≤ scenario.arrivalTime i) :
    ¬ PongOutlives scenario := by
  have hhands := hreachable.invariant.hands
  have hdeadline := Scenario.deadline_le hserves
  have hpass := h.timeMayPass hhands hpong hdeadline le_rfl hlate
  have hreturned := hreachable.pongTimeout h.pong hpong hnow hpass
  exact not_pongOutlives_of_waiting hreturned hcounters hi h.published h.ping hdeadline
    (fun _ hmem ↦ h.replyArrival_eq_none hhands hmem) rfl

/-! ## The first ping that is not served -/

/-- `pong` waits for every ping before which it serves all others. -/
theorem exists_beforeWake (hadmissible : scenario.Admissible)
    (hcounters : scenario.params.iterations < 2 ^ 31) (hi : i < scenario.params.iterations)
    (hserves : ∀ j < i, scenario.Serves j) :
    ∃ state, TimelyReachable scenario state ∧ BeforeWake scenario i state ∧
      ∃ since, state.pong = .waiting since := by
  induction i with
  | zero =>
    exact ⟨_, .initial rfl, ⟨⟨rfl, rfl, nofun⟩, rfl, .waiting rfl (Nat.zero_add _), if_pos hi,
      Nat.zero_le _⟩, _, rfl⟩
  | succ i ih =>
    have hbefore : ∀ j < i, scenario.Serves j := fun j hj ↦ hserves j (Nat.lt_succ_of_lt hj)
    have hserved := hserves i (Nat.lt_succ_self i)
    have hlt := Nat.lt_of_succ_lt hi
    obtain ⟨before, hreachable, hwake, since, hpong⟩ := ih hlt hbefore
    have hsend := hadmissible.sendTime_lt hlt hbefore
    obtain ⟨sent, hsent, hway, hsame, -⟩ := hwake.exists_pingOnWay hreachable hcounters hpong hsend.le
    obtain ⟨answered, hanswered, hreply, hwaiting, -⟩ := hway.exists_replyOnWay hsent
      (hsame.trans hpong) hserved.ping hserved.inTime
      (Scenario.arrivalTime_lt hbefore hserved.inTime)
    obtain ⟨next, hnext, hagain, hstill, -⟩ :=
      hreply.exists_beforeWake hanswered hadmissible hcounters hi hserved.ping hwaiting
    exact ⟨next, hnext, hagain, _, hstill.trans hwaiting⟩

theorem serves_of_pongOutlives (hadmissible : scenario.Admissible)
    (hcounters : scenario.params.iterations < 2 ^ 31) (houtlives : PongOutlives scenario)
    (hi : i + 1 < scenario.params.iterations) : scenario.Serves i := by
  induction i using Nat.strong_induction_on with
  | h i ih =>
    have hbefore : ∀ j < i, scenario.Serves j := fun j hj ↦ ih j hj (by omega)
    have hlt := Nat.lt_of_succ_lt hi
    obtain ⟨before, hreachable, hwake, since, hpong⟩ :=
      exists_beforeWake hadmissible hcounters hlt hbefore
    have hsend := hadmissible.sendTime_lt hlt hbefore
    obtain ⟨sent, hsent, hway, hsame, hnow⟩ :=
      hwake.exists_pingOnWay hreachable hcounters hpong hsend.le
    have hsince := hsame.trans hpong
    have hdue : sent.now ≤ scenario.deadline i := hnow ▸ hsend.le
    have hping : scenario.lost ≠ .ping i := fun hlost ↦
      hway.not_pongOutlives hsent hcounters hi hbefore hsince hdue (absurd hlost) houtlives
    have hinTime : scenario.arrivalTime i < scenario.deadline i := by
      by_contra hlate
      exact hway.not_pongOutlives hsent hcounters hi hbefore hsince hdue
        (fun _ ↦ Nat.le_of_not_lt hlate) houtlives
    refine ⟨hping, hinTime, fun hlost ↦ ?_⟩
    by_contra hperiod
    obtain ⟨answered, hanswered, hreply, hwaiting, -⟩ :=
      hway.exists_replyOnWay hsent hsince hping hinTime (Scenario.arrivalTime_lt hbefore hinTime)
    obtain ⟨next, hnext, hagain, hstill, hnext_now⟩ :=
      hreply.exists_beforeWake hanswered hadmissible hcounters hi hping hwaiting
    have hgap := Scenario.sendTime_succ_of_lost hlost
    refine hagain.not_pongOutlives hnext hcounters (hstill.trans hwaiting) ?_ ?_ houtlives
    · rw [Scenario.deadline, Scenario.arrivalTime]
      omega
    · rw [Scenario.deadline, Scenario.arrivalTime]
      omega

/-- `pong` outlives `ping` if it serves every ping but the last, and only then, unless the loop
counter of `ping` overflows. -/
theorem pongOutlives_iff_serves (hadmissible : scenario.Admissible) :
    ((∀ i, i + 1 < scenario.params.iterations → scenario.Serves i) → PongOutlives scenario) ∧
      (scenario.params.iterations < 2 ^ 31 → PongOutlives scenario →
        ∀ i, i + 1 < scenario.params.iterations → scenario.Serves i) :=
  ⟨pongOutlives_of_serves hadmissible,
    fun hcounters houtlives _ hi ↦ serves_of_pongOutlives hadmissible hcounters houtlives hi⟩

/-- Losing the last reply does no harm. -/
theorem pongOutlives_iff_serves_lastLost :
    PongOutlives ⟨⟨3, 500000000⟩, 1000000000, .reply 2, fun _ ↦ 1000000, fun _ ↦ 2000000⟩ := by
  refine (pongOutlives_iff_serves ⟨by decide, by decide, by decide⟩).1 fun i hi ↦ ?_
  obtain rfl | rfl : i = 0 ∨ i = 1 := by
    change i + 1 < 3 at hi
    omega
  · exact ⟨by decide, by decide, by decide⟩
  · exact ⟨by decide, by decide, by decide⟩

/-- The second of three pings is lost. -/
def pingLost : Scenario where
  params := ⟨3, 500000000⟩
  firstSend := 1000000000
  lost := .ping 1
  pingDelay _ := 1000000
  replyDelay _ := 1000000

def abandonment : List Event :=
  [.tick 1000000000, .wake, .publishPing, .tick 1001000000, .takePing 0, .stampReply,
    .publishReply, .addLatency, .tick 1002000000, .takeReply 0, .pingCallback, .tick 1502000000,
    .wake, .publishPing, .tick 4001000000, .pongTimeout, .tick 4502000000, .pingTimeout,
    .tick 5002000000, .wake]

/-- The third ping is sent one second after `pong` has returned. -/
theorem ping_abandoned : pingLost.Admissible ∧ ¬ PongOutlives pingLost := by
  refine ⟨⟨by decide, by decide, by decide⟩, fun houtlives ↦ ?_⟩
  have hrun : ((exchange pingLost.params 0 pingLost.firstSend).runUnder (Timely pingLost)
      (.start pingLost.params 0 pingLost.firstSend) abandonment).map
        (fun state ↦ (state.ping, state.pong)) = some (.stamped 5002000000, .returned) := by
    decide +kernel
  obtain ⟨state, hlast, hpcs⟩ := Option.map_eq_some_iff.mp hrun
  obtain ⟨hping, hpong⟩ := Prod.mk.inj hpcs
  exact houtlives state (System.ReachableUnder.runUnder (.initial rfl) _ hlast) _ hping hpong

end LayerPingPong.TwoWay
