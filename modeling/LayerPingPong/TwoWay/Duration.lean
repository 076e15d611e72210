import Mathlib.Algebra.Order.Group.Nat
import LayerPingPong.Base.Pacing
import LayerPingPong.TwoWay.Completion
import LayerPingPong.TwoWay.Files
import LayerPingPong.TwoWay.Timing

/-!
# How long an exchange takes

Sleeps and waits end when they are due or a bounded time later, and all other statements take no
time. Which messages are lost and how long the others take is left open. The clock readings of both
processes then lie in windows that grow with every message, and both processes are through when the
last window has closed.
-/

namespace LayerPingPong.TwoWay

open TransitionSystem Pacing Pace

variable {params : RtParams} {late start wakeAt : ℕ} {state next : State} {event : Event}

/-- The clock may go on to `now`: no process has a statement to execute, and none is kept in a sleep
or a wait for longer than `late` after its end. -/
structure OnTime (late : ℕ) (state : State) (now : ℕ) : Prop where
  ping : state.ping.busy = false
  pong : state.pong.busy = false
  pingTimer : ∀ due ∈ state.ping.timer, now ≤ due + late
  pongTimer : ∀ due ∈ state.pong.timer, now ≤ due + late

instance (late : ℕ) (state : State) (now : ℕ) : Decidable (OnTime late state now) :=
  decidable_of_iff
    (state.ping.busy = false ∧ state.pong.busy = false ∧
      (∀ due ∈ state.ping.timer, now ≤ due + late) ∧ ∀ due ∈ state.pong.timer, now ≤ due + late)
    ⟨fun ⟨hping, hpong, hpingTimer, hpongTimer⟩ ↦ ⟨hping, hpong, hpingTimer, hpongTimer⟩,
    fun h ↦ ⟨h.ping, h.pong, h.pingTimer, h.pongTimer⟩⟩

/-- Sleeps and waits end neither early nor more than `late` after they are due. -/
def Punctual (late : ℕ) (state : State) : Event → Prop
  | .tick now => OnTime late state now
  | .wake | .pingTimeout => ∃ due ∈ state.ping.timer, due ≤ state.now
  | .pongTimeout => ∃ due ∈ state.pong.timer, due ≤ state.now
  | _ => True

instance (late : ℕ) (state : State) (event : Event) : Decidable (Punctual late state event) :=
  match event with
  | .tick now => inferInstanceAs (Decidable (OnTime late state now))
  | .wake | .pingTimeout =>
    inferInstanceAs (Decidable (∃ due ∈ state.ping.timer, due ≤ state.now))
  | .pongTimeout => inferInstanceAs (Decidable (∃ due ∈ state.pong.timer, due ≤ state.now))
  | .publishPing | .takeReply _ | .pingCallback | .takePing _ | .stampReply | .publishReply
  | .addLatency | .losePing _ | .loseReply _ => inferInstanceAs (Decidable True)

/-! ## The pings -/

/-- A turn of the send loop takes its sleep and at most its wait. -/
def sendPace (params : RtParams) (late start wakeAt : ℕ) : Pace ℕ where
  earliest := wakeAt
  latest := max start wakeAt + late
  least := params.updatePeriod
  most := params.updatePeriod + (spinTimeout + 2 * late)

/-- Where the clock is while `ping` is at this statement, after pings with these clock readings. -/
def PingPc.OnPace (pace : Pace ℕ) (late : ℕ) (clocks : List ℕ) (now : ℕ) : PingPc → Prop
  | .sleeping wakeAt => pace.earliestNext clocks ≤ wakeAt ∧
      wakeAt + late ≤ pace.latestNext clocks ∧ now ≤ pace.latestNext clocks
  | .stamped clock => clock = now ∧ pace.earliestNext clocks ≤ now ∧ now ≤ pace.latestNext clocks
  | .waiting since => clocks.getLast? = some since ∧ since ≤ now ∧
      now ≤ since + (spinTimeout + late)
  | .taken _ => ∃ since, clocks.getLast? = some since ∧ since ≤ now ∧
      now ≤ since + (spinTimeout + late)
  | .finished => True

/-- Every ping is sent in its window, and every reply is received during the wait after a ping. -/
structure PingPaced (params : RtParams) (late start wakeAt : ℕ) (state : State) : Prop where
  pc : state.ping.OnPace (sendPace params late start wakeAt) late state.sendClocks state.now
  sends : (sendPace params late start wakeAt).Kept state.sendClocks
  samples : ∀ sample ∈ state.pingSamples, ∃ since ∈ state.sendClocks,
    since ≤ sample.receiveClock ∧ sample.receiveClock ≤ since + (spinTimeout + late)

theorem pingPaced_start : PingPaced params late start wakeAt (.start params start wakeAt) := by
  refine ⟨?_, kept_nil, nofun⟩
  change PingPc.OnPace _ _ _ _ (if 0 < params.iterations then .sleeping wakeAt else .finished)
  split
  · refine ⟨le_rfl, ?_, ?_⟩
    · exact Nat.add_le_add_right (le_max_right start wakeAt) late
    · exact (le_max_left start wakeAt).trans (Nat.le_add_right _ late)
  · trivial

/-- The head of the loop, reached in the wait after a ping. -/
theorem loopHead_onPace {since : ℕ} (hlast : state.sendClocks.getLast? = some since)
    (hsince : since ≤ state.now) (hnow : state.now ≤ since + (spinTimeout + late)) :
    (state.loopHead params).OnPace (sendPace params late start wakeAt) late state.sendClocks
      state.now := by
  unfold State.loopHead
  split
  · change (sendPace params late start wakeAt).earliestNext state.sendClocks ≤ _ ∧
      _ ≤ (sendPace params late start wakeAt).latestNext state.sendClocks ∧ _
    rw [earliestNext_of_getLast? hlast, latestNext_of_getLast? hlast]
    simp only [sendPace]
    omega
  · trivial

theorem PingPaced.tick {now : ℕ} (h : PingPaced params late start wakeAt state)
    (hontime : OnTime late state now) (hle : state.now ≤ now) :
    PingPaced params late start wakeAt { state with now } := by
  refine ⟨?_, h.sends, h.samples⟩
  have hpc := h.pc
  have hbusy := hontime.ping
  have htimer := hontime.pingTimer
  change state.ping.OnPace _ _ _ now
  cases hping : state.ping with
  | sleeping wakeAt =>
    rw [hping] at hpc htimer
    exact ⟨hpc.1, hpc.2.1, (htimer wakeAt rfl).trans hpc.2.1⟩
  | waiting since =>
    rw [hping] at hpc htimer
    have hdue := htimer (since + spinTimeout) rfl
    exact ⟨hpc.1, hpc.2.1.trans hle, by omega⟩
  | stamped clock | taken reply =>
    rw [hping] at hbusy
    cases hbusy
  | finished => trivial

/-- A step of `ping` that sends nothing and adds no latency. -/
theorem PingPaced.move (h : PingPaced params late start wakeAt state)
    (hclocks : next.sendClocks = state.sendClocks) (hsamples : next.pingSamples = state.pingSamples)
    (hpc : next.ping.OnPace (sendPace params late start wakeAt) late state.sendClocks next.now) :
    PingPaced params late start wakeAt next where
  pc := by
    rw [hclocks]
    exact hpc
  sends := by
    rw [hclocks]
    exact h.sends
  samples := by
    rw [hclocks, hsamples]
    exact h.samples

theorem PingPaced.preserved (h : PingPaced params late start wakeAt state)
    (hguard : Punctual late state event) (htransition : Transition params state event next) :
    PingPaced params late start wakeAt next := by
  have hpc := h.pc
  cases htransition with
  | tick hle => exact h.tick hguard hle
  | wake hping _ =>
    obtain ⟨due, htimer, hdue⟩ := hguard
    rw [hping] at hpc htimer
    cases htimer
    exact h.move rfl rfl ⟨rfl, hpc.1.trans hdue, hpc.2.2⟩
  | publishPing hping =>
    rw [hping] at hpc
    obtain ⟨rfl, hearliest, hlatest⟩ := hpc
    refine ⟨⟨List.getLast?_concat, le_rfl, Nat.le_add_right _ _⟩, h.sends.concat hearliest hlatest,
      fun sample hsample ↦ ?_⟩
    obtain ⟨since, hmem, hreceive⟩ := h.samples sample hsample
    exact ⟨since, List.mem_append_left _ hmem, hreceive⟩
  | @takeReply _ since _ _ hping _ =>
    rw [hping] at hpc
    exact h.move rfl rfl ⟨since, hpc⟩
  | pingCallback hping _ =>
    rw [hping] at hpc
    obtain ⟨since, hlast, hsince, hnow⟩ := hpc
    refine ⟨loopHead_onPace hlast hsince hnow, h.sends, fun sample hsample ↦ ?_⟩
    rcases List.mem_append.mp hsample with hold | hnew
    · exact h.samples sample hold
    · obtain rfl := List.mem_singleton.mp hnew
      exact ⟨since, List.mem_of_getLast? hlast, hsince, hnow⟩
  | pingTimeout hping _ =>
    rw [hping] at hpc
    obtain ⟨hlast, hsince, hnow⟩ := hpc
    exact h.move rfl rfl (loopHead_onPace hlast hsince hnow)
  | _ => exact h.move rfl rfl hpc

/-! ## The replies -/

/-- `pong` answers within its timeout, or not at all. -/
def replyPace (late start : ℕ) : Pace ℕ where
  earliest := start
  latest := start + (spinTimeout + late)
  least := 0
  most := spinTimeout + late

/-- Where the clock is while `pong` is at this statement, after replies with these clock readings. -/
def PongPc.OnPace (pace : Pace ℕ) (clocks : List ℕ) (now : ℕ) : PongPc → Prop
  | .waiting since => since = pace.earliestNext clocks ∧ since ≤ now ∧ now ≤ pace.latestNext clocks
  | .taken _ => pace.earliestNext clocks ≤ now ∧ now ≤ pace.latestNext clocks
  | .stamped _ clock => clock = now ∧ pace.earliestNext clocks ≤ now ∧ now ≤ pace.latestNext clocks
  | .published _ clock => clock = now ∧ now = pace.earliestNext clocks
  | .returned => pace.earliestNext clocks + spinTimeout ≤ now

/-- Every reply is stamped in its window. -/
structure PongPaced (late start : ℕ) (state : State) : Prop where
  pc : state.pong.OnPace (replyPace late start) state.replyClocks state.now
  replies : (replyPace late start).Kept state.replyClocks

theorem pongPaced_start : PongPaced late start (.start params start wakeAt) :=
  ⟨⟨rfl, le_rfl, Nat.le_add_right _ _⟩, kept_nil⟩

theorem replyPace_latestNext (late start : ℕ) (clocks : List ℕ) :
    (replyPace late start).latestNext clocks =
      (replyPace late start).earliestNext clocks + (spinTimeout + late) := by
  cases hlast : clocks.getLast? with
  | none =>
    obtain rfl := List.getLast?_eq_none_iff.mp hlast
    rfl
  | some last =>
    rw [earliestNext_of_getLast? hlast, latestNext_of_getLast? hlast]
    rfl

theorem PongPaced.tick {now : ℕ} (h : PongPaced late start state)
    (hontime : OnTime late state now) (hle : state.now ≤ now) :
    PongPaced late start { state with now } := by
  refine ⟨?_, h.replies⟩
  have hpc := h.pc
  have hbusy := hontime.pong
  have htimer := hontime.pongTimer
  change state.pong.OnPace _ _ now
  cases hpong : state.pong with
  | waiting since =>
    rw [hpong] at hpc htimer
    have hdue := htimer (since + spinTimeout) rfl
    refine ⟨hpc.1, hpc.2.1.trans hle, ?_⟩
    rw [replyPace_latestNext, ← hpc.1]
    omega
  | taken message | stamped message clock | published message clock =>
    rw [hpong] at hbusy
    cases hbusy
  | returned =>
    rw [hpong] at hpc
    exact hpc.trans hle

theorem PongPaced.preserved (h : PongPaced late start state) (hguard : Punctual late state event)
    (htransition : Transition params state event next) : PongPaced late start next := by
  have hpc := h.pc
  cases htransition with
  | tick hle => exact h.tick hguard hle
  | takePing hpong _ =>
    rw [hpong] at hpc
    obtain ⟨rfl, hsince, hnow⟩ := hpc
    exact ⟨⟨hsince, hnow⟩, h.replies⟩
  | stampReply hpong =>
    rw [hpong] at hpc
    exact ⟨⟨rfl, hpc⟩, h.replies⟩
  | publishReply hpong =>
    rw [hpong] at hpc
    obtain ⟨rfl, hearliest, hlatest⟩ := hpc
    refine ⟨⟨rfl, ?_⟩, h.replies.concat hearliest hlatest⟩
    change state.now = (replyPace late start).earliestNext (state.replyClocks ++ [state.now])
    rw [earliestNext_concat]
    rfl
  | addLatency hpong =>
    rw [hpong] at hpc
    obtain ⟨rfl, hnow⟩ := hpc
    refine ⟨⟨hnow, le_rfl, ?_⟩, h.replies⟩
    rw [replyPace_latestNext, ← hnow]
    exact Nat.le_add_right _ _
  | pongTimeout hpong =>
    obtain ⟨due, htimer, hdue⟩ := hguard
    rw [hpong] at hpc htimer
    cases htimer
    obtain ⟨rfl, -, -⟩ := hpc
    exact ⟨hdue, h.replies⟩
  | _ => exact ⟨hpc, h.replies⟩

/-! ## Until both are through -/

/-- The longest that one iteration can take. -/
def turnTime (params : RtParams) (late : ℕ) : ℕ := params.updatePeriod + (spinTimeout + 2 * late)

theorem PingPaced.now_le (h : PingPaced params late start wakeAt state)
    (hinvariant : Invariant params state) (hping : state.ping ≠ .finished) :
    state.now ≤ max start wakeAt + params.iterations * turnTime params late := by
  have hpc := h.pc
  obtain ⟨-, hnext⟩ := h.sends.next
  have hiteration := hinvariant.counted.iteration
  have hrunning := hinvariant.counted.running hping
  have hbound := hinvariant.counted.le_iterations
  have hlength := hinvariant.pings.length
  have hmost : (sendPace params late start wakeAt).most = turnTime params late := rfl
  have hlatest : (sendPace params late start wakeAt).latest = max start wakeAt + late := rfl
  rw [Nat.nsmul_eq_mul, hmost, hlatest] at hnext
  -- before the ping of this turn there is a whole turn left for it, and after it most of one
  cases hstate : state.ping with
  | sleeping wakeAt' | stamped clock =>
    rw [hstate] at hpc hiteration
    have hfewer : state.sendClocks.length + 1 ≤ params.iterations := by
      simp only [PingPc.sent] at hiteration
      omega
    have hturns := Nat.mul_le_mul_right (turnTime params late) hfewer
    have hnow := hpc.2.2
    rw [Nat.succ_mul] at hturns
    have hlate : late ≤ turnTime params late := by
      unfold turnTime
      omega
    omega
  | waiting since | taken reply =>
    rw [hstate] at hpc
    obtain ⟨since, hlast, -, hnow⟩ : ∃ since, state.sendClocks.getLast? = some since ∧
        since ≤ state.now ∧ state.now ≤ since + (spinTimeout + late) := by
      first | exact hpc | exact ⟨_, hpc⟩
    rw [latestNext_of_getLast? hlast, hmost] at hnext
    have hturns := Nat.mul_le_mul_right (turnTime params late) (hlength.trans_le hbound)
    unfold turnTime at *
    omega
  | finished => exact absurd hstate hping

theorem PongPaced.now_le (h : PongPaced late start state) (hinvariant : Invariant params state)
    (hpong : state.pong ≠ .returned) :
    state.now ≤ start + (params.iterations + 1) * (spinTimeout + late) := by
  have hpc := h.pc
  obtain ⟨-, hnext⟩ := h.replies.next
  have hbounded := hinvariant.bounded
  have hlength := hinvariant.replies.length
  have hlatest : (replyPace late start).latest = start + (spinTimeout + late) := rfl
  have hmost : (replyPace late start).most = spinTimeout + late := rfl
  have hcount : state.replyClocks.length ≤ params.iterations :=
    hlength.trans_le (hbounded.replies.trans hbounded.pings)
  have hwaits := Nat.mul_le_mul_right (spinTimeout + late) hcount
  rw [Nat.nsmul_eq_mul, hmost, hlatest] at hnext
  rw [Nat.succ_mul]
  have hnow : state.now ≤ (replyPace late start).latestNext state.replyClocks := by
    cases hstate : state.pong with
    | waiting since | stamped message clock =>
      rw [hstate] at hpc
      exact hpc.2.2
    | taken message =>
      rw [hstate] at hpc
      exact hpc.2
    | published message clock =>
      rw [hstate] at hpc
      rw [replyPace_latestNext, ← hpc.2]
      exact Nat.le_add_right _ _
    | returned => exact absurd hstate hpong
  omega

/-- `pong` gives up after no reply for the length of its timeout. -/
theorem PongPaced.timeout_le (h : PongPaced late start state) (hpong : state.pong = .returned)
    {clock : ℕ} (hclock : clock ∈ start :: state.replyClocks) : clock + spinTimeout ≤ state.now := by
  have hpc := h.pc
  rw [hpong] at hpc
  have hle : clock ≤ (replyPace late start).earliestNext state.replyClocks := by
    rcases List.mem_cons.mp hclock with rfl | hreply
    · exact (Nat.le_add_right _ _).trans h.replies.next.1
    · obtain ⟨index, hindex⟩ := List.mem_iff_getElem?.mp hreply
      exact (Nat.le_add_right _ _).trans (h.replies.next_of_getElem? hindex).1
  exact (Nat.add_le_add_right hle spinTimeout).trans hpc

/-! ## The clock never gets stuck -/

/-- `ping` has a statement to execute, or its sleep or wait is over. -/
def PingDue (state : State) : Prop :=
  state.ping.busy = true ∨ ∃ due ∈ state.ping.timer, due ≤ state.now

/-- `pong` has a statement to execute, or its wait is over. -/
def PongDue (state : State) : Prop :=
  state.pong.busy = true ∨ ∃ due ∈ state.pong.timer, due ≤ state.now

/-- The event is the next one of a process that has something to do. -/
inductive Ready (state : State) (event : Event) : Prop where
  | ping : state.ping.proceeds = some event → PingDue state → Ready state event
  | pong : state.pong.proceeds = some event → PongDue state → Ready state event

theorem exists_ready_of_ping (h : PingDue state) : ∃ event, Ready state event := by
  cases hproceeds : state.ping.proceeds with
  | some event => exact ⟨event, .ping hproceeds h⟩
  | none =>
    unfold PingDue at h
    rw [PingPc.proceeds_eq_none_iff.mp hproceeds] at h
    rcases h with hbusy | ⟨due, htimer, -⟩
    · cases hbusy
    · cases htimer

theorem exists_ready_of_pong (h : PongDue state) : ∃ event, Ready state event := by
  cases hproceeds : state.pong.proceeds with
  | some event => exact ⟨event, .pong hproceeds h⟩
  | none =>
    unfold PongDue at h
    rw [PongPc.proceeds_eq_none_iff.mp hproceeds] at h
    rcases h with hbusy | ⟨due, htimer, -⟩
    · cases hbusy
    · cases htimer

theorem Ready.isActive (h : Ready state event) : event.isActive = true := by
  cases h with
  | ping hproceeds _ => exact PingPc.isActive_of_proceeds hproceeds
  | pong hproceeds _ => exact PongPc.isActive_of_proceeds hproceeds

theorem Ready.exists_step (h : Ready state event) (hcounted : PingsCounted params state)
    (hiterations : params.iterations < 2 ^ 31) : ∃ next, step params state event = some next := by
  cases h with
  | ping hproceeds _ => exact exists_step_of_ping hcounted hiterations hproceeds
  | pong hproceeds _ => exact exists_step_of_pong hproceeds

/-- What ends a sleep or a wait is punctual, and all other statements may be executed any time. -/
theorem Ready.punctual (h : Ready state event) : Punctual late state event := by
  cases h with
  | ping hproceeds hdue =>
    cases hpc : state.ping with
    | sleeping wakeAt | waiting since =>
      unfold PingDue at hdue
      rw [hpc] at hproceeds hdue
      cases hproceeds
      obtain ⟨due, htimer, hle⟩ := hdue.resolve_left Bool.false_ne_true
      exact ⟨due, hpc ▸ htimer, hle⟩
    | stamped clock | taken reply =>
      rw [hpc] at hproceeds
      cases hproceeds
      trivial
    | finished =>
      rw [hpc] at hproceeds
      cases hproceeds
  | pong hproceeds hdue =>
    cases hpc : state.pong with
    | waiting since =>
      unfold PongDue at hdue
      rw [hpc] at hproceeds hdue
      cases hproceeds
      obtain ⟨due, htimer, hle⟩ := hdue.resolve_left Bool.false_ne_true
      exact ⟨due, hpc ▸ htimer, hle⟩
    | taken message | stamped message clock | published message clock =>
      rw [hpc] at hproceeds
      cases hproceeds
      trivial
    | returned =>
      rw [hpc] at hproceeds
      cases hproceeds

theorem PingPc.timer_eq_none_iff {pc : PingPc} (hidle : pc.busy = false) :
    pc.timer = none ↔ pc = .finished := by
  cases pc <;> simp_all [timer, busy]

theorem PongPc.timer_eq_none_iff {pc : PongPc} (hidle : pc.busy = false) :
    pc.timer = none ↔ pc = .returned := by
  cases pc <;> simp_all [timer, busy]

/-- The earlier of two timers, if one of them is set. -/
theorem exists_first_due {first second : Option ℕ} (h : ¬ (first = none ∧ second = none)) :
    ∃ due, (due ∈ first ∨ due ∈ second) ∧ (∀ other ∈ first, due ≤ other) ∧
      ∀ other ∈ second, due ≤ other := by
  cases first with
  | none =>
    cases second with
    | none => exact absurd ⟨rfl, rfl⟩ h
    | some due => exact ⟨due, .inr rfl, nofun, fun _ hother ↦ (Option.some.inj hother).le⟩
  | some due =>
    cases second with
    | none => exact ⟨due, .inl rfl, fun _ hother ↦ (Option.some.inj hother).le, nofun⟩
    | some due' =>
      rcases le_total due due' with hle | hle
      · exact ⟨due, .inl rfl, fun _ hother ↦ (Option.some.inj hother).le,
          fun _ hother ↦ hle.trans (Option.some.inj hother).le⟩
      · exact ⟨due', .inr rfl, fun _ hother ↦ hle.trans (Option.some.inj hother).le,
          fun _ hother ↦ (Option.some.inj hother).le⟩

/-- The clock can go on to the next end of a sleep or a wait. -/
theorem exists_elapsed (params : RtParams) (late start wakeAt : ℕ) {due : ℕ}
    (hping : state.ping.busy = false) (hpong : state.pong.busy = false)
    (hpingTimer : ∀ other ∈ state.ping.timer, due ≤ other)
    (hpongTimer : ∀ other ∈ state.pong.timer, due ≤ other) :
    ∃ events now, (exchange params start wakeAt).runUnder (Punctual late) state events =
      some { state with now } ∧ due ≤ now := by
  by_cases hdue : due ≤ state.now
  · exact ⟨[], state.now, rfl, hdue⟩
  · refine ⟨[.tick due], due, System.runUnder_singleton ?_ (if_pos (Nat.le_of_not_le hdue)), le_rfl⟩
    exact ⟨hping, hpong, fun other hother ↦ (hpingTimer other hother).trans (Nat.le_add_right _ _),
      fun other hother ↦ (hpongTimer other hother).trans (Nat.le_add_right _ _)⟩

/-- As long as one process is not through, time passes until one of them has something to do. -/
theorem exists_ready (params : RtParams) (late start wakeAt : ℕ)
    (hleft : ¬ (state.ping = .finished ∧ state.pong = .returned)) :
    ∃ events now event, (exchange params start wakeAt).runUnder (Punctual late) state events =
      some { state with now } ∧ Ready { state with now } event := by
  cases hping : state.ping.busy with
  | true =>
    obtain ⟨event, hready⟩ := exists_ready_of_ping (.inl hping : PingDue state)
    exact ⟨[], state.now, event, rfl, hready⟩
  | false =>
    cases hpong : state.pong.busy with
    | true =>
      obtain ⟨event, hready⟩ := exists_ready_of_pong (.inl hpong : PongDue state)
      exact ⟨[], state.now, event, rfl, hready⟩
    | false =>
      rw [← PingPc.timer_eq_none_iff hping, ← PongPc.timer_eq_none_iff hpong] at hleft
      obtain ⟨due, htimer, hpingTimer, hpongTimer⟩ := exists_first_due hleft
      obtain ⟨events, now, hrun, hle⟩ :=
        exists_elapsed params late start wakeAt hping hpong hpingTimer hpongTimer
      rcases htimer with hmem | hmem
      · obtain ⟨event, hready⟩ :=
          exists_ready_of_ping (.inr ⟨due, hmem, hle⟩ : PingDue { state with now })
        exact ⟨events, now, event, hrun, hready⟩
      · obtain ⟨event, hready⟩ :=
          exists_ready_of_pong (.inr ⟨due, hmem, hle⟩ : PongDue { state with now })
        exact ⟨events, now, event, hrun, hready⟩

/-- From there the process makes its step. -/
theorem exists_progress (hcounted : PingsCounted params state)
    (hiterations : params.iterations < 2 ^ 31)
    (hleft : ¬ (state.ping = .finished ∧ state.pong = .returned)) :
    ∃ events next, (exchange params start wakeAt).runUnder (Punctual late) state events =
      some next ∧ next.potential params < state.potential params := by
  obtain ⟨events, now, event, hrun, hready⟩ := exists_ready params late start wakeAt hleft
  have hlater : PingsCounted params { state with now } := hcounted.congr rfl rfl rfl rfl rfl
  obtain ⟨next, hstep⟩ := hready.exists_step hlater hiterations
  refine ⟨events ++ [event], next,
    System.runUnder_append hrun (System.runUnder_singleton hready.punctual hstep), ?_⟩
  have hlowers := potential_lowers hlater hstep
  rw [if_pos hready.isActive] at hlowers
  exact hlowers

/-! ## Whole exchanges -/

section Exchange

variable (h : (exchange params start wakeAt).ReachableUnder (Punctual late) state)

include h

theorem pingPaced_of_reachable : PingPaced params late start wakeAt state := by
  refine h.invariant (PingPaced params late start wakeAt) ?_ fun _ _ _ hold hguard hstep ↦
    hold.preserved hguard (transition_of_step params hstep)
  rintro _ rfl
  exact pingPaced_start

theorem pongPaced_of_reachable : PongPaced late start state := by
  refine h.invariant (PongPaced late start) ?_ fun _ _ _ hold hguard hstep ↦
    hold.preserved hguard (transition_of_step params hstep)
  rintro _ rfl
  exact pongPaced_start

omit h in
/-- Where the clock readings of both processes are, and how long each of them runs. -/
structure InTime (params : RtParams) (late start wakeAt : ℕ) (state : State) : Prop where
  sends : ∀ (index count first later : ℕ), state.sendClocks[index]? = some first →
    state.sendClocks[index + count]? = some later →
      first + count * params.updatePeriod ≤ later ∧ later ≤ first + count * turnTime params late
  replies : ∀ (index count first later : ℕ), state.replyClocks[index]? = some first →
    state.replyClocks[index + count]? = some later →
      first ≤ later ∧ later ≤ first + count * (spinTimeout + late)
  ping : state.ping ≠ .finished →
    state.now ≤ max start wakeAt + params.iterations * turnTime params late
  pong : state.pong ≠ .returned →
    state.now ≤ start + (params.iterations + 1) * (spinTimeout + late)
  patience : state.pong = .returned → ∀ clock ∈ start :: state.replyClocks,
    clock + spinTimeout ≤ state.now

/-- The clock readings are as far apart as the sleeps and waits between them, both processes are
through in time, `pong` not before its timeout, and the clock never gets stuck before that. -/
theorem exchange_inTime (hiterations : params.iterations < 2 ^ 31) :
    InTime params late start wakeAt state ∧
      ∃ rest last, (exchange params start wakeAt).runUnder (Punctual late) state rest = some last ∧
        last.ping = .finished ∧ last.pong = .returned := by
  have hping := pingPaced_of_reachable h
  have hpong := pongPaced_of_reachable h
  have hinvariant := invariant_of_reachable h.reachable
  refine ⟨⟨?_, ?_, hping.now_le hinvariant, hpong.now_le hinvariant,
    fun hreturned _ ↦ hpong.timeout_le hreturned⟩, ?_⟩
  · intro index count first later hfirst hlater
    exact hping.sends.between hfirst count hlater
  · intro index count first later hfirst hlater
    obtain ⟨hleast, hmost⟩ := hpong.replies.between hfirst count hlater
    exact ⟨(Nat.le_add_right _ _).trans hleast, hmost⟩
  · apply System.exists_runUnder_of_decreasing (State.potential params) _ _ h
    intro state hreachable hleft
    exact exists_progress (invariant_of_reachable hreachable.reachable).counted hiterations hleft

/-! ## The latencies are in range -/

/-- No process adds a latency after the last wait of `ping`. -/
theorem receiveClock_le (hstart : start ≤ wakeAt) (process : Process) {sample : Sample}
    (hsample : sample ∈ state.samples process) :
    sample.receiveClock ≤ wakeAt + params.iterations * turnTime params late := by
  have hinvariant := invariant_of_reachable h.reachable
  have hbounded := hinvariant.bounded
  cases process with
  | ping =>
    have hping := pingPaced_of_reachable h
    obtain ⟨since, hmem, -, hreceive⟩ := hping.samples sample hsample
    obtain ⟨index, hindex⟩ := List.mem_iff_getElem?.mp hmem
    obtain ⟨-, hsince⟩ := hping.sends.window hindex
    have hlength := hinvariant.pings.length
    have hlt := (List.getElem?_eq_some_iff.mp hindex).1
    have hturns := Nat.mul_le_mul_right (turnTime params late)
      (Nat.succ_le_of_lt (hlt.trans_le (hlength.trans_le hbounded.pings)))
    have hlatest : (sendPace params late start wakeAt).latest = wakeAt + late :=
      congrArg (· + late) (max_eq_right hstart)
    rw [hlatest] at hsince
    change since ≤ wakeAt + late + index * turnTime params late at hsince
    rw [Nat.succ_mul] at hturns
    unfold turnTime at *
    omega
  | pong =>
    have hpong := pongPaced_of_reachable h
    obtain ⟨number, hnumber⟩ := List.mem_iff_getElem?.mp hsample
    obtain ⟨-, -, -, -, -, hclock, -, -⟩ := pongSample_exact hinvariant
      (pongSamplesRecorded_of_reachable h.reachable) hnumber
    obtain ⟨-, hreceive⟩ := hpong.replies.window hclock
    have hlength := hinvariant.replies.length
    have hlt := (List.getElem?_eq_some_iff.mp hclock).1
    have hfewer := hlt.trans_le (hlength.trans_le (hbounded.replies.trans hbounded.pings))
    have hwait : spinTimeout + late ≤ turnTime params late := by
      unfold turnTime
      omega
    have hwaits := Nat.mul_le_mul (Nat.succ_le_of_lt hfewer) hwait
    change sample.receiveClock ≤ start + (spinTimeout + late) + number * (spinTimeout + late)
      at hreceive
    rw [Nat.succ_mul] at hwaits
    omega

/-- The latencies of both processes are exact, and none exceeds the planned time of the exchange. -/
theorem samples_inTime (hstart : start ≤ wakeAt)
    (hrange : wakeAt + params.iterations * turnTime params late < 2 ^ 63) (process : Process)
    {number : ℕ} {sample : Sample} (hsample : (state.samples process)[number]? = some sample) :
    ∃ index sendClock : ℕ, state.measured number process = some index ∧
      state.sendClocks[index]? = some sendClock ∧
      (sample.latency.toNat : ℤ) = sample.receiveClock - sendClock ∧
      sample.latency.toNat ≤ params.iterations * turnTime params late := by
  obtain ⟨index, sendClock, hmeasured, hsend, hle, -, hlatency⟩ :=
    samples_exact (invariant_of_reachable h.reachable)
      (pongSamplesRecorded_of_reachable h.reachable) process hsample
  have hreceive := receiveClock_le h hstart process (List.mem_of_getElem? hsample)
  have hdifference := hlatency (hreceive.trans_lt hrange)
  obtain ⟨hsent, -⟩ := (pingPaced_of_reachable h).sends.window hsend
  have hearliest : wakeAt ≤ sendClock := (Nat.le_add_right _ _).trans hsent
  exact ⟨index, sendClock, hmeasured, hsend, by omega, by omega⟩

theorem countable_of_punctual (hstart : start ≤ wakeAt)
    (hshort : params.iterations * turnTime params late < 2147483648000)
    (hrange : wakeAt + params.iterations * turnTime params late < 2 ^ 63) (process : Process) :
    Countable ((state.samples process).map Sample.latency) := by
  intro ns hns
  obtain ⟨sample, hmem, rfl⟩ := List.mem_map.mp hns
  obtain ⟨number, hsample⟩ := List.mem_iff_getElem?.mp hmem
  obtain ⟨-, -, -, -, -, hle⟩ := samples_inTime h hstart hrange process hsample
  exact hle.trans_lt hshort

/-- If the exchange is planned to end within 35 minutes, its latencies are exact and can be counted,
and both processes write their files. -/
theorem files_of_punctual (hstart : start ≤ wakeAt)
    (hshort : params.iterations * turnTime params late < 2147483648000)
    (hrange : wakeAt + params.iterations * turnTime params late < 2 ^ 63) (process : Process)
    (opens : String → Bool) {options : Params} (hrt : options.rt = params)
    (hlayer : options.layer ∈ layers) (hnames : TopnHasReport (process.filenames options))
    (hiterations : params.iterations < 2 ^ 31) :
    process.run opens options (state.deliveries process) = .ok (.exported
      (files opens (process.filenames options) params.iterations
        ((state.samples process).map Sample.latency))) ∧
    ∀ (number : ℕ) (sample : Sample), (state.samples process)[number]? = some sample →
      ∃ index sendClock : ℕ, state.measured number process = some index ∧
        state.sendClocks[index]? = some sendClock ∧
        (sample.latency.toNat : ℤ) = sample.receiveClock - sendClock ∧
        sample.latency.toNat ≤ params.iterations * turnTime params late := by
  refine ⟨?_, fun number sample hsample ↦ samples_inTime h hstart hrange process hsample⟩
  subst hrt
  rw [← ending_of_layer hlayer hnames]
  apply run_deliveries (invariant_of_reachable h.reachable)
    (pongSamplesRecorded_of_reachable h.reachable) process opens options hiterations hiterations
  exact countable_of_punctual h hstart hshort hrange process

end Exchange

/-- The first reply comes after a sleep that was two nanoseconds too long. -/
theorem reachable_late : ∃ state : State,
    (exchange ⟨2, 1000000⟩ 0 5).ReachableUnder (Punctual 2) state ∧
      state.pingSamples = [⟨9, 2⟩] := by
  have hlate : (exchange ⟨2, 1000000⟩ 0 5).ReachableUnder (Punctual 2) _ :=
    System.ReachableUnder.runUnder (.initial rfl)
      [.tick 7, .wake, .publishPing, .takePing 0, .stampReply, .publishReply, .addLatency, .tick 9,
        .takeReply 0, .pingCallback] rfl
  exact ⟨_, hlate, rfl⟩

theorem exchange_inTime_late : ∃ state : State, state.pingSamples = [⟨9, 2⟩] ∧
    InTime ⟨2, 1000000⟩ 2 0 5 state ∧
    ∃ rest last, (exchange ⟨2, 1000000⟩ 0 5).runUnder (Punctual 2) state rest = some last ∧
      last.ping = .finished ∧ last.pong = .returned := by
  obtain ⟨state, hreachable, hsamples⟩ := reachable_late
  exact ⟨state, hsamples, exchange_inTime hreachable (by decide)⟩

theorem files_of_punctual_late : ∃ state : State,
    Process.ping.run (fun _ ↦ true) (paramsFor ⟨"hist.csv", "topn.csv", "series.csv"⟩)
      (state.deliveries .ping) = .ok (.exported (files (fun _ ↦ true)
        ⟨"hist.csv", "topn.csv", "series.csv"⟩ 2 [2])) := by
  obtain ⟨state, hreachable, hsamples⟩ := reachable_late
  have hfiles := (files_of_punctual hreachable (by decide) (by decide) (by decide) .ping
    (fun _ ↦ true) (rfl : (paramsFor ⟨"hist.csv", "topn.csv", "series.csv"⟩).rt = _)
    (by decide) (by decide) (by decide)).1
  refine ⟨state, ?_⟩
  rw [hfiles]
  change Except.ok (Ending.exported (files _ _ _ (state.pingSamples.map Sample.latency))) = _
  rw [hsamples]
  rfl

end LayerPingPong.TwoWay
