import LayerPingPong.TwoWay.Soundness

/-!
# The latencies of pong

`pong` adds a latency after it has published the reply, with the clock reading that the reply
carries. So its latency is the way of the ping, and the latency that `ping` adds for the same reply
is that one and the way back.
-/

namespace LayerPingPong.TwoWay

open TransitionSystem

variable {params : RtParams} {state next : State} {event : Event}

/-- The sample is the latency of the reply with the given number. -/
def AddedFor (state : State) (number : ℕ) (sample : Sample) : Prop :=
  ∃ reply, state.replies.published[number]? = some reply ∧
    state.replyClocks[number]? = some sample.receiveClock ∧
    sample.latency = latency (timespecToUint64 sample.receiveClock) reply

theorem AddedFor.grows {number : ℕ} {sample : Sample} (h : AddedFor state number sample)
    (hgrows : Grows state next) : AddedFor next number sample := by
  obtain ⟨reply, hreply, hclock, hlatency⟩ := h
  exact ⟨reply, getElem?_of_prefix hgrows.replies hreply,
    getElem?_of_prefix hgrows.replyClocks hclock, hlatency⟩

/-- Every latency added by `pong`, or about to be, belongs to the reply published before it. -/
structure PongSamplesRecorded (state : State) : Prop where
  added : ∀ number sample, state.pongSamples[number]? = some sample → AddedFor state number sample
  published : ∀ message clock, state.pong = .published message clock →
    AddedFor state state.pongSamples.length
      ⟨clock, latency (timespecToUint64 clock) message⟩

theorem PongSamplesRecorded.frame (h : PongSamplesRecorded state) (hgrows : Grows state next)
    (hsamples : next.pongSamples = state.pongSamples)
    (hpong : ∀ message clock, next.pong = .published message clock →
      state.pong = .published message clock) : PongSamplesRecorded next where
  added number sample hsample := by
    rw [hsamples] at hsample
    exact (h.added number sample hsample).grows hgrows
  published message clock hpc := by
    rw [hsamples]
    exact (h.published message clock (hpong message clock hpc)).grows hgrows

theorem PongSamplesRecorded.preserved (h : PongSamplesRecorded state)
    (hreplies : RepliesRecorded state) (hhands : HandsCounted state)
    (htransition : Transition params state event next) : PongSamplesRecorded next := by
  have hgrows := grows_of_transition htransition
  cases htransition with
  | @publishReply message clock hpc =>
    have hlength := hhands.samples
    rw [hpc] at hlength
    change state.replies.published.length = state.pongSamples.length at hlength
    refine ⟨fun number sample hsample ↦ (h.added number sample hsample).grows hgrows,
      fun other clock' hother ↦ ?_⟩
    cases hother
    refine ⟨message, ?_, ?_, rfl⟩
    · exact getElem?_concat_eq_some_iff.mpr (.inr ⟨hlength.symm, rfl⟩)
    · exact getElem?_concat_eq_some_iff.mpr (.inr ⟨(hreplies.length.trans hlength).symm, rfl⟩)
  | @addLatency message clock hpc =>
    refine ⟨fun number sample hsample ↦ ?_, nofun⟩
    rcases getElem?_concat_eq_some_iff.mp hsample with hold | ⟨rfl, rfl⟩
    · exact (h.added number sample hold).grows hgrows
    · exact (h.published message clock hpc).grows hgrows
  | takePing _ _ | stampReply _ | pongTimeout _ => exact h.frame hgrows rfl nofun
  | _ => exact h.frame hgrows rfl fun _ _ hpc ↦ hpc

theorem pongSamplesRecorded_of_reachable {now wakeAt : ℕ}
    (h : (exchange params now wakeAt).Reachable state) : PongSamplesRecorded state := by
  have hboth : Invariant params state ∧ PongSamplesRecorded state := by
    refine h.invariant (fun state ↦ Invariant params state ∧ PongSamplesRecorded state) ?_ ?_
    · rintro _ rfl
      exact ⟨invariant_start now wakeAt, nofun, nofun⟩
    · intro state event next hold _ hstep
      have htransition := transition_of_step params hstep
      exact ⟨hold.1.preserved hstep,
        hold.2.preserved hold.1.replies hold.1.hands htransition⟩
  exact hboth.2

/-! ## Exact latencies of both processes -/

/-- The latency of `pong` is the time from the sending of the ping to its own clock reading. -/
theorem pongSample_exact (h : Invariant params state) (hpong : PongSamplesRecorded state)
    {number : ℕ} {sample : Sample} (hsample : state.pongSamples[number]? = some sample) :
    ∃ index sendClock, state.pings.taken[number]? = some index ∧
      state.sendClocks[index]? = some sendClock ∧ sendClock ≤ sample.receiveClock ∧
      state.replyClocks[number]? = some sample.receiveClock ∧ sample.receiveClock ≤ state.now ∧
      (sample.receiveClock < 2 ^ 63 →
        sample.latency.toNat = sample.receiveClock - sendClock) := by
  obtain ⟨reply, hreply, hclock, hlatency⟩ := hpong.added number sample hsample
  obtain ⟨replyClock, hclock', index, ping, sendClock, htaken, hsent, rfl, hle, hpast⟩ :=
    h.replies.answered number reply hreply
  obtain rfl : sample.receiveClock = replyClock := Option.some.inj (hclock.symm.trans hclock')
  refine ⟨index, sendClock, htaken, hsent.clock, hle, hclock, hpast, fun hlt ↦ ?_⟩
  rw [hlatency]
  exact latency_toNat hsent.stamped hle hlt

/-- The latency of `ping` is the time from the sending of the ping that its reply answers. -/
theorem pingSample_exact (h : Invariant params state) {number : ℕ} {sample : Sample}
    (hsample : state.pingSamples[number]? = some sample) :
    ∃ reply replyClock index sendClock, state.replies.taken[number]? = some reply ∧
      state.replyClocks[reply]? = some replyClock ∧ state.pings.taken[reply]? = some index ∧
      state.sendClocks[index]? = some sendClock ∧ sendClock ≤ replyClock ∧
      replyClock ≤ sample.receiveClock ∧ sample.receiveClock ≤ state.now ∧
      (sample.receiveClock < 2 ^ 63 →
        sample.latency.toNat = sample.receiveClock - sendClock) := by
  obtain ⟨reply, message, replyClock, htaken, hmessage, hclock, hreceive, hpast, hlatency⟩ :=
    h.samples.measured number sample hsample
  obtain ⟨replyClock', hclock', index, ping, sendClock, hindex, hsent, rfl, hle, -⟩ :=
    h.replies.answered reply message hmessage
  obtain rfl : replyClock = replyClock' := Option.some.inj (hclock.symm.trans hclock')
  refine ⟨reply, replyClock, index, sendClock, htaken, hclock, hindex, hsent.clock, hle, hreceive,
    hpast, fun hlt ↦ ?_⟩
  rw [hlatency]
  exact latency_toNat hsent.stamped (hle.trans hreceive) hlt

/-- In every reachable state the latencies of `pong` are exact and belong to different pings, and a
latency of `ping` is that of `pong` for the same reply and the time from that reading on. -/
theorem roundTrips_split {now wakeAt : ℕ} (hnow : now < 2 ^ 63)
    (h : (exchange params now wakeAt).ReachableUnder ClockInRange state) :
    (∀ (number : ℕ) (sample : Sample), state.pongSamples[number]? = some sample →
      ∃ index sendClock : ℕ, state.pings.taken[number]? = some index ∧
        state.sendClocks[index]? = some sendClock ∧
        (sample.latency.toNat : ℤ) = sample.receiveClock - sendClock) ∧
    state.pings.taken.Nodup ∧
    ∀ (number : ℕ) (sample : Sample), state.pingSamples[number]? = some sample →
      ∃ reply replyClock : ℕ, state.replies.taken[number]? = some reply ∧
        state.replyClocks[reply]? = some replyClock ∧ replyClock ≤ sample.receiveClock ∧
        ∀ pongSample : Sample, state.pongSamples[reply]? = some pongSample →
          pongSample.receiveClock = replyClock ∧
          (sample.latency.toNat : ℤ) =
            pongSample.latency.toNat + (sample.receiveClock - replyClock) := by
  have hinvariant := invariant_of_reachable h.reachable
  have hpong := pongSamplesRecorded_of_reachable h.reachable
  have hlt := now_lt_of_clockInRange hnow h
  refine ⟨fun number sample hsample ↦ ?_, state.pings.taken_nodup, fun number sample hsample ↦ ?_⟩
  · obtain ⟨index, sendClock, htaken, hsend, hle, -, hpast, hexact⟩ :=
      pongSample_exact hinvariant hpong hsample
    have hlatency := hexact (hpast.trans_lt hlt)
    exact ⟨index, sendClock, htaken, hsend, by omega⟩
  · obtain ⟨reply, replyClock, index, sendClock, htaken, hclock, hindex, hsend, hle, hreceive, hpast,
      hexact⟩ := pingSample_exact hinvariant hsample
    have hlatency := hexact (hpast.trans_lt hlt)
    refine ⟨reply, replyClock, htaken, hclock, hreceive, fun pongSample hpongSample ↦ ?_⟩
    obtain ⟨index', sendClock', hindex', hsend', -, hclock', hpast', hexact'⟩ :=
      pongSample_exact hinvariant hpong hpongSample
    have hlatency' := hexact' (hpast'.trans_lt hlt)
    obtain rfl : index = index' := Option.some.inj (hindex.symm.trans hindex')
    obtain rfl : sendClock = sendClock' := Option.some.inj (hsend.symm.trans hsend')
    have hreading : replyClock = pongSample.receiveClock :=
      Option.some.inj (hclock.symm.trans hclock')
    exact ⟨hreading.symm, by omega⟩

/-- One ping is lost, and the round trip of the next one splits into 5 and 15 nanoseconds. -/
theorem roundTrips_split_two : ∃ state : State,
    (exchange ⟨2, 5⟩ 0 5).ReachableUnder ClockInRange state ∧
      state.pingSamples = [⟨35, 20⟩] ∧ state.pongSamples = [⟨20, 5⟩] ∧
      ∃ reply replyClock : ℕ, state.replies.taken[0]? = some reply ∧
        state.replyClocks[reply]? = some replyClock ∧ replyClock ≤ 35 := by
  have htwo : (exchange ⟨2, 5⟩ 0 5).ReachableUnder ClockInRange _ :=
    System.ReachableUnder.runUnder (.initial rfl)
      [.tick 5, .wake, .publishPing, .losePing 0, .tick 10, .pingTimeout, .tick 15, .wake,
        .publishPing, .tick 20, .takePing 1, .stampReply, .tick 25, .publishReply, .addLatency,
        .tick 30, .takeReply 0, .tick 35, .pingCallback] rfl
  obtain ⟨-, -, hsplit⟩ := roundTrips_split (by decide) htwo
  obtain ⟨reply, replyClock, htaken, hclock, hle, -⟩ := hsplit 0 ⟨35, 20⟩ rfl
  exact ⟨_, htwo, rfl, rfl, reply, replyClock, htaken, hclock, hle⟩

end LayerPingPong.TwoWay
