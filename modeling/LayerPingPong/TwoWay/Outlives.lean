import LayerPingPong.TwoWay.Lifetime

/-!
# When pong outlives ping

As long as every ping but the last is received in time and leaves `pong` waiting for the next one,
the phases repeat until all pings have been sent, and `pong` returns only afterwards.
-/

namespace LayerPingPong.TwoWay

open TransitionSystem

variable {scenario : Scenario} {i : ℕ} {state next : State} {event : Event}

/-- The phases of a run in which `pong` is there for every ping. -/
inductive OnSchedule (scenario : Scenario) (state : State) : Prop where
  | beforeWake {i : ℕ} : i < scenario.params.iterations → BeforeWake scenario i state →
      OnSchedule scenario state
  | beforeSend {i : ℕ} : i < scenario.params.iterations → BeforeSend scenario i state →
      OnSchedule scenario state
  | pingOnWay {i : ℕ} : i + 1 < scenario.params.iterations → PingOnWay scenario i state →
      OnSchedule scenario state
  | pingInHand {i : ℕ} : i + 1 < scenario.params.iterations → PingInHand scenario i state →
      OnSchedule scenario state
  | replyOnWay {i : ℕ} : i + 1 < scenario.params.iterations → ReplyOnWay scenario i state →
      OnSchedule scenario state
  | replyInHand {i : ℕ} : i + 1 < scenario.params.iterations → ReplyInHand scenario i state →
      OnSchedule scenario state
  | allSent : state.pings.published.length = scenario.params.iterations →
      OnSchedule scenario state

/-- The event executes the next statement of `ping`, or none of its statements. -/
def Event.fits : Event → PingPc → Bool
  | .wake, .sleeping _ => true
  | .publishPing, .stamped _ => true
  | .takeReply _, .waiting _ => true
  | .pingTimeout, .waiting _ => true
  | .pingCallback, .taken _ => true
  | .wake, _ | .publishPing, _ | .takeReply _, _ | .pingTimeout, _ | .pingCallback, _ => false
  | _, _ => true

theorem fits_of_transition {params : RtParams} (htransition : Transition params state event next) :
    event.fits state.ping = true := by
  cases htransition with
  | wake hpc _ | publishPing hpc | takeReply hpc _ | pingCallback hpc _ | pingTimeout hpc _ =>
    rw [hpc]
    rfl
  | _ => rfl

/-- What cannot happen while `pong` has nothing to answer and its deadline is ahead. -/
def Event.disturbs : Event → Bool
  | .pongTimeout | .stampReply | .publishReply | .losePing _ | .loseReply _ => true
  | _ => false

theorem PongReady.not_disturbs (h : PongReady scenario i state)
    (hlt : state.now < scenario.deadline i) (hguard : Timely scenario state event)
    (htransition : Transition scenario.params state event next) : event.disturbs = false := by
  cases event with
  | pongTimeout => exact absurd hguard (h.not_pongTimeout hlt)
  | stampReply => exact absurd htransition h.not_stampReply
  | publishReply => exact absurd htransition h.not_publishReply
  | losePing index | loseReply index => exact hguard.elim
  | _ => rfl

theorem onSchedule_start :
    OnSchedule scenario (.start scenario.params 0 scenario.firstSend) := by
  rcases Nat.eq_zero_or_pos scenario.params.iterations with hzero | hpos
  · exact .allSent hzero.symm
  · exact .beforeWake hpos ⟨⟨rfl, rfl, nofun⟩, rfl, .waiting rfl (Nat.zero_add _), if_pos hpos,
      Nat.zero_le _⟩

/-- `ping` does not give up before the ping has arrived. -/
theorem not_pingTimeout (hwithin : scenario.arrivalTime i < scenario.sendTime i + spinTimeout)
    (hping : state.ping = .waiting (scenario.sendTime i))
    (hnow : state.now ≤ scenario.arrivalTime i) : ¬ Timely scenario state .pingTimeout := by
  rintro ⟨due, htimer, hdue⟩
  rw [hping] at htimer
  cases htimer
  exact absurd (hdue.trans hnow) (Nat.not_le_of_lt hwithin)

/-- A ping before the last one arrives while `ping` waits. -/
theorem arrivalTime_lt_of_serves
    (hserves : ∀ i, i + 1 < scenario.params.iterations → scenario.Serves i)
    (hi : i + 1 < scenario.params.iterations) :
    scenario.arrivalTime i < scenario.sendTime i + spinTimeout :=
  Scenario.arrivalTime_lt (fun j hj ↦ hserves j (by omega)) (hserves i hi).inTime

section Preservation

variable (hadmissible : scenario.Admissible)
  (hserves : ∀ i, i + 1 < scenario.params.iterations → scenario.Serves i)
  (hinvariant : Invariant scenario.params state) (hguard : Timely scenario state event)
  (htransition : Transition scenario.params state event next)

include hadmissible hserves hguard htransition

theorem BeforeWake.onSchedule (h : BeforeWake scenario i state)
    (hi : i < scenario.params.iterations) : OnSchedule scenario next := by
  have hlt := h.now_le.trans_lt
    (hadmissible.sendTime_lt hi fun j hj ↦ hserves j (Nat.lt_of_le_of_lt hj hi))
  have hquiet := h.pong.not_disturbs hlt hguard htransition
  have hfits := fits_of_transition htransition
  rw [h.ping] at hfits
  cases event with
  | tick now =>
    cases htransition with
    | tick _ => exact .beforeWake hi (h.tick hguard)
  | wake => exact .beforeSend hi (h.wake hguard htransition)
  | addLatency => exact .beforeWake hi (h.addLatency htransition)
  | takePing index => exact absurd htransition h.background.not_takePing
  | pongTimeout | stampReply | publishReply | losePing | loseReply => cases hquiet
  | publishPing | takeReply | pingCallback | pingTimeout => cases hfits

include hinvariant in
theorem BeforeSend.onSchedule (h : BeforeSend scenario i state)
    (hi : i < scenario.params.iterations) : OnSchedule scenario next := by
  have hlt := h.now_eq.trans_lt
    (hadmissible.sendTime_lt hi fun j hj ↦ hserves j (Nat.lt_of_le_of_lt hj hi))
  have hquiet := h.pong.not_disturbs hlt hguard htransition
  have hfits := fits_of_transition htransition
  rw [h.ping] at hfits
  cases event with
  | tick now =>
    have hbusy := TimeMayPass.ping hguard
    rw [h.ping] at hbusy
    cases hbusy
  | publishPing =>
    have hsent := h.publishPing hinvariant htransition
    rcases Nat.lt_or_eq_of_le (Nat.succ_le_of_lt hi) with hmore | hlast
    · exact .pingOnWay hmore hsent
    · exact .allSent (hsent.published.trans hlast)
  | addLatency => exact .beforeSend hi (h.addLatency htransition)
  | takePing index => exact absurd htransition h.background.not_takePing
  | pongTimeout | stampReply | publishReply | losePing | loseReply => cases hquiet
  | wake | takeReply | pingCallback | pingTimeout => cases hfits

omit hadmissible in
include hinvariant in
theorem PingOnWay.onSchedule (h : PingOnWay scenario i state)
    (hi : i + 1 < scenario.params.iterations) : OnSchedule scenario next := by
  have hlt := h.now_le.trans_lt (hserves i hi).inTime
  have hquiet := h.pong.not_disturbs hlt hguard htransition
  have hfits := fits_of_transition htransition
  rw [h.ping] at hfits
  cases event with
  | tick now =>
    cases htransition with
    | tick _ => exact .pingOnWay hi (h.tick (hserves i hi).ping hguard)
  | takePing index => exact .pingInHand hi (h.takePing hguard htransition)
  | addLatency => exact .pingOnWay hi (h.addLatency htransition)
  | takeReply index =>
    have hlength := h.replies_length hinvariant.hands
    exact absurd htransition (h.background.not_takeReply hlength hguard)
  | pingTimeout =>
    exact absurd hguard (not_pingTimeout (arrivalTime_lt_of_serves hserves hi) h.ping h.now_le)
  | pongTimeout | stampReply | publishReply | losePing | loseReply => cases hquiet
  | wake | publishPing | pingCallback => cases hfits

omit hadmissible in
include hinvariant in
theorem PingInHand.onSchedule (h : PingInHand scenario i state)
    (hi : i + 1 < scenario.params.iterations) : OnSchedule scenario next := by
  have hbusy : state.pong.inHand = 1 ∧ state.pong.busy = true := by
    rcases h.pong with ⟨_, hpc⟩ | ⟨_, hpc⟩
    · rw [hpc]
      exact ⟨rfl, rfl⟩
    · rw [hpc]
      exact ⟨rfl, rfl⟩
  have hfits := fits_of_transition htransition
  rw [h.ping] at hfits
  cases event with
  | tick now => exact absurd (hbusy.2.symm.trans (TimeMayPass.pong hguard)) (by decide)
  | stampReply => exact .pingInHand hi (h.stampReply htransition)
  | publishReply =>
    exact .replyOnWay hi
      (h.publishReply (arrivalTime_lt_of_serves hserves hi) hinvariant htransition)
  | takeReply index =>
    have hlength := h.replies_length hinvariant.hands
    exact absurd htransition (h.background.not_takeReply hlength hguard)
  | pingTimeout =>
    exact absurd hguard (not_pingTimeout (arrivalTime_lt_of_serves hserves hi) h.ping h.now_eq.le)
  | takePing index => exact absurd htransition h.background.not_takePing
  | addLatency =>
    cases htransition with
    | addLatency hpc => simp [hpc, PongPc.inHand] at hbusy
  | pongTimeout =>
    cases htransition with
    | pongTimeout hpc => simp [hpc, PongPc.inHand] at hbusy
  | losePing index => exact hguard.elim
  | loseReply index => exact hguard.elim
  | wake | publishPing | pingCallback => cases hfits

include hinvariant in
theorem ReplyOnWay.onSchedule (h : ReplyOnWay scenario i state)
    (hi : i + 1 < scenario.params.iterations) : OnSchedule scenario next := by
  have hlt : state.now < scenario.deadline (i + 1) :=
    (Nat.le_of_add_right_le h.now_le).trans_lt
      (hadmissible.sendTime_succ_lt (Nat.lt_of_succ_lt hi) (hserves i hi))
  have hquiet := h.pong.not_disturbs hlt hguard htransition
  have hfits := fits_of_transition htransition
  rw [h.ping] at hfits
  cases event with
  | tick now =>
    cases htransition with
    | tick _ => exact .replyOnWay hi (h.tick hguard)
  | takeReply index => exact .replyInHand hi (h.takeReply hinvariant hguard htransition)
  | pingTimeout =>
    exact .beforeWake hi
      (h.pingTimeout hadmissible hi (hserves i hi).ping hinvariant hguard htransition).2
  | addLatency => exact .replyOnWay hi (h.addLatency htransition)
  | takePing index => exact absurd htransition h.background.not_takePing
  | pongTimeout | stampReply | publishReply | losePing | loseReply => cases hquiet
  | wake | publishPing | pingCallback => cases hfits

include hinvariant in
theorem ReplyInHand.onSchedule (h : ReplyInHand scenario i state)
    (hi : i + 1 < scenario.params.iterations) : OnSchedule scenario next := by
  have hlt : state.now < scenario.deadline (i + 1) :=
    (Nat.le_of_add_right_le h.now_eq.le).trans_lt
      (hadmissible.sendTime_succ_lt (Nat.lt_of_succ_lt hi) (hserves i hi))
  have hquiet := h.pong.not_disturbs hlt hguard htransition
  obtain ⟨reply, hping⟩ := h.ping
  have hfits := fits_of_transition htransition
  rw [hping] at hfits
  cases event with
  | tick now =>
    have hbusy := TimeMayPass.ping hguard
    rw [hping] at hbusy
    cases hbusy
  | pingCallback => exact .beforeWake hi (h.pingCallback hi hinvariant htransition)
  | addLatency => exact .replyInHand hi (h.addLatency htransition)
  | takePing index => exact absurd htransition h.background.not_takePing
  | pongTimeout | stampReply | publishReply | losePing | loseReply => cases hquiet
  | wake | publishPing | takeReply | pingTimeout => cases hfits

include hinvariant in
theorem OnSchedule.preserved (h : OnSchedule scenario state)
    (hbound : next.pings.published.length ≤ scenario.params.iterations) :
    OnSchedule scenario next := by
  cases h with
  | beforeWake hi h => exact h.onSchedule hadmissible hserves hguard htransition hi
  | beforeSend hi h => exact h.onSchedule hadmissible hserves hinvariant hguard htransition hi
  | pingOnWay hi h => exact h.onSchedule hserves hinvariant hguard htransition hi
  | pingInHand hi h => exact h.onSchedule hserves hinvariant hguard htransition hi
  | replyOnWay hi h => exact h.onSchedule hadmissible hserves hinvariant hguard htransition hi
  | replyInHand hi h => exact h.onSchedule hadmissible hserves hinvariant hguard htransition hi
  | allSent hall =>
    have hgrows := (grows_of_transition htransition).pings.length_le
    exact .allSent (hbound.antisymm (hall ▸ hgrows))

end Preservation

/-- No reachable state has `ping` about to publish after `pong` has returned. -/
def PongOutlives (scenario : Scenario) : Prop :=
  ∀ state, (exchange scenario.params 0 scenario.firstSend).ReachableUnder (Timely scenario) state →
    ∀ clock, state.ping = .stamped clock → state.pong ≠ .returned

/-- While pings remain to be sent, a run on schedule has `pong` alive. -/
theorem OnSchedule.pong_ne_returned (h : OnSchedule scenario state)
    (hcounted : PingsCounted scenario.params state) {clock : ℕ}
    (hping : state.ping = .stamped clock) : state.pong ≠ .returned := by
  cases h with
  | beforeWake _ h => cases hping.symm.trans h.ping
  | beforeSend _ h => exact h.pong.ne_returned
  | pingOnWay _ h => cases hping.symm.trans h.ping
  | pingInHand _ h => cases hping.symm.trans h.ping
  | replyOnWay _ h => cases hping.symm.trans h.ping
  | replyInHand _ h =>
    obtain ⟨reply, htaken⟩ := h.ping
    cases hping.symm.trans htaken
  | allSent hall =>
    have hcount := hcounted.iteration
    have hrunning := hcounted.running (by simp [hping])
    rw [hping, hall] at hcount
    simp only [PingPc.sent] at hcount
    omega

theorem pongOutlives_of_serves (hadmissible : scenario.Admissible)
    (hserves : ∀ i, i + 1 < scenario.params.iterations → scenario.Serves i) :
    PongOutlives scenario := by
  intro state h clock hping
  have hboth : Invariant scenario.params state ∧ OnSchedule scenario state := by
    refine h.invariant (fun state ↦ Invariant scenario.params state ∧ OnSchedule scenario state)
      ?_ fun state event next hold hguard hstep ↦ ?_
    · rintro _ rfl
      exact ⟨invariant_start _ _, onSchedule_start⟩
    · have hnext := hold.1.preserved hstep
      exact ⟨hnext, hold.2.preserved hadmissible hserves hold.1 hguard
        (transition_of_step _ hstep) hnext.counted.le_iterations⟩
  exact hboth.2.pong_ne_returned hboth.1.counted hping

end LayerPingPong.TwoWay
