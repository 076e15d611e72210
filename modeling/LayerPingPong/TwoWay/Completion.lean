import LayerPingPong.Base.Potential
import LayerPingPong.TwoWay.Soundness

/-!
# How an exchange ends

Every iteration of `ping` gives rise to at most eight events: its own four, those of `pong` and the
loss of a message. So an exchange ends, and whatever the order of events, delays and losses, it ends
with both processes out of their loops. The iterations without a latency are then the messages that
were lost or have come too late.
-/

namespace LayerPingPong.TwoWay

open TransitionSystem System

variable {params : RtParams} {state next last : State} {event : Event}

/-- Everything but the passing of time. -/
def Event.isActive : Event → Bool
  | .tick _ => false
  | _ => true

/-- Both processes are through and no message is on its way. -/
structure State.Complete (state : State) : Prop where
  ping : state.ping = .finished
  pong : state.pong = .returned
  pings : state.pings.inFlight = []
  replies : state.replies.inFlight = []

/-! ## The events that are left -/

/-- The iterations left, including the current one. -/
def State.turnsLeft (params : RtParams) (state : State) : ℕ :=
  (params.iterations - state.iteration.toInt).toNat

/-- The events that can still come from `ping` and the messages it will send. -/
def PingPc.potential (turnsLeft : ℕ) : PingPc → ℕ
  | .sleeping _ => 8 * turnsLeft
  | .stamped _ => 8 * (turnsLeft - 1) + 7
  | .waiting _ | .taken _ => 8 * (turnsLeft - 1) + 1
  | .finished => 0

/-- The events that can still come from `pong` with the message in its hand. -/
def PongPc.potential : PongPc → ℕ
  | .waiting _ => 1
  | .taken _ => 5
  | .stamped _ _ => 4
  | .published _ _ => 2
  | .returned => 0

/-- A ping in flight can be taken, stamped and answered, and its reply taken or lost. -/
def State.potential (params : RtParams) (state : State) : ℕ :=
  state.ping.potential (state.turnsLeft params) + state.pong.potential +
    5 * state.pings.inFlight.length + state.replies.inFlight.length

theorem turnsLeft_succ (h : next.iteration.toInt = state.iteration.toInt + 1) :
    next.turnsLeft params = state.turnsLeft params - 1 := by
  unfold State.turnsLeft
  omega

theorem loopHead_potential (state : State) :
    (state.loopHead params).potential (state.turnsLeft params) = 8 * state.turnsLeft params := by
  unfold State.loopHead
  split
  · rfl
  · rename_i hge
    change 0 = 8 * (params.iterations - state.iteration.toInt).toNat
    omega

theorem start_potential (params : RtParams) (now wakeAt : ℕ) :
    (State.start params now wakeAt).potential params = 8 * params.iterations + 1 := by
  have hturns : (State.start params now wakeAt).turnsLeft params = params.iterations := by
    change ((params.iterations : ℤ) - (0 : Int32).toInt).toNat = params.iterations
    rw [show (0 : Int32).toInt = 0 from rfl, sub_zero, Int.toNat_natCast]
  have hping : (State.start params now wakeAt).ping.potential params.iterations =
      8 * params.iterations := by
    change PingPc.potential _ (if 0 < params.iterations then .sleeping wakeAt else .finished) = _
    split
    · rfl
    · change 0 = 8 * params.iterations
      omega
  rw [State.potential, hturns, hping]
  rfl

/-- The end of a turn of the send loop. -/
theorem potential_of_nextIteration
    (hping : state.ping.potential (state.turnsLeft params) = 8 * (state.turnsLeft params - 1) + 1)
    (hcounter : next.iteration.toInt = state.iteration.toInt + 1)
    (hhead : next.ping = next.loopHead params) (hpong : next.pong = state.pong)
    (hpings : next.pings = state.pings) (hreplies : next.replies = state.replies) :
    next.potential params + 1 = state.potential params := by
  have hnext : next.ping.potential (next.turnsLeft params) = 8 * (state.turnsLeft params - 1) := by
    rw [hhead, loopHead_potential, turnsLeft_succ hcounter]
  unfold State.potential
  rw [hnext, hping, hpong, hpings, hreplies]
  omega

/-- Every active event uses up potential. -/
theorem potential_lowers (h : PingsCounted params state)
    (hstep : step params state event = some next) :
    next.potential params + (if event.isActive then 1 else 0) ≤ state.potential params := by
  cases transition_of_step params hstep with
  | tick _ => exact le_rfl
  | wake hpc _ =>
    have hlt := h.running (by simp [hpc])
    simp only [State.potential, State.turnsLeft, Event.isActive, PingPc.potential, hpc, if_true]
    omega
  | publishPing hpc =>
    simp only [State.potential, State.turnsLeft, Event.isActive, PingPc.potential, hpc, if_true,
      Channel.length_publish]
    omega
  | takeReply hpc htook =>
    have hlength := htook.length
    simp only [State.potential, State.turnsLeft, Event.isActive, PingPc.potential, hpc, if_true]
    omega
  | pingCallback hpc hiteration | pingTimeout hpc hiteration =>
    change State.potential params _ + 1 ≤ _
    apply Nat.le_of_eq
    apply potential_of_nextIteration
    · rw [hpc]
      rfl
    · exact Checked.increment_toInt hiteration
    all_goals rfl
  | takePing hpc htook =>
    have hlength := htook.length
    simp only [State.potential, State.turnsLeft, Event.isActive, PongPc.potential, hpc, if_true]
    omega
  | publishReply hpc =>
    simp only [State.potential, State.turnsLeft, Event.isActive, PongPc.potential, hpc, if_true,
      Channel.length_publish]
    omega
  | stampReply hpc | addLatency hpc | pongTimeout hpc =>
    simp only [State.potential, State.turnsLeft, Event.isActive, PongPc.potential, hpc, if_true]
    omega
  | losePing hdropped =>
    obtain ⟨_, hdrop, -⟩ := Option.map_eq_some_iff.mp hstep
    have hlength := hdropped.length (Channel.mem_of_drop hdrop)
    simp only [State.potential, State.turnsLeft, Event.isActive, if_true]
    omega
  | loseReply hdropped =>
    obtain ⟨_, hdrop, -⟩ := Option.map_eq_some_iff.mp hstep
    have hlength := hdropped.length (Channel.mem_of_drop hdrop)
    simp only [State.potential, State.turnsLeft, Event.isActive, if_true]
    omega

def exchangePotential (params : RtParams) (now wakeAt : ℕ) :
    (exchange params now wakeAt).Potential Event.isActive where
  value := State.potential params
  holds := PingsCounted params
  preserved _ _ _ h hstep := h.preserved (transition_of_step params hstep)
  lowers _ _ _ h hactive hstep := by
    have hlowers := potential_lowers h hstep
    rwa [if_pos hactive] at hlowers

/-! ## Where nothing can happen any more -/

theorem exists_increment_of_lt {value : Int32} (hiterations : params.iterations < 2 ^ 31)
    (h : value.toInt < params.iterations) : ∃ after, Checked.increment value = .ok after :=
  Checked.exists_increment (by omega)

/-- The event by which `ping` goes on if no reply comes. -/
def PingPc.proceeds : PingPc → Option Event
  | .sleeping _ => some .wake
  | .stamped _ => some .publishPing
  | .waiting _ => some .pingTimeout
  | .taken _ => some .pingCallback
  | .finished => none

/-- The event by which `pong` goes on if no ping comes. -/
def PongPc.proceeds : PongPc → Option Event
  | .waiting _ => some .pongTimeout
  | .taken _ => some .stampReply
  | .stamped _ _ => some .publishReply
  | .published _ _ => some .addLatency
  | .returned => none

theorem PingPc.proceeds_eq_none_iff {pc : PingPc} : pc.proceeds = none ↔ pc = .finished := by
  cases pc <;> simp [proceeds]

theorem PongPc.proceeds_eq_none_iff {pc : PongPc} : pc.proceeds = none ↔ pc = .returned := by
  cases pc <;> simp [proceeds]

theorem PingPc.isActive_of_proceeds {pc : PingPc} (h : pc.proceeds = some event) :
    event.isActive = true := by
  cases pc <;> cases h <;> rfl

theorem PongPc.isActive_of_proceeds {pc : PongPc} (h : pc.proceeds = some event) :
    event.isActive = true := by
  cases pc <;> cases h <;> rfl

/-- Neither counter overflows in the loop. -/
theorem exists_step_of_ping (hcounted : PingsCounted params state)
    (hiterations : params.iterations < 2 ^ 31) (h : state.ping.proceeds = some event) :
    ∃ next, step params state event = some next := by
  have hrunning := hcounted.running
  cases hpc : state.ping with
  | sleeping wakeAt =>
    have hiteration := hcounted.iteration
    have hcount := hcounted.count
    have hlt := hrunning (by simp [hpc])
    rw [hpc] at h hiteration hcount
    cases h
    obtain ⟨count, hincrement⟩ := exists_increment_of_lt hiterations
      (show state.count.toInt < params.iterations by
        simp only [PingPc.sent, PingPc.prepared] at hiteration hcount
        omega)
    simp [step, hpc, hincrement]
  | stamped clock =>
    rw [hpc] at h
    cases h
    simp [step, hpc]
  | waiting since | taken reply =>
    obtain ⟨iteration, hincrement⟩ := exists_increment_of_lt hiterations (hrunning (by simp [hpc]))
    rw [hpc] at h
    cases h
    simp [step, hpc, State.nextIteration, hincrement]
  | finished =>
    rw [hpc] at h
    cases h

theorem exists_step_of_pong (h : state.pong.proceeds = some event) :
    ∃ next, step params state event = some next := by
  cases hpc : state.pong <;> rw [hpc] at h <;> cases h <;> simp [step, hpc]

/-- Time is all that is left exactly when the exchange is complete. -/
theorem quiescent_iff_complete {now wakeAt : ℕ} (hcounted : PingsCounted params state)
    (hiterations : params.iterations < 2 ^ 31) :
    (exchange params now wakeAt).Quiescent Event.isActive state ↔ state.Complete := by
  constructor
  · intro h
    refine ⟨?_, ?_, ?_, ?_⟩
    · apply PingPc.proceeds_eq_none_iff.mp
      apply Option.eq_none_iff_forall_ne_some.mpr
      intro event hproceeds
      obtain ⟨next, hstep⟩ := exists_step_of_ping hcounted hiterations hproceeds
      cases hstep.symm.trans (h event (PingPc.isActive_of_proceeds hproceeds))
    · apply PongPc.proceeds_eq_none_iff.mp
      apply Option.eq_none_iff_forall_ne_some.mpr
      intro event hproceeds
      obtain ⟨next, hstep⟩ := exists_step_of_pong hproceeds
      cases hstep.symm.trans (h event (PongPc.isActive_of_proceeds hproceeds))
    · apply Channel.inFlight_eq_nil
      intro index
      exact Option.map_eq_none_iff.mp (h (.losePing index) rfl)
    · apply Channel.inFlight_eq_nil
      intro index
      exact Option.map_eq_none_iff.mp (h (.loseReply index) rfl)
  · intro h event hactive
    change step params state event = none
    cases event with
    | tick now => cases hactive
    | losePing index => simp [step, Channel.drop, h.pings]
    | loseReply index => simp [step, Channel.drop, h.replies]
    | wake | publishPing | takeReply | pingCallback | pingTimeout => simp [step, h.ping]
    | takePing | stampReply | publishReply | addLatency | pongTimeout => simp [step, h.pong]

/-! ## What becomes of the messages -/

def Event.losesPing : Event → Bool
  | .losePing _ => true
  | _ => false

def Event.losesReply : Event → Bool
  | .loseReply _ => true
  | _ => false

/-- Every message is taken, on its way or lost, and every iteration ends with a latency or with a
timeout. -/
structure Accounted (params : RtParams) (events : List Event) (state : State) : Prop where
  pings : state.pings.Accounts (events.countP Event.losesPing)
  replies : state.replies.Accounts (events.countP Event.losesReply)
  iteration : state.iteration.toInt = state.pingSamples.length + state.timeouts
  finished : state.ping = .finished → params.iterations ≤ state.iteration.toInt

theorem accounted_start (now wakeAt : ℕ) : Accounted params [] (.start params now wakeAt) := by
  refine ⟨Channel.accounts_empty, Channel.accounts_empty, rfl, fun hfinished ↦ ?_⟩
  change (if 0 < params.iterations then PingPc.sleeping wakeAt else .finished) = _ at hfinished
  split at hfinished
  · cases hfinished
  · rename_i hzero
    exact Int.ofNat_le.mpr (Nat.not_lt.mp hzero)

theorem loopHead_finished (h : state.loopHead params = .finished) :
    params.iterations ≤ state.iteration.toInt := by
  unfold State.loopHead at h
  split at h
  · cases h
  · rename_i hge
    exact Int.not_lt.mp hge

theorem countP_concat_of_not {loses : Event → Bool} (past : List Event)
    (h : loses event = false) : (past ++ [event]).countP loses = past.countP loses := by
  simp [List.countP_append, h]

theorem countP_concat {loses : Event → Bool} (past : List Event)
    (h : loses event = true) : (past ++ [event]).countP loses = past.countP loses + 1 := by
  simp [List.countP_append, h]

/-- A step that loses nothing. -/
theorem Accounted.of_kept {past : List Event}
    (hpings : next.pings.Accounts (past.countP Event.losesPing))
    (hreplies : next.replies.Accounts (past.countP Event.losesReply))
    (hping : event.losesPing = false) (hreply : event.losesReply = false)
    (hiteration : next.iteration.toInt = next.pingSamples.length + next.timeouts)
    (hfinished : next.ping = .finished → params.iterations ≤ next.iteration.toInt) :
    Accounted params (past ++ [event]) next := by
  refine ⟨?_, ?_, hiteration, hfinished⟩
  · rw [countP_concat_of_not past hping]
    exact hpings
  · rw [countP_concat_of_not past hreply]
    exact hreplies

theorem Accounted.preserved {past : List Event} (h : Accounted params past state)
    (hstep : step params state event = some next) : Accounted params (past ++ [event]) next := by
  obtain ⟨hpings, hreplies, hiteration, hfinished⟩ := h
  cases transition_of_step params hstep with
  | @losePing index pings hdropped =>
    obtain ⟨_, hdrop, -⟩ := Option.map_eq_some_iff.mp hstep
    refine ⟨?_, ?_, hiteration, hfinished⟩
    · rw [countP_concat past rfl]
      exact hpings.dropped hdropped (Channel.mem_of_drop hdrop)
    · rw [countP_concat_of_not past rfl]
      exact hreplies
  | @loseReply index replies hdropped =>
    obtain ⟨_, hdrop, -⟩ := Option.map_eq_some_iff.mp hstep
    refine ⟨?_, ?_, hiteration, hfinished⟩
    · rw [countP_concat_of_not past rfl]
      exact hpings
    · rw [countP_concat past rfl]
      exact hreplies.dropped hdropped (Channel.mem_of_drop hdrop)
  | wake _ _ => exact .of_kept hpings hreplies rfl rfl hiteration nofun
  | publishPing _ => exact .of_kept (hpings.publish _) hreplies rfl rfl hiteration nofun
  | takeReply _ htook => exact .of_kept hpings (hreplies.took htook) rfl rfl hiteration nofun
  | pingCallback _ hincrement =>
    refine .of_kept hpings hreplies rfl rfl ?_ loopHead_finished
    rw [List.length_append, List.length_singleton, Checked.increment_toInt hincrement]
    push_cast
    omega
  | pingTimeout _ hincrement =>
    refine .of_kept hpings hreplies rfl rfl ?_ loopHead_finished
    rw [Checked.increment_toInt hincrement]
    push_cast
    omega
  | takePing _ htook => exact .of_kept (hpings.took htook) hreplies rfl rfl hiteration hfinished
  | publishReply _ => exact .of_kept hpings (hreplies.publish _) rfl rfl hiteration hfinished
  | tick | stampReply | addLatency | pongTimeout =>
    exact .of_kept hpings hreplies rfl rfl hiteration hfinished

/-! ## Whole exchanges -/

section Exchange

variable {now wakeAt : ℕ} {events : List Event}
  (hrun : (exchange params now wakeAt).run (.start params now wakeAt) events = some last)

include hrun

theorem invariant_of_run : Invariant params last :=
  invariant_of_reachable (Reachable.run (.initial rfl) events hrun)

theorem accounted_of_run : Accounted params events last := by
  apply run_invariant (Accounted params) _ (accounted_start now wakeAt) hrun
  intro past event state next h hstep
  exact h.preserved hstep

/-- An exchange ends, wherever its events come from: there are at most eight of them for an
iteration and the timeout of `pong`. It cannot get stuck before both processes have come to their
ends, and it can always come to them. -/
theorem exchange_terminates (hiterations : params.iterations < 2 ^ 31) :
    events.countP Event.isActive ≤ 8 * params.iterations + 1 ∧
      ((exchange params now wakeAt).Quiescent Event.isActive last ↔ last.Complete) ∧
      ∃ rest final, (exchange params now wakeAt).run last rest = some final ∧ final.Complete ∧
        ∀ event ∈ rest, event.isActive = true := by
  have hcounted := (invariant_of_run hrun).counted
  refine ⟨?_, quiescent_iff_complete hcounted hiterations, ?_⟩
  · have hbound := (exchangePotential params now wakeAt).countP_add_le
      (fun _ _ _ h _ hstep ↦ (Nat.le_add_right _ _).trans (potential_lowers h hstep))
      (pingsCounted_start now wakeAt) hrun
    have hstart := start_potential params now wakeAt
    change _ ≤ (State.start params now wakeAt).potential params at hbound
    omega
  · obtain ⟨rest, final, hrest, hquiescent, hactive⟩ :=
      (exchangePotential params now wakeAt).exists_run_quiescent hcounted
    have hfinal : (exchange params now wakeAt).run (.start params now wakeAt) (events ++ rest) =
        some final := by
      rw [run_append, hrun]
      exact hrest
    refine ⟨rest, final, hrest, ?_, hactive⟩
    exact (quiescent_iff_complete (invariant_of_run hfinal).counted hiterations).mp hquiescent

/-- Once `ping` is through, every iteration has ended with a latency or a timeout. There was one
timeout for each message that was lost, is still on its way or is in the hand of `pong`. -/
theorem timeouts_eq_missing (hfinished : last.ping = .finished) :
    last.pingSamples.length + last.timeouts = params.iterations ∧
      last.timeouts = events.countP Event.losesPing + events.countP Event.losesReply +
        last.pings.inFlight.length + last.replies.inFlight.length + last.pong.inHand := by
  have hinvariant := invariant_of_run hrun
  obtain ⟨hpings, hreplies, hiteration, hthrough⟩ := accounted_of_run hrun
  have hsent := hinvariant.counted.iteration
  have hbound := hinvariant.counted.le_iterations
  have htaken := hinvariant.hands.pings
  have hmeasured := hinvariant.hands.replies
  have hge := hthrough hfinished
  rw [hfinished] at hsent hmeasured
  simp only [PingPc.sent, PingPc.inHand] at hsent hmeasured
  unfold Channel.Accounts at hpings hreplies
  constructor
  · omega
  · omega

end Exchange

/-- One answer comes in time, and all steps of the single iteration are used. -/
theorem exchange_terminates_one : ∃ events last,
    (exchange ⟨1, 5⟩ 0 5).run (.start ⟨1, 5⟩ 0 5) events = some last ∧ last.Complete ∧
      events.countP Event.isActive = 9 ∧ events.countP Event.isActive ≤ 8 * 1 + 1 := by
  have hone : (exchange ⟨1, 5⟩ 0 5).run (.start ⟨1, 5⟩ 0 5)
      [.tick 5, .wake, .publishPing, .takePing 0, .stampReply, .publishReply, .addLatency,
        .takeReply 0, .pingCallback, .tick 3000000005, .pongTimeout] = some _ := rfl
  exact ⟨_, _, hone, ⟨rfl, rfl, rfl, rfl⟩, rfl, (exchange_terminates hone (by decide)).1⟩

/-- Of two pings one is lost, and the reply to the other one comes too late. -/
theorem timeouts_eq_missing_two : ∃ events last,
    (exchange ⟨2, 5⟩ 0 5).run (.start ⟨2, 5⟩ 0 5) events = some last ∧ last.ping = .finished ∧
      last.pingSamples.length + last.timeouts = 2 ∧
      last.timeouts = events.countP Event.losesPing + events.countP Event.losesReply +
        last.pings.inFlight.length + last.replies.inFlight.length + last.pong.inHand := by
  have htwo : (exchange ⟨2, 5⟩ 0 5).run (.start ⟨2, 5⟩ 0 5)
      [.tick 5, .wake, .publishPing, .losePing 0, .tick 10, .pingTimeout, .tick 15, .wake,
        .publishPing, .takePing 1, .tick 20, .pingTimeout, .stampReply, .publishReply] = some _ :=
    rfl
  exact ⟨_, _, htwo, rfl, timeouts_eq_missing htwo rfl⟩

end LayerPingPong.TwoWay
