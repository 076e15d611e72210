import LayerPingPong.LayerPubsubCommon.Interface
import LayerPingPong.TwoWay.Duration

/-!
# The exchange on the layers

The events of the exchange say when a wait of `ping` or `pong` ends and with which message. These
are the waits of one call of `spin` in `pong` and of one call of `spin_once` for each ping in
`ping`, and in these calls each layer hands over the messages that the exchange has taken.
-/

namespace LayerPingPong.TwoWay

open LayerPubsubCommon TransitionSystem

variable {params : RtParams} {late start wakeAt : ℕ} {state next last : State} {event : Event}

/-- `timeout_`. -/
def timeoutNs : Int64 := 3000000000

theorem timeoutNs_toInt : timeoutNs.toInt = spinTimeout := rfl

/-! ## The calls -/

/-- The waits of `pong`. A callback ends at the instant of its start, as no time passes in it. -/
def pongWaits (state : State) : Event → List (Wait Data)
  | .takePing index =>
    (state.pings.published[index]?).toList.map fun message ↦ ⟨some message, state.now, state.now⟩
  | .pongTimeout => [⟨none, state.now, state.now⟩]
  | _ => []

/-- The call of `spin_once` that is under way. -/
def PingPc.call (wait : Wait Data) : PingPc → List (Request Data)
  | .waiting since => [.spinOnce timeoutNs since wait]
  | _ => []

/-- The calls of `ping`, each reported when its wait has ended. -/
def pingRequests (state : State) : Event → List (Request Data)
  | .takeReply index => (state.replies.published[index]?).toList.flatMap fun reply ↦
    state.ping.call ⟨some reply, state.now, state.now⟩
  | .pingTimeout => state.ping.call ⟨none, state.now, state.now⟩
  | _ => []

/-- The calls that a process makes on its subscriber in a schedule. -/
def subscriberCalls (params : RtParams) (start wakeAt : ℕ) (events : List Event) :
    Process → List (Request Data)
  | .ping =>
    (exchange params start wakeAt).reports pingRequests (.start params start wakeAt) events
  | .pong => [.spin timeoutNs start
      ((exchange params start wakeAt).reports pongWaits (.start params start wakeAt) events)]

/-- The messages that a process has taken. -/
def State.handedOver (state : State) : Process → List Data
  | .ping => state.replies.messages
  | .pong => state.pings.messages

/-! ## The loop of pong -/

/-- The end of the last wait of `spin`. -/
def PongPc.gaveUp : PongPc → List (Option Data)
  | .returned => [none]
  | _ => []

/-- When the next wait begins, or now if that is after the callback. -/
def PongPc.since (now : ℕ) : PongPc → ℕ
  | .waiting since => since
  | _ => now

/-- The waits of `spin` so far are those of a loop in time, one for each message taken and a last
one without a message. -/
structure PongWaited (start : ℕ) (waits : List (Wait Data)) (state : State) : Prop where
  outcomes : waits.map Wait.outcome = state.pings.messages.map some ++ state.pong.gaveUp
  inTime : RclcppPubsub.InTime timeoutNs start (waits.map Wait.rclcppTurn)
  since : state.pong ≠ .returned → lastFinished start waits = state.pong.since state.now
  past : start ≤ state.now ∧ ∀ wait ∈ waits, wait.finished ≤ state.now ∧ wait.now ≤ state.now

theorem pongWaited_start : PongWaited start [] (.start params start wakeAt) :=
  ⟨rfl, trivial, fun _ ↦ rfl, le_rfl, nofun⟩

/-- A step in which `spin` makes no wait. -/
theorem PongWaited.move {waits : List (Wait Data)} (h : PongWaited start waits state)
    (hmessages : next.pings.messages = state.pings.messages)
    (hgaveUp : next.pong.gaveUp = state.pong.gaveUp) (hnow : state.now ≤ next.now)
    (hsince : next.pong ≠ .returned →
      state.pong ≠ .returned ∧ next.pong.since next.now = state.pong.since state.now) :
    PongWaited start (waits ++ []) next := by
  rw [List.append_nil]
  refine ⟨?_, h.inTime, fun hrunning ↦ ?_, h.past.1.trans hnow, fun wait hmem ↦ ?_⟩
  · rw [hmessages, hgaveUp]
    exact h.outcomes
  · obtain ⟨hold, heq⟩ := hsince hrunning
    rw [heq]
    exact h.since hold
  · obtain ⟨hfinished, hwait⟩ := h.past.2 wait hmem
    exact ⟨hfinished.trans hnow, hwait.trans hnow⟩

/-- `spin` makes one more wait, which ends now. -/
theorem PongWaited.concat {waits : List (Wait Data)} (h : PongWaited start waits state)
    {since : ℕ} (hpong : state.pong = .waiting since) {outcome : Option Data}
    (hintime : RclcppPubsub.InTime timeoutNs since
      [(⟨outcome, state.now, state.now⟩ : Wait Data).rclcppTurn])
    (houtcomes : state.pings.messages.map some ++ [outcome] =
      next.pings.messages.map some ++ next.pong.gaveUp)
    (hnow : next.now = state.now) (hsince : next.pong ≠ .returned → next.pong.since next.now = next.now) :
    PongWaited start (waits ++ [⟨outcome, state.now, state.now⟩]) next := by
  have hwaits := h.outcomes
  have hfinished := h.since (by rw [hpong]; exact PongPc.noConfusion)
  rw [hpong] at hwaits hfinished
  change _ = _ ++ [] at hwaits
  rw [List.append_nil] at hwaits
  have hsome : ∀ wait ∈ waits, wait.outcome.isSome = true := by
    intro wait hmem
    have houtcome : wait.outcome ∈ state.pings.messages.map some := by
      rw [← hwaits]
      exact List.mem_map_of_mem hmem
    obtain ⟨message, -, heq⟩ := List.mem_map.mp houtcome
    rw [← heq]
    rfl
  refine ⟨?_, ?_, fun hrunning ↦ ?_, ?_⟩
  · rw [List.map_append, hwaits]
    exact houtcomes
  · apply inTime_concat h.inTime hsome
    rw [hfinished]
    exact hintime
  · rw [lastFinished_concat, hsince hrunning, hnow]
  · rw [hnow]
    refine ⟨h.past.1, fun wait hmem ↦ ?_⟩
    rcases List.mem_append.mp hmem with hold | hnew
    · exact h.past.2 wait hold
    · obtain rfl := List.mem_singleton.mp hnew
      exact ⟨le_rfl, le_rfl⟩

theorem PongWaited.preserved {waits : List (Wait Data)} (h : PongWaited start waits state)
    (hguard : Punctual late state event) (htransition : Transition params state event next) :
    PongWaited start (waits ++ pongWaits state event) next := by
  cases htransition with
  | tick hle =>
    have hbusy := hguard.pong
    refine h.move rfl rfl hle fun hrunning ↦ ⟨hrunning, ?_⟩
    cases hpong : state.pong with
    | waiting since => rfl
    | taken message | stamped message clock | published message clock =>
      rw [hpong] at hbusy
      cases hbusy
    | returned => exact absurd hpong hrunning
  | takePing hpong htook =>
    rw [pongWaits, htook.message]
    apply h.concat hpong
    · refine ⟨rfl, le_rfl, ?_, trivial⟩
      exact Int.lt_add_of_pos_right _ (by decide)
    · rw [htook.messages, List.map_append]
      exact (List.append_nil _).symm
    · rfl
    · exact fun _ ↦ rfl
  | pongTimeout hpong =>
    obtain ⟨due, htimer, hdue⟩ := hguard
    rw [hpong] at htimer
    cases htimer
    rw [pongWaits]
    apply h.concat hpong
    · refine ⟨rfl, ?_, rfl⟩
      rw [timeoutNs_toInt]
      exact_mod_cast hdue
    · rfl
    · rfl
    · exact fun hrunning ↦ absurd rfl hrunning
  | publishPing _ =>
    exact h.move (Channel.messages_publish _ _) rfl le_rfl fun hrunning ↦ ⟨hrunning, rfl⟩
  | losePing hdropped =>
    exact h.move hdropped.messages rfl le_rfl fun hrunning ↦ ⟨hrunning, rfl⟩
  | stampReply hpong | publishReply hpong | addLatency hpong =>
    have hgaveUp : state.pong.gaveUp = [] := by rw [hpong]; rfl
    have hsince : state.pong.since state.now = state.now := by rw [hpong]; rfl
    have hrunning : state.pong ≠ .returned := by rw [hpong]; exact PongPc.noConfusion
    exact h.move rfl hgaveUp.symm le_rfl fun _ ↦ ⟨hrunning, hsince.symm⟩
  | _ =>
    exact h.move rfl rfl le_rfl fun hrunning ↦ ⟨hrunning, rfl⟩

/-! ## The loop of ping -/

/-- The start of a call of `spin_once` that has not returned. -/
def PingPc.pendingCall : PingPc → List ℕ
  | .waiting since => [since]
  | _ => []

/-- `ping` has made one call of `spin_once` for each ping, at the instant of its clock reading. -/
structure PingCalled (requests : List (Request Data)) (state : State) : Prop where
  starts : requests.map Request.start ++ state.ping.pendingCall = state.sendClocks
  stamped : ∀ clock, state.ping = .stamped clock → clock = state.now
  messages : (requests.flatMap Request.outcomes).reduceOption = state.replies.messages
  timeouts : (requests.flatMap Request.outcomes).count none = state.timeouts
  spinOnce : ∀ request ∈ requests, ∃ since wait, request = .spinOnce timeoutNs since wait ∧
    (wait.outcome = none → since + spinTimeout ≤ wait.now ∧ wait.now ≤ state.now)

theorem loopHead_pendingCall (state : State) : (state.loopHead params).pendingCall = [] := by
  unfold State.loopHead
  split <;> rfl

theorem pingCalled_start : PingCalled [] (.start params start wakeAt) := by
  have hpc : (State.start params start wakeAt).ping =
      if 0 < params.iterations then .sleeping wakeAt else .finished := rfl
  refine ⟨?_, ?_, rfl, rfl, nofun⟩
  · rw [hpc]
    split <;> rfl
  · rw [hpc]
    intro clock hstamped
    split at hstamped <;> cases hstamped

/-- A step that ends no call. -/
theorem PingCalled.move {requests : List (Request Data)} (h : PingCalled requests state)
    (hnow : state.now ≤ next.now)
    (hstarts : ∃ clocks, next.sendClocks = state.sendClocks ++ clocks ∧
      next.ping.pendingCall = state.ping.pendingCall ++ clocks)
    (hstamped : ∀ clock, next.ping = .stamped clock → clock = next.now)
    (hmessages : next.replies.messages = state.replies.messages)
    (htimeouts : next.timeouts = state.timeouts) : PingCalled (requests ++ []) next := by
  rw [List.append_nil]
  refine ⟨?_, hstamped, ?_, ?_, fun request hmem ↦ ?_⟩
  · obtain ⟨clocks, hclocks, hpending⟩ := hstarts
    rw [hclocks, hpending, ← List.append_assoc, h.starts]
  · rw [hmessages]
    exact h.messages
  · rw [htimeouts]
    exact h.timeouts
  · obtain ⟨since, wait, hrequest, hwaited⟩ := h.spinOnce request hmem
    exact ⟨since, wait, hrequest, fun hnone ↦
      ⟨(hwaited hnone).1, (hwaited hnone).2.trans hnow⟩⟩

/-- A call returns. -/
theorem PingCalled.concat {requests : List (Request Data)} (h : PingCalled requests state)
    {since : ℕ} (hping : state.ping = .waiting since) (wait : Wait Data)
    (hwaited : wait.outcome = none → since + spinTimeout ≤ wait.now ∧ wait.now ≤ next.now)
    (hnow : next.now = state.now) (hclocks : next.sendClocks = state.sendClocks)
    (hpending : next.ping.pendingCall = [])
    (hstamped : ∀ clock, next.ping ≠ .stamped clock)
    (hmessages : next.replies.messages = state.replies.messages ++ wait.outcome.toList)
    (htimeouts : next.timeouts = state.timeouts + [wait.outcome].count none) :
    PingCalled (requests ++ [.spinOnce timeoutNs since wait]) next := by
  have hstarts := h.starts
  rw [hping] at hstarts
  refine ⟨?_, fun clock hpc ↦ absurd hpc (hstamped clock), ?_, ?_, ?_⟩
  · rw [hpending, hclocks, ← hstarts, List.map_append, List.append_nil]
    rfl
  · rw [hmessages, ← h.messages, List.flatMap_append, List.reduceOption_append,
      List.flatMap_singleton]
    exact congrArg _ (List.reduceOption_singleton _)
  · rw [htimeouts, ← h.timeouts, List.flatMap_append, List.count_append]
    rfl
  · intro request hmem
    rcases List.mem_append.mp hmem with hold | hnew
    · rw [hnow]
      exact h.spinOnce request hold
    · exact ⟨since, wait, List.mem_singleton.mp hnew, hwaited⟩

theorem PingCalled.preserved {requests : List (Request Data)} (h : PingCalled requests state)
    (hguard : Punctual late state event) (htransition : Transition params state event next) :
    PingCalled (requests ++ pingRequests state event) next := by
  have hquiet : ∃ clocks, state.sendClocks = state.sendClocks ++ clocks ∧
      state.ping.pendingCall = state.ping.pendingCall ++ clocks :=
    ⟨[], (List.append_nil _).symm, (List.append_nil _).symm⟩
  cases htransition with
  | tick hle =>
    refine h.move hle hquiet (fun clock hpc ↦ ?_) rfl rfl
    have hbusy := hguard.ping
    rw [show state.ping = .stamped clock from hpc] at hbusy
    cases hbusy
  | wake hping _ =>
    refine h.move le_rfl ⟨[], (List.append_nil _).symm, ?_⟩
      (fun _ hpc ↦ (PingPc.stamped.inj hpc).symm) rfl rfl
    rw [hping]
    rfl
  | @publishPing clock hping =>
    have hclock := h.stamped clock hping
    refine h.move le_rfl ⟨[clock], rfl, ?_⟩ (fun _ ↦ PingPc.noConfusion) rfl rfl
    rw [hping, hclock]
    rfl
  | takeReply hping htook =>
    rw [pingRequests, htook.message, hping]
    exact h.concat hping _ (absurd · (Option.some_ne_none _)) rfl rfl rfl
      (fun _ ↦ PingPc.noConfusion) htook.messages rfl
  | pingCallback hping _ =>
    refine h.move le_rfl ⟨[], (List.append_nil _).symm, ?_⟩
      (fun clock hpc ↦ absurd hpc (loopHead_ne_stamped _ clock)) rfl rfl
    rw [loopHead_pendingCall, hping]
    rfl
  | pingTimeout hping _ =>
    obtain ⟨due, htimer, hdue⟩ := hguard
    rw [hping] at htimer
    cases htimer
    rw [pingRequests, hping]
    exact h.concat hping _ (fun _ ↦ ⟨hdue, le_rfl⟩) rfl rfl (loopHead_pendingCall _) (loopHead_ne_stamped _)
      (List.append_nil _).symm rfl
  | publishReply _ => exact h.move le_rfl hquiet h.stamped (Channel.messages_publish _ _) rfl
  | loseReply hdropped => exact h.move le_rfl hquiet h.stamped hdropped.messages rfl
  | _ => exact h.move le_rfl hquiet h.stamped rfl rfl

/-! ## The messages handed over -/

/-- A message has been handed over and its latency not added. -/
def State.inCallback (state : State) : Process → ℕ
  | .ping => state.ping.inHand
  | .pong => state.pong.inHand + state.pong.pending

theorem handedOver_length (h : HandsCounted state) (process : Process) :
    (state.handedOver process).length =
      (state.samples process).length + state.inCallback process := by
  cases process with
  | ping =>
    change state.replies.messages.length = _
    rw [Channel.messages_eq_map, List.length_map]
    exact h.replies
  | pong =>
    have hpings := h.pings
    have hsamples := h.samples
    change state.pings.messages.length = state.pongSamples.length + (_ + _)
    rw [Channel.messages_eq_map, List.length_map]
    omega

theorem map_message_zipWith (taken : List ℕ) (samples : List Sample) (message : ℕ → Data) :
    (List.zipWith (fun index sample ↦ (⟨message index, sample.receiveClock⟩ : Delivery))
      taken samples).map Delivery.message = (taken.map message).take samples.length := by
  induction taken generalizing samples with
  | nil => exact List.take_nil.symm
  | cons index taken ih =>
    cases samples with
    | nil => rfl
    | cons sample samples => exact congrArg (message index :: ·) (ih samples)

/-- The callback adds a latency for each message handed over, in the same order. -/
theorem map_message_deliveries (state : State) (process : Process) :
    (state.deliveries process).map Delivery.message =
      (state.handedOver process).take (state.samples process).length := by
  cases process with
  | ping | pong =>
    rw [State.handedOver, Channel.messages_eq_map]
    exact map_message_zipWith _ _ _

/-! ## Whole exchanges -/

section Run

variable {events : List Event}
  (hrun : (exchange params start wakeAt).runUnder (Punctual late) (.start params start wakeAt)
    events = some last)

include hrun

theorem pongWaited_of_run : PongWaited start
    ((exchange params start wakeAt).reports pongWaits (.start params start wakeAt) events) last :=
  System.reports_invariant (PongWaited start)
    (fun _ _ _ _ h hguard hstep ↦ h.preserved hguard (transition_of_step params hstep))
    pongWaited_start hrun

theorem pingCalled_of_run : PingCalled (subscriberCalls params start wakeAt events .ping) last :=
  System.reports_invariant PingCalled
    (fun _ _ _ _ h hguard hstep ↦ h.preserved hguard (transition_of_step params hstep))
    pingCalled_start hrun

theorem handedOver_of_run (process : Process) :
    ((subscriberCalls params start wakeAt events process).flatMap
      Request.outcomes).reduceOption = last.handedOver process := by
  cases process with
  | ping => exact (pingCalled_of_run hrun).messages
  | pong =>
    have houtcomes := (pongWaited_of_run hrun).outcomes
    have hgaveUp : last.pong.gaveUp.reduceOption = [] := by cases last.pong <;> rfl
    rw [subscriberCalls, List.flatMap_singleton, Request.outcomes, houtcomes,
      List.reduceOption_append, hgaveUp, List.append_nil, List.reduceOption, List.filterMap_map]
    exact List.filterMap_some

/-- Every call ends in time for the rclcpp layer. -/
theorem subscriberCalls_inTime {elapsedNs : ℕ → ℕ → UInt64}
    (hexact : ∀ since now : ℕ, since ≤ now → now ≤ last.now →
      (elapsedNs since now).toNat = now - since) (process : Process) :
    ∀ request ∈ subscriberCalls params start wakeAt events process,
      request.InTime elapsedNs := by
  intro request hmem
  cases process with
  | ping =>
    obtain ⟨since, wait, rfl, -⟩ := (pingCalled_of_run hrun).spinOnce request hmem
    trivial
  | pong =>
    obtain rfl := List.mem_singleton.mp hmem
    have hwaited := pongWaited_of_run hrun
    have hpast := forall_readings (· ≤ last.now) hwaited.past.1 hwaited.past.2
    exact ⟨by decide, hwaited.inTime,
      fun since _ now hnow hle ↦ hexact since now hle (hpast now hnow)⟩

/-- `spin_once` of the rclcpp layer ends with the wait that the exchange says. -/
theorem spinOnce_ends_of_run {elapsedNs : ℕ → ℕ → UInt64}
    (hexact : ∀ since now : ℕ, since ≤ now → now ≤ last.now →
      (elapsedNs since now).toNat = now - since) (fields : RclcppPubsub.State)
    {request : Request Data} (hmem : request ∈ subscriberCalls params start wakeAt events .ping) :
    (request.rclcppRun elapsedNs fields).returned = true ∨
      (request.rclcppRun elapsedNs fields).state.doneCallback = true := by
  obtain ⟨since, wait, rfl, hwaited⟩ := (pingCalled_of_run hrun).spinOnce request hmem
  apply RclcppPubsub.spinOnce_ends rfl
  rw [wait.received_rclcppTurn]
  intro hnone
  obtain ⟨hdue, hpast⟩ := hwaited hnone
  have hle : since ≤ wait.now := (Nat.le_add_right _ _).trans hdue
  apply (RclcppPubsub.timeout_le_elapsed_iff (by decide) hle (hexact since wait.now hle hpast)).mpr
  rw [timeoutNs_toInt]
  exact_mod_cast hdue

/-- `spin` of the rclcpp layer returns when the exchange says so. -/
theorem spin_returned_of_run {elapsedNs : ℕ → ℕ → UInt64}
    (hexact : ∀ since now : ℕ, since ≤ now → now ≤ last.now →
      (elapsedNs since now).toNat = now - since) (fields : RclcppPubsub.State)
    {request : Request Data} (hmem : request ∈ subscriberCalls params start wakeAt events .pong) :
    (request.rclcppRun elapsedNs fields).returned = true ↔ last.pong = .returned := by
  have hintime := subscriberCalls_inTime hrun hexact .pong request hmem
  have houtcomes := (pongWaited_of_run hrun).outcomes
  obtain rfl := List.mem_singleton.mp hmem
  have hany (waits : List (Wait Data)) : (waits.any fun wait ↦ wait.outcome.isNone) =
      (waits.map Wait.outcome).any Option.isNone := by
    rw [List.any_map]
    rfl
  have hmessages : (last.pings.messages.map some).any Option.isNone = false := by
    rw [List.any_map]
    exact List.any_eq_false.mpr fun _ _ ↦ Bool.false_ne_true
  rw [spin_returned hintime, hany, houtcomes, List.any_append, hmessages, Bool.false_or]
  cases last.pong <;> simp [PongPc.gaveUp]

end Run

/-- What the calls of both processes say of the last state of an exchange. -/
structure OnLayers (params : RtParams) (start wakeAt : ℕ) (events : List Event)
    (callback : Data → Data) (elapsedNs : ℕ → ℕ → UInt64) (fields : RclcppPubsub.State)
    (last : State) : Prop where
  handsOver : ∀ process, HandsOver callback elapsedNs fields
    (subscriberCalls params start wakeAt events process) (last.handedOver process)
  delivered : ∀ process, (last.deliveries process).map Delivery.message <+: last.handedOver process
  length : ∀ process, (last.handedOver process).length =
    (last.deliveries process).length + last.inCallback process
  returned : ∀ request ∈ subscriberCalls params start wakeAt events .pong,
    ((request.rclcppRun elapsedNs fields).returned = true ↔ last.pong = .returned)
  ended : ∀ request ∈ subscriberCalls params start wakeAt events .ping,
    (request.rclcppRun elapsedNs fields).returned = true ∨
      (request.rclcppRun elapsedNs fields).state.doneCallback = true
  outcomes : (subscriberCalls params start wakeAt events .pong).flatMap Request.outcomes =
    (last.handedOver .pong).map some ++ last.pong.gaveUp
  starts : (subscriberCalls params start wakeAt events .ping).map Request.start ++
    last.ping.pendingCall = last.sendClocks
  timeouts : ((subscriberCalls params start wakeAt events .ping).flatMap Request.outcomes).count
    none = last.timeouts

/-- In a punctual exchange, `pong` makes one call of `spin` and `ping` one call of `spin_once` for
each ping. On the rcl, rmw and rclcpp layers these calls hand over what the exchange takes, and the
callbacks add a latency for each message handed over. -/
theorem exchange_onLayers {events : List Event}
    (hrun : (exchange params start wakeAt).runUnder (Punctual late) (.start params start wakeAt)
      events = some last) {elapsedNs : ℕ → ℕ → UInt64}
    (hexact : ∀ since now : ℕ, since ≤ now → now ≤ last.now →
      (elapsedNs since now).toNat = now - since)
    (callback : Data → Data) (fields : RclcppPubsub.State) :
    OnLayers params start wakeAt events callback elapsedNs fields last := by
  have hhands : HandsCounted last := by
    have hreachable := System.ReachableUnder.runUnder (.initial rfl) events hrun
    exact (invariant_of_reachable hreachable.reachable).hands
  have hlength (process : Process) := handedOver_length hhands process
  refine ⟨fun process ↦ ?_, fun process ↦ ?_, fun process ↦ ?_,
    fun _ ↦ spin_returned_of_run hrun hexact fields,
    fun _ ↦ spinOnce_ends_of_run hrun hexact fields, ?_, ?_, ?_⟩
  · rw [← handedOver_of_run hrun process]
    exact handsOver_outcomes callback (subscriberCalls_inTime hrun hexact process) fields
  · rw [map_message_deliveries]
    exact List.take_prefix _ _
  · have hdeliveries : (last.deliveries process).length = (last.samples process).length := by
      rw [← List.length_map Delivery.message, map_message_deliveries, List.length_take, hlength]
      exact Nat.min_eq_left (Nat.le_add_right _ _)
    rw [hdeliveries]
    exact hlength process
  · rw [subscriberCalls, List.flatMap_singleton]
    exact (pongWaited_of_run hrun).outcomes
  · exact (pingCalled_of_run hrun).starts
  · exact (pingCalled_of_run hrun).timeouts

/-- The second ping is lost, and both processes wait until their timeouts have passed. -/
theorem exchange_onLayers_lost : ∃ (events : List Event) (last : State),
    last.ping = .finished ∧ last.pong = .returned ∧ last.handedOver .pong = [⟨7, 0, 0⟩] ∧
      last.sendClocks = [7, 1000009] ∧
      OnLayers ⟨2, 1000000⟩ 0 5 events id RclcppPubsub.elapsed ⟨0, false⟩ last := by
  have hrun : (exchange ⟨2, 1000000⟩ 0 5).runUnder (Punctual 2) (.start ⟨2, 1000000⟩ 0 5)
      [.tick 7, .wake, .publishPing, .takePing 0, .stampReply, .publishReply, .addLatency, .tick 9,
        .takeReply 0, .pingCallback, .tick 1000009, .wake, .publishPing, .losePing 1,
        .tick 3000000007, .pongTimeout, .tick 3001000009, .pingTimeout] = some _ := rfl
  refine ⟨_, _, rfl, rfl, rfl, rfl, exchange_onLayers hrun (fun since now _ hnow ↦ ?_) id _⟩
  change now ≤ 3001000009 at hnow
  exact UInt64.toNat_ofNat_of_lt (by
    change now - since < 2 ^ 64
    omega)

end LayerPingPong.TwoWay
