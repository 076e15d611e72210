import LayerPingPong.TwoWay.Exchange

/-!
# Runs with timers and delays

The steps of the exchange under an integer clock: sleeps and waits end when their time has come,
computing takes no time, and a message arrives after its delay. One message is lost. Events that are
due at the same instant happen in any order.
-/

namespace LayerPingPong.TwoWay

/-- The message that never arrives. -/
inductive Lost where
  | ping (index : ℕ)
  | reply (index : ℕ)
  deriving DecidableEq, Repr

/-- What is fixed before a run. Pings and replies are numbered by iterations. The first sleep of
`ping` ends at `firstSend`, counted from the moment at which `pong` enters `spin`. -/
structure Scenario where
  params : RtParams
  firstSend : ℕ
  lost : Lost
  pingDelay : ℕ → ℕ
  replyDelay : ℕ → ℕ

/-- When the current sleep or wait ends at the latest. -/
def PingPc.timer : PingPc → Option ℕ
  | .sleeping wakeAt => some wakeAt
  | .waiting since => some (since + spinTimeout)
  | _ => none

def PingPc.isWaiting : PingPc → Bool
  | .waiting _ => true
  | _ => false

/-- The next statement takes no time. -/
def PingPc.busy : PingPc → Bool
  | .stamped _ | .taken _ => true
  | _ => false

def PongPc.timer : PongPc → Option ℕ
  | .waiting since => some (since + spinTimeout)
  | _ => none

def PongPc.isWaiting : PongPc → Bool
  | .waiting _ => true
  | _ => false

def PongPc.busy : PongPc → Bool
  | .taken _ | .stamped _ _ | .published _ _ => true
  | _ => false

namespace Scenario

variable (scenario : Scenario)

def pingArrival (state : State) (index : ℕ) : Option ℕ :=
  if scenario.lost = .ping index then none
  else state.sendClocks[index]?.map (· + scenario.pingDelay index)

/-- The delay of a reply is that of the ping it answers. -/
def replyArrival (state : State) (index : ℕ) : Option ℕ :=
  match state.pings.taken[index]?, state.replyClocks[index]? with
  | some origin, some clock =>
    if scenario.lost = .reply origin then none else some (clock + scenario.replyDelay origin)
  | _, _ => none

end Scenario

/-- The clock may go on to `now`: no process has anything to do before. -/
structure TimeMayPass (scenario : Scenario) (state : State) (now : ℕ) : Prop where
  ping : state.ping.busy = false
  pong : state.pong.busy = false
  pingTimer : ∀ due ∈ state.ping.timer, now ≤ due
  pongTimer : ∀ due ∈ state.pong.timer, now ≤ due
  replies : state.ping.isWaiting = true → ∀ index ∈ state.replies.inFlight,
    ∀ arrival ∈ scenario.replyArrival state index, now ≤ arrival
  pings : state.pong.isWaiting = true → ∀ index ∈ state.pings.inFlight,
    ∀ arrival ∈ scenario.pingArrival state index, now ≤ arrival

instance (scenario : Scenario) (state : State) (now : ℕ) :
    Decidable (TimeMayPass scenario state now) :=
  decidable_of_iff
    (state.ping.busy = false ∧ state.pong.busy = false ∧ (∀ due ∈ state.ping.timer, now ≤ due) ∧
      (∀ due ∈ state.pong.timer, now ≤ due) ∧
      (state.ping.isWaiting = true → ∀ index ∈ state.replies.inFlight,
        ∀ arrival ∈ scenario.replyArrival state index, now ≤ arrival) ∧
      (state.pong.isWaiting = true → ∀ index ∈ state.pings.inFlight,
        ∀ arrival ∈ scenario.pingArrival state index, now ≤ arrival))
    ⟨fun ⟨hping, hpong, hpingTimer, hpongTimer, hreplies, hpings⟩ ↦
      ⟨hping, hpong, hpingTimer, hpongTimer, hreplies, hpings⟩,
    fun h ↦ ⟨h.ping, h.pong, h.pingTimer, h.pongTimer, h.replies, h.pings⟩⟩

/-- Timers fire and messages are taken when they are due. -/
def Timely (scenario : Scenario) (state : State) : Event → Prop
  | .tick now => TimeMayPass scenario state now
  | .wake | .pingTimeout => ∃ due ∈ state.ping.timer, due ≤ state.now
  | .pongTimeout => ∃ due ∈ state.pong.timer, due ≤ state.now
  | .takePing index => ∃ arrival ∈ scenario.pingArrival state index, arrival ≤ state.now
  | .takeReply index => ∃ arrival ∈ scenario.replyArrival state index, arrival ≤ state.now
  | .losePing _ | .loseReply _ => False
  | _ => True

instance (scenario : Scenario) (state : State) (event : Event) :
    Decidable (Timely scenario state event) :=
  match event with
  | .tick now => inferInstanceAs (Decidable (TimeMayPass scenario state now))
  | .wake | .pingTimeout =>
    inferInstanceAs (Decidable (∃ due ∈ state.ping.timer, due ≤ state.now))
  | .pongTimeout => inferInstanceAs (Decidable (∃ due ∈ state.pong.timer, due ≤ state.now))
  | .takePing index =>
    inferInstanceAs (Decidable (∃ arrival ∈ scenario.pingArrival state index, arrival ≤ state.now))
  | .takeReply index =>
    inferInstanceAs
      (Decidable (∃ arrival ∈ scenario.replyArrival state index, arrival ≤ state.now))
  | .losePing _ | .loseReply _ => inferInstanceAs (Decidable False)
  | .publishPing | .pingCallback | .stampReply | .publishReply | .addLatency =>
    inferInstanceAs (Decidable True)

/-! ## The planned times -/

namespace Scenario

variable (scenario : Scenario)

/-- The timers of both processes exceed the update period and every round trip without a loss, and
`pong` enters `spin` less than one timeout before the first ping. -/
structure Admissible : Prop where
  period : scenario.params.updatePeriod < spinTimeout
  firstSend : scenario.firstSend < spinTimeout
  roundTrip : ∀ i < scenario.params.iterations, scenario.lost ≠ .ping i → scenario.lost ≠ .reply i →
    scenario.pingDelay i + scenario.replyDelay i + scenario.params.updatePeriod < spinTimeout

/-- The time from one ping to the next if `pong` receives it. -/
def gap (i : ℕ) : ℕ :=
  if scenario.lost = .reply i then spinTimeout + scenario.params.updatePeriod
  else scenario.pingDelay i + scenario.replyDelay i + scenario.params.updatePeriod

def sendTime : ℕ → ℕ
  | 0 => scenario.firstSend
  | i + 1 => sendTime i + scenario.gap i

def arrivalTime (i : ℕ) : ℕ := scenario.sendTime i + scenario.pingDelay i

/-- When `pong` gives up, having received all pings before this one. -/
def deadline : ℕ → ℕ
  | 0 => spinTimeout
  | i + 1 => scenario.arrivalTime i + spinTimeout

/-- `pong` receives the ping before its deadline and is still there for the next one. -/
structure Serves (i : ℕ) : Prop where
  ping : scenario.lost ≠ .ping i
  inTime : scenario.arrivalTime i < scenario.deadline i
  reply : scenario.lost = .reply i → scenario.params.updatePeriod < scenario.pingDelay i

variable {scenario} {i : ℕ}

theorem sendTime_succ_of_lost (h : scenario.lost = .reply i) :
    scenario.sendTime (i + 1) =
      scenario.sendTime i + spinTimeout + scenario.params.updatePeriod := by
  rw [sendTime, gap, if_pos h, ← Nat.add_assoc]

theorem sendTime_succ_of_not_lost (h : scenario.lost ≠ .reply i) :
    scenario.sendTime (i + 1) =
      scenario.arrivalTime i + scenario.replyDelay i + scenario.params.updatePeriod := by
  rw [sendTime, gap, if_neg h, arrivalTime, ← Nat.add_assoc, ← Nat.add_assoc]

/-- The timer of `pong` never outlasts a wait of `ping` that begins with the next ping. -/
theorem deadline_le (hserves : ∀ j < i, scenario.Serves j) :
    scenario.deadline i ≤ scenario.sendTime i + spinTimeout := by
  induction i with
  | zero => exact Nat.le_add_left _ _
  | succ i ih =>
    have hbefore := ih fun j hj ↦ hserves j (Nat.lt_succ_of_lt hj)
    have hinTime := (hserves i (Nat.lt_succ_self i)).inTime
    rw [deadline]
    by_cases hlost : scenario.lost = .reply i
    · rw [sendTime_succ_of_lost hlost]
      omega
    · rw [sendTime_succ_of_not_lost hlost]
      omega

/-- A ping in time arrives before `ping` gives up waiting for its reply. -/
theorem arrivalTime_lt (hserves : ∀ j < i, scenario.Serves j)
    (hinTime : scenario.arrivalTime i < scenario.deadline i) :
    scenario.arrivalTime i < scenario.sendTime i + spinTimeout :=
  hinTime.trans_le (deadline_le hserves)

theorem arrivalTime_add_le (hwithin : scenario.arrivalTime i < scenario.sendTime i + spinTimeout) :
    scenario.arrivalTime i + scenario.params.updatePeriod ≤ scenario.sendTime (i + 1) := by
  by_cases hlost : scenario.lost = .reply i
  · rw [sendTime_succ_of_lost hlost]
    omega
  · rw [sendTime_succ_of_not_lost hlost]
    omega

theorem Admissible.sendTime_succ_lt (h : scenario.Admissible)
    (hi : i < scenario.params.iterations) (hserves : scenario.Serves i) :
    scenario.sendTime (i + 1) < scenario.deadline (i + 1) := by
  rw [deadline]
  by_cases hlost : scenario.lost = .reply i
  · have hperiod := hserves.reply hlost
    rw [sendTime_succ_of_lost hlost, arrivalTime]
    omega
  · have htrip := h.roundTrip i hi hserves.ping hlost
    rw [sendTime_succ_of_not_lost hlost]
    omega

theorem Admissible.sendTime_lt (h : scenario.Admissible) (hi : i < scenario.params.iterations)
    (hserves : ∀ j < i, scenario.Serves j) : scenario.sendTime i < scenario.deadline i := by
  cases i with
  | zero => exact h.firstSend
  | succ i => exact h.sendTime_succ_lt (Nat.lt_of_succ_lt hi) (hserves i (Nat.lt_succ_self i))

end Scenario

end LayerPingPong.TwoWay
