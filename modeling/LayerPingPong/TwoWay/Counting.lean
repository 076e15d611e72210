import LayerPingPong.TwoWay.Exchange

/-!
# Counting iterations, messages and samples

How far each process is in its loop fixes the lengths of the histories: a ping that has been sent in
the current turn, a ping that `pong` holds, and a reply that `ping` holds each account for a
difference of one.
-/

namespace LayerPingPong.TwoWay

variable {params : RtParams} {state next : State} {event : Event}

/-- The ping of the current turn has been sent. -/
def PingPc.sent : PingPc → ℕ
  | .waiting _ | .taken _ => 1
  | _ => 0

/-- The ping of the current turn has its number but has not been sent. -/
def PingPc.prepared : PingPc → ℕ
  | .stamped _ => 1
  | _ => 0

/-- A reply has been taken and its latency not added. -/
def PingPc.inHand : PingPc → ℕ
  | .taken _ => 1
  | _ => 0

/-- A ping has been taken and not answered. -/
def PongPc.inHand : PongPc → ℕ
  | .taken _ | .stamped _ _ => 1
  | _ => 0

/-- A reply has been published and its latency not added. -/
def PongPc.pending : PongPc → ℕ
  | .published _ _ => 1
  | _ => 0

/-- The next statement after the head of the loop. -/
inductive AtLoopHead (params : RtParams) (state : State) : Prop where
  | sleeping {wakeAt : ℕ} : state.ping = .sleeping wakeAt →
      state.iteration.toInt < params.iterations → AtLoopHead params state
  | finished : state.ping = .finished → params.iterations ≤ state.iteration.toInt →
      AtLoopHead params state

theorem atLoopHead_of_eq (h : state.ping = state.loopHead params) : AtLoopHead params state := by
  unfold State.loopHead at h
  split at h
  · rename_i hlt
    exact .sleeping h hlt
  · rename_i hge
    exact .finished h (Int.not_lt.mp hge)

/-- The loop counter, the message counter and the number of pings sent agree. -/
structure PingsCounted (params : RtParams) (state : State) : Prop where
  iteration : state.iteration.toInt + state.ping.sent = state.pings.published.length
  count : state.count.toInt = state.pings.published.length + state.ping.prepared
  le_iterations : state.pings.published.length ≤ params.iterations
  running : state.ping ≠ .finished → state.iteration.toInt < params.iterations
  message : ∀ clock, state.ping = .stamped clock →
    state.message.data.toInt = state.pings.published.length
  data : ∀ (index : ℕ) (ping : Data), state.pings.published[index]? = some ping →
    ping.data.toInt = index

theorem PingsCounted.congr (h : PingsCounted params state)
    (hping : next.ping = state.ping) (hiteration : next.iteration = state.iteration)
    (hcount : next.count = state.count) (hmessage : next.message = state.message)
    (hpublished : next.pings.published = state.pings.published) : PingsCounted params next where
  iteration := by simpa only [hping, hiteration, hpublished] using h.iteration
  count := by simpa only [hping, hcount, hpublished] using h.count
  le_iterations := by simpa only [hpublished] using h.le_iterations
  running := by simpa only [hping, hiteration] using h.running
  message := by simpa only [hping, hmessage, hpublished] using h.message
  data := by simpa only [hpublished] using h.data

/-- The end of a turn after a message was sent in it. -/
theorem PingsCounted.nextIteration (h : PingsCounted params state) (hsent : state.ping.sent = 1)
    (hcounter : next.iteration.toInt = state.iteration.toInt + 1)
    (hhead : next.ping = next.loopHead params) (hcount : next.count = state.count)
    (hpublished : next.pings.published = state.pings.published) : PingsCounted params next := by
  have hiteration := h.iteration
  have hprepared : state.ping.prepared = 0 := by
    cases hping : state.ping with
    | stamped clock => simp [hping, PingPc.sent] at hsent
    | _ => rfl
  have hcounts := h.count
  have hle := h.le_iterations
  rw [hprepared] at hcounts
  rw [hsent] at hiteration
  refine ⟨?_, ?_, ?_, ?_, ?_, ?_⟩
  · rw [hpublished, hcounter, ← hiteration]
    rcases atLoopHead_of_eq hhead with hpc | hpc <;> simp [hpc, PingPc.sent]
  · rw [hpublished, hcount, hcounts]
    rcases atLoopHead_of_eq hhead with hpc | hpc <;> simp [hpc, PingPc.prepared]
  · rw [hpublished]
    exact hle
  · intro hrunning
    rcases atLoopHead_of_eq hhead with ⟨-, hlt⟩ | ⟨hpc, -⟩
    · exact hlt
    · exact absurd hpc hrunning
  · intro clock hpc
    rcases atLoopHead_of_eq hhead with ⟨hhead, -⟩ | ⟨hhead, -⟩
    · cases hhead.symm.trans hpc
    · cases hhead.symm.trans hpc
  · rw [hpublished]
    exact h.data

theorem PingsCounted.preserved (h : PingsCounted params state)
    (htransition : Transition params state event next) : PingsCounted params next := by
  cases htransition with
  | wake hpc hcount =>
    have hiteration := h.iteration
    have hcounts := h.count
    have hrunning := h.running (by simp [hpc])
    rw [hpc] at hiteration hcounts
    refine ⟨hiteration, ?_, h.le_iterations, fun _ ↦ hrunning, fun _ _ ↦ ?_, h.data⟩
    · rw [Checked.increment_toInt hcount, hcounts]
      rfl
    · change state.count.toInt64.toInt = _
      rw [Int32.toInt_toInt64, hcounts]
      rfl
  | @publishPing clock hpc =>
    have hiteration := h.iteration
    have hcounts := h.count
    have hrunning := h.running (by simp [hpc])
    have hmessage := h.message clock hpc
    rw [hpc] at hiteration hcounts
    simp only [PingPc.sent, PingPc.prepared] at hiteration hcounts
    have hlength : (state.pings.publish state.message).published.length =
        state.pings.published.length + 1 := List.length_append
    refine ⟨?_, ?_, ?_, fun _ ↦ hrunning, nofun, ?_⟩
    · simp only [hlength, PingPc.sent]
      omega
    · simp only [hlength, PingPc.prepared]
      omega
    · simp only [hlength]
      omega
    · intro index ping hping
      rcases getElem?_concat_eq_some_iff.mp hping with hold | ⟨rfl, rfl⟩
      · exact h.data index ping hold
      · exact hmessage
  | @takeReply _ since reply _ hpc _ =>
    have hiteration := h.iteration
    have hcounts := h.count
    have hrunning := h.running (by simp [hpc])
    rw [hpc] at hiteration hcounts
    exact ⟨hiteration, hcounts, h.le_iterations, fun _ ↦ hrunning, nofun, h.data⟩
  | pingCallback hpc hiteration =>
    exact h.nextIteration (by rw [hpc]; rfl) (Checked.increment_toInt hiteration) rfl rfl rfl
  | pingTimeout hpc hiteration =>
    exact h.nextIteration (by rw [hpc]; rfl) (Checked.increment_toInt hiteration) rfl rfl rfl
  | takePing _ htook => exact h.congr rfl rfl rfl rfl htook.published
  | losePing hdropped => exact h.congr rfl rfl rfl rfl hdropped.published
  | _ => exact h.congr rfl rfl rfl rfl rfl

theorem pingsCounted_start (now wakeAt : ℕ) :
    PingsCounted params (.start params now wakeAt) := by
  have hpc : (State.start params now wakeAt).ping =
      if 0 < params.iterations then .sleeping wakeAt else .finished := rfl
  refine ⟨?_, ?_, Nat.zero_le _, ?_, ?_, nofun⟩
  · rw [hpc]
    split <;> rfl
  · rw [hpc]
    split <;> rfl
  · rw [hpc]
    intro hrunning
    split at hrunning
    · rename_i hpos
      exact Int.natCast_pos.mpr hpos
    · exact absurd rfl hrunning
  · rw [hpc]
    intro clock hstamped
    split at hstamped <;> cases hstamped

/-! ## Messages in hand -/

/-- A message taken from a topic is in the hand of a process until the process has published its
reply or added its latency. -/
structure HandsCounted (state : State) : Prop where
  pings : state.pings.taken.length = state.replies.published.length + state.pong.inHand
  replies : state.replies.taken.length = state.pingSamples.length + state.ping.inHand
  samples : state.replies.published.length = state.pongSamples.length + state.pong.pending

theorem loopHead_inHand (state : State) : (state.loopHead params).inHand = 0 := by
  unfold State.loopHead
  split <;> rfl

theorem HandsCounted.preserved (h : HandsCounted state)
    (htransition : Transition params state event next) : HandsCounted next := by
  obtain ⟨hpings, hreplies, hsamples⟩ := h
  cases htransition with
  | tick => exact ⟨hpings, hreplies, hsamples⟩
  | wake hpc _ | publishPing hpc =>
    rw [hpc] at hreplies
    exact ⟨hpings, hreplies, hsamples⟩
  | takeReply hpc htook =>
    rw [hpc] at hreplies
    refine ⟨?_, ?_, ?_⟩
    · exact htook.published ▸ hpings
    · change _ = _ + 1
      rw [htook.taken, List.length_append, hreplies]
      rfl
    · exact htook.published ▸ hsamples
  | pingCallback hpc _ =>
    rw [hpc] at hreplies
    refine ⟨hpings, ?_, hsamples⟩
    dsimp only
    rw [hreplies, loopHead_inHand, List.length_append]
    rfl
  | pingTimeout hpc _ =>
    rw [hpc] at hreplies
    refine ⟨hpings, ?_, hsamples⟩
    dsimp only
    rw [hreplies, loopHead_inHand]
    rfl
  | takePing hpc htook =>
    rw [hpc] at hpings hsamples
    refine ⟨?_, hreplies, hsamples⟩
    change _ = _ + 1
    rw [htook.taken, List.length_append, hpings]
    rfl
  | stampReply hpc | pongTimeout hpc =>
    rw [hpc] at hpings hsamples
    exact ⟨hpings, hreplies, hsamples⟩
  | @publishReply message clock hpc =>
    rw [hpc] at hpings hsamples
    have hlength : (state.replies.publish message).published.length =
        state.replies.published.length + 1 := List.length_append
    refine ⟨?_, hreplies, ?_⟩
    · rw [hlength, hpings]
      rfl
    · rw [hlength, hsamples]
      rfl
  | addLatency hpc =>
    rw [hpc] at hpings hsamples
    refine ⟨hpings, hreplies, ?_⟩
    dsimp only
    rw [hsamples, List.length_append]
    rfl
  | losePing hdropped => exact ⟨hdropped.taken ▸ hpings, hreplies, hsamples⟩
  | loseReply hdropped =>
    exact ⟨hdropped.published ▸ hpings, hdropped.taken ▸ hreplies, hdropped.published ▸ hsamples⟩

theorem handsCounted_start (now wakeAt : ℕ) : HandsCounted (.start params now wakeAt) := by
  refine ⟨rfl, ?_, rfl⟩
  change 0 = 0 + PingPc.inHand (if 0 < params.iterations then .sleeping wakeAt else .finished)
  split <;> rfl

end LayerPingPong.TwoWay
