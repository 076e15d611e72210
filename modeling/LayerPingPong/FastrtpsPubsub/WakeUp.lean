import LayerPingPong.FastrtpsPubsub.Listener

/-!
# Stale stores and lost wake-ups

`data_taken` reads the unread count and stores it later without the mutex. A message that arrives
in between has its own store overwritten by the older count. If that count is zero, the spinning
thread waits although a message is there. Without such a store no wake-up is lost.
-/

namespace LayerPingPong.FastrtpsPubsub

open TransitionSystem

variable {Message : Type}

/-- The predicate of `wait_for` is evaluated while no listener call runs and a message is
unread. -/
def State.WaitsWithMessage (state : State Message) : Prop :=
  state.listener = .idle ∧ (∃ timedOut, state.spinner = .evaluating timedOut) ∧ state.unread ≠ []

/-- The listener call of the latest message has still to store its count. -/
def ListenerPc.storePending : ListenerPc → Bool
  | .entered | .counted _ | .locked _ => true
  | _ => false

/-- `data_taken` does not overwrite the store of a newer message with a count of zero. -/
def NoStaleStore (state : State Message) : Event Message → Prop
  | .dataTakenStore => ∀ message, state.spinner = .counted message 0 → state.unread ≠ [] →
      state.listener.storePending = true
  | _ => True

/-- An unread message is announced by `data_` or by a store that is still to come. -/
structure Announced (state : State Message) : Prop where
  unread_of_pending : state.listener.storePending = true → state.unread ≠ []
  counted : ∀ unreadCount,
    state.listener = .counted unreadCount ∨ state.listener = .locked unreadCount → 0 < unreadCount
  data_pos : state.listener.storePending = false → state.unread ≠ [] →
    ∃ data, state.data = some data ∧ 0 < data

theorem announced_started : Announced (State.started : State Message) where
  unread_of_pending h := by simp [State.started, ListenerPc.storePending] at h
  counted := by simp [State.started]
  data_pos _ h := absurd rfl h

theorem Announced.congr {state next : State Message} (h : Announced state)
    (hlistener : next.listener = state.listener) (hunread : next.unread = state.unread)
    (hdata : next.data = state.data) : Announced next where
  unread_of_pending := by simpa only [hlistener, hunread] using h.unread_of_pending
  counted := by simpa only [hlistener] using h.counted
  data_pos := by simpa only [hlistener, hunread, hdata] using h.data_pos

theorem Announced.preserved {state next : State Message} {event : Event Message}
    (h : Announced state) (hguard : NoStaleStore state event)
    (hstep : step state event = some next) : Announced next := by
  obtain ⟨-, htransition⟩ := transition_of_step hstep
  cases htransition with
  | arrive message evicted _ _ =>
    exact ⟨fun _ ↦ by simp, by simp, by simp [ListenerPc.storePending]⟩
  | listenerCount hpc =>
    have hunread := h.unread_of_pending (by rw [hpc]; rfl)
    refine ⟨fun _ ↦ hunread, ?_, by simp [ListenerPc.storePending]⟩
    rintro unreadCount (hcounted | hlocked)
    · injection hcounted with hcount
      exact hcount ▸ List.length_pos_iff.mpr hunread
    · cases hlocked
  | @listenerLock unreadCount hpc _ _ =>
    have hunread := h.unread_of_pending (by rw [hpc]; rfl)
    refine ⟨fun _ ↦ hunread, ?_, by simp [ListenerPc.storePending]⟩
    rintro other (hcounted | hlocked)
    · cases hcounted
    · injection hlocked with hcount
      exact hcount ▸ h.counted unreadCount (.inl hpc)
  | @listenerStore unreadCount hpc =>
    exact ⟨by simp [ListenerPc.storePending], by simp,
      fun _ _ ↦ ⟨unreadCount, rfl, h.counted unreadCount (.inr hpc)⟩⟩
  | listenerUnlock hpc =>
    exact ⟨by simp [ListenerPc.storePending], by simp, fun _ ↦ h.data_pos (by rw [hpc]; rfl)⟩
  | listenerNotify hpc _ =>
    exact ⟨by simp [ListenerPc.storePending], by simp, fun _ ↦ h.data_pos (by rw [hpc]; rfl)⟩
  | take _ hidle hunread =>
    refine ⟨by simp [hidle, ListenerPc.storePending], by simp [hidle], fun _ _ ↦ ?_⟩
    exact h.data_pos (by rw [hidle]; rfl) (by simp [hunread])
  | @dataTakenStore message unreadCount hpc =>
    refine ⟨h.unread_of_pending, h.counted, fun hstored hunread ↦ ⟨unreadCount, rfl, ?_⟩⟩
    rcases Nat.eq_zero_or_pos unreadCount with rfl | hpos
    · exact absurd (hguard message hpc hunread) (by simp [hstored])
    · exact hpos
  | _ => exact h.congr rfl rfl rfl

/-- In runs without a stale store the predicate sees every unread message. -/
theorem hasData_of_noStaleStore {state : State Message}
    (h : (attached Message).ReachableUnder NoStaleStore state) (hwaits : state.WaitsWithMessage) :
    state.hasData = some true := by
  have hannounced : Announced state := by
    refine h.invariant Announced ?_ fun _ _ _ hold hguard hstep ↦ hold.preserved hguard hstep
    rintro _ rfl
    exact announced_started
  obtain ⟨hidle, -, hunread⟩ := hwaits
  obtain ⟨data, hdata, hpos⟩ := hannounced.data_pos (by rw [hidle]; rfl) hunread
  exact hasData_eq.mpr ⟨data, hdata, by simpa using hpos⟩

/-! ## A stale store loses a wake-up -/

/-- What is left of a listener call that has stored its count. -/
def finishListener : ListenerPc → List (Event Message)
  | .stored => [.listenerUnlock, .listenerNotify]
  | .unlocked => [.listenerNotify]
  | _ => []

/-- From the store in `data_taken` back to the predicate. -/
def backToPredicate : Call → List (Event Message)
  | .spin => [.callback, .lock]
  | .spinOnce => [.callback, .enter .spinOnce, .attachMutex, .attachVariable, .lock]

/-- After a stale store the two threads can reach the predicate with the message unread. -/
theorem lostWakeUp_of_staleStore {state : State Message} {message : Message}
    (h : (attached Message).Reachable state) (hpc : state.spinner = .counted message 0)
    (hunread : state.unread ≠ []) (hstored : state.listener.storePending = false) :
    ∃ events last, (attached Message).run state (.dataTakenStore :: events) = some last ∧
      last.WaitsWithMessage ∧ last.hasData = some false := by
  obtain ⟨hobject, hcallback, hmutex, hvariable, -, hfault⟩ := configured_of_reachable h
  obtain ⟨object, callbackSet, conditionMutex, conditionVariable, data, unread, listener, spinner,
    call, lastReturn, fault, arrived, delivered⟩ := state
  dsimp only at hpc hunread hstored hobject hcallback hmutex hvariable hfault
  subst hpc hobject hcallback hmutex hvariable hfault
  apply Exists.intro (finishListener listener ++ backToPredicate call)
  cases listener with
  | idle | stored | unlocked =>
    cases call with
    | spin | spinOnce => exact ⟨_, rfl, ⟨rfl, ⟨_, rfl⟩, hunread⟩, rfl⟩
  | entered | counted | locked => cases hstored

/-- No wake-up is lost in a run without stale stores, and each stale store can lose one. -/
theorem wakeUp_kept_of_noStaleStore (Message : Type) :
    (∀ state : State Message, (attached Message).ReachableUnder NoStaleStore state →
      state.WaitsWithMessage → state.hasData = some true) ∧
    ∀ state : State Message, (attached Message).Reachable state →
      ¬ NoStaleStore state .dataTakenStore →
      ∃ events last, (attached Message).run state (.dataTakenStore :: events) = some last ∧
        last.WaitsWithMessage ∧ last.hasData = some false := by
  refine ⟨fun state h hwaits ↦ hasData_of_noStaleStore h hwaits, fun state h hstale ↦ ?_⟩
  simp only [NoStaleStore, not_forall] at hstale
  obtain ⟨message, hpc, hunread, hstored⟩ := hstale
  exact lostWakeUp_of_staleStore h hpc hunread (by simpa using hstored)

/-- A call of `spin` up to its wait. -/
def enterSpin : List (Event ℕ) := [.enter .spin, .attachMutex, .attachVariable]

/-- The steps of one listener call. -/
def listenerCall (message : ℕ) : List (Event ℕ) :=
  [.arrive message 0, .listenerCount, .listenerLock, .listenerStore, .listenerUnlock,
    .listenerNotify]

/-- From the predicate to the read of the unread count. -/
def takeOne : List (Event ℕ) := [.lock, .evaluate, .unlock, .takeNextData, .dataTakenCount]

theorem wakeUp_kept_of_noStaleStore_first :
    (∃ state : State ℕ, state.WaitsWithMessage ∧ state.hasData = some true) ∧
    ∃ (state last : State ℕ) (events : List (Event ℕ)),
      (attached ℕ).run state (.dataTakenStore :: events) = some last ∧
        last.WaitsWithMessage ∧ last.hasData = some false := by
  constructor
  · have hfirst : (attached ℕ).ReachableUnder NoStaleStore _ :=
      System.ReachableUnder.run (.initial rfl) (enterSpin ++ listenerCall 7 ++ [.lock])
        (by simp [enterSpin, listenerCall, NoStaleStore]) rfl
    refine ⟨_, ?_, (wakeUp_kept_of_noStaleStore ℕ).1 _ hfirst ?_⟩
    all_goals exact ⟨rfl, ⟨_, rfl⟩, List.cons_ne_nil _ _⟩
  · have hstale : (attached ℕ).Reachable _ :=
      System.Reachable.run (.initial rfl)
        (enterSpin ++ listenerCall 7 ++ takeOne ++ listenerCall 8) rfl
    obtain ⟨events, last, hrun⟩ := (wakeUp_kept_of_noStaleStore ℕ).2 _ hstale
      fun hguard ↦ absurd (hguard 7 rfl (List.cons_ne_nil _ _)) Bool.false_ne_true
    exact ⟨_, last, events, hrun⟩

/-- The second message arrives between the two halves of `data_taken`: its announcement is
overwritten, and the thread evaluates its predicate to false with the message unread. -/
theorem wakeUp_lost : ∃ state : State ℕ, (attached ℕ).Reachable state ∧
    state.WaitsWithMessage ∧ state.hasData ≠ some true := by
  have hlost : (attached ℕ).Reachable _ :=
    System.Reachable.run (.initial rfl) (enterSpin ++ listenerCall 7 ++ takeOne ++
      listenerCall 8 ++ [.dataTakenStore, .callback, .lock]) rfl
  exact ⟨_, hlost, ⟨rfl, ⟨_, rfl⟩, List.cons_ne_nil _ _⟩, by decide⟩

end LayerPingPong.FastrtpsPubsub
