import Mathlib.Algebra.Order.Ring.Int
import LayerPingPong.FastrtpsPubsub.Listener

/-!
# The listener relays every message in order

Without history eviction only the spinning thread lowers the unread count. The value of `data_` is
then too large only between `takeNextData` and the store of `data_taken`, where the predicate is
not evaluated. So a true predicate implies an unread message, and the messages handed to the
callback are the arrivals in their order.
-/

namespace LayerPingPong.FastrtpsPubsub

open TransitionSystem

variable {Message : Type}

/-- Arrivals never evict an unread message. -/
def NoEviction (_ : State Message) : Event Message → Prop
  | .arrive _ evicted => evicted = 0
  | _ => True

/-- The message taken from the history that the callback has not seen yet. -/
def SpinnerPc.inHand : SpinnerPc Message → List Message
  | .taken message | .counted message _ | .calling message => [message]
  | _ => []

/-- `data_taken` has not stored the count that follows the last take. -/
def SpinnerPc.storePending : SpinnerPc Message → Bool
  | .taken _ | .counted _ _ => true
  | _ => false

@[simp]
theorem SpinnerPc.inHand_notified (spinner : SpinnerPc Message) :
    spinner.notified.inHand = spinner.inHand := by
  cases spinner <;> rfl

@[simp]
theorem SpinnerPc.storePending_notified (spinner : SpinnerPc Message) :
    spinner.notified.storePending = spinner.storePending := by
  cases spinner <;> rfl

theorem SpinnerPc.notified_eq_iff {spinner target : SpinnerPc Message}
    (hblocked : target ≠ .blocked) (hlocking : target ≠ .locking false) :
    spinner.notified = target ↔ spinner = target := by
  cases spinner <;> simp [SpinnerPc.notified, hblocked.symm, hlocking.symm]

/-- No count, stored or about to be stored, exceeds the number of unread messages. -/
structure Bounded (state : State Message) : Prop where
  data_le : state.spinner.storePending = false →
    ∀ data, state.data = some data → data ≤ state.unread.length
  listener_le : ∀ unreadCount,
    state.listener = .counted unreadCount ∨ state.listener = .locked unreadCount →
      unreadCount ≤ state.unread.length
  spinner_le : ∀ message unreadCount, state.spinner = .counted message unreadCount →
    unreadCount ≤ state.unread.length
  unread_ne_nil : state.spinner = .unlocking ∨ state.spinner = .taking → state.unread ≠ []

theorem bounded_started : Bounded (State.started : State Message) := by
  constructor <;> simp [State.started]

/-- A step of the spinning thread outside `data_taken` that leaves the counts alone. -/
theorem Bounded.move {state next : State Message} (h : Bounded state)
    (hdata : next.data = state.data) (hunread : next.unread = state.unread)
    (hlistener : next.listener = state.listener) (hold : state.spinner.storePending = false)
    (hnew : next.spinner.storePending = false)
    (htake : next.spinner = .unlocking ∨ next.spinner = .taking → state.unread ≠ []) :
    Bounded next where
  data_le _ := by
    rw [hdata, hunread]
    exact h.data_le hold
  listener_le := by
    rw [hlistener, hunread]
    exact h.listener_le
  spinner_le message unreadCount hpc := by
    rw [hpc] at hnew
    cases hnew
  unread_ne_nil := by
    rw [hunread]
    exact htake

theorem Bounded.preserved {state next : State Message} {event : Event Message}
    (h : Bounded state) (hguard : NoEviction state event)
    (hstep : step state event = some next) : Bounded next := by
  obtain ⟨-, htransition⟩ := transition_of_step hstep
  cases htransition with
  | createSubscriber | finishConstructor | setCallback | listenerLockUnset | listenerNotifyUnset
  | evaluateUnset | callbackUnset =>
    exact ⟨h.data_le, h.listener_le, h.spinner_le, h.unread_ne_nil⟩
  | arrive message evicted _ _ =>
    cases hguard
    have hgrow : state.unread.length ≤ (state.unread.drop 0 ++ [message]).length := by simp
    refine ⟨fun hpc data hdata ↦ (h.data_le hpc data hdata).trans hgrow, by simp,
      fun other count hpc ↦ (h.spinner_le other count hpc).trans hgrow, by simp⟩
  | listenerCount _ =>
    refine ⟨h.data_le, ?_, h.spinner_le, h.unread_ne_nil⟩
    rintro unreadCount (hcounted | hlocked)
    · injection hcounted with hcount
      exact hcount.symm.le
    · cases hlocked
  | @listenerLock unreadCount hpc _ _ =>
    refine ⟨h.data_le, ?_, h.spinner_le, h.unread_ne_nil⟩
    rintro other (hcounted | hlocked)
    · cases hcounted
    · injection hlocked with hcount
      exact hcount ▸ h.listener_le unreadCount (.inl hpc)
  | @listenerStore unreadCount hpc =>
    refine ⟨fun _ data hdata ↦ ?_, by simp, h.spinner_le, h.unread_ne_nil⟩
    injection hdata with hcount
    exact hcount ▸ h.listener_le unreadCount (.inr hpc)
  | listenerUnlock _ => exact ⟨h.data_le, by simp, h.spinner_le, h.unread_ne_nil⟩
  | listenerNotify _ _ =>
    refine ⟨fun hpc ↦ h.data_le (by simpa using hpc), by simp, fun message count hpc ↦ ?_,
      fun hpc ↦ ?_⟩
    · exact h.spinner_le message count
        ((SpinnerPc.notified_eq_iff (by simp) (by simp)).mp hpc)
    · rw [SpinnerPc.notified_eq_iff (by simp) (by simp),
        SpinnerPc.notified_eq_iff (by simp) (by simp)] at hpc
      exact h.unread_ne_nil hpc
  | @evaluateTrue timedOut data hpc hdata hpos =>
    have hle := h.data_le (by rw [hpc]; rfl) data hdata
    refine h.move rfl rfl rfl (by rw [hpc]; rfl) rfl fun _ ↦ ?_
    exact List.length_pos_iff.mp (hpos.trans_le hle)
  | unlock hpc =>
    exact h.move rfl rfl rfl (by rw [hpc]; rfl) rfl fun _ ↦ h.unread_ne_nil (.inl hpc)
  | take _ hidle _ => exact ⟨by simp [SpinnerPc.storePending], by simp [hidle], by simp, by simp⟩
  | dataTakenCount _ hidle =>
    refine ⟨by simp [SpinnerPc.storePending], by simp [hidle], ?_, by simp⟩
    rintro message unreadCount hcounted
    injection hcounted with _ hcount
    exact hcount.symm.le
  | @dataTakenStore message unreadCount hpc =>
    refine ⟨fun _ data hdata ↦ ?_, h.listener_le, by simp, by simp⟩
    injection hdata with hcount
    exact hcount ▸ h.spinner_le message unreadCount hpc
  | enter _ _ hpc | attachMutex hpc | attachVariable hpc | lock hpc _ | evaluateBlock hpc _
  | evaluateTimeout hpc _ | wakeSpuriously hpc | timeout hpc | takeNothing hpc _ _
  | callbackSpin hpc _ _ | callbackSpinOnce hpc _ _ =>
    exact h.move rfl rfl rfl (by rw [hpc]; rfl) rfl (by simp)

/-- Every arrival is delivered, in the hand of the spinning thread, or unread, in this order. -/
structure InOrder (state : State Message) : Prop where
  arrived : state.arrived = state.delivered ++ state.spinner.inHand ++ state.unread
  lastReturn : state.lastReturn ≠ some .takeFailed

theorem inOrder_started : InOrder (State.started : State Message) where
  arrived := rfl
  lastReturn := by simp [State.started]

theorem InOrder.preserved {state next : State Message} {event : Event Message}
    (h : InOrder state) (hbounded : Bounded state) (hguard : NoEviction state event)
    (hstep : step state event = some next) : InOrder next := by
  obtain ⟨-, htransition⟩ := transition_of_step hstep
  obtain ⟨harrived, hreturn⟩ := h
  cases htransition with
  | arrive message evicted _ _ =>
    cases hguard
    exact ⟨by simp [harrived], hreturn⟩
  | listenerNotify _ _ => exact ⟨by simpa using harrived, hreturn⟩
  | takeNothing hpc _ hunread => exact absurd hunread (hbounded.unread_ne_nil (.inr hpc))
  | take hpc _ hunread =>
    exact ⟨by simpa [hpc, hunread, SpinnerPc.inHand] using harrived, hreturn⟩
  | evaluateTimeout hpc _ =>
    exact ⟨by simpa [hpc, SpinnerPc.inHand] using harrived, by simp⟩
  | callbackSpinOnce hpc _ _ =>
    exact ⟨by simpa [hpc, SpinnerPc.inHand] using harrived, by simp⟩
  | enter _ _ hpc | attachMutex hpc | attachVariable hpc | lock hpc _ | evaluateTrue hpc _ _
  | evaluateBlock hpc _ | wakeSpuriously hpc | timeout hpc | unlock hpc | dataTakenCount hpc _
  | dataTakenStore hpc | callbackSpin hpc _ _ =>
    exact ⟨by simpa [hpc, SpinnerPc.inHand] using harrived, hreturn⟩
  | _ => exact ⟨harrived, hreturn⟩

theorem bounded_inOrder_of_noEviction {state : State Message}
    (h : (attached Message).ReachableUnder NoEviction state) : Bounded state ∧ InOrder state := by
  refine h.invariant (fun state ↦ Bounded state ∧ InOrder state) ?_ fun _ _ _ hold hguard hstep ↦
    ⟨hold.1.preserved hguard hstep, hold.2.preserved hold.1 hguard hstep⟩
  rintro _ rfl
  exact ⟨bounded_started, inOrder_started⟩

/-- `spin` returns by the timeout branch only. -/
theorem spin_return {state next : State Message} {event : Event Message} (h : Bounded state)
    (hstep : step state event = some next) (hcall : state.call = .spin)
    (hinside : state.spinner ≠ .outside) (houtside : next.spinner = .outside) :
    next.lastReturn = some .timeout := by
  obtain ⟨-, htransition⟩ := transition_of_step hstep
  cases htransition with
  | evaluateTimeout _ _ => rfl
  | takeNothing hpc _ hunread => exact absurd hunread (h.unread_ne_nil (.inr hpc))
  | callbackSpinOnce _ _ honce => cases hcall.symm.trans honce
  | listenerNotify _ _ =>
    exact absurd ((SpinnerPc.notified_eq_iff (by simp) (by simp)).mp houtside) hinside
  | createSubscriber | finishConstructor | setCallback | arrive | listenerCount | listenerLock
  | listenerLockUnset | listenerStore | listenerUnlock | listenerNotifyUnset | evaluateUnset
  | callbackUnset => exact absurd houtside hinside
  | _ => cases houtside

/-- In every run without eviction the predicate never overstates the unread count, `takeNextData`
finds a message, `spin` ends by its timeout, and the callback sees a prefix of the arrivals. -/
theorem relay_in_order {state : State Message}
    (h : (attached Message).ReachableUnder NoEviction state) :
    (∀ timedOut, state.spinner = .evaluating timedOut →
      ∃ data, state.data = some data ∧ data ≤ state.unread.length) ∧
    (state.spinner = .taking → state.unread ≠ []) ∧
    state.lastReturn ≠ some .takeFailed ∧
    (∀ event next, step state event = some next → state.call = .spin →
      state.spinner ≠ .outside → next.spinner = .outside → next.lastReturn = some .timeout) ∧
    state.delivered <+: state.arrived := by
  obtain ⟨hbounded, horder⟩ := bounded_inOrder_of_noEviction h
  have hconfigured := configured_of_reachable h.reachable
  refine ⟨fun timedOut hpc ↦ ?_, fun hpc ↦ hbounded.unread_ne_nil (.inr hpc), horder.lastReturn,
    fun event next hstep ↦ spin_return hbounded hstep, ?_⟩
  · obtain ⟨data, hdata⟩ := Option.ne_none_iff_exists'.mp hconfigured.data
    exact ⟨data, hdata, hbounded.data_le (by rw [hpc]; rfl) data hdata⟩
  · rw [horder.arrived, List.append_assoc]
    exact List.prefix_append _ _

/-- Two arrivals, the second before the first is taken. -/
theorem relay_in_order_two : ∃ state : State ℕ,
    (attached ℕ).ReachableUnder NoEviction state ∧ state.arrived = [7, 8] ∧
      state.delivered = [7] ∧ state.delivered <+: state.arrived := by
  have htwo : (attached ℕ).ReachableUnder NoEviction _ :=
    System.ReachableUnder.run (.initial rfl)
      ([.enter .spin, .attachMutex, .attachVariable, .arrive 7 0, .listenerCount, .listenerLock,
        .listenerStore, .listenerUnlock, .listenerNotify, .arrive 8 0, .listenerCount, .lock,
        .evaluate, .unlock, .listenerLock, .listenerStore, .listenerUnlock, .listenerNotify,
        .takeNextData, .dataTakenCount, .dataTakenStore, .callback])
      (by simp [NoEviction]) rfl
  exact ⟨_, htwo, rfl, rfl, (relay_in_order htwo).2.2.2.2⟩

end LayerPingPong.FastrtpsPubsub
