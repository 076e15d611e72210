import LayerPingPong.Base.Potential
import LayerPingPong.FastrtpsPubsub.Listener

/-!
# The two threads of the Fast-RTPS subscriber do not block each other

The listener holds the reader lock while it waits for the condition mutex. The spinning thread needs
both locks as well, but gives the mutex back before it takes a message. So there is no deadlock, and
without new arrivals every listener call and every `spin` comes to its end.
-/

namespace LayerPingPong.FastrtpsPubsub

open TransitionSystem System

variable {Message : Type}

/-- What the two threads do on their own: no arrival, no new call and no spurious wake-up. -/
def Event.isInternal : Event Message → Bool
  | .listenerCount | .listenerLock | .listenerStore | .listenerUnlock | .listenerNotify
  | .attachMutex | .attachVariable | .lock | .evaluate | .timeout | .unlock | .takeNextData
  | .dataTakenCount | .dataTakenStore | .callback => true
  | _ => false

/-! ## The steps that are left -/

/-- A notification can send the spinning thread two steps back. -/
def ListenerPc.potential : ListenerPc → ℕ
  | .idle => 0
  | .entered => 7
  | .counted _ => 6
  | .locked _ => 5
  | .stored => 4
  | .unlocked => 3

def SpinnerPc.potential : SpinnerPc Message → ℕ
  | .outside => 0
  | .entering => 9
  | .attaching => 8
  | .locking timedOut => if timedOut then 4 else 7
  | .evaluating timedOut => if timedOut then 3 else 6
  | .blocked => 5
  | .unlocking => 2
  | .taking => 1
  | .taken _ => 10
  | .counted _ _ => 9
  | .calling _ => 8

def State.potential (state : State Message) : ℕ :=
  10 * state.unread.length + state.listener.potential + state.spinner.potential

theorem SpinnerPc.potential_notified_le (spinner : SpinnerPc Message) :
    spinner.notified.potential ≤ spinner.potential + 2 := by
  cases spinner with
  | blocked => exact le_rfl
  | _ => exact Nat.le_add_right _ _

theorem potential_lowers {state next : State Message} {event : Event Message}
    (h : Configured state) (hinternal : event.isInternal = true)
    (hstep : step state event = some next) : next.potential + 1 ≤ state.potential := by
  obtain ⟨-, htransition⟩ := transition_of_step hstep
  cases htransition with
  | createSubscriber | finishConstructor | setCallback | enter | arrive | wakeSpuriously =>
    cases hinternal
  | listenerLockUnset _ hunset => cases h.conditionMutex.symm.trans hunset
  | listenerNotifyUnset _ hunset => cases h.conditionVariable.symm.trans hunset
  | evaluateUnset _ hunset => exact absurd hunset h.data
  | callbackUnset _ hunset => cases h.callbackSet.symm.trans hunset
  | listenerNotify hpc _ =>
    have hle := state.spinner.potential_notified_le
    simp only [State.potential, ListenerPc.potential, hpc]
    omega
  | @lock timedOut hpc _ | @evaluateTrue timedOut _ hpc _ _ =>
    simp only [State.potential, SpinnerPc.potential, hpc]
    cases timedOut <;> simp
  | take hpc _ hunread =>
    simp only [State.potential, SpinnerPc.potential, hpc, hunread, List.length_cons]
    omega
  | listenerCount hpc | listenerLock hpc _ _ | listenerStore hpc | listenerUnlock hpc =>
    simp only [State.potential, ListenerPc.potential, hpc]
    omega
  | attachMutex hpc | attachVariable hpc | evaluateBlock hpc _ | evaluateTimeout hpc _
  | timeout hpc | unlock hpc | takeNothing hpc _ _ | dataTakenCount hpc _ | dataTakenStore hpc
  | callbackSpin hpc _ _ | callbackSpinOnce hpc _ _ =>
    simp only [State.potential, SpinnerPc.potential, hpc]
    simp

def attachedPotential (Message : Type) : (attached Message).Potential Event.isInternal where
  value := State.potential
  holds := Configured
  preserved _ _ _ h hstep := h.preserved hstep
  lowers _ _ _ h hinternal hstep := potential_lowers h hinternal hstep

/-! ## Where the threads come to rest -/

/-- No listener call is in progress, and `spin` or `spin_once` has returned. -/
structure AtRest (state : State Message) : Prop where
  listener : state.listener = .idle
  spinner : state.spinner = .outside

section Quiescent

variable {state : State Message} (h : Configured state)
  (hquiescent : (attached Message).Quiescent Event.isInternal state)

include h hquiescent

theorem not_transition ⦃next : State Message⦄ ⦃event : Event Message⦄
    (hinternal : event.isInternal = true) : ¬ Transition state event next := by
  intro htransition
  have hnone : step state event = none := hquiescent event hinternal
  rw [step_of_transition h.fault htransition] at hnone
  cases hnone

/-- A thread that holds the mutex can go on until it has given it back. -/
theorem spinner_holdsMutex : state.spinner.holdsMutex = false := by
  have hnot := not_transition h hquiescent
  cases hpc : state.spinner with
  | evaluating timedOut =>
    exfalso
    obtain ⟨data, hdata⟩ := Option.ne_none_iff_exists'.mp h.data
    rcases Nat.eq_zero_or_pos data with rfl | hpos
    · cases timedOut with
      | true => exact hnot rfl (.evaluateTimeout hpc hdata)
      | false => exact hnot rfl (.evaluateBlock hpc hdata)
    · exact hnot rfl (.evaluateTrue hpc hdata hpos)
  | unlocking => exact absurd (.unlock hpc) (hnot rfl)
  | _ => rfl

theorem listener_idle : state.listener = .idle := by
  have hnot := not_transition h hquiescent
  cases hpc : state.listener with
  | idle => rfl
  | entered => exact absurd (.listenerCount hpc) (hnot rfl)
  | counted unreadCount =>
    exact absurd (.listenerLock hpc h.conditionMutex (spinner_holdsMutex h hquiescent)) (hnot rfl)
  | locked unreadCount => exact absurd (.listenerStore hpc) (hnot rfl)
  | stored => exact absurd (.listenerUnlock hpc) (hnot rfl)
  | unlocked => exact absurd (.listenerNotify hpc h.conditionVariable) (hnot rfl)

theorem spinner_outside : state.spinner = .outside := by
  have hnot := not_transition h hquiescent
  have hmutex := spinner_holdsMutex h hquiescent
  have hidle := listener_idle h hquiescent
  cases hpc : state.spinner with
  | outside => rfl
  | entering => exact absurd (.attachMutex hpc) (hnot rfl)
  | attaching => exact absurd (.attachVariable hpc) (hnot rfl)
  | locking timedOut => exact absurd (.lock hpc (by rw [hidle]; rfl)) (hnot rfl)
  | evaluating timedOut | unlocking =>
    rw [hpc] at hmutex
    cases hmutex
  | blocked => exact absurd (.timeout hpc) (hnot rfl)
  | taking =>
    cases hunread : state.unread with
    | nil => exact absurd (.takeNothing hpc hidle hunread) (hnot rfl)
    | cons message unread => exact absurd (.take hpc hidle hunread) (hnot rfl)
  | taken message => exact absurd (.dataTakenCount hpc hidle) (hnot rfl)
  | counted message unreadCount => exact absurd (.dataTakenStore hpc) (hnot rfl)
  | calling message =>
    cases hcall : state.call with
    | spin => exact absurd (.callbackSpin hpc h.callbackSet hcall) (hnot rfl)
    | spinOnce => exact absurd (.callbackSpinOnce hpc h.callbackSet hcall) (hnot rfl)

end Quiescent

theorem quiescent_iff_atRest {state : State Message} (h : Configured state) :
    (attached Message).Quiescent Event.isInternal state ↔ AtRest state := by
  constructor
  · intro hquiescent
    exact ⟨listener_idle h hquiescent, spinner_outside h hquiescent⟩
  · rintro ⟨hlistener, hspinner⟩ event hinternal
    change step state event = none
    cases event with
    | createSubscriber | finishConstructor | setCallback | enter | arrive | wakeSpuriously =>
      cases hinternal
    | listenerCount | listenerLock | listenerStore | listenerUnlock | listenerNotify =>
      simp [step, hlistener]
    | _ => simp [step, hspinner]

/-- The threads get stuck only at rest. Left to themselves they come to rest, in a number of steps
that the unread messages bound. -/
theorem threads_come_to_rest {state : State Message} (h : (attached Message).Reachable state) :
    ((attached Message).Quiescent Event.isInternal state ↔ AtRest state) ∧
      (∀ events last, (∀ event ∈ events, event.isInternal = true) →
        (attached Message).run state events = some last →
          events.length ≤ 10 * state.unread.length + 17) ∧
      ∃ events last, (∀ event ∈ events, event.isInternal = true) ∧
        (attached Message).run state events = some last ∧ AtRest last := by
  have hconfigured := configured_of_reachable h
  refine ⟨quiescent_iff_atRest hconfigured, ?_, ?_⟩
  · intro events last hinternal hrun
    have hlength := (attachedPotential Message).length_le hconfigured hinternal hrun
    change last.potential + events.length ≤ state.potential at hlength
    have hlistener : state.listener.potential ≤ 7 := by
      cases state.listener <;> simp [ListenerPc.potential]
    have hspinner : state.spinner.potential ≤ 10 := by
      cases state.spinner with
      | locking timedOut | evaluating timedOut => cases timedOut <;> simp [SpinnerPc.potential]
      | _ => simp [SpinnerPc.potential]
    unfold State.potential at hlength
    omega
  · obtain ⟨events, last, hrun, hquiescent, hinternal⟩ :=
      (attachedPotential Message).exists_run_quiescent hconfigured
    have hlast := configured_of_reachable (Reachable.run h events hrun)
    exact ⟨events, last, hinternal, hrun, (quiescent_iff_atRest hlast).mp hquiescent⟩

/-- A message has arrived while the predicate is evaluated, and the listener waits for the mutex. -/
theorem threads_come_to_rest_contended : ∃ state : State ℕ,
    (attached ℕ).Reachable state ∧ state.spinner.holdsMutex = true ∧
      state.listener = .counted 1 ∧ ∃ events last, (∀ event ∈ events, event.isInternal = true) ∧
        (attached ℕ).run state events = some last ∧ AtRest last := by
  have hcontended : (attached ℕ).Reachable _ :=
    Reachable.run (.initial rfl)
      ([.enter .spin, .attachMutex, .attachVariable, .lock, .arrive 7 0, .listenerCount]) rfl
  exact ⟨_, hcontended, rfl, rfl, (threads_come_to_rest hcontended).2.2⟩

end LayerPingPong.FastrtpsPubsub
