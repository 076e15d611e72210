import Mathlib.Algebra.Order.Ring.Int
import LayerPingPong.Base.TransitionSystem

/-!
# Schedules, their lengths and their ends

What a state says about the schedule that has led to it is shown like an invariant, one event at a
time. A potential that every active event lowers bounds how many of them a schedule contains, and
lets every run be completed to a state in which no active event can happen.
-/

namespace LayerPingPong.TransitionSystem.System

variable {State Event : Type} {system : System State Event}

/-- What every step preserves of a schedule and its state holds after the whole schedule. -/
theorem run_invariant (holds : List Event → State → Prop)
    (hstep : ∀ past event state next, holds past state → system.step state event = some next →
      holds (past ++ [event]) next)
    {past events : List Event} {state last : State} (h : holds past state)
    (hrun : system.run state events = some last) : holds (past ++ events) last := by
  induction events generalizing past state with
  | nil =>
    rw [run_nil, Option.some.injEq] at hrun
    rw [List.append_nil, ← hrun]
    exact h
  | cons event events ih =>
    obtain ⟨next, hnext, hrest⟩ := Option.bind_eq_some_iff.mp hrun
    rw [List.append_cons]
    exact ih (hstep past event state next h hnext) hrest

/-! ## Potentials -/

variable (system) in
/-- Active events lower the potential, in the states of an invariant. -/
structure Potential (active : Event → Bool) where
  value : State → ℕ
  holds : State → Prop
  preserved : ∀ state event next, holds state → system.step state event = some next → holds next
  lowers : ∀ state event next, holds state → active event = true →
    system.step state event = some next → value next + 1 ≤ value state

variable (system) in
/-- No active event can happen. -/
def Quiescent (active : Event → Bool) (state : State) : Prop :=
  ∀ event, active event = true → system.step state event = none

variable {active : Event → Bool} (potential : system.Potential active)

/-- If the other events do not raise the potential, a schedule has no more active events than it
starts with potential. -/
theorem Potential.countP_add_le {state last : State} {events : List Event}
    (hother : ∀ state event next, potential.holds state → active event = false →
      system.step state event = some next → potential.value next ≤ potential.value state)
    (h : potential.holds state) (hrun : system.run state events = some last) :
    potential.value last + events.countP active ≤ potential.value state := by
  have hboth : potential.holds last ∧
      potential.value last + ([] ++ events).countP active ≤ potential.value state := by
    refine run_invariant (fun past last ↦ potential.holds last ∧
      potential.value last + past.countP active ≤ potential.value state) ?_ ⟨h, le_rfl⟩ hrun
    intro past event state next hold hstep
    refine ⟨potential.preserved state event next hold.1 hstep, ?_⟩
    rw [List.countP_append, List.countP_singleton]
    cases hactive : active event with
    | true =>
      have hlowers := potential.lowers state event next hold.1 hactive hstep
      rw [if_pos rfl]
      omega
    | false =>
      have hkeeps := hother state event next hold.1 hactive hstep
      rw [if_neg Bool.false_ne_true]
      omega
  exact hboth.2

/-- Every state has a run of active events to a quiescent one. -/
theorem Potential.exists_run_quiescent {state : State} (h : potential.holds state) :
    ∃ events last, system.run state events = some last ∧ system.Quiescent active last ∧
      ∀ event ∈ events, active event = true := by
  induction hvalue : potential.value state using Nat.strongRecOn generalizing state with
  | ind value ih =>
    by_cases hquiescent : system.Quiescent active state
    · exact ⟨[], state, rfl, hquiescent, nofun⟩
    · simp only [Quiescent, not_forall] at hquiescent
      obtain ⟨event, hactive, henabled⟩ := hquiescent
      obtain ⟨next, hnext⟩ := Option.ne_none_iff_exists'.mp henabled
      have hlowers := potential.lowers state event next h hactive hnext
      have hsmaller : potential.value next < value := by omega
      obtain ⟨events, last, hrun, hlast, hall⟩ :=
        ih _ hsmaller (potential.preserved state event next h hnext) rfl
      refine ⟨event :: events, last, ?_, hlast, List.forall_mem_cons.mpr ⟨hactive, hall⟩⟩
      rw [run_cons, hnext]
      exact hrun

/-- A schedule of active events is no longer than the potential it starts with. -/
theorem Potential.length_le {state last : State} {events : List Event}
    (h : potential.holds state) (hactive : ∀ event ∈ events, active event = true)
    (hrun : system.run state events = some last) :
    potential.value last + events.length ≤ potential.value state := by
  induction events generalizing state with
  | nil =>
    rw [run_nil, Option.some.injEq] at hrun
    rw [hrun]
    exact le_rfl
  | cons event events ih =>
    rw [List.forall_mem_cons] at hactive
    obtain ⟨next, hnext, hrest⟩ := Option.bind_eq_some_iff.mp hrun
    have hlowers := potential.lowers state event next h hactive.1 hnext
    have hlength := ih (potential.preserved state event next h hnext) hactive.2 hrest
    rw [List.length_cons]
    omega

/-! ## Progress of guarded runs -/

section Guard

variable {guard : State → Event → Prop} [∀ state event, Decidable (guard state event)]

/-- If every run that is not done can go on to a smaller value, every run can go on until it is
done. -/
theorem exists_runUnder_of_decreasing (value : State → ℕ) (isDone : State → Prop)
    (hprogress : ∀ state, system.ReachableUnder guard state → ¬ isDone state →
      ∃ events next, system.runUnder guard state events = some next ∧ value next < value state)
    {state : State} (h : system.ReachableUnder guard state) :
    ∃ events last, system.runUnder guard state events = some last ∧ isDone last := by
  induction hvalue : value state using Nat.strongRecOn generalizing state with
  | ind _ ih =>
    by_cases hdone : isDone state
    · exact ⟨[], state, rfl, hdone⟩
    · obtain ⟨first, next, hfirst, hlt⟩ := hprogress state h hdone
      obtain ⟨rest, last, hrest, hlast⟩ := ih _ (hvalue ▸ hlt) (h.runUnder first hfirst) rfl
      exact ⟨first ++ rest, last, runUnder_append hfirst hrest, hlast⟩

end Guard

end LayerPingPong.TransitionSystem.System
