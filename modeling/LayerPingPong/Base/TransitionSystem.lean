import Mathlib.Data.List.Basic

/-!
# Partial transition systems

Every choice of a scheduler or an environment is an event, so a step is a partial function and a
finite schedule can be evaluated. Reachability carries a guard on the steps taken: the trivial
guard gives all runs, and a stronger one restricts a statement to the runs whose steps meet it.
-/

namespace LayerPingPong.TransitionSystem

structure System (State Event : Type) where
  initial : State → Prop
  step : State → Event → Option State

namespace System

variable {State Event : Type} (system : System State Event)

/-- Execute a finite schedule. -/
def run : State → List Event → Option State
  | state, [] => some state
  | state, event :: events => (system.step state event).bind (run · events)

@[simp]
theorem run_nil (state : State) : system.run state [] = some state := rfl

@[simp]
theorem run_cons (state : State) (event : Event) (events : List Event) :
    system.run state (event :: events) =
      (system.step state event).bind (system.run · events) := rfl

theorem run_append (state : State) (first second : List Event) :
    system.run state (first ++ second) =
      (system.run state first).bind (system.run · second) := by
  induction first generalizing state with
  | nil => rfl
  | cons event first ih =>
    cases hstep : system.step state event with
    | none => simp [hstep]
    | some next => simp [hstep, ih]

theorem run_concat_eq_some {state last : State} {events : List Event} {event : Event} :
    system.run state (events ++ [event]) = some last ↔
      ∃ middle, system.run state events = some middle ∧ system.step middle event = some last := by
  simp [run_append, Option.bind_eq_some_iff]

/-- Reachable from an initial state by steps that all meet the guard. -/
inductive ReachableUnder (guard : State → Event → Prop) : State → Prop where
  | initial {state : State} : system.initial state → ReachableUnder guard state
  | step {state next : State} {event : Event} : ReachableUnder guard state →
      guard state event → system.step state event = some next → ReachableUnder guard next

abbrev Reachable : State → Prop := system.ReachableUnder fun _ _ ↦ True

variable {system} {guard : State → Event → Prop}

/-- An invariant of the guarded steps holds in every state they reach. -/
theorem ReachableUnder.invariant {state : State} (h : system.ReachableUnder guard state)
    (holds : State → Prop) (hinitial : ∀ state, system.initial state → holds state)
    (hstep : ∀ state event next, holds state → guard state event →
      system.step state event = some next → holds next) : holds state := by
  induction h with
  | initial hstart => exact hinitial _ hstart
  | step _ hguard hnext ih => exact hstep _ _ _ ih hguard hnext

theorem ReachableUnder.mono {weaker : State → Event → Prop}
    (hguard : ∀ state event, guard state event → weaker state event) {state : State}
    (h : system.ReachableUnder guard state) : system.ReachableUnder weaker state := by
  induction h with
  | initial hstart => exact .initial hstart
  | step _ hmeets hnext ih => exact .step ih (hguard _ _ hmeets) hnext

theorem ReachableUnder.reachable {state : State} (h : system.ReachableUnder guard state) :
    system.Reachable state := h.mono fun _ _ _ ↦ trivial

/-- A schedule of events that meet the guard wherever they happen. -/
theorem ReachableUnder.run {state last : State} (h : system.ReachableUnder guard state)
    (events : List Event) (hguard : ∀ event ∈ events, ∀ state, guard state event)
    (hrun : system.run state events = some last) : system.ReachableUnder guard last := by
  induction events generalizing state with
  | nil => exact Option.some.inj hrun ▸ h
  | cons event events ih =>
    obtain ⟨next, hnext, hrest⟩ := Option.bind_eq_some_iff.mp hrun
    exact ih (.step h (hguard event List.mem_cons_self state) hnext)
      (fun later hlater ↦ hguard later (List.mem_cons_of_mem event hlater)) hrest

theorem Reachable.run {state last : State} (h : system.Reachable state) (events : List Event)
    (hrun : system.run state events = some last) : system.Reachable last :=
  ReachableUnder.run h events (fun _ _ _ ↦ trivial) hrun

/-- Execute a finite schedule as long as its steps meet a decidable guard. -/
def runUnder (system : System State Event) (guard : State → Event → Prop)
    [∀ state event, Decidable (guard state event)] : State → List Event → Option State
  | state, [] => some state
  | state, event :: events =>
    if guard state event then (system.step state event).bind (system.runUnder guard · events)
    else none

theorem ReachableUnder.runUnder [∀ state event, Decidable (guard state event)]
    {state last : State} (h : system.ReachableUnder guard state) (events : List Event)
    (hrun : system.runUnder guard state events = some last) :
    system.ReachableUnder guard last := by
  induction events generalizing state with
  | nil => exact Option.some.inj hrun ▸ h
  | cons event events ih =>
    unfold System.runUnder at hrun
    split at hrun
    · rename_i hguard
      obtain ⟨next, hnext, hrest⟩ := Option.bind_eq_some_iff.mp hrun
      exact ih (.step h hguard hnext) hrest
    · cases hrun

section Guard

variable [∀ state event, Decidable (guard state event)]

theorem runUnder_append {state middle last : State} {first second : List Event}
    (hfirst : system.runUnder guard state first = some middle)
    (hsecond : system.runUnder guard middle second = some last) :
    system.runUnder guard state (first ++ second) = some last := by
  induction first generalizing state with
  | nil =>
    obtain rfl : state = middle := Option.some.inj hfirst
    exact hsecond
  | cons event first ih =>
    rw [System.runUnder] at hfirst
    rw [List.cons_append, System.runUnder]
    split at hfirst
    · rename_i hguard
      obtain ⟨next, hnext, hrest⟩ := Option.bind_eq_some_iff.mp hfirst
      rw [if_pos hguard, hnext]
      exact ih hrest
    · cases hfirst

theorem runUnder_singleton {state next : State} {event : Event} (hguard : guard state event)
    (hstep : system.step state event = some next) :
    system.runUnder guard state [event] = some next := by
  rw [System.runUnder, if_pos hguard, hstep]
  rfl

theorem run_of_runUnder {state last : State} {events : List Event}
    (h : system.runUnder guard state events = some last) :
    system.run state events = some last := by
  induction events generalizing state with
  | nil => exact h
  | cons event events ih =>
    rw [System.runUnder] at h
    split at h
    · obtain ⟨next, hnext, hrest⟩ := Option.bind_eq_some_iff.mp h
      rw [run_cons, hnext]
      exact ih hrest
    · cases h

theorem runUnder_trivial {state last : State} {events : List Event}
    (h : system.run state events = some last) :
    system.runUnder (fun _ _ ↦ True) state events = some last := by
  induction events generalizing state with
  | nil => exact h
  | cons event events ih =>
    obtain ⟨next, hnext, hrest⟩ := Option.bind_eq_some_iff.mp h
    rw [System.runUnder, if_pos trivial, hnext]
    exact ih hrest

end Guard

end System

end LayerPingPong.TransitionSystem
