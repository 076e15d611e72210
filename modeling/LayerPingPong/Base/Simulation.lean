import Mathlib.Logic.Relation
import LayerPingPong.Base.TransitionSystem

/-!
# Simulations between transition systems

A simulation answers each step of one system by finitely many steps of another one, or by none. Two
systems with the same events run in lock step if related states allow the same events. The first
carries over what can be reached, the second also which schedules can be run. In between, a system
refines another one that is told by its events what has happened.
-/

namespace LayerPingPong.TransitionSystem.System

variable {State Event State' Event' : Type}

/-- An event that meets the guard leads from one state to the other. -/
def StepUnder (system : System State Event) (guard : State → Event → Prop) (state next : State) :
    Prop := ∃ event, guard state event ∧ system.step state event = some next

theorem ReachableUnder.trans {system : System State Event} {guard : State → Event → Prop}
    {state last : State} (h : system.ReachableUnder guard state)
    (hsteps : Relation.ReflTransGen (system.StepUnder guard) state last) :
    system.ReachableUnder guard last := by
  induction hsteps with
  | refl => exact h
  | tail _ hstep ih =>
    obtain ⟨event, hguard, hnext⟩ := hstep
    exact .step ih hguard hnext

/-! ## Steps answered by several steps or by none -/

/-- The second system answers every step of the first one. -/
structure Simulation (first : System State Event) (second : System State' Event')
    (guard : State → Event → Prop) (guard' : State' → Event' → Prop)
    (relation : State → State' → Prop) : Prop where
  initial : ∀ state, first.initial state → ∃ state', second.initial state' ∧ relation state state'
  step : ∀ state event next state', relation state state' → guard state event →
    first.step state event = some next →
      ∃ next', Relation.ReflTransGen (second.StepUnder guard') state' next' ∧ relation next next'

theorem Simulation.reachable {first : System State Event} {second : System State' Event'}
    {guard : State → Event → Prop} {guard' : State' → Event' → Prop}
    {relation : State → State' → Prop} (h : first.Simulation second guard guard' relation)
    {state : State} (hreachable : first.ReachableUnder guard state) :
    ∃ state', second.ReachableUnder guard' state' ∧ relation state state' := by
  induction hreachable with
  | initial hinitial =>
    obtain ⟨state', hinitial', hrelation⟩ := h.initial _ hinitial
    exact ⟨state', .initial hinitial', hrelation⟩
  | step _ hguard hnext ih =>
    obtain ⟨state', hreachable', hrelation⟩ := ih
    obtain ⟨next', hsteps, hrelation'⟩ := h.step _ _ _ _ hrelation hguard hnext
    exact ⟨next', hreachable'.trans hsteps, hrelation'⟩

/-! ## The same events in both systems -/

/-- In related states the same events can happen, and they lead to related states. -/
def LockStep (first : System State Event) (second : System State' Event)
    (relation : State → State' → Prop) : Prop :=
  ∀ state state' event, relation state state' →
    Option.Rel relation (first.step state event) (second.step state' event)

theorem LockStep.run {first : System State Event} {second : System State' Event}
    {relation : State → State' → Prop} (h : first.LockStep second relation) {state : State}
    {state' : State'} (hrelation : relation state state') (events : List Event) :
    Option.Rel relation (first.run state events) (second.run state' events) := by
  induction events generalizing state state' with
  | nil => exact .some hrelation
  | cons event events ih =>
    rw [run_cons, run_cons]
    have hstep := h state state' event hrelation
    generalize first.step state event = next at hstep ⊢
    generalize second.step state' event = next' at hstep ⊢
    cases hstep with
    | none => exact .none
    | some hnext => exact ih hnext

/-! ## Steps reported to the other system -/

section Report

variable {first : System State Event} {second : System State' Event'}
  {guard : State → Event → Prop} {guard' : State' → Event' → Prop}
  [∀ state event, Decidable (guard state event)] [∀ state event, Decidable (guard' state event)]
  {report : State → Event → List Event'} {relation : State → State' → Prop}

/-- What is reported of a schedule. -/
def reports (system : System State Event) (report : State → Event → List Event') :
    State → List Event → List Event'
  | _, [] => []
  | state, event :: events =>
    report state event ++ ((system.step state event).map (system.reports report · events)).getD []

theorem reports_append {system : System State Event} {state middle : State} {events : List Event}
    (h : system.run state events = some middle) (later : List Event) :
    system.reports report state (events ++ later) =
      system.reports report state events ++ system.reports report middle later := by
  induction events generalizing state with
  | nil =>
    cases h
    rfl
  | cons event events ih =>
    obtain ⟨next, hnext, hrest⟩ := Option.bind_eq_some_iff.mp h
    rw [List.cons_append, reports, reports, hnext]
    change _ ++ system.reports report next (events ++ later) = _
    rw [ih hrest, List.append_assoc]
    rfl

/-- What every step preserves of the reports and the state holds after a whole schedule. -/
theorem reports_invariant {system : System State Event} (holds : List Event' → State → Prop)
    (hstep : ∀ told state event next, holds told state → guard state event →
      system.step state event = some next → holds (told ++ report state event) next)
    {told : List Event'} {state last : State} (h : holds told state) {events : List Event}
    (hrun : system.runUnder guard state events = some last) :
    holds (told ++ system.reports report state events) last := by
  induction events generalizing told state with
  | nil =>
    cases hrun
    rw [reports, List.append_nil]
    exact h
  | cons event events ih =>
    unfold runUnder at hrun
    split at hrun
    · rename_i hguard
      obtain ⟨next, hnext, hrest⟩ := Option.bind_eq_some_iff.mp hrun
      rw [reports, hnext, ← List.append_assoc]
      exact ih (hstep told state event next h hguard hnext) hrest
    · cases hrun

variable (first second guard guard' report relation) in
/-- The second system can do what is reported of each step. -/
def Refines : Prop :=
  ∀ state event next state', relation state state' → guard state event →
    first.step state event = some next →
      ∃ next', second.runUnder guard' state' (report state event) = some next' ∧
        relation next next'

theorem Refines.run (h : first.Refines second guard guard' report relation) {state last : State}
    {state' : State'} (hrelation : relation state state') {events : List Event}
    (hrun : first.runUnder guard state events = some last) :
    ∃ last', second.runUnder guard' state' (first.reports report state events) = some last' ∧
      relation last last' := by
  induction events generalizing state state' with
  | nil =>
    cases hrun
    exact ⟨state', rfl, hrelation⟩
  | cons event events ih =>
    unfold runUnder at hrun
    split at hrun
    · rename_i hguard
      obtain ⟨next, hnext, hrest⟩ := Option.bind_eq_some_iff.mp hrun
      obtain ⟨next', hstep, hrelation'⟩ := h state event next state' hrelation hguard hnext
      obtain ⟨last', hlast, hrelation''⟩ := ih hrelation' hrest
      refine ⟨last', ?_, hrelation''⟩
      rw [reports, hnext]
      exact runUnder_append hstep hlast
    · cases hrun

end Report

end LayerPingPong.TransitionSystem.System
