import LayerPingPong.Base.Simulation
import LayerPingPong.FastrtpsPubsub.Listener

/-!
# The loop of the Fast-RTPS subscriber against repeated single calls

`spin_once` attaches the condition on every call and `spin` before its loop. The pointers do not
change by this, and nothing else is set up outside the loop. So a thread in `spin` that is about to
wait again cannot be told from one between two calls of `spin_once`.
-/

namespace LayerPingPong.FastrtpsPubsub

open TransitionSystem

variable {Message : Type}

/-- The spinning thread calls only this function. -/
def OnlyCalls (call : Call) (_ : State Message) : Event Message → Prop
  | .enter other => other = call
  | _ => True

/-- Where the thread stands in `spin`, and where it may stand with calls of `spin_once` instead. -/
def Follows (spinner spinner' : SpinnerPc Message) : Prop :=
  spinner' = spinner ∨
    spinner = .locking false ∧
      (spinner' = .outside ∨ spinner' = .entering ∨ spinner' = .attaching)

/-- The first subscriber is used through `spin` and the second one through `spin_once`, with the
same effect on all that the threads share. -/
inductive Tracks (state : State Message) : State Message → Prop where
  | intro {spinner : SpinnerPc Message} {call : Call} {lastReturn : Option Return} :
      Follows state.spinner spinner → Configured state →
      (state.spinner ≠ .outside → state.call = .spin) → (spinner ≠ .outside → call = .spinOnce) →
      Tracks state { state with spinner, call, lastReturn }

/-! ## What a step does not depend on -/

/-- Which function is called matters only at the beginning and at the end of a call. -/
theorem Transition.withCall {state next : State Message} {event : Event Message}
    (h : Transition state event next) (henter : ∀ call, event ≠ .enter call)
    (hcallback : event ≠ .callback) (call : Call) (lastReturn : Option Return) :
    ∃ lastReturn', Transition { state with call, lastReturn } event
      { next with call, lastReturn := lastReturn' } := by
  cases h with
  | enter other => exact absurd rfl (henter other)
  | callbackSpin | callbackSpinOnce | callbackUnset => exact absurd rfl hcallback
  | listenerLock hpc hset hmutex => exact ⟨lastReturn, .listenerLock hpc hset hmutex⟩
  | listenerLockUnset hpc hset => exact ⟨lastReturn, .listenerLockUnset hpc hset⟩
  | listenerNotify hpc hset => exact ⟨lastReturn, .listenerNotify hpc hset⟩
  | listenerNotifyUnset hpc hset => exact ⟨lastReturn, .listenerNotifyUnset hpc hset⟩
  | evaluateUnset hpc hdata => exact ⟨lastReturn, .evaluateUnset hpc hdata⟩
  | evaluateTrue hpc hdata hpos => exact ⟨lastReturn, .evaluateTrue hpc hdata hpos⟩
  | evaluateBlock hpc hdata => exact ⟨lastReturn, .evaluateBlock hpc hdata⟩
  | evaluateTimeout hpc hdata => exact ⟨some .timeout, .evaluateTimeout hpc hdata⟩
  | takeNothing hpc hidle hunread => exact ⟨some .takeFailed, .takeNothing hpc hidle hunread⟩
  | take hpc hidle hunread => exact ⟨lastReturn, .take hpc hidle hunread⟩
  | createSubscriber hphase => exact ⟨lastReturn, .createSubscriber hphase⟩
  | finishConstructor hphase => exact ⟨lastReturn, .finishConstructor hphase⟩
  | setCallback hphase => exact ⟨lastReturn, .setCallback hphase⟩
  | arrive message evicted hphase hpc => exact ⟨lastReturn, .arrive message evicted hphase hpc⟩
  | listenerCount hpc => exact ⟨lastReturn, .listenerCount hpc⟩
  | listenerStore hpc => exact ⟨lastReturn, .listenerStore hpc⟩
  | listenerUnlock hpc => exact ⟨lastReturn, .listenerUnlock hpc⟩
  | attachMutex hpc => exact ⟨lastReturn, .attachMutex hpc⟩
  | attachVariable hpc => exact ⟨lastReturn, .attachVariable hpc⟩
  | lock hpc hmutex => exact ⟨lastReturn, .lock hpc hmutex⟩
  | wakeSpuriously hpc => exact ⟨lastReturn, .wakeSpuriously hpc⟩
  | timeout hpc => exact ⟨lastReturn, .timeout hpc⟩
  | unlock hpc => exact ⟨lastReturn, .unlock hpc⟩
  | dataTakenCount hpc hidle => exact ⟨lastReturn, .dataTakenCount hpc hidle⟩
  | dataTakenStore hpc => exact ⟨lastReturn, .dataTakenStore hpc⟩

/-- The steps of the spinning thread. -/
def Event.ofSpinner : Event Message → Bool
  | .enter _ | .attachMutex | .attachVariable | .lock | .evaluate | .wakeSpuriously | .timeout
  | .unlock | .takeNextData | .dataTakenCount | .dataTakenStore | .callback => true
  | _ => false

/-- The other steps are the same wherever the spinning thread stands without the mutex and without
being blocked. -/
theorem Transition.withSpinner {state next : State Message} {event : Event Message}
    (h : Transition state event next) (hother : event.ofSpinner = false)
    (hnotified : state.spinner.notified = state.spinner) (spinner : SpinnerPc Message)
    (hmutex : spinner.holdsMutex = false) (hnotified' : spinner.notified = spinner) :
    Transition { state with spinner } event { next with spinner } ∧
      next.spinner = state.spinner ∧ next.call = state.call := by
  cases h with
  | createSubscriber hphase => exact ⟨.createSubscriber hphase, rfl, rfl⟩
  | finishConstructor hphase => exact ⟨.finishConstructor hphase, rfl, rfl⟩
  | setCallback hphase => exact ⟨.setCallback hphase, rfl, rfl⟩
  | arrive message evicted hphase hpc => exact ⟨.arrive message evicted hphase hpc, rfl, rfl⟩
  | listenerCount hpc => exact ⟨.listenerCount hpc, rfl, rfl⟩
  | listenerLock hpc hset _ => exact ⟨.listenerLock hpc hset hmutex, rfl, rfl⟩
  | listenerLockUnset hpc hset => exact ⟨.listenerLockUnset hpc hset, rfl, rfl⟩
  | listenerStore hpc => exact ⟨.listenerStore hpc, rfl, rfl⟩
  | listenerUnlock hpc => exact ⟨.listenerUnlock hpc, rfl, rfl⟩
  | listenerNotify hpc hset =>
    have hstep : Transition { state with spinner } .listenerNotify
        { state with listener := .idle, spinner := spinner.notified } := .listenerNotify hpc hset
    rw [hnotified'] at hstep
    exact ⟨hstep, hnotified, rfl⟩
  | listenerNotifyUnset hpc hset => exact ⟨.listenerNotifyUnset hpc hset, rfl, rfl⟩
  | _ => cases hother

theorem Transition.call_eq {state next : State Message} {event : Event Message}
    (h : Transition state event next) (henter : ∀ call, event ≠ .enter call) :
    next.call = state.call ∧ (state.spinner = .outside → next.spinner = .outside) := by
  cases h with
  | enter call => exact absurd rfl (henter call)
  | listenerNotify _ _ => exact ⟨rfl, fun hpc ↦ by rw [hpc]; rfl⟩
  | evaluateTimeout _ _ | takeNothing _ _ _ | callbackSpinOnce _ _ _ => exact ⟨rfl, fun _ ↦ rfl⟩
  | createSubscriber | finishConstructor | setCallback | arrive | listenerCount | listenerLock
  | listenerLockUnset | listenerStore | listenerUnlock | listenerNotifyUnset | evaluateUnset
  | callbackUnset => exact ⟨rfl, id⟩
  | attachMutex hpc | attachVariable hpc | lock hpc _ | evaluateTrue hpc _ _ | evaluateBlock hpc _
  | wakeSpuriously hpc | timeout hpc | unlock hpc | take hpc _ _ | dataTakenCount hpc _
  | dataTakenStore hpc | callbackSpin hpc _ _ =>
    exact ⟨rfl, fun houtside ↦ by cases hpc.symm.trans houtside⟩

/-! ## Both directions -/

theorem Transition.stepUnder {state next : State Message} {event : Event Message} {call : Call}
    (h : Transition state event next) (hfault : state.fault = none)
    (hguard : OnlyCalls call state event) :
    (attached Message).StepUnder (OnlyCalls call) state next :=
  ⟨event, hguard, step_of_transition hfault h⟩

theorem attach_eq {state : State Message} (hconfigured : Configured state)
    (hpc : state.spinner = .locking false) :
    { state with conditionMutex := true, conditionVariable := true, spinner := .locking false } =
      state := by
  obtain ⟨-, -, hmutex, hvariable, -, -⟩ := hconfigured
  cases state
  simp_all

/-- Between two calls, `spin_once` is called again and comes to the place at which `spin` stands. -/
theorem catch_up {state : State Message} {spinner : SpinnerPc Message} {call : Call}
    (lastReturn : Option Return) (hfollows : Follows state.spinner spinner)
    (hconfigured : Configured state) (hcall : spinner ≠ .outside → call = .spinOnce) :
    ∃ call', (state.spinner ≠ .outside → call' = .spinOnce) ∧
      Relation.ReflTransGen ((attached Message).StepUnder (OnlyCalls .spinOnce))
        { state with spinner, call, lastReturn } { state with call := call', lastReturn } := by
  have hfault := hconfigured.fault
  have hattaching (hpc : state.spinner = .locking false) :
      Relation.ReflTransGen ((attached Message).StepUnder (OnlyCalls .spinOnce))
        { state with
          conditionMutex := true, spinner := .attaching, call := .spinOnce, lastReturn }
        { state with call := .spinOnce, lastReturn } := by
    have hstep : Transition
        { state with
          conditionMutex := true, spinner := .attaching, call := .spinOnce, lastReturn }
        .attachVariable
        { { state with
            conditionMutex := true, conditionVariable := true, spinner := .locking false } with
          call := .spinOnce, lastReturn } := .attachVariable rfl
    rw [attach_eq hconfigured hpc] at hstep
    exact .single (hstep.stepUnder hfault trivial)
  have hentering (hpc : state.spinner = .locking false) :
      Relation.ReflTransGen ((attached Message).StepUnder (OnlyCalls .spinOnce))
        { state with spinner := .entering, call := .spinOnce, lastReturn }
        { state with call := .spinOnce, lastReturn } :=
    (hattaching hpc).head
      ((Transition.attachMutex rfl).stepUnder hfault trivial)
  rcases hfollows with rfl | ⟨hpc, rfl | rfl | rfl⟩
  · exact ⟨call, hcall, .refl⟩
  · have hstep : Transition { state with spinner := .outside, call, lastReturn }
        (.enter .spinOnce) { state with spinner := .entering, call := .spinOnce, lastReturn } :=
      .enter .spinOnce hconfigured.object rfl
    exact ⟨.spinOnce, fun _ ↦ rfl, (hentering hpc).head (hstep.stepUnder hfault rfl)⟩
  · rw [hcall nofun]
    exact ⟨.spinOnce, fun _ ↦ rfl, hentering hpc⟩
  · have hsteps := hattaching hpc
    rw [← hconfigured.conditionMutex] at hsteps
    rw [hcall nofun]
    exact ⟨.spinOnce, fun _ ↦ rfl, hsteps⟩

theorem Tracks.of_withCall {state next : State Message} {event : Event Message} {call : Call}
    {lastReturn : Option Return} (htransition : Transition state event next)
    (henter : ∀ other, event ≠ .enter other) (hnext : Configured next)
    (hcall : state.spinner ≠ .outside → state.call = .spin)
    (hcall' : state.spinner ≠ .outside → call = .spinOnce) :
    Tracks next { next with call, lastReturn } := by
  obtain ⟨hsame, hstays⟩ := htransition.call_eq henter
  refine .intro (.inl rfl) hnext (fun hinside ↦ ?_) fun hinside ↦ hcall' fun hpc ↦ ?_
  · rw [hsame]
    exact hcall fun hpc ↦ hinside (hstays hpc)
  · exact hinside (hstays hpc)

/-- A step in `spin` is made by `spin_once` from the same place. -/
theorem exists_answer_spinOnce {state next : State Message} {event : Event Message} {call : Call}
    (lastReturn : Option Return) (hconfigured : Configured state)
    (hcall : state.spinner ≠ .outside → state.call = .spin)
    (hcall' : state.spinner ≠ .outside → call = .spinOnce) (hguard : OnlyCalls .spin state event)
    (htransition : Transition state event next) (hnext : Configured next) :
    ∃ event' next', OnlyCalls .spinOnce { state with call, lastReturn } event' ∧
      Transition { state with call, lastReturn } event' next' ∧ Tracks next next' := by
  by_cases henter : ∃ other, event = .enter other
  · obtain ⟨other, rfl⟩ := henter
    obtain rfl : other = .spin := hguard
    cases htransition with
    | enter _ hobject hpc =>
      refine ⟨.enter .spinOnce, _, rfl, .enter .spinOnce hobject hpc, ?_⟩
      exact .intro (.inl rfl) hnext (fun _ ↦ rfl) fun _ ↦ rfl
  · rw [not_exists] at henter
    by_cases hcallback : event = .callback
    · subst hcallback
      cases htransition with
      | callbackSpin hpc hset hspin =>
        have honce := hcall' (by rw [hpc]; nofun)
        refine ⟨.callback, _, trivial, .callbackSpinOnce hpc hset honce, ?_⟩
        exact .intro (.inr ⟨rfl, .inl rfl⟩) hnext (fun _ ↦ hspin) (absurd rfl)
      | callbackSpinOnce hpc _ honce =>
        cases (hcall (by rw [hpc]; nofun)).symm.trans honce
      | callbackUnset _ hunset => cases hconfigured.callbackSet.symm.trans hunset
    · obtain ⟨lastReturn', hanswer⟩ := htransition.withCall henter hcallback call lastReturn
      refine ⟨event, _, ?_, hanswer, .of_withCall htransition henter hnext hcall hcall'⟩
      cases event with
      | enter other => exact absurd rfl (henter other)
      | _ => trivial

/-- What `spin` does can be done by repeated calls of `spin_once`. -/
theorem simulation_spin : (attached Message).Simulation (attached Message) (OnlyCalls .spin)
    (OnlyCalls .spinOnce) Tracks where
  initial := by
    rintro _ rfl
    refine ⟨.started, rfl, ?_⟩
    exact .intro (.inl rfl) (configured_of_reachable (.initial rfl)) (absurd rfl) (absurd rfl)
  step := by
    rintro state event next _ ⟨hfollows, hconfigured, hcall, hcall'⟩ hguard hstep
    rename_i lastReturn
    obtain ⟨call, hspinOnce, hsteps⟩ := catch_up lastReturn hfollows hconfigured hcall'
    obtain ⟨hfault, htransition⟩ := transition_of_step hstep
    obtain ⟨event', next', hguard', hanswer, htracks⟩ := exists_answer_spinOnce lastReturn
      hconfigured hcall hspinOnce hguard htransition (hconfigured.preserved hstep)
    exact ⟨next', hsteps.tail (hanswer.stepUnder hfault hguard'), htracks⟩

/-- A step in `spin_once` is made by `spin` from the same place. -/
theorem exists_answer_spin {state next' : State Message} {event : Event Message} {call : Call}
    {lastReturn : Option Return} (hconfigured : Configured state)
    (hcall : state.spinner ≠ .outside → state.call = .spin)
    (hcall' : state.spinner ≠ .outside → call = .spinOnce)
    (hguard : OnlyCalls .spinOnce { state with call, lastReturn } event)
    (htransition : Transition { state with call, lastReturn } event next') :
    ∃ event' next, OnlyCalls .spin state event' ∧ Transition state event' next ∧
      Tracks next next' := by
  have hnext {event' : Event Message} {next : State Message} (h : Transition state event' next) :
      Configured next := hconfigured.preserved (step_of_transition hconfigured.fault h)
  by_cases henter : ∃ other, event = .enter other
  · obtain ⟨other, rfl⟩ := henter
    obtain rfl : other = .spinOnce := hguard
    cases htransition with
    | enter _ hobject hpc =>
      have hanswer : Transition state (.enter .spin) _ := .enter .spin hobject hpc
      refine ⟨.enter .spin, _, rfl, hanswer, ?_⟩
      exact .intro (.inl rfl) (hnext hanswer) (fun _ ↦ rfl) fun _ ↦ rfl
  · rw [not_exists] at henter
    by_cases hcallback : event = .callback
    · subst hcallback
      cases htransition with
      | callbackSpin hpc _ hspin => cases hspin.symm.trans (hcall' (by rw [hpc]; nofun))
      | callbackSpinOnce hpc hset _ =>
        have hspin := hcall (by rw [hpc]; nofun)
        have hanswer : Transition state .callback _ := .callbackSpin hpc hset hspin
        refine ⟨.callback, _, trivial, hanswer, ?_⟩
        exact .intro (.inr ⟨rfl, .inl rfl⟩) (hnext hanswer) (fun _ ↦ hspin) (absurd rfl)
      | callbackUnset _ hunset => cases hconfigured.callbackSet.symm.trans hunset
    · obtain ⟨lastReturn', hanswer⟩ :=
        htransition.withCall henter hcallback state.call state.lastReturn
      obtain ⟨hsame, hstays⟩ := htransition.call_eq henter
      refine ⟨event, _, ?_, hanswer, ?_⟩
      · cases event with
        | enter other => exact absurd rfl (henter other)
        | _ => trivial
      · have htracks : Tracks { next' with call := state.call, lastReturn := lastReturn' }
            { next' with call := next'.call } := by
          refine .intro (.inl rfl) (hnext hanswer) (fun hinside ↦ ?_) fun hinside ↦ ?_
          · exact hcall fun hpc ↦ hinside (hstays hpc)
          · rw [hsame]
            exact hcall' fun hpc ↦ hinside (hstays hpc)
        exact htracks

/-- The beginning of a call of `spin_once` goes unnoticed. -/
theorem tracks_of_beginning {state next' : State Message} {event : Event Message}
    {spinner : SpinnerPc Message} {call : Call} {lastReturn : Option Return}
    (hconfigured : Configured state) (hpc : state.spinner = .locking false)
    (hcall : state.call = .spin) (hcall' : spinner ≠ .outside → call = .spinOnce)
    (hbetween : spinner = .outside ∨ spinner = .entering ∨ spinner = .attaching)
    (hevent : event.ofSpinner = true)
    (hguard : OnlyCalls .spinOnce { state with spinner, call, lastReturn } event)
    (htransition : Transition { state with spinner, call, lastReturn } event next') :
    Tracks state next' := by
  have hintro (place : SpinnerPc Message) (hfollows : Follows state.spinner place) :
      Tracks state { state with spinner := place, call := .spinOnce, lastReturn } :=
    .intro hfollows hconfigured (fun _ ↦ hcall) fun _ ↦ rfl
  cases htransition with
  | enter other _ _ =>
    obtain rfl : other = .spinOnce := hguard
    exact hintro _ (.inr ⟨hpc, .inr (.inl rfl)⟩)
  | attachMutex hentering =>
    have htracks := hintro .attaching (.inr ⟨hpc, .inr (.inr rfl)⟩)
    rw [hconfigured.conditionMutex] at htracks
    rw [hcall' (ne_of_eq_of_ne hentering nofun)]
    exact htracks
  | attachVariable hattaching =>
    have htracks := hintro (.locking false) (.inl hpc.symm)
    rw [hconfigured.conditionVariable] at htracks
    rw [hcall' (ne_of_eq_of_ne hattaching nofun)]
    exact htracks
  | createSubscriber | finishConstructor | setCallback | arrive | listenerCount | listenerLock
  | listenerLockUnset | listenerStore | listenerUnlock | listenerNotify | listenerNotifyUnset =>
    cases hevent
  | lock hother _ | evaluateUnset hother _ | evaluateTrue hother _ _ | evaluateBlock hother _
  | evaluateTimeout hother _ | wakeSpuriously hother | timeout hother | unlock hother
  | takeNothing hother _ _ | take hother _ _ | dataTakenCount hother _ | dataTakenStore hother
  | callbackSpin hother _ _ | callbackSpinOnce hother _ _ | callbackUnset hother _ =>
    exact absurd hother (by rcases hbetween with rfl | rfl | rfl <;> nofun)

/-- What repeated calls of `spin_once` do can be done by `spin`. -/
theorem simulation_spinOnce : (attached Message).Simulation (attached Message)
    (OnlyCalls .spinOnce) (OnlyCalls .spin) fun state' state ↦ Tracks state state' where
  initial := by
    rintro _ rfl
    refine ⟨.started, rfl, ?_⟩
    exact .intro (.inl rfl) (configured_of_reachable (.initial rfl)) (absurd rfl) (absurd rfl)
  step := by
    rintro _ event next' state ⟨hfollows, hconfigured, hcall, hcall'⟩ hguard hstep
    obtain ⟨hfault, htransition⟩ := transition_of_step hstep
    rcases hfollows with rfl | ⟨hpc, hbetween⟩
    · obtain ⟨event', next, hguard', hanswer, htracks⟩ :=
        exists_answer_spin hconfigured hcall hcall' hguard htransition
      exact ⟨next, .single (hanswer.stepUnder hfault hguard'), htracks⟩
    · have hspin := hcall (by rw [hpc]; nofun)
      cases hevent : event.ofSpinner with
      | true =>
        exact ⟨state, .refl, tracks_of_beginning hconfigured hpc hspin hcall' hbetween hevent hguard
          htransition⟩
      | false =>
        have henter (other : Call) : event ≠ .enter other := by
          rintro rfl
          cases hevent
        have hcallback : event ≠ .callback := by
          rintro rfl
          cases hevent
        obtain ⟨hplace, hstays, hsame⟩ := htransition.withSpinner hevent
          (by rcases hbetween with rfl | rfl | rfl <;> rfl) (.locking false) rfl rfl
        obtain ⟨lastReturn, hanswer⟩ :=
          hplace.withCall henter hcallback state.call state.lastReturn
        have hstate : { state with spinner := .locking false } = state := by rw [← hpc]
        change Transition { state with spinner := .locking false } event _ at hanswer
        rw [hstate] at hanswer
        have hguard' : OnlyCalls .spin state event := by
          cases event with
          | enter other => exact absurd rfl (henter other)
          | _ => trivial
        refine ⟨_, .single (hanswer.stepUnder hfault hguard'), ?_⟩
        have htracks : Tracks
            { next' with spinner := .locking false, call := state.call, lastReturn }
            { next' with call := next'.call } := by
          refine .intro (.inr ⟨rfl, ?_⟩) ?_ (fun _ ↦ hspin) fun hinside ↦ ?_
          · rw [hstays]
            exact hbetween
          · exact hconfigured.preserved (step_of_transition hfault hanswer)
          · rw [hsame]
            exact hcall' (by rwa [hstays] at hinside)
        exact htracks

/-- What has arrived, what was delivered, what is unread and the value of `data_` can be the same
in `spin` and with repeated calls of `spin_once`, wherever messages arrive or are evicted. -/
theorem spin_iff_spinOnce (arrived delivered unread : List Message) (data : Option ℕ) :
    (∃ state : State Message, (attached Message).ReachableUnder (OnlyCalls .spin) state ∧
      state.arrived = arrived ∧ state.delivered = delivered ∧ state.unread = unread ∧
        state.data = data) ↔
    ∃ state : State Message, (attached Message).ReachableUnder (OnlyCalls .spinOnce) state ∧
      state.arrived = arrived ∧ state.delivered = delivered ∧ state.unread = unread ∧
        state.data = data := by
  constructor
  · rintro ⟨state, hreachable, hobserved⟩
    obtain ⟨state', hreachable', htracks⟩ := simulation_spin.reachable hreachable
    cases htracks with
    | intro => exact ⟨_, hreachable', hobserved⟩
  · rintro ⟨state', hreachable, hobserved⟩
    obtain ⟨state, hreachable', htracks⟩ := simulation_spinOnce.reachable hreachable
    cases htracks with
    | intro => exact ⟨state, hreachable', hobserved⟩

end LayerPingPong.FastrtpsPubsub
