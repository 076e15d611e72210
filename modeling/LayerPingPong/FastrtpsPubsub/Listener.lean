import LayerPingPong.Base.TransitionSystem

/-!
# The Fast-RTPS subscriber and its listener

Two threads share a `FastrtpsSubscriber`: a Fast-RTPS thread that runs `onNewDataMessage` for each
arriving message, and the thread that calls `spin` or `spin_once`. Each event below is one access
to shared data. The reader lock is held from the arrival of a message until its listener call
returns, and `takeNextData` and `get_unread_count` need it. A step that reads a field nothing has
assigned records the field and ends the run.
-/

namespace LayerPingPong.FastrtpsPubsub

open TransitionSystem

/-- How far the constructor has come. The listener is live from `createSubscriber` on. -/
inductive ObjectPhase where
  | constructing
  | registered
  | constructed
  deriving DecidableEq, Repr

/-- The two member functions that wait for messages. -/
inductive Call where
  | spin
  | spinOnce
  deriving DecidableEq, Repr

/-- The ways in which they return. -/
inductive Return where
  | timeout
  | takeFailed
  | delivered
  deriving DecidableEq, Repr

/-- Fields without an initialiser that a step can read. -/
inductive UnsetField where
  | conditionMutex
  | conditionVariable
  | data
  | callback
  deriving DecidableEq, Repr

/-- The next statement of `onNewDataMessage`. -/
inductive ListenerPc where
  | idle
  | entered
  | counted (unreadCount : ℕ)
  | locked (unreadCount : ℕ)
  | stored
  | unlocked
  deriving DecidableEq, Repr

/-- The next statement of the spinning thread. The flag of the wait loop records that the timeout
has passed, so that the predicate is evaluated for the last time. -/
inductive SpinnerPc (Message : Type) where
  | outside
  | entering
  | attaching
  | locking (timedOut : Bool)
  | evaluating (timedOut : Bool)
  | blocked
  | unlocking
  | taking
  | taken (message : Message)
  | counted (message : Message) (unreadCount : ℕ)
  | calling (message : Message)
  deriving DecidableEq, Repr

/-- `condition_mutex_` is held while the predicate is evaluated and until the explicit unlock. -/
def SpinnerPc.holdsMutex {Message : Type} : SpinnerPc Message → Bool
  | .evaluating _ | .unlocking => true
  | _ => false

/-- `notify_all` wakes the thread if it is blocked. -/
def SpinnerPc.notified {Message : Type} : SpinnerPc Message → SpinnerPc Message
  | .blocked => .locking false
  | spinner => spinner

def ListenerPc.holdsMutex : ListenerPc → Bool
  | .locked _ | .stored => true
  | _ => false

/-- The subscriber with both program counters. `arrived` and `delivered` record the messages that
reached the reader and the ones handed to `callback_`. -/
structure State (Message : Type) where
  object : ObjectPhase
  callbackSet : Bool
  conditionMutex : Bool
  conditionVariable : Bool
  data : Option ℕ
  unread : List Message
  listener : ListenerPc
  spinner : SpinnerPc Message
  call : Call
  lastReturn : Option Return
  fault : Option UnsetField
  arrived : List Message
  delivered : List Message
  deriving DecidableEq, Repr

inductive Event (Message : Type) where
  | createSubscriber
  | finishConstructor
  | setCallback
  | enter (call : Call)
  /-- A message arrives and may evict the oldest unread ones from the history. -/
  | arrive (message : Message) (evicted : ℕ)
  | listenerCount
  | listenerLock
  | listenerStore
  | listenerUnlock
  | listenerNotify
  | attachMutex
  | attachVariable
  | lock
  | evaluate
  | wakeSpuriously
  | timeout
  | unlock
  | takeNextData
  | dataTakenCount
  | dataTakenStore
  | callback
  deriving DecidableEq, Repr

variable {Message : Type}

/-- `hasData`, where `data_` has a value. -/
def State.hasData (state : State Message) : Option Bool := state.data.map fun data ↦ 0 < data

def step (state : State Message) (event : Event Message) : Option (State Message) :=
  if state.fault.isSome then none
  else match event with
  | .createSubscriber =>
    match state.object with
    | .constructing => some { state with object := .registered }
    | _ => none
  | .finishConstructor =>
    match state.object with
    | .registered => some { state with object := .constructed }
    | _ => none
  | .setCallback =>
    match state.object with
    | .constructed => some { state with callbackSet := true }
    | _ => none
  | .enter call =>
    match state.object, state.spinner with
    | .constructed, .outside => some { state with spinner := .entering, call }
    | _, _ => none
  | .arrive message evicted =>
    match state.object, state.listener with
    | .constructing, _ => none
    | _, .idle =>
      some { state with
        unread := state.unread.drop evicted ++ [message]
        arrived := state.arrived ++ [message]
        listener := .entered }
    | _, _ => none
  | .listenerCount =>
    match state.listener with
    | .entered => some { state with listener := .counted state.unread.length }
    | _ => none
  | .listenerLock =>
    match state.listener with
    | .counted unreadCount =>
      if state.conditionMutex then
        if state.spinner.holdsMutex then none
        else some { state with listener := .locked unreadCount }
      else some { state with fault := some .conditionMutex }
    | _ => none
  | .listenerStore =>
    match state.listener with
    | .locked unreadCount => some { state with listener := .stored, data := some unreadCount }
    | _ => none
  | .listenerUnlock =>
    match state.listener with
    | .stored => some { state with listener := .unlocked }
    | _ => none
  | .listenerNotify =>
    match state.listener with
    | .unlocked =>
      if state.conditionVariable then
        some { state with listener := .idle, spinner := state.spinner.notified }
      else some { state with fault := some .conditionVariable }
    | _ => none
  | .attachMutex =>
    match state.spinner with
    | .entering => some { state with spinner := .attaching, conditionMutex := true }
    | _ => none
  | .attachVariable =>
    match state.spinner with
    | .attaching => some { state with spinner := .locking false, conditionVariable := true }
    | _ => none
  | .lock =>
    match state.spinner with
    | .locking timedOut =>
      if state.listener.holdsMutex then none
      else some { state with spinner := .evaluating timedOut }
    | _ => none
  | .evaluate =>
    match state.spinner, state.hasData with
    | .evaluating _, none => some { state with fault := some .data }
    | .evaluating _, some true => some { state with spinner := .unlocking }
    | .evaluating false, some false => some { state with spinner := .blocked }
    | .evaluating true, some false =>
      some { state with spinner := .outside, lastReturn := some .timeout }
    | _, _ => none
  | .wakeSpuriously =>
    match state.spinner with
    | .blocked => some { state with spinner := .locking false }
    | _ => none
  | .timeout =>
    match state.spinner with
    | .blocked => some { state with spinner := .locking true }
    | _ => none
  | .unlock =>
    match state.spinner with
    | .unlocking => some { state with spinner := .taking }
    | _ => none
  | .takeNextData =>
    match state.spinner, state.listener, state.unread with
    | .taking, .idle, [] =>
      some { state with spinner := .outside, lastReturn := some .takeFailed }
    | .taking, .idle, message :: unread => some { state with spinner := .taken message, unread }
    | _, _, _ => none
  | .dataTakenCount =>
    match state.spinner, state.listener with
    | .taken message, .idle =>
      some { state with spinner := .counted message state.unread.length }
    | _, _ => none
  | .dataTakenStore =>
    match state.spinner with
    | .counted message unreadCount =>
      some { state with spinner := .calling message, data := some unreadCount }
    | _ => none
  | .callback =>
    match state.spinner with
    | .calling message =>
      if state.callbackSet then
        match state.call with
        | .spin =>
          some { state with
            spinner := .locking false
            delivered := state.delivered ++ [message] }
        | .spinOnce =>
          some { state with
            spinner := .outside
            delivered := state.delivered ++ [message]
            lastReturn := some .delivered }
      else some { state with fault := some .callback }
    | _ => none

/-- What each step requires and does. -/
inductive Transition (state : State Message) : Event Message → State Message → Prop where
  | createSubscriber : state.object = .constructing →
      Transition state .createSubscriber { state with object := .registered }
  | finishConstructor : state.object = .registered →
      Transition state .finishConstructor { state with object := .constructed }
  | setCallback : state.object = .constructed →
      Transition state .setCallback { state with callbackSet := true }
  | enter (call : Call) : state.object = .constructed → state.spinner = .outside →
      Transition state (.enter call) { state with spinner := .entering, call }
  | arrive (message : Message) (evicted : ℕ) : state.object ≠ .constructing →
      state.listener = .idle →
      Transition state (.arrive message evicted) { state with
        unread := state.unread.drop evicted ++ [message]
        arrived := state.arrived ++ [message]
        listener := .entered }
  | listenerCount : state.listener = .entered →
      Transition state .listenerCount { state with listener := .counted state.unread.length }
  | listenerLock {unreadCount : ℕ} : state.listener = .counted unreadCount →
      state.conditionMutex = true → state.spinner.holdsMutex = false →
      Transition state .listenerLock { state with listener := .locked unreadCount }
  | listenerLockUnset {unreadCount : ℕ} : state.listener = .counted unreadCount →
      state.conditionMutex = false →
      Transition state .listenerLock { state with fault := some .conditionMutex }
  | listenerStore {unreadCount : ℕ} : state.listener = .locked unreadCount →
      Transition state .listenerStore
        { state with listener := .stored, data := some unreadCount }
  | listenerUnlock : state.listener = .stored →
      Transition state .listenerUnlock { state with listener := .unlocked }
  | listenerNotify : state.listener = .unlocked → state.conditionVariable = true →
      Transition state .listenerNotify
        { state with listener := .idle, spinner := state.spinner.notified }
  | listenerNotifyUnset : state.listener = .unlocked → state.conditionVariable = false →
      Transition state .listenerNotify { state with fault := some .conditionVariable }
  | attachMutex : state.spinner = .entering →
      Transition state .attachMutex { state with spinner := .attaching, conditionMutex := true }
  | attachVariable : state.spinner = .attaching →
      Transition state .attachVariable
        { state with spinner := .locking false, conditionVariable := true }
  | lock {timedOut : Bool} : state.spinner = .locking timedOut →
      state.listener.holdsMutex = false →
      Transition state .lock { state with spinner := .evaluating timedOut }
  | evaluateUnset {timedOut : Bool} : state.spinner = .evaluating timedOut → state.data = none →
      Transition state .evaluate { state with fault := some .data }
  | evaluateTrue {timedOut : Bool} {data : ℕ} : state.spinner = .evaluating timedOut →
      state.data = some data → 0 < data →
      Transition state .evaluate { state with spinner := .unlocking }
  | evaluateBlock : state.spinner = .evaluating false → state.data = some 0 →
      Transition state .evaluate { state with spinner := .blocked }
  | evaluateTimeout : state.spinner = .evaluating true → state.data = some 0 →
      Transition state .evaluate
        { state with spinner := .outside, lastReturn := some .timeout }
  | wakeSpuriously : state.spinner = .blocked →
      Transition state .wakeSpuriously { state with spinner := .locking false }
  | timeout : state.spinner = .blocked →
      Transition state .timeout { state with spinner := .locking true }
  | unlock : state.spinner = .unlocking →
      Transition state .unlock { state with spinner := .taking }
  | takeNothing : state.spinner = .taking → state.listener = .idle → state.unread = [] →
      Transition state .takeNextData
        { state with spinner := .outside, lastReturn := some .takeFailed }
  | take {message : Message} {unread : List Message} : state.spinner = .taking →
      state.listener = .idle → state.unread = message :: unread →
      Transition state .takeNextData { state with spinner := .taken message, unread }
  | dataTakenCount {message : Message} : state.spinner = .taken message →
      state.listener = .idle →
      Transition state .dataTakenCount
        { state with spinner := .counted message state.unread.length }
  | dataTakenStore {message : Message} {unreadCount : ℕ} :
      state.spinner = .counted message unreadCount →
      Transition state .dataTakenStore
        { state with spinner := .calling message, data := some unreadCount }
  | callbackSpin {message : Message} : state.spinner = .calling message →
      state.callbackSet = true → state.call = .spin →
      Transition state .callback { state with
        spinner := .locking false
        delivered := state.delivered ++ [message] }
  | callbackSpinOnce {message : Message} : state.spinner = .calling message →
      state.callbackSet = true → state.call = .spinOnce →
      Transition state .callback { state with
        spinner := .outside
        delivered := state.delivered ++ [message]
        lastReturn := some .delivered }
  | callbackUnset {message : Message} : state.spinner = .calling message →
      state.callbackSet = false →
      Transition state .callback { state with fault := some .callback }

theorem hasData_eq {state : State Message} {value : Bool} :
    state.hasData = some value ↔ ∃ data, state.data = some data ∧ decide (0 < data) = value := by
  simp [State.hasData]

/-- A step is one of these transitions, taken before any unset field was read. -/
theorem transition_of_step {state next : State Message} {event : Event Message}
    (h : step state event = some next) : state.fault = none ∧ Transition state event next := by
  unfold step at h
  split at h
  · cases h
  · rename_i hfault
    refine ⟨by simpa using hfault, ?_⟩
    cases event
    all_goals dsimp only at h
    case evaluate =>
      split at h
      all_goals cases h
      · rename_i hpc hdata
        exact .evaluateUnset hpc (by simpa [State.hasData] using hdata)
      · rename_i hpc hdata
        obtain ⟨data, hvalue, hpos⟩ := hasData_eq.mp hdata
        exact .evaluateTrue hpc hvalue (by simpa using hpos)
      · rename_i hpc hdata
        obtain ⟨data, hvalue, hpos⟩ := hasData_eq.mp hdata
        obtain rfl : data = 0 := by simpa using hpos
        exact .evaluateBlock hpc hvalue
      · rename_i hpc hdata
        obtain ⟨data, hvalue, hpos⟩ := hasData_eq.mp hdata
        obtain rfl : data = 0 := by simpa using hpos
        exact .evaluateTimeout hpc hvalue
    case listenerLock =>
      repeat' split at h
      all_goals cases h
      · rename_i hpc hset hmutex
        exact .listenerLock hpc hset (by simpa using hmutex)
      · rename_i hpc hset
        exact .listenerLockUnset hpc (by simpa using hset)
    case callback =>
      repeat' split at h
      all_goals cases h
      · rename_i hpc hset _ hcall
        exact .callbackSpin hpc hset hcall
      · rename_i hpc hset _ hcall
        exact .callbackSpinOnce hpc hset hcall
      · rename_i hpc hset
        exact .callbackUnset hpc (by simpa using hset)
    all_goals
      repeat' split at h
      all_goals cases h
      all_goals constructor
      all_goals simp_all

theorem step_of_transition {state next : State Message} {event : Event Message}
    (hfault : state.fault = none) (h : Transition state event next) :
    step state event = some next := by
  unfold step
  rw [if_neg (by simp [hfault])]
  cases h with
  | arrive message evicted hobject hlistener =>
    cases hphase : state.object with
    | constructing => exact absurd hphase hobject
    | registered | constructed => simp [hlistener]
  | listenerLock hpc hset hmutex => simp [hpc, hset, hmutex]
  | _ => simp [State.hasData, *]

/-! ## Runs of a subscriber whose condition is attached -/

/-- The condition is attached by an earlier call, and both counts are zero. -/
def State.started : State Message where
  object := .constructed
  callbackSet := true
  conditionMutex := true
  conditionVariable := true
  data := some 0
  unread := []
  listener := .idle
  spinner := .outside
  call := .spin
  lastReturn := none
  fault := none
  arrived := []
  delivered := []

/-- All interleavings that start with the condition attached. -/
def attached (Message : Type) : System (State Message) (Event Message) where
  initial state := state = .started
  step := step

/-- Everything the steps of an attached subscriber read has been assigned. -/
structure Configured (state : State Message) : Prop where
  object : state.object = .constructed
  callbackSet : state.callbackSet = true
  conditionMutex : state.conditionMutex = true
  conditionVariable : state.conditionVariable = true
  data : state.data ≠ none
  fault : state.fault = none

theorem Configured.preserved {state next : State Message} {event : Event Message}
    (h : Configured state) (hstep : step state event = some next) :
    Configured next := by
  obtain ⟨-, htransition⟩ := transition_of_step hstep
  obtain ⟨hobject, hcallback, hmutex, hvariable, hdata, hfault⟩ := h
  cases htransition with
  | createSubscriber hphase => cases hobject.symm.trans hphase
  | finishConstructor hphase => cases hobject.symm.trans hphase
  | listenerLockUnset _ hunset => cases hmutex.symm.trans hunset
  | listenerNotifyUnset _ hunset => cases hvariable.symm.trans hunset
  | evaluateUnset _ hunset => exact absurd hunset hdata
  | callbackUnset _ hunset => cases hcallback.symm.trans hunset
  | _ => constructor <;> first | assumption | rfl | simp

theorem configured_of_reachable {state : State Message} (h : (attached Message).Reachable state) :
    Configured state := by
  refine h.invariant Configured ?_ fun _ _ _ hold _ hstep ↦ hold.preserved hstep
  rintro _ rfl
  constructor <;> first | rfl | simp [State.started]

end LayerPingPong.FastrtpsPubsub
