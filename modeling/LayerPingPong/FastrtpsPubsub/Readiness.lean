import Mathlib.Data.List.Induction
import LayerPingPong.FastrtpsPubsub.Listener

/-!
# When the listener is ready

The constructor registers the listener before anything has set its condition pointers or `data_`.
The pointers are set by the first `spin` or `spin_once`, and `data_` gets its first value from a
listener call, since `data_taken` comes after a predicate that has read `data_`. So a run is safe
exactly when the first listener call locks after the attachment and stores before the first
evaluation of the predicate.
-/

namespace LayerPingPong.FastrtpsPubsub

open TransitionSystem

variable {Message : Type}

/-- Memory for the object has been allocated; no field without an initialiser has a value. -/
def State.allocated : State Message where
  object := .constructing
  callbackSet := false
  conditionMutex := false
  conditionVariable := false
  data := none
  unread := []
  listener := .idle
  spinner := .outside
  call := .spin
  lastReturn := none
  fault := none
  arrived := []
  delivered := []

/-- All orders of construction, `set_callback`, calls and arrivals. -/
def fromConstructor (Message : Type) : System (State Message) (Event Message) where
  initial state := state = .allocated
  step := step

/-- The fields that `onNewDataMessage` and `hasData` read. -/
def UnsetField.ofListener : UnsetField → Bool
  | .callback => false
  | _ => true

/-- The last step has read a field of the listener that nothing had assigned. -/
def State.ReadsUnset (state : State Message) : Prop :=
  ∃ field, state.fault = some field ∧ field.ofListener = true

/-- Which event has to come before one that uses a field of the listener. -/
def ReadyAfter (past : List (Event Message)) : Event Message → Prop
  | .listenerLock => .attachMutex ∈ past
  | .listenerNotify => .attachVariable ∈ past
  | .evaluate => .listenerStore ∈ past
  | _ => True

/-- Every event comes after the one that it needs. -/
def ReadyThroughout (events : List (Event Message)) : Prop :=
  ∀ past event rest, events = past ++ event :: rest → ReadyAfter past event

/-- Something has happened before `event` happens for the first time, if it ever does. -/
def BeforeFirst (earlier event : Event Message) (events : List (Event Message)) : Prop :=
  ∀ past rest, events = past ++ event :: rest → event ∉ past → earlier ∈ past

/-- The first `spin` or `spin_once` to be entered has attached the mutex when the first listener call
comes to lock it, and the condition variable when that call comes to notify, and a listener call has
stored its count when the thread first evaluates its predicate. -/
structure ReadyOrder (events : List (Event Message)) : Prop where
  lock : BeforeFirst .attachMutex .listenerLock events
  notify : BeforeFirst .attachVariable .listenerNotify events
  evaluate : BeforeFirst .listenerStore .evaluate events

/-- What has happened before the first time has happened before every other time. -/
theorem BeforeFirst.mem {earlier event : Event Message} {events past rest : List (Event Message)}
    (h : BeforeFirst earlier event events) (hsplit : events = past ++ event :: rest) :
    earlier ∈ past := by
  by_cases hmem : event ∈ past
  · obtain ⟨first, others, hpast, hfirst⟩ := List.eq_append_cons_of_mem hmem
    have hearlier : earlier ∈ first := by
      apply h first (others ++ event :: rest) _ hfirst
      rw [hsplit, hpast, List.append_assoc, List.cons_append]
    rw [hpast]
    exact List.mem_append_left _ hearlier
  · exact h past rest hsplit hmem

theorem readyThroughout_iff {events : List (Event Message)} :
    ReadyThroughout events ↔ ReadyOrder events := by
  constructor
  · intro h
    exact ⟨fun past rest hsplit _ ↦ h past _ rest hsplit, fun past rest hsplit _ ↦
      h past _ rest hsplit, fun past rest hsplit _ ↦ h past _ rest hsplit⟩
  · intro h past event rest hsplit
    cases event with
    | listenerLock => exact h.lock.mem hsplit
    | listenerNotify => exact h.notify.mem hsplit
    | evaluate => exact h.evaluate.mem hsplit
    | _ => trivial

theorem readyThroughout_concat {events : List (Event Message)} {event : Event Message} :
    ReadyThroughout (events ++ [event]) ↔ ReadyThroughout events ∧ ReadyAfter events event := by
  constructor
  · intro h
    refine ⟨fun past other rest hsplit ↦ h past other (rest ++ [event]) (by simp [hsplit]),
      h events event [] rfl⟩
  · rintro ⟨hpast, hlast⟩ past other rest hsplit
    rcases List.eq_nil_or_concat rest with rfl | ⟨front, last, rfl⟩
    · obtain ⟨rfl, hevent⟩ := List.append_inj' hsplit rfl
      cases hevent
      exact hlast
    · rw [List.concat_eq_append, ← List.cons_append, ← List.append_assoc] at hsplit
      obtain ⟨hsplit, -⟩ := List.append_inj' hsplit rfl
      exact hpast past other front hsplit

/-- The spinning thread has passed its predicate. -/
def SpinnerPc.pastPredicate : SpinnerPc Message → Bool
  | .unlocking | .taking | .taken _ | .counted _ _ | .calling _ => true
  | _ => false

@[simp]
theorem SpinnerPc.pastPredicate_notified (spinner : SpinnerPc Message) :
    spinner.notified.pastPredicate = spinner.pastPredicate := by
  cases spinner <;> rfl

/-- Which events of the past have assigned the fields of the listener. -/
structure AssignedBy (events : List (Event Message)) (state : State Message) : Prop where
  conditionMutex : state.conditionMutex = true ↔ .attachMutex ∈ events
  conditionVariable : state.conditionVariable = true ↔ .attachVariable ∈ events
  data : state.data ≠ none ↔ .listenerStore ∈ events
  pastPredicate : state.spinner.pastPredicate = true → state.data ≠ none

theorem assignedBy_allocated : AssignedBy [] (State.allocated : State Message) := by
  constructor <;> simp [State.allocated, SpinnerPc.pastPredicate]

theorem AssignedBy.preserved {events : List (Event Message)} {state next : State Message}
    {event : Event Message} (h : AssignedBy events state)
    (hstep : step state event = some next) : AssignedBy (events ++ [event]) next := by
  obtain ⟨-, htransition⟩ := transition_of_step hstep
  obtain ⟨hmutex, hvariable, hdata, hpast⟩ := h
  cases htransition with
  | attachMutex hpc => exact ⟨by simp, by simpa using hvariable, by simpa using hdata, nofun⟩
  | attachVariable hpc => exact ⟨by simpa using hmutex, by simp, by simpa using hdata, nofun⟩
  | listenerStore hpc =>
    exact ⟨by simpa using hmutex, by simpa using hvariable, by simp, by simp⟩
  | listenerNotify hpc _ =>
    exact ⟨by simpa using hmutex, by simpa using hvariable, by simpa using hdata,
      by simpa using hpast⟩
  | evaluateTrue hpc hvalue _ =>
    exact ⟨by simpa using hmutex, by simpa using hvariable, by simpa using hdata,
      fun _ ↦ by simp [hvalue]⟩
  | dataTakenStore hpc =>
    -- the thread is past a predicate, so `data_` has been assigned before
    have hassigned := hdata.mp (hpast (by rw [hpc]; rfl))
    exact ⟨by simpa using hmutex, by simpa using hvariable, by simp [hassigned], by simp⟩
  | unlock hpc | take hpc _ _ | dataTakenCount hpc _ =>
    exact ⟨by simpa using hmutex, by simpa using hvariable, by simpa using hdata,
      fun _ ↦ hpast (by rw [hpc]; rfl)⟩
  | enter | lock | evaluateBlock | evaluateTimeout | wakeSpuriously | timeout | takeNothing
  | callbackSpin | callbackSpinOnce =>
    exact ⟨by simpa using hmutex, by simpa using hvariable, by simpa using hdata, nofun⟩
  | _ =>
    exact ⟨by simpa using hmutex, by simpa using hvariable, by simpa using hdata, hpast⟩

theorem assignedBy_run {events : List (Event Message)} {state : State Message}
    (hrun : (fromConstructor Message).run .allocated events = some state) :
    AssignedBy events state := by
  induction events using List.reverseRecOn generalizing state with
  | nil => exact Option.some.inj hrun ▸ assignedBy_allocated
  | append_singleton events event ih =>
    obtain ⟨middle, hmiddle, hstep⟩ := (System.run_concat_eq_some _).mp hrun
    exact (ih hmiddle).preserved hstep

/-- One step reads an unset field of the listener exactly when it comes too early. -/
theorem AssignedBy.readsUnset_iff {events : List (Event Message)} {state next : State Message}
    {event : Event Message} (h : AssignedBy events state)
    (hstep : step state event = some next) : next.ReadsUnset ↔ ¬ ReadyAfter events event := by
  obtain ⟨hfault, htransition⟩ := transition_of_step hstep
  obtain ⟨hmutex, hvariable, hdata, -⟩ := h
  cases htransition with
  | listenerLock _ hset _ =>
    simp [State.ReadsUnset, hfault, ReadyAfter, hmutex.mp hset]
  | listenerLockUnset _ hunset =>
    simp [State.ReadsUnset, UnsetField.ofListener, ReadyAfter, ← hmutex, hunset]
  | listenerNotify _ hset =>
    simp [State.ReadsUnset, hfault, ReadyAfter, hvariable.mp hset]
  | listenerNotifyUnset _ hunset =>
    simp [State.ReadsUnset, UnsetField.ofListener, ReadyAfter, ← hvariable, hunset]
  | evaluateUnset _ hunset =>
    simp [State.ReadsUnset, UnsetField.ofListener, ReadyAfter, ← hdata, hunset]
  | evaluateTrue _ hvalue _ | evaluateBlock _ hvalue | evaluateTimeout _ hvalue =>
    simp [State.ReadsUnset, hfault, ReadyAfter, ← hdata, hvalue]
  | callbackUnset _ _ => simp [State.ReadsUnset, UnsetField.ofListener, ReadyAfter]
  | _ => simp [State.ReadsUnset, hfault, ReadyAfter]

theorem not_readsUnset_iff {events : List (Event Message)} {state : State Message}
    (hrun : (fromConstructor Message).run .allocated events = some state) :
    ¬ state.ReadsUnset ↔ ReadyThroughout events := by
  induction events using List.reverseRecOn generalizing state with
  | nil =>
    rw [← Option.some.inj hrun]
    simp [State.ReadsUnset, State.allocated, ReadyThroughout]
  | append_singleton events event ih =>
    obtain ⟨middle, hmiddle, hstep⟩ := (System.run_concat_eq_some _).mp hrun
    have hsafe : ¬ middle.ReadsUnset := by
      rintro ⟨field, hfield, -⟩
      rw [(transition_of_step hstep).1] at hfield
      cases hfield
    rw [readyThroughout_concat, (assignedBy_run hmiddle).readsUnset_iff hstep, not_not,
      and_iff_right ((ih hmiddle).mp hsafe)]

/-- A run reads no unset field of the listener exactly if its first listener call and its first
evaluation of the predicate come late enough. -/
theorem ready_iff_readyOrder {events : List (Event Message)} {state : State Message}
    (hrun : (fromConstructor Message).run .allocated events = some state) :
    ¬ state.ReadsUnset ↔ ReadyOrder events :=
  (not_readsUnset_iff hrun).trans readyThroughout_iff

/-- The first message is stored between the attachment and the first evaluation. -/
def firstMessage : List (Event ℕ) :=
  [.createSubscriber, .finishConstructor, .setCallback, .enter .spin, .attachMutex,
    .attachVariable, .arrive 7 0, .listenerCount, .listenerLock, .listenerStore, .listenerUnlock,
    .listenerNotify, .lock, .evaluate]

theorem ready_iff_readyOrder_first : ReadyOrder firstMessage :=
  (ready_iff_readyOrder (rfl : (fromConstructor ℕ).run .allocated firstMessage = some _)).mp <| by
    rintro ⟨field, hfield, -⟩
    cases hfield

/-- A message that arrives during construction locks an unset mutex, and a `spin` that starts
before any message reads `data_` without a value. -/
theorem listener_not_ready :
    (∃ state : State ℕ, (fromConstructor ℕ).Reachable state ∧
      state.fault = some .conditionMutex) ∧
    ∃ state : State ℕ, (fromConstructor ℕ).Reachable state ∧ state.fault = some .data := by
  constructor
  · exact ⟨_, System.Reachable.run (.initial rfl)
      [.createSubscriber, .arrive 7 0, .listenerCount, .listenerLock] rfl, rfl⟩
  · exact ⟨_, System.Reachable.run (.initial rfl)
      [.createSubscriber, .finishConstructor, .setCallback, .enter .spin, .attachMutex,
        .attachVariable, .lock, .evaluate] rfl, rfl⟩

end LayerPingPong.FastrtpsPubsub
