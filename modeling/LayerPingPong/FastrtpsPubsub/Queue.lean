import LayerPingPong.Base.History
import LayerPingPong.FastrtpsPubsub.Relay
import LayerPingPong.FastrtpsPubsub.WakeUp

/-!
# The Fast-RTPS subscriber as a queue

With a history that keeps the last messages, the two threads together are a reader of a queue: a
message has arrived for it when the listener stores the count, and is handed over by the take. As
long as no listener call stores its count inside `data_taken`, the value of `data_` is the length of
that queue whenever the predicate is evaluated, and the subscriber gives up only if it is empty.
-/

namespace LayerPingPong.FastrtpsPubsub

open TransitionSystem History

variable {Message : Type}

/-- An arrival at a full history evicts the oldest message. -/
def KeepsLast (depth : ℕ) (state : State Message) : Event Message → Prop
  | .arrive _ evicted => evicted = state.unread.length + 1 - depth
  | _ => True

instance (depth : ℕ) (state : State Message) (event : Event Message) :
    Decidable (KeepsLast depth state event) :=
  match event with
  | .arrive _ evicted =>
    inferInstanceAs (Decidable (evicted = state.unread.length + 1 - depth))
  | .createSubscriber | .finishConstructor | .setCallback | .enter _ | .listenerCount
  | .listenerLock | .listenerStore | .listenerUnlock | .listenerNotify | .attachMutex
  | .attachVariable | .lock | .evaluate | .wakeSpuriously | .timeout | .unlock | .takeNextData
  | .dataTakenCount | .dataTakenStore | .callback => inferInstanceAs (Decidable True)

/-- The thread stands between the two halves of `data_taken`. -/
def SpinnerPc.insideDataTaken : SpinnerPc Message → Bool
  | .counted _ _ => true
  | _ => false

/-- In addition, no listener call stores its count inside `data_taken`. -/
def Undisturbed (depth : ℕ) (state : State Message) : Event Message → Prop
  | .listenerStore => state.spinner.insideDataTaken = false
  | event => KeepsLast depth state event

instance (depth : ℕ) (state : State Message) (event : Event Message) :
    Decidable (Undisturbed depth state event) :=
  match event with
  | .listenerStore => inferInstanceAs (Decidable (state.spinner.insideDataTaken = false))
  | .arrive _ evicted =>
    inferInstanceAs (Decidable (evicted = state.unread.length + 1 - depth))
  | .createSubscriber | .finishConstructor | .setCallback | .enter _ | .listenerCount
  | .listenerLock | .listenerUnlock | .listenerNotify | .attachMutex | .attachVariable | .lock
  | .evaluate | .wakeSpuriously | .timeout | .unlock | .takeNextData | .dataTakenCount
  | .dataTakenStore | .callback => inferInstanceAs (Decidable True)

/-- What the queue is told: the store of a listener call, a take, and a predicate that ends the last
wait. -/
def report (state : State Message) : Event Message → List (History.Event Message)
  | .listenerStore => state.arrived.getLast?.toList.map .arrive
  | .takeNextData =>
    match state.unread with
    | [] => []
    | _ :: _ => [.deliver]
  | .evaluate =>
    match state.spinner, state.hasData with
    | .evaluating true, some false => [.giveUp]
    | _, _ => []
  | _ => []

/-- The queue lacks only the message of a listener call that has not stored its count, and has
handed over the message in the hand of the thread. -/
structure Corresponds (depth : ℕ) (state : State Message) (queue : Queue Message) : Prop where
  delivered : queue.delivered = state.delivered ++ state.spinner.inHand
  settled : state.listener.storePending = false →
    state.arrived = queue.arrived ∧ state.unread = queue.unread
  pending : state.listener.storePending = true → ∃ message,
    state.arrived = queue.arrived ++ [message] ∧
      state.unread = keepLast depth queue.unread message

/-- All counts are lengths of the queue or, before the store, of the history. -/
structure Accurate (state : State Message) (queue : Queue Message) : Prop where
  data : state.spinner.storePending = false → state.data = some queue.unread.length
  counted : ∀ message unreadCount, state.spinner = .counted message unreadCount →
    unreadCount = queue.unread.length
  listener : ∀ unreadCount,
    state.listener = .counted unreadCount ∨ state.listener = .locked unreadCount →
      unreadCount = state.unread.length
  unread_ne_nil : state.spinner = .unlocking ∨ state.spinner = .taking → queue.unread ≠ []
  lastReturn : state.lastReturn ≠ some .takeFailed

theorem corresponds_started (depth : ℕ) :
    Corresponds depth (State.started : State Message) .empty where
  delivered := rfl
  settled _ := ⟨rfl, rfl⟩
  pending := nofun

theorem accurate_started : Accurate (State.started : State Message) .empty := by
  constructor <;> simp [State.started, Queue.empty]

/-! ## One step -/

section Step

variable {depth : ℕ} {state next : State Message} {queue : Queue Message}

/-- A step that the queue is not told of. -/
theorem Corresponds.silent (h : Corresponds depth state queue)
    (hdelivered : next.delivered ++ next.spinner.inHand =
      state.delivered ++ state.spinner.inHand)
    (hlistener : next.listener.storePending = state.listener.storePending)
    (harrived : next.arrived = state.arrived) (hunread : next.unread = state.unread) :
    Corresponds depth next queue where
  delivered := h.delivered.trans hdelivered.symm
  settled := by
    rw [hlistener, harrived, hunread]
    exact h.settled
  pending := by
    rw [hlistener, harrived, hunread]
    exact h.pending

/-- A step of the spinning thread outside `data_taken`, after which it may be about to take. -/
theorem Accurate.move (h : Accurate state queue) (hdata : next.data = state.data)
    (hlistener : next.listener = state.listener) (hunread : next.unread = state.unread)
    (hold : state.spinner.storePending = false) (hnew : next.spinner.storePending = false)
    (htake : next.spinner = .unlocking ∨ next.spinner = .taking → queue.unread ≠ [])
    (hreturn : next.lastReturn ≠ some .takeFailed) : Accurate next queue where
  data _ := by
    rw [hdata]
    exact h.data hold
  counted message unreadCount hpc := by
    rw [hpc] at hnew
    cases hnew
  listener := by
    rw [hlistener, hunread]
    exact h.listener
  unread_ne_nil := htake
  lastReturn := hreturn

theorem report_listenerStore {message : Message} {arrived : List Message}
    (h : state.arrived = arrived ++ [message]) :
    report state .listenerStore = [.arrive message] := by
  simp [report, h]

/-- Whatever the threads do, the queue can do what it is told. -/
theorem Corresponds.preserved {event : Event Message} (h : Corresponds depth state queue)
    (hdepth : 0 < depth) (hguard : KeepsLast depth state event)
    (hstep : step state event = some next) :
    ∃ queue', (reader depth).run queue (report state event) = some queue' ∧
      Corresponds depth next queue' := by
  obtain ⟨-, htransition⟩ := transition_of_step hstep
  cases htransition with
  | arrive message evicted _ hidle =>
    cases hguard
    obtain ⟨harrived, hunread⟩ := h.settled (by rw [hidle]; rfl)
    refine ⟨queue, rfl, h.delivered, fun hstored ↦ absurd hstored.symm Bool.false_ne_true,
      fun _ ↦ ⟨message, ?_, ?_⟩⟩
    · rw [harrived]
    · rw [hunread, keepLast_eq_drop hdepth]
  | listenerStore hpc =>
    obtain ⟨message, harrived, hunread⟩ := h.pending (by rw [hpc]; rfl)
    rw [report_listenerStore harrived]
    exact ⟨_, rfl, h.delivered, fun _ ↦ ⟨harrived, hunread⟩,
      fun hstored ↦ absurd hstored Bool.false_ne_true⟩
  | @take message unread hpc hidle hunread =>
    obtain ⟨harrived, hsettled⟩ := h.settled (by rw [hidle]; rfl)
    have hqueue : queue.unread = message :: unread := hsettled.symm.trans hunread
    have hreport : report state .takeNextData = [.deliver] := by
      simp [report, hunread]
    rw [hreport]
    refine ⟨{ queue with unread, delivered := queue.delivered ++ [message] }, ?_, ?_, ?_, ?_⟩
    · simp [reader, History.step, hqueue]
    · change queue.delivered ++ [message] = state.delivered ++ [message]
      rw [h.delivered, hpc]
      simp [SpinnerPc.inHand]
    · exact fun _ ↦ ⟨harrived, rfl⟩
    · rw [hidle]
      exact fun hstored ↦ absurd hstored Bool.false_ne_true
  | takeNothing hpc hidle hunread =>
    have hreport : report state .takeNextData = [] := by simp [report, hunread]
    rw [hreport]
    exact ⟨queue, rfl, h.silent (by rw [hpc]; rfl) rfl rfl rfl⟩
  | evaluateUnset hpc hdata =>
    have hreport : report state .evaluate = [] := by simp [report, State.hasData, hpc, hdata]
    rw [hreport]
    exact ⟨queue, rfl, h.silent rfl rfl rfl rfl⟩
  | evaluateTrue hpc hdata hpos =>
    have hreport : report state .evaluate = [] := by
      simp [report, State.hasData, hpc, hdata, hpos]
    rw [hreport]
    exact ⟨queue, rfl, h.silent (by rw [hpc]; rfl) rfl rfl rfl⟩
  | evaluateBlock hpc hdata =>
    have hreport : report state .evaluate = [] := by simp [report, hpc]
    rw [hreport]
    exact ⟨queue, rfl, h.silent (by rw [hpc]; rfl) rfl rfl rfl⟩
  | evaluateTimeout hpc hdata =>
    have hreport : report state .evaluate = [.giveUp] := by
      simp [report, State.hasData, hpc, hdata]
    rw [hreport]
    exact ⟨queue, rfl, h.silent (by rw [hpc]; rfl) rfl rfl rfl⟩
  | listenerNotify hpc _ =>
    exact ⟨queue, rfl, h.silent (by simp) (by rw [hpc]; rfl) rfl rfl⟩
  | listenerCount hpc | listenerLock hpc _ _ | listenerUnlock hpc =>
    exact ⟨queue, rfl, h.silent rfl (by rw [hpc]; rfl) rfl rfl⟩
  | callbackSpin hpc _ _ | callbackSpinOnce hpc _ _ =>
    exact ⟨queue, rfl, h.silent (by rw [hpc]; simp [SpinnerPc.inHand]) rfl rfl rfl⟩
  | enter _ _ hpc | attachMutex hpc | attachVariable hpc | lock hpc _ | wakeSpuriously hpc
  | timeout hpc | unlock hpc | dataTakenCount hpc _ | dataTakenStore hpc =>
    exact ⟨queue, rfl, h.silent (by rw [hpc]; rfl) rfl rfl rfl⟩
  | createSubscriber | finishConstructor | setCallback | listenerLockUnset | listenerNotifyUnset
  | callbackUnset => exact ⟨queue, rfl, h.silent rfl rfl rfl rfl⟩

/-- A step that the queue is not told of needs no patience. -/
theorem runUnder_nil {queue' : Queue Message}
    (h : (reader depth).run queue [] = some queue') :
    queue' = queue ∧ (reader depth).runUnder Patient queue [] = some queue' :=
  ⟨(Option.some.inj h).symm, h⟩

/-- Without a store inside `data_taken` the counts stay accurate, and the subscriber gives up only
if the queue is empty. -/
theorem Accurate.preserved {event : Event Message} {queue' : Queue Message}
    (h : Accurate state queue) (hcorresponds : Corresponds depth state queue) (hdepth : 0 < depth)
    (hguard : Undisturbed depth state event) (hstep : step state event = some next)
    (hrun : (reader depth).run queue (report state event) = some queue') :
    Accurate next queue' ∧
      (reader depth).runUnder Patient queue (report state event) = some queue' := by
  obtain ⟨-, htransition⟩ := transition_of_step hstep
  obtain ⟨hdelivered, hsettled, hpending⟩ := hcorresponds
  cases htransition with
  | arrive message evicted _ hidle =>
    obtain ⟨rfl, hpatient⟩ := runUnder_nil hrun
    exact ⟨⟨h.data, h.counted, by simp, h.unread_ne_nil, h.lastReturn⟩, hpatient⟩
  | listenerCount hpc =>
    obtain ⟨rfl, hpatient⟩ := runUnder_nil hrun
    refine ⟨⟨h.data, h.counted, ?_, h.unread_ne_nil, h.lastReturn⟩, hpatient⟩
    rintro unreadCount (hcounted | hlocked)
    · injection hcounted with hcount
      exact hcount.symm
    · cases hlocked
  | @listenerLock unreadCount hpc _ _ =>
    obtain ⟨rfl, hpatient⟩ := runUnder_nil hrun
    refine ⟨⟨h.data, h.counted, ?_, h.unread_ne_nil, h.lastReturn⟩, hpatient⟩
    rintro other (hcounted | hlocked)
    · cases hcounted
    · injection hlocked with hcount
      exact hcount ▸ h.listener unreadCount (.inl hpc)
  | @listenerStore unreadCount hpc =>
    obtain ⟨message, harrived, hunread⟩ := hpending (by rw [hpc]; rfl)
    rw [report_listenerStore harrived] at hrun ⊢
    cases hrun
    have hcount := h.listener unreadCount (.inr hpc)
    rw [hunread] at hcount
    refine ⟨⟨fun _ ↦ by rw [hcount], fun other count hinside ↦ ?_, by simp, fun _ ↦ ?_,
      h.lastReturn⟩, rfl⟩
    · dsimp only [Undisturbed] at hguard
      rw [hinside] at hguard
      cases hguard
    · rw [keepLast_eq_drop hdepth]
      exact List.append_ne_nil_of_right_ne_nil _ (List.cons_ne_nil _ _)
  | listenerUnlock hpc =>
    obtain ⟨rfl, hpatient⟩ := runUnder_nil hrun
    exact ⟨⟨h.data, h.counted, by simp, h.unread_ne_nil, h.lastReturn⟩, hpatient⟩
  | listenerNotify hpc _ =>
    obtain ⟨rfl, hpatient⟩ := runUnder_nil hrun
    refine ⟨⟨fun hpc ↦ h.data (by simpa using hpc), fun message count hpc ↦ ?_, by simp,
      fun hpc ↦ ?_, h.lastReturn⟩, hpatient⟩
    · exact h.counted message count
        ((SpinnerPc.notified_eq_iff (by simp) (by simp)).mp hpc)
    · rw [SpinnerPc.notified_eq_iff (by simp) (by simp),
        SpinnerPc.notified_eq_iff (by simp) (by simp)] at hpc
      exact h.unread_ne_nil hpc
  | evaluateUnset hpc hdata =>
    cases (h.data (by rw [hpc]; rfl)).symm.trans hdata
  | @evaluateTrue timedOut data hpc hdata hpos =>
    have hlength := h.data (by rw [hpc]; rfl)
    have hreport : report state .evaluate = [] := by
      simp [report, State.hasData, hpc, hdata, hpos]
    rw [hreport] at hrun ⊢
    obtain ⟨rfl, hpatient⟩ := runUnder_nil hrun
    refine ⟨h.move rfl rfl rfl (by rw [hpc]; rfl) rfl (fun _ ↦ ?_) h.lastReturn, hpatient⟩
    obtain rfl : data = queue'.unread.length := Option.some.inj (hdata.symm.trans hlength)
    exact List.length_pos_iff.mp hpos
  | evaluateBlock hpc hdata =>
    have hreport : report state .evaluate = [] := by simp [report, hpc]
    rw [hreport] at hrun ⊢
    obtain ⟨rfl, hpatient⟩ := runUnder_nil hrun
    exact ⟨h.move rfl rfl rfl (by rw [hpc]; rfl) rfl (by simp) h.lastReturn, hpatient⟩
  | evaluateTimeout hpc hdata =>
    have hlength := h.data (by rw [hpc]; rfl)
    have hreport : report state .evaluate = [.giveUp] := by
      simp [report, State.hasData, hpc, hdata]
    rw [hreport] at hrun ⊢
    cases hrun
    have hempty : queue.unread = [] := by
      rw [hdata, Option.some.injEq] at hlength
      exact List.length_eq_zero_iff.mp hlength.symm
    exact ⟨h.move rfl rfl rfl (by rw [hpc]; rfl) rfl (by simp) (by simp), if_pos hempty⟩
  | takeNothing hpc hidle hunread =>
    obtain ⟨-, hqueue⟩ := hsettled (by rw [hidle]; rfl)
    exact absurd (hqueue.symm.trans hunread) (h.unread_ne_nil (.inr hpc))
  | @take message unread hpc hidle hunread =>
    obtain ⟨-, hqueue⟩ := hsettled (by rw [hidle]; rfl)
    have hreport : report state .takeNextData = [.deliver] := by simp [report, hunread]
    rw [hreport] at hrun ⊢
    have hdeliver : queue.unread = message :: unread := hqueue.symm.trans hunread
    have hnext : (reader depth).runUnder Patient queue [.deliver] =
        some { queue with unread, delivered := queue.delivered ++ [message] } := by
      simp [System.runUnder, Patient, reader, History.step, hdeliver]
    obtain rfl := Option.some.inj (hrun.symm.trans (System.run_of_runUnder hnext))
    refine ⟨⟨by simp [SpinnerPc.storePending], by simp, by simp [hidle], by simp, h.lastReturn⟩,
      hnext⟩
  | @dataTakenCount message hpc hidle =>
    obtain ⟨rfl, hpatient⟩ := runUnder_nil hrun
    obtain ⟨-, hqueue⟩ := hsettled (by rw [hidle]; rfl)
    refine ⟨⟨by simp [SpinnerPc.storePending], ?_, by simp [hidle], by simp, h.lastReturn⟩,
      hpatient⟩
    rintro other unreadCount hcounted
    injection hcounted with _ hcount
    rw [← hcount, hqueue]
  | @dataTakenStore message unreadCount hpc =>
    obtain ⟨rfl, hpatient⟩ := runUnder_nil hrun
    exact ⟨⟨fun _ ↦ by rw [h.counted message unreadCount hpc], by simp, h.listener, by simp,
      h.lastReturn⟩, hpatient⟩
  | unlock hpc =>
    obtain ⟨rfl, hpatient⟩ := runUnder_nil hrun
    refine ⟨h.move rfl rfl rfl (by rw [hpc]; rfl) rfl (fun _ ↦ ?_) h.lastReturn, hpatient⟩
    exact h.unread_ne_nil (.inl hpc)
  | enter _ _ hpc | attachMutex hpc | attachVariable hpc | lock hpc _ | wakeSpuriously hpc
  | timeout hpc | callbackSpin hpc _ _ =>
    obtain ⟨rfl, hpatient⟩ := runUnder_nil hrun
    exact ⟨h.move rfl rfl rfl (by rw [hpc]; rfl) rfl (by simp) h.lastReturn, hpatient⟩
  | callbackSpinOnce hpc _ _ =>
    obtain ⟨rfl, hpatient⟩ := runUnder_nil hrun
    exact ⟨h.move rfl rfl rfl (by rw [hpc]; rfl) rfl (by simp) (by simp), hpatient⟩
  | createSubscriber | finishConstructor | setCallback | listenerLockUnset | listenerNotifyUnset
  | callbackUnset =>
    obtain ⟨rfl, hpatient⟩ := runUnder_nil hrun
    exact ⟨⟨h.data, h.counted, h.listener, h.unread_ne_nil, h.lastReturn⟩, hpatient⟩

end Step

/-! ## Whole runs -/

theorem refines_keepsLast {depth : ℕ} (hdepth : 0 < depth) :
    (attached Message).Refines (reader depth) (KeepsLast depth) (fun _ _ ↦ True) report
      (Corresponds depth) := by
  intro state event next queue hcorresponds hguard hstep
  obtain ⟨queue', hrun, hcorresponds'⟩ := hcorresponds.preserved hdepth hguard hstep
  exact ⟨queue', System.runUnder_trivial hrun, hcorresponds'⟩

theorem KeepsLast.of_undisturbed {depth : ℕ} {state : State Message} {event : Event Message}
    (h : Undisturbed depth state event) : KeepsLast depth state event := by
  cases event with
  | listenerStore => trivial
  | _ => exact h

theorem refines_undisturbed {depth : ℕ} (hdepth : 0 < depth) :
    (attached Message).Refines (reader depth) (Undisturbed depth) Patient report
      fun state queue ↦ Corresponds depth state queue ∧ Accurate state queue := by
  rintro state event next queue ⟨hcorresponds, haccurate⟩ hguard hstep
  obtain ⟨queue', hrun, hcorresponds'⟩ :=
    hcorresponds.preserved hdepth (.of_undisturbed hguard) hstep
  obtain ⟨haccurate', hpatient⟩ :=
    haccurate.preserved hcorresponds hdepth hguard hstep hrun
  exact ⟨queue', hpatient, hcorresponds', haccurate'⟩

/-! ## Every use of the queue -/

/-- Between two calls of `spin_once` and two listener calls. -/
structure Idle (state : State Message) : Prop where
  configured : Configured state
  listener : state.listener = .idle
  spinner : state.spinner = .outside

theorem idle_started : Idle (State.started : State Message) where
  configured := configured_of_reachable (.initial rfl)
  listener := rfl
  spinner := rfl

/-- The steps of both threads by which the subscriber does what happens to the queue. -/
def schedule (depth : ℕ) (unread : List Message) :
    History.Event Message → List (Event Message)
  | .arrive message => [.arrive message (unread.length + 1 - depth), .listenerCount,
      .listenerLock, .listenerStore, .listenerUnlock, .listenerNotify]
  | .deliver => [.enter .spinOnce, .attachMutex, .attachVariable, .lock, .evaluate, .unlock,
      .takeNextData, .dataTakenCount, .dataTakenStore, .callback]
  | .giveUp => [.enter .spinOnce, .attachMutex, .attachVariable, .lock, .evaluate, .timeout, .lock,
      .evaluate]

theorem exists_run_schedule {depth : ℕ} {state : State Message} {queue queue' : Queue Message}
    {happened : History.Event Message} (hidle : Idle state)
    (hcorresponds : Corresponds depth state queue) (haccurate : Accurate state queue)
    (hpatient : Patient queue happened) (hstep : History.step depth queue happened = some queue') :
    ∃ last, (attached Message).runUnder (Undisturbed depth) state
        (schedule depth state.unread happened) = some last ∧
      (attached Message).reports report state (schedule depth state.unread happened) =
        [happened] ∧ Idle last := by
  obtain ⟨⟨hobject, hcallback, hmutex, hvariable, -, hfault⟩, hlistener, hspinner⟩ := hidle
  obtain ⟨-, hunread⟩ := hcorresponds.settled (by rw [hlistener]; rfl)
  have hdata := haccurate.data (by rw [hspinner]; rfl)
  rw [← hunread] at hdata
  obtain ⟨object, callbackSet, conditionMutex, conditionVariable, data, unread, listener, spinner,
    call, lastReturn, fault, arrived, delivered⟩ := state
  dsimp only at hobject hcallback hmutex hvariable hfault hlistener hspinner hunread hdata
  subst hobject hcallback hmutex hvariable hfault hlistener hspinner hdata
  cases happened with
  | arrive message =>
    refine ⟨_, (if_pos rfl).trans rfl, ?_, ?_⟩
    · simp [schedule, System.reports, attached, step, report, SpinnerPc.holdsMutex,
        SpinnerPc.notified]
    · exact ⟨⟨rfl, rfl, rfl, rfl, Option.some_ne_none _, rfl⟩, rfl, rfl⟩
  | deliver =>
    cases unread with
    | nil =>
      simp [History.step, ← hunread] at hstep
    | cons message unread =>
      exact ⟨_, rfl, rfl, ⟨⟨rfl, rfl, rfl, rfl, Option.some_ne_none _, rfl⟩, rfl, rfl⟩⟩
  | giveUp =>
    obtain rfl : unread = [] := hunread.trans hpatient
    refine ⟨_, rfl, ?_⟩
    exact ⟨rfl, ⟨⟨rfl, rfl, rfl, rfl, Option.some_ne_none _, rfl⟩, rfl, rfl⟩⟩

theorem exists_run {depth : ℕ} (hdepth : 0 < depth) {state : State Message}
    {queue queue' : Queue Message} (hidle : Idle state)
    (hcorresponds : Corresponds depth state queue) (haccurate : Accurate state queue)
    {happened : List (History.Event Message)}
    (hrun : (reader depth).runUnder Patient queue happened = some queue') :
    ∃ events last, (attached Message).runUnder (Undisturbed depth) state events = some last ∧
      (attached Message).reports report state events = happened ∧ Idle last := by
  induction happened generalizing state queue with
  | nil => exact ⟨[], state, rfl, rfl, hidle⟩
  | cons first happened ih =>
    rw [System.runUnder] at hrun
    split at hrun
    · rename_i hpatient
      obtain ⟨next, hnext, hrest⟩ := Option.bind_eq_some_iff.mp hrun
      obtain ⟨middle, hmiddle, hreports, hidle'⟩ :=
        exists_run_schedule hidle hcorresponds haccurate hpatient hnext
      obtain ⟨next', hnext', hcorresponds', haccurate'⟩ :=
        (refines_undisturbed hdepth).run ⟨hcorresponds, haccurate⟩ hmiddle
      rw [hreports] at hnext'
      have hsame : next' = next :=
        Option.some.inj (hnext'.symm.trans (System.runUnder_singleton hpatient hnext))
      rw [hsame] at hcorresponds' haccurate'
      obtain ⟨events, last, hevents, hlater, hidle''⟩ :=
        ih hidle' hcorresponds' haccurate' hrest
      refine ⟨_, last, System.runUnder_append hmiddle hevents, ?_, hidle''⟩
      rw [System.reports_append (System.run_of_runUnder hmiddle), hreports, hlater,
        List.singleton_append]
    · cases hrun

/-- Every use of the queue by a patient reader is what some schedule of the threads does. -/
theorem exists_schedule {depth : ℕ} (hdepth : 0 < depth)
    {happened : List (History.Event Message)} {queue : Queue Message}
    (hrun : (reader depth).runUnder Patient .empty happened = some queue) :
    ∃ events last, (attached Message).runUnder (Undisturbed depth) .started events = some last ∧
      (attached Message).reports report .started events = happened ∧
      Corresponds depth last queue ∧ Idle last := by
  obtain ⟨events, last, hevents, hreports, hidle⟩ := exists_run hdepth idle_started
    (corresponds_started depth) accurate_started hrun
  obtain ⟨queue', hqueue, hcorresponds, -⟩ := (refines_undisturbed hdepth).run
    ⟨corresponds_started depth, accurate_started⟩ hevents
  rw [hreports] at hqueue
  obtain rfl := Option.some.inj (hrun.symm.trans hqueue)
  exact ⟨events, last, hevents, hreports, hcorresponds, hidle⟩

/-- The subscriber is a reader of a queue. Whatever the threads do, the queue can do what it is told.
Without a store inside `data_taken`, the reader is patient and no take fails, and every use of a
queue by a patient reader is what some schedule of the threads does. -/
theorem subscriber_is_queue {depth : ℕ} (hdepth : 0 < depth) :
    (∀ (events : List (Event Message)) (last : State Message),
      (attached Message).runUnder (KeepsLast depth) .started events = some last →
        ∃ queue, (reader depth).run .empty
            ((attached Message).reports report .started events) = some queue ∧
          Corresponds depth last queue ∧ Ordered depth queue) ∧
    (∀ (events : List (Event Message)) (last : State Message),
      (attached Message).runUnder (Undisturbed depth) .started events = some last →
        ∃ queue, (reader depth).runUnder Patient .empty
            ((attached Message).reports report .started events) = some queue ∧
          Corresponds depth last queue ∧ last.lastReturn ≠ some .takeFailed) ∧
    ∀ (happened : List (History.Event Message)) (queue : Queue Message),
      (reader depth).runUnder Patient .empty happened = some queue →
        ∃ events last, (attached Message).runUnder (Undisturbed depth) .started events = some last ∧
          (attached Message).reports report .started events = happened ∧
          Corresponds depth last queue := by
  refine ⟨fun events last hrun ↦ ?_, fun events last hrun ↦ ?_, fun happened queue hrun ↦ ?_⟩
  · obtain ⟨queue, hqueue, hcorresponds⟩ :=
      (refines_keepsLast hdepth).run (corresponds_started depth) hrun
    have hqueue' := System.run_of_runUnder hqueue
    exact ⟨queue, hqueue', hcorresponds,
      ordered_of_reachable (System.Reachable.run (.initial rfl) _ hqueue')⟩
  · obtain ⟨queue, hqueue, hcorresponds, haccurate⟩ := (refines_undisturbed hdepth).run
      ⟨corresponds_started depth, accurate_started⟩ hrun
    exact ⟨queue, hqueue, hcorresponds, haccurate.lastReturn⟩
  · obtain ⟨events, last, hevents, hreports, hcorresponds, -⟩ := exists_schedule hdepth hrun
    exact ⟨events, last, hevents, hreports, hcorresponds⟩

/-- With room for one message, the second arrival drives out the first one. -/
theorem subscriber_is_queue_one : ∃ last queue : _,
    (attached ℕ).runUnder (Undisturbed 1) .started
        (schedule 1 [] (.arrive 7) ++ schedule 1 [7] (.arrive 8) ++ schedule 1 [8] .deliver) =
      some last ∧
    (reader 1).runUnder Patient .empty [.arrive 7, .arrive 8, .deliver] = some queue ∧
    Corresponds 1 last queue ∧ last.arrived = [7, 8] ∧ last.delivered = [8] := by
  have hrun : (attached ℕ).runUnder (Undisturbed 1) .started
      (schedule 1 [] (.arrive 7) ++ schedule 1 [7] (.arrive 8) ++ schedule 1 [8] .deliver) =
        some _ := rfl
  obtain ⟨queue, hqueue, hcorresponds, -⟩ := (subscriber_is_queue Nat.one_pos).2.1 _ _ hrun
  exact ⟨_, queue, hrun, hqueue, hcorresponds, rfl, rfl⟩

end LayerPingPong.FastrtpsPubsub
