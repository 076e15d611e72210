import LayerPingPong.Base.Channel
import LayerPingPong.FastrtpsPubsub.Relay

/-!
# A topic with the threads of its subscriber

A message on its way to a Fast-RTPS subscriber is in the network or in the history of the reader. To
the process that reads the topic this is one channel: an arrival changes nothing but that it loses
the messages it drives out of the history, and a take hands over one message in flight.
-/

namespace LayerPingPong.FastrtpsPubsub

open TransitionSystem

variable {Message : Type}

/-! ## What a step of the threads is to the process -/

/-- The thread is in the wait for a message, between the call and the take. -/
def SpinnerPc.waits : SpinnerPc Message → Bool
  | .entering | .attaching | .locking _ | .evaluating _ | .blocked | .unlocking | .taking => true
  | _ => false

@[simp]
theorem SpinnerPc.waits_notified (spinner : SpinnerPc Message) :
    spinner.notified.waits = spinner.waits := by
  cases spinner <;> rfl

theorem SpinnerPc.inHand_of_waits {spinner : SpinnerPc Message} (h : spinner.waits = true) :
    spinner.inHand = [] := by
  cases spinner with
  | outside | taken message | counted message unreadCount | calling message => cases h
  | _ => rfl

/-- A step of the listener or of the spinning thread after its call. -/
def Event.ofThreads : Event Message → Bool
  | .createSubscriber | .finishConstructor | .setCallback | .enter _ | .arrive _ _ => false
  | _ => true

inductive Outcome (Message : Type) where
  | silent
  | took (message : Message)
  /-- `spin` or `spin_once` returns without a message. -/
  | returned
  | called
  deriving DecidableEq, Repr

def Outcome.isTake : Outcome Message → Bool
  | .took _ => true
  | _ => false

/-- Read off the event and the statement that comes after it. -/
def outcome : Event Message → SpinnerPc Message → Outcome Message
  | .callback, _ => .called
  | .takeNextData, .taken message => .took message
  | .takeNextData, _ => .returned
  | .evaluate, .outside => .returned
  | _, _ => .silent

/-- What the steps with an outcome have done. -/
inductive Effect (state next : State Message) : Outcome Message → Prop where
  | silent : next.unread = state.unread → next.delivered = state.delivered →
      next.spinner.inHand = state.spinner.inHand →
      (next.spinner.waits = true → state.spinner.waits = true) → Effect state next .silent
  | took {message : Message} : state.spinner.waits = true →
      state.unread = message :: next.unread → next.delivered = state.delivered →
      next.spinner = .taken message → Effect state next (.took message)
  | returned : state.spinner.waits = true → next.unread = state.unread →
      next.delivered = state.delivered → next.spinner = .outside → Effect state next .returned
  | called {message : Message} : state.spinner = .calling message →
      next.unread = state.unread → next.delivered = state.delivered ++ [message] →
      next.spinner = (match state.call with | .spin => .locking false | .spinOnce => .outside) →
      Effect state next .called

/-- Only a take changes the history, and a message goes from the hand of the thread to those that
have been handed over. -/
theorem Effect.handed {state next : State Message} {result : Outcome Message}
    (h : Effect state next result) (htook : result.isTake = false) :
    next.unread = state.unread ∧
      next.delivered ++ next.spinner.inHand = state.delivered ++ state.spinner.inHand := by
  cases h with
  | silent hunread hdelivered hinHand _ => exact ⟨hunread, by rw [hdelivered, hinHand]⟩
  | took => cases htook
  | returned hwaits hunread hdelivered hspinner =>
    refine ⟨hunread, ?_⟩
    rw [hdelivered, hspinner, SpinnerPc.inHand_of_waits hwaits]
    rfl
  | called hcalling hunread hdelivered hspinner =>
    refine ⟨hunread, ?_⟩
    rw [hdelivered, hspinner, hcalling]
    cases state.call with
    | spin | spinOnce => exact List.append_nil _

theorem effect_of_step {state next : State Message} {event : Event Message}
    (hthreads : event.ofThreads = true) (hcallback : state.callbackSet = true)
    (hstep : step state event = some next) :
    Effect state next (outcome event next.spinner) ∧ next.call = state.call ∧
      next.callbackSet = true := by
  obtain ⟨-, htransition⟩ := transition_of_step hstep
  cases htransition with
  | createSubscriber | finishConstructor | setCallback | enter | arrive => cases hthreads
  | callbackUnset _ hunset => cases hcallback.symm.trans hunset
  | take hpc _ hunread =>
    exact ⟨.took (by rw [hpc]; rfl) hunread rfl rfl, rfl, hcallback⟩
  | takeNothing hpc _ _ | evaluateTimeout hpc _ =>
    exact ⟨.returned (by rw [hpc]; rfl) rfl rfl rfl, rfl, hcallback⟩
  | callbackSpin hpc _ hcall | callbackSpinOnce hpc _ hcall =>
    exact ⟨.called hpc rfl rfl (by rw [hcall]), rfl, hcallback⟩
  | evaluateUnset hpc _ =>
    have hsilent : outcome (.evaluate : Event Message) state.spinner = .silent := by
      rw [hpc]
      rfl
    rw [hsilent]
    exact ⟨.silent rfl rfl rfl id, rfl, hcallback⟩
  | listenerNotify _ _ =>
    exact ⟨.silent rfl rfl (by simp) (by simp), rfl, hcallback⟩
  | listenerCount _ | listenerLock _ _ _ | listenerLockUnset _ _ | listenerStore _
  | listenerUnlock _ | listenerNotifyUnset _ _ =>
    exact ⟨.silent rfl rfl rfl id, rfl, hcallback⟩
  | attachMutex hpc | attachVariable hpc | lock hpc _ | evaluateTrue hpc _ _ | evaluateBlock hpc _
  | wakeSpuriously hpc | timeout hpc | unlock hpc | dataTakenCount hpc _ | dataTakenStore hpc =>
    exact ⟨.silent rfl rfl (by rw [hpc]; rfl) (by rw [hpc]; exact id), rfl, hcallback⟩

/-! ## The network and the history -/

/-- A sample in the history has the number of its message. -/
structure Topic (Message : Type) where
  network : Channel Message
  subscriber : State (ℕ × Message)

namespace Topic

def publish (topic : Topic Message) (message : Message) : Topic Message :=
  { topic with network := topic.network.publish message }

/-- The network loses a message. -/
def lose (topic : Topic Message) (index : ℕ) : Option (Topic Message) :=
  (topic.network.drop index).map fun network ↦ { topic with network }

/-- A message reaches the reader and may drive others out of the history. -/
def arrive (topic : Topic Message) (index evicted : ℕ) : Option (Topic Message) :=
  match topic.network.take index with
  | some (message, network) =>
    (step topic.subscriber (.arrive (index, message) evicted)).map fun subscriber ↦
      { network, subscriber }
  | none => none

/-- The messages that an arrival drives out. -/
def lost (topic : Topic Message) (evicted : ℕ) : List ℕ :=
  (topic.subscriber.unread.take evicted).map Prod.fst

/-- What is in the network or in the history is in flight, and what the thread has taken is taken. -/
structure Carries (topic : Topic Message) (channel : Channel Message) : Prop where
  published : channel.published = topic.network.published
  inFlight : channel.inFlight.Perm
    (topic.network.inFlight ++ topic.subscriber.unread.map Prod.fst)
  taken : channel.taken =
    (topic.subscriber.delivered ++ topic.subscriber.spinner.inHand).map Prod.fst
  samples : ∀ sample ∈ topic.subscriber.unread, channel.published[sample.1]? = some sample.2

variable {topic next : Topic Message} {channel : Channel Message}

theorem Carries.publish (h : topic.Carries channel) (message : Message) :
    (topic.publish message).Carries (channel.publish message) where
  published := congrArg (· ++ [message]) h.published
  inFlight := by
    change (channel.inFlight ++ [channel.published.length]).Perm
      (topic.network.inFlight ++ [topic.network.published.length] ++ _)
    rw [h.published]
    calc
      List.Perm _ (topic.network.inFlight ++ topic.subscriber.unread.map Prod.fst ++
          [topic.network.published.length]) := h.inFlight.append_right _
      _ = topic.network.inFlight ++ (topic.subscriber.unread.map Prod.fst ++
          [topic.network.published.length]) := List.append_assoc _ _ _
      List.Perm _ (topic.network.inFlight ++ ([topic.network.published.length] ++
          topic.subscriber.unread.map Prod.fst)) := List.perm_append_comm.append_left _
      _ = _ := (List.append_assoc _ _ _).symm
  taken := h.taken
  samples sample hmem := getElem?_of_prefix (List.prefix_append _ _) (h.samples sample hmem)

theorem Carries.lose (h : topic.Carries channel) {index : ℕ} (hlose : topic.lose index = some next) :
    ∃ channel', channel.drop index = some channel' ∧ next.Carries channel' ∧
      next.subscriber = topic.subscriber := by
  obtain ⟨network, hdrop, rfl⟩ := Option.map_eq_some_iff.mp hlose
  have hdropped := Channel.dropped_of_drop hdrop
  have hmem := Channel.mem_of_drop hdrop
  obtain ⟨channel', hdrop'⟩ := Channel.exists_drop
    (h.inFlight.symm.subset (List.mem_append_left _ hmem))
  have hdropped' := Channel.dropped_of_drop hdrop'
  refine ⟨channel', hdrop', ⟨?_, ?_, ?_, ?_⟩, rfl⟩
  · rw [hdropped'.published, hdropped.published]
    exact h.published
  · have herase := h.inFlight.erase index
    rw [hdropped'.inFlight, hdropped.inFlight]
    rwa [List.erase_append_left _ hmem] at herase
  · rw [hdropped'.taken]
    exact h.taken
  · rw [hdropped'.published]
    exact h.samples

/-- An arrival loses the messages it drives out, and nothing else changes. -/
theorem Carries.arrive (h : topic.Carries channel) {index evicted : ℕ}
    (harrive : topic.arrive index evicted = some next) :
    ∃ channel', channel.dropAll (topic.lost evicted) = some channel' ∧ next.Carries channel' ∧
      next.subscriber.spinner = topic.subscriber.spinner ∧
      next.subscriber.call = topic.subscriber.call ∧
      next.subscriber.callbackSet = topic.subscriber.callbackSet := by
  unfold Topic.arrive at harrive
  split at harrive
  · rename_i message network htake
    obtain ⟨subscriber, hstep, rfl⟩ := Option.map_eq_some_iff.mp harrive
    have htook := Channel.took_of_take htake
    obtain ⟨-, htransition⟩ := transition_of_step hstep
    cases htransition
    have hlost : channel.inFlight.Perm (topic.lost evicted ++ (topic.network.inFlight ++
        (topic.subscriber.unread.drop evicted).map Prod.fst)) := by
      have hsplit : topic.subscriber.unread.map Prod.fst =
          topic.lost evicted ++ (topic.subscriber.unread.drop evicted).map Prod.fst := by
        rw [Topic.lost, ← List.map_append, List.take_append_drop]
      have hflight := h.inFlight
      rw [hsplit] at hflight
      exact hflight.trans (List.perm_append_comm_assoc _ _ _)
    obtain ⟨channel', hdrop, hpublished, htaken, hrest⟩ := Channel.exists_dropAll hlost
    refine ⟨channel', hdrop, ⟨?_, ?_, ?_, ?_⟩, rfl, rfl, rfl⟩
    · rw [hpublished, htook.published]
      exact h.published
    · apply hrest.trans
      change List.Perm _ (network.inFlight ++
        (topic.subscriber.unread.drop evicted ++ [(index, message)]).map Prod.fst)
      rw [List.map_append, List.map_singleton, htook.inFlight]
      calc
        List.Perm _ (index :: topic.network.inFlight.erase index ++
            (topic.subscriber.unread.drop evicted).map Prod.fst) :=
          (List.perm_cons_erase htook.mem).append_right _
        List.Perm _ (topic.network.inFlight.erase index ++
            (topic.subscriber.unread.drop evicted).map Prod.fst ++ [index]) :=
          (List.perm_append_singleton _ _).symm
        _ = _ := List.append_assoc _ _ _
    · rw [htaken]
      exact h.taken
    · rw [hpublished]
      intro sample hmem
      rcases List.mem_append.mp hmem with hold | hnew
      · exact h.samples sample (List.mem_of_mem_drop hold)
      · rw [List.mem_singleton.mp hnew, h.published]
        exact htook.message
  · cases harrive

/-- A step of the threads that takes nothing. -/
theorem Carries.stay (h : topic.Carries channel) {subscriber : State (ℕ × Message)}
    {result : Outcome (ℕ × Message)} (heffect : Effect topic.subscriber subscriber result)
    (htook : result.isTake = false) :
    ({ topic with subscriber } : Topic Message).Carries channel := by
  obtain ⟨hunread, hhanded⟩ := heffect.handed htook
  refine ⟨h.published, ?_, ?_, ?_⟩
  · rw [hunread]
    exact h.inFlight
  · rw [hhanded]
    exact h.taken
  · rw [hunread]
    exact h.samples

/-- The oldest message in the history can be taken. -/
theorem Carries.take (h : topic.Carries channel) {subscriber : State (ℕ × Message)}
    {sample : ℕ × Message} (heffect : Effect topic.subscriber subscriber (.took sample)) :
    ∃ channel', channel.take sample.1 = some (sample.2, channel') ∧
      ({ topic with subscriber } : Topic Message).Carries channel' := by
  cases heffect with
  | took hwaits hunread hdelivered hspinner =>
    have hperm := h.inFlight
    rw [hunread, List.map_cons] at hperm
    have hmem : sample.1 ∈ channel.inFlight :=
      hperm.symm.subset (List.mem_append_right _ List.mem_cons_self)
    obtain ⟨message, channel', htake⟩ := Channel.exists_take hmem
    have htook := Channel.took_of_take htake
    have hsample := h.samples sample (by rw [hunread]; exact List.mem_cons_self)
    obtain rfl : message = sample.2 := Option.some.inj (htook.message.symm.trans hsample)
    refine ⟨channel', htake, ⟨?_, ?_, ?_, ?_⟩⟩
    · rw [htook.published]
      exact h.published
    · rw [htook.inFlight]
      have herase := (hperm.trans List.perm_middle).erase sample.1
      rwa [List.erase_cons_head] at herase
    · rw [htook.taken, h.taken, hspinner, hdelivered, SpinnerPc.inHand_of_waits hwaits,
        List.append_nil, SpinnerPc.inHand, List.map_append]
      rfl
    · rw [htook.published]
      intro other hother
      exact h.samples other (by rw [hunread]; exact List.mem_cons_of_mem _ hother)

end Topic

end LayerPingPong.FastrtpsPubsub
