import LayerPingPong.FastrtpsPubsub.Queue
import LayerPingPong.LayerPubsubCommon.Agreement
import LayerPingPong.RclcppPubsub.Delivery

/-!
# The layers behind `SubscriberBase`

`ping` and `pong` call `spin` and `spin_once` of whatever layer they are started with. If the waits
of the calls end as a patient reader of a queue lets them end, the calls hand over the same messages
on the rclcpp, rcl and rmw layers, and the threads of the dds layer can do so too.
-/

namespace LayerPingPong.LayerPubsubCommon

open History TransitionSystem

variable {Message : Type}

/-- A wait with its result. After a message, `finished` is the end of the callback, and `now` is the
clock reading that only the rclcpp layer makes. -/
structure Wait (Message : Type) where
  outcome : Option Message
  finished : ℕ
  now : ℕ
  deriving DecidableEq, Repr

/-- A call with the waits it makes. -/
inductive Request (Message : Type) where
  | spin (timeout : Int64) (start : ℕ) (waits : List (Wait Message))
  | spinOnce (timeout : Int64) (start : ℕ) (wait : Wait Message)
  deriving DecidableEq, Repr

/-- The clock reading before the call. -/
def Request.start : Request Message → ℕ
  | .spin _ start _ | .spinOnce _ start _ => start

def Request.outcomes : Request Message → List (Option Message)
  | .spin _ _ waits => waits.map Wait.outcome
  | .spinOnce _ _ wait => [wait.outcome]

/-! ## What the layers meet -/

def Wait.rclTurn (wait : Wait Message) : RclPubsub.Turn Message :=
  match wait.outcome with
  | some message => ⟨.ok true, .ok message⟩
  | none => ⟨.timeout, .error⟩

def Wait.rmwTurn (wait : Wait Message) : RmwPubsub.Turn Message :=
  match wait.outcome with
  | some message => ⟨.ok true, .ok (some message)⟩
  | none => ⟨.timeout, .ok none⟩

def Wait.rclcppTurn (wait : Wait Message) : RclcppPubsub.Turn Message where
  ok := true
  work :=
    match wait.outcome with
    | some message => .message message wait.finished
    | none => .nothing
  now := wait.now

def Request.rclCall : Request Message → RclPubsub.Call Message
  | .spin timeout _ waits => .spin timeout (waits.map Wait.rclTurn)
  | .spinOnce timeout _ wait => .spinOnce timeout wait.rclTurn

def Request.rmwCall : Request Message → RmwPubsub.Call Message
  | .spin timeout _ waits => .spin timeout (waits.map Wait.rmwTurn)
  | .spinOnce timeout _ wait => .spinOnce timeout wait.rmwTurn

section Clock

variable (elapsedNs : ℕ → ℕ → UInt64)

def Request.rclcppRun (state : RclcppPubsub.State) : Request Message → RclcppPubsub.Run Message
  | .spin timeout start waits =>
    RclcppPubsub.spin elapsedNs timeout start state (waits.map Wait.rclcppTurn)
  | .spinOnce timeout start wait =>
    RclcppPubsub.spinOnce elapsedNs timeout start state [wait.rclcppTurn]

/-- The calls on one rclcpp subscriber, which keeps its fields from call to call. -/
def rclcppSession : RclcppPubsub.State → List (Request Message) →
    List (RclcppPubsub.Action Message)
  | _, [] => []
  | state, request :: requests =>
    let run := request.rclcppRun elapsedNs state
    run.actions ++ rclcppSession run.state requests

/-- In `spin`, a wait without a message is the last one and ends when the timeout has passed, and
the reading after a callback is made before. -/
def Request.InTime : Request Message → Prop
  | .spin timeout start waits => 0 ≤ timeout ∧
      RclcppPubsub.InTime timeout start (waits.map Wait.rclcppTurn) ∧
      RclcppPubsub.ElapsedExact elapsedNs
        (RclcppPubsub.readings start (waits.map Wait.rclcppTurn))
  | .spinOnce _ _ _ => True

end Clock

/-! ## One call -/

theorem Wait.sameTurn (wait : Wait Message) : SameTurn wait.rclTurn wait.rmwTurn := by
  unfold rclTurn rmwTurn
  cases wait.outcome with
  | some message => exact ⟨.ok true, .message message⟩
  | none => exact ⟨.timeout, .nothing⟩

theorem Wait.received_rclcppTurn (wait : Wait Message) :
    wait.rclcppTurn.work.received = wait.outcome := by
  unfold rclcppTurn
  cases wait.outcome <;> rfl

theorem Request.sameCall (request : Request Message) :
    SameCall request.rclCall request.rmwCall := by
  cases request with
  | spin timeout start waits =>
    apply SameCall.spin
    rw [List.forall₂_map_left_iff, List.forall₂_map_right_iff, List.forall₂_same]
    exact fun wait _ ↦ wait.sameTurn
  | spinOnce timeout start wait => exact .spinOnce timeout wait.sameTurn

theorem rclTurn_of_some {wait : Wait Message} {message : Message}
    (h : wait.outcome = some message) : wait.rclTurn = ⟨.ok true, .ok message⟩ := by
  rw [Wait.rclTurn, h]

theorem rclTurn_of_none {wait : Wait Message} (h : wait.outcome = none) :
    wait.rclTurn = ⟨.timeout, .error⟩ := by
  rw [Wait.rclTurn, h]

/-- The waits of a loop in time: those with a message come first. -/
theorem inTime_cons {timeout : Int64} {since : ℕ} {wait : Wait Message} {waits : List (Wait Message)}
    (h : RclcppPubsub.InTime timeout since ((wait :: waits).map Wait.rclcppTurn)) :
    wait.outcome = none ∧ waits = [] ∨
      ∃ message, wait.outcome = some message ∧
        RclcppPubsub.InTime timeout wait.finished (waits.map Wait.rclcppTurn) := by
  obtain ⟨-, hwork⟩ := h
  cases houtcome : wait.outcome with
  | none =>
    rw [Wait.rclcppTurn, houtcome] at hwork
    exact .inl ⟨rfl, List.map_eq_nil_iff.mp hwork.2⟩
  | some message =>
    rw [Wait.rclcppTurn, houtcome] at hwork
    exact .inr ⟨message, rfl, hwork.2.2⟩

theorem nothingMissed_of_none {wait : Wait Message} (h : wait.outcome = none) :
    NothingMissed [wait.rmwTurn] := by
  have hturn : wait.rmwTurn = ⟨.timeout, .ok none⟩ := by rw [Wait.rmwTurn, h]
  rw [hturn]
  exact fun _ hmem ↦ absurd hmem List.not_mem_nil

theorem nothingMissed_of_some {wait : Wait Message} {message : Message}
    (h : wait.outcome = some message) {turns : List (RmwPubsub.Turn Message)}
    (hturns : NothingMissed turns) : NothingMissed (wait.rmwTurn :: turns) := by
  have hturn : wait.rmwTurn = ⟨.ok true, .ok (some message)⟩ := by rw [Wait.rmwTurn, h]
  unfold NothingMissed
  rw [hturn, List.dropWhile_cons_of_pos rfl]
  exact hturns

/-- The rmw subscriber misses nothing, as its first turn without a message is the last one. -/
theorem nothingMissed_of_inTime {timeout : Int64} {since : ℕ} {waits : List (Wait Message)}
    (h : RclcppPubsub.InTime timeout since (waits.map Wait.rclcppTurn)) :
    NothingMissed (waits.map Wait.rmwTurn) := by
  induction waits generalizing since with
  | nil => exact nothingMissed_nil
  | cons wait waits ih =>
    rcases inTime_cons h with ⟨hnone, rfl⟩ | ⟨message, hsome, hrest⟩
    · exact nothingMissed_of_none hnone
    · exact nothingMissed_of_some hsome (ih hrest)

/-! ## A loop that goes on -/

/-- The end of the last callback, from which the next wait counts. -/
def lastFinished (start : ℕ) (waits : List (Wait Message)) : ℕ :=
  waits.foldl (fun _ wait ↦ wait.finished) start

theorem lastFinished_concat (start : ℕ) (waits : List (Wait Message)) (wait : Wait Message) :
    lastFinished start (waits ++ [wait]) = wait.finished := by
  rw [lastFinished, List.foldl_concat]

/-- A wait in time after waits that have all ended with a message. -/
theorem inTime_concat {timeout : Int64} {start : ℕ} {waits : List (Wait Message)}
    {wait : Wait Message}
    (h : RclcppPubsub.InTime timeout start (waits.map Wait.rclcppTurn))
    (hsome : ∀ wait ∈ waits, wait.outcome.isSome = true)
    (hwait : RclcppPubsub.InTime timeout (lastFinished start waits) [wait.rclcppTurn]) :
    RclcppPubsub.InTime timeout start ((waits ++ [wait]).map Wait.rclcppTurn) := by
  induction waits generalizing start with
  | nil => exact hwait
  | cons first waits ih =>
    rw [List.forall_mem_cons] at hsome
    obtain ⟨message, houtcome⟩ := Option.isSome_iff_exists.mp hsome.1
    rw [List.cons_append, List.map_cons]
    rw [List.map_cons] at h
    unfold Wait.rclcppTurn at h ⊢
    rw [houtcome] at h ⊢
    obtain ⟨hok, hfinished, htimeout, hrest⟩ := h
    exact ⟨hok, hfinished, htimeout, ih hrest hsome.2 hwait⟩

/-- The loop reads the clock at the start, at the end of a callback and after a wait. -/
theorem forall_readings (holds : ℕ → Prop) {start : ℕ} {waits : List (Wait Message)}
    (hstart : holds start) (hwaits : ∀ wait ∈ waits, holds wait.finished ∧ holds wait.now) :
    ∀ clock ∈ RclcppPubsub.readings start (waits.map Wait.rclcppTurn), holds clock := by
  unfold RclcppPubsub.readings
  rw [List.forall_mem_cons]
  refine ⟨hstart, fun clock hclock ↦ ?_⟩
  rw [List.flatMap_map, List.mem_flatMap] at hclock
  obtain ⟨wait, hmem, hreading⟩ := hclock
  obtain ⟨hfinished, hnow⟩ := hwaits wait hmem
  rw [RclcppPubsub.Turn.readings, List.mem_append] at hreading
  rcases hreading with hcallback | hafter
  · cases houtcome : wait.outcome with
    | none => simp [Wait.rclcppTurn, houtcome, RclcppPubsub.Work.actions] at hcallback
    | some message =>
      have hclock : clock = wait.finished := by
        simpa [Wait.rclcppTurn, houtcome, RclcppPubsub.Work.actions,
          RclcppPubsub.Action.finished] using hcallback
      exact hclock ▸ hfinished
  · exact List.mem_singleton.mp hafter ▸ hnow

section Callback

variable (callback : Message → Message)

theorem rclSpin_delivered {timeout : Int64} {since : ℕ} {waits : List (Wait Message)}
    (h : RclcppPubsub.InTime timeout since (waits.map Wait.rclcppTurn)) (data : Message) :
    (RclPubsub.spinFrom callback timeout data (waits.map Wait.rclTurn)).filterMap
        RclPubsub.Action.delivered =
      (waits.map Wait.outcome).reduceOption := by
  induction waits generalizing since data with
  | nil => rfl
  | cons wait waits ih =>
    rw [List.map_cons, List.map_cons, RclPubsub.spinFrom]
    rcases inTime_cons h with ⟨hnone, rfl⟩ | ⟨message, hsome, hrest⟩
    · rw [rclTurn_of_none hnone, hnone]
      rfl
    · rw [rclTurn_of_some hsome, hsome, List.reduceOption_cons_of_some]
      exact congrArg (message :: ·) (ih hrest (callback message))

variable [Inhabited Message] {elapsedNs : ℕ → ℕ → UInt64}

theorem rclCall_delivered {request : Request Message} (h : request.InTime elapsedNs) :
    (request.rclCall.actions callback).filterMap RclPubsub.Action.delivered =
      request.outcomes.reduceOption := by
  cases request with
  | spin timeout start waits => exact rclSpin_delivered callback h.2.1 default
  | spinOnce timeout start wait =>
    cases houtcome : wait.outcome with
    | none =>
      rw [Request.rclCall, rclTurn_of_none houtcome, Request.outcomes, houtcome]
      rfl
    | some message =>
      rw [Request.rclCall, rclTurn_of_some houtcome, Request.outcomes, houtcome]
      rfl

theorem rmwCall_delivered {request : Request Message} (h : request.InTime elapsedNs) :
    (request.rmwCall.actions callback).filterMap RmwPubsub.Action.delivered =
      request.outcomes.reduceOption := by
  obtain ⟨rest, hrest, hnone⟩ := actions_agree callback request.sameCall
  have hmissed : NothingMissed (turnsOf request.rmwCall) := by
    cases request with
    | spin timeout start waits => exact nothingMissed_of_inTime h.2.1
    | spinOnce timeout start wait =>
      cases houtcome : wait.outcome with
      | none => exact nothingMissed_of_none houtcome
      | some message => exact nothingMissed_of_some houtcome nothingMissed_nil
  rw [hnone.mpr hmissed, List.append_nil] at hrest
  rw [← hrest, rclCall_delivered callback h]

end Callback

theorem rclcppRun_delivered {elapsedNs : ℕ → ℕ → UInt64} {request : Request Message}
    (h : request.InTime elapsedNs) (state : RclcppPubsub.State) :
    (request.rclcppRun elapsedNs state).actions.filterMap RclcppPubsub.Action.delivered =
      request.outcomes.reduceOption := by
  cases request with
  | spin timeout start waits =>
    rw [Request.rclcppRun, RclcppPubsub.spin_delivered h.1 h.2.2 h.2.1, List.filterMap_map,
      Request.outcomes, List.reduceOption, List.filterMap_map]
    exact List.filterMap_congr fun wait _ ↦ wait.received_rclcppTurn
  | spinOnce timeout start wait =>
    rw [Request.rclcppRun, RclcppPubsub.spinOnce_delivered elapsedNs timeout start rfl,
      wait.received_rclcppTurn, Request.outcomes]
    cases wait.outcome <;> rfl

/-- In rclcpp, `spin` returns after a wait without a message. -/
theorem spin_returned {elapsedNs : ℕ → ℕ → UInt64} {timeout : Int64} {start : ℕ}
    {waits : List (Wait Message)} (h : (Request.spin timeout start waits).InTime elapsedNs)
    (state : RclcppPubsub.State) :
    ((Request.spin timeout start waits).rclcppRun elapsedNs state).returned =
      waits.any fun wait ↦ wait.outcome.isNone := by
  rw [Request.rclcppRun, RclcppPubsub.spin_inTime h.1 h.2.2 h.2.1]
  change (waits.map Wait.rclcppTurn).any _ = _
  rw [List.any_map]
  apply List.any_congr rfl
  intro wait
  change wait.rclcppTurn.work.isNothing = wait.outcome.isNone
  unfold Wait.rclcppTurn
  cases wait.outcome <;> rfl

/-! ## Whole sessions -/

section Session

variable {elapsedNs : ℕ → ℕ → UInt64} {requests : List (Request Message)}

theorem flatMap_delivered {Action : Type} {actions : Request Message → List Action}
    {delivered : Action → Option Message}
    (h : ∀ request ∈ requests,
      (actions request).filterMap delivered = request.outcomes.reduceOption) :
    (requests.flatMap actions).filterMap delivered =
      (requests.flatMap Request.outcomes).reduceOption := by
  rw [List.reduceOption, List.filterMap_flatMap, List.filterMap_flatMap]
  exact List.flatMap_congr h

theorem rclSession_delivered [Inhabited Message] (callback : Message → Message)
    (h : ∀ request ∈ requests, request.InTime elapsedNs) :
    (RclPubsub.session callback (requests.map Request.rclCall)).filterMap
        RclPubsub.Action.delivered =
      (requests.flatMap Request.outcomes).reduceOption := by
  unfold RclPubsub.session
  rw [List.flatMap_map]
  exact flatMap_delivered fun request hmem ↦ rclCall_delivered callback (h request hmem)

theorem rmwSession_delivered [Inhabited Message] (callback : Message → Message)
    (h : ∀ request ∈ requests, request.InTime elapsedNs) :
    (RmwPubsub.session callback (requests.map Request.rmwCall)).filterMap
        RmwPubsub.Action.delivered =
      (requests.flatMap Request.outcomes).reduceOption := by
  unfold RmwPubsub.session
  rw [List.flatMap_map]
  exact flatMap_delivered fun request hmem ↦ rmwCall_delivered callback (h request hmem)

theorem rclcppSession_delivered (h : ∀ request ∈ requests, request.InTime elapsedNs)
    (state : RclcppPubsub.State) :
    (rclcppSession elapsedNs state requests).filterMap RclcppPubsub.Action.delivered =
      (requests.flatMap Request.outcomes).reduceOption := by
  induction requests generalizing state with
  | nil => rfl
  | cons request requests ih =>
    rw [List.forall_mem_cons] at h
    rw [rclcppSession, List.filterMap_append, rclcppRun_delivered h.1, ih h.2, List.flatMap_cons,
      List.reduceOption_append]

/-- The calls hand over these messages on each of the layers. -/
structure HandsOver [Inhabited Message] (callback : Message → Message)
    (elapsedNs : ℕ → ℕ → UInt64) (state : RclcppPubsub.State) (requests : List (Request Message))
    (messages : List Message) : Prop where
  rcl : (RclPubsub.session callback (requests.map Request.rclCall)).filterMap
    RclPubsub.Action.delivered = messages
  rmw : (RmwPubsub.session callback (requests.map Request.rmwCall)).filterMap
    RmwPubsub.Action.delivered = messages
  rclcpp : (rclcppSession elapsedNs state requests).filterMap RclcppPubsub.Action.delivered =
    messages

theorem handsOver_outcomes [Inhabited Message] (callback : Message → Message)
    (h : ∀ request ∈ requests, request.InTime elapsedNs) (state : RclcppPubsub.State) :
    HandsOver callback elapsedNs state requests
      (requests.flatMap Request.outcomes).reduceOption where
  rcl := rclSession_delivered callback h
  rmw := rmwSession_delivered callback h
  rclcpp := rclcppSession_delivered h state

end Session

/-- If the waits of the calls end as a patient reader of a queue lets them end, each of the layers
hands over what the queue does: the rcl, rmw and rclcpp subscribers in these calls, and the threads
of the dds subscriber in some schedule. -/
theorem layers_receive [Inhabited Message] (callback : Message → Message) {depth : ℕ}
    (hdepth : 0 < depth) {elapsedNs : ℕ → ℕ → UInt64} {happened : List (History.Event Message)}
    {queue : Queue Message} (hrun : (reader depth).runUnder Patient .empty happened = some queue)
    {requests : List (Request Message)}
    (houtcomes : requests.flatMap Request.outcomes =
      (reader depth).reports outcome .empty happened)
    (hintime : ∀ request ∈ requests, request.InTime elapsedNs) (state : RclcppPubsub.State) :
    Ordered depth queue ∧
    (RclPubsub.session callback (requests.map Request.rclCall)).filterMap
        RclPubsub.Action.delivered = queue.delivered ∧
    (RmwPubsub.session callback (requests.map Request.rmwCall)).filterMap
        RmwPubsub.Action.delivered = queue.delivered ∧
    (rclcppSession elapsedNs state requests).filterMap RclcppPubsub.Action.delivered =
      queue.delivered ∧
    ∃ events last, (FastrtpsPubsub.attached Message).runUnder (FastrtpsPubsub.Undisturbed depth)
        .started events = some last ∧
      (FastrtpsPubsub.attached Message).reports FastrtpsPubsub.report .started events = happened ∧
      last.delivered = queue.delivered ∧ last.unread = queue.unread := by
  have hrun' := System.run_of_runUnder hrun
  have hdelivered : queue.delivered = (requests.flatMap Request.outcomes).reduceOption := by
    rw [delivered_eq_append hrun', houtcomes]
    rfl
  refine ⟨ordered_of_reachable (System.Reachable.run (.initial rfl) _ hrun'), ?_, ?_, ?_, ?_⟩
  · rw [rclSession_delivered callback hintime, hdelivered]
  · rw [rmwSession_delivered callback hintime, hdelivered]
  · rw [rclcppSession_delivered hintime, hdelivered]
  · obtain ⟨events, last, hevents, hreports, hcorresponds, hidle⟩ :=
      FastrtpsPubsub.exists_schedule hdepth hrun
    obtain ⟨-, hunread⟩ := hcorresponds.settled (by rw [hidle.listener]; rfl)
    refine ⟨events, last, hevents, hreports, ?_, hunread⟩
    rw [hcorresponds.delivered, hidle.spinner]
    exact (List.append_nil _).symm

/-- The second message waits in the queue between a call of `spin_once` and one of `spin`, which then
times out. -/
theorem layers_receive_two :
    let requests : List (Request ℕ) :=
      [.spinOnce 10 0 ⟨some 7, 3, 3⟩, .spin 10 5 [⟨some 8, 6, 6⟩, ⟨none, 0, 16⟩]]
    (RclPubsub.session id (requests.map Request.rclCall)).filterMap
        RclPubsub.Action.delivered = [7, 8] ∧
      (RmwPubsub.session id (requests.map Request.rmwCall)).filterMap
        RmwPubsub.Action.delivered = [7, 8] ∧
      (rclcppSession RclcppPubsub.elapsed ⟨0, false⟩ requests).filterMap
        RclcppPubsub.Action.delivered = [7, 8] := by
  intro requests
  have hrun : (reader 2).runUnder Patient .empty
      [.arrive 7, .arrive 8, .deliver, .deliver, .giveUp] = some ⟨[], [7, 8], [7, 8]⟩ := rfl
  have hexact : RclcppPubsub.ElapsedExact RclcppPubsub.elapsed [5, 6, 6, 16] := by
    unfold RclcppPubsub.ElapsedExact
    decide
  have hintime : ∀ request ∈ requests, request.InTime RclcppPubsub.elapsed := by
    intro request hmem
    rcases List.mem_cons.mp hmem with rfl | hmem
    · trivial
    · rw [List.mem_singleton.mp hmem]
      exact ⟨by decide, ⟨rfl, by decide, by decide, rfl, by decide, rfl⟩, hexact⟩
  obtain ⟨-, hrcl, hrmw, hrclcpp, -⟩ :=
    layers_receive id (by decide) hrun rfl hintime ⟨0, false⟩
  exact ⟨hrcl, hrmw, hrclcpp⟩

end LayerPingPong.LayerPubsubCommon
