import LayerPingPong.FastrtpsPubsub.Lifecycle
import LayerPingPong.RclPubsub.Publisher
import LayerPingPong.RmwPubsub.Lifecycle
import LayerPingPong.RmwPubsub.Publisher

/-!
# The publisher and the subscriber of a process

`pong` constructs its subscriber before its publisher and `ping` its publisher before its
subscriber, and the pointers are local variables, so that one lifetime is nested in the other. The
publisher of `pong` is used from the callback, that of `ping` before each `spin_once`.
-/

namespace LayerPingPong.TwoWay.ProcessLifetime

open Ledger

/-! ## The rmw layer -/

section Rmw

open RmwPubsub

/-- The results of the calls in the constructors and destructors of a process. -/
structure RmwCalls where
  constructor : ConstructorCalls
  destructor : DestructorCalls
  publisherConstructor : Publisher.ConstructorCalls
  publisherDestructor : Publisher.DestructorCalls

variable (ownsOptions : Bool) (calls : RmwCalls)

def rmwSubscriber : Object Handle Resource where
  setup := construct ownsOptions calls.constructor
  teardown := destroy calls.destructor
  setup_released := construct_released ownsOptions calls.constructor
  teardown_acquired := destroy_acquired calls.destructor

def rmwPublisher : Object Publisher.Handle Publisher.Resource :=
  Publisher.object ownsOptions calls.publisherConstructor calls.publisherDestructor

section Reads

variable {Message : Type} [Inhabited Message] (callback : Message → Message) (timeout : Int64)
  (turns : List (Turn Message))

/-- The callback of `pong` publishes. -/
def rmwRelayed : Action Message → List Publisher.Handle
  | .callback _ => Publisher.published
  | .wait _ _ _ | .take _ | .print _ => []

/-- What `pong` reads in `spin`. -/
def rmwPongReads : List (Handle ⊕ Publisher.Handle) :=
  inTurn (([.subscribers, .subscription], []) ::
    (RmwPubsub.spin callback timeout turns).map fun action ↦ (action.handles, rmwRelayed action))

/-- What `ping` reads in its send loop. -/
def rmwPingReads : List (Publisher.Handle ⊕ Handle) :=
  inTurn (turns.map fun turn ↦
    (Publisher.published, Use.handles callback (.call (.spinOnce timeout turn))))

def rmwPong : List (Entry (Handle ⊕ Publisher.Handle) (Resource ⊕ Publisher.Resource)) :=
  ((rmwSubscriber ownsOptions calls).nest (rmwPublisher ownsOptions calls)).lifetime
    (rmwPongReads callback timeout turns)

def rmwPing : List (Entry (Publisher.Handle ⊕ Handle) (Publisher.Resource ⊕ Resource)) :=
  ((rmwPublisher ownsOptions calls).nest (rmwSubscriber ownsOptions calls)).lifetime
    (rmwPingReads callback timeout turns)

end Reads

/-- The destructor starts with the array of subscribers, which is assigned last. -/
theorem rmwSubscriber_reads_iff (reads : List Handle) :
    ReadsAssigned [] ((rmwSubscriber ownsOptions calls).lifetime reads) ↔
      calls.constructor.completes = true := by
  rw [reads_lifetime_iff]
  constructor
  · intro h
    exact (subscribers_assigned_iff ownsOptions calls.constructor).mp h.2.2.1
  · intro h
    have hassigned := construct_assigned ownsOptions h
    exact ⟨construct_reads ownsOptions calls.constructor, fun handle _ ↦ hassigned handle,
      readsAssigned_of_forall_mem hassigned (destroy calls.destructor)⟩

/-- A process of the rmw layer reads nothing unset exactly if the constructor of its subscriber
comes to its end and `rmw_init` succeeds for its publisher. Whatever succeeds, what it releases is
not just what it has acquired in reverse order, and if that `rmw_init` succeeds, the publisher's
context and its storage are never released. -/
theorem rmwProcess_reads_iff_and_not_settled {Message : Type} [Inhabited Message]
    (callback : Message → Message) (timeout : Int64) (turns : List (Turn Message)) :
    ((ReadsAssigned [] (rmwPong ownsOptions calls callback timeout turns) ↔
          calls.constructor.completes = true ∧ calls.publisherConstructor.init = true) ∧
        ¬ Settled (rmwPong ownsOptions calls callback timeout turns) ∧
        ∀ resource, resource = .contextStorage ∨ resource = .context →
          (Leaks (rmwPong ownsOptions calls callback timeout turns) (.inr resource) ↔
            calls.publisherConstructor.init = true)) ∧
      (ReadsAssigned [] (rmwPing ownsOptions calls callback timeout turns) ↔
          calls.constructor.completes = true ∧ calls.publisherConstructor.init = true) ∧
        ¬ Settled (rmwPing ownsOptions calls callback timeout turns) ∧
        ∀ resource, resource = .contextStorage ∨ resource = .context →
          (Leaks (rmwPing ownsOptions calls callback timeout turns) (.inl resource) ↔
            calls.publisherConstructor.init = true) := by
  have hpublisher (reads : List Publisher.Handle) :
      ¬ Settled ((rmwPublisher ownsOptions calls).lifetime reads) :=
    Publisher.lifetime_not_settled ownsOptions _ _ reads
  have hreads (reads : List Publisher.Handle) :
      ReadsAssigned [] ((rmwPublisher ownsOptions calls).lifetime reads) ↔
        calls.publisherConstructor.init = true :=
    Publisher.lifetime_reads_iff ownsOptions _ _ reads
  have hleaks (reads : List Publisher.Handle) {resource : Publisher.Resource}
      (hcontext : resource = .contextStorage ∨ resource = .context) :
      Leaks ((rmwPublisher ownsOptions calls).lifetime reads) resource ↔
        calls.publisherConstructor.init = true :=
    Publisher.lifetime_leaks_iff ownsOptions _ _ reads hcontext
  unfold rmwPong rmwPing
  rw [reads_nest_iff, reads_nest_iff, settled_nest_iff, settled_nest_iff,
    rmwSubscriber_reads_iff, rmwSubscriber_reads_iff, hreads, hreads]
  refine ⟨⟨Iff.rfl, fun h ↦ hpublisher _ h.2, fun resource hcontext ↦ ?_⟩, and_comm,
    fun h ↦ hpublisher _ h.1, fun resource hcontext ↦ ?_⟩
  · rw [leaks_nest_inr_iff]
    exact hleaks _ hcontext
  · rw [leaks_nest_inl_iff]
    exact hleaks _ hcontext

end Rmw

/-! ## The rcl layer -/

section Rcl

open RclPubsub

/-- The results of the calls in the constructors and destructors of a process. -/
structure RclCalls where
  constructor : ConstructorCalls
  destructor : DestructorCalls
  publisherConstructor : Publisher.ConstructorCalls
  publisherDestructor : Publisher.DestructorCalls

/-- Both constructors and, but for their last calls, both destructors succeed. -/
def RclCalls.Complete (calls : RclCalls) : Prop :=
  calls.constructor.completes = true ∧ calls.destructor.completes = true ∧
    calls.publisherConstructor.completes = true ∧ calls.publisherDestructor.completes = true

variable (owns : Ownership) (calls : RclCalls)

variable {Message : Type} [Inhabited Message] (callback : Message → Message) (timeoutNs : Int64)
  (turns : List (Turn Message))

end Rcl

/-! ## The fastrtps layer -/

section Fastrtps

open FastrtpsPubsub

variable (takesOver : Bool) (subscriber publisher : ConstructorCalls) (receipts : List Receipt)

end Fastrtps

end LayerPingPong.TwoWay.ProcessLifetime
