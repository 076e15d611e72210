import LayerPingPong.Base.Nesting
import LayerPingPong.RclPubsub.Lifecycle

/-!
# Construction and destruction of the rcl publisher

The publisher goes through the same calls as the subscriber up to the node, and the destructor
finalises the publisher and the node and shuts the context down.
-/

namespace LayerPingPong.RclPubsub.Publisher

open Ledger

inductive Handle where
  | context
  | node
  | publisher
  deriving DecidableEq, Repr

/-- `rcl_init` acquires a context to be shut down by `rcl_shutdown`, and its storage. -/
inductive Resource where
  | initOptions
  | contextStorage
  | context
  | node
  | publisher
  deriving DecidableEq, Repr

/-- Which calls of the constructor succeed. -/
structure ConstructorCalls where
  initOptionsInit : Bool
  init : Bool
  nodeInit : Bool
  publisherInit : Bool
  deriving DecidableEq, Repr

/-- Which calls of the destructor succeed. -/
structure DestructorCalls where
  publisherFini : Bool
  nodeFini : Bool
  shutdown : Bool
  deriving DecidableEq, Repr

/-- The constructor. The init options are a local variable. -/
def construct (owns : Ownership) (calls : ConstructorCalls) : List (Entry Handle Resource) :=
  .assign .context :: guarded calls.initOptionsInit (
  acquireIf owns.options .initOptions (
  .read .context :: guarded calls.init (
  acquireIf owns.contextStorage .contextStorage (
  .acquire .context ::
  .assign .node :: .read .node :: .read .context :: guarded calls.nodeInit (
  .acquire .node :: .read .node ::
  .assign .publisher :: .read .publisher :: .read .node :: guarded calls.publisherInit
  -- `rcl_publisher_get_actual_qos` reads the publisher
  [.acquire .publisher, .read .publisher])))))

/-- The destructor; nothing follows the check of its last call. -/
def destroy (calls : DestructorCalls) : List (Entry Handle Resource) :=
  .read .publisher :: .read .node :: .release .publisher :: guarded calls.publisherFini (
  .read .node :: .release .node :: guarded calls.nodeFini
  [.read .context, .release .context])

/-- The only handle that `publish` is given. -/
def published : List Handle := [.publisher]

def object (owns : Ownership) (constructor : ConstructorCalls) (destructor : DestructorCalls) :
    Object Handle Resource where
  setup := construct owns constructor
  teardown := destroy destructor
  setup_released := by simp [construct]
  teardown_acquired := by simp [destroy]

/-- The constructor has come to its end, with success. -/
def ConstructorCalls.completes (calls : ConstructorCalls) : Bool :=
  calls.initOptionsInit && calls.init && calls.nodeInit && calls.publisherInit

/-- All calls of the destructor are made. -/
def DestructorCalls.completes (calls : DestructorCalls) : Bool :=
  calls.publisherFini && calls.nodeFini

theorem construct_reads (owns : Ownership) (calls : ConstructorCalls) :
    ReadsAssigned [] (construct owns calls) := by
  simp [construct]

theorem construct_assigned (owns : Ownership) {calls : ConstructorCalls}
    (h : calls.completes = true) (handle : Handle) :
    handle ∈ collect Entry.assigned (construct owns calls) := by
  simp only [ConstructorCalls.completes, Bool.and_eq_true, and_assoc] at h
  obtain ⟨hoptions, hinit, hnode, -⟩ := h
  cases handle <;> simp [construct, hoptions, hinit, hnode]

/-- The destructor releases what the constructor has acquired only if both come to their end. -/
theorem destroy_settles_iff (owns : Ownership) (constructor : ConstructorCalls)
    (destructor : DestructorCalls) :
    collect Entry.released (destroy destructor) =
        (collect Entry.acquired (construct owns constructor)).reverse ↔
      constructor.completes = true ∧ destructor.completes = true ∧
        owns.options = false ∧ owns.contextStorage = false := by
  obtain ⟨options, contextStorage⟩ := owns
  obtain ⟨initOptionsInit, init, nodeInit, publisherInit⟩ := constructor
  obtain ⟨publisherFini, nodeFini, shutdown⟩ := destructor
  cases shutdown <;>
    revert options contextStorage initOptionsInit init nodeInit publisherInit publisherFini nodeFini <;>
    decide

end LayerPingPong.RclPubsub.Publisher
