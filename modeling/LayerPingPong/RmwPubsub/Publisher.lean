import LayerPingPong.Base.Nesting

/-!
# Construction and destruction of the rmw publisher

The constructor returns early only if `rmw_init` fails, and then leaves the node and the publisher
without a value. The destructor gives back these two and nothing else: unlike the subscriber it
neither shuts down nor finalises the context.
-/

namespace LayerPingPong.RmwPubsub.Publisher

open Ledger

inductive Handle where
  | initOptions
  | context
  | node
  | publisher
  deriving DecidableEq, Repr

/-- `rmw_init` acquires a context and its storage, as in the subscriber. -/
inductive Resource where
  | initOptions
  | contextStorage
  | context
  | node
  | publisher
  deriving DecidableEq, Repr

/-- Which calls of the constructor succeed. -/
structure ConstructorCalls where
  initOptionsInit : Bool
  init : Bool
  createNode : Bool
  createPublisher : Bool
  deriving DecidableEq, Repr

/-- Which calls of the destructor succeed. -/
structure DestructorCalls where
  destroyPublisher : Bool
  destroyNode : Bool
  deriving DecidableEq, Repr

/-- The constructor; `rmw_init` is the only call whose result is checked. -/
def construct (ownsOptions : Bool) (calls : ConstructorCalls) : List (Entry Handle Resource) :=
  .assign .initOptions :: .read .initOptions ::
  acquireIf (calls.initOptionsInit && ownsOptions) .initOptions (
  .assign .context :: .read .initOptions :: .read .context :: guarded calls.init (
  .acquire .contextStorage :: .acquire .context :: .read .context ::
  acquireIf calls.createNode .node (
  -- `rmw_node_get_graph_guard_condition` reads the node too
  .assign .node :: .read .node :: .read .node ::
  acquireIf calls.createPublisher .publisher [.assign .publisher])))

/-- The destructor; nothing follows the check of its last call. -/
def destroy (calls : DestructorCalls) : List (Entry Handle Resource) :=
  .read .node :: .read .publisher :: .release .publisher :: guarded calls.destroyPublisher
  [.read .node, .release .node]

/-- The only handle that `publish` is given. -/
def published : List Handle := [.publisher]

def object (ownsOptions : Bool) (constructor : ConstructorCalls) (destructor : DestructorCalls) :
    Object Handle Resource where
  setup := construct ownsOptions constructor
  teardown := destroy destructor
  setup_released := by simp [construct]
  teardown_acquired := by simp [destroy]

variable (ownsOptions : Bool) (constructor : ConstructorCalls) (destructor : DestructorCalls)

theorem construct_reads : ReadsAssigned [] (construct ownsOptions constructor) := by
  simp [construct]

theorem node_assigned_iff :
    .node ∈ collect Entry.assigned (construct ownsOptions constructor) ↔
      constructor.init = true := by
  simp [construct]

theorem construct_assigned {constructor : ConstructorCalls} (h : constructor.init = true)
    (handle : Handle) : handle ∈ collect Entry.assigned (construct ownsOptions constructor) := by
  cases handle <;> simp [construct, h]

/-- The destructor starts with the node, whatever was published before. -/
theorem lifetime_reads_iff (reads : List Handle) :
    ReadsAssigned [] ((object ownsOptions constructor destructor).lifetime reads) ↔
      constructor.init = true := by
  rw [reads_lifetime_iff]
  constructor
  · intro h
    exact (node_assigned_iff ownsOptions constructor).mp h.2.2.1
  · intro h
    have hassigned := construct_assigned ownsOptions h
    exact ⟨construct_reads ownsOptions constructor, fun handle _ ↦ hassigned handle,
      readsAssigned_of_forall_mem hassigned (destroy destructor)⟩

theorem context_acquired_iff {resource : Resource}
    (hcontext : resource = .contextStorage ∨ resource = .context) :
    resource ∈ collect Entry.acquired (construct ownsOptions constructor) ↔
      constructor.init = true := by
  obtain ⟨initOptionsInit, init, createNode, createPublisher⟩ := constructor
  rcases hcontext with rfl | rfl <;>
    revert ownsOptions initOptionsInit init createNode createPublisher <;> decide

/-- What `rmw_init` acquires is never given back. -/
theorem lifetime_leaks_iff (reads : List Handle) {resource : Resource}
    (hcontext : resource = .contextStorage ∨ resource = .context) :
    Leaks ((object ownsOptions constructor destructor).lifetime reads) resource ↔
      constructor.init = true := by
  have hkept : resource ∉ collect Entry.released (destroy destructor) := by
    rcases hcontext with rfl | rfl <;> simp [destroy]
  rw [leaks_lifetime_iff]
  exact (and_iff_left hkept).trans (context_acquired_iff ownsOptions constructor hcontext)

/-- The releases are never those that the constructor calls for. -/
theorem lifetime_not_settled (reads : List Handle) :
    ¬ Settled ((object ownsOptions constructor destructor).lifetime reads) := by
  rw [settled_lifetime_iff]
  change collect Entry.released (destroy destructor) ≠
    (collect Entry.acquired (construct ownsOptions constructor)).reverse
  obtain ⟨initOptionsInit, init, createNode, createPublisher⟩ := constructor
  obtain ⟨destroyPublisher, destroyNode⟩ := destructor
  cases destroyNode <;>
    revert ownsOptions initOptionsInit init createNode createPublisher destroyPublisher <;> decide

end LayerPingPong.RmwPubsub.Publisher
