import LayerPingPong.Base.Ledger
import LayerPingPong.RmwPubsub.Subscriber

/-!
# Construction and destruction of the rmw subscriber

The constructor returns at the first failure that it checks and leaves the later fields without a
value. The destructor does not know how far the constructor got. It releases everything, from the
array of subscribers on, until a call fails.
-/

namespace LayerPingPong.RmwPubsub

open Ledger

/-- The fields that the functions of the middleware are given, and the array of subscribers. -/
inductive Handle where
  | initOptions
  | context
  | node
  | subscription
  | waitSet
  | subscribers
  deriving DecidableEq, Repr

/-- `rmw_init` acquires a context to be shut down by `rmw_shutdown`, and its storage, which
`rmw_context_fini` gives back. -/
inductive Resource where
  | initOptions
  | contextStorage
  | context
  | node
  | subscription
  | waitSet
  | subscribers
  deriving DecidableEq, Repr

/-- Which calls of the constructor succeed. -/
structure ConstructorCalls where
  initOptionsInit : Bool
  init : Bool
  createNode : Bool
  createSubscription : Bool
  getActualQos : Bool
  createWaitSet : Bool
  deriving DecidableEq, Repr

/-- Which calls of the destructor succeed. -/
structure DestructorCalls where
  destroyWaitSet : Bool
  destroySubscription : Bool
  destroyNode : Bool
  shutdown : Bool
  contextFini : Bool
  deriving DecidableEq, Repr

/-- The constructor. `ownsOptions` says whether `rmw_init_options_init` acquires something that is
to be given back by `rmw_init_options_fini`. -/
def construct (ownsOptions : Bool) (calls : ConstructorCalls) : List (Entry Handle Resource) :=
  .assign .initOptions :: .read .initOptions ::
  -- the result of `rmw_init_options_init` is not checked
  acquireIf (calls.initOptionsInit && ownsOptions) .initOptions (
  .assign .context :: .read .initOptions :: .read .context :: guarded calls.init (
  .acquire .contextStorage :: .acquire .context :: .read .context ::
  -- a null node is not checked for either
  acquireIf calls.createNode .node (
  .assign .node :: .read .node :: .assign .subscription :: guarded calls.createSubscription (
  .acquire .subscription :: .read .subscription :: guarded calls.getActualQos (
  .read .context :: .assign .waitSet :: guarded calls.createWaitSet
  [.acquire .waitSet, .acquire .subscribers, .assign .subscribers])))))

/-- The destructor; nothing follows the check of its last call. -/
def destroy (calls : DestructorCalls) : List (Entry Handle Resource) :=
  .read .subscribers :: .release .subscribers ::
  .read .waitSet :: .release .waitSet :: guarded calls.destroyWaitSet (
  .read .node :: .read .subscription :: .release .subscription ::
  guarded calls.destroySubscription (
  .read .node :: .release .node :: guarded calls.destroyNode (
  .read .context :: .release .context :: guarded calls.shutdown
  [.read .context, .release .contextStorage])))

variable {Message : Type}

/-- The handles that a call of the trace is given. -/
def Action.handles : Action Message → List Handle
  | .wait _ _ _ => [.subscribers, .waitSet]
  | .take _ => [.subscription]
  | .callback _ | .print _ => []

/-- What the caller does with the object. `set_callback` touches no handle. -/
inductive Use (Message : Type) where
  | setCallback
  | call (call : Call Message)
  deriving DecidableEq, Repr

section Use

variable (callback : Message → Message) [Inhabited Message]

/-- Both functions start with `subscribers[0] = rmw_subscription_->data`. -/
def Use.handles : Use Message → List Handle
  | .setCallback => []
  | .call made => .subscribers :: .subscription :: (made.actions callback).flatMap Action.handles

def useEntries (uses : List (Use Message)) : List (Entry Handle Resource) :=
  uses.flatMap fun use ↦ (use.handles callback).map Entry.read

def lifetime (ownsOptions : Bool) (constructor : ConstructorCalls) (uses : List (Use Message))
    (destructor : DestructorCalls) : List (Entry Handle Resource) :=
  construct ownsOptions constructor ++ useEntries callback uses ++ destroy destructor

end Use

/-- The constructor has come to its end. -/
def ConstructorCalls.completes (calls : ConstructorCalls) : Bool :=
  calls.init && calls.createSubscription && calls.getActualQos && calls.createWaitSet

/-- All calls of the destructor are made. -/
def DestructorCalls.completes (calls : DestructorCalls) : Bool :=
  calls.destroyWaitSet && calls.destroySubscription && calls.destroyNode && calls.shutdown

theorem construct_reads (ownsOptions : Bool) (calls : ConstructorCalls) :
    ReadsAssigned [] (construct ownsOptions calls) := by
  simp [construct]

theorem construct_released (ownsOptions : Bool) (calls : ConstructorCalls) :
    collect Entry.released (construct ownsOptions calls) = [] := by
  simp [construct]

theorem destroy_acquired (calls : DestructorCalls) :
    collect Entry.acquired (destroy calls) = [] := by
  simp [destroy]

/-- The array of subscribers comes last. -/
theorem subscribers_assigned_iff (ownsOptions : Bool) (calls : ConstructorCalls) :
    .subscribers ∈ collect Entry.assigned (construct ownsOptions calls) ↔
      calls.completes = true := by
  simp [construct, ConstructorCalls.completes, and_assoc]

theorem construct_assigned (ownsOptions : Bool) {calls : ConstructorCalls}
    (h : calls.completes = true) (handle : Handle) :
    handle ∈ collect Entry.assigned (construct ownsOptions calls) := by
  simp only [ConstructorCalls.completes, Bool.and_eq_true, and_assoc] at h
  obtain ⟨hinit, hsubscription, hqos, hwaitSet⟩ := h
  cases handle <;> simp [construct, hinit, hsubscription, hqos, hwaitSet]

/-- What a complete constructor has acquired. -/
theorem construct_acquired {ownsOptions : Bool} {calls : ConstructorCalls}
    (h : calls.completes = true) :
    collect Entry.acquired (construct ownsOptions calls) =
      (if calls.initOptionsInit && ownsOptions then [.initOptions] else []) ++
        [.contextStorage, .context] ++ (if calls.createNode then [.node] else []) ++
        [.subscription, .waitSet, .subscribers] := by
  simp only [ConstructorCalls.completes, Bool.and_eq_true, and_assoc] at h
  obtain ⟨hinit, hsubscription, hqos, hwaitSet⟩ := h
  cases hoptions : calls.initOptionsInit && ownsOptions <;> cases hnode : calls.createNode <;>
    simp [construct, hinit, hsubscription, hqos, hwaitSet, hoptions, hnode]

/-- The destructor releases what a complete constructor has acquired only if it makes all its calls
and nothing but the node, the context and the later resources was acquired. -/
theorem destroy_settles_iff {ownsOptions : Bool} {constructor : ConstructorCalls}
    (h : constructor.completes = true) (destructor : DestructorCalls) :
    collect Entry.released (destroy destructor) =
        (collect Entry.acquired (construct ownsOptions constructor)).reverse ↔
      (constructor.initOptionsInit && ownsOptions) = false ∧ constructor.createNode = true ∧
        destructor.completes = true := by
  rw [construct_acquired h]
  generalize (constructor.initOptionsInit && ownsOptions) = options
  generalize constructor.createNode = node
  obtain ⟨destroyWaitSet, destroySubscription, destroyNode, shutdown, contextFini⟩ := destructor
  cases contextFini <;> revert options node destroyWaitSet destroySubscription destroyNode shutdown <;>
    decide

theorem Action.handles_subset (action : Action Message) :
    action.handles ⊆ [.subscribers, .subscription, .waitSet] := by
  cases action <;> simp [Action.handles]

theorem useEntries_readsOnly (callback : Message → Message) [Inhabited Message]
    (uses : List (Use Message)) :
    ReadsOnly [.subscribers, .subscription, .waitSet] (useEntries callback uses) := by
  apply ReadsOnly.flatMap
  intro use
  apply readsOnly_map
  cases use with
  | setCallback => exact List.nil_subset _
  | call made =>
    intro handle hhandle
    rw [Use.handles, List.mem_cons, List.mem_cons, List.mem_flatMap] at hhandle
    rcases hhandle with rfl | rfl | ⟨action, -, haction⟩
    · simp
    · simp
    · exact action.handles_subset haction

/-- A lifetime is safe exactly if the constructor and, but for its last call, the destructor
succeed, and the init options own nothing. -/
theorem rmwLifetime_safe_iff (callback : Message → Message) [Inhabited Message]
    (ownsOptions : Bool) (constructor : ConstructorCalls) (uses : List (Use Message))
    (destructor : DestructorCalls) :
    Safe (lifetime callback ownsOptions constructor uses destructor) ↔
      constructor.completes = true ∧ constructor.createNode = true ∧
        destructor.completes = true ∧ (constructor.initOptionsInit && ownsOptions) = false := by
  have huse := useEntries_readsOnly callback uses
  have hreleased := construct_released ownsOptions constructor
  have hacquired := destroy_acquired destructor
  have hsafe (hcompletes : constructor.completes = true) :
      Safe (lifetime callback ownsOptions constructor uses destructor) ↔
        (constructor.initOptionsInit && ownsOptions) = false ∧ constructor.createNode = true ∧
          destructor.completes = true := by
    rw [lifetime, safe_lifetime_iff_settled huse hacquired hreleased (construct_reads _ _)
      (construct_assigned ownsOptions hcompletes)]
    exact destroy_settles_iff hcompletes destructor
  constructor
  · intro h
    -- the destructor starts with the array of subscribers
    have hreads := ((safe_lifetime_iff huse hacquired hreleased).mp h).2.2.1
    have hcompletes := (subscribers_assigned_iff ownsOptions constructor).mp hreads.1
    obtain ⟨hoptions, hnode, hdestructor⟩ := (hsafe hcompletes).mp h
    exact ⟨hcompletes, hnode, hdestructor, hoptions⟩
  · intro h
    exact (hsafe h.1).mpr ⟨h.2.2.2, h.2.1, h.2.2.1⟩

end LayerPingPong.RmwPubsub
