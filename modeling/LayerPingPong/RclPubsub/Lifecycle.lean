import LayerPingPong.Base.Ledger
import LayerPingPong.RclPubsub.Subscriber

/-!
# Construction and destruction of the rcl subscriber

Every field is zero-initialised right before the call that fills it, so a constructor that returns
early leaves the later fields without a value. The destructor finalises them all in reverse order,
until a call fails. It neither finalises the context nor are the init options ever finalised.
-/

namespace LayerPingPong.RclPubsub

open Ledger

inductive Handle where
  | context
  | node
  | subscription
  | waitSet
  deriving DecidableEq, Repr

/-- `rcl_init` acquires a context to be shut down by `rcl_shutdown`, and its storage. -/
inductive Resource where
  | initOptions
  | contextStorage
  | context
  | node
  | subscription
  | waitSet
  deriving DecidableEq, Repr

/-- Which calls of the constructor succeed. -/
structure ConstructorCalls where
  initOptionsInit : Bool
  init : Bool
  nodeInit : Bool
  subscriptionInit : Bool
  waitSetInit : Bool
  deriving DecidableEq, Repr

/-- Which calls of the destructor succeed. -/
structure DestructorCalls where
  waitSetFini : Bool
  subscriptionFini : Bool
  nodeFini : Bool
  shutdown : Bool
  deriving DecidableEq, Repr

/-- Whether `rcl_init_options_init` and `rcl_init` acquire something that only
`rcl_init_options_fini` and `rcl_context_fini` give back. -/
structure Ownership where
  options : Bool
  contextStorage : Bool
  deriving DecidableEq, Repr

/-- The constructor. The init options are a local variable. -/
def construct (owns : Ownership) (calls : ConstructorCalls) : List (Entry Handle Resource) :=
  .assign .context :: guarded calls.initOptionsInit (
  acquireIf owns.options .initOptions (
  .read .context :: guarded calls.init (
  acquireIf owns.contextStorage .contextStorage (
  .acquire .context ::
  .assign .node :: .read .node :: .read .context :: guarded calls.nodeInit (
  .acquire .node :: .read .node ::
  .assign .subscription :: .read .subscription :: .read .node :: guarded calls.subscriptionInit (
  .acquire .subscription ::
  .assign .waitSet :: .read .waitSet :: .read .context :: guarded calls.waitSetInit
  [.acquire .waitSet]))))))

/-- The destructor; nothing follows the check of its last call. -/
def destroy (calls : DestructorCalls) : List (Entry Handle Resource) :=
  .read .waitSet :: .release .waitSet :: guarded calls.waitSetFini (
  .read .subscription :: .read .node :: .release .subscription :: guarded calls.subscriptionFini (
  .read .node :: .release .node :: guarded calls.nodeFini
  [.read .context, .release .context]))

variable {Message : Type}

/-- The handles that a call of the trace is given. A wait comes with clearing the wait set and
adding the subscription to it. -/
def Action.handles : Action Message → List Handle
  | .wait _ _ => [.waitSet, .waitSet, .subscription, .waitSet]
  | .take _ => [.waitSet, .subscription]
  | .callback _ => []

/-- What the caller does with the object. `set_callback` touches no handle. -/
inductive Use (Message : Type) where
  | setCallback
  | call (call : Call Message)
  deriving DecidableEq, Repr

section Use

variable (callback : Message → Message) [Inhabited Message]

def Use.handles : Use Message → List Handle
  | .setCallback => []
  | .call made => (made.actions callback).flatMap Action.handles

def useEntries (uses : List (Use Message)) : List (Entry Handle Resource) :=
  uses.flatMap fun use ↦ (use.handles callback).map Entry.read

def lifetime (owns : Ownership) (constructor : ConstructorCalls) (uses : List (Use Message))
    (destructor : DestructorCalls) : List (Entry Handle Resource) :=
  construct owns constructor ++ useEntries callback uses ++ destroy destructor

end Use

/-- The constructor has come to its end, with success. -/
def ConstructorCalls.completes (calls : ConstructorCalls) : Bool :=
  calls.initOptionsInit && calls.init && calls.nodeInit && calls.subscriptionInit &&
    calls.waitSetInit

/-- All calls of the destructor are made. -/
def DestructorCalls.completes (calls : DestructorCalls) : Bool :=
  calls.waitSetFini && calls.subscriptionFini && calls.nodeFini

theorem construct_reads (owns : Ownership) (calls : ConstructorCalls) :
    ReadsAssigned [] (construct owns calls) := by
  simp [construct]

theorem construct_released (owns : Ownership) (calls : ConstructorCalls) :
    collect Entry.released (construct owns calls) = [] := by
  simp [construct]

theorem destroy_acquired (calls : DestructorCalls) :
    collect Entry.acquired (destroy calls) = [] := by
  simp [destroy]

/-- The destructor starts with the wait set, so that one has to be acquired last. -/
theorem settles_completes {owns : Ownership} {constructor : ConstructorCalls}
    {destructor : DestructorCalls}
    (h : collect Entry.released (destroy destructor) =
      (collect Entry.acquired (construct owns constructor)).reverse) :
    constructor.completes = true := by
  have hmem : .waitSet ∈ collect Entry.acquired (construct owns constructor) := by
    rw [← List.mem_reverse, ← h]
    simp [destroy]
  obtain ⟨options, contextStorage⟩ := owns
  cases options <;> cases contextStorage <;>
    simpa [construct, ConstructorCalls.completes, and_assoc] using hmem

theorem construct_assigned (owns : Ownership) {calls : ConstructorCalls}
    (h : calls.completes = true) (handle : Handle) :
    handle ∈ collect Entry.assigned (construct owns calls) := by
  simp only [ConstructorCalls.completes, Bool.and_eq_true, and_assoc] at h
  obtain ⟨hoptions, hinit, hnode, hsubscription, hwaitSet⟩ := h
  cases handle <;> simp [construct, hoptions, hinit, hnode, hsubscription]

/-- What a complete constructor has acquired. -/
theorem construct_acquired {owns : Ownership} {calls : ConstructorCalls}
    (h : calls.completes = true) :
    collect Entry.acquired (construct owns calls) =
      (if owns.options then [.initOptions] else []) ++
        (if owns.contextStorage then [.contextStorage] else []) ++
        [.context, .node, .subscription, .waitSet] := by
  simp only [ConstructorCalls.completes, Bool.and_eq_true, and_assoc] at h
  obtain ⟨hcall, hinit, hnode, hsubscription, hwaitSet⟩ := h
  cases hoptions : owns.options <;> cases hstorage : owns.contextStorage <;>
    simp [construct, hcall, hinit, hnode, hsubscription, hwaitSet, hoptions, hstorage]

theorem destroy_settles_iff {owns : Ownership} {constructor : ConstructorCalls}
    (h : constructor.completes = true) (destructor : DestructorCalls) :
    collect Entry.released (destroy destructor) =
        (collect Entry.acquired (construct owns constructor)).reverse ↔
      owns.options = false ∧ owns.contextStorage = false ∧ destructor.completes = true := by
  rw [construct_acquired h]
  obtain ⟨options, contextStorage⟩ := owns
  obtain ⟨waitSetFini, subscriptionFini, nodeFini, shutdown⟩ := destructor
  cases shutdown <;> revert options contextStorage waitSetFini subscriptionFini nodeFini <;> decide

theorem Action.handles_subset (action : Action Message) :
    action.handles ⊆ [.subscription, .waitSet] := by
  cases action <;> simp [Action.handles]

theorem useEntries_readsOnly (callback : Message → Message) [Inhabited Message]
    (uses : List (Use Message)) :
    ReadsOnly [.subscription, .waitSet] (useEntries callback uses) := by
  apply ReadsOnly.flatMap
  intro use
  apply readsOnly_map
  cases use with
  | setCallback => exact List.nil_subset _
  | call made =>
    intro handle hhandle
    rw [Use.handles, List.mem_flatMap] at hhandle
    obtain ⟨action, -, haction⟩ := hhandle
    exact action.handles_subset haction

/-- A lifetime is safe exactly if the constructor and, but for its last call, the destructor
succeed, and neither the init options nor the shut-down context own anything. -/
theorem rclLifetime_safe_iff (callback : Message → Message) [Inhabited Message]
    (owns : Ownership) (constructor : ConstructorCalls) (uses : List (Use Message))
    (destructor : DestructorCalls) :
    Safe (lifetime callback owns constructor uses destructor) ↔
      constructor.completes = true ∧ destructor.completes = true ∧
        owns.options = false ∧ owns.contextStorage = false := by
  have huse := useEntries_readsOnly callback uses
  have hreleased := construct_released owns constructor
  have hacquired := destroy_acquired destructor
  have hsafe (hcompletes : constructor.completes = true) :
      Safe (lifetime callback owns constructor uses destructor) ↔
        owns.options = false ∧ owns.contextStorage = false ∧ destructor.completes = true := by
    rw [lifetime, safe_lifetime_iff_settled huse hacquired hreleased (construct_reads _ _)
      (construct_assigned owns hcompletes)]
    exact destroy_settles_iff hcompletes destructor
  constructor
  · intro h
    have hcompletes := settles_completes ((safe_lifetime_iff huse hacquired hreleased).mp h).2.2.2
    obtain ⟨hoptions, hstorage, hdestructor⟩ := (hsafe hcompletes).mp h
    exact ⟨hcompletes, hdestructor, hoptions, hstorage⟩
  · intro h
    exact (hsafe h.1).mpr ⟨h.2.2.1, h.2.2.2, h.2.1⟩

end LayerPingPong.RclPubsub
