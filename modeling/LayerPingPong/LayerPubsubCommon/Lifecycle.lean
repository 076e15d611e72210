import LayerPingPong.RclPubsub.Lifecycle
import LayerPingPong.RmwPubsub.Lifecycle

/-!
# Subscribers whose construction or destruction fails

The constructor of a subscriber reports a failure and returns, and the caller goes on with the
object. Neither the rmw nor the rcl subscriber records how far its construction got.
-/

namespace LayerPingPong.LayerPubsubCommon

open Ledger

/-- The lifetimes of the rmw and of the rcl subscriber are safe only if nothing fails but perhaps
the last call of the destructor, whatever is done with the object in between. -/
theorem lifetime_safe_iff {Message : Type} [Inhabited Message] (callback : Message → Message) :
    (∀ ownsOptions constructor uses destructor,
      Safe (RmwPubsub.lifetime callback ownsOptions constructor uses destructor) ↔
        constructor.completes = true ∧ constructor.createNode = true ∧
          destructor.completes = true ∧ (constructor.initOptionsInit && ownsOptions) = false) ∧
    ∀ owns constructor uses destructor,
      Safe (RclPubsub.lifetime callback owns constructor uses destructor) ↔
        constructor.completes = true ∧ destructor.completes = true ∧
          owns.options = false ∧ owns.contextStorage = false := by
  constructor
  · intro ownsOptions constructor uses destructor
    exact RmwPubsub.rmwLifetime_safe_iff callback ownsOptions constructor uses destructor
  · intro owns constructor uses destructor
    exact RclPubsub.rclLifetime_safe_iff callback owns constructor uses destructor

/-- With `rmw_init` or `rcl_init` failing, the destructor frees or finalises a field that has no
value, even if nothing was done with the object and nothing else fails. -/
theorem destructor_reads_unset :
    ¬ ReadsAssigned [] (RmwPubsub.lifetime (id : ℕ → ℕ) false
        ⟨true, false, true, true, true, true⟩ [] ⟨true, true, true, true, true⟩) ∧
      ¬ ReadsAssigned [] (RclPubsub.lifetime (id : ℕ → ℕ) ⟨false, false⟩
        ⟨true, false, true, true, true⟩ [] ⟨true, true, true, true⟩) ∧
      ¬ Safe (RmwPubsub.lifetime (id : ℕ → ℕ) false
        ⟨true, false, true, true, true, true⟩ [] ⟨true, true, true, true, true⟩) := by
  refine ⟨by decide, by decide, fun h ↦ ?_⟩
  exact absurd h.reads (by decide)

end LayerPingPong.LayerPubsubCommon
