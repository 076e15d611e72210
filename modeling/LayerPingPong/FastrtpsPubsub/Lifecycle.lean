import LayerPingPong.Base.Nesting

/-!
# Construction and destruction in the fastrtps layer

The publisher and the subscriber are constructed by the same calls, each with a participant and a
type support of its own. They return early if there is no type support, and then leave the pointer
to the endpoint without a value. `removeParticipant` also removes the endpoint. Nothing deletes the
type support, unless the participant takes it over when it is registered.
-/

namespace LayerPingPong.FastrtpsPubsub

open Ledger

/-- The pointers; one that is null has no value, as all of them are dereferenced. `endpoint` is
`publisher_` or `subscriber_`. -/
inductive Handle where
  | participant
  | endpoint
  deriving DecidableEq, Repr

inductive Resource where
  | participant
  | typeSupport
  deriving DecidableEq, Repr

/-- Which calls of a constructor succeed. `getTypeSupport` stands for the two attempts to find the
type support, for C and for C++. -/
structure ConstructorCalls where
  createParticipant : Bool
  getTypeSupport : Bool
  createEndpoint : Bool
  deriving DecidableEq, Repr

def assignIf (succeeds : Bool) (handle : Handle) (rest : List (Entry Handle Resource)) :
    List (Entry Handle Resource) := if succeeds then .assign handle :: rest else rest

/-- The constructors. `takesOver` says whether a registered type support is deleted with the
participant. -/
def construct (takesOver : Bool) (calls : ConstructorCalls) : List (Entry Handle Resource) :=
  acquireIf calls.createParticipant .participant (
  assignIf calls.createParticipant .participant (guarded calls.getTypeSupport (
  acquireIf (!takesOver) .typeSupport (
  .read .participant :: .read .participant ::
  assignIf calls.createEndpoint .endpoint []))))

/-- The destructors. -/
def destroy : List (Entry Handle Resource) := [.read .participant, .release .participant]

def object (takesOver : Bool) (calls : ConstructorCalls) : Object Handle Resource where
  setup := construct takesOver calls
  teardown := destroy
  setup_released := by
    obtain ⟨createParticipant, getTypeSupport, createEndpoint⟩ := calls
    revert takesOver createParticipant getTypeSupport createEndpoint
    decide
  teardown_acquired := rfl

/-- What a wait and the take after it come to. -/
inductive Receipt where
  | timeout
  | failed
  | message
  deriving DecidableEq, Repr

/-- A message taken is followed by `data_taken`, which is given the subscriber too. -/
def Receipt.handles : Receipt → List Handle
  | .timeout => []
  | .failed => [.endpoint]
  | .message => [.endpoint, .endpoint]

end LayerPingPong.FastrtpsPubsub
