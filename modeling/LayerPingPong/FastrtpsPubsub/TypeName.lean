import Mathlib.Data.List.DropRight
import LayerPingPong.FastrtpsPubsub.TypeSupport

/-!
# The names of message types

The constructors of the publisher and of the subscriber register a type support and create an
endpoint under the name of its type. The namespace in front may contain the separators and the
marker that come after it. The name of the message contains no colon, so a type name can be read
from its right end.
-/

namespace LayerPingPong.FastrtpsPubsub

variable {Format Message Other : Type}

/-- The two identifiers for which `get_message_typesupport_handle` is called. -/
inductive TypesupportIdentifier where
  | c
  | cpp
  deriving DecidableEq, Repr

/-- What the constructors set up for the message type: the type support that is registered, the
callbacks in `impl`, and the name of the type in the attributes of the topic. -/
structure Endpoint (Format Message : Type) where
  messageType : MyMessageTypeSupport Format Message
  impl : Callbacks Format Message
  topicDataType : String

/-- The part that the constructors share. Without a type support they return early. -/
def Endpoint.create (handle : TypesupportIdentifier → Option (Callbacks Format Message)) :
    Option (Endpoint Format Message) := do
  let callbacks ← handle .c <|> handle .cpp
  return {
    messageType := .construct callbacks
    impl := callbacks
    topicDataType := createTypeName (some callbacks) }

def FastrtpsPublisher.construct
    (handle : TypesupportIdentifier → Option (Callbacks Format Message)) :
    Option (Endpoint Format Message) := Endpoint.create handle

def FastrtpsSubscriber.construct
    (handle : TypesupportIdentifier → Option (Callbacks Format Message)) :
    Option (Endpoint Format Message) := Endpoint.create handle

/-- An endpoint of a publisher or of a subscriber. -/
def Endpoint.Constructed (endpoint : Endpoint Format Message) : Prop :=
  ∃ handle, FastrtpsPublisher.construct handle = some endpoint ∨
    FastrtpsSubscriber.construct handle = some endpoint

/-- The name that is registered, and the name in the attributes of the topic. -/
def Endpoint.typeNames (endpoint : Endpoint Format Message) : List String :=
  [endpoint.messageType.name, endpoint.topicDataType]

/-- The endpoint is the one for this table, and both its names are made from it. -/
structure Endpoint.NamedBy (endpoint : Endpoint Format Message)
    (callbacks : Callbacks Format Message) : Prop where
  impl : endpoint.impl = callbacks
  registered : endpoint.messageType.name = createTypeName (some callbacks)
  topicDataType : endpoint.topicDataType = createTypeName (some callbacks)

/-- The tables are about the same message of the same namespace. -/
structure SameType (first : Callbacks Format Message) (second : Callbacks Format Other) : Prop where
  messageNamespace : first.messageNamespace = second.messageNamespace
  messageName : first.messageName = second.messageName

/-- A namespace and the name of a message, read from the right end of a type name. -/
def typeNameParts (typeName : String) : String × String :=
  -- without the underscore at the end
  let chars := typeName.toList.dropLast
  let scope := chars.rdropWhile (· ≠ ':')
  (String.ofList (scope.rdrop "::dds_::".length), String.ofList (chars.rtakeWhile (· ≠ ':')))

/-! ## The last separator of a list -/

section Separator

variable {α : Type} [DecidableEq α] {sep : α} {last : List α}

theorem rtakeWhile_append_cons (scope : List α) (h : sep ∉ last) :
    (scope ++ sep :: last).rtakeWhile (· ≠ sep) = last := by
  have hall : ∀ value ∈ last.reverse, decide (value ≠ sep) = true := by
    intro value hvalue
    rw [decide_eq_true_eq]
    exact ne_of_mem_of_not_mem (List.mem_reverse.mp hvalue) h
  calc
    (scope ++ sep :: last).rtakeWhile (· ≠ sep) =
        ((last.reverse ++ sep :: scope.reverse).takeWhile (· ≠ sep)).reverse := by
      simp [List.rtakeWhile]
    _ = last.reverse.reverse := by
      rw [List.takeWhile_append_of_pos hall]
      simp
    _ = last := List.reverse_reverse last

theorem rdropWhile_append_cons (scope : List α) (h : sep ∉ last) :
    (scope ++ sep :: last).rdropWhile (· ≠ sep) = scope ++ [sep] := by
  have hsplit : (scope ++ sep :: last).rdropWhile (· ≠ sep) ++
      (scope ++ sep :: last).rtakeWhile (· ≠ sep) = scope ++ sep :: last :=
    List.rdropWhile_append_rtakeWhile
  rw [rtakeWhile_append_cons scope h] at hsplit
  apply (List.append_left_inj last).mp
  rw [hsplit, List.append_assoc, List.singleton_append]

end Separator

/-! ## Reading a type name -/

/-- What stands before the last separator. -/
def typeScope (messageNamespace : String) : List Char :=
  if messageNamespace = "" then "dds_:".toList else messageNamespace.toList ++ "::dds_:".toList

theorem createTypeName_toList (members : Callbacks Format Message) :
    (createTypeName (some members)).toList =
      typeScope members.messageNamespace ++ ':' :: members.messageName.toList ++ ['_'] := by
  by_cases h : members.messageNamespace = ""
  · simp [createTypeName, typeScope, h]
  · simp [createTypeName, typeScope, h]

/-- An empty namespace leaves out one separator, which is not long enough to be taken for one. -/
theorem typeScope_rdrop (messageNamespace : String) :
    (typeScope messageNamespace ++ [':']).rdrop "::dds_::".length = messageNamespace.toList := by
  unfold typeScope
  split
  · rename_i hempty
    rw [hempty]
    rfl
  · have hmarker : "::dds_:".toList ++ [':'] = "::dds_::".toList := by decide
    rw [List.append_assoc, hmarker, ← String.length_toList]
    exact List.rdrop_append_length

/-- The namespace and the name of the message can be recovered from the name of the type. -/
theorem typeNameParts_createTypeName {members : Callbacks Format Message}
    (h : ':' ∉ members.messageName.toList) :
    typeNameParts (createTypeName (some members)) =
      (members.messageNamespace, members.messageName) := by
  simp only [typeNameParts, createTypeName_toList, List.dropLast_concat]
  rw [rdropWhile_append_cons _ h, rtakeWhile_append_cons _ h, typeScope_rdrop,
    String.ofList_toList, String.ofList_toList]

theorem createTypeName_eq_iff {first : Callbacks Format Message} {second : Callbacks Format Other}
    (hfirst : ':' ∉ first.messageName.toList) (hsecond : ':' ∉ second.messageName.toList) :
    createTypeName (some first) = createTypeName (some second) ↔ SameType first second := by
  constructor
  · intro h
    have hparts := congrArg typeNameParts h
    rw [typeNameParts_createTypeName hfirst, typeNameParts_createTypeName hsecond,
      Prod.mk.injEq] at hparts
    exact ⟨hparts.1, hparts.2⟩
  · intro h
    simp only [createTypeName, h.messageNamespace, h.messageName]

/-! ## The names of an endpoint -/

/-- With a table for C, or without it for C++, the endpoint is set up. -/
theorem Endpoint.create_of_handle {handle : TypesupportIdentifier → Option (Callbacks Format Message)}
    {callbacks : Callbacks Format Message}
    (h : handle .c = some callbacks ∨ handle .c = none ∧ handle .cpp = some callbacks) :
    ∃ endpoint, Endpoint.create handle = some endpoint ∧ endpoint.NamedBy callbacks := by
  have hfound : (handle .c <|> handle .cpp) = some callbacks := by
    rcases h with hc | ⟨hc, hcpp⟩
    · rw [hc]
      rfl
    · rw [hc, hcpp]
      rfl
  refine ⟨⟨.construct callbacks, callbacks, createTypeName (some callbacks)⟩, ?_, rfl, rfl, rfl⟩
  rw [Endpoint.create, hfound]
  rfl

theorem Endpoint.create_eq_some {handle : TypesupportIdentifier → Option (Callbacks Format Message)}
    {endpoint : Endpoint Format Message} (h : Endpoint.create handle = some endpoint) :
    endpoint.NamedBy endpoint.impl := by
  obtain ⟨callbacks, -, hendpoint⟩ := Option.bind_eq_some_iff.mp h
  cases hendpoint
  exact ⟨rfl, rfl, rfl⟩

theorem Endpoint.Constructed.namedBy {endpoint : Endpoint Format Message}
    (h : endpoint.Constructed) : endpoint.NamedBy endpoint.impl := by
  obtain ⟨handle, hpublisher | hsubscriber⟩ := h
  · exact Endpoint.create_eq_some hpublisher
  · exact Endpoint.create_eq_some hsubscriber

/-- Both names of an endpoint are the one made from the callbacks that its messages go through. -/
theorem Endpoint.NamedBy.eq_of_mem_typeNames {endpoint : Endpoint Format Message}
    {callbacks : Callbacks Format Message} (h : endpoint.NamedBy callbacks) {name : String}
    (hname : name ∈ endpoint.typeNames) : name = createTypeName (some callbacks) := by
  rw [Endpoint.typeNames, List.mem_pair] at hname
  rcases hname with rfl | rfl
  · exact h.registered
  · exact h.topicDataType

/-- Type names are equal exactly for the same message of the same namespace, whether they come from
the tables or from endpoints. Both constructors set up an endpoint for each table that they find. -/
theorem typeName_identifies :
    (∀ (first : Callbacks Format Message) (second : Callbacks Format Other),
      ':' ∉ first.messageName.toList → ':' ∉ second.messageName.toList →
        (createTypeName (some first) = createTypeName (some second) ↔ SameType first second)) ∧
    (∀ (handle : TypesupportIdentifier → Option (Callbacks Format Message))
      (callbacks : Callbacks Format Message),
      handle .c = some callbacks ∨ handle .c = none ∧ handle .cpp = some callbacks →
        (∃ endpoint, FastrtpsPublisher.construct handle = some endpoint ∧
          endpoint.NamedBy callbacks) ∧
        ∃ endpoint, FastrtpsSubscriber.construct handle = some endpoint ∧
          endpoint.NamedBy callbacks) ∧
    ∀ (first : Endpoint Format Message) (second : Endpoint Format Other),
      first.Constructed → second.Constructed →
        ':' ∉ first.impl.messageName.toList → ':' ∉ second.impl.messageName.toList →
          ∀ name ∈ first.typeNames, ∀ other ∈ second.typeNames,
            (name = other ↔ SameType first.impl second.impl) := by
  refine ⟨?_, ?_, ?_⟩
  · intro first second hfirst hsecond
    exact createTypeName_eq_iff hfirst hsecond
  · intro handle callbacks hhandle
    exact ⟨Endpoint.create_of_handle hhandle, Endpoint.create_of_handle hhandle⟩
  · intro first second hconstructed hconstructed' hfirst hsecond name hname other hother
    rw [hconstructed.namedBy.eq_of_mem_typeNames hname,
      hconstructed'.namedBy.eq_of_mem_typeNames hother]
    exact createTypeName_eq_iff hfirst hsecond

/-- A namespace that ends in the marker is told from no namespace. A publisher and a subscriber
whose table is found only for C++ use the name of the same type. -/
theorem typeName_identifies_octet :
    let marked := { octetCallbacks with messageNamespace := "dds_" }
    let unnamed := { octetCallbacks with messageNamespace := "" }
    let handle : TypesupportIdentifier → Option (Callbacks Endianness UInt8)
      | .c => none
      | .cpp => some marked
    createTypeName (some marked) ≠ createTypeName (some unnamed) ∧
      ∃ publisher subscriber, FastrtpsPublisher.construct handle = some publisher ∧
        FastrtpsSubscriber.construct handle = some subscriber ∧
        publisher.messageType.name = "dds_::dds_::Octet_" ∧
        publisher.messageType.name = subscriber.topicDataType := by
  intro marked unnamed handle
  obtain ⟨htables, hconstructors, hendpoints⟩ :=
    @typeName_identifies Endianness UInt8 UInt8
  constructor
  · intro h
    have hsame := (htables marked unnamed (by decide) (by decide)).mp h
    exact absurd hsame.messageNamespace (by decide)
  · obtain ⟨⟨publisher, hpublisher, hnamed⟩, subscriber, hsubscriber, hnamed'⟩ :=
      hconstructors handle marked (.inr ⟨rfl, rfl⟩)
    have hsame : SameType publisher.impl subscriber.impl := by
      rw [hnamed.impl, hnamed'.impl]
      exact ⟨rfl, rfl⟩
    have hcolon : ':' ∉ marked.messageName.toList := by decide
    refine ⟨publisher, subscriber, hpublisher, hsubscriber, hnamed.registered.trans (by decide), ?_⟩
    apply (hendpoints publisher subscriber ⟨_, .inl hpublisher⟩ ⟨_, .inr hsubscriber⟩
      (hnamed.impl ▸ hcolon) (hnamed'.impl ▸ hcolon) _ ?_ _ ?_).mpr hsame
    · simp [Endpoint.typeNames]
    · simp [Endpoint.typeNames]

/-- With a colon in the name of a message the marker can be moved into it. -/
example : createTypeName (some { octetCallbacks with messageNamespace := "dds_" }) =
    createTypeName (some { octetCallbacks with
      messageNamespace := "", messageName := "dds_::Octet" }) := by decide

end LayerPingPong.FastrtpsPubsub
