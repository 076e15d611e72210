import Mathlib.Algebra.Order.Ring.Int
import LayerPingPong.Base.Codec

/-!
# The type support of the fastrtps layer

`MyMessageTypeSupport` writes the encapsulation and leaves the message to the callbacks of its type.
A type whose messages have no data gets a dummy byte instead. Whether it has data is found out once,
from the maximal size that the callbacks report for the type.
-/

namespace LayerPingPong.FastrtpsPubsub

open Codec

/-- `message_type_support_callbacks_t`. A deserializer assigns to the message it is called with. -/
structure Callbacks (Format Message : Type) where
  messageNamespace : String
  messageName : String
  cdrSerialize : Message → Serializer Format Bool
  cdrDeserialize : Message → Deserializer Format (Bool × Message)
  getSerializedSize : Message → ℕ
  /-- Maps the flag for a full bound to the size and to what the flag is afterwards. -/
  maxSerializedSize : Bool → ℕ × Bool

/-- What the type support calls of `eprosima::fastcdr::Cdr`; the bytes go through its operators for
`uint8_t`. A format tells the endianness and the distance to where the alignment is counted from,
and `Fresh` are the formats of a new object. -/
structure Fastcdr (Format : Type) where
  Fresh : Format → Prop
  serializeEncapsulation : Serializer Format Unit
  readEncapsulation : Deserializer Format Unit
  serializeByte : UInt8 → Serializer Format Unit
  deserializeByte : Deserializer Format UInt8

structure MyMessageTypeSupport (Format Message : Type) where
  name : String
  isGetKeyDefined : Bool
  members : Callbacks Format Message
  hasData : Bool
  maxSizeBound : Bool
  typeSize : UInt32

variable {Format Message : Type}

/-- `_create_type_name`; the pointer to the members may be null. -/
def createTypeName : Option (Callbacks Format Message) → String
  | none => ""
  | some members =>
    let ss := if members.messageNamespace ≠ "" then members.messageNamespace ++ "::" else ""
    ss ++ "dds_::" ++ members.messageName ++ "_"

namespace MyMessageTypeSupport

def setMembers (support : MyMessageTypeSupport Format Message) (members : Callbacks Format Message) :
    MyMessageTypeSupport Format Message :=
  -- fully bound by default
  let (size, bound) := members.maxSerializedSize true
  let dataSize := UInt32.ofNat size
  let isEmpty := bound && dataSize == 0
  { support with
    members := members
    hasData := !isEmpty
    maxSizeBound := bound
    -- an empty message gets a dummy byte
    typeSize := 4 + if isEmpty then dataSize + 1 else dataSize }

/-- `setMembers` assigns the fields that are not set before it. -/
def construct (members : Callbacks Format Message) : MyMessageTypeSupport Format Message :=
  setMembers ⟨createTypeName (some members), false, members, false, false, 0⟩ members

def getEstimatedSerializedSize (support : MyMessageTypeSupport Format Message)
    (rosMessage : Message) (impl : Callbacks Format Message) : ℕ :=
  if support.maxSizeBound then support.typeSize.toNat else 4 + impl.getSerializedSize rosMessage

def serializeROSmessage (support : MyMessageTypeSupport Format Message) (cdr : Fastcdr Format)
    (rosMessage : Message) (impl : Callbacks Format Message) : Serializer Format Bool := do
  cdr.serializeEncapsulation
  if support.hasData then
    impl.cdrSerialize rosMessage
  else
    cdr.serializeByte 0
    return true

def deserializeROSmessage (support : MyMessageTypeSupport Format Message) (cdr : Fastcdr Format)
    (rosMessage : Message) (impl : Callbacks Format Message) :
    Deserializer Format (Bool × Message) := do
  cdr.readEncapsulation
  if support.hasData then
    impl.cdrDeserialize rosMessage
  else
    let _dump ← cdr.deserializeByte
    return (true, rosMessage)

end MyMessageTypeSupport

/-! ## What is assumed of the middleware -/

/-- The header of a new writer has four bytes, and a new reader gets into its format from them. A
byte is written as it is, without alignment. -/
structure Fastcdr.Symmetric (cdr : Fastcdr Format) : Prop where
  header : ∀ format, cdr.Fresh format → ∃ header after, header.length = 4 ∧
    Writes cdr.serializeEncapsulation format header () after ∧
      ∀ other, cdr.Fresh other → Reads cdr.readEncapsulation other header () after
  byte : ∀ format byte, ∃ after, Writes (cdr.serializeByte byte) format [byte] () after ∧
    Reads cdr.deserializeByte format [byte] byte after

/-- What holds of generated callbacks, in the formats in which the header leaves a new writer. -/
structure Callbacks.Lawful (cdr : Fastcdr Format) (callbacks : Callbacks Format Message) : Prop where
  /-- `cdr_deserialize` undoes `cdr_serialize`, which writes `get_serialized_size` bytes. -/
  undoes : ∀ message start header format, cdr.Fresh start →
    Writes cdr.serializeEncapsulation start header () format →
      ∃ bytes after last, bytes.length = callbacks.getSerializedSize message ∧
        Writes (callbacks.cdrSerialize message) format bytes true after ∧
          ∀ old, Reads (callbacks.cdrDeserialize old) format bytes (true, message) last
  bound : (callbacks.maxSerializedSize true).2 = true →
    ∀ message, callbacks.getSerializedSize message ≤ (callbacks.maxSerializedSize true).1

/-! ## The flags and the size of the type -/

namespace MyMessageTypeSupport

variable {callbacks : Callbacks Format Message}

theorem construct_maxSizeBound (callbacks : Callbacks Format Message) :
    (construct callbacks).maxSizeBound = (callbacks.maxSerializedSize true).2 := rfl

theorem ofNat_eq_zero_iff {size : ℕ} (h : size < 2 ^ 32) : UInt32.ofNat size = 0 ↔ size = 0 := by
  rw [← UInt32.toNat_inj, UInt32.toNat_ofNat_of_lt' h]
  rfl

/-- A type has no data exactly if it is fully bound and of size 0. -/
theorem construct_hasData_eq_false_iff (hmax : (callbacks.maxSerializedSize true).1 + 5 < 2 ^ 32) :
    (construct callbacks).hasData = false ↔
      (callbacks.maxSerializedSize true).2 = true ∧ (callbacks.maxSerializedSize true).1 = 0 := by
  have hzero := ofNat_eq_zero_iff
    (show (callbacks.maxSerializedSize true).1 < 2 ^ 32 by omega)
  simp [construct, setMembers, hzero]

/-- A fully bound type has room for the header and the largest message, or for the dummy byte. -/
theorem construct_typeSize (hmax : (callbacks.maxSerializedSize true).1 + 5 < 2 ^ 32)
    (hbound : (callbacks.maxSerializedSize true).2 = true) :
    (construct callbacks).typeSize.toNat = 4 + max 1 (callbacks.maxSerializedSize true).1 := by
  have hlt : (callbacks.maxSerializedSize true).1 < 2 ^ 32 := by omega
  have hsize := UInt32.toNat_ofNat_of_lt' hlt
  have hzero := ofNat_eq_zero_iff hlt
  have hfour : (4 : UInt32).toNat = 4 := rfl
  have hone : (1 : UInt32).toNat = 1 := rfl
  simp only [construct, setMembers, hbound, Bool.true_and, beq_iff_eq, hzero]
  split
  · simp only [UInt32.toNat_add, hsize, hfour, hone]
    omega
  · simp only [UInt32.toNat_add, hsize, hfour]
    omega

theorem estimate_of_bound (hmax : (callbacks.maxSerializedSize true).1 + 5 < 2 ^ 32)
    (hbound : (callbacks.maxSerializedSize true).2 = true) (message : Message) :
    (construct callbacks).getEstimatedSerializedSize message callbacks =
      4 + max 1 (callbacks.maxSerializedSize true).1 := by
  unfold getEstimatedSerializedSize
  rw [construct_maxSizeBound, if_pos hbound, construct_typeSize hmax hbound]

theorem estimate_of_not_bound (hbound : (callbacks.maxSerializedSize true).2 = false)
    (message : Message) :
    (construct callbacks).getEstimatedSerializedSize message callbacks =
      4 + callbacks.getSerializedSize message := by
  unfold getEstimatedSerializedSize
  rw [construct_maxSizeBound, if_neg (by simp [hbound])]

/-- Whether or not the type is bound, the estimate leaves room for the header and the message. -/
theorem size_le_estimate {cdr : Fastcdr Format} (h : callbacks.Lawful cdr)
    (hmax : (callbacks.maxSerializedSize true).1 + 5 < 2 ^ 32) (message : Message) :
    4 + callbacks.getSerializedSize message ≤
      (construct callbacks).getEstimatedSerializedSize message callbacks := by
  cases hbound : (callbacks.maxSerializedSize true).2 with
  | true =>
    have hle := h.bound hbound message
    rw [estimate_of_bound hmax hbound message]
    omega
  | false => exact Nat.le_of_eq (estimate_of_not_bound hbound message).symm

/-! ## What the branches write and read -/

variable {support : MyMessageTypeSupport Format Message} {cdr : Fastcdr Format}
  {impl : Callbacks Format Message} {start between after : Format} {header bytes : List UInt8}

theorem serialize_of_hasData {result : Bool} {message : Message} (h : support.hasData = true)
    (hheader : Writes cdr.serializeEncapsulation start header () between)
    (hbytes : Writes (impl.cdrSerialize message) between bytes result after) :
    Writes (support.serializeROSmessage cdr message impl) start (header ++ bytes) result after := by
  apply hheader.bind
  rw [if_pos h]
  exact hbytes

/-- Without data, the dummy byte is written. -/
theorem serialize_of_not_hasData (message : Message) (h : support.hasData = false)
    (hheader : Writes cdr.serializeEncapsulation start header () between)
    (hbyte : Writes (cdr.serializeByte 0) between [0] () after) :
    Writes (support.serializeROSmessage cdr message impl) start (header ++ [0]) true after := by
  apply hheader.bind
  rw [if_neg (by simp [h])]
  exact hbyte.bind (.pure after true)

theorem deserialize_of_hasData {old : Message} {result : Bool × Message}
    (h : support.hasData = true) (hheader : Reads cdr.readEncapsulation start header () between)
    (hbytes : Reads (impl.cdrDeserialize old) between bytes result after) :
    Reads (support.deserializeROSmessage cdr old impl) start (header ++ bytes) result after := by
  apply hheader.bind
  rw [if_pos h]
  exact hbytes

theorem deserialize_of_not_hasData (old : Message) (h : support.hasData = false)
    (hheader : Reads cdr.readEncapsulation start header () between) {dump : UInt8}
    (hbyte : Reads cdr.deserializeByte between [dump] dump after) :
    Reads (support.deserializeROSmessage cdr old impl) start (header ++ [dump]) (true, old)
      after := by
  apply hheader.bind
  rw [if_neg (by simp [h])]
  exact hbyte.bind (.pure after (true, old))

end MyMessageTypeSupport

/-- The messages of a type that is fully bound and of size 0 are all read from no bytes. -/
theorem Callbacks.Lawful.eq_of_size_zero {cdr : Fastcdr Format} {callbacks : Callbacks Format Message}
    (h : callbacks.Lawful cdr) (hcdr : cdr.Symmetric) {format : Format} (hformat : cdr.Fresh format)
    (hbound : (callbacks.maxSerializedSize true).2 = true)
    (hzero : (callbacks.maxSerializedSize true).1 = 0) (message other : Message) :
    message = other := by
  obtain ⟨header, after, -, hheader, -⟩ := hcdr.header format hformat
  have hread (value : Message) :
      ∃ last, Reads (callbacks.cdrDeserialize message) after [] (true, value) last := by
    obtain ⟨bytes, -, last, hlength, -, hbytes⟩ := h.undoes value format header after hformat hheader
    have hle := h.bound hbound value
    have hnil : bytes = [] := List.length_eq_zero_iff.mp (by omega)
    rw [hnil] at hbytes
    exact ⟨last, hbytes message⟩
  obtain ⟨last, hmessage⟩ := hread message
  obtain ⟨last', hother⟩ := hread other
  exact congrArg Prod.snd (hmessage.unique hother)

/-- A message is written in as many bytes as were estimated for it at most, and read back from
exactly these bytes. -/
theorem deserialize_undoes_serialize {cdr : Fastcdr Format} {callbacks : Callbacks Format Message}
    (hcdr : cdr.Symmetric) (h : callbacks.Lawful cdr)
    (hmax : (callbacks.maxSerializedSize true).1 + 5 < 2 ^ 32) (message : Message)
    (format : Format) (hformat : cdr.Fresh format) :
    ∃ bytes after,
      Writes ((MyMessageTypeSupport.construct callbacks).serializeROSmessage cdr message callbacks)
        format bytes true after ∧
      bytes.length ≤ (MyMessageTypeSupport.construct callbacks).getEstimatedSerializedSize message
        callbacks ∧
      ∀ old other, cdr.Fresh other → ∃ last,
        Reads ((MyMessageTypeSupport.construct callbacks).deserializeROSmessage cdr old callbacks)
          other bytes (true, message) last := by
  obtain ⟨header, between, hfour, hheader, hread⟩ := hcdr.header format hformat
  obtain ⟨bytes, after, last, hlength, hbytes, hmessage⟩ :=
    h.undoes message format header between hformat hheader
  cases hdata : (MyMessageTypeSupport.construct callbacks).hasData with
  | true =>
    apply Exists.intro (header ++ bytes)
    refine ⟨after, MyMessageTypeSupport.serialize_of_hasData hdata hheader hbytes, ?_, ?_⟩
    · rw [List.length_append, hfour, hlength]
      exact MyMessageTypeSupport.size_le_estimate h hmax message
    · intro old other hother
      have hheader' := hread other hother
      exact ⟨last, MyMessageTypeSupport.deserialize_of_hasData hdata hheader' (hmessage old)⟩
  | false =>
    obtain ⟨hbound, hzero⟩ := (MyMessageTypeSupport.construct_hasData_eq_false_iff hmax).mp hdata
    obtain ⟨last', hbyte, hdump⟩ := hcdr.byte between 0
    apply Exists.intro (header ++ [0])
    refine ⟨last', MyMessageTypeSupport.serialize_of_not_hasData message hdata hheader hbyte, ?_, ?_⟩
    · rw [MyMessageTypeSupport.estimate_of_bound hmax hbound, List.length_append, hfour, hzero]
      decide
    · intro old other hother
      have hheader' := hread other hother
      rw [h.eq_of_size_zero hcdr hformat hbound hzero message old]
      exact ⟨last', MyMessageTypeSupport.deserialize_of_not_hasData old hdata hheader' hdump⟩

/-! ## Messages of one byte -/

inductive Endianness where
  | big
  | little
  deriving DecidableEq, Repr

/-- The second byte of the header says in which order the bytes of a number come. -/
def endianCdr : Fastcdr Endianness where
  Fresh _ := True
  serializeEncapsulation := modify fun ser ↦
    { ser with written := ser.written ++ [0, if ser.format = .little then 1 else 0, 0, 0] }
  readEncapsulation := do
    let _dummy ← readByte
    let kind ← readByte
    let _options ← readByte
    let _options ← readByte
    modify fun deser ↦ { deser with format := if kind = 1 then .little else .big }
  serializeByte := writeByte
  deserializeByte := readByte

theorem endianCdr_symmetric : endianCdr.Symmetric where
  header format _ := by
    apply Exists.intro [0, if format = .little then 1 else 0, 0, 0]
    refine ⟨format, rfl, fun written ↦ rfl, fun other _ rest ↦ ?_⟩
    cases format with
    | big => rfl
    | little => rfl
  byte format byte := ⟨format, .byte format byte, .byte format byte⟩

/-- The callbacks of a message with one field of type `octet`. -/
def octetCallbacks : Callbacks Endianness UInt8 where
  messageNamespace := "message::msg"
  messageName := "Octet"
  cdrSerialize octet := do
    writeByte octet
    return true
  cdrDeserialize _old := do
    let octet ← readByte
    return (true, octet)
  getSerializedSize _octet := 1
  maxSerializedSize fullBounded := (1, fullBounded)

theorem octetCallbacks_lawful : octetCallbacks.Lawful endianCdr where
  undoes octet _ _ format _ _ := by
    refine ⟨[octet], format, format, rfl, (Writes.byte format octet).bind (.pure format true), ?_⟩
    intro old
    exact (Reads.byte format octet).bind (.pure format (true, octet))
  bound _ _ := Nat.le_refl 1

theorem deserialize_undoes_serialize_octet :
    ∃ bytes after,
      Writes ((MyMessageTypeSupport.construct octetCallbacks).serializeROSmessage endianCdr 7
        octetCallbacks) .little bytes true after ∧
      bytes.length ≤ (MyMessageTypeSupport.construct octetCallbacks).getEstimatedSerializedSize 7
        octetCallbacks ∧
      ∀ old other, endianCdr.Fresh other → ∃ last,
        Reads ((MyMessageTypeSupport.construct octetCallbacks).deserializeROSmessage endianCdr old
          octetCallbacks) other bytes (true, 7) last :=
  deserialize_undoes_serialize endianCdr_symmetric octetCallbacks_lawful (by decide) 7 .little
    trivial

end LayerPingPong.FastrtpsPubsub
