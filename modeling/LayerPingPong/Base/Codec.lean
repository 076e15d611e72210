import Mathlib.Algebra.Order.Ring.Int
import Mathlib.Data.List.Basic

/-!
# Serializers and deserializers

A serializer appends bytes to a buffer, and a deserializer takes bytes from the front of one. Both
carry a format, which says how the next bytes are laid out. What is written and what is read is
described by the bytes alone, whatever stands before or after them, so that descriptions compose.
-/

namespace LayerPingPong.Codec

structure Writer (Format : Type) where
  format : Format
  written : List UInt8

structure Reader (Format : Type) where
  format : Format
  unread : List UInt8

abbrev Serializer (Format : Type) := StateM (Writer Format)

/-- The result `none` is the exception thrown where bytes are missing. -/
abbrev Deserializer (Format : Type) := StateT (Reader Format) Option

variable {Format α β : Type}

def writeByte (byte : UInt8) : Serializer Format Unit :=
  modify fun ser ↦ { ser with written := ser.written ++ [byte] }

def readByte : Deserializer Format UInt8 := fun deser ↦
  match deser.unread with
  | [] => none
  | byte :: rest => some (byte, { deser with unread := rest })

/-- In the format `before` the serializer appends these bytes and returns `value`. -/
def Writes (write : Serializer Format α) (before : Format) (bytes : List UInt8) (value : α)
    (after : Format) : Prop :=
  ∀ written, write.run ⟨before, written⟩ = (value, ⟨after, written ++ bytes⟩)

/-- In the format `before` the deserializer takes exactly these bytes and returns `value`. -/
def Reads (read : Deserializer Format α) (before : Format) (bytes : List UInt8) (value : α)
    (after : Format) : Prop :=
  ∀ rest, read.run ⟨before, bytes ++ rest⟩ = some (value, ⟨after, rest⟩)

/-! ## Serializers in sequence -/

theorem Writes.pure (format : Format) (value : α) :
    Writes (Pure.pure value) format [] value format := by
  intro written
  rw [List.append_nil]
  rfl

theorem Writes.byte (format : Format) (byte : UInt8) :
    Writes (writeByte byte) format [byte] () format := by
  intro written
  rfl

theorem Writes.bind {first : Serializer Format α} {next : α → Serializer Format β}
    {before between after : Format} {head tail : List UInt8} {value : α} {result : β}
    (hfirst : Writes first before head value between)
    (hnext : Writes (next value) between tail result after) :
    Writes (first >>= next) before (head ++ tail) result after := by
  intro written
  calc
    (first >>= next).run ⟨before, written⟩ =
        (next value).run ⟨between, written ++ head⟩ := by
      rw [StateT.run_bind, hfirst written]
      rfl
    _ = (result, ⟨after, written ++ (head ++ tail)⟩) := by
      rw [hnext (written ++ head), List.append_assoc]

/-! ## Deserializers in sequence -/

theorem Reads.pure (format : Format) (value : α) :
    Reads (Pure.pure value) format [] value format := by
  intro rest
  simp

theorem Reads.byte (format : Format) (byte : UInt8) :
    Reads readByte format [byte] byte format := by
  intro rest
  rfl

theorem Reads.bind {first : Deserializer Format α} {next : α → Deserializer Format β}
    {before between after : Format} {head tail : List UInt8} {value : α} {result : β}
    (hfirst : Reads first before head value between)
    (hnext : Reads (next value) between tail result after) :
    Reads (first >>= next) before (head ++ tail) result after := by
  intro rest
  calc
    (first >>= next).run ⟨before, head ++ tail ++ rest⟩ =
        (next value).run ⟨between, tail ++ rest⟩ := by
      rw [StateT.run_bind, List.append_assoc, hfirst (tail ++ rest)]
      rfl
    _ = some (result, ⟨after, rest⟩) := hnext rest

/-- The bytes determine what is read from them. -/
theorem Reads.unique {read : Deserializer Format α} {before after after' : Format}
    {bytes : List UInt8} {value value' : α} (h : Reads read before bytes value after)
    (h' : Reads read before bytes value' after') : value = value' := by
  have hrun : some (value, (⟨after, []⟩ : Reader Format)) = some (value', ⟨after', []⟩) :=
    (h []).symm.trans (h' [])
  exact congrArg Prod.fst (Option.some.inj hrun)

/-! ## Several bytes -/

def writeBytes (bytes : List UInt8) : Serializer Format Unit :=
  modify fun ser ↦ { ser with written := ser.written ++ bytes }

def readBytes : ℕ → Deserializer Format (List UInt8)
  | 0 => return []
  | count + 1 => do
    let byte ← readByte
    let bytes ← readBytes count
    return byte :: bytes

theorem Writes.bytes (format : Format) (bytes : List UInt8) :
    Writes (writeBytes bytes) format bytes () format := by
  intro written
  rfl

theorem Reads.bytes (format : Format) (bytes : List UInt8) :
    Reads (readBytes bytes.length) format bytes bytes format := by
  induction bytes with
  | nil => exact .pure format []
  | cons byte bytes ih =>
    have hrest : Reads (do return byte :: (← readBytes bytes.length)) format (bytes ++ [])
        (byte :: bytes) format := ih.bind (.pure format (byte :: bytes))
    rw [List.append_nil] at hrest
    exact (Reads.byte format byte).bind hrest

/-! ## Numbers -/

/-- The lowest bytes of a number, the lowest one first. -/
def littleEndian : ℕ → ℕ → List UInt8
  | 0, _ => []
  | count + 1, value => UInt8.ofNat value :: littleEndian count (value / 256)

def ofLittleEndian : List UInt8 → ℕ
  | [] => 0
  | byte :: bytes => byte.toNat + 256 * ofLittleEndian bytes

theorem length_littleEndian (count value : ℕ) : (littleEndian count value).length = count := by
  induction count generalizing value with
  | zero => rfl
  | succ count ih => rw [littleEndian, List.length_cons, ih]

theorem ofLittleEndian_littleEndian {count value : ℕ} (h : value < 256 ^ count) :
    ofLittleEndian (littleEndian count value) = value := by
  induction count generalizing value with
  | zero =>
    rw [pow_zero, Nat.lt_one_iff] at h
    rw [h]
    rfl
  | succ count ih =>
    have hrest : value / 256 < 256 ^ count := by
      rw [Nat.div_lt_iff_lt_mul (by decide)]
      rwa [pow_succ] at h
    rw [littleEndian, ofLittleEndian, ih hrest, UInt8.toNat_ofNat']
    exact Nat.mod_add_div value 256

/-! ## Pieces that end with a mark -/

/-- What stands before the first mark, and what stands after it. -/
theorem append_cons_inj {mark : α} {first second rest rest' : List α} (hfirst : mark ∉ first)
    (hsecond : mark ∉ second) :
    first ++ mark :: rest = second ++ mark :: rest' ↔ first = second ∧ rest = rest' := by
  constructor
  · intro h
    induction first generalizing second with
    | nil =>
      cases second with
      | nil => exact ⟨rfl, (List.cons.inj h).2⟩
      | cons value second => exact absurd List.mem_cons_self ((List.cons.inj h).1 ▸ hsecond)
    | cons value first ih =>
      cases second with
      | nil => exact absurd List.mem_cons_self ((List.cons.inj h).1 ▸ hfirst)
      | cons value' second =>
        obtain ⟨rfl, htail⟩ := List.cons.inj h
        rw [List.mem_cons, not_or] at hfirst hsecond
        obtain ⟨rfl, hrest⟩ := ih hfirst.2 hsecond.2 htail
        exact ⟨rfl, hrest⟩
  · rintro ⟨rfl, rfl⟩
    rfl

/-- Pieces without marks can be told apart when a mark ends each of them. -/
theorem flatMap_concat_inj {mark : α} {pieces others : List (List α)}
    (hpieces : ∀ piece ∈ pieces, mark ∉ piece) (hothers : ∀ piece ∈ others, mark ∉ piece) :
    pieces.flatMap (· ++ [mark]) = others.flatMap (· ++ [mark]) ↔ pieces = others := by
  constructor
  · intro h
    induction pieces generalizing others with
    | nil =>
      cases others with
      | nil => rfl
      | cons other others => simp at h
    | cons piece pieces ih =>
      cases others with
      | nil => simp at h
      | cons other others =>
        rw [List.forall_mem_cons] at hpieces hothers
        simp only [List.flatMap_cons, List.append_assoc, List.singleton_append] at h
        obtain ⟨hpiece, hrest⟩ := (append_cons_inj hpieces.1 hothers.1).mp h
        rw [hpiece, ih hpieces.2 hothers.2 hrest]
  · intro h
    rw [h]

end LayerPingPong.Codec
