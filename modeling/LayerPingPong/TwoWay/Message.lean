import Mathlib.Algebra.Order.Ring.Int

/-!
# Messages and latencies

A time of the monotonic clock is a number of nanoseconds. It is read as a `uint64_t`, stored in
`int64_t` fields of the message and converted back for the subtraction, which is modular. Below
`2 ^ 63` nanoseconds neither conversion loses anything.
-/

namespace LayerPingPong.TwoWay

/-- `message::msg::Data`. -/
structure Data where
  timeSentNs : Int64
  timeSentPongNs : Int64
  data : Int64
  deriving DecidableEq, Repr, Inhabited

/-- `timespec_to_uint64` of a clock reading. -/
def timespecToUint64 (clock : ℕ) : UInt64 := UInt64.ofNat clock

/-- A clock reading in a field of type `int64`. -/
def stamp (clock : ℕ) : Int64 := (timespecToUint64 clock).toInt64

/-- `sub_time - msg->time_sent_ns`, in which the signed operand becomes a `uint64_t`. -/
def latency (subTime : UInt64) (message : Data) : UInt64 := subTime - message.timeSentNs.toUInt64

theorem timespecToUint64_toNat {clock : ℕ} (h : clock < 2 ^ 63) :
    (timespecToUint64 clock).toNat = clock :=
  UInt64.toNat_ofNat_of_lt (h.trans (by decide))

theorem stamp_toInt {clock : ℕ} (h : clock < 2 ^ 63) : (stamp clock).toInt = clock :=
  Int64.toInt_ofNat_of_lt h

/-- The latency of a message stamped before it was received does not wrap. -/
theorem latency_toNat {message : Data} {sendClock receiveClock : ℕ}
    (hstamp : message.timeSentNs = stamp sendClock) (hle : sendClock ≤ receiveClock)
    (hlt : receiveClock < 2 ^ 63) :
    (latency (timespecToUint64 receiveClock) message).toNat = receiveClock - sendClock := by
  have hsend := timespecToUint64_toNat (hle.trans_lt hlt)
  have hreceive := timespecToUint64_toNat hlt
  have hfield : message.timeSentNs.toUInt64 = timespecToUint64 sendClock := by
    rw [hstamp, stamp, UInt64.toUInt64_toInt64]
  rw [latency, hfield, UInt64.toNat_sub_of_le, hsend, hreceive]
  rw [UInt64.le_iff_toNat_le, hsend, hreceive]
  exact hle

end LayerPingPong.TwoWay
