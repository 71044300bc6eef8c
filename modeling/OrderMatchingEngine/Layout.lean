import Mathlib.Data.List.TakeWhile
import OrderMatchingEngine.ClientGateway
import OrderMatchingEngine.Library.StructFormat

/-!
# OrderMatchingEngine.Layout

The bytes of the messages that the engine sends.

`sendPacket` gets the memory of a packed struct. What the handlers assign stands at the offsets of
its fields; every other byte is what the memory held before, since the structs are local variables
without an initialiser. `junk` is that memory, by offset.

Design points:

* A field of characters is as long as the struct says, of which `strncpy` assigned the front.
* Of the entries of a snapshot's ladders the assigned ones come first.
* `Price.bits` are the bits of one double with that value, as `Price.ofBits` reads them; 0.0 stands
  for -0.0 too, and one NaN for all.
-/

namespace OrderMatchingEngine

open StructFormat (encode length_encode)

/-! ### Doubles -/

theorem magnitude_toNat (bits : UInt64) : (magnitude bits).toNat = bits.toNat % 2 ^ 63 := by
  rw [magnitude, UInt64.toNat_and]
  exact Nat.and_two_pow_sub_one_eq_mod bits.toNat 63

/-- The price is the value of some double. -/
def Price.IsDouble (p : Price Int) : Prop := ∃ bits, p = .ofBits bits

/-- The bits of a double with this value. -/
def Price.bits : Price Int → UInt64
  | .nan => 0x7ff8000000000000
  | .num a => if 0 ≤ a then .ofNat a.toNat else 0x8000000000000000 + .ofNat (-a).toNat

theorem Price.ofBits_of_magnitude {bits : UInt64} {m : Nat} (hm : bits.toNat % 2 ^ 63 = m)
    (hle : m ≤ 0x7ff0000000000000) :
    Price.ofBits bits = if bits.toNat < 2 ^ 63 then .num (m : Int) else .num (-(m : Int)) := by
  have hmag : (magnitude bits).toNat = m := (magnitude_toNat bits).trans hm
  have hgt : ¬ magnitude bits > 0x7ff0000000000000 := by
    rw [gt_iff_lt, UInt64.lt_iff_toNat_lt, hmag]
    exact Nat.not_lt.mpr hle
  have hpos : bits = magnitude bits ↔ bits.toNat < 2 ^ 63 := by
    rw [← UInt64.toNat_inj, hmag]
    omega
  rw [ofBits, if_neg hgt, hmag]
  exact if_congr hpos rfl rfl

/-- **The bits of a double give it back.** -/
theorem Price.ofBits_bits {p : Price Int} (h : p.IsDouble) : Price.ofBits p.bits = p := by
  obtain ⟨bits, rfl⟩ := h
  obtain ⟨m, hm⟩ : ∃ m, bits.toNat % 2 ^ 63 = m := ⟨_, rfl⟩
  have hlt : m < 2 ^ 63 := hm ▸ Nat.mod_lt _ (by decide)
  have hsmall : (UInt64.ofNat m).toNat = m :=
    Nat.mod_eq_of_lt (Nat.lt_trans hlt (by decide))
  by_cases hle : m ≤ 0x7ff0000000000000
  · have hnat : Price.ofBits (.ofNat m) = .num (m : Int) := by
      rw [ofBits_of_magnitude (m := m) (by rw [hsmall, Nat.mod_eq_of_lt hlt]) hle, hsmall,
        if_pos hlt]
    have hbits : (Price.num (m : Int)).bits = .ofNat m := by
      rw [Price.bits, if_pos (Int.natCast_nonneg m), Int.toNat_natCast]
    rw [ofBits_of_magnitude hm hle]
    split
    · rw [hbits, hnat]
    · rcases Nat.eq_zero_or_pos m with rfl | hpos
      · rfl
      · have hneg : (Price.num (-(m : Int))).bits = 0x8000000000000000 + .ofNat m := by
          rw [Price.bits, if_neg (by omega), Int.neg_neg, Int.toNat_natCast]
        have hsum : (0x8000000000000000 + UInt64.ofNat m).toNat = 2 ^ 63 + m := by
          rw [UInt64.toNat_add, hsmall, show (0x8000000000000000 : UInt64).toNat = 2 ^ 63 from rfl]
          exact Nat.mod_eq_of_lt (by omega)
        rw [hneg, ofBits_of_magnitude (m := m) (by rw [hsum]; omega) hle, hsum,
          if_neg (by omega)]
  · have hnan : Price.ofBits bits = .nan := by
      rw [ofBits, if_pos]
      rw [gt_iff_lt, UInt64.lt_iff_toNat_lt, magnitude_toNat, hm]
      exact Nat.not_le.mp hle
    rw [hnan]
    rfl

/-! ### Fields -/

/-- Bytes that were not assigned. -/
def unassigned (junk : Nat → UInt8) (offset size : Nat) : List UInt8 :=
  (List.range size).map fun i => junk (offset + i)

@[simp] theorem length_unassigned (junk : Nat → UInt8) (offset size : Nat) :
    (unassigned junk offset size).length = size := by
  rw [unassigned, List.length_map, List.length_range]

/-- A field of characters at `offset`, the front of which was assigned. -/
def characters (junk : Nat → UInt8) (offset size : Nat) (assigned : List UInt8) : List UInt8 :=
  assigned ++ unassigned junk (offset + assigned.length) (size - assigned.length)

theorem length_characters (junk : Nat → UInt8) (offset : Nat) {size : Nat} {assigned : List UInt8}
    (h : assigned.length ≤ size) : (characters junk offset size assigned).length = size := by
  rw [characters, List.length_append, length_unassigned]
  omega

/-- The value of `enum class MessageType`. -/
def MessageType.code : MessageType → UInt8
  | .loginResponse => 82
  | .executionReport => 69
  | .marketDataSnapshot => 83
  | .tradeUpdate => 84

/-- The bytes of a `MessageHeader`. -/
def MessageHeader.bytes (header : MessageHeader) : List UInt8 :=
  encode 2 header.seqNum.toNat ++ [header.type.code] ++ encode 2 header.msgLen.toNat

@[simp] theorem MessageHeader.length_bytes (header : MessageHeader) : header.bytes.length = 5 := by
  simp [bytes]

/-- The bytes of an `L2Entry`. -/
def entryBytes (entry : Price Int × Quantity) : List UInt8 :=
  encode 8 entry.1.bits.toNat ++ encode 8 entry.2.toNat

@[simp] theorem length_entryBytes (entry : Price Int × Quantity) :
    (entryBytes entry).length = 16 := by
  simp [entryBytes]

/-- The bytes of an `L2Entry[5]` at `offset`, the front of which was assigned. -/
def ladderBytes (junk : Nat → UInt8) (offset : Nat) (entries : List (Price Int × Quantity)) :
    List UInt8 :=
  entries.flatMap entryBytes ++
    unassigned junk (offset + 16 * entries.length) (16 * (5 - entries.length))

theorem length_flatMap_entryBytes (entries : List (Price Int × Quantity)) :
    (entries.flatMap entryBytes).length = 16 * entries.length := by
  induction entries with
  | nil => rfl
  | cons entry entries ih =>
      rw [List.flatMap_cons, List.length_append, length_entryBytes, ih, List.length_cons]
      omega

theorem length_ladderBytes (junk : Nat → UInt8) (offset : Nat)
    {entries : List (Price Int × Quantity)} (h : entries.length ≤ 5) :
    (ladderBytes junk offset entries).length = 80 := by
  rw [ladderBytes, List.length_append, length_flatMap_entryBytes, length_unassigned]
  omega

/-! ### Messages -/

section Messages

variable (junk : Nat → UInt8)

/-- The bytes of a `LoginResponse`. -/
def LoginResponse.bytes (resp : LoginResponse) : List UInt8 :=
  resp.header.bytes ++ ([resp.status] ++ characters junk 6 50 resp.message)

/-- The bytes of an `ExecutionReport`. -/
def ExecutionReport.bytes (report : ExecutionReport) : List UInt8 :=
  report.header.bytes ++ (encode 8 report.clientOrderId.toNat ++ (encode 8 report.userId.toNat ++
    (encode 8 report.executionId.toNat ++ (characters junk 29 10 report.symbol ++
      ([report.side] ++ (encode 8 report.price.bits.toNat ++ (encode 8 report.quantity.toNat ++
        (encode 8 report.filledQuantity.toNat ++ [report.status]))))))))

/-- The bytes of a `MarketDataSnapshot`. -/
def MarketDataSnapshot.bytes (snapshot : MarketDataSnapshot) : List UInt8 :=
  snapshot.header.bytes ++ (characters junk 5 10 snapshot.symbol ++
    (encode 4 snapshot.numBids.toNat ++ (encode 4 snapshot.numAsks.toNat ++
      (ladderBytes junk 23 snapshot.bids ++ ladderBytes junk 103 snapshot.asks))))

/-- The bytes of a `TradeUpdate`. -/
def TradeUpdate.bytes (msg : TradeUpdate) : List UInt8 :=
  msg.header.bytes ++ (characters junk 5 10 msg.symbol ++ (encode 8 msg.price.bits.toNat ++
    (encode 8 msg.quantity.toNat ++ (encode 8 msg.timestamp.toNat ++ [msg.makeSide]))))

/-- The bytes that `sendPacket` is given. -/
def Message.bytes : Message → List UInt8
  | .loginResponse resp => resp.bytes junk
  | .executionReport report => report.bytes junk
  | .marketDataSnapshot snapshot => snapshot.bytes junk
  | .tradeUpdate msg => msg.bytes junk

end Messages

/-! ### Copied strings -/

theorem length_strncpy (src : List UInt8) (n : Nat) : (strncpy src n).length = n := by
  unfold strncpy
  dsimp only
  rw [List.length_append, List.length_replicate, List.length_take]
  omega

/-- A string without NULs is copied as far as there is room. -/
theorem strncpy_of_ne_zero {src : List UInt8} (h : ∀ byte ∈ src, byte ≠ 0) (n : Nat) :
    strncpy src n = src.take n ++ List.replicate (n - src.length) 0 := by
  have hall : src.takeWhile (· ≠ 0) = src :=
    List.takeWhile_eq_self_iff.mpr fun byte hbyte => by simpa using h byte hbyte
  unfold strncpy
  dsimp only
  rw [hall, List.length_take]
  congr 2
  omega

end OrderMatchingEngine
