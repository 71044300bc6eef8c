import Mathlib.Data.UInt
import Mathlib.Tactic.Common

/-!
# Library.StructFormat

Binary layouts without padding, as a format string describes them (`<HBH`, `<10sII`).

A format is a list of items of fixed width: little-endian unsigned numbers, doubles (kept as their
bits) and byte strings. `pack` writes values one behind the other and gives up where a value does
not suit its item; a byte string is cut, or filled up with zeros, to the width of its item.
`unpack` reads exactly as many bytes as the format has.

`unpack_pack` is the round trip. `unpack_cons` reads a layout that was written by other means, one
item at a time, and `unpack_eq_readAt` says at which offsets the items are.
-/

namespace StructFormat

/-! ### Little-endian numbers -/

/-- The `width` low bytes of a number, least significant first. -/
def encode : Nat → Nat → List UInt8
  | 0, _ => []
  | width + 1, n => .ofNat n :: encode width (n / 256)

/-- The number that bytes spell, least significant first. -/
def decode : List UInt8 → Nat
  | [] => 0
  | byte :: bytes => byte.toNat + 256 * decode bytes

@[simp] theorem length_encode (width n : Nat) : (encode width n).length = width := by
  induction width generalizing n with
  | zero => rfl
  | succ width ih => rw [encode, List.length_cons, ih]

theorem decode_encode (width n : Nat) : decode (encode width n) = n % 256 ^ width := by
  induction width generalizing n with
  | zero => rw [encode, decode, Nat.pow_zero, Nat.mod_one]
  | succ width ih =>
      rw [encode, decode, ih, Nat.pow_succ', Nat.mod_mul]
      rfl

theorem decode_encode_of_lt {width n : Nat} (h : n < 256 ^ width) :
    decode (encode width n) = n := by
  rw [decode_encode, Nat.mod_eq_of_lt h]

@[simp] theorem decode_encode_uint64 (n : UInt64) : decode (encode 8 n.toNat) = n.toNat :=
  decode_encode_of_lt n.toNat_lt

theorem decode_lt (bytes : List UInt8) : decode bytes < 256 ^ bytes.length := by
  induction bytes with
  | nil => exact Nat.one_pos
  | cons byte bytes ih =>
      have hbyte := byte.toNat_lt
      rw [decode, List.length_cons, Nat.pow_succ']
      omega

/-- A number is zero if all its bytes are. -/
theorem decode_eq_zero {bytes : List UInt8} : decode bytes = 0 ↔ ∀ byte ∈ bytes, byte = 0 := by
  induction bytes with
  | nil => simp [decode]
  | cons byte bytes ih =>
      have hzero : byte.toNat = 0 ↔ byte = 0 := by rw [← UInt8.toNat_inj]; rfl
      rw [decode, List.forall_mem_cons, ← ih, ← hzero]
      omega

/-! ### Formats -/

/-- An item of a format. -/
inductive Code
  /-- `B`, `H`, `I` and `Q`: an unsigned number of so many bytes. -/
  | uint (width : Nat)
  /-- `d`. -/
  | double
  /-- `10s`: so many bytes. -/
  | bytes (width : Nat)
  deriving DecidableEq, Repr

/-- What an item holds. -/
inductive Value
  | int (n : Nat)
  | double (bits : UInt64)
  | bytes (bytes : List UInt8)
  deriving DecidableEq, Repr

/-- The bytes of an item. -/
def Code.width : Code → Nat
  | uint width => width
  | double => 8
  | bytes width => width

/-- The bytes of a format. -/
def size (format : List Code) : Nat := (format.map Code.width).sum

/-- A byte string, cut or filled up with zeros. -/
def fit (width : Nat) (bytes : List UInt8) : List UInt8 :=
  bytes.take width ++ List.replicate (width - bytes.length) 0

@[simp] theorem length_fit (width : Nat) (bytes : List UInt8) :
    (fit width bytes).length = width := by
  rw [fit, List.length_append, List.length_take, List.length_replicate]
  omega

/-- A byte string of the width stays as it is. -/
theorem fit_eq_self {width : Nat} {bytes : List UInt8} (h : bytes.length = width) :
    fit width bytes = bytes := by
  rw [fit, h, Nat.sub_self, List.replicate_zero, List.append_nil,
    List.take_of_length_le (Nat.le_of_eq h)]

/-- Write one value; `none` if it does not suit the item. -/
def packItem : Code → Value → Option (List UInt8)
  | .uint width, .int n => if n < 256 ^ width then some (encode width n) else none
  | .double, .double bits => some (encode 8 bits.toNat)
  | .bytes width, .bytes bytes => some (fit width bytes)
  | _, _ => none

/-- `struct.pack`. -/
def pack : List Code → List Value → Option (List UInt8)
  | [], [] => some []
  | code :: format, value :: values =>
    match packItem code value, pack format values with
    | some item, some rest => some (item ++ rest)
    | _, _ => none
  | _, _ => none

/-- Read the bytes of one item. -/
def unpackItem : Code → List UInt8 → Value
  | .uint _, item => .int (decode item)
  | .double, item => .double (.ofNat (decode item))
  | .bytes _, item => .bytes item

/-- `struct.unpack`, which takes as many bytes as the format has. -/
def unpack : List Code → List UInt8 → Option (List Value)
  | [], [] => some []
  | [], _ :: _ => none
  | code :: format, data =>
    if data.length < code.width then none
    else (unpack format (data.drop code.width)).map (unpackItem code (data.take code.width) :: ·)

/-- **One item at a time.** -/
theorem unpack_cons (code : Code) (format : List Code) {item : List UInt8}
    (h : item.length = code.width) (rest : List UInt8) :
    unpack (code :: format) (item ++ rest) =
      (unpack format rest).map (unpackItem code item :: ·) := by
  rw [unpack, if_neg (by rw [List.length_append]; omega), ← h, List.drop_left, List.take_left]

/-- The items at their offsets: the first one at `offset`, the others behind it. -/
def readAt (data : List UInt8) : Nat → List Code → List Value
  | _, [] => []
  | offset, code :: format =>
    unpackItem code ((data.drop offset).take code.width) ::
      readAt data (offset + code.width) format

/-- **Unpacking reads every item at its offset.** -/
theorem unpack_eq_readAt {format : List Code} {data : List UInt8} (h : data.length = size format) :
    unpack format data = some (readAt data 0 format) := by
  suffices hgen : ∀ offset, (data.drop offset).length = size format →
      unpack format (data.drop offset) = some (readAt data offset format) by
    simpa using hgen 0 (by simpa using h)
  clear h
  induction format with
  | nil =>
      intro offset h
      rw [List.eq_nil_of_length_eq_zero h]
      rfl
  | cons code format ih =>
      intro offset h
      have hsize : size (code :: format) = code.width + size format := by
        rw [size, List.map_cons, List.sum_cons, size]
      have hrest : (data.drop (offset + code.width)).length = size format := by
        rw [List.length_drop] at h ⊢
        omega
      rw [unpack, if_neg (by omega), List.drop_drop, ih _ hrest]
      rfl

/-- What is unpacked is as long as the format says. -/
theorem length_of_unpack {format : List Code} {data : List UInt8} {values : List Value}
    (h : unpack format data = some values) : data.length = size format := by
  induction format generalizing data values with
  | nil =>
      cases data with
      | nil => rfl
      | cons byte data => simp [unpack] at h
  | cons code format ih =>
      rw [unpack] at h
      split at h
      · simp at h
      · obtain ⟨rest, hrest, -⟩ := Option.map_eq_some_iff.mp h
        have hlen := ih hrest
        rw [List.length_drop] at hlen
        rw [size, List.map_cons, List.sum_cons, ← size]
        omega

/-- A value as its item keeps it. -/
def store : Code → Value → Value
  | .bytes width, .bytes bytes => .bytes (fit width bytes)
  | _, value => value

/-- What `packItem` writes has the width of the item, and reads as the value. -/
theorem packItem_spec {code : Code} {value : Value} {item : List UInt8}
    (h : packItem code value = some item) :
    item.length = code.width ∧ unpackItem code item = store code value := by
  cases code with
  | uint width =>
      cases value with
      | int n =>
          rw [packItem] at h
          split at h
          · rename_i hlt
            obtain rfl := Option.some.inj h
            exact ⟨length_encode width n, congrArg Value.int (decode_encode_of_lt hlt)⟩
          · simp at h
      | double bits => simp [packItem] at h
      | bytes bytes => simp [packItem] at h
  | double =>
      cases value with
      | double bits =>
          obtain rfl := Option.some.inj h
          refine ⟨length_encode 8 _, ?_⟩
          rw [unpackItem, decode_encode_uint64, UInt64.ofNat_toNat]
          rfl
      | int n => simp [packItem] at h
      | bytes bytes => simp [packItem] at h
  | bytes width =>
      cases value with
      | bytes bytes =>
          obtain rfl := Option.some.inj h
          exact ⟨length_fit width bytes, rfl⟩
      | int n => simp [packItem] at h
      | double bits => simp [packItem] at h

theorem pack_cons_eq_some {code : Code} {format : List Code} {value : Value} {values : List Value}
    {data : List UInt8} : pack (code :: format) (value :: values) = some data ↔
      ∃ item rest, packItem code value = some item ∧ pack format values = some rest ∧
        data = item ++ rest := by
  rw [pack]
  cases packItem code value <;> cases pack format values <;> simp [eq_comm]

/-- **Round trip.** What was packed is unpacked, with byte strings as their items keep them. -/
theorem unpack_pack {format : List Code} {values : List Value} {data : List UInt8}
    (h : pack format values = some data) :
    unpack format data = some (List.zipWith store format values) := by
  induction format generalizing values data with
  | nil =>
      cases values with
      | nil =>
          obtain rfl := Option.some.inj h
          rfl
      | cons value values => simp [pack] at h
  | cons code format ih =>
      cases values with
      | nil => simp [pack] at h
      | cons value values =>
          obtain ⟨item, rest, hitem, hrest, rfl⟩ := pack_cons_eq_some.mp h
          obtain ⟨hwidth, hread⟩ := packItem_spec hitem
          rw [unpack_cons code format hwidth, ih hrest, hread]
          rfl

/-- What is packed is as long as the format says. -/
theorem length_pack {format : List Code} {values : List Value} {data : List UInt8}
    (h : pack format values = some data) : data.length = size format := by
  induction format generalizing values data with
  | nil =>
      cases values with
      | nil =>
          obtain rfl := Option.some.inj h
          rfl
      | cons value values => simp [pack] at h
  | cons code format ih =>
      cases values with
      | nil => simp [pack] at h
      | cons value values =>
          obtain ⟨item, rest, hitem, hrest, rfl⟩ := pack_cons_eq_some.mp h
          rw [List.length_append, (packItem_spec hitem).1, ih hrest, size, size, List.map_cons,
            List.sum_cons]

/-- What was packed, read at the offsets of the items. -/
theorem readAt_pack {format : List Code} {values : List Value} {data : List UInt8}
    (h : pack format values = some data) :
    readAt data 0 format = List.zipWith store format values :=
  Option.some.inj ((unpack_eq_readAt (length_pack h)).symm.trans (unpack_pack h))

/-- The value can be written into the item. -/
def Suits : Code → Value → Prop
  | .uint width, .int n => n < 256 ^ width
  | .double, .double _ => True
  | .bytes _, .bytes _ => True
  | _, _ => False

/-- Packing only raises where a value does not suit its item. -/
theorem exists_pack {format : List Code} {values : List Value}
    (h : List.Forall₂ Suits format values) : ∃ data, pack format values = some data := by
  induction h with
  | nil => exact ⟨[], rfl⟩
  | @cons code value format values hsuits _ ih =>
      obtain ⟨rest, hrest⟩ := ih
      have hitem : ∃ item, packItem code value = some item := by
        cases code <;> cases value <;> simp_all [Suits, packItem]
      obtain ⟨item, hitem⟩ := hitem
      exact ⟨item ++ rest, pack_cons_eq_some.mpr ⟨item, rest, hitem, hrest, rfl⟩⟩

/-- Two structs, one behind the other. -/
theorem pack_append {format format' : List Code} {values values' : List Value}
    {data data' : List UInt8} (h : pack format values = some data)
    (h' : pack format' values' = some data') :
    pack (format ++ format') (values ++ values') = some (data ++ data') := by
  induction format generalizing values data with
  | nil =>
      cases values with
      | nil =>
          obtain rfl := Option.some.inj h
          exact h'
      | cons value values => simp [pack] at h
  | cons code format ih =>
      cases values with
      | nil => simp [pack] at h
      | cons value values =>
          obtain ⟨item, rest, hitem, hrest, rfl⟩ := pack_cons_eq_some.mp h
          exact pack_cons_eq_some.mpr
            ⟨item, rest ++ data', hitem, ih hrest, List.append_assoc item rest data'⟩

end StructFormat
