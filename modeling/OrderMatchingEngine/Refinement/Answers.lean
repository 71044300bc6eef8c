import OrderMatchingEngine.GatewayCodec
import OrderMatchingEngine.Layout

/-!
# OrderMatchingEngine.Refinement.Answers

What `gateway.py` reads in the engine's messages.

A ladder of a snapshot is five entries of sixteen bytes, the assigned ones first. `handle_snapshot`
looks at all five and keeps those with a quantity (`handleSnapshot_bytes`). The symbol field of a
snapshot or report is read up to the first zero (`decodeSymbol_characters`).
-/

namespace OrderMatchingEngine

open StructFormat (Code Value decode unpack)

/-! ### Unassigned bytes -/

theorem unassigned_add (junk : Nat → UInt8) (offset a b : Nat) :
    unassigned junk offset (a + b) =
      unassigned junk offset a ++ unassigned junk (offset + a) b := by
  unfold unassigned
  rw [List.range_add, List.map_append, List.map_map]
  congr 1
  exact List.map_congr_left fun i _ => congrArg junk (Nat.add_assoc offset a i).symm

/-- The entries of a ladder that were not assigned: so many, from `offset` on. -/
def leftover (junk : Nat → UInt8) : Nat → Nat → List (List UInt8)
  | _, 0 => []
  | offset, n + 1 => unassigned junk offset 16 :: leftover junk (offset + 16) n

theorem length_leftover (junk : Nat → UInt8) (offset n : Nat) :
    (leftover junk offset n).length = n := by
  induction n generalizing offset with
  | zero => rfl
  | succ n ih => rw [leftover, List.length_cons, ih]

theorem flatten_leftover (junk : Nat → UInt8) (offset n : Nat) :
    (leftover junk offset n).flatten = unassigned junk offset (16 * n) := by
  induction n generalizing offset with
  | zero => rfl
  | succ n ih =>
      rw [leftover, List.flatten_cons, ih, Nat.mul_succ, Nat.add_comm (16 * n), unassigned_add]

theorem mem_leftover {junk : Nat → UInt8} {offset n : Nat} {entry : List UInt8} :
    entry ∈ leftover junk offset n ↔ ∃ i < n, entry = unassigned junk (offset + 16 * i) 16 := by
  induction n generalizing offset with
  | zero => simp [leftover]
  | succ n ih =>
      rw [leftover, List.mem_cons, ih]
      constructor
      · rintro (rfl | ⟨i, hi, rfl⟩)
        · exact ⟨0, by omega, rfl⟩
        · exact ⟨i + 1, by omega, by rw [Nat.mul_succ, Nat.add_comm (16 * i), Nat.add_assoc]⟩
      · rintro ⟨_ | i, hi, rfl⟩
        · exact .inl rfl
        · exact .inr ⟨i, by omega, by rw [Nat.mul_succ, Nat.add_comm (16 * i), Nat.add_assoc]⟩

/-- The entries of a ladder, the assigned ones first. -/
def ladder (junk : Nat → UInt8) (offset : Nat) (entries : List (Price Int × Quantity)) :
    List (List UInt8) :=
  entries.map entryBytes ++ leftover junk (offset + 16 * entries.length) (5 - entries.length)

theorem ladderBytes_eq (junk : Nat → UInt8) (offset : Nat)
    (entries : List (Price Int × Quantity)) :
    ladderBytes junk offset entries = (ladder junk offset entries).flatten := by
  rw [ladderBytes, ladder, List.flatten_append, flatten_leftover, List.flatMap_def]

theorem length_ladder (junk : Nat → UInt8) (offset : Nat)
    {entries : List (Price Int × Quantity)} (h : entries.length ≤ 5) :
    (ladder junk offset entries).length = 5 := by
  rw [ladder, List.length_append, List.length_map, length_leftover]
  omega

theorem length_entry {junk : Nat → UInt8} {offset : Nat} {entries : List (Price Int × Quantity)}
    {entry : List UInt8} (h : entry ∈ ladder junk offset entries) : entry.length = 16 := by
  rcases List.mem_append.mp h with h | h
  · obtain ⟨e, -, rfl⟩ := List.mem_map.mp h
    exact length_entryBytes e
  · obtain ⟨i, -, rfl⟩ := mem_leftover.mp h
    exact length_unassigned junk _ 16

namespace GatewayService

open TradingPb2 (PriceLevel)

/-! ### Ladders -/

/-- The level that `handle_snapshot` makes of an entry, if it has a quantity. -/
def readEntry (entry : List UInt8) : Option PriceLevel :=
  if decode (entry.drop 8) > 0 then
    some ⟨.ofNat (decode (entry.take 8)), decode (entry.drop 8)⟩
  else none

/-- **The loop over a ladder** keeps the entries with a quantity. -/
theorem priceLevels_entries {entries : List (List UInt8)}
    (hlen : ∀ entry ∈ entries, entry.length = 16) (before behind : List UInt8) :
    priceLevels (before ++ (entries.flatten ++ behind)) entries.length before.length =
      some (entries.filterMap readEntry) := by
  induction entries generalizing before with
  | nil => rfl
  | cons entry entries ih =>
      obtain ⟨hentry, hlen⟩ := List.forall_mem_cons.mp hlen
      have hdata : before ++ ((entry :: entries).flatten ++ behind) =
          (before ++ entry) ++ (entries.flatten ++ behind) := by
        simp only [List.flatten_cons, List.append_assoc]
      have hbytes :
          ((before ++ ((entry :: entries).flatten ++ behind)).drop before.length).take 16 =
          entry.take 8 ++ (entry.drop 8 ++ []) := by
        rw [List.drop_left, List.flatten_cons, List.append_assoc, List.take_left' hentry,
          List.append_nil, List.take_append_drop]
      have hrest := ih hlen (before ++ entry)
      rw [List.length_append, hentry] at hrest
      rw [List.length_cons, priceLevels, hbytes,
        StructFormat.unpack_cons .double _ (by simp [Code.width, hentry]),
        StructFormat.unpack_cons (.uint 8) _ (by simp [Code.width, hentry]), hdata, hrest]
      simp only [unpack, Option.map_some, StructFormat.unpackItem, List.filterMap_cons]
      unfold readEntry
      split <;> rfl

theorem readEntry_entryBytes (entry : Price Int × Quantity) :
    readEntry (entryBytes entry) =
      if entry.2.toNat > 0 then some ⟨entry.1.bits, entry.2.toNat⟩ else none := by
  have hprice : (entryBytes entry).take 8 = StructFormat.encode 8 entry.1.bits.toNat :=
    List.take_left' (StructFormat.length_encode 8 _)
  have hquantity : (entryBytes entry).drop 8 = StructFormat.encode 8 entry.2.toNat :=
    List.drop_left' (StructFormat.length_encode 8 _)
  rw [readEntry, hprice, hquantity, StructFormat.decode_encode_uint64,
    StructFormat.decode_encode_uint64, UInt64.ofNat_toNat]

/-- An unassigned entry is kept unless the bytes of its quantity happen to be zeros. -/
theorem readEntry_unassigned (junk : Nat → UInt8) (offset : Nat) :
    readEntry (unassigned junk offset 16) = none ↔ ∀ i < 8, junk (offset + 8 + i) = 0 := by
  have hquantity : (unassigned junk offset 16).drop 8 = unassigned junk (offset + 8) 8 := by
    rw [unassigned_add junk offset 8 8]
    exact List.drop_left' (length_unassigned junk offset 8)
  have hzero : decode (unassigned junk (offset + 8) 8) = 0 ↔
      ∀ i < 8, junk (offset + 8 + i) = 0 := by
    rw [StructFormat.decode_eq_zero]
    simp [unassigned]
  rw [readEntry, hquantity, ← hzero]
  split <;> simp <;> omega

/-! ### Snapshots -/

/-- The level of an assigned entry. -/
def entryLevel (entry : Price Int × Quantity) : PriceLevel := ⟨entry.1.bits, entry.2.toNat⟩

theorem filterMap_readEntry (junk : Nat → UInt8) (offset : Nat)
    {entries : List (Price Int × Quantity)} (h : ∀ entry ∈ entries, 0 < entry.2.toNat) :
    (ladder junk offset entries).filterMap readEntry = entries.map entryLevel ++
      (leftover junk (offset + 16 * entries.length) (5 - entries.length)).filterMap readEntry := by
  rw [ladder, List.filterMap_append]
  congr 1
  induction entries with
  | nil => rfl
  | cons entry entries ih =>
      obtain ⟨hentry, h⟩ := List.forall_mem_cons.mp h
      rw [List.map_cons, List.filterMap_cons, readEntry_entryBytes, if_pos hentry, ih h,
        List.map_cons]
      rfl

/-- The unassigned entries behind the first `n` of a ladder have no quantity. -/
def ZeroBehind (junk : Nat → UInt8) (offset n : Nat) : Prop :=
  ∀ i, n ≤ i → i < 5 → ∀ j < 8, junk (offset + 16 * i + 8 + j) = 0

theorem filterMap_leftover {junk : Nat → UInt8} {offset n : Nat} :
    (leftover junk (offset + 16 * n) (5 - n)).filterMap readEntry = [] ↔
      ZeroBehind junk offset n := by
  rw [List.filterMap_eq_nil_iff]
  have hoffset : ∀ i, offset + 16 * n + 16 * i = offset + 16 * (n + i) := fun i => by omega
  constructor
  · intro h i hn hi
    have hmem : unassigned junk (offset + 16 * n + 16 * (i - n)) 16 ∈
        leftover junk (offset + 16 * n) (5 - n) := mem_leftover.mpr ⟨i - n, by omega, rfl⟩
    have hnone := (readEntry_unassigned junk _).mp (h _ hmem)
    rwa [hoffset, Nat.add_sub_cancel' hn] at hnone
  · intro h entry hmem
    obtain ⟨i, hi, rfl⟩ := mem_leftover.mp hmem
    rw [readEntry_unassigned, hoffset]
    exact h (n + i) (by omega) (by omega)

theorem priceLevels_ladder (junk : Nat → UInt8) (offset : Nat)
    {entries : List (Price Int × Quantity)} (h : entries.length ≤ 5) {before : List UInt8} {n : Nat}
    (hn : before.length = n) (behind : List UInt8) :
    priceLevels (before ++ (ladderBytes junk offset entries ++ behind)) 5 n =
      some ((ladder junk offset entries).filterMap readEntry) := by
  have hlevels := priceLevels_entries (fun entry (hmem : entry ∈ ladder junk offset entries) =>
    length_entry hmem) before behind
  rwa [length_ladder junk offset h, hn, ← ladderBytes_eq] at hlevels

/-- **A snapshot, as `handle_snapshot` reads it.** -/
theorem handleSnapshot_bytes (junk : Nat → UInt8) (snapshot : MarketDataSnapshot)
    (hsymbol : snapshot.symbol.length ≤ 10) (hbids : snapshot.bids.length ≤ 5)
    (hasks : snapshot.asks.length ≤ 5) :
    handleSnapshot ((snapshot.bytes junk).drop 5) = some
      { symbol := decodeSymbol (characters junk 5 10 snapshot.symbol)
        bids := (ladder junk 23 snapshot.bids).filterMap readEntry
        asks := (ladder junk 103 snapshot.asks).filterMap readEntry } := by
  have hchars := length_characters junk 5 hsymbol
  have hnum := StructFormat.length_encode 4
  obtain ⟨head, hhead⟩ : ∃ head, head = characters junk 5 10 snapshot.symbol ++
      (StructFormat.encode 4 snapshot.numBids.toNat ++
        (StructFormat.encode 4 snapshot.numAsks.toNat ++ [])) := ⟨_, rfl⟩
  have hlen : head.length = 18 := by simp [hhead, hchars]
  have hdata : (snapshot.bytes junk).drop 5 = head ++
      (ladderBytes junk 23 snapshot.bids ++ ladderBytes junk 103 snapshot.asks) := by
    rw [MarketDataSnapshot.bytes, List.drop_left' snapshot.header.length_bytes, hhead]
    simp only [List.append_assoc, List.append_nil]
  have hfields : unpack [.bytes 10, .uint 4, .uint 4] head = some
      [.bytes (characters junk 5 10 snapshot.symbol),
        .int (decode (StructFormat.encode 4 snapshot.numBids.toNat)),
        .int (decode (StructFormat.encode 4 snapshot.numAsks.toNat))] := by
    rw [hhead, StructFormat.unpack_cons (.bytes 10) _ hchars,
      StructFormat.unpack_cons (.uint 4) _ (hnum _), StructFormat.unpack_cons (.uint 4) _ (hnum _)]
    rfl
  have hfirst := priceLevels_ladder junk 23 hbids hlen (ladderBytes junk 103 snapshot.asks)
  have hsecond : priceLevels
      (head ++ (ladderBytes junk 23 snapshot.bids ++ ladderBytes junk 103 snapshot.asks)) 5 98 =
        some ((ladder junk 103 snapshot.asks).filterMap readEntry) := by
    have hbefore : (head ++ ladderBytes junk 23 snapshot.bids).length = 98 := by
      rw [List.length_append, hlen, length_ladderBytes junk 23 hbids]
    have hlevels := priceLevels_ladder junk 103 hasks hbefore []
    rwa [List.append_nil, List.append_assoc] at hlevels
  rw [handleSnapshot, hdata, List.take_left' hlen, hfields, hfirst]
  dsimp only
  rw [show 18 + 5 * 16 = 98 from rfl, hsecond]

/-! ### Reports -/

theorem length_drop_report (junk : Nat → UInt8) {report : ExecutionReport}
    (h : report.symbol.length ≤ 10) : ((report.bytes junk).drop 5).length = 60 := by
  rw [ExecutionReport.bytes, List.drop_left' report.header.length_bytes]
  simp [length_characters junk 29 h]

/-- **A report, as `handle_execution` reads it.** -/
theorem readExecution_bytes (junk : Nat → UInt8) {report : ExecutionReport}
    (h : report.symbol.length ≤ 10) :
    readExecution ((report.bytes junk).drop 5) = some
      { clientOrderId := report.clientOrderId.toNat
        userId := report.userId.toNat
        execId := report.executionId.toNat
        symbol := decodeSymbol (characters junk 29 10 report.symbol)
        side := report.side.toNat
        price := report.price.bits
        qty := report.quantity.toNat
        filledQty := report.filledQuantity.toNat
        status := report.status.toNat } := by
  have hlen := length_drop_report junk h
  have hchars := length_characters junk 29 h
  have huint : ∀ n : UInt64, (StructFormat.encode 8 n.toNat).length = (Code.uint 8).width :=
    fun n => StructFormat.length_encode 8 n.toNat
  have hbyte : ∀ byte : UInt8, decode [byte] = byte.toNat := fun byte => by simp [decode]
  have hdata : (report.bytes junk).drop 5 = StructFormat.encode 8 report.clientOrderId.toNat ++
      (StructFormat.encode 8 report.userId.toNat ++
        (StructFormat.encode 8 report.executionId.toNat ++
          (characters junk 29 10 report.symbol ++ ([report.side] ++
            (StructFormat.encode 8 report.price.bits.toNat ++
              (StructFormat.encode 8 report.quantity.toNat ++
                (StructFormat.encode 8 report.filledQuantity.toNat ++
                  ([report.status] ++ [])))))))) := by
    rw [ExecutionReport.bytes, List.drop_left' report.header.length_bytes]
    rfl
  have hfields : unpack executionFmt ((report.bytes junk).drop 5) = some
      [.int report.clientOrderId.toNat, .int report.userId.toNat, .int report.executionId.toNat,
        .bytes (characters junk 29 10 report.symbol), .int report.side.toNat,
        .double report.price.bits, .int report.quantity.toNat, .int report.filledQuantity.toNat,
        .int report.status.toNat] := by
    rw [hdata, executionFmt, StructFormat.unpack_cons _ _ (huint _),
      StructFormat.unpack_cons _ _ (huint _), StructFormat.unpack_cons _ _ (huint _),
      StructFormat.unpack_cons (.bytes 10) _ hchars,
      StructFormat.unpack_cons (.uint 1) _ rfl, StructFormat.unpack_cons .double _ (huint _),
      StructFormat.unpack_cons _ _ (huint _), StructFormat.unpack_cons _ _ (huint _),
      StructFormat.unpack_cons (.uint 1) _ rfl]
    simp only [unpack, Option.map_some, StructFormat.unpackItem,
      StructFormat.decode_encode_uint64, UInt64.ofNat_toNat, hbyte]
  rw [readExecution, if_neg (by omega), List.take_of_length_le (by omega), hfields]

end GatewayService

end OrderMatchingEngine
