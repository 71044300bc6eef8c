import OrderMatchingEngine.Properties.RequestWire

/-!
# OrderMatchingEngine.Properties.SharedBooks

When do two instruments share a book?

`ljust` fills a symbol up to ten bytes and the format `10s` cuts it there; nothing in between
looks at its length. `clean_symbol` takes the padding off again, so two orders meet in one book as
soon as their symbols begin with the same ten bytes, trailing white space aside
(`separate_books`).
-/

namespace OrderMatchingEngine

open ClientGateway
open StructFormat (fit)

namespace GatewayService

/-- Characters other than NUL are encoded without zeros. -/
theorem encode_ne_zero {s : String} (h : ∀ c ∈ s.toList, c.toNat ≠ 0) :
    ∀ byte ∈ encode s, byte ≠ 0 := by
  have hbyte : ∀ n : Nat, 0 < n → n < 256 → UInt8.ofNat n ≠ 0 := by
    intro n hpos hlt hzero
    have hnat : (UInt8.ofNat n).toNat = 0 := by rw [hzero]; rfl
    rw [UInt8.toNat_ofNat_of_lt' hlt] at hnat
    omega
  intro byte hmem
  obtain ⟨c, hc, hmem⟩ := List.mem_flatMap.mp hmem
  have hpos : 0 < c.val.toNat := Nat.pos_of_ne_zero (h c hc)
  unfold String.utf8EncodeChar at hmem
  dsimp only at hmem
  split at hmem
  · obtain rfl := List.mem_singleton.mp hmem
    exact hbyte _ hpos (by omega)
  · split at hmem
    · simp only [List.mem_cons, List.not_mem_nil, or_false] at hmem
      rcases hmem with rfl | rfl <;> exact hbyte _ (by omega) (by omega)
    · split at hmem <;> simp only [List.mem_cons, List.not_mem_nil, or_false] at hmem
      · rcases hmem with rfl | rfl | rfl <;> exact hbyte _ (by omega) (by omega)
      · rcases hmem with rfl | rfl | rfl | rfl <;> exact hbyte _ (by omega) (by omega)

/-- The packet is this order to the engine. -/
def PlacedAs (data : List UInt8) (req : OrderMatchingEngine.NewOrderRequest) : Prop :=
  Records.read? 49 data = some (req, []) ∧
    ∀ clock fuel now fd g,
      processPacket clock fuel now fd data g = handleNewOrder clock now fuel fd req [] g

theorem placeOrder_placedAs {orderId userId : Nat} {request : TradingPb2.NewOrderRequest}
    {data : List UInt8} (h : placeOrder orderId userId request = some data)
    (hnul : ∀ c ∈ request.symbol.toList, c.toNat ≠ 0) :
    ∃ req, PlacedAs data req ∧ req.order.symbol = strip ((encode request.symbol).take 10) := by
  obtain ⟨req, hread, -, -, hsymbol, -⟩ := placeOrder_read h
  refine ⟨req, ⟨hread, fun clock fuel now fd g => placeOrder_processed clock fuel now fd g h hread⟩,
    ?_⟩
  show cleanSymbol req.symbol = _
  rw [hsymbol, cleanSymbol_fit (encode_ne_zero hnul)]

/-- **Two instruments have two books** exactly if their symbols differ within the first ten bytes,
trailing white space of these aside; which symbols of at most ten bytes do if they differ. -/
theorem separate_books {orderId orderId' userId userId' : Nat}
    {request request' : TradingPb2.NewOrderRequest} {data data' : List UInt8}
    (h : placeOrder orderId userId request = some data)
    (h' : placeOrder orderId' userId' request' = some data')
    (hnul : ∀ c ∈ request.symbol.toList, c.toNat ≠ 0)
    (hnul' : ∀ c ∈ request'.symbol.toList, c.toNat ≠ 0) :
    ∃ req req', PlacedAs data req ∧ PlacedAs data' req' ∧
      (req.order.symbol ≠ req'.order.symbol ↔
        strip ((encode request.symbol).take 10) ≠ strip ((encode request'.symbol).take 10)) ∧
      (strip (encode request.symbol) ≠ strip (encode request'.symbol) →
        (encode request.symbol).length ≤ 10 → (encode request'.symbol).length ≤ 10 →
        req.order.symbol ≠ req'.order.symbol) := by
  obtain ⟨req, hplaced, hbook⟩ := placeOrder_placedAs h hnul
  obtain ⟨req', hplaced', hbook'⟩ := placeOrder_placedAs h' hnul'
  refine ⟨req, req', hplaced, hplaced', by rw [hbook, hbook'], fun hne hle hle' => ?_⟩
  rwa [hbook, hbook', List.take_of_length_le hle, List.take_of_length_le hle']

/-- A purchase of one lot. -/
def purchase (symbol : String) : TradingPb2.NewOrderRequest := ⟨symbol, 0, 1, 0x4059000000000000, 1⟩

theorem exists_purchase (orderId : UInt64) (symbol : String) :
    ∃ data, placeOrder orderId.toNat 1 (purchase symbol) = some data :=
  Rpc.exists_packed (.placeOrder orderId 1 (purchase symbol))

/-- **Two instruments in one book**: the eleventh byte of a symbol is cut off. -/
theorem shared_book : ∃ data data' req req',
    placeOrder 1 1 (purchase "ABCDEFGHIJK") = some data ∧
      placeOrder 2 1 (purchase "ABCDEFGHIJL") = some data' ∧
      strip (encode "ABCDEFGHIJK") ≠ strip (encode "ABCDEFGHIJL") ∧
      PlacedAs data req ∧ PlacedAs data' req' ∧ req.order.symbol = req'.order.symbol := by
  obtain ⟨data, hdata⟩ := exists_purchase 1 "ABCDEFGHIJK"
  obtain ⟨data', hdata'⟩ := exists_purchase 2 "ABCDEFGHIJL"
  have hnul : ∀ c ∈ "ABCDEFGHIJK".toList, c.toNat ≠ 0 := List.forall_iff_forall_mem.mp (by decide)
  have hnul' : ∀ c ∈ "ABCDEFGHIJL".toList, c.toNat ≠ 0 := List.forall_iff_forall_mem.mp (by decide)
  obtain ⟨req, hplaced, hbook⟩ := placeOrder_placedAs hdata hnul
  obtain ⟨req', hplaced', hbook'⟩ := placeOrder_placedAs hdata' hnul'
  exact ⟨data, data', req, req', hdata, hdata', by decide, hplaced, hplaced',
    hbook.trans (.trans (by decide) hbook'.symm)⟩

/-- Two symbols of ten bytes. -/
theorem separate_books_tenBytes : ∃ data data' req req',
    placeOrder 1 1 (purchase "ABCDEFGHIJ") = some data ∧
      placeOrder 2 1 (purchase "ABCDEFGHIK") = some data' ∧
      PlacedAs data req ∧ PlacedAs data' req' ∧ req.order.symbol ≠ req'.order.symbol := by
  obtain ⟨data, hdata⟩ := exists_purchase 1 "ABCDEFGHIJ"
  obtain ⟨data', hdata'⟩ := exists_purchase 2 "ABCDEFGHIK"
  have hnul : ∀ c ∈ "ABCDEFGHIJ".toList, c.toNat ≠ 0 := List.forall_iff_forall_mem.mp (by decide)
  have hnul' : ∀ c ∈ "ABCDEFGHIK".toList, c.toNat ≠ 0 := List.forall_iff_forall_mem.mp (by decide)
  obtain ⟨req, req', hplaced, hplaced', hiff, -⟩ := separate_books hdata hdata' hnul hnul'
  exact ⟨data, data', req, req', hdata, hdata', hplaced, hplaced', hiff.mpr (by decide)⟩

end GatewayService

end OrderMatchingEngine
