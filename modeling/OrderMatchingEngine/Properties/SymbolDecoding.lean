import OrderMatchingEngine.Properties.RequestWire
import OrderMatchingEngine.Properties.SnapshotDecoding
import OrderMatchingEngine.Refinement.Listening

/-!
# OrderMatchingEngine.Properties.SymbolDecoding

When does a symbol survive the way back?

`strncpy` assigns nine of the ten bytes of a symbol field, and nobody assigns the tenth. A shorter
symbol ends at a zero before it. One of nine bytes ends there only if the tenth happens to be zero,
or is not ASCII and dropped by the decoder; and one of ten bytes has lost its last, and is itself
again only if the memory held that very byte (`symbols_survive`).
-/

namespace OrderMatchingEngine

open ClientGateway GatewayService

/-! ### ASCII -/

theorem utf8EncodeChar_ascii :
    ∀ n < 128, String.utf8EncodeChar (Char.ofNat n) = [UInt8.ofNat n] := by decide

theorem encode_ascii {bytes : List UInt8} (h : ∀ byte ∈ bytes, byte < 128) :
    encode (.ofList (bytes.map fun byte => Char.ofNat byte.toNat)) = bytes := by
  rw [encode, String.toList_ofList, List.flatMap_map]
  induction bytes with
  | nil => rfl
  | cons byte bytes ih =>
      obtain ⟨hbyte, h⟩ := List.forall_mem_cons.mp h
      rw [List.flatMap_cons, ih h, utf8EncodeChar_ascii _ (UInt8.lt_iff_toNat_lt.mp hbyte),
        UInt8.ofNat_toNat, List.singleton_append]

/-- The bytes of a field that the decoder keeps: the ASCII ones up to the first zero. -/
def keptBytes (raw : List UInt8) : List UInt8 := (raw.takeWhile (· ≠ 0)).filter (· < 128)

theorem decodeSymbol_eq_iff {raw : List UInt8} {symbol : String} :
    decodeSymbol raw = symbol ↔ keptBytes raw = encode symbol := by
  have hdecoded : encode (decodeSymbol raw) = keptBytes raw := encode_ascii fun byte hmem =>
    of_decide_eq_true (List.mem_filter.mp hmem).2
  rw [← hdecoded]
  exact ⟨congrArg encode, encode_inj⟩

/-- ASCII bytes other than NUL are kept. -/
theorem keptBytes_append {bytes : List UInt8} (h : ∀ byte ∈ bytes, byte ≠ 0 ∧ byte < 128)
    (rest : List UInt8) : keptBytes (bytes ++ rest) = bytes ++ keptBytes rest := by
  have hfront : ∀ byte ∈ bytes, decide (byte ≠ 0) = true := fun byte hmem =>
    decide_eq_true (h byte hmem).1
  have hascii : bytes.filter (· < 128) = bytes := List.filter_eq_self.mpr fun byte hmem =>
    decide_eq_true (h byte hmem).2
  rw [keptBytes, List.takeWhile_append_of_pos hfront, List.filter_append, hascii]
  rfl

theorem keptBytes_zero (rest : List UInt8) : keptBytes (0 :: rest) = [] := rfl

theorem keptBytes_singleton (byte : UInt8) :
    keptBytes [byte] = if byte = 0 ∨ 128 ≤ byte then [] else [byte] := by
  unfold keptBytes
  by_cases hzero : byte = 0
  · simp [hzero]
  · by_cases hascii : byte < 128
    · simp [hzero, hascii]
    · simp [hzero, UInt8.not_lt.mp hascii]

/-! ### A symbol field -/

/-- A symbol can be read back from a field whose last byte is `last`. -/
def Survives (symbol : List UInt8) (last : UInt8) : Prop :=
  symbol.length ≤ 8 ∨ (symbol.length = 9 ∧ (last = 0 ∨ 128 ≤ last)) ∨ symbol.drop 9 = [last]

theorem characters_strncpy (junk : Nat → UInt8) (offset : Nat) (symbol : Symbol) :
    characters junk offset 10 (strncpy symbol 9) = strncpy symbol 9 ++ [junk (offset + 9)] := by
  rw [characters, length_strncpy]
  rfl

/-- **The symbol field**, as it is written and read. -/
theorem decodeSymbol_characters {symbol : String} (h : IsSymbol symbol) (junk : Nat → UInt8)
    (offset : Nat) :
    decodeSymbol (characters junk offset 10 (strncpy (encode symbol) 9)) = symbol ↔
      Survives (encode symbol) (junk (offset + 9)) := by
  obtain ⟨-, hle, hascii, hnul, -⟩ := h
  rw [decodeSymbol_eq_iff, characters_strncpy, strncpy_of_ne_zero hnul]
  generalize encode symbol = s at hle hascii hnul
  generalize junk (offset + 9) = last
  have hkept : ∀ byte ∈ s.take 9, byte ≠ 0 ∧ byte < 128 := fun byte hmem =>
    ⟨hnul byte (List.mem_of_mem_take hmem), hascii byte (List.mem_of_mem_take hmem)⟩
  rw [List.append_assoc, keptBytes_append hkept]
  unfold Survives
  by_cases hshort : s.length ≤ 8
  · -- the padding begins with a zero
    obtain ⟨n, hn⟩ : ∃ n, 9 - s.length = n + 1 := ⟨8 - s.length, by omega⟩
    rw [hn, List.replicate_succ, List.cons_append, keptBytes_zero, List.append_nil,
      List.take_of_length_le (by omega)]
    exact iff_of_true rfl (.inl hshort)
  · -- the last byte follows the copied ones
    rw [Nat.sub_eq_zero_of_le (by omega), List.replicate_zero, List.nil_append, keptBytes_singleton]
    have hsplit : ∀ l, s.take 9 ++ l = s ↔ s.drop 9 = l := fun l =>
      ⟨fun h => (List.append_cancel_left (h.trans (List.take_append_drop 9 s).symm)).symm,
        fun h => by rw [← h, List.take_append_drop]⟩
    rw [hsplit, or_iff_right hshort]
    split
    · rename_i hlost
      have hlast : s.drop 9 ≠ [last] := by
        intro heq
        have hmem : last ∈ s := List.mem_of_mem_drop (heq ▸ List.mem_singleton.mpr rfl)
        rcases hlost with hzero | hbig
        · exact hnul last hmem hzero
        · exact UInt8.not_lt.mpr hbig (hascii last hmem)
      rw [List.drop_eq_nil_iff]
      constructor
      · exact fun hnine => .inl ⟨by omega, hlost⟩
      · rintro (hnine | heq)
        · omega
        · exact absurd heq hlast
    · rename_i hkeeps
      exact ⟨.inr, fun h => h.resolve_left fun hnine => hkeeps hnine.2⟩

/-! ### The messages about a symbol -/

/-- The reports and snapshots that the engine makes for a symbol. -/
inductive SentFor (symbol : Symbol) : Message → Prop
  /-- About an order that traded. -/
  | taker (order : Order Int) (trade : Trade Int) : trade.symbol = symbol →
      SentFor symbol (.executionReport (takerReport order trade))
  /-- About its counterparty. -/
  | maker (order : Order Int) (trade : Trade Int) (filledQuantity : Quantity) :
      trade.symbol = symbol →
      SentFor symbol (.executionReport (makerReport order trade filledQuantity))
  /-- About an order that did not trade. -/
  | new (order : Order Int) : order.symbol = symbol →
      SentFor symbol (.executionReport (newReport order))
  /-- About a cancel. -/
  | cancel (req : OrderCancelRequest) (cancelledOrder : Option (Order Int)) :
      SentFor symbol (.executionReport (cancelReport req symbol cancelledOrder))
  | snapshot (g : ClientGateway) (snapshot : OrderMatchingEngine.MarketDataSnapshot) :
      g.snapshot? symbol = some snapshot → SentFor symbol (.marketDataSnapshot snapshot)

/-- The symbol that `gateway.py` decodes from a report or a snapshot. -/
def decodedSymbol? (junk : Nat → UInt8) : Message → Option String
  | .executionReport report => (readExecution ((report.bytes junk).drop 5)).map (·.symbol)
  | .marketDataSnapshot snapshot => (handleSnapshot ((snapshot.bytes junk).drop 5)).map (·.symbol)
  | _ => none

/-- The offset of the last byte of the symbol field. -/
def lastSymbolByte : Message → Nat
  | .executionReport _ => 38
  | _ => 14

theorem SentFor.report_symbol {symbol : Symbol} {report : ExecutionReport}
    (h : SentFor symbol (.executionReport report)) : report.symbol = strncpy symbol 9 := by
  cases h with
  | taker order trade hsymbol => exact congrArg (strncpy · 9) hsymbol
  | maker order trade _ hsymbol => exact congrArg (strncpy · 9) hsymbol
  | new order hsymbol => exact congrArg (strncpy · 9) hsymbol
  | cancel req cancelledOrder => cases cancelledOrder <;> rfl

theorem snapshot?_symbol {g : ClientGateway} {symbol : Symbol}
    {snapshot : OrderMatchingEngine.MarketDataSnapshot} (h : g.snapshot? symbol = some snapshot) :
    snapshot.symbol = strncpy symbol 9 := by
  unfold snapshot? at h
  split at h
  · simp at h
  · rw [← Option.some.inj h]

/-- **The symbol of a message**, as it is decoded. -/
theorem SentFor.decodes {symbol : String} (hsymbol : IsSymbol symbol) {m : Message}
    (h : SentFor (encode symbol) m) (junk : Nat → UInt8) :
    decodedSymbol? junk m = some symbol ↔
      Survives (encode symbol) (junk (lastSymbolByte m)) := by
  have hle : (strncpy (encode symbol) 9).length ≤ 10 := by
    rw [length_strncpy]
    decide
  cases m with
  | executionReport report =>
      have hfield := h.report_symbol
      rw [decodedSymbol?, readExecution_bytes junk (hfield ▸ hle), Option.map_some,
        Option.some.injEq, hfield]
      exact decodeSymbol_characters hsymbol junk 29
  | marketDataSnapshot snapshot =>
      cases h with
      | snapshot g snapshot hsnapshot =>
          have hfield := snapshot?_symbol hsnapshot
          obtain ⟨-, -, hbids, hasks⟩ := snapshot?_shaped hsnapshot
          rw [decodedSymbol?, handleSnapshot_bytes junk snapshot (hfield ▸ hle) hbids hasks,
            Option.map_some, Option.some.injEq, hfield]
          exact decodeSymbol_characters hsymbol junk 5
  | loginResponse resp => nomatch h
  | tradeUpdate msg => nomatch h

/-! ### What a packet is answered with -/

/-- The messages from which `gateway.py` decodes a symbol. -/
def NamesSymbol : Message → Prop
  | .executionReport _ => True
  | .marketDataSnapshot _ => True
  | _ => False

section Answers

variable {clock now : Nat → Timestamp} {fuel : Nat} {fd : Int} {data : List UInt8}
  {g g' : ClientGateway} {r : Reporting}

theorem sentFor_broadcastMarketData {symbol : Symbol} {m : Sent}
    (h : m ∈ g.broadcastMarketData symbol) : SentFor symbol m.message := by
  unfold broadcastMarketData at h
  split at h
  · simp at h
  · rename_i snapshot hsnapshot
    obtain ⟨fd', -, rfl⟩ := List.mem_map.mp h
    exact .snapshot g snapshot hsnapshot

/-- **Every report and snapshot is about a symbol**: in states that were reached without queueing an
id that rests, the one of the request. -/
theorem processPacket_sentFor (h : processPacket clock fuel now fd data g = .ok (r, g')) {m : Sent}
    (hm : m ∈ r.sent) (hnames : NamesSymbol m.message) :
    ∃ symbol, SentFor symbol m.message ∧
      ∀ n, g.EngineReached clock n → packetSymbol? data = some symbol := by
  unfold packetSymbol?
  cases processPacket_answered h with
  | dropped => simp at hm
  | unknown => simp at hm
  | login =>
      obtain rfl := List.mem_singleton.mp hm
      exact absurd hnames id
  | @newOrder req behind out engine _ htype hread hp =>
      have hsymbol : ∀ t ∈ out.trades, ∀ n, g.EngineReached clock n →
          t.symbol = cleanSymbol req.symbol := fun t ht n hg => by
        obtain ⟨calls, hrun⟩ := hg
        exact MatchingEngine.process_trade_symbol
          (MatchingEngine.reaches_inv (fun _ _ hg => hg) hrun) hp ht
      rw [htype, hread]
      rcases mem_reports hm with rfl | ⟨t, ht, ⟨o, rfl⟩ | ⟨o, qty, rfl⟩ | ⟨_, hm⟩⟩ | hm
      · exact ⟨_, .new req.order rfl, fun _ _ => rfl⟩
      · exact ⟨_, .taker o t rfl, fun n hg => by rw [hsymbol t ht n hg]; rfl⟩
      · exact ⟨_, .maker o t qty rfl, fun n hg => by rw [hsymbol t ht n hg]; rfl⟩
      · obtain ⟨fd', -, rfl⟩ := List.mem_map.mp hm
        exact absurd hnames id
      · exact ⟨_, sentFor_broadcastMarketData hm, fun _ _ => rfl⟩
  | @orderCancel req _ x _ _ htype hread =>
      rw [htype, hread]
      rcases List.mem_cons.mp hm with rfl | hm
      · exact ⟨_, .cancel req x, fun _ _ => rfl⟩
      · exact ⟨_, sentFor_broadcastMarketData hm, fun _ _ => rfl⟩
  | noBook => simp at hm
  | @snapshot req _ snapshot _ htype hread hsnapshot =>
      rw [htype, hread]
      obtain rfl := List.mem_singleton.mp hm
      exact ⟨_, .snapshot g snapshot hsnapshot, fun _ _ => rfl⟩
  | subscription => simp at hm

end Answers

/-- **Symbols survive the response path** exactly if they have at most eight bytes, or the byte
behind the nine that are copied suits them by chance. And every report and snapshot is made for some
symbol, the one of the request unless ids were used twice. -/
theorem symbols_survive {symbol : String} (h : IsSymbol symbol) (junk : Nat → UInt8) :
    (∀ m, SentFor (encode symbol) m → (decodedSymbol? junk m = some symbol ↔
      Survives (encode symbol) (junk (lastSymbolByte m)))) ∧
    ∀ clock fuel now fd data g r g', processPacket clock fuel now fd data g = .ok (r, g') →
      ∀ m ∈ r.sent, NamesSymbol m.message →
        ∃ s, SentFor s m.message ∧ ∀ n, g.EngineReached clock n → packetSymbol? data = some s :=
  ⟨fun _ hm => hm.decodes h junk,
    fun _ _ _ _ _ _ _ _ hp _ hm hnames => processPacket_sentFor hp hm hnames⟩

/-! ### Symbols of nine and ten bytes -/

/-- A cancel of an order that does not rest, as `gateway.py` packs it. -/
def cancelOfTen : List UInt8 := (cancelOrder 1 ⟨1, "ABCDEFGHIJ", 0⟩).getD []

/-- The request in it. -/
def cancelOfTenRequest : OrderCancelRequest := ⟨cancelOfTen, rfl⟩

/-- What it is answered with. -/
def cancelOfTenAnswer : Reporting × ClientGateway :=
  ((processPacket (fun _ => 0) 10 (fun _ => 0) 4 cancelOfTen oneClient).toOption).getD
    ({}, oneClient)

/-- **The last of ten bytes is lost**: the report on a cancel names another symbol. -/
theorem symbol_lost : ∃ symbol data g r g' m, IsSymbol symbol ∧
    cancelOrder 1 ⟨1, symbol, 0⟩ = some data ∧
      processPacket (fun _ => 0) 10 (fun _ => 0) 4 data g = .ok (r, g') ∧ m ∈ r.sent ∧
      SentFor (encode symbol) m.message ∧ decodedSymbol? (fun _ => 0) m.message ≠ some symbol := by
  refine ⟨"ABCDEFGHIJ", cancelOfTen, oneClient, cancelOfTenAnswer.1, cancelOfTenAnswer.2,
    ⟨4, .executionReport (cancelReport cancelOfTenRequest (encode "ABCDEFGHIJ") none)⟩,
    by decide, rfl, rfl, List.mem_singleton.mpr rfl, .cancel _ _, by decide⟩

/-- The same report, where the memory held the last byte by chance. -/
theorem symbols_survive_byChance :
    let report := cancelReport cancelOfTenRequest (encode "ABCDEFGHIJ") none
    SentFor (encode "ABCDEFGHIJ") (.executionReport report) ∧
      decodedSymbol? (fun _ => 74) (.executionReport report) = some "ABCDEFGHIJ" := by
  intro report
  have hsent : SentFor (encode "ABCDEFGHIJ") (.executionReport report) := .cancel _ _
  refine ⟨hsent, ((symbols_survive (by decide) fun _ => 74).1 _ hsent).mpr ?_⟩
  exact .inr (.inr rfl)

end OrderMatchingEngine
