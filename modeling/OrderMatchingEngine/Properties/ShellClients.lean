import OrderMatchingEngine.Refinement.Listening
import OrderMatchingEngine.Refinement.Wire
import OrderMatchingEngine.ShellCodec

/-!
# OrderMatchingEngine.Properties.ShellClients

Do the shell and the stress test speak the protocol?

The engine's orders, cancels and reports have a `user_id` behind the order's number, and the formats
of these clients do not. So the requests are eight bytes short, and the symbol that the engine reads
begins with the last two bytes of the one that was sent, whatever the memory behind the packet
holds; and the shell unpacks no report at all (`clients_misread`).
-/

namespace OrderMatchingEngine

open GatewayService (Packet encode exists_packet flag_lt)
open ShellCodec (ljust)
open StructFormat (Code Value fit unpack)
open TradingShell (upper)

/-! ### What is to arrive -/

/-- One to nine bytes of ASCII without white space. -/
def IsWord (bytes : List UInt8) : Prop :=
  bytes ≠ [] ∧ bytes.length ≤ 9 ∧ ∀ byte ∈ bytes, byte < 128 ∧ isSpace byte = false

instance (bytes : List UInt8) : Decidable (IsWord bytes) :=
  decidable_of_iff (bytes ≠ [] ∧ bytes.length ≤ 9 ∧
      bytes.all (fun byte => byte < 128 && !isSpace byte) = true) <| by
    simp only [IsWord, List.all_eq_true, Bool.and_eq_true, decide_eq_true_eq, Bool.not_eq_true']

/-- The engine reads this order off a packet, with the memory behind it. -/
def OrderArrives (data behind : List UInt8) (orderId : Nat) (symbol : Symbol) (side type : Nat)
    (price : UInt64) (quantity : Nat) : Prop :=
  ∃ (req : NewOrderRequest) (rest : List UInt8),
    Records.read? 49 (data ++ behind) = some (req, rest) ∧ req.clientOrderId = .ofNat orderId ∧
      cleanSymbol req.symbol = symbol ∧ req.side = .ofNat side ∧ req.type = .ofNat type ∧
      UInt64.ofNat (littleEndian (field req 33 8)) = price ∧ req.quantity = .ofNat quantity

/-- The engine reads this cancel off a packet, with the memory behind it. -/
def CancelArrives (data behind : List UInt8) (orderId : Nat) (symbol : Symbol) (side : Nat) :
    Prop :=
  ∃ (req : OrderCancelRequest) (rest : List UInt8),
    Records.read? 32 (data ++ behind) = some (req, rest) ∧ req.clientOrderId = .ofNat orderId ∧
      cleanSymbol req.symbol = symbol ∧ req.side = .ofNat side

/-- The shell reads this report off the payload of its message. -/
def ReportArrives (report : ExecutionReport) (junk : Nat → UInt8) : Prop :=
  ∃ e, TradingShell.parseMessage report.header.type.code.toNat ((report.bytes junk).drop 5) =
      some (.execution e) ∧
    e.cid = report.clientOrderId.toNat ∧ encode e.sym = report.symbol.takeWhile (· ≠ 0) ∧
    e.side = report.side.toNat ∧ e.px = report.price.bits ∧ e.qty = report.quantity.toNat ∧
    e.filled = report.filledQuantity.toNat ∧ e.stat = report.status.toNat

/-! ### Symbols -/

/-- Cleaning keeps a front of what is not NUL. -/
theorem cleanSymbol_front (raw : List UInt8) : cleanSymbol raw <+: raw.filter (· ≠ 0) := by
  have hsuffix := List.dropWhile_suffix (l := (raw.filter (· ≠ 0)).reverse) isSpace
  rw [cleanSymbol, ← List.reverse_suffix, List.reverse_reverse]
  exact hsuffix

/-- A symbol without white space ends in front of the first space. -/
theorem cleanSymbol_cut {c : UInt8} {rest : List UInt8}
    (h : ∀ byte ∈ cleanSymbol (c :: 32 :: rest), isSpace byte = false) :
    cleanSymbol (c :: 32 :: rest) <+: [c] := by
  have hfront := cleanSymbol_front (c :: 32 :: rest)
  have hsplit : (c :: 32 :: rest).filter (· ≠ 0) =
      [c].filter (· ≠ 0) ++ 32 :: rest.filter (· ≠ 0) := List.filter_append [c] (32 :: rest)
  rw [hsplit] at hfront
  have hkept : [c].filter (· ≠ 0) <+: [c] := by
    by_cases hzero : c = 0 <;> simp [hzero]
  rcases Nat.lt_or_ge ([c].filter (· ≠ 0)).length (cleanSymbol (c :: 32 :: rest)).length with
    hlt | hge
  · -- the space would be part of it
    have hspace : [c].filter (· ≠ 0) ++ [32] <+: cleanSymbol (c :: 32 :: rest) :=
      List.prefix_of_prefix_length_le ⟨rest.filter (· ≠ 0), by simp⟩ hfront
        (by rw [List.length_append]; exact hlt)
    exact absurd (h 32 (hspace.subset (by simp))) (by decide)
  · exact (List.prefix_of_prefix_length_le hfront (List.prefix_append _ _) hge).trans hkept

/-- The last two bytes of a symbol field that was filled up with spaces. -/
theorem ljust_drop {s : List UInt8} (h : s.length ≤ 9) :
    ∃ c, (fit 10 (ljust s 10)).drop 8 = [c, 32] ∧ (s.length ≤ 8 → c = 32) := by
  have hlen : (ljust s 10).length = 10 := by
    rw [ljust, List.length_append, List.length_replicate]
    omega
  rw [StructFormat.fit_eq_self hlen, ljust, List.drop_append]
  rcases Nat.lt_or_ge 8 s.length with hlong | hshort
  · have hnine : s.length = 9 := by omega
    obtain ⟨c, hc⟩ := List.length_eq_one_iff.mp (show (s.drop 8).length = 1 by
      rw [List.length_drop, hnine])
    rw [hc, hnine]
    exact ⟨c, rfl, by omega⟩
  · rw [List.drop_eq_nil_of_le hshort, List.nil_append, List.drop_replicate,
      show 10 - s.length - (8 - s.length) = 2 by omega]
    exact ⟨32, rfl, fun _ => rfl⟩

/-- **The symbol is torn**: eight bytes further on than where it was written, it is not read. -/
theorem symbol_torn {s data : List UInt8} (hs : IsWord s) (hlen : 23 ≤ data.length)
    (hitem : (data.drop 13).take 10 = fit 10 (ljust s 10)) (behind : List UInt8) :
    cleanSymbol (((data ++ behind).drop 21).take 10) ≠ s := by
  obtain ⟨c, hc, hpadding⟩ := ljust_drop hs.2.1
  rw [← hitem, List.drop_take, List.drop_drop] at hc
  have hrest : data.drop 21 = c :: 32 :: (data.drop 21).drop 2 := by
    rw [← List.take_append_drop 2 (data.drop 21), show (data.drop 21).take 2 = [c, 32] from hc]
    rfl
  have hfield : ((data ++ behind).drop 21).take 10 =
      c :: 32 :: (((data.drop 21).drop 2 ++ behind).take 8) := by
    rw [List.drop_append_of_le_length (by omega), hrest]
    rfl
  rw [hfield]
  rintro rfl
  have hcut := cleanSymbol_cut fun byte hbyte => (hs.2.2 byte hbyte).2
  rcases List.prefix_cons_iff.mp hcut with hnil | ⟨t, hone, ht⟩
  · exact hs.1 hnil
  · obtain rfl := List.prefix_nil.mp ht
    have hc32 : c = 32 := hpadding (by rw [hone, List.length_singleton]; decide)
    exact absurd (hs.2.2 c (by rw [hone]; exact List.mem_cons_self)).2 (by rw [hc32]; decide)

/-! ### Requests -/

theorem field_of_read? {n : Nat} {bytes : List UInt8} {req : Records.Packed UInt8 n}
    {rest : List UInt8} (h : Records.read? n bytes = some (req, rest)) {offset size : Nat}
    (hle : offset + size ≤ n) : field req offset size = (bytes.drop offset).take size := by
  unfold Records.read? at h
  split at h
  · obtain ⟨rfl, -⟩ := Prod.mk.inj (Option.some.inj h)
    rw [field, List.drop_take, List.take_take, Nat.min_eq_left (by omega)]
  · simp at h

section Requests

variable {id msgType : Nat} {s data : List UInt8} {format : List Code} {values : List Value}

/-- Where the clients put the symbol. -/
theorem packet_symbol (h : Packet (.uint 8 :: .bytes 10 :: format)
      (.int id :: .bytes (ljust s 10) :: values) msgType data) :
    23 ≤ data.length ∧ (data.drop 13).take 10 = fit 10 (ljust s 10) := by
  refine ⟨?_, ?_⟩
  · rw [h.length, StructFormat.size, List.map_cons, List.map_cons, List.sum_cons, List.sum_cons]
    simp only [Code.width]
    omega
  · obtain ⟨-, hread⟩ := List.cons.inj h.payload
    exact Value.bytes.inj (List.cons.inj hread).1

/-- **A request of these clients** has another symbol in the engine's structs. -/
theorem request_misread (h : Packet (.uint 8 :: .bytes 10 :: format)
      (.int id :: .bytes (ljust s 10) :: values) msgType data) (hs : IsWord s)
    {behind rest : List UInt8} {n : Nat} {req : Records.Packed UInt8 n}
    (hread : Records.read? n (data ++ behind) = some (req, rest)) (hn : 31 ≤ n) :
    cleanSymbol (field req 21 10) ≠ s := by
  obtain ⟨hlen, hitem⟩ := packet_symbol h
  rw [field_of_read? hread hn]
  exact symbol_torn hs hlen hitem behind

end Requests

theorem shellOrder_misread {seqNum : Nat} {sym side type : String} {px : UInt64} {qty : Nat}
    {data : List UInt8} (h : TradingShell.order seqNum sym side type px qty = some data)
    (hs : IsWord (encode sym)) (behind : List UInt8) (orderId sideInt typeInt : Nat) :
    ¬ OrderArrives data behind orderId (encode sym) sideInt typeInt px qty := by
  rintro ⟨req, rest, hread, -, hsymbol, -⟩
  exact request_misread (.of_pack h) hs hread (by decide) hsymbol

theorem shellCancel_misread {seqNum oid : Nat} {sym side : String} {data : List UInt8}
    (h : TradingShell.cancel seqNum oid sym side = some data) (hs : IsWord (encode sym))
    (behind : List UInt8) (orderId sideInt : Nat) :
    ¬ CancelArrives data behind orderId (encode sym) sideInt := by
  rintro ⟨req, rest, hread, -, hsymbol, -⟩
  exact request_misread (.of_pack h) hs hread (by decide) hsymbol

theorem stressOrder_misread {oid side qty : Nat} {symbol : String} {price : UInt64}
    {data : List UInt8} (h : StressClient.order oid symbol side price qty = some data)
    (hs : IsWord (encode symbol)) (behind : List UInt8) (orderId sideInt typeInt : Nat) :
    ¬ OrderArrives data behind orderId (encode symbol) sideInt typeInt price qty := by
  rintro ⟨req, rest, hread, -, hsymbol, -⟩
  exact request_misread (.of_pack h) hs hread (by decide) hsymbol

/-! ### Reports -/

/-- **A report** is eight bytes longer than what the shell unpacks. -/
theorem report_misread {report : ExecutionReport}
    (h : Message.Shaped (.executionReport report)) (junk : Nat → UInt8) :
    ¬ ReportArrives report junk := by
  have hlen : ((report.bytes junk).drop 5).length = 60 := by
    have hsized : headerMsgLen (report.bytes junk) = (report.bytes junk).length := (h.sized junk).2
    rw [List.length_drop, ← hsized, ExecutionReport.bytes, headerMsgLen_bytes, h.1]
    rfl
  have hnone : unpack TradingShell.executionFmt ((report.bytes junk).drop 5) = none := by
    by_contra hsome
    obtain ⟨values, hvalues⟩ := Option.ne_none_iff_exists'.mp hsome
    have hsize := hlen.symm.trans (StructFormat.length_of_unpack hvalues)
    exact absurd hsize (by decide)
  have hraises : TradingShell.parseMessage 69 ((report.bytes junk).drop 5) = none := by
    rw [TradingShell.parseMessage, if_neg (by decide), if_neg (by decide), if_pos rfl, hnone]
  rintro ⟨e, hparsed, -⟩
  rw [h.1] at hparsed
  exact nomatch hraises.symm.trans hparsed

/-! ### The clients -/

/-- **The clients misread the protocol**, on every input. An order of the shell or of the stress
test and a cancel of the shell are sent if their numbers fit, and have another symbol in the
engine's structs, whatever the memory behind them holds; and no report of the engine is one to the
shell. -/
theorem clients_misread {symbol : String} (hsymbol : IsWord (encode symbol)) (side type : String)
    (orderId quantity : UInt64) (price : UInt64) (behind : List UInt8) :
    (∀ seqNum, (seqNum < 65534 → ∃ data,
        TradingShell.order seqNum symbol side type price quantity.toNat = some data) ∧
      ∀ data, TradingShell.order seqNum symbol side type price quantity.toNat = some data →
        ¬ OrderArrives data behind (seqNum + 1) (encode symbol)
          (if upper side = "B" then 0 else 1) (if upper type = "M" then 0 else 1) price
          quantity.toNat) ∧
    (∀ sideInt : Nat, (sideInt < 256 → ∃ data,
        StressClient.order orderId.toNat symbol sideInt price quantity.toNat = some data) ∧
      ∀ data, StressClient.order orderId.toNat symbol sideInt price quantity.toNat = some data →
        ¬ OrderArrives data behind orderId.toNat (encode symbol) sideInt 1 price
          quantity.toNat) ∧
    (∀ seqNum, (seqNum < 65535 → ∃ data,
        TradingShell.cancel seqNum orderId.toNat symbol side = some data) ∧
      ∀ data, TradingShell.cancel seqNum orderId.toNat symbol side = some data →
        ¬ CancelArrives data behind orderId.toNat (encode symbol)
          (if upper side = "B" then 0 else 1)) ∧
    ∀ clock fuel now fd data g r g',
      ClientGateway.processPacket clock fuel now fd data g = .ok (r, g') →
        ∀ m ∈ r.sent, ∀ report, m.message = .executionReport report →
          ∀ junk, ¬ ReportArrives report junk := by
  refine ⟨fun seqNum => ⟨fun hseq => ?_, fun data h => shellOrder_misread h hsymbol behind _ _ _⟩,
    fun sideInt => ⟨fun hside => ?_, fun data h => stressOrder_misread h hsymbol behind _ _ _⟩,
    fun seqNum => ⟨fun hseq => ?_, fun data h => shellCancel_misread h hsymbol behind _ _⟩,
    fun _ _ _ _ _ _ _ _ hp _ hm report hreport junk =>
      report_misread (hreport ▸ ClientGateway.processPacket_shaped hp hm) junk⟩
  · refine exists_packet ?_ (by omega) (by decide) (by decide)
    exact .cons (show seqNum + 1 < 256 ^ 8 by omega) (.cons trivial (.cons (flag_lt _)
      (.cons (flag_lt _) (.cons trivial (.cons quantity.toNat_lt .nil)))))
  · refine exists_packet ?_ (by decide) (by decide) (by decide)
    exact .cons orderId.toNat_lt (.cons trivial (.cons hside (.cons (show 1 < 256 ^ 1 by decide)
      (.cons trivial (.cons quantity.toNat_lt .nil)))))
  · refine exists_packet ?_ (by omega) (by decide) (by decide)
    exact .cons orderId.toNat_lt (.cons trivial (.cons (flag_lt _) .nil))

/-- An order of the shell for ten lots at 100.0, with zeros behind it. -/
theorem clients_misread_order : ∃ data,
    TradingShell.order 7 "AAPL" "B" "L" 0x4059000000000000 10 = some data ∧
      ¬ OrderArrives data (List.replicate 8 0) 8 (encode "AAPL") 0 1 0x4059000000000000 10 := by
  obtain ⟨hshell, -⟩ := clients_misread (show IsWord (encode "AAPL") by decide) "B" "L" 1 10
    0x4059000000000000 (List.replicate 8 0)
  have hside : upper "B" = "B" := by decide
  have htype : upper "L" ≠ "M" := by decide
  obtain ⟨hsent, hmisread⟩ := hshell 7
  rw [if_pos hside, if_neg htype] at hmisread
  obtain ⟨data, hdata⟩ := hsent (by decide)
  exact ⟨data, hdata, hmisread data hdata⟩

/-- The first order of the stress test does not arrive. -/
theorem stress_misread : ∃ data, StressClient.run 1 0 = some data ∧
    ∀ behind, ¬ OrderArrives data behind 1000000 (encode "AAPL") 0 1 0x4059000000000000 10 := by
  obtain ⟨data, hdata⟩ : ∃ data, StressClient.run 1 0 = some data := ⟨_, rfl⟩
  have horder : StressClient.order 1000000 "AAPL" 0 0x4059000000000000 10 = some data := hdata
  exact ⟨data, hdata, fun behind => stressOrder_misread horder (by decide) behind _ _ _⟩

end OrderMatchingEngine
