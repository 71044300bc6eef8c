import OrderMatchingEngine.Abstract.Depth
import OrderMatchingEngine.Properties.FokCompleteness
import OrderMatchingEngine.Refinement.Quotes

/-!
# OrderMatchingEngine.Properties.DepthQuote

Does the depth quote predict what a MARKET order trades?

It always lists the first levels of each side, in order. A MARKET order for the first entries trades
exactly these where the orders of their levels have the price of the level. An order whose price is
not a number joins a level at a number, and is traded at no price.
-/

namespace OrderMatchingEngine

namespace MatchingEngine

section Depth

variable {α : Type} [LinearOrder α] [Zero α] {clock : Nat → Timestamp} {n : Nat}
  {G : MatchingEngine α → Call α → Prop} {tr : List (Call α × Ret α)} {e : MatchingEngine α}
  {o : Order α}

/-- Processing the order returns; it is filled completely, and its trades add up, price by price,
to these entries. -/
def Executes (clock : Nat → Timestamp) (e : MatchingEngine α) (o : Order α)
    (entries : List (Price α × Quantity)) : Prop :=
  ∃ out e', Returns clock e (.processNewOrder o) (.processed out) e' ∧ out.exit = .filled ∧
    QueueBook.volume out.trades = o.quantity.toNat ∧
    QueueBook.perPrice out.trades = entries.map fun x => (x.1, x.2.toNat)

omit [Zero α] in
theorem perPrice_untimed (out : Outcome α) :
    QueueBook.perPrice out.untimed.trades = QueueBook.perPrice out.trades := by
  show LevelMap.totals (List.map _ (out.trades.map Trade.untimed)) = _
  rw [List.map_map]
  rfl

/-- An order that is not valid executes nothing. -/
theorem Executes.valid (he : EngineInv e) (hslot : e.orderPool.freeIndices ≠ [])
    {entries : List (Price α × Quantity)} (h : Executes clock e o entries) :
    validateOrder o = true := by
  obtain ⟨out, e', hr, hexit, -⟩ := h
  obtain ⟨out', hout, ⟨hfree, -⟩ | ⟨-, -, rfl⟩ | ⟨-, hv, -⟩⟩ := returns_process he hr
  · exact absurd hfree hslot
  · obtain rfl := Ret.processed.inj hout
    simp at hexit
  · exact hv

/-- A MARKET order for the first entries of a quote. -/
structure Takes (o : Order α) (sd : OrderSide) (entries : List (Price α × Quantity)) : Prop where
  side : o.side = sd.opposite
  type : o.type = .market
  quantityFilled : o.quantityFilled = 0
  quantity : o.quantity = (entries.map Prod.snd).sum

theorem executes_iff (clock : Nat → Timestamp) (he : EngineInv e)
    (hl : QueueBook.Live (e.bookView o.symbol)) (hslot : e.orderPool.freeIndices ≠ [])
    {sd : OrderSide} {depth k : Nat} (hk : k ≤ depth)
    (htotal : (((e.bookView o.symbol).top k sd).map Order.unfilled).sum < 2 ^ 64)
    (ho : Takes o sd (((e.bookView o.symbol).ladder depth sd).take k)) :
    Executes clock e o (((e.bookView o.symbol).ladder depth sd).take k) ↔
      validateOrder o = true ∧
        LevelMap.Exact Order.price (((e.bookView o.symbol).ranked sd).take k) := by
  obtain ⟨hside, htype, hqf, hq⟩ := ho
  obtain rfl : o.side.opposite = sd := by rw [hside, OrderSide.opposite_opposite]
  rw [QueueBook.take_ladder hk] at hq ⊢
  rw [← QueueBook.submit_market_iff (he.wf o.symbol) hl htype hqf htotal hq]
  constructor
  · intro hexec
    have hv := hexec.valid he hslot
    obtain ⟨out, e', hr, hout⟩ := hexec
    refine ⟨hv, (exists_returns_iff clock he hslot hv fun out => out.exit = .filled ∧
      QueueBook.volume out.trades = o.quantity.toNat ∧ QueueBook.perPrice out.trades = _).mp
      ⟨out, e', hr, ?_⟩⟩
    rw [volume_untimed, perPrice_untimed]
    exact hout
  · intro hsubmit
    obtain ⟨hv, hsubmit⟩ := hsubmit
    obtain ⟨out, e', hr, hout⟩ := (exists_returns_iff clock he hslot hv fun out =>
      out.exit = .filled ∧ QueueBook.volume out.trades = o.quantity.toNat ∧
        QueueBook.perPrice out.trades = _).mpr hsubmit
    rw [volume_untimed, perPrice_untimed] at hout
    exact ⟨out, e', hr, hout⟩

/-- **The depth quote** lists the first levels of each side, and a MARKET order for the first
entries trades these exactly if it is valid and the orders of their levels rest at the price of
their level. Where no order was queued at a price that is not a number they always do. -/
theorem quote_predicts (hG : ∀ e c, G e c → e.QueuesFresh c) (h : Reaches clock n G tr e)
    {symbol : Symbol} {book : OrderBook α} (hbook : e.getOrderBook symbol = some book)
    (depth : Nat) (sd : OrderSide) :
    let entries := (book.getL2Quote e.cells depth).entries sd
    QueueBook.FirstLevels depth sd ((e.bookView symbol).levels sd) entries ∧
      ∀ k, 1 ≤ k → k ≤ entries.length →
        (((e.bookView symbol).top k sd).map Order.unfilled).sum < 2 ^ 64 →
        ∀ o, o.symbol = symbol → Takes o sd (entries.take k) → e.orderPool.freeIndices ≠ [] →
          (Executes clock e o (entries.take k) ↔ validateOrder o = true ∧
            LevelMap.Exact Order.price (((e.bookView symbol).ranked sd).take k)) ∧
          ((∀ e c, G e c → c.QueuesNumber) →
            (Executes clock e o (entries.take k) ↔ validateOrder o = true)) := by
  have he := reaches_inv hG h
  have hl := reaches_live hG h symbol
  have hwf := he.wf symbol
  have hfirst := QueueBook.ladder_first hwf depth sd
  dsimp only
  rw [getL2Quote_entries, ← e.bookView_eq symbol hbook]
  refine ⟨hfirst, ?_⟩
  rintro k - hk htotal o rfl ho hslot
  rw [hfirst.length] at hk
  have hiff := executes_iff clock he hl hslot (hk.trans (Nat.min_le_left _ _)) htotal ho
  refine ⟨hiff, ?_⟩
  intro hnumbers
  obtain ⟨hex, -⟩ := reaches_exact (fun e c hg => ⟨hG e c hg, hnumbers e c hg⟩) h o.symbol
  rw [hiff]
  exact and_iff_left fun l hl => hex sd l (QueueBook.mem_ranked.mp (List.mem_of_mem_take hl))

end Depth

/-! ### Concrete orders -/

section Concrete

/-- Two offers of five: at 100, and at a price that is not a number, which joins the first. -/
def joinedOffers : List (Call Int × Ret Int) × MatchingEngine Int :=
  ran (fun _ => 0) 10 100000 QueuesFresh
    [.processNewOrder (orderOf 1 .sell .limit 100 5),
      .processNewOrder { orderOf 2 .sell .limit 0 5 with price := .nan }]

/-- Two offers at numbers: five at 100 and ten at 101. -/
def twoOffers : List (Call Int × Ret Int) × MatchingEngine Int :=
  ran (fun _ => 0) 10 100000 (fun e c => e.QueuesFresh c ∧ c.QueuesNumber)
    [.processNewOrder (orderOf 1 .sell .limit 100 5),
      .processNewOrder (orderOf 2 .sell .limit 101 10)]

/-- **The quote lists ten at 100**, and a MARKET order for ten trades five at 100 and five at no
price. -/
theorem quote_mispredicts :
    let e := joinedOffers.2
    let book := e.bookOf [65]
    let o := orderOf 3 .buy .market 0 10
    Reaches (fun _ => 0) 100000 QueuesFresh joinedOffers.1 e ∧ e.getOrderBook [65] = some book ∧
      (book.getL2Quote e.cells 1).asks = [(.num 100, 10)] ∧
      (((e.bookView [65]).top 1 .sell).map Order.unfilled).sum < 2 ^ 64 ∧ o.symbol = [65] ∧
      Takes o .sell (((book.getL2Quote e.cells 1).entries .sell).take 1) ∧
      e.orderPool.freeIndices ≠ [] ∧ e.FreshId (.processNewOrder o) ∧ validateOrder o = true ∧
      ¬ Executes (fun _ => 0) e o (((book.getL2Quote e.cells 1).entries .sell).take 1) := by
  have hreach : Reaches (fun _ => 0) 100000 QueuesFresh joinedOffers.1 joinedOffers.2 :=
    reaches_ran rfl
  have hbook : joinedOffers.2.getOrderBook [65] = some (joinedOffers.2.bookOf [65]) := rfl
  have htakes : Takes (orderOf 3 .buy .market 0 10) .sell
      ((((joinedOffers.2.bookOf [65]).getL2Quote joinedOffers.2.cells 1).entries .sell).take 1) :=
    ⟨rfl, rfl, rfl, rfl⟩
  have hslot : joinedOffers.2.orderPool.freeIndices ≠ [] := by decide
  refine ⟨hreach, hbook, rfl, by decide, rfl, htakes, hslot, by decide, rfl, ?_⟩
  rw [((quote_predicts (fun _ _ hg => hg) hreach hbook 1 .sell).2 1 (by decide) (by decide)
    (by decide) _ rfl htakes hslot).1]
  decide

/-- Fifteen bought where five are for sale at 100 and ten at 101. -/
theorem quote_predicts_fifteen :
    Executes (fun _ => 0) twoOffers.2 (orderOf 3 .buy .market 0 15)
      [(.num 100, 5), (.num 101, 10)] := by
  have hreach : Reaches (fun _ => 0) 100000 (fun e c => e.QueuesFresh c ∧ c.QueuesNumber)
      twoOffers.1 twoOffers.2 := reaches_ran rfl
  have hbook : twoOffers.2.getOrderBook [65] = some (twoOffers.2.bookOf [65]) := rfl
  exact (((quote_predicts (fun _ _ hg => hg.1) hreach hbook 2 .sell).2 2 (by decide) (by decide)
    (by decide) _ rfl ⟨rfl, rfl, rfl, rfl⟩ (by decide)).2 fun _ _ hg => hg.2).mpr rfl

end Concrete

end MatchingEngine

end OrderMatchingEngine
