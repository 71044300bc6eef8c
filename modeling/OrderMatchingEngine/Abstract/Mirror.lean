import Mathlib.Algebra.Order.Group.Defs
import Mathlib.Algebra.Order.Group.Unbundled.Basic
import OrderMatchingEngine.Abstract.Priority

/-!
# OrderMatchingEngine.Abstract.Mirror

Buying and selling, seen in a mirror.

The mirror swaps the two sides and takes every price `p` to `C - p`. It turns a book over:
the best bid becomes the best ask. Matching, queueing and cancelling commute with it. The
liquidity check of FOK orders does not, because it scans either side from its lowest price;
`ScanAgrees` says that the direction makes no difference to its answer.
-/

namespace OrderMatchingEngine

variable {α : Type}

/-! ### Reflection -/

section Reflection

variable [Sub α] (C : α)

/-- The price at the same distance from the other end. -/
def Price.mirror : Price α → Price α
  | num a => num (C - a)
  | nan => nan

/-- The order on the other side of the market. -/
def Order.mirror (o : Order α) : Order α :=
  { o with side := o.side.opposite, price := o.price.mirror C }

/-- The trade with buyer and seller swapped. -/
def Trade.mirror (t : Trade α) : Trade α :=
  { t with
    buyOrderId := t.sellOrderId
    buyUserId := t.sellUserId
    sellOrderId := t.buyOrderId
    sellUserId := t.buyUserId
    price := t.price.mirror C }

/-- The call of the other side of the market; sides are coded 0 and 1. -/
def Call.mirror : Call α → Call α
  | .processNewOrder order => .processNewOrder (order.mirror C)
  | .cancelOrder id symbol side => .cancelOrder id symbol (1 - side)

/-- The answer to it. -/
def Ret.mirror : Ret α → Ret α
  | .processed out =>
    .processed ⟨out.exit, out.order.mirror C, out.trades.map (Trade.mirror C)⟩
  | .cancelled order => .cancelled (order.map (Order.mirror C))

/-- The book turned over. -/
def QueueBook.mirror (b : QueueBook α) : QueueBook α :=
  ⟨LevelMap.flip (Price.mirror C) (Order.mirror C) b.asks,
    LevelMap.flip (Price.mirror C) (Order.mirror C) b.bids⟩

/-- The result of matching on the other side. -/
def Filled.mirror (r : Filled α) : Filled α :=
  ⟨r.trades.map (Trade.mirror C), r.own.mirror C, r.queue.map (Order.mirror C)⟩

variable {C}

theorem Call.mirror_symbol (c : Call α) : (c.mirror C).symbol = c.symbol := by cases c <;> rfl

theorem Price.mirror_ne_nan {p : Price α} (h : p ≠ .nan) : p.mirror C ≠ .nan := by
  cases p with
  | num a => simp [mirror]
  | nan => exact absurd rfl h

end Reflection

section Order

variable [LinearOrder α] [AddCommGroup α] [IsOrderedAddMonoid α] {C : α}

omit [LinearOrder α] [IsOrderedAddMonoid α] in
theorem Price.mirror_mirror (p : Price α) : (p.mirror C).mirror C = p := by
  cases p with
  | num a => simp [mirror]
  | nan => rfl

omit [LinearOrder α] [IsOrderedAddMonoid α] in
theorem Order.mirror_mirror (o : Order α) : (o.mirror C).mirror C = o := by
  simp [mirror, Price.mirror_mirror]

theorem Price.mirror_lt {p q : Price α} : p.mirror C < q.mirror C ↔ q < p := by
  cases p with
  | nan => simp [mirror]
  | num a =>
      cases q with
      | nan => simp [mirror]
      | num b => simp [mirror]

theorem OrderSide.better_mirror {sd : OrderSide} {p q : Price α} :
    sd.opposite.better (p.mirror C) (q.mirror C) ↔ sd.better p q := by
  cases sd
  · exact Price.mirror_lt
  · exact Price.mirror_lt

/-- An order below the axis is valid in the mirror if it is valid. -/
theorem validateOrder_mirror {o : Order α} (hv : MatchingEngine.validateOrder o = true)
    (hp : o.price < .num C) : MatchingEngine.validateOrder (o.mirror C) = true := by
  cases hprice : o.price with
  | nan => simp [hprice] at hp
  | num a =>
      rw [hprice, Price.num_lt_num] at hp
      have hpos : 0 < C - a := sub_pos.mpr hp
      unfold MatchingEngine.validateOrder at hv ⊢
      simp only [Order.mirror, hprice, Price.mirror, Price.zero_def, Price.num_le_num,
        Price.num_lt_num, not_le.mpr hpos, not_lt.mpr hpos.le] at hv ⊢
      grind

omit [IsOrderedAddMonoid α] in
variable (C) in
/-- A submitted order is valid, and its price is below the axis. -/
def Call.Below : Call α → Prop
  | .processNewOrder o => MatchingEngine.validateOrder o = true ∧ o.price < .num C
  | .cancelOrder _ _ _ => True

omit [IsOrderedAddMonoid α] in
instance (c : Call α) : Decidable (c.Below C) :=
  match c with
  | .processNewOrder o => inferInstanceAs
      (Decidable (MatchingEngine.validateOrder o = true ∧ o.price < .num C))
  | .cancelOrder _ _ _ => inferInstanceAs (Decidable True)

omit [IsOrderedAddMonoid α] in
theorem Call.Below.priced {c : Call α} (h : c.Below C) : c.Priced := by
  cases c with
  | cancelOrder id symbol side => trivial
  | processNewOrder o =>
      intro hnan
      have hlt := h.2
      rw [hnan] at hlt
      exact Price.not_nan_lt _ hlt

end Order

namespace QueueBook

/-! ### Books in the mirror -/

section Books

variable [Sub α] (C : α) (b : QueueBook α) (sd : OrderSide)

theorem levels_mirror : (b.mirror C).levels sd =
    LevelMap.flip (Price.mirror C) (Order.mirror C) (b.levels sd.opposite) := by
  cases sd <;> rfl

theorem orders_mirror : (b.mirror C).orders sd = (b.orders sd.opposite).map (Order.mirror C) := by
  cases sd
  · exact LevelMap.down_flip _ _ _
  · exact LevelMap.up_flip _ _ _

variable {C b}

theorem mem_orders_mirror {x : Order α} :
    x ∈ (b.mirror C).orders sd ↔ ∃ y ∈ b.orders sd.opposite, y.mirror C = x := by
  rw [orders_mirror, List.mem_map]

theorem exists_mem_allOrders_mirror {p : Order α → Prop} :
    (∃ x ∈ (b.mirror C).allOrders, p x) ↔ ∃ x ∈ b.allOrders, p (x.mirror C) := by
  simp only [mem_allOrders, mem_orders_mirror]
  constructor
  · intro horder
    obtain ⟨_, ⟨sd, y, hy, rfl⟩, h⟩ := horder
    exact ⟨y, ⟨_, hy⟩, h⟩
  · intro horder
    obtain ⟨y, ⟨sd, hy⟩, h⟩ := horder
    exact ⟨y.mirror C, ⟨sd.opposite, y, by rwa [OrderSide.opposite_opposite], rfl⟩, h⟩

theorem length_allOrders_mirror : (b.mirror C).allOrders.length = b.allOrders.length := by
  rw [allOrders, allOrders, orders_mirror, orders_mirror, List.length_append, List.length_append,
    List.length_map, List.length_map, Nat.add_comm]
  rfl

theorem Live.mirror (h : Live b) : Live (b.mirror C) := by
  intro sd x hx
  obtain ⟨y, hy, rfl⟩ := (mem_orders_mirror sd).mp hx
  exact h _ y hy

theorem Numbers.mirror (h : Numbers b) : Numbers (b.mirror C) := by
  intro sd x hx
  obtain ⟨y, hy, rfl⟩ := (mem_orders_mirror sd).mp hx
  exact Price.mirror_ne_nan (h _ y hy)

theorem Exact.mirror (h : Exact b) : Exact (b.mirror C) := fun sd => by
  rw [levels_mirror]
  exact (h _).flip fun _ => rfl

end Books

variable [LinearOrder α] [AddCommGroup α] [IsOrderedAddMonoid α] {C : α} {symbol : Symbol}
  {b b' m m' : QueueBook α}

theorem WF.mirror (h : WF symbol b) : WF symbol (b.mirror C) where
  levels sd := by
    rw [levels_mirror]
    exact (h.levels _).flip (fun _ _ => Price.mirror_lt) fun _ => rfl
  sides sd x hx := by
    obtain ⟨y, hy, rfl⟩ := (mem_orders_mirror sd).mp hx
    rw [Order.mirror, h.sides _ y hy, OrderSide.opposite_opposite]
  symbols sd x hx := by
    obtain ⟨y, hy, rfl⟩ := (mem_orders_mirror sd).mp hx
    exact h.symbols _ y hy
  ids := by
    have hids := h.ids
    simp only [allOrders, orders_mirror, List.map_append, List.map_map] at hids ⊢
    exact (List.perm_append_comm.nodup_iff).mp hids

/-- **A book is determined by its orders.** -/
theorem ext_orders (hb : WF symbol b) (he : Exact b) (hb' : WF symbol b') (he' : Exact b')
    (h : ∀ sd, b.orders sd = b'.orders sd) : b = b' := by
  have hasks : b.asks = b'.asks :=
    LevelMap.Exact.ext (hb.levels .sell) (he .sell) (hb'.levels .sell) (he' .sell) (h .sell)
  -- bids are listed from the highest level: turn them over first
  have hflip : (b.mirror (0 : α)).asks = (b'.mirror (0 : α)).asks := by
    refine LevelMap.Exact.ext (hb.mirror.levels .sell) (he.mirror .sell) (hb'.mirror.levels .sell)
      (he'.mirror .sell) ?_
    have hup : (b.mirror (0 : α)).orders .sell = (b'.mirror (0 : α)).orders .sell := by
      rw [orders_mirror, orders_mirror, h]
    exact hup
  have hbids : b.bids = b'.bids := by
    have htwice := congrArg (LevelMap.flip (Price.mirror 0) (Order.mirror 0)) hflip
    have hinv : ∀ m : List (Price α × List (Order α)),
        LevelMap.flip (Price.mirror 0) (Order.mirror 0)
          (LevelMap.flip (Price.mirror 0) (Order.mirror 0) m) = m :=
      LevelMap.flip_flip Price.mirror_mirror Order.mirror_mirror
    exact (hinv _).symm.trans (htwice.trans (hinv _))
  cases b
  cases b'
  exact congrArg₂ QueueBook.mk hbids hasks

/-! ### Steps in the mirror -/

theorem refuses_mirror (sd : OrderSide) (own maker : Order α) :
    refuses sd.opposite (own.mirror C) (maker.mirror C) = refuses sd own maker := by
  rw [Bool.eq_iff_iff, refuses_eq_true, refuses_eq_true]
  exact and_congr_left' OrderSide.better_mirror

omit [LinearOrder α] [IsOrderedAddMonoid α] in
theorem trade_mirror (sd : OrderSide) {own maker : Order α} (qty : Quantity)
    (h : maker.symbol = own.symbol) :
    trade sd.opposite (own.mirror C) (maker.mirror C) qty = (trade sd own maker qty).mirror C := by
  cases sd
  · simp [trade, Trade.mirror, Order.mirror, h]
  · simp [trade, Trade.mirror, Order.mirror, h]

/-- **Matching commutes with the mirror.** -/
theorem fillQueue_mirror (sd : OrderSide) {own : Order α} {queue : List (Order α)}
    (h : ∀ x ∈ queue, x.symbol = own.symbol) :
    fillQueue sd.opposite (own.mirror C) (queue.map (Order.mirror C)) =
      (fillQueue sd own queue).mirror C := by
  have hreduce : ∀ (o : Order α) qty, (o.mirror C).reduceQuantity qty =
      (o.reduceQuantity qty).mirror C := fun _ _ => rfl
  induction queue generalizing own with
  | nil => rfl
  | cons best rest ih =>
      obtain ⟨hbest, hrest⟩ := List.forall_mem_cons.mp h
      have hrem : ∀ o : Order α, (o.mirror C).remainingQty = o.remainingQty := fun _ => rfl
      have hfilled : ∀ o : Order α, (o.mirror C).isFilled = o.isFilled := fun _ => rfl
      simp only [List.map_cons, fillQueue, refuses_mirror, hrem, hreduce, hfilled,
        trade_mirror sd _ hbest]
      split
      · rfl
      · split
        · have hrec := fun qty => @ih (own.reduceQuantity qty) hrest
          rw [hrec]
          rfl
        · rfl

omit [IsOrderedAddMonoid α] in
/-- Settling takes the same way out in the mirror. -/
theorem settle_mirror (own : Order α) (b b' : QueueBook α) :
    (settle (own.mirror C) b').1 = (settle own b).1 := by
  have hfilled : (own.mirror C).isFilled = own.isFilled := rfl
  have htype : (own.mirror C).type = own.type := rfl
  rw [settle, settle, hfilled, htype]
  split
  · split
    · rfl
    · split <;> rfl
  · rfl

theorem enqueue_mirror (sd : OrderSide) (o : Order α) (l : List (Order α)) :
    enqueue sd.opposite (o.mirror C) (l.map (Order.mirror C)) =
      (enqueue sd o l).map (Order.mirror C) := by
  have hbetter : ∀ x : Order α, sd.opposite.better (o.mirror C).price (x.mirror C).price ↔
      sd.better o.price x.price := fun _ => OrderSide.better_mirror
  simp only [enqueue, List.filter_map, List.map_append, List.map_cons, Function.comp_def, hbetter]

/-- The scan of a FOK order gives one answer from either end of the opposite side. -/
def ScanAgrees (b : QueueBook α) (o : Order α) : Prop :=
  let tooFar (k : Price α) : Bool := o.side.opposite.better o.price k
  MatchingEngine.scanLevels Order.remainingQty tooFar o.quantity
      (b.levels o.side.opposite).reverse =
    MatchingEngine.scanLevels Order.remainingQty tooFar o.quantity (b.levels o.side.opposite)

instance (b : QueueBook α) (o : Order α) : Decidable (ScanAgrees b o) :=
  inferInstanceAs (Decidable (_ = _))

/-- The scan of a submitted FOK order does not depend on its direction. -/
def ScansAgree (b : QueueBook α) : Call α → Prop
  | .processNewOrder o => o.type = .fok → ScanAgrees b o
  | .cancelOrder _ _ _ => True

instance (b : QueueBook α) : (c : Call α) → Decidable (ScansAgree b c)
  | .processNewOrder o => inferInstanceAs (Decidable (o.type = .fok → ScanAgrees b o))
  | .cancelOrder _ _ _ => inferInstanceAs (Decidable True)

omit [LinearOrder α] [AddCommGroup α] [IsOrderedAddMonoid α] in
/-- Renaming levels and elements does not change what a scan reads. -/
theorem scanLevel_map {β γ : Type} {g : β → γ} {remaining : γ → Quantity} {needed : Quantity}
    {l : List β} : MatchingEngine.scanLevel remaining needed (l.map g) =
      MatchingEngine.scanLevel (remaining ∘ g) needed l := by
  induction l generalizing needed with
  | nil => rfl
  | cons x l ih => simp only [List.map_cons, MatchingEngine.scanLevel, ih, Function.comp_def]

omit [LinearOrder α] [AddCommGroup α] [IsOrderedAddMonoid α] in
theorem scanLevels_flip {f : Price α → Price α} {g : Order α → Order α}
    {remaining : Order α → Quantity} {tooFar : Price α → Bool} {needed : Quantity}
    {m : List (Price α × List (Order α))} :
    MatchingEngine.scanLevels remaining tooFar needed (LevelMap.flip f g m) =
      MatchingEngine.scanLevels (remaining ∘ g) (tooFar ∘ f) needed m.reverse := by
  rw [LevelMap.flip, ← List.map_reverse]
  induction m.reverse generalizing needed with
  | nil => rfl
  | cons l m ih =>
      simp only [List.map_cons, MatchingEngine.scanLevels, scanLevel_map, ih, Function.comp_apply]

/-- The scan in the mirror starts from the other end. -/
theorem canFillCompletely_mirror (b : QueueBook α) (o : Order α) :
    (b.mirror C).canFillCompletely (o.mirror C) = b.canFillCompletely o ↔ ScanAgrees b o := by
  have hfar : (fun k => decide (o.side.opposite.opposite.better (o.price.mirror C) k)) ∘
      Price.mirror C = fun k => decide (o.side.opposite.better o.price k) := by
    funext k
    exact decide_eq_decide.mpr OrderSide.better_mirror
  have hremaining : Order.remainingQty ∘ Order.mirror C = (Order.remainingQty (α := α)) := rfl
  have hscan : (b.mirror C).canFillCompletely (o.mirror C) =
      MatchingEngine.scanLevels Order.remainingQty
        (fun k => decide (o.side.opposite.better o.price k)) o.quantity
        (b.levels o.side.opposite).reverse := by
    rw [canFillCompletely_eq, levels_mirror]
    show MatchingEngine.scanLevels _ (fun k =>
      decide (o.side.opposite.opposite.better (o.price.mirror C) k)) o.quantity
        (LevelMap.flip _ _ (b.levels o.side.opposite.opposite.opposite)) = _
    rw [scanLevels_flip, hfar, hremaining, OrderSide.opposite_opposite]
  rw [hscan, canFillCompletely_eq]
  exact Iff.rfl

/-! ### One step -/

/-- Looking up in the mirror. -/
theorem find?_mirror (hb : WF symbol b) (id : OrderID) :
    (b.mirror C).find? id = (b.find? id).map (Order.mirror C) := by
  rcases hf : b.find? id with _ | x
  · rw [QueueBook.find?, List.find?_eq_none] at hf
    refine List.find?_eq_none.mpr fun y hy => ?_
    obtain ⟨sd, hy⟩ := mem_allOrders.mp hy
    obtain ⟨x, hx, rfl⟩ := (mem_orders_mirror sd).mp hy
    exact hf x (mem_allOrders.mpr ⟨_, hx⟩)
  · obtain ⟨hmem, hid⟩ := hb.find?_eq_some.mp hf
    obtain ⟨sd, hx⟩ := mem_allOrders.mp hmem
    refine hb.mirror.find?_eq_some.mpr ⟨mem_allOrders.mpr ⟨sd.opposite, ?_⟩, hid⟩
    exact (mem_orders_mirror _).mpr ⟨x, by rwa [OrderSide.opposite_opposite], rfl⟩

/-- **Matching an order in the mirror.** -/
theorem matched_mirror {o : Order α} (hb : WF o.symbol b) :
    (b.mirror C).matched (o.mirror C) = (b.matched o).mirror C := by
  have hsymbols : ∀ x ∈ b.orders o.side.opposite, x.symbol = o.symbol := hb.symbols _
  have hside : (o.mirror C).side = o.side.opposite := rfl
  rw [matched, matched, ← fillQueue_mirror o.side hsymbols, hside, orders_mirror,
    OrderSide.opposite_opposite]

/-- The two books after matching an order and its mirror image. -/
theorem Matched.mirror {o : Order α} {out out' : Outcome α} {b₁ m₁ : QueueBook α}
    (hb : WF o.symbol b) (he : Exact b) (hn : Numbers b) (hp : o.price ≠ .nan)
    (hm : Matched o.symbol b o out b₁ b')
    (hm' : Matched o.symbol (b.mirror C) (o.mirror C) out' m₁ m') :
    Ret.processed out' = (Ret.processed out).mirror C ∧
      ∀ sd, m'.orders sd = (b'.mirror C).orders sd := by
  have hmatched := matched_mirror (C := C) hb
  have horder : out'.order = out.order.mirror C := by
    rw [hm'.order, hmatched, hm.order]
    rfl
  have htrades : out'.trades = out.trades.map (Trade.mirror C) := by
    rw [hm'.trades, hmatched, hm.trades]
    rfl
  have hexit : out'.exit = out.exit := by
    have hsettled := congrArg Prod.fst hm'.settled
    rw [horder, settle_mirror out.order b₁ m₁, hm.settled] at hsettled
    exact hsettled.symm
  constructor
  · cases out'
    simp only at horder htrades hexit
    rw [horder, htrades, hexit]
    rfl
  · intro sd
    rw [orders_mirror]
    by_cases hsd : sd = o.side.opposite
    · subst hsd
      have hown := hm'.orders_own he.mirror hn.mirror (Price.mirror_ne_nan hp)
      have hside : (o.mirror C).side = o.side.opposite := rfl
      rw [hside, hexit, horder, orders_mirror, OrderSide.opposite_opposite, enqueue_mirror] at hown
      rw [hown, OrderSide.opposite_opposite, hm.orders_own he hn hp]
      split <;> rfl
    · obtain rfl : sd = o.side := by
        rw [OrderSide.eq_opposite_of_ne hsd, OrderSide.opposite_opposite]
      have hopposite := hm'.orders_opposite
      have hside : (o.mirror C).side.opposite = o.side := o.side.opposite_opposite
      rw [hside, hmatched] at hopposite
      rw [hopposite, hm.orders_opposite]
      rfl

/-- **A step and its mirror image.** From a book and the book turned over, a call and its
mirror image answer and leave mirror images. -/
theorem step_mirror {c : Call α} {r r' : Ret α} (hb : WF c.symbol b) (he : Exact b)
    (hn : Numbers b) (hc : c.Below C) (hscans : ScansAgree b c) (h : Step b c r b')
    (h' : Step (b.mirror C) (c.mirror C) r' m') (hr : r.Served) (hr' : r'.Served) :
    r' = r.mirror C ∧ ∀ sd, m'.orders sd = (b'.mirror C).orders sd := by
  cases c with
  | cancelOrder id symbol side =>
      cases h with
      | cancel h =>
      cases h' with
      | cancel h' =>
          obtain ⟨rfl, -, horders⟩ := hb.cancelOrder_ok h
          obtain ⟨rfl, -, horders'⟩ := hb.mirror.cancelOrder_ok h'
          refine ⟨congrArg Ret.cancelled (find?_mirror hb id), fun sd => ?_⟩
          rw [horders', orders_mirror, orders_mirror, horders, List.filter_map]
          rfl
  | processNewOrder o =>
      have hb : WF o.symbol b := hb
      have hscan : o.type = .fok → (b.mirror C).canFillCompletely (o.mirror C) =
          b.canFillCompletely o := fun hfok =>
        (canFillCompletely_mirror b o).mpr (hscans hfok)
      obtain ⟨out, rfl, hcases⟩ := step_submit hb h hc.1 hr
      obtain ⟨out', rfl, hcases'⟩ := step_submit hb.mirror h' (validateOrder_mirror hc.1 hc.2) hr'
      rcases hcases with ⟨rfl, hbook, hfok, hfill⟩ | ⟨b₁, hm⟩
      · rcases hcases' with ⟨rfl, hbook', -⟩ | ⟨m₁, hm'⟩
        · exact ⟨rfl, fun sd => by rw [hbook', hbook]⟩
        · have hfill' := hm'.fok hfok
          rw [hscan hfok, hfill] at hfill'
          simp at hfill'
      · rcases hcases' with ⟨-, -, hfok, hfill⟩ | ⟨m₁, hm'⟩
        · have hfok : o.type = .fok := hfok
          rw [hscan hfok, hm.fok hfok] at hfill
          simp at hfill
        · exact hm.mirror hb he hn (Call.Below.priced hc) hm'

omit [LinearOrder α] [AddCommGroup α] [IsOrderedAddMonoid α] in
theorem quantity_ne_zero [LinearOrder α] [Zero α] {o : Order α}
    (hv : MatchingEngine.validateOrder o = true) : o.quantity ≠ 0 := by
  intro hzero
  simp [MatchingEngine.validateOrder, hzero] at hv

/-- **Conversely**, unless the scan of a FOK order agrees with the scan from the other end, the
order is killed on one side of the mirror only and trades on the other. -/
theorem scansAgree_of_mirror {c : Call α} {r r' : Ret α} (hb : WF c.symbol b) (he : Exact b)
    (hl : Live b) (hc : c.Below C) (hqf : c.Unfilled) (h : Step b c r b')
    (h' : Step (b.mirror C) (c.mirror C) r' m') (hr : r.Served) (hr' : r'.Served)
    (htrades : r'.trades = r.trades.map (Trade.mirror C)) : ScansAgree b c := by
  cases c with
  | cancelOrder id symbol side => trivial
  | processNewOrder o =>
      intro hfok
      have hb : WF o.symbol b := hb
      have hquantity := quantity_ne_zero hc.1
      refine (canFillCompletely_mirror (C := C) b o).mp ?_
      obtain ⟨out, rfl, hcases⟩ := step_submit hb h hc.1 hr
      obtain ⟨out', rfl, hcases'⟩ := step_submit hb.mirror h' (validateOrder_mirror hc.1 hc.2) hr'
      have htrades : out'.trades = out.trades.map (Trade.mirror C) := htrades
      rcases hcases with ⟨rfl, -, -, hfill⟩ | ⟨b₁, hm⟩
      · rcases hcases' with ⟨-, -, -, hfill'⟩ | ⟨m₁, hm'⟩
        · rw [hfill, hfill']
        · exact absurd htrades
            (hm'.fok_trades hb.mirror he.mirror hl.mirror hfok hqf hquantity)
      · have hsome := hm.fok_trades hb he hl hfok hqf hquantity
        rcases hcases' with ⟨rfl, -⟩ | ⟨m₁, hm'⟩
        · exact absurd (List.map_eq_nil_iff.mp htrades.symm) hsome
        · rw [hm.fok hfok, hm'.fok hfok]

end QueueBook

end OrderMatchingEngine
