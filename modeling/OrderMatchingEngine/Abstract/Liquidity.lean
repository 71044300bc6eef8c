import Mathlib.Algebra.Order.BigOperators.Group.List
import Mathlib.Algebra.Order.Group.Nat
import Mathlib.Data.List.Flatten
import Mathlib.Data.List.TakeWhile
import OrderMatchingEngine.Abstract.Steps

/-!
# OrderMatchingEngine.Abstract.Liquidity

How much of an order can be filled at once.

`liquidity b o` is what the orders that `o` accepts have left. A taker ends with what its
demand exceeds the liquidity by (`matched_unfilled`), and a FOK order that passes
`can_fill_completely` finds enough of it (`liquidity_of_canFillCompletely`), although the
scan works on wrapped quantities and, for a sale, starts at the worst price.
-/

namespace OrderMatchingEngine

open MatchingEngine (scanLevel scanLevels)

/-- `p` is a better price than `q` for an order resting on this side. -/
def OrderSide.better {α : Type} [LT α] : OrderSide → Price α → Price α → Prop
  | .buy, p, q => q < p
  | .sell, p, q => p < q

section Better

variable {α : Type} [LinearOrder α] {sd : OrderSide} {p q r : Price α}

theorem OrderSide.better_trans (h : sd.better p q) (h' : sd.better q r) : sd.better p r := by
  cases sd
  · exact trans_of (· < ·) h' h
  · exact trans_of (· < ·) h h'

theorem OrderSide.better_irrefl : ¬ sd.better p p := by
  cases sd
  · exact irrefl_of (· < ·) p
  · exact irrefl_of (· < ·) p

instance : (sd : OrderSide) → (p q : Price α) → Decidable (sd.better p q)
  | .buy, p, q => inferInstanceAs (Decidable (q < p))
  | .sell, p, q => inferInstanceAs (Decidable (p < q))

end Better

/-- In a list whose rejected elements come last, `takeWhile` keeps what `filter` keeps. -/
theorem takeWhile_eq_filter {β : Type} {p : β → Bool} {l : List β}
    (h : l.Pairwise fun x y => p y = true → p x = true) :
    l.takeWhile p = l.filter p ∧ l.dropWhile p = l.filter fun x => !p x := by
  induction l with
  | nil => simp
  | cons x l ih =>
      obtain ⟨hx, hl⟩ := List.pairwise_cons.mp h
      by_cases hp : p x = true
      · rw [List.takeWhile_cons_of_pos hp, List.dropWhile_cons_of_pos hp, (ih hl).1, (ih hl).2]
        simp [hp]
      · have hnone : ∀ y ∈ l, ¬ p y = true := fun y hy hpy => hp (hx y hy hpy)
        rw [List.takeWhile_cons_of_neg hp, List.dropWhile_cons_of_neg hp,
          List.filter_cons_of_neg hp, List.filter_cons_of_pos (by simpa using hp),
          List.filter_eq_nil_iff.mpr hnone]
        refine ⟨rfl, congrArg _ (List.filter_eq_self.mpr ?_).symm⟩
        intro y hy
        simpa using hnone y hy

namespace QueueBook

variable {α : Type} [LinearOrder α] {symbol : Symbol} {b : QueueBook α} {o : Order α}

/-! ### Priority order -/

theorem refuses_eq_true {sd : OrderSide} {own maker : Order α} :
    refuses sd own maker = true ↔
      sd.opposite.better own.price maker.price ∧ own.type ≠ .market := by
  cases sd <;> simp [refuses, OrderSide.better]

/-- With exact prices a side is listed best price first. -/
theorem orders_sorted (hb : WF symbol b) (he : Exact b) (sd : OrderSide) :
    (b.orders sd).Pairwise fun x y => sd.better x.price y.price ∨ x.price = y.price := by
  have hs := (hb.levels sd).sorted
  have htrue : ∀ l ∈ b.levels sd, l.2.Pairwise fun _ _ : Order α => True := fun _ _ =>
    List.pairwise_of_forall fun _ _ => trivial
  cases sd
  · exact ((he .buy).down_pairwise hs htrue).imp fun h => h.imp_right And.left
  · exact ((he .sell).up_pairwise hs htrue).imp fun h => h.imp_right And.left

/-- The orders a taker accepts come before those it refuses. -/
theorem orders_accepts (hb : WF symbol b) (he : Exact b) (o : Order α) :
    (b.orders o.side.opposite).Pairwise fun x y =>
      accepts o.side o y = true → accepts o.side o x = true := by
  refine (orders_sorted hb he o.side.opposite).imp fun {x y} hxy hy => ?_
  simp only [accepts, Bool.not_eq_true', ← Bool.not_eq_true, refuses_eq_true] at hy ⊢
  intro hrefuses
  obtain ⟨hbetter, hmarket⟩ := hrefuses
  refine hy ⟨?_, hmarket⟩
  rcases hxy with hxy | hxy
  · exact OrderSide.better_trans hbetter hxy
  · rwa [← hxy]

/-! ### Liquidity -/

/-- The orders that a taker would trade with, best first. -/
def accepted (b : QueueBook α) (o : Order α) : List (Order α) :=
  (b.orders o.side.opposite).takeWhile (accepts o.side o)

/-- What they have left to trade. -/
def liquidity (b : QueueBook α) (o : Order α) : Nat := ((b.accepted o).map Order.unfilled).sum

/-- The taker after matching: executed up to its own demand or the liquidity. -/
theorem matched_own (hl : Live b) (o : Order α) :
    (b.matched o).own = o.reduceQuantity (.ofNat (min o.unfilled (b.liquidity o))) := by
  rw [matched, fillQueue_eq _ _ (hl _), greedyFill, ← accepted, Greedy.amounts_sum, ← liquidity]

/-- What is left of a taker after matching. -/
theorem matched_unfilled (hl : Live b) (o : Order α) :
    (b.matched o).own.unfilled = o.unfilled - b.liquidity o := by
  have hle : min o.unfilled (b.liquidity o) ≤ o.unfilled := Nat.min_le_left _ _
  have hlt : min o.unfilled (b.liquidity o) < 2 ^ 64 :=
    Nat.lt_of_le_of_lt hle o.remainingQty.toNat_lt
  have htoNat : (UInt64.ofNat (min o.unfilled (b.liquidity o))).toNat =
      min o.unfilled (b.liquidity o) := UInt64.toNat_ofNat_of_lt hlt
  rw [matched_own hl, Order.unfilled_reduceQuantity (by rw [htoNat]; exact hle), htoNat]
  omega

/-- A taker is left with something exactly if it wants more than there is. -/
theorem matched_own_live (hl : Live b) (ho : o.Live) :
    (b.matched o).own.Live ↔ b.liquidity o < o.unfilled := by
  have hfilled := ho.isFilled_reduceQuantity (Nat.min_le_left o.unfilled (b.liquidity o))
  rw [← matched_own hl] at hfilled
  rw [← Order.isFilled_eq_false, ← Bool.not_eq_true, hfilled]
  omega

/-- The orders the taker trades with and the quantity of each trade, in order. -/
def fills (b : QueueBook α) (o : Order α) : List (Order α × Nat) :=
  (b.accepted o).zip (Greedy.amounts o.unfilled ((b.accepted o).map Order.unfilled))

/-- **The trades of a taker**, one with each order it fills or begins to fill. -/
theorem matched_trades (hl : Live b) (o : Order α) :
    (b.matched o).trades =
      (b.fills o).map fun fill => trade o.side o fill.1 (.ofNat fill.2) := by
  rw [matched, fillQueue_eq _ _ (hl _), greedyFill, ← accepted, fills,
    ← List.map_uncurry_zip_eq_zipWith]
  rfl

/-- The first fill: all the taker wants of the first order it accepts, or all that this has. -/
theorem fills_head {fill : Order α × Nat} {rest : List (Order α × Nat)}
    (h : b.fills o = fill :: rest) :
    (b.accepted o).head? = some fill.1 ∧ fill.2 = min o.unfilled fill.1.unfilled := by
  have hne : o.unfilled ≠ 0 := by
    intro hzero
    simp [fills, hzero] at h
  unfold fills at h
  rcases hacc : b.accepted o with _ | ⟨x, xs⟩
  · simp [hacc] at h
  · rw [hacc, List.map_cons, Greedy.amounts_cons hne, List.zip_cons_cons] at h
    obtain ⟨rfl, -⟩ := List.cons.inj h
    exact ⟨rfl, rfl⟩

/-- The orders a taker trades with are opposite orders of the book. -/
theorem mem_fills {b : QueueBook α} {fill : Order α × Nat} (h : fill ∈ b.fills o) :
    fill.1 ∈ b.orders o.side.opposite :=
  (List.takeWhile_sublist _).mem (List.of_mem_zip h).1

/-- A MARKET order accepts every opposite order. -/
theorem accepted_market (b : QueueBook α) (ho : o.type = .market) :
    b.accepted o = b.orders o.side.opposite := by
  refine List.takeWhile_eq_self_iff.mpr ?_
  intro x _
  simp only [accepts, Bool.not_eq_true', ← Bool.not_eq_true, refuses_eq_true]
  exact fun h => h.2 ho

theorem liquidity_market (b : QueueBook α) (ho : o.type = .market) :
    b.liquidity o = ((b.orders o.side.opposite).map Order.unfilled).sum := by
  rw [liquidity, accepted_market b ho]

/-! ### The scan of FOK orders -/

section Scan

variable {β : Type} {remaining : β → Quantity}

/-- A level that completes the scan has a part whose quantities add up, modulo the word
size, to what was needed. -/
theorem scanLevel_none {needed : Quantity} {l : List β}
    (h : scanLevel remaining needed l = none) :
    ∃ pre post, l = pre ++ post ∧ pre ≠ [] ∧ needed = (pre.map remaining).sum := by
  induction l generalizing needed with
  | nil => simp [scanLevel] at h
  | cons x l ih =>
      rw [scanLevel] at h
      split at h
      · rename_i hzero
        refine ⟨[x], l, rfl, by simp, ?_⟩
        have hsub : needed - remaining x = 0 := UInt64.le_zero_iff.mp hzero
        simp only [List.map_cons, List.map_nil, List.sum_cons, List.sum_nil]
        grind
      · obtain ⟨pre, post, rfl, -, hsum⟩ := ih h
        refine ⟨x :: pre, post, rfl, by simp, ?_⟩
        rw [List.map_cons, List.sum_cons, ← hsum]
        grind

theorem scanLevel_some {needed needed' : Quantity} {l : List β}
    (h : scanLevel remaining needed l = some needed') :
    needed = (l.map remaining).sum + needed' := by
  induction l generalizing needed with
  | nil => simpa [scanLevel] using h
  | cons x l ih =>
      rw [scanLevel] at h
      split at h
      · simp at h
      · rw [List.map_cons, List.sum_cons, UInt64.add_assoc, ← ih h]
        grind

omit [LinearOrder α] in
/-- The levels that a completed scan has read hold, in a non-empty part, exactly the needed
quantity modulo the word size. -/
theorem scanLevels_true {tooFar : Price α → Bool} {needed : Quantity}
    {m : List (Price α × List β)} (h : MatchingEngine.scanLevels remaining tooFar needed m = true) :
    ∃ pre post, LevelMap.up (m.takeWhile fun l => !tooFar l.1) = pre ++ post ∧ pre ≠ [] ∧
      needed = (pre.map remaining).sum := by
  induction m generalizing needed with
  | nil => simp [scanLevels] at h
  | cons l m ih =>
      obtain ⟨k, q⟩ := l
      unfold scanLevels at h
      split at h
      · simp at h
      · rename_i hnear
        rw [List.takeWhile_cons_of_pos (by simpa using hnear), LevelMap.up_cons]
        split at h
        · rename_i hdone
          obtain ⟨pre, post, hq, hne, hsum⟩ := scanLevel_none hdone
          exact ⟨pre, post ++ LevelMap.up (m.takeWhile fun l => !tooFar l.1), by
            simp [hq], hne, hsum⟩
        · rename_i needed' hmore
          obtain ⟨pre, post, hup, hne, hsum⟩ := ih h
          refine ⟨q ++ pre, post, by simp [hup], by simp [hne], ?_⟩
          rw [scanLevel_some hmore, hsum, List.map_append, List.sum_append]

/-- A sum of quantities wraps. -/
theorem toNat_sum (l : List Quantity) : l.sum.toNat = (l.map UInt64.toNat).sum % 2 ^ 64 := by
  induction l with
  | nil => simp
  | cons x l ih =>
      rw [List.sum_cons, List.map_cons, List.sum_cons, UInt64.toNat_add, ih, Nat.add_mod_mod]

/-- Wrapped quantities never add up to more than they are. -/
theorem toNat_sum_le (l : List Quantity) : l.sum.toNat ≤ (l.map UInt64.toNat).sum :=
  toNat_sum l ▸ Nat.mod_le _ _

end Scan

/-- The scan, with the side as a parameter. -/
theorem canFillCompletely_eq (b : QueueBook α) (o : Order α) :
    b.canFillCompletely o =
      scanLevels Order.remainingQty (fun k => decide (o.side.opposite.better o.price k))
        o.quantity (b.levels o.side.opposite) := by
  unfold canFillCompletely
  cases o.side <;> rfl

/-- **A FOK order that passes the scan finds its quantity** among the orders it accepts. -/
theorem liquidity_of_canFillCompletely (hb : WF symbol b) (he : Exact b)
    (h : b.canFillCompletely o = true) : o.quantity.toNat ≤ b.liquidity o := by
  rw [canFillCompletely_eq] at h
  obtain ⟨pre, post, hkept, -, hsum⟩ := scanLevels_true h
  let kept := (b.levels o.side.opposite).takeWhile fun l =>
    !decide (o.side.opposite.better o.price l.1)
  -- every order of a level that was read is accepted
  have hacc : ∀ x ∈ LevelMap.up kept, accepts o.side o x = true := by
    intro x hx
    obtain ⟨l, hl, hxl⟩ := LevelMap.mem_up.mp hx
    have hnear : ¬ o.side.opposite.better o.price l.1 := by
      simpa using List.mem_takeWhile_imp hl
    rw [he o.side.opposite l ((List.takeWhile_sublist _).mem hl) x hxl] at hnear
    simp only [accepts, Bool.not_eq_true', ← Bool.not_eq_true, refuses_eq_true]
    exact fun hbad => hnear hbad.1
  have hsub : (LevelMap.up kept).Sublist
      ((LevelMap.up (b.levels o.side.opposite)).filter (accepts o.side o)) := by
    have hup : (LevelMap.up kept).Sublist (LevelMap.up (b.levels o.side.opposite)) :=
      (List.takeWhile_sublist _).flatMap Prod.snd
    have hfilter := hup.filter (accepts o.side o)
    rwa [List.filter_eq_self.mpr hacc] at hfilter
  have hperm : (b.accepted o).Perm
      ((LevelMap.up (b.levels o.side.opposite)).filter (accepts o.side o)) := by
    rw [accepted, (takeWhile_eq_filter (orders_accepts hb he o)).1]
    exact (orders_perm b o.side.opposite).filter _
  calc o.quantity.toNat = ((pre.map Order.remainingQty).sum).toNat := by rw [← hsum]
    _ ≤ (pre.map Order.unfilled).sum := by
        refine (toNat_sum_le _).trans (Nat.le_of_eq ?_)
        rw [List.map_map]
        rfl
    _ ≤ ((LevelMap.up kept).map Order.unfilled).sum := by
        have hup : LevelMap.up kept = pre ++ post := hkept
        rw [hup, List.map_append, List.sum_append]
        omega
    _ ≤ _ := (hsub.map Order.unfilled).sum_le_sum (by simp)
    _ = b.liquidity o := ((hperm.map Order.unfilled).sum_eq).symm

/-- An order leaves matching filled exactly if nothing is left of it. -/
theorem Matched.exit_filled {b₁ b' : QueueBook α} {out : Outcome α}
    (hm : Matched symbol b o out b₁ b') : out.exit = .filled ↔ ¬ out.order.Live := by
  rcases settle_cases hm.settled with ⟨hexit, hlive, -⟩ | ⟨-, ⟨hexit, hdone⟩ | hcases⟩
  · exact iff_of_false (by simp [hexit]) (not_not.mpr hlive)
  · exact iff_of_true hexit hdone
  · rcases hcases with ⟨hexit, hlive, -⟩ | ⟨hexit, hlive, -⟩
    · exact iff_of_false (by simp [hexit]) (not_not.mpr hlive)
    · exact iff_of_false (by simp [hexit]) (not_not.mpr hlive)

/-- A FOK order that is matched is completely filled. -/
theorem Matched.fok_filled {b₁ b' : QueueBook α} {out : Outcome α}
    (hm : Matched symbol b o out b₁ b') (hb : WF symbol b) (he : Exact b) (hl : Live b)
    (hfok : o.type = .fok) (hqf : o.quantityFilled = 0) : out.exit = .filled := by
  have hliq := liquidity_of_canFillCompletely hb he (hm.fok hfok)
  have hzero : out.order.unfilled = 0 := by
    have hunfilled : o.unfilled = o.quantity.toNat := by
      rw [Order.unfilled, Order.remainingQty, hqf, UInt64.sub_zero]
    rw [hm.order, matched_unfilled hl]
    omega
  refine hm.exit_filled.mpr fun hlive => ?_
  have hpos := hlive.unfilled_pos
  omega

/-- A FOK order that is matched trades. -/
theorem Matched.fok_trades {b₁ b' : QueueBook α} {out : Outcome α}
    (hm : Matched symbol b o out b₁ b') (hb : WF symbol b) (he : Exact b) (hl : Live b)
    (hfok : o.type = .fok) (hqf : o.quantityFilled = 0) (hq : o.quantity ≠ 0) :
    out.trades ≠ [] := by
  intro hnone
  have hsame : out.order = o := by
    rw [hm.trades] at hnone
    rw [hm.order]
    exact fillQueue_own_of_no_trades hnone
  have hlive : o.Live := by
    rw [Order.Live, hqf]
    exact UInt64.pos_iff_ne_zero.mpr hq
  have hfilled := hm.fok_filled hb he hl hfok hqf
  rcases settle_cases hm.settled with ⟨hexit, -⟩ | ⟨-, ⟨-, hdone⟩ | ⟨hexit, -⟩ | ⟨hexit, -⟩⟩
  · simp [hexit] at hfilled
  · exact hdone (hsame.symm ▸ hlive)
  · simp [hexit] at hfilled
  · simp [hexit] at hfilled

/-! ### What becomes of a taker -/

section Fate

variable {b₁ b' : QueueBook α} {out : Outcome α}

/-- A live order that was matched is queued exactly if something is left of it and its type
allows it. -/
theorem Matched.exit_rested (hm : Matched symbol b o out b₁ b') (hl : Live b)
    (ho : o.Live) : out.exit = .rested ↔
      b.liquidity o < o.unfilled ∧ o.type ≠ .ioc ∧ o.type ≠ .market := by
  have htype : out.order.type = o.type := by rw [hm.same]
  rw [← matched_own_live hl ho, ← hm.order, ← htype]
  rcases settle_cases hm.settled with ⟨hexit, hlive, hioc, hmarket, -⟩ | ⟨-, hcases⟩
  · exact iff_of_true hexit ⟨hlive, hioc, hmarket⟩
  · rcases hcases with ⟨hexit, hdone⟩ | ⟨hexit, -, hioc⟩ | ⟨hexit, -, hmarket⟩
    · exact iff_of_false (by simp [hexit]) fun h => hdone h.1
    · exact iff_of_false (by simp [hexit]) fun h => h.2.1 hioc
    · exact iff_of_false (by simp [hexit]) fun h => h.2.2 hmarket

/-- An order with a fresh id is in the book after it was matched exactly if it was queued. -/
theorem Matched.rests_iff (hm : Matched symbol b o out b₁ b')
    (hfresh : ∀ x ∈ b.allOrders, x.id ≠ o.id) :
    (∃ x ∈ b'.allOrders, x.id = o.id) ↔ out.exit = .rested := by
  constructor
  · intro hrests
    obtain ⟨x, hx, hid⟩ := hrests
    obtain ⟨sd, hx⟩ := mem_allOrders.mp hx
    rcases hm.mem_orders hx with ⟨-, hx⟩ | ⟨-, hexit, -⟩ | ⟨-, hleft⟩
    · exact absurd hid (hfresh x (mem_allOrders.mpr ⟨sd, hx⟩))
    · exact hexit
    · obtain ⟨y, hy, hyx⟩ := fillQueue_queue x hleft
      rw [hyx] at hid
      exact absurd hid (hfresh y (mem_allOrders.mpr ⟨_, hy⟩))
  · intro hexit
    exact ⟨out.order, mem_allOrders.mpr ⟨o.side, hm.mem_own.mpr (.inr ⟨hexit, rfl⟩)⟩,
      by rw [hm.same]⟩

/-- The book finds an order with a fresh id after it was matched exactly if it was queued. -/
theorem Matched.find?_own (hm : Matched symbol b o out b₁ b') (hb' : WF symbol b')
    (hfresh : ∀ x ∈ b.allOrders, x.id ≠ o.id) :
    b'.find? o.id = if out.exit = .rested then some out.order else none := by
  split
  · rename_i hexit
    refine hb'.find?_eq_some.mpr ⟨?_, by rw [hm.same]⟩
    exact mem_allOrders.mpr ⟨o.side, hm.mem_own.mpr (.inr ⟨hexit, rfl⟩)⟩
  · rename_i hexit
    rcases hfind : b'.find? o.id with _ | x
    · rfl
    · exact absurd ((hm.rests_iff hfresh).mp ⟨x, hb'.find?_eq_some.mp hfind⟩) hexit

end Fate

/-! ### Resting orders are limit orders -/

section Zero

variable [Zero α] {b' : QueueBook α} {c : Call α} {r : Ret α}

/-- Where prices are exact, an order that is queued is a LIMIT or a GFD order. -/
theorem Queued.type (hb : WF symbol b) (he : Exact b) (hl : Live b) (hc : c.Unfilled)
    (h : Step b c r b') {x : Order α} (hq : Queued c r x) : x.type = .limit ∨ x.type = .gfd := by
  obtain ⟨o, out, rfl, rfl, hexit, rfl, hsame, -, hioc, hmarket⟩ := hq
  have htype : out.order.type = o.type := by rw [hsame]
  obtain ⟨out', hout, hcases⟩ := step_process hb h
  obtain rfl : out = out' := Ret.processed.inj hout
  rw [htype]
  cases ho : o.type with
  | limit => exact .inl rfl
  | gfd => exact .inr rfl
  | ioc => exact absurd ho hioc
  | market => exact absurd ho hmarket
  | fok =>
      rcases hcases with ⟨-, -, -, h | ⟨h, -⟩ | ⟨h, -⟩⟩ | ⟨-, b₁, hm⟩
      · simp [h] at hexit
      · simp [h] at hexit
      · simp [h] at hexit
      · simp [hm.fok_filled hb he hl ho hc] at hexit

/-- The invariant of books whose LIMIT and GFD orders have numbers for prices: exact prices,
live orders, and nothing but LIMIT and GFD orders. -/
structure Sound (b : QueueBook α) : Prop where
  exact : Exact b
  numbers : Numbers b
  live : Live b
  types : ∀ sd, ∀ x ∈ b.orders sd, x.type = .limit ∨ x.type = .gfd

omit [LinearOrder α] [Zero α] in
theorem Sound.empty : Sound (QueueBook.empty : QueueBook α) where
  exact := .empty
  numbers := .empty
  live := .empty
  types sd := by simp

theorem step_sound (hb : WF symbol b) (h : Step b c r b') (hs : Sound b) (hc : c.Unfilled)
    (hn : c.LimitsNumber) : Sound b' := by
  have htype : ∀ x, Queued c r x → x.type = .limit ∨ x.type = .gfd := fun x hq =>
    hq.type hb hs.exact hs.live hc h
  have hprice : ∀ x, Queued c r x → x.price ≠ .nan := by
    intro x hq
    have hx := htype x hq
    obtain ⟨o, out, rfl, -, -, -, hsame, -⟩ := hq
    rw [hsame] at hx ⊢
    exact hn hx
  obtain ⟨hexact, hnumbers⟩ := step_exact hb h hs.exact hs.numbers hprice
  exact ⟨hexact, hnumbers, step_live hb h hs.live,
    step_forall hb h (fun x y hxy hx => by rwa [hxy]) htype hs.types⟩

end Zero

/-! ### Crossing -/

/-- Every bid is below every ask. -/
def Uncrossed (b : QueueBook α) : Prop :=
  ∀ x ∈ b.orders .buy, ∀ y ∈ b.orders .sell, x.price < y.price

theorem Uncrossed.empty : Uncrossed (QueueBook.empty : QueueBook α) := by
  simp [Uncrossed]

/-- `Uncrossed` as seen from either side. -/
theorem uncrossed_iff (sd : OrderSide) (b : QueueBook α) :
    Uncrossed b ↔ ∀ x ∈ b.orders sd, ∀ y ∈ b.orders sd.opposite,
      sd.opposite.better x.price y.price := by
  cases sd
  · exact Iff.rfl
  · exact ⟨fun h x hx y hy => h y hy x hx, fun h x hx y hy => h y hy x hx⟩

/-- An order that is queued is worse than everything left on the opposite side. -/
theorem Matched.rested_uncrossed {b₁ b' : QueueBook α} {out : Outcome α}
    (hm : Matched symbol b o out b₁ b') (he : Exact b) (hexit : out.exit = .rested) :
    ∀ y ∈ b'.orders o.side.opposite, o.side.opposite.better out.order.price y.price := by
  intro y hy
  obtain ⟨hlive, -, hmarket, -⟩ := hm.rested hexit
  have hprice : out.order.price = o.price := by rw [hm.same]
  rw [hm.orders_opposite] at hy
  -- the loop stopped at the best order left, and the others are no better
  have hstop := fillQueue_stop o.side o (b.orders o.side.opposite)
  rw [← matched, ← hm.order] at hstop
  have hhead := hstop.resolve_left fun hzero => by
    have hpos := hlive.unfilled_pos
    rw [Order.unfilled_eq_zero.mpr hzero] at hpos
    omega
  have hsorted := orders_sorted hm.wf (hm.exact he) o.side.opposite
  rw [hm.opposite] at hsorted
  rcases hqueue : (b.matched o).queue with _ | ⟨best, rest⟩
  · simp [hqueue] at hy
  · rw [hqueue] at hhead hsorted hy
    have hbest := (refuses_eq_true.mp (hhead best rfl)).1
    rw [hprice]
    rcases List.mem_cons.mp hy with rfl | hy
    · exact hbest
    · rcases (List.pairwise_cons.mp hsorted).1 y hy with hbetter | heq
      · exact OrderSide.better_trans hbest hbetter
      · exact heq ▸ hbest

/-- **No call crosses the book.** -/
theorem step_uncrossed [Zero α] {b' : QueueBook α} {c : Call α} {r : Ret α} (hb : WF symbol b)
    (h : Step b c r b') (he : Exact b) (hu : Uncrossed b) : Uncrossed b' := by
  cases c with
  | cancelOrder id symbol side =>
      cases h with
      | cancel h =>
          intro x hx y hy
          rw [(hb.cancelOrder_ok h).2.2] at hx hy
          exact hu x (List.mem_filter.mp hx).1 y (List.mem_filter.mp hy).1
  | processNewOrder o =>
      obtain ⟨out, -, ⟨rfl, -⟩ | ⟨-, b₁, hm⟩⟩ := step_process hb h
      · exact hu
      · refine (uncrossed_iff o.side b').mpr ?_
        intro x hx y hy
        rcases hm.mem_own.mp hx with hx | ⟨hexit, rfl⟩
        · rw [hm.orders_opposite] at hy
          obtain ⟨z, hz, hzy⟩ := fillQueue_queue y hy
          rw [hzy]
          exact (uncrossed_iff o.side b).mp hu x hx z hz
        · exact hm.rested_uncrossed he hexit y hy

end QueueBook

end OrderMatchingEngine
