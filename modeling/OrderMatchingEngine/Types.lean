import Mathlib.Data.UInt
import Mathlib.Order.Defs.LinearOrder
import Mathlib.Order.Defs.Unbundled
import Mathlib.Order.Lattice
import Mathlib.Tactic.Common

/-!
# OrderMatchingEngine.Types

The core types of `include/types.h`.

Identifiers, quantities and timestamps are the 64-bit unsigned integers of the source, so
`remainingQty` and `reduceQuantity` wrap exactly where the C++ does. A symbol is a
`std::string`, that is, a list of bytes.

`Price` stands for `double`: the numbers are any linear order (with a zero, for the
comparisons against `0.0`), and `nan` is the value for which every comparison is false.
-/

namespace OrderMatchingEngine

abbrev OrderID := UInt64
abbrev UserID := UInt64
abbrev Quantity := UInt64
abbrev Timestamp := UInt64
abbrev Symbol := List UInt8

/-! ### Prices -/

/-- A `double` as the engine uses it: a number, or NaN. -/
inductive Price (α : Type)
  | num (a : α)
  | nan
  deriving DecidableEq, Repr

namespace Price

variable {α : Type}

/-- `<` on doubles: false as soon as one side is NaN. -/
def lt [LT α] : Price α → Price α → Prop
  | num a, num b => a < b
  | _, _ => False

/-- `<=` on doubles: false as soon as one side is NaN. -/
def le [LE α] : Price α → Price α → Prop
  | num a, num b => a ≤ b
  | _, _ => False

/-- `==` on doubles: false as soon as one side is NaN. -/
def equal : Price α → Price α → Prop
  | num a, num b => a = b
  | _, _ => False

instance [LT α] : LT (Price α) := ⟨lt⟩
instance [LE α] : LE (Price α) := ⟨le⟩
instance [Zero α] : Zero (Price α) := ⟨num 0⟩

/-- Subtraction on doubles: NaN as soon as one side is NaN. -/
def sub [Sub α] : Price α → Price α → Price α
  | num a, num b => num (a - b)
  | _, _ => nan

instance [Sub α] : Sub (Price α) := ⟨sub⟩

instance [LT α] [DecidableLT α] : DecidableLT (Price α)
  | num a, num b => inferInstanceAs (Decidable (a < b))
  | num _, nan => inferInstanceAs (Decidable False)
  | nan, num _ => inferInstanceAs (Decidable False)
  | nan, nan => inferInstanceAs (Decidable False)

instance [LE α] [DecidableLE α] : DecidableLE (Price α)
  | num a, num b => inferInstanceAs (Decidable (a ≤ b))
  | num _, nan => inferInstanceAs (Decidable False)
  | nan, num _ => inferInstanceAs (Decidable False)
  | nan, nan => inferInstanceAs (Decidable False)

@[simp] theorem num_lt_num [LT α] {a b : α} : num a < num b ↔ a < b := Iff.rfl
@[simp] theorem not_lt_nan [LT α] (p : Price α) : ¬ p < nan := by cases p <;> exact id
@[simp] theorem not_nan_lt [LT α] (p : Price α) : ¬ nan < p := by cases p <;> exact id
@[simp] theorem num_le_num [LE α] {a b : α} : num a ≤ num b ↔ a ≤ b := Iff.rfl
@[simp] theorem not_le_nan [LE α] (p : Price α) : ¬ p ≤ nan := by cases p <;> exact id
@[simp] theorem not_nan_le [LE α] (p : Price α) : ¬ nan ≤ p := by cases p <;> exact id

theorem zero_def [Zero α] : (0 : Price α) = num 0 := rfl

theorem equal_iff {p q : Price α} : p.equal q ↔ p = q ∧ q ≠ nan := by
  cases p <;> cases q <;> simp [equal]

/-- The comparison of doubles is a strict order, NaN included. -/
instance [LinearOrder α] : IsStrictOrder (Price α) (· < ·) where
  irrefl
    | num a => lt_irrefl a
    | nan => id
  trans
    | num _, num _, num _, h, h' => lt_trans h h'

/-- Two numbers neither of which is below the other are equal. -/
theorem eq_of_not_lt [LinearOrder α] {p q : Price α} (hp : p ≠ nan) (hq : q ≠ nan)
    (h : ¬ p < q) (h' : ¬ q < p) : p = q := by
  cases p with
  | nan => exact absurd rfl hp
  | num a =>
      cases q with
      | nan => exact absurd rfl hq
      | num b => exact congrArg num (le_antisymm (not_lt.mp h') (not_lt.mp h))

theorem le_of_lt_or_eq [LinearOrder α] {p q : Price α} (hq : q ≠ nan) (h : p < q ∨ p = q) :
    p ≤ q := by
  rcases h with h | rfl
  · cases p with
    | nan => exact absurd h (not_nan_lt q)
    | num a =>
        cases q with
        | nan => exact absurd rfl hq
        | num b => exact le_of_lt (num_lt_num.mp h)
  · cases p with
    | nan => exact absurd rfl hq
    | num a => exact le_refl a

theorem not_lt_iff [LinearOrder α] {p q : Price α} (hp : p ≠ nan) (hq : q ≠ nan) :
    ¬ p < q ↔ q ≤ p := by
  cases p with
  | nan => exact absurd rfl hp
  | num a =>
      cases q with
      | nan => exact absurd rfl hq
      | num b => exact not_lt

theorem not_lt_of_le [LinearOrder α] {p q : Price α} (h : p ≤ q) : ¬ q < p := by
  cases p with
  | nan => exact not_lt_nan q
  | num a =>
      cases q with
      | nan => exact not_nan_lt _
      | num b => exact not_lt.mpr (num_le_num.mp h)

/-- Where differences have the right sign, the difference of ordered prices is positive. -/
theorem zero_lt_sub [LT α] [Zero α] [Sub α] (hsub : ∀ a b : α, a < b → 0 < b - a) {p q : Price α}
    (h : p < q) : 0 < q - p := by
  cases p with
  | nan => exact absurd h (not_nan_lt q)
  | num a =>
      cases q with
      | nan => exact absurd h (not_lt_nan _)
      | num b => exact hsub a b h

end Price

/-! ### Orders and trades -/

/-- `enum class OrderSide`. -/
inductive OrderSide
  | buy
  | sell
  deriving DecidableEq, Repr

/-- The other side. -/
def OrderSide.opposite : OrderSide → OrderSide
  | buy => sell
  | sell => buy

@[simp] theorem OrderSide.opposite_buy : OrderSide.buy.opposite = .sell := rfl
@[simp] theorem OrderSide.opposite_sell : OrderSide.sell.opposite = .buy := rfl
@[simp] theorem OrderSide.opposite_opposite (sd : OrderSide) : sd.opposite.opposite = sd := by
  cases sd <;> rfl

theorem OrderSide.ne_opposite (sd : OrderSide) : sd ≠ sd.opposite := by cases sd <;> decide

theorem OrderSide.eq_opposite_of_ne {sd sd' : OrderSide} (h : sd ≠ sd') : sd = sd'.opposite := by
  cases sd <;> cases sd' <;> first | rfl | exact absurd rfl h

/-- `enum class OrderType`. -/
inductive OrderType
  | limit
  | market
  | fok
  | ioc
  | gfd
  deriving DecidableEq, Repr

/-- `enum class OrderStatus`. The engine copies it with the order and never sets it. -/
inductive OrderStatus
  | new
  | partiallyFilled
  | filled
  | cancelled
  deriving DecidableEq, Repr

/-- `struct Order`. -/
structure Order (α : Type) where
  id : OrderID
  symbol : Symbol
  userId : UserID
  side : OrderSide
  type : OrderType
  price : Price α
  quantity : Quantity
  quantityFilled : Quantity := 0
  status : OrderStatus := .new
  timestamp : Timestamp
  deriving DecidableEq, Repr

/-- The value-initialised `Order` that fills a fresh pool. -/
instance {α : Type} [Zero α] : Inhabited (Order α) :=
  ⟨{ id := 0, symbol := [], userId := 0, side := .buy, type := .limit, price := 0,
     quantity := 0, timestamp := 0 }⟩

/-- `struct Trade`. -/
structure Trade (α : Type) where
  buyOrderId : OrderID
  buyUserId : UserID
  sellOrderId : OrderID
  sellUserId : UserID
  symbol : Symbol
  price : Price α
  quantity : Quantity
  timestamp : Timestamp
  deriving DecidableEq, Repr

/-- The order on one side of a trade. -/
def Trade.orderId {α : Type} (t : Trade α) : OrderSide → OrderID
  | .buy => t.buyOrderId
  | .sell => t.sellOrderId

namespace Order

variable {α : Type}

/-- `bool is_filled() const`. -/
def isFilled (o : Order α) : Bool := o.quantityFilled ≥ o.quantity

/-- `Quantity remaining_qty() const`: an unsigned subtraction. -/
def remainingQty (o : Order α) : Quantity := o.quantity - o.quantityFilled

/-- `void reduce_quantity(Quantity qty)`: an unsigned addition. -/
def reduceQuantity (o : Order α) (qty : Quantity) : Order α :=
  { o with quantityFilled := o.quantityFilled + qty }

/-- The order still wants something. -/
def Live (o : Order α) : Prop := o.quantityFilled < o.quantity

/-- The quantity that is not yet executed, as a number. -/
def unfilled (o : Order α) : Nat := o.remainingQty.toNat

section ReduceQuantity

variable (o : Order α) (qty : Quantity)

@[simp] theorem reduceQuantity_id : (o.reduceQuantity qty).id = o.id := rfl
@[simp] theorem reduceQuantity_quantity : (o.reduceQuantity qty).quantity = o.quantity := rfl
@[simp] theorem reduceQuantity_quantityFilled :
    (o.reduceQuantity qty).quantityFilled = o.quantityFilled + qty := rfl

end ReduceQuantity

@[simp] theorem isFilled_eq_false {o : Order α} : o.isFilled = false ↔ o.Live := by
  simp [isFilled, Live]

theorem isFilled_eq_true {o : Order α} : o.isFilled = true ↔ o.quantity ≤ o.quantityFilled := by
  simp [isFilled]

/-- Two records of one order: they differ at most in the executed quantity. -/
def SameOrder (o o' : Order α) : Prop :=
  o' = { o with quantityFilled := o'.quantityFilled }

theorem SameOrder.refl (o : Order α) : o.SameOrder o := rfl

theorem SameOrder.trans {o o' o'' : Order α} (h : o.SameOrder o') (h' : o'.SameOrder o'') :
    o.SameOrder o'' := by
  unfold SameOrder at h h' ⊢
  rw [h', h]

theorem sameOrder_reduceQuantity (o : Order α) (qty : Quantity) :
    o.SameOrder (o.reduceQuantity qty) := rfl

end Order

/-- `struct L1Quote`: the best bid and the best ask with their quantities. -/
structure L1Quote (α : Type) where
  bid : Price α
  bidQty : Quantity
  ask : Price α
  askQty : Quantity
  deriving DecidableEq, Repr

/-- The fields of a side of a quote. -/
def L1Quote.entry {α : Type} (quote : L1Quote α) : OrderSide → Price α × Quantity
  | .buy => (quote.bid, quote.bidQty)
  | .sell => (quote.ask, quote.askQty)

/-- `struct L2Quote`: the best levels of a book with their total quantities. -/
structure L2Quote (α : Type) where
  bids : List (Price α × Quantity)
  asks : List (Price α × Quantity)
  deriving DecidableEq, Repr

/-- The entries of a side of a quote. -/
def L2Quote.entries {α : Type} (quote : L2Quote α) : OrderSide → List (Price α × Quantity)
  | .buy => quote.bids
  | .sell => quote.asks

/-- A trade without the wall-clock time it was stamped with. -/
def Trade.untimed {α : Type} (t : Trade α) : Trade α := { t with timestamp := 0 }

end OrderMatchingEngine
