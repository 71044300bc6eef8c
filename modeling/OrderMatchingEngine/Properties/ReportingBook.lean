import Mathlib.Data.List.DropRight
import OrderMatchingEngine.Refinement.Handlers

/-!
# OrderMatchingEngine.Properties.ReportingBook

The book that trades are reported from.

A request's ten symbol bytes name a book twice: `clean_symbol` makes the name under which the order
is matched, and the conversion of `req.symbol` to a C string the name under which the book is
looked up for the reports. The first drops NULs anywhere and spaces at the end; the second stops at
the first NUL and, without one, reads on into the side. `reporting_book_found` says for which bytes
the two agree. Where they do not, the look-up gives no book or another one.
-/

namespace OrderMatchingEngine

/-! ### Two names from the same bytes -/

theorem cleanSymbol_eq (raw : List UInt8) :
    cleanSymbol raw = (raw.filter (· ≠ 0)).rdropWhile isSpace := rfl

/-- Cutting spaces off the end leaves `name` of `name ++ rest` exactly if `rest` is spaces, and
`name` does not end in one. -/
theorem rdropWhile_append_eq_left {p : UInt8 → Bool} {name rest : List UInt8} :
    (name ++ rest).rdropWhile p = name ↔
      name.rdropWhile p = name ∧ ∀ byte ∈ rest, p byte = true := by
  constructor
  · intro h
    have hsplit := List.rdropWhile_append_rtakeWhile (p := p) (l := name ++ rest)
    rw [h, List.append_cancel_left_eq] at hsplit
    refine ⟨?_, fun byte hbyte => List.mem_rtakeWhile_imp (hsplit ▸ hbyte)⟩
    rw [← h, List.rdropWhile_idempotent, h]
  · intro h
    obtain ⟨hname, hrest⟩ := h
    rw [List.rdropWhile, List.reverse_append, List.dropWhile_append_of_pos, ← List.rdropWhile,
      hname]
    simpa using hrest

/-- A name without a space at its end is not cut. -/
theorem rdropWhile_eq_self {p : UInt8 → Bool} {name : List UInt8} :
    name.rdropWhile p = name ↔ ∀ byte ∈ name.getLast?, p byte = false := by
  rw [List.rdropWhile_eq_self_iff]
  cases hlast : name.getLast? with
  | none => simp [List.getLast?_eq_none_iff.mp hlast]
  | some byte =>
      have hne : name ≠ [] := by
        rintro rfl
        simp at hlast
      rw [List.getLast?_eq_some_getLast hne, Option.some.injEq] at hlast
      simp [hne, hlast]

/-- **When the C string is the clean symbol**: the name does not end in a space, behind it there
are NULs and spaces only, and where it takes all bytes a NUL follows them. -/
theorem cString_eq_cleanSymbol (raw : List UInt8) (side : UInt8) (rest : List UInt8) :
    ((raw ++ side :: rest).contains 0 = true ∧
        (raw ++ side :: rest).takeWhile (· ≠ 0) = cleanSymbol raw) ↔
      (∀ byte ∈ (raw.takeWhile (· ≠ 0)).getLast?, isSpace byte = false) ∧
        (∀ byte ∈ raw.dropWhile (· ≠ 0), byte = 0 ∨ isSpace byte = true) ∧
        (raw.dropWhile (· ≠ 0) = [] → side = 0) := by
  have hraw := List.takeWhile_append_dropWhile (p := (· ≠ 0)) (l := raw)
  have hname : ∀ byte ∈ raw.takeWhile (· ≠ 0), byte ≠ 0 := fun byte hbyte => by
    simpa using List.mem_takeWhile_imp hbyte
  have hpadding : ∀ hne : raw.dropWhile (· ≠ 0) ≠ [], (raw.dropWhile (· ≠ 0)).head hne = 0 :=
    fun hne => by simpa using List.head_dropWhile_not (fun byte : UInt8 => decide (byte ≠ 0)) hne
  generalize raw.takeWhile (· ≠ 0) = name at hraw hname ⊢
  generalize raw.dropWhile (· ≠ 0) = padding at hraw hpadding ⊢
  subst hraw
  have hfilter : name.filter (· ≠ 0) = name := List.filter_eq_self.mpr (by simpa using hname)
  have htake : ∀ l : List UInt8,
      (name ++ l).takeWhile (· ≠ 0) = name ++ l.takeWhile (· ≠ 0) := fun l =>
    List.takeWhile_append_of_pos (by simpa using hname)
  rw [cleanSymbol_eq, ← rdropWhile_eq_self, List.append_assoc, htake, List.filter_append, hfilter]
  rcases padding with _ | ⟨byte, padding⟩
  · -- The name takes all bytes, so the C string goes on with what is behind them.
    rw [List.nil_append, List.filter_nil, List.append_nil]
    constructor
    · intro h
      obtain ⟨-, hsame⟩ := h
      have hlen := congrArg List.length hsame
      have hle := (List.rdropWhile_prefix isSpace (l := name)).length_le
      rw [List.length_append] at hlen
      have hnil : (side :: rest).takeWhile (· ≠ 0) = [] :=
        List.length_eq_zero_iff.mp (by omega)
      rw [hnil, List.append_nil] at hsame
      refine ⟨hsame.symm, by simp, fun _ => ?_⟩
      by_contra hside
      simp [hside] at hnil
    · intro h
      obtain ⟨hself, -, hside⟩ := h
      rw [hside rfl, hself]
      simp
  · obtain rfl : byte = 0 := hpadding (by simp)
    have hstop : (0 :: padding ++ side :: rest).takeWhile (· ≠ 0) = [] := by simp
    have hnul : (name ++ (0 :: padding ++ side :: rest)).contains 0 = true := by simp
    have hspaces : (∀ byte ∈ (0 :: padding).filter (· ≠ 0), isSpace byte = true) ↔
        ∀ byte ∈ 0 :: padding, byte = 0 ∨ isSpace byte = true := by
      simp only [List.mem_filter, decide_eq_true_eq, and_imp, or_iff_not_imp_left, ne_eq]
    rw [hstop, List.append_nil, hnul, eq_comm (a := name), rdropWhile_append_eq_left, hspaces]
    simp

namespace ClientGateway

open MatchingEngine

/-- The symbol bytes are a name with NULs and spaces behind it, not starting with a space, or a
name of ten bytes before the NUL of a BUY. -/
def NamesBook (req : NewOrderRequest) : Prop :=
  (∀ byte ∈ (req.symbol.takeWhile (· ≠ 0)).getLast?, isSpace byte = false) ∧
    (∀ byte ∈ req.symbol.dropWhile (· ≠ 0), byte = 0 ∨ isSpace byte = true) ∧
    (req.symbol.dropWhile (· ≠ 0) = [] → req.side = 0)

section Request

variable {clock now : Nat → Timestamp} {fuel : Nat} {fd : Int} {g g' : ClientGateway}
  {r : Reporting} {req : NewOrderRequest} {behind : List UInt8} {trades : List (Trade Int)}
  {e : MatchingEngine Int}

/-- The look-up for the reports gives the book in which the order was matched: the engine's books
are the entries of a map, so two books are one if their keys are. -/
def FindsItsBook (req : NewOrderRequest) (behind : List UInt8) (e : MatchingEngine Int) : Prop :=
  ∃ symbol book, req.symbolString behind = .ok symbol ∧ e.getOrderBook symbol = some book ∧
    symbol = cleanSymbol req.symbol

/-- The bytes of a request from its symbol on. -/
theorem units_symbol (req : NewOrderRequest) :
    req.units.drop 21 = req.symbol ++ req.side :: req.units.drop 32 := by
  have hbehind : req.units.drop 31 = req.side :: req.units.drop 32 := by
    have hlen : (req.units.drop 31).length = 18 := by rw [List.length_drop, req.size]
    have hside : req.side = .ofNat (littleEndian ((req.units.drop 31).take 1)) := rfl
    have hrest : req.units.drop 32 = (req.units.drop 31).drop 1 := by rw [List.drop_drop]
    rw [hside, hrest]
    cases hdrop : req.units.drop 31 with
    | nil => simp [hdrop] at hlen
    | cons byte bytes => simp [littleEndian]
  rw [← hbehind, NewOrderRequest.symbol, field, ← List.drop_drop (i := 10) (j := 21),
    List.take_append_drop]

/-- The C string of a request is its clean symbol exactly if the bytes name a book. -/
theorem symbolString_eq (req : NewOrderRequest) (behind : List UInt8) :
    req.symbolString behind = .ok (cleanSymbol req.symbol) ↔ NamesBook req := by
  rw [NamesBook, ← cString_eq_cleanSymbol req.symbol req.side (req.units.drop 32 ++ behind),
    NewOrderRequest.symbolString, units_symbol, List.append_assoc, List.cons_append]
  split
  · rename_i hnul
    rw [Except.ok.injEq]
    exact ⟨fun h => ⟨hnul, h⟩, And.right⟩
  · rename_i hnul
    exact iff_of_false (by simp) fun h => hnul h.1

/-- An order that trades leaves its symbol with a book. -/
theorem processNewOrder_opens {engine : MatchingEngine Int}
    (h : processNewOrder clock fuel req.order e = .ok (trades, engine)) (hne : trades ≠ []) :
    ∃ book, engine.getOrderBook req.order.symbol = some book := by
  obtain ⟨⟨out, engine'⟩, hp, heq⟩ := FuelLoop.map_eq_ok.mp h
  obtain ⟨rfl, rfl⟩ := Prod.mk.inj heq
  cases processOrder_cases hp with
  | exhausted => exact absurd rfl hne
  | invalid => exact absurd rfl hne
  | killed => exact absurd rfl hne
  | settled hfree hv => exact processOrder_opens (hfree ▸ List.cons_ne_nil _ _) hv hp

/-- **The reports find the book of the trades exactly if** the symbol bytes name it to both rules;
the handler then reports all trades. -/
theorem reporting_book_found (hin : g.LoggedIn fd)
    (h : handleNewOrder clock now fuel fd req behind g = .ok (r, g'))
    (htrades : processNewOrder clock fuel req.order g.engine = .ok (trades, g'.engine))
    (hne : trades ≠ []) :
    (FindsItsBook req behind g'.engine ↔ NamesBook req) ∧ (NamesBook req → r.fault = none) := by
  obtain ⟨book, hbook⟩ := processNewOrder_opens htrades hne
  have hfinds : FindsItsBook req behind g'.engine ↔ NamesBook req := by
    rw [← symbolString_eq req behind]
    constructor
    · intro hfinds
      obtain ⟨symbol, -, hsymbol, -, rfl⟩ := hfinds
      exact hsymbol
    · exact fun hsymbol => ⟨_, book, hsymbol, hbook, rfl⟩
  refine ⟨hfinds, fun hnames => ?_⟩
  obtain ⟨symbol, found, hsymbol, hfound, -⟩ := hfinds.mpr hnames
  obtain ⟨out, engine, -, rfl, rfl⟩ := handleNewOrder_ok hin h
  exact (reports_spec ..).2.mpr (.inr ⟨found, reportingBook_ok.mpr ⟨symbol, hsymbol, hfound⟩⟩)

end Request

/-! ### Concrete requests -/

section Concrete

/-- A request to sell five lots of `A`, with the symbol padded with spaces. -/
def paddedSell : NewOrderRequest := smallRequest 1 7 65 32 1 1 5

/-- A request to buy them. -/
def paddedBuy : NewOrderRequest := smallRequest 2 8 65 32 0 1 5

/-- The gateway after the first request. -/
def afterPaddedSell : ClientGateway := (after oneClient (.newOrder 4 paddedSell)).2

/-- What comes of the second. -/
def afterPaddedBuy : Reporting × ClientGateway := after afterPaddedSell (.newOrder 4 paddedBuy)

/-- The trades of the second. -/
def paddedTrades : List (Trade Int) := afterPaddedBuy.2.engine.tradeHistory

theorem paddedBuy_trades : processNewOrder (fun _ => 0) 10 paddedBuy.order afterPaddedSell.engine =
    .ok (paddedTrades, afterPaddedBuy.2.engine) := rfl

theorem paddedTrades_ne : paddedTrades ≠ [] := by
  intro hnone
  exact absurd (congrArg List.length hnone) (by decide)

/-- **Orders with a padded symbol trade, and the handler dies**: it looks the book up under the
padded name. -/
theorem padded_symbol_null :
    (∃ tr, Reaches (fun _ => 0) 100000 (fun _ _ => True) tr afterPaddedSell.engine) ∧
      afterPaddedSell.LoggedIn 4 ∧
      handleNewOrder (fun _ => 0) (fun _ => 0) 10 4 paddedBuy [] afterPaddedSell =
        .ok afterPaddedBuy ∧
      processNewOrder (fun _ => 0) 10 paddedBuy.order afterPaddedSell.engine =
        .ok (paddedTrades, afterPaddedBuy.2.engine) ∧
      paddedTrades ≠ [] ∧ afterPaddedBuy.1.fault = some .nullPointer ∧
      ¬ FindsItsBook paddedBuy [] afterPaddedBuy.2.engine := by
  have hp : processOrder (fun _ => 0) 10 paddedSell.order oneClient.engine =
      .ok (⟨.rested, paddedSell.order, []⟩, afterPaddedSell.engine) := rfl
  refine ⟨⟨_, Trace.Run.nil.snoc ⟨trivial, .process hp⟩⟩, rfl, rfl, paddedBuy_trades,
    paddedTrades_ne,
    rfl, ?_⟩
  intro hfinds
  obtain ⟨symbol, -, hsymbol, -, rfl⟩ := hfinds
  have hpadded : paddedBuy.symbolString [] = .ok [65, 32, 32, 32, 32, 32, 32, 32, 32, 32] := rfl
  rw [hpadded] at hsymbol
  exact absurd (Except.ok.inj hsymbol) (by decide)

/-- The second request does not name its book. -/
theorem reporting_book_found_paddedBuy :
    (FindsItsBook paddedBuy [] afterPaddedBuy.2.engine ↔ NamesBook paddedBuy) ∧
      (NamesBook paddedBuy → afterPaddedBuy.1.fault = none) := by
  have hin : afterPaddedSell.LoggedIn 4 := rfl
  have h : handleNewOrder (fun _ => 0) (fun _ => 0) 10 4 paddedBuy [] afterPaddedSell =
      .ok afterPaddedBuy := rfl
  exact reporting_book_found hin h paddedBuy_trades paddedTrades_ne

end Concrete

end ClientGateway

end OrderMatchingEngine
