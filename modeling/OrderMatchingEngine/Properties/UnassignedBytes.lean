import OrderMatchingEngine.Properties.SymbolDecoding
import OrderMatchingEngine.Refinement.Listening

/-!
# OrderMatchingEngine.Properties.UnassignedBytes

What leaves the engine without having been assigned?

The message structs are local variables without an initialiser, and every one of them has a field
of characters whose last byte `strncpy(dst, src, sizeof(dst) - 1)` does not reach. So a packet is
answered with the same bytes from every memory exactly if it is not answered at all
(`no_uninitialised_bytes`).
-/

namespace OrderMatchingEngine

open ClientGateway GatewayService

/-! ### One message -/

/-- A message has a field of characters that was not assigned to its end. -/
def LeavesByte : Message → Prop
  | .loginResponse resp => resp.message.length < 50
  | .executionReport report => report.symbol.length < 10
  | .marketDataSnapshot snapshot => snapshot.symbol.length < 10
  | .tradeUpdate msg => msg.symbol.length < 10

/-- Memory full of zeros, and memory full of ones. -/
def zeros : Nat → UInt8 := fun _ => 0
def ones : Nat → UInt8 := fun _ => 1

theorem characters_ne (offset : Nat) {size : Nat} {assigned : List UInt8}
    (h : assigned.length < size) :
    characters zeros offset size assigned ≠ characters ones offset size assigned := by
  intro heq
  have hrest := List.append_cancel_left heq
  obtain ⟨n, hn⟩ : ∃ n, size - assigned.length = n + 1 := ⟨size - assigned.length - 1, by omega⟩
  rw [hn, unassigned, unassigned, List.range_succ_eq_map, List.map_cons, List.map_cons] at hrest
  have hbyte : (0 : UInt8) = 1 := (List.cons.inj hrest).1
  exact absurd hbyte (by decide)

/-- The field that was not assigned to its end is in the message. -/
theorem characters_append_ne (offset : Nat) {size : Nat} {assigned rest rest' : List UInt8}
    (h : assigned.length < size) : characters zeros offset size assigned ++ rest ≠
      characters ones offset size assigned ++ rest' := by
  intro heq
  have hlen : (characters zeros offset size assigned).length =
      (characters ones offset size assigned).length := by
    rw [length_characters zeros offset h.le, length_characters ones offset h.le]
  exact characters_ne offset h (List.append_inj_left heq hlen)

/-- **The bytes of such a message** depend on the memory. -/
theorem bytes_ne {m : Message} (h : LeavesByte m) : m.bytes zeros ≠ m.bytes ones := by
  intro heq
  cases m with
  | loginResponse resp =>
      have hrest := List.append_cancel_left heq
      exact characters_ne 6 h (List.append_cancel_left hrest)
  | executionReport report =>
      have hrest := List.append_cancel_left heq
      have hrest := List.append_cancel_left (List.append_cancel_left hrest)
      exact characters_append_ne 29 h (List.append_cancel_left hrest)
  | marketDataSnapshot snapshot =>
      exact characters_append_ne 5 h (List.append_cancel_left heq)
  | tradeUpdate msg =>
      exact characters_append_ne 5 h (List.append_cancel_left heq)

/-- The engine's messages all have one. -/
theorem Message.Shaped.leavesByte {m : Message} (h : m.Shaped) : LeavesByte m := by
  cases m with
  | loginResponse resp => exact Nat.lt_of_le_of_lt (Nat.le_of_eq h.2) (by decide)
  | executionReport report => exact Nat.lt_of_le_of_lt (Nat.le_of_eq h.2) (by decide)
  | marketDataSnapshot snapshot => exact Nat.lt_of_le_of_lt (Nat.le_of_eq h.2.1) (by decide)
  | tradeUpdate msg => exact Nat.lt_of_le_of_lt (Nat.le_of_eq h.2) (by decide)

/-! ### The answers to a packet -/

section Answers

variable {clock now : Nat → Timestamp} {fuel : Nat} {fd : Int} {data : List UInt8}
  {g g' : ClientGateway} {r : Reporting}

/-- A packet that is not answered: of an unknown type, of a client who has not logged in (and does
not), a subscription, or a request for a book that is not there. -/
def Unanswered (fd : Int) (data : List UInt8) (g : ClientGateway) : Prop :=
  match requestType? data with
  | none => True
  | some .subscriptionRequest => True
  | some .loginRequest => False
  | some .marketDataRequest => g.LoggedIn fd → ∃ req behind,
      Records.read? 15 data = some (req, behind) ∧
        g.engine.getOrderBook (cleanSymbol (OrderMatchingEngine.MarketDataRequest.symbol req)) =
          none
  | _ => ¬ g.LoggedIn fd

theorem snapshot?_eq_none {symbol : Symbol} :
    g.snapshot? symbol = none ↔ g.engine.getOrderBook symbol = none := by
  unfold snapshot?
  cases g.engine.getOrderBook symbol <;> simp

theorem andThen_ne_nil {r r' : Reporting} (h : r.sent ≠ []) : (r.andThen r').sent ≠ [] := by
  unfold Reporting.andThen
  split
  · exact h
  · exact List.append_ne_nil_of_left_ne_nil h _

/-- An order is reported on, whether it traded or not. -/
theorem reports_ne_nil {req : OrderMatchingEngine.NewOrderRequest} {behind : List UInt8}
    {trades : List (Trade Int)} : (reports now req behind fd trades g).sent ≠ [] := by
  refine andThen_ne_nil ?_
  cases trades with
  | nil => exact List.cons_ne_nil _ _
  | cons t trades =>
      rw [List.isEmpty_cons, if_neg (by decide), reportTrades]
      refine andThen_ne_nil ?_
      rw [reportTrade_eq]
      split <;> exact List.cons_ne_nil _ _

/-- Whether a packet is answered can be told from it and the state it finds. -/
theorem sent_eq_nil_iff (h : processPacket clock fuel now fd data g = .ok (r, g')) :
    r.sent = [] ↔ Unanswered fd data g := by
  unfold Unanswered
  cases processPacket_answered h with
  | dropped hout hlogin =>
      refine iff_of_true rfl ?_
      rcases htype : requestType? data with _ | type
      · trivial
      · cases type with
        | loginRequest => exact absurd htype hlogin
        | newOrder => exact hout
        | orderCancel => exact hout
        | marketDataRequest => exact fun hin => absurd hin hout
        | subscriptionRequest => trivial
  | unknown _ htype =>
      rw [htype]
      exact iff_of_true rfl trivial
  | login htype =>
      rw [htype]
      exact iff_of_false (List.cons_ne_nil _ _) id
  | newOrder hin htype =>
      rw [htype]
      exact iff_of_false reports_ne_nil (not_not.mpr hin)
  | orderCancel hin htype =>
      rw [htype]
      exact iff_of_false (List.cons_ne_nil _ _) (not_not.mpr hin)
  | @noBook req behind hin htype hread hnone =>
      rw [htype]
      exact iff_of_true rfl fun _ => ⟨req, behind, hread, snapshot?_eq_none.mp hnone⟩
  | @snapshot req behind snapshot hin htype hread hsnapshot =>
      rw [htype]
      refine iff_of_false (List.cons_ne_nil _ _) fun hnone => ?_
      obtain ⟨req', behind', hread', hbook⟩ := hnone hin
      obtain ⟨rfl, rfl⟩ := Prod.mk.inj (Option.some.inj (hread.symm.trans hread'))
      rw [snapshot?_eq_none.mpr hbook] at hsnapshot
      simp at hsnapshot
  | subscription _ htype =>
      rw [htype]
      exact iff_of_true rfl trivial

end Answers

/-- What reaches the sockets, if the `i`-th message was built in the memory `junk i`. -/
def wire (junk : Nat → Nat → UInt8) (sent : List Sent) : List (Int × List UInt8) :=
  sent.mapIdx fun i m => (m.fd, m.message.bytes (junk i))

/-- **No uninitialised memory is sent** in answer to a packet exactly if it is not answered; of
every message that is sent, some bytes are what the memory held before. -/
theorem no_uninitialised_bytes {clock now : Nat → Timestamp} {fuel : Nat} {fd : Int}
    {data : List UInt8} {g g' : ClientGateway} {r : Reporting}
    (h : processPacket clock fuel now fd data g = .ok (r, g')) :
    ((∀ junk junk', wire junk r.sent = wire junk' r.sent) ↔ Unanswered fd data g) ∧
      ∀ m ∈ r.sent, m.message.bytes zeros ≠ m.message.bytes ones := by
  have hleaves : ∀ m ∈ r.sent, m.message.bytes zeros ≠ m.message.bytes ones := fun m hm =>
    bytes_ne (processPacket_shaped h hm).leavesByte
  refine ⟨?_, hleaves⟩
  rw [← sent_eq_nil_iff h]
  constructor
  · intro hsame
    rcases hsent : r.sent with _ | ⟨m, rest⟩
    · rfl
    · have hwire := hsame (fun _ => zeros) fun _ => ones
      rw [hsent, wire, wire, List.mapIdx_cons, List.mapIdx_cons] at hwire
      have hbytes := congrArg Prod.snd (List.cons.inj hwire).1
      exact absurd hbytes (hleaves m (hsent ▸ List.mem_cons_self))
  · intro hnil junk junk'
    rw [hnil]
    rfl

/-- **A log-in is answered with a byte of the engine's memory.** -/
theorem login_leaks : ∃ r g', processPacket (fun _ => 0) 0 (fun _ => 0) 4 [0, 0, 76, 5, 0] started =
      .ok (r, g') ∧ wire (fun _ => zeros) r.sent ≠ wire (fun _ => ones) r.sent := by
  refine ⟨_, _, rfl, ?_⟩
  decide

/-- A packet of no known type. -/
theorem no_uninitialised_bytes_unknown :
    ∃ r g', processPacket (fun _ => 0) 0 (fun _ => 0) 4 [0, 0, 1, 5, 0] started = .ok (r, g') ∧
      ∀ junk junk', wire junk r.sent = wire junk' r.sent := by
  have hp : processPacket (fun _ => 0) 0 (fun _ => 0) 4 [0, 0, 1, 5, 0] started =
      .ok ({}, started) := rfl
  exact ⟨_, _, hp, (no_uninitialised_bytes hp).1.mpr trivial⟩

end OrderMatchingEngine
