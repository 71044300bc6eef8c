import OrderMatchingEngine.Processes
import OrderMatchingEngine.Properties.Replay
import OrderMatchingEngine.Refinement.Wire

/-!
# OrderMatchingEngine.Properties.OrderIds

When is an id that `gateway.py` hands out new?

The ids are counted in a process, and the orders that carry them rest in another and in its log. So
ids stay new as long as `gateway.py` is started again only where no order rests and none would rest
after a replay: every order that rests, now or after a replay, has an id that was counted
(`order_ids_unique`). A start at any other moment is followed by a run that hands out the id of a
resting order.
-/

namespace OrderMatchingEngine

open ClientGateway Records MatchingEngine

namespace Processes

/-! ### Ids that were counted -/

/-- The books hold only orders with ids from 1 to `k`. -/
structure Counted (k : Nat) (e : MatchingEngine Int) : Prop where
  inv : EngineInv e
  ids : ∀ symbol id, e.Rests symbol id → 0 < id.toNat ∧ id.toNat ≤ k

/-- No order rests in any book. -/
def NothingRests (e : MatchingEngine Int) : Prop := ∀ symbol id, ¬ e.Rests symbol id

theorem Counted.mono {k k' : Nat} {e : MatchingEngine Int} (h : Counted k e) (hle : k ≤ k') :
    Counted k' e :=
  ⟨h.inv, fun symbol id hrests => (h.ids symbol id hrests).imp_right fun hid => hid.trans hle⟩

theorem Counted.zero {k : Nat} {e : MatchingEngine Int} (h : Counted k e) (hnone : NothingRests e) :
    Counted 0 e := ⟨h.inv, fun symbol id hrests => absurd hrests (hnone symbol id)⟩

theorem counted_withPool (n k : Nat) : Counted k (withPool n : MatchingEngine Int) := by
  refine ⟨.withPool n, fun symbol id hrests => ?_⟩
  obtain ⟨x, hx, -⟩ := (rests_iff _ _ _).mp hrests
  rw [bookView_withPool] at hx
  simp [QueueBook.allOrders, QueueBook.orders, QueueBook.empty] at hx

/-- **One order** with the next id: only its id is added. -/
theorem Counted.process {clock : Nat → Timestamp} {fuel k : Nat} {o : Order Int} {out : Outcome Int}
    {e e' : MatchingEngine Int} (h : Counted k e) (hid : o.id.toNat = k + 1)
    (hp : processOrder clock fuel o e = .ok (out, e')) : Counted (k + 1) e' := by
  have hfresh : e.QueuesFresh (.processNewOrder o) := fun _ _ hrests => by
    have hle := (h.ids o.symbol o.id hrests).2
    omega
  obtain ⟨hinv, hframe, hstep⟩ := returns_spec h.inv hfresh (.process hp)
  refine ⟨hinv, fun symbol id hrests => ?_⟩
  obtain ⟨x, hx, rfl⟩ := (rests_iff e' symbol id).mp hrests
  by_cases hsymbol : symbol = o.symbol
  · subst hsymbol
    obtain ⟨sd, hx⟩ := QueueBook.mem_allOrders.mp hx
    rcases QueueBook.step_origin (h.inv.wf _) hstep hx with ⟨y, hy, hsame⟩ | ⟨hqueued, -⟩
    · have hrests' := (rests_iff e o.symbol y.id).mpr ⟨y, QueueBook.mem_allOrders.mpr ⟨sd, hy⟩, rfl⟩
      rw [hsame]
      exact (h.mono (Nat.le_succ k)).ids _ _ hrests'
    · obtain ⟨o', out', hcall, -, -, -, hsame, -⟩ := hqueued
      obtain rfl := Call.processNewOrder.inj hcall
      rw [hsame]
      show 0 < o.id.toNat ∧ o.id.toNat ≤ k + 1
      omega
  · rw [hframe.bookView hsymbol] at hx
    exact (h.mono (Nat.le_succ k)).ids _ _ ((rests_iff e symbol x.id).mpr ⟨x, hx, rfl⟩)

/-! ### The log and the engine -/

/-- Every replay of these records that ends leaves books of counted ids. -/
def ReplaysCounted (n k : Nat) (recs : List NewOrderRequest) : Prop :=
  ∀ clock now fuel g₀ g, g₀.engine = withPool n →
    forEach (replayEvent clock now fuel) recs g₀ = .ok g →
      Counted k g.engine ∧ g.eventLog = g₀.eventLog

/-- What rests has an id that was counted: in the engine, and after every replay of the log. -/
structure Inv (n : Nat) (s : Processes) : Prop where
  live : ∀ g, s.engine = some g → g.eventLog = s.ordersBin ∧ Counted s.orderIdCounter g.engine
  log : ∃ recs, s.ordersBin = written recs ∧ ReplaysCounted n s.orderIdCounter recs

theorem ReplaysCounted.mono {n k k' : Nat} {recs : List NewOrderRequest}
    (h : ReplaysCounted n k recs) (hle : k ≤ k') : ReplaysCounted n k' recs :=
  fun clock now fuel g₀ g hg₀ hg =>
    have hcounted := h clock now fuel g₀ g hg₀ hg
    ⟨hcounted.1.mono hle, hcounted.2⟩

/-- One more order in the log. -/
theorem ReplaysCounted.snoc {n k : Nat} {recs : List NewOrderRequest} {req : NewOrderRequest}
    (h : ReplaysCounted n k recs) (hid : req.clientOrderId.toNat = k + 1) :
    ReplaysCounted n (k + 1) (recs ++ [req]) := by
  intro clock now fuel g₀ g hg₀ hg
  rcases hfront : forEach (replayEvent clock now fuel) recs g₀ with fault | g₁
  · rw [forEach_append_error hfront] at hg
    simp at hg
  · obtain ⟨hcounted, hlog⟩ := h clock now fuel g₀ g₁ hg₀ hfront
    rw [forEach_append hfront, forEach, replayEvent_eq] at hg
    split at hg
    · simp at hg
    · rename_i g₂ hlast
      obtain ⟨⟨out, engine⟩, hp, rfl⟩ := FuelLoop.map_eq_ok.mp hlast
      obtain rfl := Except.ok.inj hg
      exact ⟨hcounted.process (o := req.order) hid hp, hlog⟩

/-- **The packet of `PlaceOrder`** is a new order with the id. -/
theorem placeOrder_new {orderId userId : Nat} {request : TradingPb2.NewOrderRequest}
    {data : List UInt8} (h : GatewayService.placeOrder orderId userId request = some data) :
    ∃ req : NewOrderRequest, req.units = data ∧ req.clientOrderId.toNat = orderId ∧
      ∀ clock fuel now fd g, processPacket clock fuel now fd data g =
        handleNewOrder clock now fuel fd req [] g := by
  have hpacket := GatewayService.placeOrder_packet h
  obtain ⟨req, rfl, hread⟩ := hpacket.read? (n := 49) rfl
  refine ⟨req, rfl, ?_, fun clock fuel now fd g =>
    GatewayService.placeOrder_processed clock fuel now fd g h hread⟩
  have hid : StructFormat.decode (field req 5 8) = orderId :=
    StructFormat.Value.int.inj (List.cons.inj hpacket.payload).1
  have hlen : (field req 5 8).length ≤ 8 := List.length_take_le _ _
  have hlt : StructFormat.decode (field req 5 8) < 2 ^ 64 :=
    (StructFormat.decode_lt _).trans_le (Nat.pow_le_pow_right (by decide) hlen)
  rw [NewOrderRequest.clientOrderId, littleEndian_eq, ← hid]
  exact Nat.mod_eq_of_lt hlt

/-! ### Steps -/

section Steps

variable {clock now : Nat → Timestamp} {fuel n : Nat} {s s' : Processes}

theorem Inv.getOrderId (h : Inv n s) : Inv n s.getOrderId.2 := by
  have hle : s.orderIdCounter ≤ s.orderIdCounter + 1 := Nat.le_succ _
  obtain ⟨recs, hrecs, hreplays⟩ := h.log
  exact ⟨fun g hg => ⟨(h.live g hg).1, (h.live g hg).2.mono hle⟩, recs, hrecs, hreplays.mono hle⟩

/-- The log with one more order, if it is open. -/
theorem Inv.logged (h : Inv n s) {g : ClientGateway} (hg : g.eventLog = s.ordersBin)
    {req : NewOrderRequest} (hid : req.clientOrderId.toNat = s.orderIdCounter + 1) :
    ∃ recs, (g.log req.units).eventLog = written recs ∧
      ReplaysCounted n (s.orderIdCounter + 1) recs := by
  obtain ⟨recs, hrecs, hreplays⟩ := h.log
  rw [(log_frame req.units g).2.2, hg, hrecs]
  split
  · exact ⟨recs ++ [req], by rw [written_append, written_cons, written_nil, List.append_nil],
      hreplays.snoc hid⟩
  · exact ⟨recs, rfl, hreplays.mono (Nat.le_succ _)⟩

/-- The packet of a new order: the log and the books get it, unless its client is not known. -/
theorem Inv.receivePacket (h : Inv n s) {fd : Int} {g : ClientGateway} (hg : s.engine = some g)
    {req : NewOrderRequest} (hid : req.clientOrderId.toNat = s.orderIdCounter + 1)
    (hreq : processPacket clock fuel now fd req.units g =
      handleNewOrder clock now fuel fd req [] g) :
    Inv n (s.getOrderId.2.receivePacket clock now fuel fd req.units g) := by
  obtain ⟨hlog, hcounted⟩ := h.live g hg
  obtain ⟨recs, hrecs, hreplays⟩ := h.logged hlog hid
  unfold Processes.receivePacket
  rw [hreq]
  by_cases hin : g.LoggedIn fd
  · rw [handleNewOrder_eq hin, (log_frame req.units g).1]
    rcases hp : processOrder clock fuel req.order g.engine with fault | ⟨out, engine⟩
    · exact ⟨nofun, recs, hrecs, hreplays⟩
    · have hcounted' := hcounted.process (o := req.order) hid hp
      dsimp only [Except.map]
      split
      · exact ⟨nofun, recs, hrecs, hreplays⟩
      · refine ⟨fun g' hg' => ?_, recs, hrecs, hreplays⟩
        obtain rfl := Option.some.inj hg'
        exact ⟨rfl, hcounted'⟩
  · obtain ⟨hengine, -, hsame⟩ := session_frame fd g
    obtain ⟨recs, hrecs, hreplays⟩ := h.getOrderId.log
    rw [handleNewOrder_dropped hin]
    refine ⟨fun g' hg' => ?_, recs, ?_, hreplays⟩
    · obtain rfl := Option.some.inj hg'
      rw [hengine]
      exact ⟨rfl, (h.getOrderId.live g hg).2⟩
    · show (g.session fd).2.eventLog = _
      rw [hsame, hlog]
      exact hrecs

theorem Inv.placeOrder (h : Inv n s) (user : Option Nat) (request : TradingPb2.NewOrderRequest) :
    Inv n (s.placeOrder clock now fuel user request).2 := by
  unfold Processes.placeOrder
  dsimp only
  split
  · rename_i data fd g hdata hsock hg
    obtain ⟨userId, -, hdata⟩ := Option.bind_eq_some_iff.mp hdata
    obtain ⟨req, rfl, hid, hreq⟩ := placeOrder_new hdata
    exact h.receivePacket hg hid (hreq clock fuel now fd g)
  · exact h.getOrderId

variable (clock now fuel) in
/-- A restart of `gateway.py` reaches an engine that runs, and changes neither its books nor the
log. -/
theorem restartGateway_some {g : ClientGateway} (hg : s.engine = some g) (fd : Int) :
    ∃ g', s.restartGateway clock now fuel fd =
        { orderIdCounter := 0, omeSock := some fd, engine := some g', ordersBin := g.eventLog } ∧
      g'.engine = g.engine ∧ g'.eventLog = g.eventLog := by
  obtain ⟨data, hdata⟩ : ∃ data, GatewayService.connectToOme = some data := ⟨_, rfl⟩
  have hlogin : ∀ g₁ : ClientGateway, processPacket clock fuel now fd data g₁ =
      .ok (handleLogin fd g₁) :=
    fun g₁ => GatewayService.connectToOme_processed clock fuel now fd g₁ hdata
  have hframe : ∀ g₁ : ClientGateway, ((g₁.onConnection fd).logIn fd).engine = g₁.engine ∧
      ((g₁.onConnection fd).logIn fd).eventLog = g₁.eventLog := fun g₁ =>
    ⟨(session_frame fd (g₁.onConnection fd)).1, (session_frame fd (g₁.onConnection fd)).2.2⟩
  unfold restartGateway
  rw [hg, hdata]
  dsimp only
  rw [Processes.receivePacket, hlogin]
  cases s.omeSock with
  | none => exact ⟨_, by rw [← (hframe g).2]; rfl, hframe g⟩
  | some old =>
      obtain ⟨hengine, hlog⟩ := hframe (g.onDisconnection old)
      exact ⟨_, by rw [show g.eventLog = (g.onDisconnection old).eventLog from rfl, ← hlog]; rfl,
        hengine, hlog⟩

variable (clock now fuel) in
theorem restartGateway_none (hg : s.engine = none) (fd : Int) :
    s.restartGateway clock now fuel fd = { s with orderIdCounter := 0, omeSock := none } := by
  unfold restartGateway
  rw [hg]

/-- **`gateway.py` may be started again**: no order rests, and none rests after a replay of the
log. -/
def Settled (n : Nat) (s : Processes) : Prop :=
  (∀ g, s.engine = some g → NothingRests g.engine) ∧
    ∀ clock now fuel logOpen g, (s.freshEngine n logOpen).replayEvents clock now fuel
      (some s.ordersBin) = .ok g → NothingRests g.engine

/-- A replay of the log is a replay of its records. -/
theorem replayEvents_log {recs : List NewOrderRequest} (hrecs : s.ordersBin = written recs)
    (g : ClientGateway) : replayEvents clock now fuel (some s.ordersBin) g =
      forEach (replayEvent clock now fuel) recs g := by
  have hreplay : replayEvents clock now fuel (some (written recs ++ [])) g = _ :=
    replayEvents_written (by decide) g
  rwa [List.append_nil, ← hrecs] at hreplay

/-- A replay sees nothing but the engine. -/
theorem forEach_replayEvent {recs : List NewOrderRequest} {g₀ g₀' g : ClientGateway}
    (hengine : g₀'.engine = g₀.engine)
    (h : forEach (replayEvent clock now fuel) recs g₀ = .ok g) :
    forEach (replayEvent clock now fuel) recs g₀' = .ok { g₀' with engine := g.engine } := by
  induction recs generalizing g₀ g₀' with
  | nil =>
      obtain rfl := Except.ok.inj h
      rw [forEach, ← hengine]
  | cons req recs ih =>
      rw [forEach, replayEvent_eq] at h ⊢
      rw [hengine]
      cases hp : processOrder clock fuel req.order g₀.engine with
      | error fault => simp [hp, Except.map] at h
      | ok x =>
          simp only [hp, Except.map] at h ⊢
          have hsame : ({ g₀' with engine := x.2 } : ClientGateway).engine =
              ({ g₀ with engine := x.2 } : ClientGateway).engine := rfl
          exact ih hsame h

theorem Inv.restartGateway (h : Inv n s) (hsettled : Settled n s) (fd : Int) :
    Inv n (s.restartGateway clock now fuel fd) := by
  obtain ⟨hlive, hreplay⟩ := hsettled
  obtain ⟨recs, hrecs, hreplays⟩ := h.log
  have hzero : ReplaysCounted n 0 recs := by
    intro clock now fuel g₀ g hg₀ hg
    obtain ⟨hcounted, hlog⟩ := hreplays clock now fuel g₀ g hg₀ hg
    have hengine : (s.freshEngine n true).engine = g₀.engine := hg₀.symm
    have hfresh := forEach_replayEvent hengine hg
    rw [← replayEvents_log hrecs] at hfresh
    have hnone := hreplay clock now fuel true _ hfresh
    exact ⟨hcounted.zero hnone, hlog⟩
  rcases hg : s.engine with _ | g
  · rw [restartGateway_none clock now fuel hg]
    refine ⟨fun g hg' => ?_, recs, hrecs, hzero⟩
    have hnone : s.engine = some g := hg'
    rw [hg] at hnone
    nomatch hnone
  · obtain ⟨hlog, hcounted⟩ := h.live g hg
    obtain ⟨g', hg', hengine, hlog'⟩ := restartGateway_some clock now fuel hg fd
    rw [hg']
    refine ⟨fun g₁ hg₁ => ?_, recs, hlog.trans hrecs, hzero⟩
    obtain rfl := Option.some.inj hg₁
    exact ⟨hlog', hengine ▸ hcounted.zero (hlive g hg)⟩

theorem Inv.restartEngine (h : Inv n s) (logOpen readable : Bool) :
    Inv n (s.restartEngine clock now fuel n logOpen readable) := by
  obtain ⟨recs, hrecs, hreplays⟩ := h.log
  unfold Processes.restartEngine
  dsimp only
  split
  · exact ⟨nofun, recs, hrecs, hreplays⟩
  · rename_i g hg
    refine ⟨fun g' hg' => ?_, recs, hrecs, hreplays⟩
    obtain rfl := Option.some.inj hg'
    cases readable with
    | true =>
        rw [if_pos rfl, replayEvents_log hrecs] at hg
        obtain ⟨hcounted, hlog⟩ := hreplays clock now fuel _ g rfl hg
        exact ⟨hlog, hcounted⟩
    | false =>
        obtain rfl := Except.ok.inj hg
        exact ⟨rfl, counted_withPool n s.orderIdCounter⟩

/-- The steps that are taken: `gateway.py` is started again only in settled states. -/
def Settles (n : Nat) (s : Processes) : Action → Prop
  | .restartGateway _ => Settled n s
  | _ => True

/-- **One step** in such a state. -/
theorem Inv.step (h : Inv n s) {a : Action} {o : Option Nat} (hsettles : Settles n s a)
    (hstep : Step n s a o s') : Inv n s' := by
  obtain ⟨clock, now, fuel, hact⟩ := hstep
  obtain rfl := congrArg Prod.snd hact
  cases a with
  | placeOrder user request => exact h.placeOrder user request
  | restartGateway fd => exact h.restartGateway hsettles fd
  | restartEngine logOpen readable => exact h.restartEngine logOpen readable

/-- The engine runs on `n` slots with an empty log, and `gateway.py` has not been started. -/
structure Started (n : Nat) (s : Processes) : Prop where
  counter : s.orderIdCounter = 0
  engine : ∀ g, s.engine = some g → g.engine = withPool n ∧ g.eventLog = []
  ordersBin : s.ordersBin = []

theorem Started.inv (h : Started n s) : Inv n s := by
  refine ⟨fun g hg => ?_, [], h.ordersBin, fun clock now fuel g₀ g hg₀ hg => ?_⟩
  · obtain ⟨hengine, hlog⟩ := h.engine g hg
    rw [hengine]
    exact ⟨hlog.trans h.ordersBin.symm, counted_withPool n _⟩
  · obtain rfl := Except.ok.inj hg
    rw [hg₀]
    exact ⟨counted_withPool n _, rfl⟩

/-- The first start. -/
theorem Started.settled (h : Started n s) : Settled n s := by
  have hnone : NothingRests (withPool n : MatchingEngine Int) := fun symbol id hrests => by
    have hzero := (counted_withPool n 0).ids symbol id hrests
    omega
  refine ⟨fun g hg => ?_, fun clock now fuel logOpen g hg => ?_⟩
  · rw [(h.engine g hg).1]
    exact hnone
  · have hrecs : s.ordersBin = written ([] : List NewOrderRequest) := h.ordersBin
    rw [replayEvents_log hrecs] at hg
    obtain rfl := Except.ok.inj hg
    exact hnone

/-- What rests has an id that was counted, in every state of a run. -/
theorem inv_of_run {s₀ : Processes} {tr : List (Action × Option Nat)} (h₀ : Started n s₀)
    (h : Trace.Run (Trace.guarded (Settles n) (Step n)) s₀ tr s) : Inv n s :=
  Trace.Run.invariant (fun _ s => Inv n s) h₀.inv
    (fun _ _ _ _ _ _ hs hstep => hs.step hstep.1 hstep.2) h

/-! ### Ids that rest -/

/-- No resting order has this id. -/
def Unused (s : Processes) (id : Nat) : Prop :=
  ∀ g, s.engine = some g → ∀ symbol rid, g.engine.Rests symbol rid → rid.toNat ≠ id

/-- A run from `s` that goes on from these steps, and then hands out the id of a resting order. -/
def HandsOut (n : Nat) (s : Processes) (first : List (Action × Option Nat)) : Prop :=
  ∃ tr s₁ user request id s₂, Trace.Run (Step n) s (first ++ tr) s₁ ∧
    Step n s₁ (.placeOrder user request) (some id) s₂ ∧ ¬ Unused s₁ id

/-- A call of `PlaceOrder` whose token is not accepted takes an id, and does nothing else. -/
theorem step_getOrderId (n : Nat) (s : Processes) (request : TradingPb2.NewOrderRequest) :
    Step n s (.placeOrder none request) (some (s.orderIdCounter + 1)) s.getOrderId.2 :=
  ⟨fun _ => 0, fun _ => 0, 0, rfl⟩

/-- So the counter reaches every number. -/
theorem count_up (n : Nat) {tr : List (Action × Option Nat)} {s₁ : Processes}
    (h : Trace.Run (Step n) s tr s₁) (request : TradingPb2.NewOrderRequest) (k : Nat) :
    ∃ tr', Trace.Run (Step n) s (tr ++ tr')
      { s₁ with orderIdCounter := s₁.orderIdCounter + k } := by
  induction k with
  | zero => exact ⟨[], by rw [List.append_nil]; exact h⟩
  | succ k ih =>
      obtain ⟨tr', hrun⟩ := ih
      have hnext := hrun.snoc (step_getOrderId n _ request)
      rw [List.append_assoc] at hnext
      exact ⟨_, hnext⟩

/-- Counting from zero reaches the id of an order that rests. -/
theorem handsOut_of_rests (n : Nat) {tr : List (Action × Option Nat)} {s₁ : Processes}
    (h : Trace.Run (Step n) s tr s₁) (hzero : s₁.orderIdCounter = 0) {g : ClientGateway}
    (hg : s₁.engine = some g) {symbol : Symbol} {rid : OrderID} (hrests : g.engine.Rests symbol rid)
    (hpos : 0 < rid.toNat) {first : List (Action × Option Nat)} (hfirst : first <+: tr) :
    HandsOut n s first := by
  let request : TradingPb2.NewOrderRequest := ⟨"", 0, 0, 0, 0⟩
  obtain ⟨more, rfl⟩ := hfirst
  obtain ⟨tr', hrun⟩ := count_up n h request (rid.toNat - 1)
  rw [List.append_assoc] at hrun
  have hid : s₁.orderIdCounter + (rid.toNat - 1) + 1 = rid.toNat := by omega
  exact ⟨more ++ tr', _, none, request, _, _, hrun, step_getOrderId n _ request,
    fun hunused => hunused g hg symbol rid hrests hid.symm⟩

theorem NothingRests.of_not {e : MatchingEngine Int} (h : ¬ NothingRests e) :
    ∃ symbol rid, e.Rests symbol rid := by
  unfold NothingRests at h
  push Not at h
  exact h

/-- **A start where an order rests** is followed by steps of which one hands its id out. -/
theorem Inv.handsOut (h : Inv n s) (hsettled : ¬ Settled n s) (fd : Int) :
    HandsOut n s [(.restartGateway fd, none)] := by
  have hrun : Trace.Run (Step n) s [(.restartGateway fd, none)]
      (s.restartGateway (fun _ => 0) (fun _ => 0) 0 fd) :=
    Trace.Run.nil.snoc ⟨fun _ => 0, fun _ => 0, 0, rfl⟩
  have hrestarted : (s.restartGateway (fun _ => 0) (fun _ => 0) 0 fd).orderIdCounter = 0 ∧
      (s.restartGateway (fun _ => 0) (fun _ => 0) 0 fd).ordersBin = s.ordersBin := by
    rcases hg : s.engine with _ | g
    · rw [restartGateway_none _ _ _ hg]
      exact ⟨rfl, rfl⟩
    · obtain ⟨g', hg', -⟩ := restartGateway_some (fun _ => 0) (fun _ => 0) 0 hg fd
      rw [hg']
      exact ⟨rfl, (h.live g hg).1⟩
  rcases not_and_or.mp hsettled with hlive | hreplay
  · push Not at hlive
    obtain ⟨g, hg, hrests⟩ := hlive
    obtain ⟨symbol, rid, hrests⟩ := NothingRests.of_not hrests
    obtain ⟨g', hg', hengine, -⟩ := restartGateway_some (fun _ => 0) (fun _ => 0) 0 hg fd
    rw [hg'] at hrun
    exact handsOut_of_rests n hrun rfl rfl (hengine.symm ▸ hrests)
      ((h.live g hg).2.ids symbol rid hrests).1 (List.prefix_refl _)
  · -- the log is replayed first
    push Not at hreplay
    obtain ⟨clock, now, fuel, logOpen, g, hg, hrests⟩ := hreplay
    obtain ⟨symbol, rid, hrests⟩ := NothingRests.of_not hrests
    obtain ⟨recs, hrecs, hreplays⟩ := h.log
    generalize s.restartGateway (fun _ => 0) (fun _ => 0) 0 fd = s₁ at hrun hrestarted
    have hreplayed : s₁.restartEngine clock now fuel n logOpen true =
        { s₁ with omeSock := none, engine := some g } := by
      have hfresh : s₁.freshEngine n logOpen = s.freshEngine n logOpen := by
        rw [freshEngine, freshEngine, hrestarted.2]
      unfold Processes.restartEngine
      dsimp only
      rw [if_pos rfl, hfresh, hrestarted.2, hg]
    have hstep : Step n s₁ (.restartEngine logOpen true) none
        { s₁ with omeSock := none, engine := some g } :=
      ⟨clock, now, fuel, congrArg (Prod.mk none) hreplayed⟩
    have hcounted := (hreplays clock now fuel _ g rfl ((replayEvents_log hrecs _).symm.trans hg)).1
    exact handsOut_of_rests n (hrun.snoc hstep) hrestarted.1 rfl hrests
      (hcounted.ids symbol rid hrests).1 (List.prefix_append _ _)

/-- **Ids are new among the resting orders** in every run in which `gateway.py` is started again
only where no order rests, in the books or in what a replay of the log would give. Where one does,
every start is followed by steps of which one hands its id out. -/
theorem order_ids_unique {s₀ : Processes} {tr : List (Action × Option Nat)} (h₀ : Started n s₀)
    (h : Trace.Run (Trace.guarded (Settles n) (Step n)) s₀ tr s) :
    (∀ user request id s', Step n s (.placeOrder user request) (some id) s' → Unused s id) ∧
      ∀ fd, ¬ Settled n s → HandsOut n s [(.restartGateway fd, none)] := by
  have hinv := inv_of_run h₀ h
  refine ⟨fun user request id s' hstep g hg symbol rid hrests heq => ?_,
    fun fd hsettled => hinv.handsOut hsettled fd⟩
  obtain ⟨clock, now, fuel, hact⟩ := hstep
  have hid : s.orderIdCounter + 1 = id := by
    have hfst := congrArg Prod.fst hact
    unfold act Processes.placeOrder at hfst
    dsimp only at hfst
    split at hfst <;> exact Option.some.inj hfst
  have hle := ((hinv.live g hg).2.ids symbol rid hrests).2
  omega

end Steps

/-! ### An order that outlives `gateway.py` -/

/-- A request to buy five lots of `A` at 100.0. -/
def smallOrder : TradingPb2.NewOrderRequest := ⟨"A", 0, 1, 0x4059000000000000, 5⟩

/-- An engine that has started, and a `gateway.py` that has not. -/
def engineOnly : Processes := { engine := some ClientGateway.started }

theorem started_engineOnly : Started 100000 engineOnly := by
  refine ⟨rfl, fun g hg => ?_, rfl⟩
  obtain rfl := Option.some.inj hg
  exact ⟨rfl, rfl⟩

/-- `gateway.py` starts, places an order, and starts again. -/
def withGateway : Processes := engineOnly.restartGateway (fun _ => 0) (fun _ => 0) 10 4
def withOrder : Processes :=
  (withGateway.placeOrder (fun _ => 0) (fun _ => 0) 10 (some 7) smallOrder).2
def withGatewayAgain : Processes := withOrder.restartGateway (fun _ => 0) (fun _ => 0) 10 5

theorem step_withGateway : Step 100000 engineOnly (.restartGateway 4) none withGateway :=
  ⟨fun _ => 0, fun _ => 0, 10, rfl⟩

theorem step_withOrder :
    Step 100000 withGateway (.placeOrder (some 7) smallOrder) (some 1) withOrder :=
  ⟨fun _ => 0, fun _ => 0, 10, rfl⟩

/-- **The first order after a restart of `gateway.py` gets the id of one that rests.** -/
theorem order_id_reused : ∃ tr s id s', Started 100000 engineOnly ∧
    Trace.Run (Step 100000) engineOnly tr s ∧
    Step 100000 s (.placeOrder (some 7) smallOrder) (some id) s' ∧ ¬ Unused s id := by
  have hagain : Step 100000 withOrder (.restartGateway 5) none withGatewayAgain :=
    ⟨fun _ => 0, fun _ => 0, 10, rfl⟩
  refine ⟨_, withGatewayAgain, 1, _, started_engineOnly,
    ((Trace.Run.nil.snoc step_withGateway).snoc step_withOrder).snoc hagain,
    ⟨fun _ => 0, fun _ => 0, 10, rfl⟩, fun hunused => ?_⟩
  obtain ⟨g, hg, hrests⟩ : ∃ g, withGatewayAgain.engine = some g ∧ g.engine.Rests [65] 1 :=
    ⟨_, rfl, by decide⟩
  exact hunused g hg [65] 1 hrests rfl

/-- The second order of one start. -/
theorem order_ids_unique_second : ∃ s', Step 100000 withOrder (.placeOrder (some 7) smallOrder)
    (some 2) s' ∧ Unused withOrder 2 := by
  have hsettles : Settles 100000 engineOnly (.restartGateway 4) := started_engineOnly.settled
  have hsettles' : Settles 100000 withGateway (.placeOrder (some 7) smallOrder) := trivial
  have hrun : Trace.Run (Trace.guarded (Settles 100000) (Step 100000)) engineOnly _ withOrder :=
    (Trace.Run.nil.snoc ⟨hsettles, step_withGateway⟩).snoc ⟨hsettles', step_withOrder⟩
  have hstep : Step 100000 withOrder (.placeOrder (some 7) smallOrder) (some 2) _ :=
    ⟨fun _ => 0, fun _ => 0, 10, rfl⟩
  exact ⟨_, hstep, (order_ids_unique started_engineOnly hrun).1 _ _ _ _ hstep⟩

end Processes

end OrderMatchingEngine
