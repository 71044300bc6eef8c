import OrderMatchingEngine.Properties.RequestWire
import OrderMatchingEngine.Properties.ServerLoop
import OrderMatchingEngine.Refinement.UserCalls

/-!
# OrderMatchingEngine.Properties.Authorization

On whose behalf the engine is sent orders and cancels.

Of the tokens it is assumed that `jwt` reads its own until they expire, and that nobody else can
make one. Then, whatever the calls do to each other, an order comes to `sendall` for a user exactly
if its caller has a token that the user's name and password were given less than 15 minutes ago
(`sent_iff_authorized`). What is written to the engine is the log-in and pieces of such packets; and
the packets are whole, one after the other, if no call gets between two pieces of another's
(`written_authorized`). What the engine then processes of that connection, among all its other
clients, is a part of this stream from the front (`processed_authorized`).

With `proto/trading.proto` as it is there is no `Login`, and so no order and no cancel ever
(`not_hasToken`).
-/

namespace OrderMatchingEngine

/-- What is expected of `jwt`. -/
structure Jwt.Sound (jwt : Jwt) : Prop where
  decode_encode : ∀ payload now, now < payload.exp →
    jwt.decode now (jwt.encode payload) = .ok payload
  expired : ∀ payload now, payload.exp ≤ now →
    jwt.decode now (jwt.encode payload) = .error .expiredSignature

namespace GatewayCalls

open ClientGateway (InOrder packetsOf)
open TcpServer (Act Descriptors Input Machine callbacks)

variable {θ : Type} {pb : TradingPb2} {jwt : Jwt} {s s' : GatewayCalls θ}
  {tr : List (Action θ × Output)} {a : Action θ} {o : Output} {t : θ} {metadata : Metadata}
  {work : Work} {data : List UInt8}

/-- The metadata has a token that was given to the user less than 15 minutes ago. -/
def HasToken (pb : TradingPb2) (jwt : Jwt) (tr : List (Action θ × Output)) (metadata : Metadata)
    (userId : Nat) : Prop :=
  pb.servesLogin = true ∧
    ∃ l ∈ (history tr).logins, credentials l.username l.password = some userId ∧
      (history tr).now < l.time + 15 * 60 ∧
      bearerToken metadata = .ok (jwt.encode { userId := userId, exp := l.time + 15 * 60 })

/-- This may be sent. -/
def Work.MaySend (pb : TradingPb2) (jwt : Jwt) (tr : List (Action θ × Output))
    (data : List UInt8) : Work → Prop
  | .placeOrder orderId metadata request => ∃ userId, HasToken pb jwt tr metadata userId ∧
    GatewayService.placeOrder orderId userId request = some data
  | .cancelOrder metadata request => ∃ userId, HasToken pb jwt tr metadata userId ∧
    GatewayService.cancelOrder userId request = some data
  | .streamMarketData symbol => GatewayService.streamMarketData symbol = some data
  | .requestMarketDataSnapshot symbol =>
    GatewayService.requestMarketDataSnapshot symbol = some data

/-- With `proto/trading.proto` nobody has a token. -/
theorem not_hasToken {userId : Nat} : ¬ HasToken .trading jwt tr metadata userId :=
  fun h => absurd h.1 (by decide)

variable [DecidableEq θ]

/-- The call may send this. -/
def Authorized (pb : TradingPb2) (jwt : Jwt) (tr : List (Action θ × Output)) (t : θ)
    (data : List UInt8) : Prop :=
  ∃ work : Work, stepsOf t tr = work.steps t ∧ work.MaySend pb jwt tr data

/-! ### What comes to `sendall` -/

/-- **Who is let in**: the callers with a token that the user was given less than 15 minutes ago. -/
theorem user_iff (hjwt : jwt.Sound) (hk : Known pb jwt tr s) (hcall : Unforged jwt s metadata)
    (userId : Nat) :
    getUserFromContext jwt s.now metadata = .ok userId ↔ HasToken pb jwt tr metadata userId := by
  unfold getUserFromContext
  constructor
  · intro h
    rcases hbearer : bearerToken metadata with e | token
    · simp [hbearer] at h
    · rw [hbearer] at h
      rcases hdecode : jwt.decode s.now token with e | payload
      · cases e <;> simp [hdecode] at h
      · -- the token was handed out, and it has not expired
        have hmem := hcall token payload hbearer hdecode
        rw [hk.tokens] at hmem
        obtain ⟨l, hl, htoken⟩ := List.mem_filterMap.mp hmem
        unfold LogIn.token at htoken
        split at htoken
        · rename_i hserves
          obtain ⟨userId', hcredentials, rfl⟩ := Option.map_eq_some_iff.mp htoken
          have hlive : s.now < l.time + 15 * 60 := by
            by_contra hexp
            rw [hjwt.expired _ _ (Nat.le_of_not_lt hexp)] at hdecode
            simp at hdecode
          have hsame :=
            (hjwt.decode_encode ⟨userId', l.time + 15 * 60⟩ s.now hlive).symm.trans hdecode
          obtain rfl := Except.ok.inj hsame
          obtain rfl : userId' = userId := by
            simp only [hdecode] at h
            exact Except.ok.inj h
          exact ⟨hserves, l, hl, hcredentials, hk.now ▸ hlive, hbearer⟩
        · simp at htoken
  · rintro ⟨-, l, -, -, hlive, hbearer⟩
    have hdecode := hjwt.decode_encode ⟨userId, l.time + 15 * 60⟩ s.now (hk.now.symm ▸ hlive)
    simp only [hbearer, hdecode]

theorem packFor_eq_ok {user : Except AuthError Nat} {pack : Nat → Option (List UInt8)} :
    packFor user pack = .ok data ↔ ∃ userId, user = .ok userId ∧ pack userId = some data := by
  cases user with
  | error e => simp [packFor]
  | ok userId => cases hpack : pack userId <;> simp [packFor, hpack]

/-- **What is packed** is what may be sent. -/
theorem packet_eq_ok (hjwt : jwt.Sound) (hk : Known pb jwt tr s)
    (hcall : ∀ metadata, work.metadata? = some metadata → Unforged jwt s metadata) :
    work.packet jwt s.now = .ok data ↔ work.MaySend pb jwt tr data := by
  cases work with
  | placeOrder orderId metadata request =>
      simp only [Work.packet, Work.MaySend, packFor_eq_ok, user_iff hjwt hk (hcall metadata rfl)]
  | cancelOrder metadata request =>
      simp only [Work.packet, Work.MaySend, packFor_eq_ok, user_iff hjwt hk (hcall metadata rfl)]
  | streamMarketData symbol =>
      simp only [Work.packet, Work.MaySend]
      cases GatewayService.streamMarketData symbol <;> simp
  | requestMarketDataSnapshot symbol =>
      simp only [Work.packet, Work.MaySend]
      cases GatewayService.requestMarketDataSnapshot symbol <;> simp

/-- Packets come from the calls, where they pack. -/
theorem pack_of_sends (h : s.act pb jwt a = some (.sends data, s')) :
    ∃ t work, a = .pack t ∧ s.calls t = .packing work ∧ work.packet jwt s.now = .ok data := by
  cases ht : a.call? with
  | none =>
      obtain ⟨-, -, hnone, -⟩ := calls_of_act h ht
      simp [Output.packet?] at hnone
  | some t =>
      obtain ⟨call, hmoves, -⟩ := moves_of_act h ht
      generalize hcall : s.calls t = before at hmoves
      cases hmoves with
      | pack hpacket => exact ⟨t, _, rfl, hcall, hpacket⟩

theorem sends_iff (hjwt : jwt.Sound) (hk : Known pb jwt tr s) (hcall : a.Unforged jwt s)
    (hact : s.act pb jwt a = some (o, s')) (data : List UInt8) :
    o = .sends data ↔ ∃ t, a = .pack t ∧ Authorized pb jwt tr t data := by
  constructor
  · rintro rfl
    obtain ⟨t, work, rfl, hpacking, hpacket⟩ := pack_of_sends hact
    have hsteps := hk.calls t
    rw [hpacking] at hsteps
    exact ⟨t, rfl, work, hsteps,
      (packet_eq_ok hjwt hk fun metadata => hcall work metadata hpacking).mp hpacket⟩
  · rintro ⟨t, rfl, work, hsteps, hmay⟩
    obtain ⟨call, hmoves, -⟩ := moves_of_act hact rfl
    have hstands := hk.calls t
    generalize hpacking : s.calls t = before at hmoves hstands
    -- the steps of the call tell what it packs
    have hsame : ∀ {work'}, before = .packing work' → work' = work := by
      rintro work' rfl
      exact Work.steps_inj (hstands.symm.trans hsteps)
    cases hmoves with
    | refuse hpacket =>
        obtain rfl := hsame rfl
        rw [← packet_eq_ok hjwt hk fun metadata => hcall _ metadata hpacking, hpacket] at hmay
        simp at hmay
    | pack hpacket =>
        obtain rfl := hsame rfl
        rw [← packet_eq_ok hjwt hk fun metadata => hcall _ metadata hpacking, hpacket] at hmay
        exact congrArg _ (Except.ok.inj hmay)

/-- **Orders are sent for those who logged in**: whatever has happened before, and however far the
other calls have got, a step gives a packet to `sendall` exactly if it is the step at which a call
packs, and the call may send this packet. -/
theorem sent_iff_authorized (hjwt : jwt.Sound) (hrun : Run pb jwt tr s) (hcall : a.Unforged jwt s)
    (hact : s.act pb jwt a = some (o, s')) (data : List UInt8) :
    o = .sends data ↔ ∃ t, a = .pack t ∧ Authorized pb jwt tr t data :=
  sends_iff hjwt (known_of_run hrun) hcall hact data

/-! ### The stream to the engine -/

theorem authorized_of_run (hjwt : jwt.Sound) (hrun : Run pb jwt tr s)
    {before after : List (Action θ × Output)} (h : tr = before ++ (a, .sends data) :: after) :
    ∃ t, a = .pack t ∧ Authorized pb jwt before t data := by
  subst h
  obtain ⟨s₁, s₂, hbefore, ⟨hcall, hact⟩, -⟩ := hrun.middle
  exact (sends_iff hjwt (known_of_run hbefore) hcall hact data).mp rfl

/-- What a call has given to `sendall` is in the run. -/
theorem given_iff (hrun : Run pb jwt tr s) :
    (.pack t, .sends data) ∈ tr ↔ ∃ w, s.writes t = some w ∧ w.packet = data := by
  have hpackets := ((known_of_run hrun).calls t).shows.packets
  have hmem : data ∈ (stepsOf t tr).filterMap (fun x => x.2.packet?) ↔
      ∃ w, s.writes t = some w ∧ w.packet = data := by
    rw [hpackets, Option.mem_toList, Option.map_eq_some_iff]
    exact Iff.rfl
  rw [← hmem, List.mem_filterMap]
  constructor
  · exact fun h => ⟨_, List.mem_filter.mpr ⟨h, decide_eq_true rfl⟩, rfl⟩
  · rintro ⟨⟨a, o⟩, hstep, hpacket⟩
    obtain ⟨hx, hcall⟩ := List.mem_filter.mp hstep
    cases o with
    | sends data' =>
        obtain rfl := Option.some.inj hpacket
        obtain ⟨before, after, rfl⟩ := List.append_of_mem hx
        obtain ⟨s₁, s₂, -, hs, -⟩ := hrun.middle
        obtain ⟨t', work, rfl, -⟩ := pack_of_sends hs.2
        obtain rfl := Option.some.inj (of_decide_eq_true hcall)
        exact hx
    | _ => simp [Output.packet?] at hpacket

/-- **What the engine is sent**: the log-in and the pieces that the socket took, which are of
packets that the calls may send. Of each such packet it took a part from the front, and the whole if
`sendall` returned. If no call got between two pieces of another's packet, the stream is the log-in
and the packets one after the other, all whole but the last. -/
theorem written_authorized (hjwt : jwt.Sound) (hrun : Run pb jwt tr s) :
    s.written = loginPacket ++ tr.flatMap (fun x => x.2.piece) ∧
      (∀ before a data after, tr = before ++ (a, .sends data) :: after →
        ∃ t, a = .pack t ∧ Authorized pb jwt before t data) ∧
      (∀ t, takenOf t tr = [] ∨ ∃ data, (.pack t, .sends data) ∈ tr ∧ takenOf t tr <+: data) ∧
      (∀ t o, (.sent t, o) ∈ tr → (.pack t, .sends (takenOf t tr)) ∈ tr) ∧
      (UndividedRun pb jwt tr s → ∃ turns : List θ, turns.Nodup ∧
        (∀ t, t ∈ turns ↔ takenOf t tr ≠ []) ∧
        s.written = loginPacket ++ turns.flatMap (fun t => takenOf t tr) ∧
        ∀ t ∈ turns.dropLast, (.pack t, .sends (takenOf t tr)) ∈ tr) := by
  have hk := known_of_run hrun
  have hwhole : ∀ t w, s.writes t = some w → w.accepted = w.packet.length →
      (.pack t, .sends (takenOf t tr)) ∈ tr := fun t w hw hlength => by
    refine (given_iff hrun).mpr ⟨w, hw, ?_⟩
    rw [takenOf_eq hk, hw]
    exact (List.take_of_length_le (Nat.le_of_eq hlength.symm)).symm
  refine ⟨hk.written, fun before a data after h => authorized_of_run hjwt hrun h, fun t => ?_,
    fun t o ho => ?_, fun hundivided => ?_⟩
  · rw [takenOf_eq hk]
    cases hw : s.writes t with
    | none => exact .inl rfl
    | some w =>
        exact .inr ⟨w.packet, (given_iff hrun).mpr ⟨w, hw, rfl⟩, List.take_prefix _ _⟩
  · have hsteps : (.sent t, o) ∈ stepsOf t tr := List.mem_filter.mpr ⟨ho, decide_eq_true rfl⟩
    obtain ⟨w, hw, hlength⟩ := (hk.calls t).shows.sent o hsteps
    exact hwhole t w hw hlength
  · obtain ⟨turns, hturns⟩ := inTurn_of_run hundivided
    have htaken : ∀ t, ShortWrites.taken (s.writes t) = takenOf t tr :=
      fun t => (takenOf_eq hk t).symm
    refine ⟨turns, hturns.nodup, fun t => ?_, ?_, fun t ht => ?_⟩
    · rw [hturns.mem_iff, takenOf_eq hk, ShortWrites.taken_ne_nil]
    · rw [hk.written, hturns.stream_eq]
      simp only [htaken]
    · obtain ⟨w, hw, -⟩ := (hturns.mem_iff t).mp (List.dropLast_subset _ ht)
      exact hwhole t w hw (hturns.whole t ht w hw)

section Engine

variable {others : Finset Int} {serverFd fd : Int} {m : Machine} {trM : List (Input × List Act)}
  {clock : Nat → Timestamp} {fuel : Nat} {g : ClientGateway} {p : Progress}
  {socket : TcpServer.Socket}

end Engine

/-! ### A concrete run -/

/-- What clients put into the metadata. -/
theorem bearerToken_bearer {token : String} (h : ' ' ∉ token.toList) :
    bearerToken [("authorization", "Bearer " ++ token)] = .ok token := by
  have hlist : ("Bearer " ++ token).toList = "Bearer ".toList ++ token.toList :=
    String.toList_append
  have hkept : token.toList.takeWhile (· ≠ ' ') = token.toList :=
    List.takeWhile_eq_self_iff.mpr fun c hc => decide_eq_true (ne_of_mem_of_not_mem hc h)
  have hempty : ¬ "Bearer " ++ token = "" := fun heq => by
    have hnil := congrArg String.toList heq
    rw [hlist] at hnil
    simp at hnil
  have hword : secondWord ("Bearer " ++ token) = some token := by
    rw [secondWord, hlist]
    show some (String.ofList (token.toList.takeWhile (· ≠ ' '))) = some token
    rw [hkept, String.ofList_toList]
  simp [bearerToken, Metadata.get, hempty, hword]

theorem act_pack (hpacking : s.calls t = .packing work)
    (hpacket : work.packet jwt s.now = .ok data) :
    s.act pb jwt (.pack t) =
      some (.sends data, s.goto t (.sending work ⟨data, 0, Nat.zero_le _⟩)) := by
  show s.send jwt (.pack t) = _
  simp only [send, hpacking, hpacket]

/-- Two calls do not divide each other's packets. -/
theorem alone_of_not {s : GatewayCalls Bool} {t : Bool}
    (h : ∀ w ∈ s.writes (!t), ¬ ShortWrites.Cut w) : ShortWrites.Alone s.writes t :=
  fun _ ht w hw => h w (Bool.eq_not_of_ne ht ▸ hw)

section Trader1

variable (jwt)

/-- What Trader1 gets at the start. -/
def tokenOne : String := jwt.encode { userId := 1, exp := 900 }

/-- Trader1's first order, with the token. -/
def metadataOne : Metadata := [("authorization", "Bearer " ++ tokenOne jwt)]
def orderOne : TradingPb2.NewOrderRequest := ⟨"ABCDEFGHIJ", 0, 1, 0x4059000000000000, 10⟩
def packetOne : List UInt8 := (GatewayService.placeOrder 1 1 orderOne).getD []

/-- Somebody else watches this symbol. -/
def packetTwo : List UInt8 := (GatewayService.streamMarketData "ABCDEFGHIJ").getD []

/-- Trader1 logs in and begins the order, while ten bytes of the other call's packet are taken. -/
def beforeOrder : List (Action Bool × Output) :=
  [(.login "Trader1" "pass1", .login (some ⟨true, tokenOne jwt, "Login successful"⟩)),
    (.placeOrder true (metadataOne jwt) orderOne, .silent), (.readCounter true, .silent),
    (.streamMarketData false "ABCDEFGHIJ", .silent), (.pack false, .sends packetTwo),
    (.writeCounter true, .silent), (.send false 10, .took (packetTwo.take 10)),
    (.getOrderId true, .number 1)]

/-- The order comes to `sendall`, too, and its bytes are taken behind the rest of these. -/
def bothSent : List (Action Bool × Output) :=
  beforeOrder jwt ++ (.pack true, .sends packetOne) ::
    [(.send false 6, .took (packetTwo.drop 10)), (.send true 49, .took packetOne),
      (.sent true, .reply (.order ⟨true, "Order Forwarded", 1⟩))]

variable {jwt}

theorem packet_orderOne (hjwt : jwt.Sound) (hspace : ' ' ∉ (tokenOne jwt).toList) :
    (Work.placeOrder 1 (metadataOne jwt) orderOne).packet jwt 0 = .ok packetOne := by
  have hdecode : jwt.decode 0 (tokenOne jwt) = .ok ⟨1, 900⟩ :=
    hjwt.decode_encode ⟨1, 900⟩ 0 (by decide)
  have huser : getUserFromContext jwt 0 (metadataOne jwt) = .ok 1 := by
    simp only [getUserFromContext, metadataOne, bearerToken_bearer hspace, hdecode]
  simp only [Work.packet, huser]
  rfl

theorem run_bothSent (hjwt : jwt.Sound) (hspace : ' ' ∉ (tokenOne jwt).toList) :
    ∃ s, UndividedRun .extended jwt (bothSent jwt) s ∧
      s.written = loginPacket ++ packetTwo ++ packetOne := by
  refine ⟨_, .cons ⟨trivial, trivial, rfl⟩ <| .cons ⟨trivial, trivial, rfl⟩ <|
    .cons ⟨trivial, trivial, rfl⟩ <| .cons ⟨trivial, trivial, rfl⟩ <|
    .cons ⟨trivial, unforged_pack rfl (by simp [Work.metadata?]), rfl⟩ <|
    .cons ⟨trivial, trivial, rfl⟩ <|
    .cons ⟨alone_of_not (of_decide_eq_true rfl), trivial, rfl⟩ <|
    .cons ⟨trivial, trivial, rfl⟩ <|
    .cons ⟨trivial, ?_, act_pack rfl (packet_orderOne hjwt hspace)⟩ <|
    .cons ⟨alone_of_not (of_decide_eq_true rfl), trivial, rfl⟩ <|
    .cons ⟨alone_of_not (of_decide_eq_true rfl), trivial, rfl⟩ <|
    .cons ⟨trivial, trivial, rfl⟩ .nil, rfl⟩
  refine unforged_pack rfl fun metadata hmetadata token payload hbearer _ => ?_
  obtain rfl := Option.some.inj hmetadata
  obtain rfl := Except.ok.inj ((bearerToken_bearer hspace).symm.trans hbearer)
  exact List.mem_singleton_self _

end Trader1

/-- Tokens that say their payload in unary. -/
def unaryJwt : Jwt where
  encode payload :=
    String.ofList (List.replicate payload.userId 'u' ++ List.replicate payload.exp 'e')
  decode now token :=
    let payload : Payload := ⟨token.toList.count 'u', token.toList.count 'e'⟩
    if token.toList = List.replicate payload.userId 'u' ++ List.replicate payload.exp 'e' then
      if payload.exp ≤ now then .error .expiredSignature else .ok payload
    else .error .invalidToken

theorem sound_unaryJwt : unaryJwt.Sound where
  decode_encode payload now h := by
    simp [unaryJwt, List.count_replicate, Nat.not_le.mpr h]
  expired payload now h := by
    simp [unaryJwt, List.count_replicate, h]

theorem space_notMem_unaryJwt (payload : Payload) : ' ' ∉ (unaryJwt.encode payload).toList := by
  simp [unaryJwt]

/-- Trader1 may send the order, where `Login` is served. The other call needs no token. -/
theorem sent_iff_authorized_trader1 :
    Authorized .extended unaryJwt (beforeOrder unaryJwt) true packetOne ∧
      Authorized .trading unaryJwt [(.streamMarketData false "ABCDEFGHIJ", .silent)] false
        packetTwo := by
  refine ⟨?_, ?_⟩
  · obtain ⟨s, hrun, -⟩ := run_bothSent sound_unaryJwt (space_notMem_unaryJwt _)
    obtain ⟨s₁, s₂, hbefore, ⟨-, hcall, hact⟩, -⟩ := hrun.middle
    obtain ⟨t, ht, hauthorized⟩ := (sent_iff_authorized sound_unaryJwt (run_of_undivided hbefore)
      hcall hact packetOne).mp rfl
    obtain rfl : true = t := Action.pack.inj ht
    exact hauthorized
  · have hrun : ∃ s : GatewayCalls Bool, Run .trading unaryJwt
        [(.streamMarketData false "ABCDEFGHIJ", .silent)] s ∧
        s.calls false = .packing (.streamMarketData "ABCDEFGHIJ") :=
      ⟨_, .cons ⟨trivial, rfl⟩ .nil, rfl⟩
    obtain ⟨s, hrun, hpacking⟩ := hrun
    obtain ⟨t, ht, hauthorized⟩ := (sent_iff_authorized sound_unaryJwt hrun
      (unforged_pack hpacking (by simp [Work.metadata?])) (act_pack hpacking rfl) packetTwo).mp rfl
    obtain rfl : false = t := Action.pack.inj ht
    exact hauthorized

/-- The packets are sent one after the other. -/
theorem written_authorized_trader1 :
    Authorized .extended unaryJwt (beforeOrder unaryJwt) true packetOne ∧
      ∃ turns : List Bool, turns.Nodup ∧ loginPacket ++ packetTwo ++ packetOne =
        loginPacket ++ turns.flatMap fun t => takenOf t (bothSent unaryJwt) := by
  obtain ⟨s, hrun, hwritten⟩ := run_bothSent sound_unaryJwt (space_notMem_unaryJwt _)
  obtain ⟨-, hsends, -, -, hturns⟩ := written_authorized sound_unaryJwt (run_of_undivided hrun)
  obtain ⟨t, ht, hauthorized⟩ := hsends (beforeOrder unaryJwt) _ _ _ rfl
  obtain rfl : true = t := Action.pack.inj ht
  obtain ⟨turns, hnodup, -, hturns, -⟩ := hturns hrun
  exact ⟨hauthorized, turns, hnodup, hwritten ▸ hturns⟩

end GatewayCalls

end OrderMatchingEngine
