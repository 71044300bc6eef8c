import OrderMatchingEngine.Refinement.Messages

/-!
# OrderMatchingEngine.Refinement.Subscriptions

Who receives market data, told from what has happened.

A run is seen packet by packet (`Happening`). What a client may expect follows from the packets of
its connection alone: whether one of them was a log-in, and which subscription request for a
symbol was the last one behind it (`Wants`). The gateway keeps that in two maps, which it updates
and clears in different places; `Kept` says that they are right, and every happening keeps it so.
-/

namespace OrderMatchingEngine

namespace ClientGateway

/-! ### Happenings -/

/-- What happens at the gateway: a client connects, a packet is processed, or a connection ends. -/
inductive Happening
  | connection (fd : Int)
  | packet (fd : Int) (now : Nat → Timestamp) (data : List UInt8)
  | disconnection (fd : Int)

/-- What the gateway does then. -/
def happen (clock : Nat → Timestamp) (fuel : Nat) (g : ClientGateway) :
    Happening → Except Fault (Reporting × ClientGateway)
  | .connection fd => .ok ({}, g.onConnection fd)
  | .packet fd now data => processPacket clock fuel now fd data g
  | .disconnection fd => .ok ({}, g.onDisconnection fd)

/-- It happens, under some bound on the matching loops. -/
def Happens (clock : Nat → Timestamp) (g : ClientGateway) (i : Happening) (r : Reporting)
    (g' : ClientGateway) : Prop := ∃ fuel, happen clock fuel g i = .ok (r, g')

/-- The descriptors in use afterwards. -/
def openAfter (isOpen : Int → Bool) : Happening → Int → Bool
  | .connection fd => Function.update isOpen fd true
  | .packet _ _ _ => isOpen
  | .disconnection fd => Function.update isOpen fd false

/-- A connection is announced on a descriptor that is not in use; packets and ends come on those
that are. -/
def Announced (isOpen : Int → Bool) : Happening → Prop
  | .connection fd => isOpen fd = false
  | .packet fd _ _ => isOpen fd = true
  | .disconnection fd => isOpen fd = true

/-- The descriptors in use after these happenings. -/
def inUse (hist : List Happening) : Int → Bool := hist.foldl openAfter fun _ => false

/-- The order in which `TcpServer` announces them. -/
def InOrder (hist : List Happening) : Prop :=
  ∀ front i, front ++ [i] <+: hist → Announced (inUse front) i

theorem inUse_snoc (hist : List Happening) (i : Happening) :
    inUse (hist ++ [i]) = openAfter (inUse hist) i := by
  rw [inUse, List.foldl_append]
  rfl

theorem InOrder.front {hist more : List Happening} (h : InOrder (hist ++ more)) : InOrder hist :=
  fun _ _ hfront => h _ _ (hfront.trans (List.prefix_append hist more))

theorem InOrder.last {hist : List Happening} {i : Happening} (h : InOrder (hist ++ [i])) :
    Announced (inUse hist) i := h hist i (List.prefix_refl _)

theorem InOrder.nil : InOrder [] := fun front i h => by
  have hlen := h.length_le
  simp at hlen

theorem InOrder.snoc {hist : List Happening} {i : Happening} (h : InOrder hist)
    (hi : Announced (inUse hist) i) : InOrder (hist ++ [i]) := by
  intro front j hfront
  rcases List.prefix_concat_iff.mp hfront with heq | hfront
  · obtain ⟨rfl, hlast⟩ := List.append_inj' heq rfl
    obtain rfl := (List.cons.inj hlast).1
    exact hi
  · exact h front j hfront

/-! ### What a client has asked for -/

/-- The packets of a connection, after one more happening. -/
def packetsAfter (fd : Int) (packets : List (List UInt8)) : Happening → List (List UInt8)
  | .connection fd' => if fd' = fd then [] else packets
  | .packet fd' _ data => if fd' = fd then packets ++ [data] else packets
  | .disconnection fd' => if fd' = fd then [] else packets

/-- The packets of the connection that `fd` is in use by. -/
def packetsOf (fd : Int) (hist : List Happening) : List (List UInt8) :=
  hist.foldl (packetsAfter fd) []

/-- A subscription request for this symbol: whether it is one to subscribe. -/
def subscription? (symbol : Symbol) (data : List UInt8) : Option Bool :=
  if requestType? data = some .subscriptionRequest then
    match Records.read? 16 data with
    | some (req, _) =>
      if cleanSymbol (SubscriptionRequest.symbol req) = symbol then
        some (SubscriptionRequest.isSubscribe req ≠ 0)
      else none
    | none => none
  else none

/-- The subscription requests for a symbol that were made after the log-in. -/
def wishes (symbol : Symbol) (packets : List (List UInt8)) : List Bool :=
  (packets.dropWhile (requestType? · ≠ some .loginRequest)).filterMap (subscription? symbol)

/-- The current connection of `fd` has logged in, and its latest subscription request for the symbol
is to subscribe. -/
def Wants (fd : Int) (symbol : Symbol) (hist : List Happening) : Prop :=
  LogsIn (packetsOf fd hist) ∧ (wishes symbol (packetsOf fd hist)).getLast? = some true

instance (fd : Int) (symbol : Symbol) (hist : List Happening) : Decidable (Wants fd symbol hist) :=
  inferInstanceAs (Decidable (_ ∧ _))

theorem packetsOf_snoc (fd : Int) (hist : List Happening) (i : Happening) :
    packetsOf fd (hist ++ [i]) = packetsAfter fd (packetsOf fd hist) i := by
  rw [packetsOf, List.foldl_append]
  rfl

theorem subscription?_eq_none {symbol : Symbol} {data : List UInt8}
    (h : requestType? data ≠ some .subscriptionRequest) : subscription? symbol data = none :=
  if_neg h

/-- One more packet: a request counts if the client has logged in. -/
theorem wishes_snoc (symbol : Symbol) (packets : List (List UInt8)) (data : List UInt8) :
    wishes symbol (packets ++ [data]) = wishes symbol packets ++
      if LogsIn packets then (subscription? symbol data).toList else [] := by
  unfold wishes
  by_cases hin : LogsIn packets
  · obtain ⟨login, hmem, hlogin⟩ := hin
    have hne : packets.dropWhile (requestType? · ≠ some .loginRequest) ≠ [] := by
      rw [ne_eq, List.dropWhile_eq_nil_iff]
      exact fun hall => by simpa [hlogin] using hall login hmem
    rw [List.dropWhile_append, if_neg (by simpa using hne), List.filterMap_append,
      if_pos ⟨login, hmem, hlogin⟩]
    congr 1
  · have hall : ∀ packet ∈ packets, requestType? packet ≠ some .loginRequest :=
      fun packet hmem hlogin => hin ⟨packet, hmem, hlogin⟩
    have hnil : packets.dropWhile (requestType? · ≠ some .loginRequest) = [] :=
      List.dropWhile_eq_nil_iff.mpr fun packet hmem => by simpa using hall packet hmem
    rw [List.dropWhile_append, hnil, List.isEmpty_nil, if_pos rfl, if_neg hin]
    by_cases hlogin : requestType? data = some .loginRequest
    · have hnone : subscription? symbol data = none := subscription?_eq_none (by simp [hlogin])
      simp [hlogin, hnone]
    · simp [hlogin]

/-! ### What the gateway keeps -/

/-- The subscribers of a symbol. -/
def subscribersOf (symbol : Symbol) (g : ClientGateway) : List Int :=
  (g.marketDataSubscriptions.lookup symbol).getD []

/-- **The maps are right**: who has logged in, and who is subscribed to what, is what the packets of
the current connections say. -/
structure Kept (hist : List Happening) (g : ClientGateway) : Prop where
  closed : ∀ fd, inUse hist fd = false → packetsOf fd hist = []
  loggedIn : ∀ fd, g.LoggedIn fd ↔ LogsIn (packetsOf fd hist)
  subscribed : ∀ fd symbol, fd ∈ g.subscribersOf symbol ↔
    (wishes symbol (packetsOf fd hist)).getLast? = some true
  nodup : ∀ symbol, (g.subscribersOf symbol).Nodup

theorem perm_insertFd {fd : Int} {fds : List Int} (h : fd ∉ fds) :
    (insertFd fd fds).Perm (fd :: fds) := by
  rw [insertFd, if_neg h]
  refine List.perm_middle.trans ?_
  rw [List.takeWhile_append_dropWhile]

theorem mem_insertFd {fd fd' : Int} {fds : List Int} :
    fd' ∈ insertFd fd fds ↔ fd' = fd ∨ fd' ∈ fds := by
  by_cases h : fd ∈ fds
  · rw [insertFd, if_pos h]
    refine (or_iff_right_of_imp ?_).symm
    rintro rfl
    exact h
  · rw [(perm_insertFd h).mem_iff, List.mem_cons]

theorem nodup_insertFd {fd : Int} {fds : List Int} (h : fds.Nodup) : (insertFd fd fds).Nodup := by
  by_cases hmem : fd ∈ fds
  · rwa [insertFd, if_pos hmem]
  · exact (perm_insertFd hmem).nodup_iff.mpr (List.nodup_cons.mpr ⟨hmem, h⟩)

section Steps

variable {clock now : Nat → Timestamp} {fuel : Nat} {g g' : ClientGateway} {r : Reporting}
  {hist : List Happening} {fd : Int} {data : List UInt8}

theorem mem_subscribers_iff {req : SubscriptionRequest} {fd' : Int} {fds : List Int} :
    fd' ∈ subscribers fd req fds ↔
      if fd' = fd then SubscriptionRequest.isSubscribe req ≠ 0 else fd' ∈ fds := by
  unfold subscribers
  by_cases hsub : SubscriptionRequest.isSubscribe req ≠ 0
  · rw [if_pos hsub, mem_insertFd]
    by_cases hfd : fd' = fd <;> simp [hfd, hsub]
  · rw [if_neg hsub, List.mem_filter]
    by_cases hfd : fd' = fd <;> simp [hfd, hsub]

theorem nodup_subscribers {req : SubscriptionRequest} {fds : List Int} (h : fds.Nodup) :
    (subscribers fd req fds).Nodup := by
  unfold subscribers
  split
  · exact nodup_insertFd h
  · exact h.filter _

/-- **A connection**: the descriptor was not in use, so nothing is known of it. -/
theorem Kept.connection (h : Kept hist g) (hfree : inUse hist fd = false) :
    Kept (hist ++ [.connection fd]) (g.onConnection fd) := by
  have hpackets : ∀ fd', packetsOf fd' (hist ++ [.connection fd]) = packetsOf fd' hist := by
    intro fd'
    rw [packetsOf_snoc, packetsAfter]
    split
    · rename_i heq
      subst heq
      exact (h.closed fd hfree).symm
    · rfl
  refine ⟨fun fd' hclosed => ?_, fun fd' => ?_, fun fd' symbol => ?_, h.nodup⟩
  · rw [hpackets]
    rw [inUse_snoc, openAfter] at hclosed
    by_cases hfd : fd' = fd
    · rw [hfd, Function.update_self] at hclosed
      simp at hclosed
    · rw [Function.update_of_ne hfd] at hclosed
      exact h.closed fd' hclosed
  · rw [hpackets, loggedIn_onConnection, h.loggedIn]
    refine and_iff_right_of_imp fun hin hfd => ?_
    rw [hfd, h.closed fd hfree] at hin
    simp [LogsIn] at hin
  · rw [hpackets]
    exact h.subscribed fd' symbol

/-- **The end of a connection** clears what is known of the descriptor. -/
theorem Kept.disconnection (h : Kept hist g) :
    Kept (hist ++ [.disconnection fd]) (g.onDisconnection fd) := by
  have hpackets : ∀ fd', packetsOf fd' (hist ++ [.disconnection fd]) =
      if fd = fd' then [] else packetsOf fd' hist := fun fd' => packetsOf_snoc fd' hist _
  have hsubscribers : ∀ symbol, (g.onDisconnection fd).subscribersOf symbol =
      (g.subscribersOf symbol).filter (· ≠ fd) := by
    intro symbol
    unfold subscribersOf onDisconnection
    dsimp only
    rw [lookup_eraseSubscriber]
    cases g.marketDataSubscriptions.lookup symbol <;> rfl
  refine ⟨fun fd' hclosed => ?_, fun fd' => ?_, fun fd' symbol => ?_, fun symbol => ?_⟩
  · rw [hpackets]
    split
    · rfl
    · rename_i hne
      rw [inUse_snoc, openAfter, Function.update_of_ne (Ne.symm hne)] at hclosed
      exact h.closed fd' hclosed
  · rw [hpackets, loggedIn_onDisconnection, h.loggedIn]
    by_cases hfd : fd' = fd
    · simp [hfd, LogsIn]
    · simp [hfd, Ne.symm hfd]
  · rw [hpackets, hsubscribers, List.mem_filter, h.subscribed]
    by_cases hfd : fd' = fd
    · simp [hfd, wishes]
    · simp [hfd, Ne.symm hfd]
  · rw [hsubscribers]
    exact (h.nodup symbol).filter _

/-- **A packet**: a log-in and a subscription request behind it are noted. -/
theorem Kept.packet (h : Kept hist g) (hopen : inUse hist fd = true)
    (hproc : Processed fd data g r g')
    (hsubscribers : ∀ fd' symbol, fd' ∈ g'.subscribersOf symbol ↔
      if fd' = fd ∧ g.LoggedIn fd ∧ (subscription? symbol data).isSome
        then subscription? symbol data = some true else fd' ∈ g.subscribersOf symbol)
    (hnodup : ∀ symbol, (g'.subscribersOf symbol).Nodup) :
    Kept (hist ++ [.packet fd now data]) g' := by
  have hpackets : ∀ fd', packetsOf fd' (hist ++ [.packet fd now data]) =
      if fd = fd' then packetsOf fd' hist ++ [data] else packetsOf fd' hist :=
    fun fd' => packetsOf_snoc fd' hist _
  refine ⟨fun fd' hclosed => ?_, fun fd' => ?_, fun fd' symbol => ?_, hnodup⟩
  · rw [inUse_snoc, openAfter] at hclosed
    have hne : fd ≠ fd' := fun heq => by simp [← heq, hopen] at hclosed
    rw [hpackets, if_neg hne]
    exact h.closed fd' hclosed
  · rw [hproc.loggedIn, h.loggedIn, hpackets]
    by_cases hfd : fd' = fd
    · subst hfd
      rw [if_pos rfl, logsIn_append, logsIn_singleton]
      simp
    · rw [if_neg (Ne.symm hfd)]
      simp [hfd]
  · rw [hpackets, hsubscribers]
    by_cases hfd : fd' = fd
    · subst hfd
      rw [if_pos rfl, wishes_snoc]
      by_cases hin : g.LoggedIn fd'
      · rw [if_pos ((h.loggedIn fd').mp hin)]
        cases hsub : subscription? symbol data with
        | none => simpa using h.subscribed fd' symbol
        | some wish => simp [hin]
      · rw [if_neg (mt (h.loggedIn fd').mpr hin), List.append_nil, if_neg fun hand => hin hand.2.1]
        exact h.subscribed fd' symbol
    · rw [if_neg (Ne.symm hfd), if_neg fun hand => hfd hand.1]
      exact h.subscribed fd' symbol

/-- A packet that changes no subscription. -/
theorem Kept.packet_same (h : Kept hist g) (hopen : inUse hist fd = true)
    (hproc : Processed fd data g r g')
    (hsame : g'.marketDataSubscriptions = g.marketDataSubscriptions)
    (hnone : g.LoggedIn fd → requestType? data ≠ some .subscriptionRequest) :
    Kept (hist ++ [.packet fd now data]) g' := by
  have hsubscribers : ∀ symbol, g'.subscribersOf symbol = g.subscribersOf symbol := fun symbol => by
    rw [subscribersOf, hsame, subscribersOf]
  refine h.packet hopen hproc (fun fd' symbol => ?_) fun symbol => ?_
  · rw [hsubscribers, if_neg]
    rintro ⟨-, hin, hsub⟩
    rw [subscription?_eq_none (hnone hin)] at hsub
    simp at hsub
  · rw [hsubscribers]
    exact h.nodup symbol

/-- The subscribers of one symbol are assigned. -/
theorem subscribersOf_insert (symbol symbol' : Symbol) (fds : List Int) (g : ClientGateway) :
    subscribersOf symbol' { g with
      marketDataSubscriptions := g.marketDataSubscriptions.insert symbol fds } =
      if symbol = symbol' then fds else g.subscribersOf symbol' := by
  unfold subscribersOf
  split
  · rename_i hsymbol
    rw [hsymbol, AList.lookup_insert]
    rfl
  · rename_i hne
    rw [AList.lookup_insert_ne (Ne.symm hne)]

/-- **Every packet keeps the maps right.** -/
theorem Kept.processPacket (h : Kept hist g) (hopen : inUse hist fd = true)
    (hp : ClientGateway.processPacket clock fuel now fd data g = .ok (r, g')) :
    Kept (hist ++ [.packet fd now data]) g' := by
  have hproc := processPacket_ok hp
  cases processPacket_answered hp with
  | dropped hout _ hagree =>
      exact h.packet_same hopen hproc hagree.subscriptions fun hin => absurd hin hout
  | unknown _ htype => exact h.packet_same hopen hproc rfl fun _ => by simp [htype]
  | login htype =>
      have hsame : (handleLogin fd g).2.marketDataSubscriptions = g.marketDataSubscriptions :=
        (Agree.of_session fd g).subscriptions
      exact h.packet_same hopen hproc hsame fun _ => by simp [htype]
  | newOrder _ htype =>
      exact h.packet_same hopen hproc (log_sessions _ g).2 fun _ => by simp [htype]
  | orderCancel _ htype =>
      exact h.packet_same hopen hproc (log_sessions _ g).2 fun _ => by simp [htype]
  | noBook _ htype => exact h.packet_same hopen hproc rfl fun _ => by simp [htype]
  | snapshot _ htype => exact h.packet_same hopen hproc rfl fun _ => by simp [htype]
  | @subscription req behind hin htype hread =>
      have hsub : ∀ symbol, subscription? symbol data =
          if cleanSymbol (SubscriptionRequest.symbol req) = symbol then
            some (SubscriptionRequest.isSubscribe req ≠ 0 : Bool) else none := fun symbol => by
        rw [subscription?, if_pos htype, hread]
      refine h.packet hopen hproc (fun fd' symbol => ?_) fun symbol => ?_
      · rw [subscribersOf_insert, hsub]
        by_cases hsymbol : cleanSymbol (SubscriptionRequest.symbol req) = symbol
        · subst hsymbol
          rw [if_pos rfl, if_pos rfl, mem_subscribers_iff]
          by_cases hfd : fd' = fd <;> simp [hfd, hin, subscribersOf]
        · simp [hsymbol]
      · rw [subscribersOf_insert]
        split
        · exact nodup_subscribers (h.nodup _)
        · exact h.nodup symbol

/-- **Every happening keeps the maps right.** -/
theorem Kept.happens (h : Kept hist g) {i : Happening} (hi : Announced (inUse hist) i)
    (hp : Happens clock g i r g') : Kept (hist ++ [i]) g' := by
  obtain ⟨fuel, hp⟩ := hp
  cases i with
  | connection fd =>
      obtain ⟨-, rfl⟩ := Prod.mk.inj (Except.ok.inj hp)
      exact h.connection hi
  | packet fd now data => exact h.processPacket hi hp
  | disconnection fd =>
      obtain ⟨-, rfl⟩ := Prod.mk.inj (Except.ok.inj hp)
      exact h.disconnection

theorem Idle.kept (h : Idle g) : Kept [] g := by
  have hnone : ∀ symbol, g.subscribersOf symbol = [] := fun symbol => by
    rw [subscribersOf, h.subscriptions]
    rfl
  refine ⟨fun _ _ => rfl, fun fd => ?_, fun fd symbol => ?_, fun symbol => ?_⟩
  · rw [LoggedIn, h.session]
    simp [packetsOf, LogsIn]
  · simp [hnone, packetsOf, wishes]
  · rw [hnone]
    exact List.nodup_nil

/-- **The maps are right in every state of a run** whose happenings come in order. -/
theorem kept_of_run {g₀ : ClientGateway} {tr : List (Happening × Reporting)} (h₀ : Idle g₀)
    (hrun : Trace.Run (Happens clock) g₀ tr g) (horder : InOrder (tr.map Prod.fst)) :
    Kept (tr.map Prod.fst) g := by
  refine Trace.Run.invariant
    (fun tr g => InOrder (tr.map Prod.fst) → Kept (tr.map Prod.fst) g) (fun _ => h₀.kept) ?_ hrun
    horder
  intro tr g i r g' _ hkept hp horder
  rw [List.map_append, List.map_singleton] at horder ⊢
  exact (hkept horder.front).happens horder.last hp

end Steps

end ClientGateway

end OrderMatchingEngine
