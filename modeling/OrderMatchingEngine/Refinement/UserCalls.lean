import OrderMatchingEngine.GatewayCalls

/-!
# OrderMatchingEngine.Refinement.UserCalls

The calls of users one by one: what each of them sees of a run in which all take their steps.

A step of a call moves this call and no other (`moves_of_act`). So what the run shows of a call
tells where the call is (`Stands`), and what was taken of its packet (`known_of_run`). While bytes
are taken of one packet at a time, the calls write in turn (`inTurn_of_run`).
-/

namespace OrderMatchingEngine

namespace GatewayCalls

open ShortWrites (more)

variable {θ : Type} {pb : TradingPb2} {jwt : Jwt} {s s' : GatewayCalls θ}
  {tr : List (Action θ × Output)} {a : Action θ} {o : Output} {t : θ} {call : UserCall}
  {data : List UInt8}

/-! ### What a run shows -/

/-- The call that a step is of. -/
def Action.call? : Action θ → Option θ
  | .wait _ | .login _ _ => none
  | .placeOrder t _ _ | .cancelOrder t _ _ | .streamMarketData t _
  | .requestMarketDataSnapshot t _ | .readCounter t | .writeCounter t | .getOrderId t | .pack t
  | .send t _ | .sent t | .raise t _ => some t

/-- What is given to `sendall`. -/
def Output.packet? : Output → Option (List UInt8)
  | .sends data => some data
  | _ => none

/-- What the socket takes. -/
def Output.piece : Output → List UInt8
  | .took piece => piece
  | _ => []

/-- The steps of a call that has come to packing this. -/
def Work.steps (t : θ) : Work → List (Action θ × Output)
  | .placeOrder orderId metadata request =>
    [(.placeOrder t metadata request, .silent), (.readCounter t, .silent),
      (.writeCounter t, .silent), (.getOrderId t, .number orderId)]
  | .cancelOrder metadata request => [(.cancelOrder t metadata request, .silent)]
  | .streamMarketData symbol => [(.streamMarketData t symbol, .silent)]
  | .requestMarketDataSnapshot symbol => [(.requestMarketDataSnapshot t symbol, .silent)]

/-- The steps tell what is packed. -/
theorem Work.steps_inj {work work' : Work} (h : work.steps t = work'.steps t) : work = work' := by
  cases work <;> cases work' <;> simp_all [Work.steps]

/-- A call of `Login`. -/
structure LogIn where
  time : Nat
  username : String
  password : String
  deriving DecidableEq, Repr

/-- What a run shows of time and of log-ins. -/
structure History where
  now : Nat := 0
  logins : List LogIn := []
  deriving DecidableEq, Repr

/-- The history after one more step. -/
def History.after (h : History) : Action θ × Output → History
  | (.wait seconds, _) => { h with now := h.now + seconds }
  | (.login username password, _) => { h with logins := h.logins ++ [⟨h.now, username, password⟩] }
  | _ => h

def history (tr : List (Action θ × Output)) : History := tr.foldl History.after {}

theorem history_snoc (x : Action θ × Output) : history (tr ++ [x]) = (history tr).after x :=
  List.foldl_concat ..

/-- The token that a log-in was given. -/
def LogIn.token (pb : TradingPb2) (jwt : Jwt) (l : LogIn) : Option String :=
  if pb.servesLogin then
    (credentials l.username l.password).map fun userId =>
      jwt.encode { userId := userId, exp := l.time + 15 * 60 }
  else none

/-! ### One call -/

/-- How a call goes on, with the counter and the time as they are. -/
inductive Moves (jwt : Jwt) (s : GatewayCalls θ) (t : θ) :
    UserCall → Action θ → Output → UserCall → Prop
  | placeOrder {metadata request} :
      Moves jwt s t .idle (.placeOrder t metadata request) .silent (.counting metadata request)
  | cancelOrder {metadata request} :
      Moves jwt s t .idle (.cancelOrder t metadata request) .silent
        (.packing (.cancelOrder metadata request))
  | streamMarketData {symbol} :
      Moves jwt s t .idle (.streamMarketData t symbol) .silent
        (.packing (.streamMarketData symbol))
  | requestMarketDataSnapshot {symbol} :
      Moves jwt s t .idle (.requestMarketDataSnapshot t symbol) .silent
        (.packing (.requestMarketDataSnapshot symbol))
  | readCounter {metadata request} :
      Moves jwt s t (.counting metadata request) (.readCounter t) .silent
        (.storing metadata request s.orderIdCounter)
  | writeCounter {metadata request count} :
      Moves jwt s t (.storing metadata request count) (.writeCounter t) .silent
        (.numbering metadata request)
  | getOrderId {metadata request} :
      Moves jwt s t (.numbering metadata request) (.getOrderId t) (.number s.orderIdCounter)
        (.packing (.placeOrder s.orderIdCounter metadata request))
  | refuse {work reply} (h : work.packet jwt s.now = .error reply) :
      Moves jwt s t (.packing work) (.pack t) (.reply reply) (.ended none)
  | pack {work data} (h : work.packet jwt s.now = .ok data) :
      Moves jwt s t (.packing work) (.pack t) (.sends data)
        (.sending work ⟨data, 0, Nat.zero_le _⟩)
  | send {work write n} (hn : 0 < n) (h : write.accepted + n ≤ write.packet.length) :
      Moves jwt s t (.sending work write) (.send t n)
        (.took ((write.packet.drop write.accepted).take n)) (.sending work (more write n h))
  | sent {work write} (h : write.accepted = write.packet.length) :
      Moves jwt s t (.sending work write) (.sent t) (.reply work.forwarded) (.ended (some write))
  | raise {work write e} (h : write.accepted < write.packet.length) :
      Moves jwt s t (.sending work write) (.raise t e) (.reply (work.failed e))
        (.ended (some write))

/-- The packet was taken as a whole. -/
def Whole (write : Option (Write UInt8)) : Prop :=
  ∃ w, write = some w ∧ w.accepted = w.packet.length

/-- What the steps of a call show of its packet. -/
structure Shows (t : θ) (steps : List (Action θ × Output)) (write : Option (Write UInt8)) :
    Prop where
  packets : steps.filterMap (fun x => x.2.packet?) = (write.map Write.packet).toList
  pieces : (steps.flatMap fun x => x.2.piece) = ShortWrites.taken write
  sent : ∀ o, (.sent t, o) ∈ steps → Whole write

/-- The call is where its steps have led it. -/
def Stands (t : θ) (steps : List (Action θ × Output)) : UserCall → Prop
  | .idle => steps = []
  | .counting metadata request => steps = [(.placeOrder t metadata request, .silent)]
  | .storing metadata request _ =>
    steps = [(.placeOrder t metadata request, .silent), (.readCounter t, .silent)]
  | .numbering metadata request =>
    steps = [(.placeOrder t metadata request, .silent), (.readCounter t, .silent),
      (.writeCounter t, .silent)]
  | .packing work => steps = work.steps t
  | .sending _ write => Shows t steps (some write)
  | .ended write => Shows t steps write

theorem shows_steps (work : Work) : Shows t (work.steps t) none := by
  cases work <;> exact ⟨rfl, rfl, by simp [Work.steps]⟩

theorem Stands.shows {steps : List (Action θ × Output)} (h : Stands t steps call) :
    Shows t steps call.write? := by
  cases call with
  | idle | counting | storing | numbering =>
      obtain rfl : steps = _ := h
      exact ⟨rfl, rfl, by simp⟩
  | packing work =>
      obtain rfl : steps = _ := h
      exact shows_steps work
  | sending | ended => exact h

/-- One more step. -/
theorem Shows.snoc {steps : List (Action θ × Output)} {write write' : Option (Write UInt8)}
    (h : Shows t steps write)
    (hpackets : (write.map Write.packet).toList ++ o.packet?.toList =
      (write'.map Write.packet).toList)
    (hpieces : ShortWrites.taken write ++ o.piece = ShortWrites.taken write')
    (hkept : Whole write → Whole write') (hsent : a = .sent t → Whole write') :
    Shows t (steps ++ [(a, o)]) write' where
  packets := by
    rw [List.filterMap_append, h.packets, ← hpackets]
    cases hpacket : o.packet? <;> simp [hpacket]
  pieces := by rw [List.flatMap_append, h.pieces, ← hpieces, List.flatMap_singleton]
  sent o' ho' := by
    rcases List.mem_append.mp ho' with hold | hnew
    · exact hkept (h.sent o' hold)
    · exact hsent (Prod.mk.inj (List.mem_singleton.mp hnew)).1.symm

/-- **A step leads the call on.** -/
theorem Stands.move {steps : List (Action θ × Output)} {before : UserCall}
    (h : Stands t steps before) (hm : Moves jwt s t before a o call) :
    Stands t (steps ++ [(a, o)]) call := by
  have hnone : ¬ Whole none := by simp [Whole]
  cases hm with
  | placeOrder | cancelOrder | streamMarketData | requestMarketDataSnapshot | readCounter
  | writeCounter | getOrderId =>
      obtain rfl : steps = _ := h
      rfl
  | refuse hpacket => exact h.shows.snoc rfl rfl id (by simp)
  | pack hpacket => exact h.shows.snoc rfl rfl (fun hw => absurd hw hnone) (by simp)
  | @send work write n hn hle =>
      refine h.shows.snoc rfl (ShortWrites.taken_more hle).symm (fun hw => ?_) (by simp)
      -- it was not whole, as there was more to take
      obtain ⟨w, hw, hwhole⟩ := hw
      obtain rfl := Option.some.inj hw
      omega
  | @sent work write hwhole =>
      exact h.shows.snoc (List.append_nil _) (List.append_nil _) id fun _ => ⟨write, rfl, hwhole⟩
  | raise hless => exact h.shows.snoc (List.append_nil _) (List.append_nil _) id (by simp)

/-- A step of a call leaves its packet alone, or gives it to `sendall`, or takes a piece of it. -/
theorem Moves.write? {before : UserCall} (h : Moves jwt s t before a o call) :
    (call.write? = before.write? ∧ o.piece = []) ∨
      (∃ data, before.write? = none ∧ call.write? = some ⟨data, 0, Nat.zero_le _⟩ ∧
        o.piece = []) ∨
      ∃ w n, ∃ hle : w.accepted + n ≤ w.packet.length, a = .send t n ∧ 0 < n ∧
        before.write? = some w ∧ call.write? = some (more w n hle) ∧
        o.piece = (w.packet.drop w.accepted).take n := by
  cases h with
  | @pack work data hpacket => exact .inr (.inl ⟨data, rfl, rfl, rfl⟩)
  | @send work write n hn hle => exact .inr (.inr ⟨write, n, hle, rfl, hn, rfl, rfl, rfl⟩)
  | _ => exact .inl ⟨rfl, rfl⟩

/-! ### Tokens -/

/-- Only tokens that were handed out are read: nobody else has the key. -/
def Unforged (jwt : Jwt) (s : GatewayCalls θ) (metadata : Metadata) : Prop :=
  ∀ token payload, bearerToken metadata = .ok token → jwt.decode s.now token = .ok payload →
    token ∈ s.tokens

/-- The same of a step. -/
def Action.Unforged (jwt : Jwt) (s : GatewayCalls θ) : Action θ → Prop
  | .pack t => ∀ work metadata, s.calls t = .packing work → work.metadata? = some metadata →
    GatewayCalls.Unforged jwt s metadata
  | _ => True

theorem unforged_pack (hpacking : s.calls t = .packing work)
    (h : ∀ metadata, work.metadata? = some metadata → Unforged jwt s metadata) :
    (Action.pack t).Unforged jwt s := by
  intro work' metadata hpacking'
  obtain rfl := UserCall.packing.inj (hpacking.symm.trans hpacking')
  exact h metadata

/-! ### A step of the service -/

variable [DecidableEq θ]

/-- The service when one of its calls has moved. -/
structure Moved (s : GatewayCalls θ) (t : θ) (o : Output) (call : UserCall) (s' : GatewayCalls θ) :
    Prop where
  calls : s'.calls = Function.update s.calls t call
  written : s'.written = s.written ++ o.piece
  now : s'.now = s.now
  tokens : s'.tokens = s.tokens

theorem moved_goto (h : o.piece = []) : Moved s t o call (s.goto t call) :=
  ⟨rfl, by rw [h]; exact (List.append_nil _).symm, rfl, rfl⟩

theorem begin_eq_some (h : s.begin t call = some (o, s')) :
    s.calls t = .idle ∧ o = .silent ∧ s' = s.goto t call := by
  unfold begin at h
  split at h
  · rename_i hidle
    obtain ⟨rfl, rfl⟩ := Prod.mk.inj (Option.some.inj h)
    exact ⟨hidle, rfl, rfl⟩
  · simp at h

theorem moves_of_number (h : s.number a = some (o, s')) (ht : a.call? = some t) :
    ∃ call, Moves jwt s t (s.calls t) a o call ∧ Moved s t o call s' := by
  cases a with
  | readCounter t' =>
      obtain rfl : t' = t := Option.some.inj ht
      simp only [number] at h
      split at h
      · rename_i metadata request hcall
        obtain ⟨rfl, rfl⟩ := Prod.mk.inj (Option.some.inj h)
        exact ⟨_, hcall ▸ .readCounter, moved_goto rfl⟩
      · simp at h
  | writeCounter t' =>
      obtain rfl : t' = t := Option.some.inj ht
      simp only [number] at h
      split at h
      · rename_i metadata request count hcall
        obtain ⟨rfl, rfl⟩ := Prod.mk.inj (Option.some.inj h)
        exact ⟨_, hcall ▸ .writeCounter, rfl, (List.append_nil _).symm, rfl, rfl⟩
      · simp at h
  | getOrderId t' =>
      obtain rfl : t' = t := Option.some.inj ht
      simp only [number] at h
      split at h
      · rename_i metadata request hcall
        obtain ⟨rfl, rfl⟩ := Prod.mk.inj (Option.some.inj h)
        exact ⟨_, hcall ▸ .getOrderId, moved_goto rfl⟩
      · simp at h
  | _ => simp [number] at h

theorem moves_of_send (h : s.send jwt a = some (o, s')) (ht : a.call? = some t) :
    ∃ call, Moves jwt s t (s.calls t) a o call ∧ Moved s t o call s' := by
  cases a with
  | pack t' =>
      obtain rfl : t' = t := Option.some.inj ht
      simp only [send] at h
      split at h
      · rename_i work hcall
        split at h
        · rename_i reply hpacket
          obtain ⟨rfl, rfl⟩ := Prod.mk.inj (Option.some.inj h)
          exact ⟨_, hcall ▸ .refuse hpacket, moved_goto rfl⟩
        · rename_i data hpacket
          obtain ⟨rfl, rfl⟩ := Prod.mk.inj (Option.some.inj h)
          exact ⟨_, hcall ▸ .pack hpacket, moved_goto rfl⟩
      · simp at h
  | send t' n =>
      obtain rfl : t' = t := Option.some.inj ht
      simp only [send] at h
      split at h
      · rename_i work write hcall
        split at h
        · rename_i hn
          obtain ⟨rfl, rfl⟩ := Prod.mk.inj (Option.some.inj h)
          exact ⟨_, hcall ▸ .send hn.1 hn.2, rfl, rfl, rfl, rfl⟩
        · simp at h
      · simp at h
  | sent t' =>
      obtain rfl : t' = t := Option.some.inj ht
      simp only [send] at h
      split at h
      · rename_i work write hcall
        split at h
        · rename_i hwhole
          obtain ⟨rfl, rfl⟩ := Prod.mk.inj (Option.some.inj h)
          exact ⟨_, hcall ▸ .sent hwhole, moved_goto rfl⟩
        · simp at h
      · simp at h
  | raise t' e =>
      obtain rfl : t' = t := Option.some.inj ht
      simp only [send] at h
      split at h
      · rename_i work write hcall
        split at h
        · rename_i hless
          obtain ⟨rfl, rfl⟩ := Prod.mk.inj (Option.some.inj h)
          exact ⟨_, hcall ▸ .raise hless, moved_goto rfl⟩
        · simp at h
      · simp at h
  | _ => simp [send] at h

/-- **A step of a call** moves the call, and nothing else but the counter and the stream. -/
theorem moves_of_act (h : s.act pb jwt a = some (o, s')) (ht : a.call? = some t) :
    ∃ call, Moves jwt s t (s.calls t) a o call ∧ Moved s t o call s' := by
  have hbegin : ∀ {call}, s.begin t call = some (o, s') → Moves jwt s t .idle a .silent call →
      ∃ call, Moves jwt s t (s.calls t) a o call ∧ Moved s t o call s' := by
    intro call hs hmoves
    obtain ⟨hidle, rfl, rfl⟩ := begin_eq_some hs
    exact ⟨call, hidle ▸ hmoves, moved_goto rfl⟩
  cases a with
  | wait => simp [Action.call?] at ht
  | login => simp [Action.call?] at ht
  | placeOrder t' metadata request =>
      obtain rfl : t' = t := Option.some.inj ht
      exact hbegin h .placeOrder
  | cancelOrder t' metadata request =>
      obtain rfl : t' = t := Option.some.inj ht
      exact hbegin h .cancelOrder
  | streamMarketData t' symbol =>
      obtain rfl : t' = t := Option.some.inj ht
      exact hbegin h .streamMarketData
  | requestMarketDataSnapshot t' symbol =>
      obtain rfl : t' = t := Option.some.inj ht
      exact hbegin h .requestMarketDataSnapshot
  | readCounter | writeCounter | getOrderId | pack | send | sent | raise =>
      simp only [act, Option.orElse_eq_orElse, Option.orElse_eq_or, Option.or_eq_some_iff] at h
      rcases h with h | ⟨-, h⟩
      · exact moves_of_number h ht
      · exact moves_of_send h ht

/-- The other steps leave the calls and the stream alone. -/
theorem calls_of_act (h : s.act pb jwt a = some (o, s')) (ht : a.call? = none) :
    s'.calls = s.calls ∧ s'.written = s.written ∧ o.packet? = none ∧ o.piece = [] := by
  cases a with
  | wait seconds =>
      obtain ⟨rfl, rfl⟩ := Prod.mk.inj (Option.some.inj h)
      exact ⟨rfl, rfl, rfl, rfl⟩
  | login username password =>
      obtain ⟨rfl, rfl⟩ := Prod.mk.inj (Option.some.inj h)
      exact ⟨rfl, rfl, rfl, rfl⟩
  | _ => simp [Action.call?] at ht

/-! ### Runs -/

/-- The steps of a call. -/
def stepsOf (t : θ) (tr : List (Action θ × Output)) : List (Action θ × Output) :=
  tr.filter fun x => x.1.call? = some t

/-- What the socket has taken of a call's packet. -/
def takenOf (t : θ) (tr : List (Action θ × Output)) : List UInt8 :=
  (stepsOf t tr).flatMap fun x => x.2.piece

/-- A run of the service. -/
abbrev Run (pb : TradingPb2) (jwt : Jwt) (tr : List (Action θ × Output)) (s : GatewayCalls θ) :
    Prop :=
  Trace.Run (Trace.guarded (Action.Unforged jwt) (Trace.ofFun (act pb jwt))) started tr s

/-- The log-in of the service. -/
def loginPacket : List UInt8 := GatewayService.connectToOme.getD []

/-- The service is where the run has led it. -/
structure Known (pb : TradingPb2) (jwt : Jwt) (tr : List (Action θ × Output))
    (s : GatewayCalls θ) : Prop where
  now : s.now = (history tr).now
  tokens : s.tokens = (history tr).logins.filterMap (LogIn.token pb jwt)
  calls : ∀ t, Stands t (stepsOf t tr) (s.calls t)
  written : s.written = loginPacket ++ tr.flatMap fun x => x.2.piece

theorem login_eq (now : Nat) (username password : String) :
    ((login pb jwt now username password).filter (·.success)).toList.map (·.token) =
      (LogIn.token pb jwt ⟨now, username, password⟩).toList := by
  unfold login LogIn.token
  split
  · cases credentials username password <;> rfl
  · rfl

theorem stepsOf_snoc_self (ht : a.call? = some t) :
    stepsOf t (tr ++ [(a, o)]) = stepsOf t tr ++ [(a, o)] := by
  simp [stepsOf, List.filter_append, ht]

theorem stepsOf_snoc_of_ne (ht : a.call? ≠ some t) :
    stepsOf t (tr ++ [(a, o)]) = stepsOf t tr := by
  simp [stepsOf, List.filter_append, ht]

theorem Known.step (hk : Known pb jwt tr s) (h : s.act pb jwt a = some (o, s')) :
    Known pb jwt (tr ++ [(a, o)]) s' := by
  obtain ⟨hnow, htokens, hcalls, hwritten⟩ := hk
  have hflat : (tr ++ [(a, o)]).flatMap (fun x => x.2.piece) =
      tr.flatMap (fun x => x.2.piece) ++ o.piece := by
    rw [List.flatMap_append, List.flatMap_singleton]
  cases ht : a.call? with
  | none =>
      obtain ⟨hsame, hstream, -, hpiece⟩ := calls_of_act h ht
      have hnext : ∀ t, Stands t (stepsOf t (tr ++ [(a, o)])) (s'.calls t) := fun t => by
        rw [stepsOf_snoc_of_ne (by simp [ht]), hsame]
        exact hcalls t
      have hstream' : s'.written = loginPacket ++ (tr ++ [(a, o)]).flatMap fun x => x.2.piece := by
        rw [hstream, hwritten, hflat, hpiece, List.append_nil]
      cases a with
      | wait seconds =>
          obtain ⟨-, rfl⟩ := Prod.mk.inj (Option.some.inj h)
          refine ⟨?_, ?_, hnext, hstream'⟩
          · rw [history_snoc]
            exact congrArg (· + seconds) hnow
          · rw [history_snoc]
            exact htokens
      | login username password =>
          obtain ⟨-, rfl⟩ := Prod.mk.inj (Option.some.inj h)
          refine ⟨?_, ?_, hnext, hstream'⟩
          · rw [history_snoc]
            exact hnow
          · rw [history_snoc]
            simp only [History.after, List.filterMap_append, htokens, hnow, login_eq]
            cases htoken : LogIn.token pb jwt ⟨(history tr).now, username, password⟩ <;>
              simp [htoken]
      | _ => simp [Action.call?] at ht
  | some t =>
      obtain ⟨call, hmoves, hmoved⟩ := moves_of_act h ht
      have hhistory : (history tr).after (a, o) = history tr := by
        cases a <;> simp [Action.call?, History.after] at ht ⊢
      refine ⟨?_, ?_, fun t' => ?_, ?_⟩
      · rw [history_snoc, hhistory, hmoved.now, hnow]
      · rw [history_snoc, hhistory, hmoved.tokens, htokens]
      · rw [hmoved.calls]
        by_cases htt : t' = t
        · subst htt
          rw [stepsOf_snoc_self ht, Function.update_self]
          exact (hcalls t').move hmoves
        · rw [stepsOf_snoc_of_ne (by simpa [ht] using Ne.symm htt), Function.update_of_ne htt]
          exact hcalls t'
      · rw [hmoved.written, hwritten, hflat, List.append_assoc]

theorem known_of_run (hrun : Run pb jwt tr s) : Known pb jwt tr s := by
  induction hrun with
  | nil => exact ⟨rfl, rfl, fun t => rfl, (List.append_nil _).symm⟩
  | snoc _ hs ih => exact ih.step hs.2

/-! ### Runs in which packets are not divided -/

/-- What the calls have given to `sendall`. -/
def writes (s : GatewayCalls θ) (t : θ) : Option (Write UInt8) := (s.calls t).write?

/-- The socket takes bytes of a packet only while no other packet is cut. -/
def Undivided (s : GatewayCalls θ) : Action θ → Prop
  | .send t _ => ShortWrites.Alone s.writes t
  | _ => True

/-- A run in which `sendall` is not interrupted by another in the middle of a packet. -/
abbrev UndividedRun (pb : TradingPb2) (jwt : Jwt) (tr : List (Action θ × Output))
    (s : GatewayCalls θ) : Prop :=
  Trace.Run (Trace.guarded Undivided
    (Trace.guarded (Action.Unforged jwt) (Trace.ofFun (act pb jwt)))) started tr s

theorem run_of_undivided (hrun : UndividedRun pb jwt tr s) : Run pb jwt tr s :=
  hrun.mono fun _ _ _ _ h => h.2

theorem takenOf_eq (hk : Known pb jwt tr s) (t : θ) :
    takenOf t tr = ShortWrites.taken (s.writes t) := (hk.calls t).shows.pieces

/-- **The calls write in turn.** -/
theorem inTurn_of_run (hrun : UndividedRun pb jwt tr s) :
    ∃ turns, ShortWrites.InTurn s.writes turns (tr.flatMap fun x => x.2.piece) := by
  induction hrun with
  | nil => exact ⟨[], .nil fun t => rfl⟩
  | @snoc tr s s' a o _ hs ih =>
      obtain ⟨turns, hturns⟩ := ih
      obtain ⟨halone, -, hact⟩ := hs
      rw [List.flatMap_append, List.flatMap_singleton]
      cases ht : a.call? with
      | none =>
          obtain ⟨hcalls, -, -, hpiece⟩ := calls_of_act hact ht
          have hwrites : s'.writes = s.writes := funext fun t => by rw [writes, hcalls, writes]
          rw [hwrites, hpiece, List.append_nil]
          exact ⟨turns, hturns⟩
      | some t =>
          obtain ⟨call, hmoves, hmoved⟩ := moves_of_act hact ht
          have hwrites : s'.writes = Function.update s.writes t call.write? := by
            funext t'
            rw [writes, hmoved.calls]
            by_cases htt : t' = t
            · rw [htt, Function.update_self, Function.update_self]
            · rw [Function.update_of_ne htt, Function.update_of_ne htt, writes]
          rw [hwrites]
          rcases hmoves.write? with ⟨hsame, hpiece⟩ | ⟨data, hnone, hcall, hpiece⟩ |
            ⟨w, n, hle, rfl, hn, hw, hcall, hpiece⟩
          · rw [hpiece, List.append_nil, hsame]
            exact ⟨turns, (Function.update_eq_self t s.writes).symm ▸ hturns⟩
          · rw [hpiece, List.append_nil, hcall]
            exact ⟨turns, hturns.start hnone data⟩
          · rw [hpiece, hcall]
            exact hturns.accept hw halone hn hle

end GatewayCalls

end OrderMatchingEngine
