import OrderMatchingEngine.Library.Framing
import OrderMatchingEngine.Refinement.Packets

/-!
# OrderMatchingEngine.Refinement.Messages

`onMessage` as a fold over packets, and runs of the server's events.

`packets` cuts a stream as the loop of `onMessage` does. The loop hands the packets of the buffer to
`processPacket`, one after the other, and leaves the rest in the buffer (`onMessage_ok`). So what is
buffered for a client, and whether it has logged in, follow from the bytes that came in on its
connection (`received`, `run_ok`).
-/

namespace OrderMatchingEngine

/-! ### Packets of a stream -/

/-- The header at the front of these bytes has a length that is not allowed. -/
def InvalidHeader (bytes : List UInt8) : Prop :=
  5 ≤ bytes.length ∧ (headerMsgLen bytes < 5 ∨ 1024 < headerMsgLen bytes)

instance (bytes : List UInt8) : Decidable (InvalidHeader bytes) :=
  inferInstanceAs (Decidable (_ ∧ _))

theorem headerMsgLen_append {bytes : List UInt8} (h : 5 ≤ bytes.length) (more : List UInt8) :
    headerMsgLen (bytes ++ more) = headerMsgLen bytes := by
  unfold headerMsgLen
  rw [List.drop_append_of_le_length (by omega),
    List.take_append_of_le_length (by rw [List.length_drop]; omega)]

theorem headerMsgLen_take {bytes : List UInt8} {n : Nat} (h : 5 ≤ n) :
    headerMsgLen (bytes.take n) = headerMsgLen bytes := by
  unfold headerMsgLen
  rw [List.drop_take, List.take_take, Nat.min_eq_left (by omega)]

/-- The length of the packet at the front of a buffer that has it all. -/
def packetSize (buffer : List UInt8) : Option Nat :=
  if buffer.length < 5 then none
  else if headerMsgLen buffer > 1024 ∨ headerMsgLen buffer < 5 then none
  else if buffer.length < headerMsgLen buffer then none
  else some (headerMsgLen buffer)

theorem packetSize_eq_some {buffer : List UInt8} {n : Nat} : packetSize buffer = some n ↔
    n = headerMsgLen buffer ∧ 5 ≤ n ∧ n ≤ 1024 ∧ n ≤ buffer.length := by
  unfold packetSize
  split
  · simp only [reduceCtorEq, false_iff]
    omega
  · split
    · simp only [reduceCtorEq, false_iff]
      omega
    · split
      · simp only [reduceCtorEq, false_iff]
        omega
      · rw [Option.some.injEq]
        omega

/-- **Packets**: each has the length that its header says, which is allowed. -/
def packets : Framing UInt8 where
  size := packetSize
  pos h := by
    have hlen := packetSize_eq_some.mp h
    omega
  le h := (packetSize_eq_some.mp h).2.2.2
  stable {buf n} h more := by
    have hlen := packetSize_eq_some.mp h
    rw [packetSize_eq_some, headerMsgLen_append (by omega), List.length_append]
    omega
  self {buf n} h := by
    have hlen := packetSize_eq_some.mp h
    rw [packetSize_eq_some, headerMsgLen_take hlen.2.1, List.length_take]
    omega

theorem packets_size_eq_some {buffer : List UInt8} {n : Nat} : packets.size buffer = some n ↔
    n = headerMsgLen buffer ∧ 5 ≤ n ∧ n ≤ 1024 ∧ n ≤ buffer.length := packetSize_eq_some

/-- No packet comes off a buffer with a bad header, or with less than the packet. -/
theorem packets_size_eq_none {buffer : List UInt8} : packets.size buffer = none ↔
    InvalidHeader buffer ∨ buffer.length < 5 ∨ buffer.length < headerMsgLen buffer ∧
      headerMsgLen buffer ≤ 1024 := by
  rw [Option.eq_none_iff_forall_ne_some]
  simp only [ne_eq, packets_size_eq_some, InvalidHeader]
  constructor
  · intro h
    have hself := h (headerMsgLen buffer)
    omega
  · intro h n
    omega

theorem packets_size_nil : packets.size [] = none := rfl

namespace ClientGateway

section Messages

open Fallible (Rel)

variable (clock : Nat → Timestamp) (fuel : Nat) (now : Nat → Nat → Timestamp) (fd : Int)

/-- Hand one packet to `processPacket`. -/
def handPacket (msgData : List UInt8) (p : Progress) : Except Crash Progress :=
  match processPacket clock fuel (now p.handed.length) fd msgData p.gateway with
  | .error fault => .error ⟨p.handed ++ [msgData], p.sent, fault⟩
  | .ok (r, g) =>
    match r.fault with
    | some fault => .error ⟨p.handed ++ [msgData], p.sent ++ r.sent, fault⟩
    | none => .ok ⟨g, p.handed ++ [msgData], p.sent ++ r.sent⟩

/-- Assign to the buffer of `fd`. -/
def withBuffer (bytes : List UInt8) (p : Progress) : Progress :=
  { p with gateway := p.gateway.setBuffer fd bytes }

/-- Hand a packet over, then erase it from the buffer. -/
def takePacket (p : Progress) (msgData : List UInt8) : Except Crash Progress :=
  Framing.consume (fun p : Progress => p.gateway.buffer fd) (withBuffer fd)
    (handPacket clock fuel now fd) p msgData

/-- The loop of `onMessage` takes packets off the buffer. -/
theorem onMessageBody_eq (p : Progress) : onMessageBody clock fuel now fd p =
    packets.receiver (fun p : Progress => p.gateway.buffer fd) (withBuffer fd)
      (handPacket clock fuel now fd) p := by
  have hsize : packets.size (p.gateway.buffer fd) = packetSize (p.gateway.buffer fd) := rfl
  unfold onMessageBody Framing.receiver
  rw [hsize, packetSize]
  dsimp only
  split
  · rfl
  · split
    · rfl
    · split
      · rfl
      · rename_i hlen
        have hsize : ((p.gateway.buffer fd).take (headerMsgLen (p.gateway.buffer fd))).length =
            headerMsgLen (p.gateway.buffer fd) := List.length_take_of_le (Nat.le_of_not_lt hlen)
        dsimp only
        unfold Framing.consume handPacket
        rw [hsize]
        rcases processPacket clock fuel (now p.handed.length) fd _ p.gateway with fault | ⟨r, g⟩
        · rfl
        · dsimp only
          rcases r.fault with _ | fault <;> rfl

variable {clock fuel now fd} {g g' : ClientGateway} {p p' : Progress} {msgData data : List UInt8}
  {crash : Crash}

theorem takePacket_ok (h : takePacket clock fuel now fd p msgData = .ok p') :
    ∃ r g, processPacket clock fuel (now p.handed.length) fd msgData p.gateway = .ok (r, g) ∧
      r.fault = none ∧ p' = ⟨g.setBuffer fd ((g.buffer fd).drop msgData.length),
        p.handed ++ [msgData], p.sent ++ r.sent⟩ := by
  obtain ⟨q, hq, rfl⟩ := FuelLoop.map_eq_ok.mp h
  unfold handPacket at hq
  split at hq
  · simp at hq
  · rename_i r g hp
    split at hq
    · simp at hq
    · rename_i hfault
      obtain rfl := Except.ok.inj hq
      exact ⟨r, g, hp, hfault, rfl⟩

/-- Taking a packet fails where its handler does, with what was sent until then. -/
theorem takePacket_error (h : takePacket clock fuel now fd p msgData = .error crash) :
    (processPacket clock fuel (now p.handed.length) fd msgData p.gateway = .error crash.fault ∧
        crash.handed = p.handed ++ [msgData] ∧ crash.sent = p.sent) ∨
      ∃ r g, processPacket clock fuel (now p.handed.length) fd msgData p.gateway = .ok (r, g) ∧
        r.fault = some crash.fault ∧ crash.handed = p.handed ++ [msgData] ∧
        crash.sent = p.sent ++ r.sent := by
  unfold takePacket Framing.consume handPacket at h
  split at h
  · rename_i fault hp
    obtain rfl := Except.error.inj h
    exact .inl ⟨hp, rfl, rfl⟩
  · rename_i r g hp
    split at h
    · rename_i fault hfault
      obtain rfl := Except.error.inj h
      exact .inr ⟨r, g, hp, hfault, rfl, rfl⟩
    · simp [Except.map] at h

/-- The same packet in two courses: what `processPacket` keeps alike, `S` about the messages
included, taking the packet does. -/
theorem takePacket_rel {now' : Nat → Nat → Timestamp} {s t : Progress} {before : List (List UInt8)}
    {S : List Sent → List Sent → Prop} (hhanded : t.handed = before ++ s.handed)
    (hsent : S s.sent t.sent)
    (hprocess : Rel Eq
      (fun x y : Reporting × ClientGateway => x.1.fault = y.1.fault ∧
        S (s.sent ++ x.1.sent) (t.sent ++ y.1.sent) ∧ Agree x.2 y.2)
      (processPacket clock fuel (now s.handed.length) fd msgData s.gateway)
      (processPacket clock fuel (now' t.handed.length) fd msgData t.gateway)) :
    Rel (fun crash crash' => crash'.handed = before ++ crash.handed ∧ S crash.sent crash'.sent ∧
        crash'.fault = crash.fault)
      (fun p p' => p'.handed = before ++ p.handed ∧ S p.sent p'.sent ∧
        Agree p.gateway p'.gateway)
      (takePacket clock fuel now fd s msgData) (takePacket clock fuel now' fd t msgData) := by
  have hlast : t.handed ++ [msgData] = before ++ (s.handed ++ [msgData]) := by
    rw [hhanded, List.append_assoc]
  unfold takePacket Framing.consume handPacket
  generalize processPacket clock fuel (now s.handed.length) fd msgData s.gateway = x at hprocess ⊢
  generalize processPacket clock fuel (now' t.handed.length) fd msgData t.gateway = y
    at hprocess ⊢
  cases hprocess with
  | error hfault =>
      subst hfault
      exact .error ⟨hlast, hsent, rfl⟩
  | @ok x y hend =>
      obtain ⟨hfault, hsent', hagree⟩ := hend
      dsimp only
      rw [hfault]
      rcases y.1.fault with _ | fault
      · exact .ok ⟨hlast, hsent', hagree.setBuffer fd fd _ _⟩
      · exact .error ⟨hlast, hsent', rfl⟩

theorem handPacket_buffer (msgData : List UInt8) (p p' : Progress)
    (h : handPacket clock fuel now fd msgData p = .ok p') :
    p'.gateway.buffer fd = p.gateway.buffer fd := by
  unfold handPacket at h
  split at h
  · simp at h
  · rename_i r g hp
    split at h
    · simp at h
    · obtain rfl := Except.ok.inj h
      exact (processPacket_ok hp).buffer fd

/-- The loop of `onMessage`, under every bound above the length of the buffer. -/
theorem onMessageLoop_eq (stuck : Crash) {bound : Nat}
    (hbound : (p.gateway.buffer fd).length < bound) :
    FuelLoop.run stuck (onMessageBody clock fuel now fd) bound p =
      (packets.frames (p.gateway.buffer fd)).foldlM (takePacket clock fuel now fd) p := by
  rw [funext (onMessageBody_eq clock fuel now fd)]
  exact packets.run_receiver (fun b (p : Progress) => buffer_setBuffer fd b p.gateway)
    handPacket_buffer hbound

/-- **`onMessage` takes the packets off the buffer**, one after the other. -/
theorem onMessage_eq : g.onMessage clock fuel now fd data =
    (packets.frames (g.buffer fd ++ data)).foldlM (takePacket clock fuel now fd)
      ⟨g.setBuffer fd (g.buffer fd ++ data), [], []⟩ := by
  have hloop : ∀ p : Progress, FuelLoop.run ⟨[], [], .outOfFuel⟩ (onMessageBody clock fuel now fd)
      ((p.gateway.buffer fd).length + 1) p =
        (packets.frames (p.gateway.buffer fd)).foldlM (takePacket clock fuel now fd) p :=
    fun p => onMessageLoop_eq _ (Nat.lt_succ_self _)
  unfold onMessage
  dsimp only
  rw [hloop ⟨g.setBuffer fd (g.buffer fd ++ data), [], []⟩]
  dsimp only
  rw [buffer_setBuffer]

/-- One of these packets is a log-in. -/
def LogsIn (handed : List (List UInt8)) : Prop :=
  ∃ msgData ∈ handed, requestType? msgData = some .loginRequest

instance (handed : List (List UInt8)) : Decidable (LogsIn handed) :=
  inferInstanceAs (Decidable (∃ msgData ∈ handed, _ = _))

theorem logsIn_append {handed handed' : List (List UInt8)} :
    LogsIn (handed ++ handed') ↔ LogsIn handed ∨ LogsIn handed' := by
  unfold LogsIn
  simp only [List.mem_append, or_and_right, exists_or]

/-- What packets of `fd` do to the sessions and subscriptions. -/
structure Served (fd : Int) (handed : List (List UInt8)) (g g' : ClientGateway) : Prop where
  buffer : ∀ fd', fd' ≠ fd → g'.buffer fd' = g.buffer fd'
  loggedIn : ∀ fd', g'.LoggedIn fd' ↔ g.LoggedIn fd' ∨ (fd' = fd ∧ LogsIn handed)
  subscribed : ∀ fd', g'.Subscribed fd' → g.Subscribed fd' ∨ (fd' = fd ∧ g'.LoggedIn fd)

/-- What was sent while packets of `fd` were processed went to clients who had logged in. -/
def SentTo (fd : Int) (handed : List (List UInt8)) (g : ClientGateway) (sent : List Sent) : Prop :=
  ∀ m ∈ sent, g.LoggedIn m.fd ∨ (m.fd = fd ∧ LogsIn handed)

theorem logsIn_singleton : LogsIn [msgData] ↔ requestType? msgData = some .loginRequest := by
  unfold LogsIn
  simp

/-- Packets that were taken off the buffer one after the other. -/
theorem takePackets_ok {taken : List (List UInt8)}
    (h : taken.foldlM (takePacket clock fuel now fd) ⟨g, [], []⟩ = .ok p) :
    p.handed = taken ∧ Served fd taken g p.gateway ∧ SentTo fd taken g p.sent := by
  refine Fallible.foldlM_invariant
    (fun taken p => p.handed = taken ∧ Served fd taken g p.gateway ∧ SentTo fd taken g p.sent)
    ?_ ?_ h
  · intro taken msgData p p' hI htake
    obtain ⟨hhanded, hserved, hsent⟩ := hI
    obtain ⟨r, g₁, hp, -, rfl⟩ := takePacket_ok htake
    have hproc := processPacket_ok hp
    have hin : ∀ fd', g₁.LoggedIn fd' ↔
        g.LoggedIn fd' ∨ (fd' = fd ∧ LogsIn (taken ++ [msgData])) := by
      intro fd'
      rw [hproc.loggedIn, hserved.loggedIn, logsIn_append, logsIn_singleton]
      tauto
    refine ⟨by rw [hhanded], ⟨?_, ?_, ?_⟩, ?_⟩
    · intro fd' hne
      rw [buffer_setBuffer_of_ne _ _ hne, hproc.buffer, hserved.buffer fd' hne]
    · intro fd'
      rw [loggedIn_setBuffer, hin]
    · intro fd' hsub
      have hmono : p.gateway.LoggedIn fd → g₁.LoggedIn fd := fun h =>
        (hproc.loggedIn fd).mpr (.inl h)
      rw [loggedIn_setBuffer]
      have hsub' := hsub.congr (Agree.of_setBuffer fd _ g₁).subscriptions
      rcases hproc.subscribed fd' hsub' with h | h
      · exact (hserved.subscribed fd' h).imp_right fun h => ⟨h.1, hmono h.2⟩
      · exact .inr ⟨h.1, hmono h.2⟩
    · intro m hm
      rcases List.mem_append.mp hm with hm | hm
      · refine (hsent m hm).imp_right fun h => ⟨h.1, logsIn_append.mpr (.inl h.2)⟩
      · exact (hin m.fd).mp (hproc.sent m hm)
  · refine ⟨rfl, ⟨fun _ _ => rfl, fun fd' => ?_, fun _ => .inl⟩, by simp [SentTo]⟩
    exact (or_iff_left fun h => by simp [LogsIn] at h).symm

/-- Packets of which one was the last. -/
theorem takePackets_error {taken : List (List UInt8)}
    (h : taken.foldlM (takePacket clock fuel now fd) ⟨g, [], []⟩ = .error crash) :
    crash.handed <+: taken ∧ SentTo fd crash.handed g crash.sent := by
  obtain ⟨done, msgData, rest, p, rfl, hdone, hlast⟩ := Fallible.foldlM_error h
  obtain ⟨hhanded, hserved, hsent⟩ := takePackets_ok hdone
  have hfront : p.handed ++ [msgData] <+: done ++ msgData :: rest := by
    rw [hhanded]
    exact ⟨rest, by simp⟩
  have hsent' : SentTo fd (p.handed ++ [msgData]) g p.sent := by
    intro m hm
    rw [hhanded]
    exact (hsent m hm).imp_right fun h => ⟨h.1, logsIn_append.mpr (.inl h.2)⟩
  rcases takePacket_error hlast with ⟨-, hh, hs⟩ | ⟨r, g', hp, -, hh, hs⟩
  · rw [hh, hs]
    exact ⟨hfront, hsent'⟩
  · rw [hh, hs]
    refine ⟨hfront, fun m hm => ?_⟩
    rcases List.mem_append.mp hm with hm | hm
    · exact hsent' m hm
    · have hproc := processPacket_ok hp
      have hin := (hproc.loggedIn m.fd).mp (hproc.sent m hm)
      rw [hserved.loggedIn, ← logsIn_singleton] at hin
      rw [logsIn_append, hhanded]
      tauto

theorem Served.of_setBuffer {handed : List (List UInt8)} {bytes : List UInt8}
    (h : Served fd handed (g.setBuffer fd bytes) g') : Served fd handed g g' where
  buffer fd' hne := by rw [h.buffer fd' hne, buffer_setBuffer_of_ne _ _ hne]
  loggedIn fd' := by rw [h.loggedIn, loggedIn_setBuffer]
  subscribed fd' hsub := (h.subscribed fd' hsub).imp_left fun hsub =>
    hsub.congr (Agree.of_setBuffer fd bytes g).subscriptions

theorem SentTo.of_setBuffer {handed : List (List UInt8)} {bytes : List UInt8} {sent : List Sent}
    (h : SentTo fd handed (g.setBuffer fd bytes) sent) : SentTo fd handed g sent :=
  fun m hm => (h m hm).imp_left (loggedIn_setBuffer fd bytes g m.fd).mp

/-- **A message** hands the packets that are complete now to `processPacket`, and leaves the
rest. -/
theorem onMessage_ok (h : g.onMessage clock fuel now fd data = .ok p) :
    p.handed = packets.frames (g.buffer fd ++ data) ∧
      p.gateway.buffer fd = packets.rest (g.buffer fd ++ data) ∧
      Served fd p.handed g p.gateway ∧ SentTo fd p.handed g p.sent := by
  have hbuffer : ∀ q : Progress,
      (packets.frames (q.gateway.buffer fd)).foldlM (takePacket clock fuel now fd) q = .ok p →
        p.gateway.buffer fd = packets.rest (q.gateway.buffer fd) := fun q hq =>
    packets.buffer_foldlM (fun b (p : Progress) => buffer_setBuffer fd b p.gateway)
      handPacket_buffer hq
  rw [onMessage_eq] at h
  obtain ⟨hhanded, hserved, hsent⟩ := takePackets_ok h
  have hrest := hbuffer ⟨g.setBuffer fd (g.buffer fd ++ data), [], []⟩
  dsimp only at hrest
  rw [buffer_setBuffer] at hrest
  rw [hhanded]
  exact ⟨rfl, hrest h, hserved.of_setBuffer, hsent.of_setBuffer⟩

/-- One that the process does not survive ends with one of these packets. -/
theorem onMessage_error (h : g.onMessage clock fuel now fd data = .error crash) :
    crash.handed <+: packets.frames (g.buffer fd ++ data) ∧
      SentTo fd crash.handed g crash.sent := by
  rw [onMessage_eq] at h
  obtain ⟨hfront, hsent⟩ := takePackets_error h
  exact ⟨hfront, hsent.of_setBuffer⟩

end Messages

/-! ### Runs -/

/-- The bytes that came in on `fd` since it was connected, after one more event. -/
def receive (fd : Int) (bytes : List UInt8) : Event → List UInt8
  | .connection fd' => if fd = fd' then [] else bytes
  | .message fd' _ data => if fd = fd' then bytes ++ data else bytes
  | .disconnection fd' => if fd = fd' then [] else bytes

/-- The bytes that came in on `fd` since it was connected last. -/
def received (fd : Int) (events : List Event) : List UInt8 := events.foldl (receive fd) []

theorem received_snoc (fd : Int) (events : List Event) (event : Event) :
    received fd (events ++ [event]) = receive fd (received fd events) event := by
  rw [received, List.foldl_append]
  rfl

/-- Nobody is connected or subscribed. -/
structure Idle (g : ClientGateway) : Prop where
  sessions : g.sessions = ∅
  subscriptions : g.marketDataSubscriptions = ∅

section Runs

variable {clock : Nat → Timestamp} {fuel : Nat} {g : ClientGateway} {p : Progress}
  {events : List Event}

theorem Idle.session (h : g.Idle) (fd : Int) : (g.session fd).1 = {} := by
  rw [session_fst, h.sessions]
  rfl

theorem andThen_ok {p p' : Progress} {x : Except Crash Progress} (h : p.andThen x = .ok p') :
    ∃ q, x = .ok q ∧ p' = ⟨q.gateway, p.handed ++ q.handed, p.sent ++ q.sent⟩ := by
  cases x with
  | error crash => simp [Progress.andThen] at h
  | ok q => exact ⟨q, rfl, (Except.ok.inj h).symm⟩

theorem start_andThen (g : ClientGateway) (x : Except Crash Progress) :
    (⟨g, [], []⟩ : Progress).andThen x = x := by
  cases x <;> rfl

theorem andThen_andThen (p p' : Progress) (x : Except Crash Progress) :
    p.andThen (p'.andThen x) =
      (⟨p'.gateway, p.handed ++ p'.handed, p.sent ++ p'.sent⟩ : Progress).andThen x := by
  cases x <;> simp [Progress.andThen]

/-- A run goes on from the state it is in. -/
theorem run_from (events : List Event) (p : Progress) :
    events.foldlM (proceed clock fuel) p =
      p.andThen (p.gateway.run clock fuel events) := by
  unfold run
  induction events generalizing p with
  | nil =>
      show Except.ok p = Except.ok _
      simp
  | cons event events ih =>
      rw [Fallible.foldlM_cons, Fallible.foldlM_cons, proceed, proceed, start_andThen]
      cases p.gateway.deliver clock fuel event with
      | error crash => rfl
      | ok q =>
          show events.foldlM _ (⟨q.gateway, p.handed ++ q.handed, p.sent ++ q.sent⟩ : Progress) =
            p.andThen (events.foldlM _ q)
          rw [ih, ih q, andThen_andThen]

theorem run_cons (event : Event) (events : List Event) (g : ClientGateway) :
    g.run clock fuel (event :: events) =
      match g.deliver clock fuel event with
      | .error crash => .error crash
      | .ok p => p.andThen (p.gateway.run clock fuel events) := by
  rw [run, Fallible.foldlM_cons, proceed, start_andThen]
  cases g.deliver clock fuel event with
  | error crash => rfl
  | ok q => exact run_from events q

/-- **An invariant of the events** that were delivered holds after every run. -/
theorem run_invariant (I : List Event → ClientGateway → Prop)
    (hstep : ∀ past event g p, I past g → g.deliver clock fuel event = .ok p →
      I (past ++ [event]) p.gateway) (hg : I [] g) (h : g.run clock fuel events = .ok p) :
    I events p.gateway := by
  refine Fallible.foldlM_invariant (fun past (p : Progress) => I past p.gateway) ?_ hg h
  intro past event q q' hI hq
  obtain ⟨q₁, hdeliver, rfl⟩ := andThen_ok hq
  exact hstep past event q.gateway q₁ hI hdeliver

/-- **What is buffered for a client** is what came in behind the last whole packet, and it has
logged in if one of the packets was a log-in. -/
theorem run_ok (hg : g.Idle) (h : g.run clock fuel events = .ok p) (fd : Int) :
    p.gateway.buffer fd = packets.rest (received fd events) ∧
      (p.gateway.LoggedIn fd ↔ LogsIn (packets.frames (received fd events))) := by
  refine run_invariant (fun past g => ∀ fd, g.buffer fd = packets.rest (received fd past) ∧
    (g.LoggedIn fd ↔ LogsIn (packets.frames (received fd past)))) ?_ ?_ h fd
  · intro past event g p hI hdeliver fd
    obtain ⟨hbuffer, hin⟩ := hI fd
    rw [received_snoc]
    cases event with
    | connection fd' =>
        obtain rfl := Except.ok.inj hdeliver
        rw [receive, buffer, LoggedIn, session_onConnection]
        split
        · exact ⟨rfl, by simp [LogsIn, packets.frames_none packets_size_nil]⟩
        · exact ⟨hbuffer, hin⟩
    | disconnection fd' =>
        obtain rfl := Except.ok.inj hdeliver
        rw [receive, buffer, LoggedIn, session_onDisconnection]
        split
        · exact ⟨rfl, by simp [LogsIn, packets.frames_none packets_size_nil]⟩
        · exact ⟨hbuffer, hin⟩
    | message fd' now data =>
        obtain ⟨hhanded, hrest, hserved, -⟩ := onMessage_ok hdeliver
        rw [receive]
        split
        · rename_i hfd
          subst hfd
          -- what was handed over now are the packets that the new bytes complete
          rw [hrest, hserved.loggedIn, hhanded, hbuffer, ← packets.rest_append,
            packets.frames_append (received fd past) data, logsIn_append, hin]
          simp
        · rename_i hne
          rw [hserved.buffer fd hne, hserved.loggedIn, hbuffer, hin]
          simp [hne]
  · intro fd
    rw [buffer, LoggedIn, hg.session]
    exact ⟨rfl, by simp [received, LogsIn, packets.frames_none packets_size_nil]⟩

end Runs

/-! ### A concrete gateway -/

/-- A gateway nobody has connected to, on a fresh engine. -/
def started : ClientGateway :=
  { engine := MatchingEngine.init
    sessions := ∅
    marketDataSubscriptions := ∅
    logOpen := true
    eventLog := [] }

theorem idle_started : Idle started := ⟨rfl, rfl⟩

end ClientGateway

end OrderMatchingEngine
