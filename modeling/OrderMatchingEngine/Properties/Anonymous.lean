import OrderMatchingEngine.Refinement.Messages

/-!
# OrderMatchingEngine.Properties.Anonymous

Connections on which no log-in comes in.

They leave no trace: a run goes as if none of their events had happened, and they are sent nothing
(`anonymous_no_influence`). The run without them is compared with the run, event by event
(`Beside`). What the proof needs of a descriptor that is in use by such a connection is that it has
not logged in and that the rest of its stream holds no log-in; what it needs of one that is in use
again later is that `onDisconnection` has cleared what the connection before had left.
-/

namespace OrderMatchingEngine

namespace ClientGateway

open Fallible (Rel)

/-! ### Events of a server -/

/-- `TcpServer` announces a connection on a descriptor that is not in use, and data and the end of
connections that it has announced. -/
def Delivered : (Int → Bool) → List Event → Prop
  | _, [] => True
  | isOpen, .connection fd :: events =>
    isOpen fd = false ∧ Delivered (Function.update isOpen fd true) events
  | isOpen, .message fd _ _ :: events => isOpen fd = true ∧ Delivered isOpen events
  | isOpen, .disconnection fd :: events =>
    isOpen fd = true ∧ Delivered (Function.update isOpen fd false) events

/-- What is still to come in on the connection that `fd` is in use by. -/
def upcoming (fd : Int) : List Event → List UInt8
  | [] => []
  | .connection fd' :: events => if fd' = fd then [] else upcoming fd events
  | .message fd' _ data :: events =>
    if fd' = fd then data ++ upcoming fd events else upcoming fd events
  | .disconnection fd' :: events => if fd' = fd then [] else upcoming fd events

/-- The run without the events of connections on which no log-in comes in. `gone` tells which
descriptors such connections are using. -/
def withoutAnonymous : (Int → Bool) → List Event → List Event
  | _, [] => []
  | gone, .connection fd :: events =>
    if LogsIn (packets.frames (upcoming fd events)) then
      .connection fd :: withoutAnonymous (Function.update gone fd false) events
    else withoutAnonymous (Function.update gone fd true) events
  | gone, .message fd now data :: events =>
    if gone fd then withoutAnonymous gone events
    else .message fd now data :: withoutAnonymous gone events
  | gone, .disconnection fd :: events =>
    if gone fd then withoutAnonymous gone events
    else .disconnection fd :: withoutAnonymous gone events

/-! ### Two runs -/

section Runs

variable {clock : Nat → Timestamp} {fuel : Nat} {g g' : ClientGateway} {fd : Int}
  {gone isOpen : Int → Bool} {events : List Event} {now : Nat → Nat → Timestamp}
  {data : List UInt8} {p p' : Progress}

/-- What two runs have sent is the same, and they end alike: dead of the same fault, or in states
with the same engine, subscriptions and event log. -/
def SameEffect : Except Crash Progress → Except Crash Progress → Prop :=
  Rel (fun crash crash' => crash.sent = crash'.sent ∧ crash.fault = crash'.fault)
    (fun p p' => p.sent = p'.sent ∧ Agree p.gateway p'.gateway)

/-- The state of a run with `events` to come: a descriptor that is not in use has no log-in,
subscribers have one, and a connection that is to be deleted has none and will have none. -/
structure Quiet (gone isOpen : Int → Bool) (events : List Event) (g : ClientGateway) : Prop where
  closed : ∀ fd, isOpen fd = false → ¬ g.LoggedIn fd
  subscribed : ∀ fd, g.Subscribed fd → g.LoggedIn fd
  hidden : ∀ fd, gone fd = true → isOpen fd = true →
    ¬ g.LoggedIn fd ∧ ¬ LogsIn (packets.frames (g.buffer fd ++ upcoming fd events))

theorem SameEffect.andThen {x y : Except Crash Progress} (hsent : p.sent = p'.sent)
    (h : SameEffect x y) : SameEffect (p.andThen x) (p'.andThen y) := by
  cases h with
  | error hcrash => exact .error ⟨by rw [hsent, hcrash.1], hcrash.2⟩
  | ok hend => exact .ok ⟨by rw [hsent, hend.1], hend.2⟩

/-- An event that sends nothing may be missing from one of the runs. -/
theorem SameEffect.after {x y : Except Crash Progress} (hsent : p.sent = [])
    (h : SameEffect x y) : SameEffect (p.andThen x) y := by
  cases h with
  | error hcrash => exact .error ⟨by rw [hsent, List.nil_append, hcrash.1], hcrash.2⟩
  | ok hend => exact .ok ⟨by rw [hsent, List.nil_append, hend.1], hend.2⟩

/-! ### Events of anonymous connections -/

/-- Packets of a client who has not logged in, none of them a log-in. -/
theorem takePackets_dropped (clock : Nat → Timestamp) (fuel : Nat) (now : Nat → Nat → Timestamp)
    {taken : List (List UInt8)} (hlogin : ¬ LogsIn taken) (hout : ¬ p.gateway.LoggedIn fd) :
    ∃ p', taken.foldlM (takePacket clock fuel now fd) p = .ok p' ∧ p'.sent = p.sent ∧
      Agree p'.gateway p.gateway := by
  induction taken generalizing p with
  | nil => exact ⟨p, rfl, rfl, .refl _⟩
  | cons msgData taken ih =>
      have hmsg : requestType? msgData ≠ some .loginRequest := fun h =>
        hlogin ⟨msgData, List.mem_cons_self, h⟩
      have hrest : ¬ LogsIn taken := fun ⟨msgData', hmem, h⟩ =>
        hlogin ⟨msgData', List.mem_cons_of_mem _ hmem, h⟩
      obtain ⟨g₁, hdrop, hagree, -⟩ :=
        processPacket_dropped clock fuel (now p.handed.length) hout hmsg
      have htake : takePacket clock fuel now fd p msgData = .ok
          ⟨g₁.setBuffer fd ((g₁.buffer fd).drop msgData.length), p.handed ++ [msgData],
            p.sent ++ []⟩ := by
        unfold takePacket Framing.consume handPacket
        rw [hdrop]
        rfl
      rw [Fallible.foldlM_cons, htake]
      obtain ⟨p', hp', hsent, hagree'⟩ := ih hrest
        (p := ⟨g₁.setBuffer fd ((g₁.buffer fd).drop msgData.length), p.handed ++ [msgData],
          p.sent ++ []⟩) fun h =>
        hout ((hagree.loggedIn fd).mp ((loggedIn_setBuffer fd _ g₁ fd).mp h))
      refine ⟨p', hp', ?_, ?_⟩
      · rw [hsent, List.append_nil]
      · exact hagree'.trans ((Agree.of_setBuffer fd _ g₁).trans hagree)

theorem onMessage_dropped (clock : Nat → Timestamp) (fuel : Nat) (now : Nat → Nat → Timestamp)
    (hlogin : ¬ LogsIn (packets.frames (g.buffer fd ++ data))) (hout : ¬ g.LoggedIn fd) :
    ∃ p, g.onMessage clock fuel now fd data = .ok p ∧ p.sent = [] ∧ Agree p.gateway g := by
  obtain ⟨p, hp, hsent, hagree⟩ := takePackets_dropped clock fuel now
    (p := ⟨g.setBuffer fd (g.buffer fd ++ data), [], []⟩) hlogin
    fun h => hout ((loggedIn_setBuffer fd _ g fd).mp h)
  rw [onMessage_eq]
  exact ⟨p, hp, hsent, hagree.trans (Agree.of_setBuffer fd _ g)⟩

/-! ### One event -/

theorem buffer_onConnection (fd : Int) (g : ClientGateway) (fd' : Int) :
    (g.onConnection fd).buffer fd' = if fd' = fd then [] else g.buffer fd' := by
  unfold buffer
  rw [session_onConnection]
  split <;> rfl

theorem buffer_onDisconnection (fd : Int) (g : ClientGateway) (fd' : Int) :
    (g.onDisconnection fd).buffer fd' = if fd' = fd then [] else g.buffer fd' := by
  unfold buffer
  rw [session_onDisconnection]
  split <;> rfl

theorem upcoming_of_ne {event : Event} (h : event.fd ≠ fd) (events : List Event) :
    upcoming fd (event :: events) = upcoming fd events := by
  unfold Event.fd at h
  cases event <;> exact if_neg h

namespace Quiet

/-- An event of another client leaves a deleted one as it is. -/
theorem hidden_of_ne {event : Event} {fd' : Int} (h : Quiet gone isOpen (event :: events) g)
    (hne : event.fd ≠ fd') (hgone : gone fd' = true) (hopen : isOpen fd' = true) :
    ¬ g.LoggedIn fd' ∧ ¬ LogsIn (packets.frames (g.buffer fd' ++ upcoming fd' events)) := by
  have hhidden := h.hidden fd' hgone hopen
  rwa [upcoming_of_ne hne] at hhidden

/-- A connection, which is deleted (`anonymous`) only if no log-in will come in on it. -/
theorem connection (h : Quiet gone isOpen (.connection fd :: events) g)
    (hclosed : isOpen fd = false) {anonymous : Bool}
    (hanon : anonymous = true → ¬ LogsIn (packets.frames (upcoming fd events))) :
    Quiet (Function.update gone fd anonymous) (Function.update isOpen fd true) events
      (g.onConnection fd) where
  closed fd' hclosed' := by
    rw [loggedIn_onConnection]
    rintro ⟨hne, hin⟩
    rw [Function.update_of_ne hne] at hclosed'
    exact h.closed fd' hclosed' hin
  subscribed fd' hsub := by
    have hin : g.LoggedIn fd' := h.subscribed fd' hsub
    rw [loggedIn_onConnection]
    exact ⟨fun hfd => h.closed fd hclosed (hfd ▸ hin), hin⟩
  hidden fd' hgone hopen := by
    rw [loggedIn_onConnection, buffer_onConnection]
    by_cases hfd : fd' = fd
    · subst hfd
      rw [Function.update_self] at hgone
      rw [if_pos rfl]
      exact ⟨fun hin => hin.1 rfl, hanon hgone⟩
    · rw [Function.update_of_ne hfd] at hgone hopen
      rw [if_neg hfd]
      have hhidden := h.hidden_of_ne (Ne.symm hfd) hgone hopen
      exact ⟨fun hin => hhidden.1 hin.2, hhidden.2⟩

theorem disconnection (h : Quiet gone isOpen (.disconnection fd :: events) g) :
    Quiet gone (Function.update isOpen fd false) events (g.onDisconnection fd) where
  closed fd' hclosed := by
    rw [loggedIn_onDisconnection]
    rintro ⟨hne, hin⟩
    rw [Function.update_of_ne hne] at hclosed
    exact h.closed fd' hclosed hin
  subscribed fd' hsub := by
    obtain ⟨hne, hsub⟩ := subscribed_onDisconnection hsub
    rw [loggedIn_onDisconnection]
    exact ⟨hne, h.subscribed fd' hsub⟩
  hidden fd' hgone hopen := by
    rw [loggedIn_onDisconnection, buffer_onDisconnection]
    by_cases hfd : fd' = fd
    · rw [hfd, Function.update_self] at hopen
      simp at hopen
    · rw [Function.update_of_ne hfd] at hopen
      rw [if_neg hfd]
      have hhidden := h.hidden_of_ne (Ne.symm hfd) hgone hopen
      exact ⟨fun hin => hhidden.1 hin.2, hhidden.2⟩

/-- The packets of this message, and those still to come. -/
theorem split (h : Quiet gone isOpen (.message fd now data :: events) g) (hgone : gone fd = true)
    (hopen : isOpen fd = true) : ¬ LogsIn (packets.frames (g.buffer fd ++ data)) ∧
      ¬ LogsIn (packets.frames (packets.rest (g.buffer fd ++ data) ++ upcoming fd events)) := by
  have hhidden := (h.hidden fd hgone hopen).2
  rw [upcoming, if_pos rfl, ← List.append_assoc, packets.frames_append, logsIn_append,
    not_or] at hhidden
  exact hhidden

theorem message (h : Quiet gone isOpen (.message fd now data :: events) g)
    (hopen : isOpen fd = true) (hp : g.onMessage clock fuel now fd data = .ok p) :
    Quiet gone isOpen events p.gateway := by
  obtain ⟨hhanded, hrest, hserved, -⟩ := onMessage_ok hp
  refine ⟨fun fd' hclosed => ?_, fun fd' hsub => ?_, fun fd' hgone hopen' => ?_⟩
  · -- only the sender can have logged in, and it is connected
    have hne : fd' ≠ fd := fun hfd => by simp [hfd, hopen] at hclosed
    rw [hserved.loggedIn]
    simpa [hne] using h.closed fd' hclosed
  · rcases hserved.subscribed fd' hsub with hsub | ⟨rfl, hin⟩
    · exact (hserved.loggedIn fd').mpr (.inl (h.subscribed fd' hsub))
    · exact hin
  · rw [hserved.loggedIn]
    by_cases hfd : fd' = fd
    · -- the sender is anonymous: no log-in now, and none to come
      subst hfd
      obtain ⟨hnow, hlater⟩ := h.split hgone hopen'
      rw [hhanded, hrest]
      refine ⟨?_, hlater⟩
      rintro (hin | hlogin)
      · exact (h.hidden fd' hgone hopen').1 hin
      · exact hnow hlogin.2
    · have hhidden := h.hidden_of_ne (Ne.symm hfd) hgone hopen'
      rw [hserved.buffer fd' hfd]
      exact ⟨by simpa [hfd] using hhidden.1, hhidden.2⟩

end Quiet

/-- The same packet, in states that agree. -/
theorem takePacket_agree {s t : Progress} (msgData : List UInt8)
    (hhanded : t.handed = [] ++ s.handed) (hsent : s.sent = t.sent)
    (hagree : Agree s.gateway t.gateway) :
    Rel (fun crash crash' : Crash => crash'.handed = [] ++ crash.handed ∧
        crash.sent = crash'.sent ∧ crash'.fault = crash.fault)
      (fun p p' : Progress => p'.handed = [] ++ p.handed ∧ p.sent = p'.sent ∧
        Agree p.gateway p'.gateway)
      (takePacket clock fuel now fd s msgData) (takePacket clock fuel now fd t msgData) := by
  refine takePacket_rel (S := Eq) hhanded hsent ?_
  rw [hhanded, List.nil_append]
  refine (processPacket_agree hagree msgData).imp (fun _ _ h => h) fun x y h => ?_
  exact ⟨congrArg Reporting.fault h.1, by rw [hsent, h.1], h.2⟩

/-- The same message, in states that agree. -/
theorem onMessage_agree (hagree : Agree g g') (hbuffer : g'.buffer fd = g.buffer fd) :
    SameEffect (g.onMessage clock fuel now fd data) (g'.onMessage clock fuel now fd data) := by
  rw [onMessage_eq, onMessage_eq, hbuffer]
  refine (Fallible.foldlM_rel (fun msgData _ _ h => takePacket_agree msgData h.1 h.2.1 h.2.2) _
    ?_).imp (fun _ _ h => ⟨h.2.1, h.2.2.symm⟩) (fun _ _ h => h.2)
  exact ⟨rfl, rfl, hagree.setBuffer fd fd _ _⟩

/-! ### Step by step -/

/-- Two runs side by side, the second without the connections that are `gone`: they agree, and have
buffered the same for everyone else. -/
structure Beside (gone isOpen : Int → Bool) (events : List Event) (g g' : ClientGateway) :
    Prop where
  quiet : Quiet gone isOpen events g
  agree : Agree g g'
  buffer : ∀ fd, gone fd = false → g'.buffer fd = g.buffer fd

namespace Beside

theorem connection (h : Beside gone isOpen (.connection fd :: events) g g')
    (hclosed : isOpen fd = false) :
    Beside (Function.update gone fd false) (Function.update isOpen fd true) events
      (g.onConnection fd) (g'.onConnection fd) := by
  refine ⟨h.quiet.connection hclosed (by simp), h.agree.onConnection fd, fun fd' hstays => ?_⟩
  rw [buffer_onConnection, buffer_onConnection]
  by_cases hfd : fd' = fd
  · rw [if_pos hfd, if_pos hfd]
  · rw [Function.update_of_ne hfd] at hstays
    rw [if_neg hfd, if_neg hfd, h.buffer fd' hstays]

/-- A connection that will not log in is missing from the second run. -/
theorem connection_gone (h : Beside gone isOpen (.connection fd :: events) g g')
    (hclosed : isOpen fd = false) (hlogin : ¬ LogsIn (packets.frames (upcoming fd events))) :
    Beside (Function.update gone fd true) (Function.update isOpen fd true) events
      (g.onConnection fd) g' := by
  have hagree : Agree (g.onConnection fd) g := .of_onConnection (h.quiet.closed fd hclosed)
  refine ⟨h.quiet.connection hclosed fun _ => hlogin, hagree.trans h.agree, fun fd' hstays => ?_⟩
  have hne : fd' ≠ fd := fun hfd => by simp [hfd] at hstays
  rw [Function.update_of_ne hne] at hstays
  rw [buffer_onConnection, if_neg hne, h.buffer fd' hstays]

theorem message (h : Beside gone isOpen (.message fd now data :: events) g g')
    (hopen : isOpen fd = true) (hstays : gone fd = false)
    (hp : g.onMessage clock fuel now fd data = .ok p)
    (hp' : g'.onMessage clock fuel now fd data = .ok p') (hagree : Agree p.gateway p'.gateway) :
    Beside gone isOpen events p.gateway p'.gateway := by
  refine ⟨h.quiet.message hopen hp, hagree, fun fd' hstays' => ?_⟩
  obtain ⟨-, hrest, hserved, -⟩ := onMessage_ok hp
  obtain ⟨-, hrest', hserved', -⟩ := onMessage_ok hp'
  by_cases hfd : fd' = fd
  · rw [hfd, hrest, hrest', h.buffer fd hstays]
  · rw [hserved.buffer fd' hfd, hserved'.buffer fd' hfd, h.buffer fd' hstays']

/-- A message on a missing connection is dropped by the first run. -/
theorem message_gone (h : Beside gone isOpen (.message fd now data :: events) g g')
    (hopen : isOpen fd = true) (hgone : gone fd = true) :
    ∃ p, g.onMessage clock fuel now fd data = .ok p ∧ p.sent = [] ∧
      Beside gone isOpen events p.gateway g' := by
  obtain ⟨p, hp, hsent, hsame⟩ := onMessage_dropped clock fuel now
    (h.quiet.split hgone hopen).1 (h.quiet.hidden fd hgone hopen).1
  refine ⟨p, hp, hsent, h.quiet.message hopen hp, hsame.trans h.agree, fun fd' hstays => ?_⟩
  have hne : fd' ≠ fd := fun hfd => by simp [hfd, hgone] at hstays
  obtain ⟨-, -, hserved, -⟩ := onMessage_ok hp
  rw [hserved.buffer fd' hne, h.buffer fd' hstays]

theorem disconnection (h : Beside gone isOpen (.disconnection fd :: events) g g') :
    Beside gone (Function.update isOpen fd false) events (g.onDisconnection fd)
      (g'.onDisconnection fd) := by
  refine ⟨h.quiet.disconnection, h.agree.onDisconnection fd, fun fd' hstays => ?_⟩
  rw [buffer_onDisconnection, buffer_onDisconnection, h.buffer fd' hstays]

/-- A missing connection leaves nothing to clear: it has no log-in, so no subscriptions. -/
theorem disconnection_gone (h : Beside gone isOpen (.disconnection fd :: events) g g')
    (hopen : isOpen fd = true) (hgone : gone fd = true) :
    Beside gone (Function.update isOpen fd false) events (g.onDisconnection fd) g' := by
  obtain ⟨hout, -⟩ := h.quiet.hidden fd hgone hopen
  have hsub : ¬ g.Subscribed fd := fun hsub => hout (h.quiet.subscribed fd hsub)
  have hagree : Agree (g.onDisconnection fd) g := .of_onDisconnection hout hsub
  refine ⟨h.quiet.disconnection, hagree.trans h.agree, fun fd' hstays => ?_⟩
  have hne : fd' ≠ fd := fun hfd => by simp [hfd, hgone] at hstays
  rw [buffer_onDisconnection, if_neg hne, h.buffer fd' hstays]

end Beside

/-- **The run goes on as the run without anonymous connections does.** -/
theorem run_withoutAnonymous (hevents : Delivered isOpen events)
    (h : Beside gone isOpen events g g') :
    SameEffect (g.run clock fuel events)
      (g'.run clock fuel (withoutAnonymous gone events)) := by
  induction events generalizing gone isOpen g g' with
  | nil => exact .ok ⟨rfl, h.agree⟩
  | cons event events ih =>
      cases event with
      | connection fd =>
          obtain ⟨hclosed, hlater⟩ := hevents
          rw [run_cons, deliver, withoutAnonymous]
          by_cases hlogin : LogsIn (packets.frames (upcoming fd events))
          · rw [if_pos hlogin, run_cons, deliver]
            exact SameEffect.andThen rfl (ih hlater (h.connection hclosed))
          · rw [if_neg hlogin]
            exact SameEffect.after rfl (ih hlater (h.connection_gone hclosed hlogin))
      | message fd now data =>
          obtain ⟨hopen, hlater⟩ := hevents
          rw [run_cons, deliver, withoutAnonymous]
          cases hgone : gone fd with
          | true =>
              obtain ⟨p, hp, hsent, hbeside⟩ := h.message_gone hopen hgone
              rw [hp, if_pos rfl]
              exact SameEffect.after hsent (ih hlater hbeside)
          | false =>
              rw [if_neg Bool.false_ne_true, run_cons, deliver]
              have hsame : SameEffect (g.onMessage clock fuel now fd data)
                  (g'.onMessage clock fuel now fd data) :=
                onMessage_agree h.agree (h.buffer fd hgone)
              generalize hcall : g.onMessage clock fuel now fd data = x at hsame ⊢
              generalize hcall' : g'.onMessage clock fuel now fd data = y at hsame ⊢
              cases hsame with
              | error hcrash => exact .error hcrash
              | ok hend =>
                  exact SameEffect.andThen hend.1
                    (ih hlater (h.message hopen hgone hcall hcall' hend.2))
      | disconnection fd =>
          obtain ⟨hopen, hlater⟩ := hevents
          rw [run_cons, deliver, withoutAnonymous]
          cases hgone : gone fd with
          | true =>
              rw [if_pos rfl]
              exact SameEffect.after rfl (ih hlater (h.disconnection_gone hopen hgone))
          | false =>
              rw [if_neg Bool.false_ne_true, run_cons, deliver]
              exact SameEffect.andThen rfl (ih hlater h.disconnection)

/-- What has been sent, up to the end or until the process died. -/
def sentBy : Except Crash Progress → List Sent
  | .error crash => crash.sent
  | .ok p => p.sent

theorem Idle.quiet (hg : g.Idle) (events : List Event) :
    Quiet (fun _ => false) (fun _ => false) events g where
  closed fd _ hin := by
    unfold LoggedIn at hin
    rw [hg.session] at hin
    cases hin
  subscribed fd hsub := by
    obtain ⟨symbol, hmem⟩ := hsub
    rw [hg.subscriptions] at hmem
    cases hmem
  hidden fd hgone _ := by cases hgone

/-- **Nothing is sent before a log-in**: an event sends to descriptors on which one has come in
since they were connected. -/
theorem deliver_sentTo (hg : g.Idle) {past : List Event} (hpast : g.run clock fuel past = .ok p)
    (event : Event) {m : Sent} (hm : m ∈ sentBy (p.gateway.deliver clock fuel event)) :
    LogsIn (packets.frames (received m.fd (past ++ [event]))) := by
  cases event with
  | connection fd => cases hm
  | disconnection fd => cases hm
  | message fd now data =>
      have hbefore := run_ok hg hpast
      have hsent : ∃ handed, handed <+: packets.frames (p.gateway.buffer fd ++ data) ∧
          SentTo fd handed p.gateway
            (sentBy (p.gateway.deliver clock fuel (.message fd now data))) := by
        rw [deliver]
        cases hcall : p.gateway.onMessage clock fuel now fd data with
        | error crash => exact ⟨crash.handed, onMessage_error hcall⟩
        | ok p' =>
            obtain ⟨hhanded, -, -, hsent⟩ := onMessage_ok hcall
            exact ⟨p'.handed, hhanded ▸ List.prefix_refl _, hsent⟩
      obtain ⟨handed, hfront, hsent⟩ := hsent
      rw [received_snoc, receive]
      rcases hsent m hm with hin | ⟨hfd, hlogin⟩
      · rw [(hbefore m.fd).2] at hin
        split
        · rw [packets.frames_append, logsIn_append]
          exact .inl hin
        · exact hin
      · have hframes : LogsIn (packets.frames (p.gateway.buffer fd ++ data)) :=
          hlogin.imp fun _ h => ⟨hfront.subset h.1, h.2⟩
        rw [if_pos hfd, packets.frames_append, logsIn_append, hfd, ← (hbefore fd).1]
        exact .inr hframes

/-- **Connections that do not log in have no influence.** Without their events a run of the server
sends the same messages and ends alike: dead of the same fault, or with the same engine,
subscriptions and event log. And whatever an event sends goes to a connection on which a log-in has
come in. -/
theorem anonymous_no_influence (clock : Nat → Timestamp) (fuel : Nat) (hg : g.Idle)
    (hevents : Delivered (fun _ => false) events) :
    SameEffect (g.run clock fuel events)
        (g.run clock fuel (withoutAnonymous (fun _ => false) events)) ∧
      ∀ past event later p, events = past ++ event :: later → g.run clock fuel past = .ok p →
        ∀ m ∈ sentBy (p.gateway.deliver clock fuel event),
          LogsIn (packets.frames (received m.fd (past ++ [event]))) := by
  refine ⟨?_, fun past event later p _ hpast m hm => ?_⟩
  · exact run_withoutAnonymous hevents ⟨hg.quiet events, .refl g, fun _ _ => rfl⟩
  · exact deliver_sentTo hg hpast event hm

end Runs

/-! ### A concrete run -/

/-- A client logs in on 4. Another sends an order on 5 without logging in, and leaves; the next one
on 5 logs in. -/
def strangerLeaves : List Event :=
  [.connection 4, .message 4 (fun _ _ => 0) [0, 0, 76, 5, 0], .connection 5,
    .message 5 (fun _ _ => 0) [0, 0, 78, 5, 0], .disconnection 5, .connection 5,
    .message 5 (fun _ _ => 0) [0, 0, 76, 5, 0]]

theorem delivered_strangerLeaves : Delivered (fun _ => false) strangerLeaves :=
  ⟨rfl, rfl, rfl, rfl, rfl, rfl, rfl, trivial⟩

theorem withoutAnonymous_strangerLeaves : withoutAnonymous (fun _ => false) strangerLeaves =
    [.connection 4, .message 4 (fun _ _ => 0) [0, 0, 76, 5, 0], .connection 5,
      .message 5 (fun _ _ => 0) [0, 0, 76, 5, 0]] := rfl

/-- The log-in on 4 is answered, and the order on 5 might not have come. -/
theorem anonymous_no_influence_strangerLeaves :
    SameEffect (started.run (fun _ => 0) 10 strangerLeaves) (started.run (fun _ => 0) 10
      [.connection 4, .message 4 (fun _ _ => 0) [0, 0, 76, 5, 0], .connection 5,
        .message 5 (fun _ _ => 0) [0, 0, 76, 5, 0]]) ∧
      ∀ m ∈ sentBy ((started.onConnection 4).deliver (fun _ => 0) 10
          (.message 4 (fun _ _ => 0) [0, 0, 76, 5, 0])),
        LogsIn (packets.frames (received m.fd
          [.connection 4, .message 4 (fun _ _ => 0) [0, 0, 76, 5, 0]])) := by
  have hrun := anonymous_no_influence (fun _ => 0) 10 idle_started delivered_strangerLeaves
  rw [withoutAnonymous_strangerLeaves] at hrun
  exact ⟨hrun.1, hrun.2 [.connection 4] _ _ _ rfl rfl⟩

end ClientGateway

end OrderMatchingEngine
