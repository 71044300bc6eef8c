import OrderMatchingEngine.Properties.Subscribers
import OrderMatchingEngine.Refinement.Serving

/-!
# OrderMatchingEngine.Properties.ServerLoop

The server's loop and the gateway behind it.

Whatever its peers do, the server announces connections, data and ends in their order
(`server_announces`), serves every client in each pass as far as the callbacks before it return
(`pass_serves_each`), and dies at the first client for whom there is no bit (`server_dies_iff`). The
gateway has a session for each open connection and for no other, and sends to open connections only
(`sends_to_clients`); the packets it processes are those its peers wrote (`packets_of_peers`).
-/

namespace OrderMatchingEngine

open ClientGateway

namespace TcpServer

variable {others : Finset Int} {serverFd fd : Int} {m : Machine} {tr : List (Input × List Act)}
  {answers : Answers}

/-! ### Callbacks -/

/-- The descriptors whose end is announced. -/
def announcedEnds (acts : List Act) : List Int :=
  acts.filterMap fun
    | .callback (.disconnection fd) => some fd
    | _ => none

/-- The descriptors that are closed. -/
def closes (acts : List Act) : List Int :=
  acts.filterMap fun
    | .close fd => some fd
    | _ => none

theorem closes_actsFor (answers : Answers) (ready : List Int) (fd : Int) :
    closes (actsFor answers ready fd) = announcedEnds (actsFor answers ready fd) := by
  unfold actsFor
  split
  · split <;> rfl
  · rfl

/-- In each step the ends that are announced are those of the connections that are closed. -/
theorem closes_step {m' : Machine} {events : List Event} {i : Input} {acts : List Act}
    (h : m.Sound others events) (hd : Descriptors others serverFd)
    (hs : m.Step others serverFd i acts m') : closes acts = announcedEnds acts := by
  cases hs with
  | dial | write | leave | breakOff => rfl
  | @pass answers hlive hkernel =>
      rw [h.pass_eq hd hlive hkernel]
      dsimp only
      have hclients : ∀ clients : List Int,
          closes (clients.flatMap (actsFor answers answers.ready)) =
            announcedEnds (clients.flatMap (actsFor answers answers.ready)) := by
        intro clients
        rw [closes, announcedEnds, List.filterMap_flatMap, List.filterMap_flatMap]
        exact congrArg List.flatten (List.map_congr_left fun fd _ =>
          closes_actsFor answers answers.ready fd)
      cases answers.newClient? serverFd <;> exact hclients m.clients

/-- **The server announces everything in its turn**: a connection on a descriptor that is not in
use, data and the end of connections that it has announced. It has each open connection in its list,
once, and closes a descriptor exactly where it has announced its end. -/
theorem server_announces (hd : Descriptors others serverFd)
    (h : Machine.Run others serverFd tr m) :
    Delivered (fun _ => false) (callbacks tr) ∧ m.clients.Nodup ∧
      (∀ fd, fd ∈ m.clients ↔ (m.sockets fd).isSome = true) ∧
      (∀ fd, fd ∈ m.clients ↔ used (callbacks tr) fd = true) ∧
      ∀ x ∈ tr, closes x.2 = announcedEnds x.2 := by
  have hsound := Machine.Sound.run hd h
  refine ⟨hsound.streaming.delivered, hsound.nodup, hsound.clients, fun fd => ?_, ?_⟩
  · rw [hsound.streaming.used]
    exact hsound.clients fd
  · refine Trace.Run.invariant (fun tr _ => ∀ x ∈ tr, closes x.2 = announcedEnds x.2) (by simp) ?_ h
    intro tr m i acts m' hrun hI hs x hx
    rcases List.mem_append.mp hx with hx | hx
    · exact hI x hx
    · rw [List.mem_singleton.mp hx]
      exact closes_step (Machine.Sound.run hd hrun) hd hs

/-! ### Each client in each pass -/

theorem fd_actsFor {ready : List Int} : ∀ act ∈ actsFor answers ready fd, act.fd = fd := by
  unfold actsFor hangUp
  split
  · split <;> simp [Act.fd, Event.fd]
  · simp

/-- The acts for other clients are not about this one. -/
theorem filter_actsFor_of_notMem {ready clients : List Int} (hfd : fd ∉ clients) :
    (clients.flatMap (actsFor answers ready)).filter (·.fd = fd) = [] := by
  refine List.filter_eq_nil_iff.mpr fun act hact => ?_
  obtain ⟨fd', hfd', hact⟩ := List.mem_flatMap.mp hact
  rw [fd_actsFor act hact, decide_eq_true_iff]
  rintro rfl
  exact hfd hfd'

section CarriedOut

variable {returns : Event → Bool} {acts more before behind : List Act}

theorem carriedOut_subset (acts : List Act) : carriedOut returns acts ⊆ acts := by
  induction acts with
  | nil => exact List.Subset.refl _
  | cons act acts ih =>
      cases act with
      | callback event =>
          rw [carriedOut]
          split
          · exact List.cons_subset_cons _ ih
          · exact List.cons_subset_cons _ (List.nil_subset _)
      | close fd => exact List.cons_subset_cons _ ih

/-- Behind callbacks that return, it goes on. -/
theorem carriedOut_append (h : ∀ event, .callback event ∈ acts → returns event = true) :
    carriedOut returns (acts ++ more) = acts ++ carriedOut returns more := by
  induction acts with
  | nil => rfl
  | cons act acts ih =>
      have hrest := ih fun event hevent => h event (List.mem_cons_of_mem _ hevent)
      cases act with
      | callback event =>
          rw [List.cons_append, carriedOut, if_pos (h event List.mem_cons_self), hrest]
          rfl
      | close fd =>
          rw [List.cons_append, carriedOut, hrest]
          rfl

/-- What is carried out of some acts does not depend on those behind them. -/
theorem carriedOut_front (acts more : List Act) : ∃ rest, rest ⊆ more ∧
    carriedOut returns (acts ++ more) = carriedOut returns acts ++ rest := by
  induction acts with
  | nil => exact ⟨carriedOut returns more, carriedOut_subset more, rfl⟩
  | cons act acts ih =>
      obtain ⟨rest, hrest, heq⟩ := ih
      cases act with
      | callback event =>
          rw [List.cons_append, carriedOut, carriedOut]
          split
          · exact ⟨rest, hrest, by rw [heq]; rfl⟩
          · exact ⟨[], List.nil_subset _, rfl⟩
      | close fd => exact ⟨rest, hrest, by rw [List.cons_append, carriedOut, carriedOut, heq]; rfl⟩

/-- Of acts among those about other descriptors as much is carried out as of these alone, if the
callbacks before them return. -/
theorem filter_carriedOut (hbefore : ∀ event, .callback event ∈ before → returns event = true)
    (hahead : before.filter (·.fd = fd) = []) (hacts : ∀ act ∈ acts, act.fd = fd)
    (hbehind : behind.filter (·.fd = fd) = []) :
    (carriedOut returns (before ++ (acts ++ behind))).filter (·.fd = fd) =
      carriedOut returns acts := by
  obtain ⟨rest, hrest, heq⟩ := @carriedOut_front returns acts behind
  have hnone : rest.filter (·.fd = fd) = [] := List.filter_eq_nil_iff.mpr fun act hact =>
    List.filter_eq_nil_iff.mp hbehind act (hrest hact)
  rw [carriedOut_append hbefore, heq, List.filter_append, List.filter_append, hahead, hnone,
    List.nil_append, List.append_nil]
  exact List.filter_eq_self.mpr fun act hact =>
    decide_eq_true (hacts act (carriedOut_subset _ hact))

end CarriedOut

section Served

variable {front rest : List Int} {returns : Event → Bool}

/-- The acts of a pass, split at a client. -/
theorem pass_split (hd : Descriptors others serverFd) (h : Machine.Run others serverFd tr m)
    (hlive : m.fault = none) (hkernel : m.Possible others serverFd answers)
    (hfd : m.clients = front ++ fd :: rest) : ∃ before behind : List Act,
      (pass answers serverFd m.clients).acts =
        before ++ (actsFor answers answers.ready fd ++ behind) ∧
      before.filter (·.fd = fd) = [] ∧ behind.filter (·.fd = fd) = [] ∧
      ∀ act ∈ before, act.fd ∉ fd :: rest := by
  have hsound := Machine.Sound.run hd h
  have hnodup := hsound.nodup
  rw [hfd, List.nodup_append] at hnodup
  obtain ⟨-, hcons, hdisjoint⟩ := hnodup
  have hnew : ∀ newClient ∈ answers.newClient? serverFd, newClient ∉ fd :: rest :=
    fun newClient hnew hmem => (hsound.newClient hkernel hd.server hnew).2.2.1
      (hfd ▸ List.mem_append_right _ hmem)
  have hahead : ∀ act ∈ (answers.newClient? serverFd).toList.map
      (fun fd => Act.callback (.connection fd)) ++ front.flatMap (actsFor answers answers.ready),
      act.fd ∉ fd :: rest := by
    intro act hact
    rcases List.mem_append.mp hact with hact | hact
    · obtain ⟨newClient, hmem, rfl⟩ := List.mem_map.mp hact
      exact hnew newClient (Option.mem_toList.mp hmem)
    · obtain ⟨fd', hfd', hact⟩ := List.mem_flatMap.mp hact
      rw [fd_actsFor act hact]
      exact fun hmem => hdisjoint fd' hfd' fd' hmem rfl
  refine ⟨_, rest.flatMap (actsFor answers answers.ready), ?_, ?_, ?_, hahead⟩
  · rw [hsound.pass_eq hd hlive hkernel, hfd, List.flatMap_append, List.flatMap_cons,
      List.append_assoc]
  · refine List.filter_eq_nil_iff.mpr fun act hact heq => hahead act hact ?_
    rw [of_decide_eq_true heq]
    exact List.mem_cons_self
  · exact filter_actsFor_of_notMem (List.nodup_cons.mp hcons).1

/-- **Each client is served in each pass**, as far as the callbacks before it return: just as if it
were the only one, whoever comes and leaves in the same pass; and if there is something to read for
it, it is read. -/
theorem pass_serves_each (hd : Descriptors others serverFd)
    (h : Machine.Run others serverFd tr m) (hlive : m.fault = none)
    (hkernel : m.Possible others serverFd answers) (hfd : m.clients = front ++ fd :: rest)
    (hreturns : ∀ event, .callback event ∈ (pass answers serverFd m.clients).acts →
      event.fd ∉ fd :: rest → returns event = true) :
    (carriedOut returns (pass answers serverFd m.clients).acts).filter (·.fd = fd) =
        carriedOut returns (serve answers answers.ready [] [fd]).acts ∧
      (fd ∈ (pass answers serverFd m.clients).clients ↔
        fd ∈ (serve answers answers.ready [] [fd]).clients) ∧
      ∀ s, m.sockets fd = some s → fd ∈ answers.ready → s.unread ≠ [] → s.broken = false →
        ∃ data now, data ≠ [] ∧ data <+: s.unread ∧
          .callback (.message fd now data) ∈
            carriedOut returns (pass answers serverFd m.clients).acts := by
  have hsound := Machine.Sound.run hd h
  have hmem : fd ∈ m.clients := by simp [hfd]
  have halone : serve answers answers.ready [] [fd] =
      { acts := actsFor answers answers.ready fd
        clients := [fd].filter (stays answers answers.ready) } := by
    rw [serve_eq fun fd' hfd' => by
      rw [List.mem_singleton.mp hfd']
      exact hsound.bits hlive fd hmem]
    simp
  obtain ⟨before, behind, hacts, hahead, hbehind, hothers⟩ := pass_split hd h hlive hkernel hfd
  have hbefore : ∀ event, .callback event ∈ before → returns event = true := fun event hevent =>
    hreturns event (hacts ▸ List.mem_append_left _ hevent) (hothers _ hevent)
  rw [halone, hacts]
  dsimp only
  refine ⟨filter_carriedOut hbefore hahead fd_actsFor hbehind, ?_, ?_⟩
  · rw [hsound.pass_eq hd hlive hkernel]
    dsimp only
    rw [List.mem_append, List.mem_filter]
    constructor
    · rintro (⟨-, hstays⟩ | hnew)
      · simpa using hstays
      · exact absurd hmem
          (hsound.newClient hkernel hd.server (Option.mem_toList.mp hnew)).2.2.1
    · intro hstays
      exact .inl ⟨hmem, by simpa using hstays⟩
  · intro s hs hready hunread hwhole
    have hrecv := hkernel.recv fd s hs
    cases hanswer : answers.recv fd with
    | bytes data =>
        rw [hanswer] at hrecv
        refine ⟨data, answers.now fd, hrecv.1, hrecv.2.2, ?_⟩
        have hfor : actsFor answers answers.ready fd =
            [.callback (.message fd (answers.now fd) data)] := by
          rw [actsFor, if_pos hready, hanswer]
        rw [carriedOut_append hbefore, hfor]
        exact List.mem_append_right _ List.mem_cons_self
    | wouldBlock =>
        rw [hanswer] at hrecv
        exact absurd hrecv.1 hunread
    | endOfStream =>
        rw [hanswer] at hrecv
        exact absurd hrecv.1 hunread
    | failed =>
        rw [hanswer] at hrecv
        exact absurd (hwhole.symm.trans hrecv) (by simp)

end Served

/-! ### The end of the descriptors -/

/-- All descriptors that the process has open. -/
def Machine.descriptors (others : Finset Int) (m : Machine) : Finset Int :=
  others ∪ m.clients.toFinset

theorem Machine.Sound.mem_descriptors {events : List Event} (h : m.Sound others events) :
    fd ∈ m.descriptors others ↔ m.IsOpen others fd := by
  rw [descriptors, Finset.mem_union, List.mem_toFinset, h.clients, IsOpen]

theorem Machine.Sound.card_descriptors {events : List Event} (h : m.Sound others events) :
    (m.descriptors others).card = others.card + m.clients.length := by
  have hdisjoint : Disjoint others m.clients.toFinset := Finset.disjoint_right.mpr fun fd hfd =>
    (h.foreign fd (List.mem_toFinset.mp hfd)).2
  rw [descriptors, Finset.card_union_of_disjoint hdisjoint, List.toFinset_card_of_nodup h.nodup]

/-- The descriptors that have a bit in an `fd_set`. -/
def setBits : Finset Int := (Finset.range 1024).image Int.ofNat

theorem mem_setBits : fd ∈ setBits ↔ 0 ≤ fd ∧ fd < fdSetsize := by
  rw [setBits, Finset.mem_image, fdSetsize]
  constructor
  · rintro ⟨bit, hbit, rfl⟩
    rw [Finset.mem_range] at hbit
    exact ⟨Int.natCast_nonneg bit, Int.ofNat_lt.mpr hbit⟩
  · intro hfd
    refine ⟨fd.toNat, Finset.mem_range.mpr (by omega), ?_⟩
    exact Int.toNat_of_nonneg hfd.1

theorem card_setBits : setBits.card = 1024 := by
  rw [setBits, Finset.card_image_of_injective _ fun _ _ => Int.ofNat.inj, Finset.card_range]

theorem Machine.Sound.descriptors_subset {events : List Event} (h : m.Sound others events)
    (hd : Descriptors others serverFd) (hlive : m.fault = none) :
    m.descriptors others ⊆ setBits := by
  intro fd hfd
  rw [mem_setBits]
  rcases Finset.mem_union.mp hfd with hfd | hfd
  · exact hd.low fd hfd
  · have hfd := List.mem_toFinset.mp hfd
    exact ⟨(h.foreign fd hfd).1, h.bits hlive fd hfd⟩

/-- **The loop dies of one client too many**: as long as it lives it has at most 1024 descriptors
open, and a pass is its last exactly if it accepts a connection when all of them are, unless a
callback ends it before. -/
theorem server_dies_iff (hd : Descriptors others serverFd) (h : Machine.Run others serverFd tr m)
    (hlive : m.fault = none) :
    others.card + m.clients.length ≤ 1024 ∧
      ∀ acts m', m.Step others serverFd (.pass answers) acts m' →
        (m'.fault ≠ none ↔ others.card + m.clients.length = 1024 ∧
          ∃ ready newClient, answers.select = some ready ∧ serverFd ∈ ready ∧
            answers.accept = some newClient) := by
  have hsound := Machine.Sound.run hd h
  have hsubset := hsound.descriptors_subset hd hlive
  rw [← hsound.card_descriptors]
  refine ⟨card_setBits ▸ Finset.card_le_card hsubset, fun acts m' hs => ?_⟩
  cases hs with
  | pass _ hkernel =>
      have hnew : (∃ ready newClient, answers.select = some ready ∧ serverFd ∈ ready ∧
          answers.accept = some newClient) ↔ ∃ fd, answers.newClient? serverFd = some fd := by
        unfold Answers.newClient?
        cases answers.select with
        | none => simp
        | some ready => by_cases hready : serverFd ∈ ready <;> simp [hready]
      rw [hnew, hsound.pass_eq hd hlive hkernel]
      dsimp only
      cases hnewClient : answers.newClient? serverFd with
      | none => simp
      | some newClient =>
          -- the lowest free descriptor has a bit, unless all that have one are taken
          obtain ⟨-, hpos, hclosed, hlowest⟩ := hkernel.accept _ (accept_of_newClient? hnewClient)
          have hfree : newClient ∉ m.descriptors others := mt hsound.mem_descriptors.mp hclosed
          have hfull : fdSetsize ≤ newClient ↔ (m.descriptors others).card = 1024 := by
            rw [← card_setBits]
            constructor
            · intro hle
              refine congrArg Finset.card (hsubset.antisymm fun fd hfd => ?_)
              rw [mem_setBits] at hfd
              exact hsound.mem_descriptors.mpr (hlowest fd hfd.1 (by omega))
            · intro hall
              have heq := Finset.eq_of_subset_of_card_le hsubset (Nat.le_of_eq hall.symm)
              rw [heq, mem_setBits] at hfree
              exact Int.not_lt.mp fun hlt => hfree ⟨hpos, hlt⟩
          simp [hfull]

end TcpServer

/-! ### Sessions -/

namespace ClientGateway

variable {clock : Nat → Timestamp} {fuel : Nat} {now : Nat → Nat → Timestamp} {fd fd' : Int}
  {g g' : ClientGateway} {p : Progress} {data : List UInt8} {past : List Event}

/-- The descriptor has a session. -/
def HasSession (g : ClientGateway) (fd : Int) : Prop := (g.sessions.lookup fd).isSome = true

theorem hasSession_insert {s : Session} :
    ((g.sessions.insert fd s).lookup fd').isSome = true ↔ fd' = fd ∨ g.HasSession fd' := by
  by_cases hfd : fd' = fd
  · subst hfd
    simp
  · rw [AList.lookup_insert_ne hfd]
    simp [hfd, HasSession]

/-- Looking up a session that there is creates none. -/
theorem HasSession.session_eq (h : g.HasSession fd) : (g.session fd).2 = g := by
  obtain ⟨s, hs⟩ := Option.isSome_iff_exists.mp h
  rw [session, hs]

theorem LoggedIn.hasSession (h : g.LoggedIn fd) : g.HasSession fd := by
  unfold LoggedIn at h
  unfold HasSession
  rw [session_fst] at h
  cases hlookup : g.sessions.lookup fd with
  | none => simp [hlookup] at h
  | some s => rfl

theorem HasSession.congr (h : g'.sessions = g.sessions) (fd : Int) :
    g'.HasSession fd ↔ g.HasSession fd := by
  unfold HasSession
  rw [h]

theorem HasSession.setBuffer (h : g.HasSession fd) (bytes : List UInt8) (fd' : Int) :
    (g.setBuffer fd bytes).HasSession fd' ↔ g.HasSession fd' := by
  unfold ClientGateway.setBuffer HasSession
  dsimp only
  rw [h.session_eq, hasSession_insert]
  exact or_iff_right_of_imp fun hfd => hfd ▸ h

theorem HasSession.logIn (h : g.HasSession fd) (fd' : Int) :
    (g.logIn fd).HasSession fd' ↔ g.HasSession fd' := by
  unfold ClientGateway.logIn HasSession
  dsimp only
  rw [h.session_eq, hasSession_insert]
  exact or_iff_right_of_imp fun hfd => hfd ▸ h

/-- A packet that is dropped changes nothing, where its client has a session. -/
theorem HasSession.dropped (h : g.HasSession fd) (hout : ¬ g.LoggedIn fd)
    {now : Nat → Timestamp} {r : Reporting} (hlogin : requestType? data ≠ some .loginRequest)
    (hp : processPacket clock fuel now fd data g = .ok (r, g')) : g' = g := by
  have hsame : processPacket clock fuel now fd data g = .ok ({}, g) := by
    unfold processPacket
    rcases htype : requestType? data with _ | type
    · rfl
    · rw [← congrArg (fun g => (Except.ok ({}, g) : Except Fault (Reporting × ClientGateway)))
        h.session_eq]
      cases type with
      | loginRequest => exact absurd htype hlogin
      | newOrder => exact withRequest_dropped hout fun _ _ => handleNewOrder_dropped hout
      | orderCancel => exact withRequest_dropped hout fun _ _ => handleOrderCancel_dropped hout
      | marketDataRequest =>
          exact withRequest_dropped hout fun _ _ =>
            congrArg Except.ok (handleMarketDataRequest_dropped hout)
      | subscriptionRequest =>
          exact withRequest_dropped hout fun _ _ =>
            congrArg Except.ok (handleSubscriptionRequest_dropped hout)
  exact (Prod.mk.inj (Except.ok.inj (hsame.symm.trans hp))).2.symm

/-- **A packet creates no session.** -/
theorem HasSession.processPacket (h : g.HasSession fd) {now : Nat → Timestamp} {r : Reporting}
    (hp : processPacket clock fuel now fd data g = .ok (r, g')) (fd' : Int) :
    g'.HasSession fd' ↔ g.HasSession fd' := by
  cases processPacket_answered hp with
  | dropped hout hlogin => rw [h.dropped hout hlogin hp]
  | login => exact h.logIn fd'
  | newOrder => exact HasSession.congr (log_sessions _ g).1 fd'
  | orderCancel => exact HasSession.congr (log_sessions _ g).1 fd'
  | unknown | noBook | snapshot | subscription => exact Iff.rfl

/-- Nor does a message. -/
theorem HasSession.onMessage (h : g.HasSession fd)
    (hp : g.onMessage clock fuel now fd data = .ok p) (fd' : Int) :
    p.gateway.HasSession fd' ↔ g.HasSession fd' := by
  rw [onMessage_eq] at hp
  refine Fallible.foldlM_invariant
    (fun _ (p : Progress) => ∀ fd', p.gateway.HasSession fd' ↔ g.HasSession fd') ?_ ?_ hp fd'
  · intro _ msgData p q hI htake fd'
    obtain ⟨r, g₁, hpacket, -, rfl⟩ := takePacket_ok htake
    have hfd := (hI fd).mpr h
    dsimp only
    rw [HasSession.setBuffer ((hfd.processPacket hpacket fd).mpr hfd), hfd.processPacket hpacket,
      hI]
  · exact h.setBuffer _

/-- The sessions are those of the descriptors in use, and subscribers have logged in. -/
structure Tidy (past : List Event) (g : ClientGateway) : Prop where
  sessions : ∀ fd, g.HasSession fd ↔ TcpServer.used past fd = true
  subscribed : ∀ fd, g.Subscribed fd → g.LoggedIn fd

theorem Tidy.deliver (h : Tidy past g) {event : Event}
    (hevent : TcpServer.Expected (TcpServer.used past) event)
    (hp : g.deliver clock fuel event = .ok p) : Tidy (past ++ [event]) p.gateway := by
  cases event with
  | connection fd =>
      obtain rfl := Except.ok.inj hp
      refine ⟨fun fd' => ?_, fun fd' hsub => ?_⟩
      · rw [TcpServer.used_snoc]
        refine hasSession_insert.trans ?_
        by_cases hfd : fd' = fd <;> simp [hfd, TcpServer.usedAfter, h.sessions]
      · -- a descriptor that was not in use had no subscription
        have hsub : g.Subscribed fd' := hsub
        have hin := h.subscribed fd' hsub
        refine (loggedIn_onConnection fd g fd').mpr ⟨?_, hin⟩
        rintro rfl
        have hused := (h.sessions fd').mp hin.hasSession
        rw [hevent] at hused
        simp at hused
  | message fd now data =>
      have hfd : g.HasSession fd := (h.sessions fd).mpr hevent
      obtain ⟨-, -, hserved, -⟩ := onMessage_ok hp
      refine ⟨fun fd' => ?_, fun fd' hsub => ?_⟩
      · rw [hfd.onMessage hp, TcpServer.used_snoc]
        exact h.sessions fd'
      · rcases hserved.subscribed fd' hsub with hsub | ⟨rfl, hin⟩
        · exact (hserved.loggedIn fd').mpr (.inl (h.subscribed fd' hsub))
        · exact hin
  | disconnection fd =>
      obtain rfl := Except.ok.inj hp
      refine ⟨fun fd' => ?_, fun fd' hsub => ?_⟩
      · rw [TcpServer.used_snoc]
        show ((g.sessions.erase fd).lookup fd').isSome = true ↔
          Function.update (TcpServer.used past) fd false fd' = true
        by_cases hfd : fd' = fd
        · subst hfd
          simp
        · rw [AList.lookup_erase_ne hfd, Function.update_of_ne hfd]
          exact h.sessions fd'
      · obtain ⟨hne, hsub⟩ := subscribed_onDisconnection hsub
        exact (loggedIn_onDisconnection fd g fd').mpr ⟨hne, h.subscribed fd' hsub⟩

/-- **Every run** of events in their order keeps the sessions tidy. -/
theorem Tidy.run {events : List Event} (hg : g.Idle) (hevents : Delivered (fun _ => false) events)
    (hp : g.run clock fuel events = .ok p) : Tidy events p.gateway := by
  refine run_invariant (fun past g => Delivered (fun _ => false) past → Tidy past g) ?_ ?_ hp
    hevents
  · intro past event g p hI hdeliver hpast
    obtain ⟨hbefore, hevent⟩ := TcpServer.delivered_snoc.mp hpast
    exact (hI hbefore).deliver hevent hdeliver
  · refine fun _ => ⟨fun fd => ?_, ?_⟩
    · rw [HasSession, hg.sessions]
      simp [TcpServer.used]
    · rintro fd ⟨symbol, hmem⟩
      rw [hg.subscriptions] at hmem
      simp at hmem

end ClientGateway

namespace TcpServer

variable {others : Finset Int} {serverFd fd : Int} {m : Machine} {tr : List (Input × List Act)}
  {clock : Nat → Timestamp} {fuel : Nat} {g : ClientGateway} {p : Progress}

/-- Data that came in, came in on a descriptor in use. -/
theorem used_of_received {events : List Event} (hevents : Delivered (fun _ => false) events)
    (h : received fd events ≠ []) : used events fd = true := by
  induction events using List.reverseRecOn with
  | nil => simp [received] at h
  | append_singleton events event ih =>
      obtain ⟨hbefore, hevent⟩ := delivered_snoc.mp hevents
      have ih := ih hbefore
      rw [received_snoc] at h
      rw [used_snoc]
      cases event with
      | connection fd' =>
          by_cases hfd : fd = fd'
          · simp [receive, hfd] at h
          · simpa [usedAfter, hfd] using ih (by simpa [receive, hfd] using h)
      | message fd' now data =>
          by_cases hfd : fd = fd'
          · subst hfd
            exact hevent
          · exact ih (by simpa [receive, hfd] using h)
      | disconnection fd' =>
          by_cases hfd : fd = fd'
          · simp [receive, hfd] at h
          · simpa [usedAfter, hfd] using ih (by simpa [receive, hfd] using h)

/-- **The gateway knows the open connections**: it has a session for each of them and for no other,
and subscriptions of them only. Whatever it sends, also when it dies of it, goes to a connection
that is open then. -/
theorem sends_to_clients (clock : Nat → Timestamp) (fuel : Nat) (hd : Descriptors others serverFd)
    (h : Machine.Run others serverFd tr m) (hg : g.Idle) :
    (∀ p, g.run clock fuel (callbacks tr) = .ok p →
      (∀ fd, p.gateway.HasSession fd ↔ fd ∈ m.clients) ∧
        ∀ fd, p.gateway.Subscribed fd → fd ∈ m.clients) ∧
      ∀ past event later p, callbacks tr = past ++ event :: later →
        g.run clock fuel past = .ok p → ∀ message ∈ sentBy (p.gateway.deliver clock fuel event),
          used past message.fd = true := by
  have hsound := Machine.Sound.run hd h
  have hdelivered := hsound.streaming.delivered
  refine ⟨fun p hp => ?_, fun past event later p hsplit hpast message hmessage => ?_⟩
  · have htidy := Tidy.run hg hdelivered hp
    have hclients : ∀ fd, p.gateway.HasSession fd ↔ fd ∈ m.clients := fun fd => by
      rw [htidy.sessions, hsound.streaming.used, hsound.clients]
    exact ⟨hclients, fun fd hsub => (hclients fd).mp (htidy.subscribed fd hsub).hasSession⟩
  · rw [hsplit, List.append_cons] at hdelivered
    obtain ⟨hbefore, -⟩ := delivered_append.mp hdelivered
    have hlogin := deliver_sentTo hg hpast event hmessage
    have hreceived : received message.fd (past ++ [event]) ≠ [] := by
      intro hnil
      rw [hnil, packets.frames_none packets_size_nil] at hlogin
      simp [LogsIn] at hlogin
    have hused := used_of_received hbefore hreceived
    rw [used_snoc] at hused
    cases event with
    | message fd now data => exact hused
    | connection fd => simp [deliver, sentBy] at hmessage
    | disconnection fd => simp [deliver, sentBy] at hmessage

/-- The packets of an open connection are the frames of what was received of it, and its buffer is
the rest. -/
theorem exists_follows (hd : Descriptors others serverFd) (h : Machine.Run others serverFd tr m)
    (hg : g.Idle) (hp : g.run clock fuel (callbacks tr) = .ok p) :
    ∃ happenings g', Follows clock g happenings g' p ∧ InOrder (happenings.map Prod.fst) ∧
      ∀ fd s, m.sockets fd = some s →
        packetsOf fd (happenings.map Prod.fst) = packets.frames (s.written.take s.taken) ∧
          p.gateway.buffer fd = packets.rest (s.written.take s.taken) := by
  have hsound := Machine.Sound.run hd h
  have hstart : Alongside (fun _ => false) [] [] g g :=
    ⟨rfl, .nil, .refl g, fun _ => (packets.frames_none packets_size_nil).symm, fun fd => by
      rw [ClientGateway.buffer, hg.session]
      exact (packets.rest_none packets_size_nil).symm⟩
  obtain ⟨happenings, g', _, hfollows, halong⟩ :=
    run_alongside hstart hsound.streaming.delivered hp
  refine ⟨happenings, g', hfollows, halong.order, fun fd s hs => ?_⟩
  obtain ⟨-, hreceived⟩ := hsound.streaming.received fd s hs
  rw [← hreceived]
  exact ⟨halong.handed fd, halong.buffer fd⟩

/-- **Each peer is heard**: the packets that are processed for an open connection, what the gateway
has buffered for it and what is still to be received are the stream that its peer has written. -/
theorem packets_of_peers (hd : Descriptors others serverFd) (h : Machine.Run others serverFd tr m)
    (hg : g.Idle) (hp : g.run clock fuel (callbacks tr) = .ok p) :
    ∃ happenings g', Follows clock g happenings g' p ∧ InOrder (happenings.map Prod.fst) ∧
      ∀ fd s, m.sockets fd = some s →
        (packetsOf fd (happenings.map Prod.fst)).flatten ++ p.gateway.buffer fd ++ s.unread =
            s.written ∧
          ∀ packet ∈ packetsOf fd (happenings.map Prod.fst),
            packets.size packet = some packet.length := by
  obtain ⟨happenings, g', hfollows, horder, hpackets⟩ := exists_follows hd h hg hp
  refine ⟨happenings, g', hfollows, horder, fun fd s hs => ?_⟩
  obtain ⟨hframes, hbuffer⟩ := hpackets fd s hs
  rw [hframes, hbuffer, packets.flatten_frames, Socket.unread, List.take_append_drop]
  exact ⟨rfl, fun packet hpacket => packets.size_frame hpacket⟩

/-! ### Two clients -/

/-- The standard streams and the server's socket. -/
def standard : Finset Int := {0, 1, 2, 3}

theorem descriptors_standard : Descriptors standard 3 := ⟨by decide, by decide⟩

/-- What the system calls return in a pass. -/
def answering (ready : List Int) (accept : Option Int) (recv : List (Int × Received)) :
    Answers where
  select := some ready
  accept := accept
  recv fd := (recv.lookup fd).getD .wouldBlock
  now _ _ _ := 0

/-- What is done. -/
def played (inputs : List Input) : List (Input × List Act) × Machine :=
  (Trace.exec (Machine.play standard 3) inputs {}).getD ([], {})

theorem run_played (inputs : List Input)
    (h : (Trace.exec (Machine.play standard 3) inputs {}).isSome = true) :
    Machine.Run standard 3 (played inputs).1 (played inputs).2 := by
  obtain ⟨x, hx⟩ := Option.isSome_iff_exists.mp h
  rw [played, hx]
  exact .of_exec descriptors_standard hx

/-- A log-in that is only a header. -/
def bareLogin : List UInt8 := [0, 0, 76, 5, 0]

/-- Two peers connect. The first one sends its log-in in two pieces, and the second one sends its
own meanwhile. -/
def twoLogins : List Input :=
  [.dial, .pass (answering [3] (some 4) []), .write (.accepted 4) (bareLogin.take 3), .dial,
    .pass (answering [3, 4] (some 5) [(4, .bytes (bareLogin.take 3))]),
    .write (.accepted 5) bareLogin, .write (.accepted 4) (bareLogin.drop 3)]

/-- Both are served. -/
def servesBoth : Answers :=
  answering [5, 4] none [(4, .bytes (bareLogin.drop 3)), (5, .bytes bareLogin)]

/-- The second one leaves then. -/
def oneLeaves : List Input :=
  twoLogins ++
    [.pass servesBoth, .leave (.accepted 5), .pass (answering [5] none [(5, .endOfStream)])]

/-- The end of client 5 is announced when it is closed, and client 4 stays. -/
theorem server_announces_oneLeaves :
    Delivered (fun _ => false) (callbacks (played oneLeaves).1) ∧
      (played oneLeaves).2.clients = [4] ∧
      (5 ∈ (played oneLeaves).2.clients ↔ used (callbacks (played oneLeaves).1) 5 = true) ∧
      ∀ x ∈ (played oneLeaves).1, closes x.2 = announcedEnds x.2 := by
  obtain ⟨hdelivered, -, -, hused, hcloses⟩ :=
    server_announces descriptors_standard (run_played oneLeaves rfl)
  exact ⟨hdelivered, rfl, hused 5, hcloses⟩

/-- Client 5 is heard in the pass that also serves client 4, even if it is the last that is. -/
theorem pass_serves_each_twoLogins : ∃ data now, data ≠ [] ∧ data <+: bareLogin ∧
    .callback (.message 5 now data) ∈ carriedOut (fun event => event.fd ≠ 5)
      (pass servesBoth 3 (played twoLogins).2.clients).acts := by
  have hrun := run_played twoLogins rfl
  have hkernel : (played twoLogins).2.Possible standard 3 servesBoth :=
    Machine.Allows.possible (by decide) (Machine.Sound.run descriptors_standard hrun)
  have hfd : (played twoLogins).2.clients = [4] ++ 5 :: [] := rfl
  obtain ⟨-, -, hheard⟩ := pass_serves_each descriptors_standard hrun rfl hkernel hfd
    fun event _ hevent => decide_eq_true (mt List.mem_singleton.mpr hevent)
  exact hheard { written := bareLogin } rfl List.mem_cons_self (List.cons_ne_nil _ _) rfl

/-- The newcomer gets the first descriptor that has no bit. -/
def acceptsLast : Answers := answering [3] (some 1024) []

/-- With 1024 descriptors open the next client ends the server. -/
theorem server_dies_full : ∃ acts m', Machine.Step setBits 3 { backlog := [{}] }
    (.pass acceptsLast) acts m' ∧ m'.fault ≠ none := by
  have hd : Descriptors setBits 3 := ⟨mem_setBits.mpr (by decide), fun _ => mem_setBits.mp⟩
  have hrun : Machine.Run setBits 3 [(.dial, [])] { backlog := [{}] } := .snoc .nil .dial
  have hkernel : Machine.Possible setBits 3 { backlog := [{}] } acceptsLast := by
    refine ⟨fun ready hready fd hfd => ?_, fun newClient hnew => ?_, by simp⟩
    · obtain rfl := Option.some.inj hready
      exact .inl (List.mem_singleton.mp hfd)
    · obtain rfl := Option.some.inj hnew
      refine ⟨List.cons_ne_nil _ _, by decide, ?_, fun fd hpos hlt => ?_⟩
      · simp [Machine.IsOpen, mem_setBits, fdSetsize]
      · exact .inl (mem_setBits.mpr ⟨hpos, hlt⟩)
  have hfull : setBits.card + ({ backlog := [{}] } : Machine).clients.length = 1024 := by
    rw [card_setBits, List.length_nil]
  refine ⟨_, _, .pass rfl hkernel, ?_⟩
  exact ((server_dies_iff hd hrun rfl).2 _ _ (.pass rfl hkernel)).mpr
    ⟨hfull, [3], 1024, rfl, List.mem_cons_self, rfl⟩

/-- What comes of some of the callbacks. -/
def heard (events : List Event) : Progress :=
  (started.run (fun _ => 0) 10 events).toOption.getD ⟨started, [], []⟩

theorem heard_oneLeaves : started.run (fun _ => 0) 10 (callbacks (played oneLeaves).1) =
    .ok (heard (callbacks (played oneLeaves).1)) := rfl

/-- Client 4 has a session and client 5 has none any more. The answer to the log-in of client 5 went
to a client that was there. -/
theorem sends_to_clients_oneLeaves :
    let events := callbacks (played oneLeaves).1
    (heard events).gateway.HasSession 4 ∧ ¬ (heard events).gateway.HasSession 5 ∧
      events = events.take 4 ++ .message 5 (fun _ _ => 0) bareLogin :: events.drop 5 ∧
      (sentBy ((heard (events.take 4)).gateway.deliver (fun _ => 0) 10
        (.message 5 (fun _ _ => 0) bareLogin))).map (·.fd) = [5] ∧
      used (events.take 4) 5 = true := by
  intro events
  obtain ⟨hsessions, hsends⟩ :=
    sends_to_clients (fun _ => 0) 10 descriptors_standard (run_played oneLeaves rfl) idle_started
  have hclients := (hsessions _ heard_oneLeaves).1
  have hpast : started.run (fun _ => 0) 10 (events.take 4) = .ok (heard (events.take 4)) := rfl
  have hsplit : events =
    events.take 4 ++ .message 5 (fun _ _ => 0) bareLogin :: events.drop 5 := rfl
  have hsent : (sentBy ((heard (events.take 4)).gateway.deliver (fun _ => 0) 10
    (.message 5 (fun _ _ => 0) bareLogin))).map (·.fd) = [5] := rfl
  refine ⟨(hclients 4).mpr List.mem_cons_self, fun hfive => ?_, hsplit, hsent, ?_⟩
  · exact absurd ((hclients 5).mp hfive : (5 : Int) ∈ [4]) (by decide)
  · obtain ⟨message, hmessage, hfd⟩ := List.mem_map.mp (hsent ▸ List.mem_cons_self)
    exact hfd ▸ hsends _ _ _ _ hsplit hpast message hmessage

/-- All that client 4 has written is one packet, and it was processed. -/
theorem packets_of_peers_oneLeaves : ∃ happenings g',
    Follows (fun _ => 0) started happenings g' (heard (callbacks (played oneLeaves).1)) ∧
      (packetsOf 4 (happenings.map Prod.fst)).flatten ++
        (heard (callbacks (played oneLeaves).1)).gateway.buffer 4 = bareLogin := by
  obtain ⟨happenings, g', hfollows, -, hpackets⟩ := packets_of_peers descriptors_standard
    (run_played oneLeaves rfl) idle_started heard_oneLeaves
  refine ⟨happenings, g', hfollows, ?_⟩
  rw [← List.append_nil (_ ++ _)]
  exact (hpackets 4 { written := bareLogin, taken := 5 } rfl).1

end TcpServer

end OrderMatchingEngine
