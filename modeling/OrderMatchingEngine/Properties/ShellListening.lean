import OrderMatchingEngine.Properties.ResponsePath
import OrderMatchingEngine.ShellListener

/-!
# OrderMatchingEngine.Properties.ShellListening

What does the shell show of what the engine sends?

The listener reads a header and then a body of the length that the header says, whatever the calls
of `recv` give. It prints one message after the other, up to the first that `parse_message` does not
unpack: so it prints nothing from the first execution report on, and the shell is disconnected
(`prints_until_report`). A header of which `recv` gives a part only ends the loop, too. Where the
connection ends in the middle of a body, nothing is printed of it, with one exception: 52 of the 60
bytes of a report are unpacked as the report that the shell expects.
-/

namespace OrderMatchingEngine

open ClientGateway (Happening Happens messagesTo)
open FuelLoop (Iter Passes)
open StructFormat (unpack)
open TradingShell

/-! ### Messages and bodies -/

/-- What `parse_message` makes of a message. -/
def SentMessage.printed? (m : SentMessage) : Option Parsed :=
  parseMessage m.1.kind.code.toNat (m.1.payload m.2)

/-- All entries of a ladder are in the data. -/
theorem bookLines_length {data : List UInt8} {count n i offset : Nat}
    {lines : List (UInt64 × Nat)} (h : bookLines data count n i offset = some lines) (hn : 0 < n) :
    offset + 16 * n ≤ data.length := by
  induction n generalizing i offset lines with
  | zero => omega
  | succ n ih =>
      unfold bookLines at h
      split at h
      · rename_i hentry
        have hlen := StructFormat.length_of_unpack hentry
        rw [List.length_take, List.length_drop] at hlen
        have hsize : StructFormat.size [.double, .uint 8] = 16 := rfl
        rw [hsize] at hlen
        obtain ⟨rest, hrest, -⟩ := Option.map_eq_some_iff.mp h
        rcases Nat.eq_zero_or_pos n with rfl | hpos
        · omega
        · have := ih hrest hpos
          omega
      · simp at h

/-- What `parse_message` reads has the length of its format. -/
theorem length_of_parseMessage (data : List UInt8) (p : Parsed) :
    (parseMessage 82 data = some p → data.length = 51) ∧
      (parseMessage 84 data = some p → data.length = 35) ∧
      (parseMessage 69 data = some p → data.length = 52 ∧ ∃ e, p = .execution e) ∧
      (parseMessage 83 data = some p → 178 ≤ data.length) := by
  refine ⟨fun h => ?_, fun h => ?_, fun h => ?_, fun h => ?_⟩
  · rw [parseMessage, if_pos rfl] at h
    split at h
    · rename_i hread
      exact StructFormat.length_of_unpack hread
    · simp at h
  · rw [parseMessage, if_neg (by decide), if_pos rfl] at h
    split at h
    · rename_i hread
      exact StructFormat.length_of_unpack hread
    · simp at h
  · rw [parseMessage, if_neg (by decide), if_neg (by decide), if_pos rfl] at h
    split at h
    · rename_i hread
      obtain ⟨sym, -, rfl⟩ := Option.map_eq_some_iff.mp h
      exact ⟨StructFormat.length_of_unpack hread, _, rfl⟩
    · simp at h
  · rw [parseMessage, if_neg (by decide), if_neg (by decide), if_neg (by decide), if_pos rfl] at h
    split at h
    · split at h
      · rename_i hasks
        exact bookLines_length hasks (by decide)
      · simp at h
    · simp at h

/-- How long the bodies of the engine's messages are. -/
theorem length_payload {m : Message} (h : m.Shaped) (junk : Nat → UInt8) :
    (m.payload junk).length = m.header.msgLen.toNat - 5 := by
  rw [Message.payload, List.length_drop, (h.framed junk).2]

/-- **What is read of a body that is cut**: nothing, unless it is a report of which 52 bytes have
come. -/
theorem parseMessage_cut {m : Message} (h : m.Shaped) {junk : Nat → UInt8} {data : List UInt8}
    (hdata : data.length < (m.payload junk).length) {p : Parsed}
    (hp : parseMessage m.kind.code.toNat data = some p) :
    ∃ report e, m = .executionReport report ∧ data.length = 52 ∧ p = .execution e := by
  rw [length_payload h] at hdata
  obtain ⟨hlogin, hticker, hreport, hsnapshot⟩ := length_of_parseMessage data p
  cases m with
  | loginResponse resp =>
      rw [show (Message.loginResponse resp).header = _ from h.1, hlogin hp] at hdata
      exact absurd hdata (by decide)
  | executionReport report =>
      obtain ⟨hlen, e, rfl⟩ := hreport hp
      exact ⟨report, e, rfl, hlen, rfl⟩
  | marketDataSnapshot snapshot =>
      rw [show (Message.marketDataSnapshot snapshot).header = _ from h.1] at hdata
      exact absurd (Nat.lt_of_le_of_lt (hsnapshot hp) hdata) (by decide)
  | tradeUpdate msg =>
      rw [show (Message.tradeUpdate msg).header = _ from h.1, hticker hp] at hdata
      exact absurd hdata (by decide)

/-- What the listener reads of a header. -/
theorem unpack_headerBytes {m : Message} (h : m.Shaped) : ∃ seq,
    unpack ShellCodec.headerFmt m.header.bytes =
      some [.int seq, .int m.kind.code.toNat, .int m.header.msgLen.toNat] := by
  have hlen : m.header.bytes.length = 5 := m.header.length_bytes
  obtain ⟨seq, hread⟩ := GatewayService.unpack_header hlen.ge
  have htype := headerType_bytes m.header []
  have hmsgLen := headerMsgLen_bytes m.header []
  rw [List.append_nil, (h.framed fun _ => 0).1] at htype
  rw [List.append_nil] at hmsgLen
  rw [List.take_of_length_le hlen.le, htype, hmsgLen] at hread
  exact ⟨seq, hread⟩

/-- A report is not printed. -/
theorem printed?_executionReport {report : ExecutionReport}
    (h : Message.Shaped (.executionReport report)) (junk : Nat → UInt8) :
    SentMessage.printed? (.executionReport report, junk) = none := by
  by_contra hsome
  obtain ⟨p, hp⟩ := Option.ne_none_iff_exists'.mp hsome
  have hlen := ((length_of_parseMessage _ _).2.2.1 hp).1
  rw [length_payload h, show (Message.executionReport report).header = _ from h.1] at hlen
  exact absurd hlen (by decide)

/-! ### The loop -/

/-- What the listener has printed of the messages, when it begins a pass. -/
inductive Printing (sent : List SentMessage) (stream : List UInt8) (l : TradingShell.Listener) :
    Prop
  /-- The messages of the stream so far. -/
  | front (front rest : List SentMessage) (hsent : sent = front ++ rest)
    (hstream : stream = (front.map fun m => m.1.bytes m.2).flatten ++ l.sock.coming)
    (hprinted : front.map SentMessage.printed? = l.printed.map some)
  /-- These, and 52 bytes of the payload of a report, at the end of the stream. -/
  | torn (front rest : List SentMessage) (report : ExecutionReport) (junk : Nat → UInt8)
    (e : TradingShell.Execution) (hsent : sent = front ++ (.executionReport report, junk) :: rest)
    (hstream : stream = (front.map fun m => m.1.bytes m.2).flatten ++ (report.bytes junk).take 57)
    (hend : l.sock.coming = [])
    (hprinted : front.map SentMessage.printed? ++ [some (.execution e)] = l.printed.map some)

section Loop

variable {running : Nat → Bool} {gives : Nat → Option Nat} {sent : List SentMessage}
  {stream : List UInt8} {l l' : TradingShell.Listener}

/-- A pass on a header and a body that were read. -/
theorem listenBody_read {header payload : List UInt8} {sock sock' : Source UInt8}
    {seq mtypeInt mlen : Nat} (hrunning : running l.passes = true)
    (hheader : l.sock.read gives 5 = some (header, sock)) (hsome : header ≠ [])
    (hread : unpack ShellCodec.headerFmt header =
      some [.int seq, .int mtypeInt, .int mlen])
    (hpayload : sock.fill gives (mlen - 5) = .ok (payload, sock')) :
    (∀ parsed, parseMessage mtypeInt payload = some parsed →
      listenBody running gives l = .ok (.next
        { sock := sock', passes := l.passes + 1, printed := l.printed ++ [parsed] })) ∧
    (parseMessage mtypeInt payload = none → listenBody running gives l = .ok (.done l)) := by
  have hnonempty : header.isEmpty = false := List.isEmpty_eq_false_iff.mpr hsome
  refine ⟨fun parsed hparsed => ?_, fun hparsed => ?_⟩
  · simp only [listenBody, hrunning, if_true, hheader, hnonempty, Bool.false_eq_true, if_false,
      hread, hpayload, hparsed]
  · simp only [listenBody, hrunning, if_true, hheader, hnonempty, Bool.false_eq_true, if_false,
      hread, hpayload, hparsed]

/-- **A pass** ends the loop, or reads a header and a body and goes on. -/
theorem listenBody_cases (running : Nat → Bool) (gives : Nat → Option Nat)
    (l : TradingShell.Listener) :
    listenBody running gives l = .ok (.done l) ∨
    ∃ header sock seq mtypeInt mlen payload sock' parsed,
      l.sock.read gives 5 = some (header, sock) ∧ header ≠ [] ∧
      unpack ShellCodec.headerFmt header = some [.int seq, .int mtypeInt, .int mlen] ∧
      sock.fill gives (mlen - 5) = .ok (payload, sock') ∧
      parseMessage mtypeInt payload = some parsed ∧
      listenBody running gives l = .ok (.next
        { sock := sock', passes := l.passes + 1, printed := l.printed ++ [parsed] }) := by
  by_cases hrunning : running l.passes = true
  swap
  · exact .inl (by rw [listenBody, if_neg hrunning])
  rcases hheader : l.sock.read gives 5 with _ | ⟨header, sock⟩
  · exact .inl (by rw [listenBody, if_pos hrunning, hheader])
  by_cases hsome : header = []
  · exact .inl (by rw [listenBody, if_pos hrunning, hheader]; simp [hsome])
  by_cases hlen : header.length = 5
  swap
  · refine .inl ?_
    rw [listenBody, if_pos hrunning, hheader]
    dsimp only
    rw [if_neg (by simpa using hsome)]
    split
    · rename_i hread
      exact absurd (StructFormat.length_of_unpack hread) hlen
    · rfl
  obtain ⟨seq, hread⟩ := GatewayService.unpack_header hlen.ge
  rw [List.take_of_length_le hlen.le] at hread
  rcases sock.fill_spec gives (headerMsgLen header - 5) with hraised | ⟨payload, sock', hpayload, -⟩
  · refine .inl ?_
    rw [listenBody, if_pos hrunning, hheader]
    dsimp only
    rw [if_neg (by simpa using hsome), show unpack ShellCodec.headerFmt header = _ from hread]
    dsimp only
    rw [hraised]
  · obtain ⟨hnext, hdone⟩ := listenBody_read hrunning hheader hsome hread hpayload
    rcases hparsed : parseMessage (headerType header).toNat payload with _ | parsed
    · exact .inl (hdone hparsed)
    · exact .inr ⟨header, sock, _, _, _, payload, sock', parsed, rfl, hsome, hread, hpayload,
        hparsed, hnext parsed hparsed⟩

/-- A body was read behind the header of the next message, and something was made of it. -/
theorem Printing.read {front rest : List SentMessage} {m : SentMessage} {payload cut : List UInt8}
    {sock : Source UInt8} {passes : Nat} {printed : List Parsed} {parsed : Parsed}
    (hm : m.1.Shaped) (hsent : sent = front ++ m :: rest)
    (hstream : stream = (front.map fun m => m.1.bytes m.2).flatten ++
      (m.1.header.bytes ++ (payload ++ sock.coming)))
    (hprinted : front.map SentMessage.printed? = printed.map some)
    (hbytes : payload ++ (sock.coming ++ cut) =
      m.1.payload m.2 ++ (rest.map fun m => m.1.bytes m.2).flatten)
    (hle : payload.length ≤ (m.1.payload m.2).length)
    (hend : payload.length < (m.1.payload m.2).length → sock.coming = [])
    (hparsed : parseMessage m.1.kind.code.toNat payload = some parsed) :
    Printing sent stream { sock := sock, passes := passes, printed := printed ++ [parsed] } := by
  rcases hle.lt_or_eq with hshort | hwhole
  · obtain ⟨report, e, hreport, hlen52, rfl⟩ := parseMessage_cut hm hshort hparsed
    obtain ⟨behind, hbehind⟩ : payload <+: m.1.payload m.2 :=
      List.prefix_of_prefix_length_le ⟨_, hbytes⟩ (List.prefix_append _ _) hle
    refine .torn front rest report m.2 e (by rw [hsent, ← hreport]) ?_ (hend hshort) ?_
    · have hsplit : report.bytes m.2 = (m.1.header.bytes ++ payload) ++ behind := by
        rw [List.append_assoc, hbehind, ← m.1.bytes_eq, hreport]
        rfl
      have hlen57 : (m.1.header.bytes ++ payload).length = 57 := by
        rw [List.length_append, m.1.header.length_bytes, hlen52]
      rw [hstream, hend hshort, List.append_nil, hsplit, List.take_left' hlen57]
    · rw [hprinted, List.map_append]
      rfl
  · obtain ⟨rfl, -⟩ := List.append_inj hbytes hwhole
    refine .front (front ++ [m]) rest (by simp [hsent]) ?_ ?_
    · rw [hstream, List.map_append, List.flatten_append, List.append_assoc, List.map_singleton,
        List.flatten_singleton, m.1.bytes_eq, List.append_assoc]
    · rw [List.map_append, hprinted, List.map_append]
      exact congrArg (_ ++ [·]) hparsed

/-- **One pass** ends the loop, or prints one more message. -/
theorem Printing.step (hshaped : ∀ m ∈ sent, m.1.Shaped)
    (hfront : stream <+: (sent.map fun m => m.1.bytes m.2).flatten)
    (h : Printing sent stream l) :
    listenBody running gives l = .ok (.done l) ∨ ∃ l', listenBody running gives l = .ok (.next l') ∧
      Printing sent stream l' ∧ l'.sock.coming.length < l.sock.coming.length := by
  rcases listenBody_cases running gives l with hdone |
    ⟨header, sock, seq, mtypeInt, mlen, payload, sock', parsed, hheader, hsome, hread, hpayload,
      hparsed, hnext⟩
  · exact .inl hdone
  obtain ⟨hcoming, -, -⟩ := Source.read_spec hheader
  obtain ⟨hbody, hle, hend⟩ : payload ++ sock'.coming = sock.coming ∧ payload.length ≤ mlen - 5 ∧
      (payload.length < mlen - 5 → sock'.coming = []) := by
    rcases sock.fill_spec gives (mlen - 5) with hraised | ⟨got, s, hfill, hgot⟩
    · simp [hpayload] at hraised
    · obtain ⟨rfl, rfl⟩ := Prod.mk.inj (Except.ok.inj (hpayload.symm.trans hfill))
      exact hgot
  rw [← hbody] at hcoming
  refine .inr ⟨_, hnext, ?_, ?_⟩
  · cases h with
    | torn front rest report junk e hsent hstream hnone hprinted =>
        rw [hnone] at hcoming
        exact absurd (List.append_eq_nil_iff.mp hcoming).1 hsome
    | front front rest hsent hstream hprinted =>
        obtain ⟨cut, hcut⟩ := hfront
        rw [hstream, hsent, List.map_append, List.flatten_append, List.append_assoc,
          List.append_cancel_left_eq, ← hcoming] at hcut
        cases rest with
        | nil => simp [hsome] at hcut
        | cons m rest =>
            have hm : m.1.Shaped := hshaped m (by rw [hsent]; simp)
            have hlen := StructFormat.length_of_unpack hread
            rw [List.map_cons, List.flatten_cons, m.1.bytes_eq, List.append_assoc,
              List.append_assoc, List.append_assoc] at hcut
            obtain ⟨rfl, hbytes⟩ := List.append_inj hcut (hlen.trans m.1.header.length_bytes.symm)
            obtain ⟨seq', hread'⟩ := unpack_headerBytes hm
            obtain ⟨-, rfl, rfl⟩ : seq = seq' ∧ mtypeInt = m.1.kind.code.toNat ∧
                mlen = m.1.header.msgLen.toNat := by
              simpa using hread.symm.trans hread'
            rw [← length_payload hm m.2] at hle hend
            rw [← hcoming] at hstream
            exact .read hm hsent hstream hprinted hbytes hle hend hparsed
  · have hpos := List.length_pos_iff.mpr hsome
    show sock'.coming.length < l.sock.coming.length
    rw [← hcoming, List.length_append, List.length_append]
    omega

/-- Where a pass reads a header, `recv` gives all of it. -/
def HeadersWhole (running : Nat → Bool) (gives : Nat → Option Nat) (stream : List UInt8) : Prop :=
  ∀ l most, Passes (listenBody running gives) { sock := { coming := stream } } l →
    l.sock.coming ≠ [] → gives l.sock.reads = some most → 5 ≤ most

/-- A message that is there as a whole and can be unpacked is printed, if its header is not cut. -/
theorem listenBody_next {m : SentMessage} {p : Parsed} {more : List UInt8} (hm : m.1.Shaped)
    (hrunning : running l.passes = true) (hnever : ∀ k, (gives k).isSome = true)
    (hgives : ∀ most, gives l.sock.reads = some most → 5 ≤ most)
    (hcoming : l.sock.coming = m.1.bytes m.2 ++ more) (hp : m.printed? = some p) :
    ∃ l', listenBody running gives l = .ok (.next l') := by
  obtain ⟨most, hmost⟩ := Option.isSome_iff_exists.mp (hnever l.sock.reads)
  have hle := hgives most hmost
  rw [m.1.bytes_eq, List.append_assoc] at hcoming
  have hheader := Source.read_whole hmost hle (by decide)
  rw [hcoming, List.take_left' m.1.header.length_bytes,
    List.drop_left' m.1.header.length_bytes] at hheader
  obtain ⟨seq, hread⟩ := unpack_headerBytes hm
  have hsome : m.1.header.bytes ≠ [] :=
    List.ne_nil_of_length_pos (by rw [m.1.header.length_bytes]; decide)
  rcases Source.fill_spec gives (m.1.header.msgLen.toNat - 5) ⟨m.1.payload m.2 ++ more, _⟩ with
    hraised | ⟨payload, sock', hpayload, hbody, hlen, hend⟩
  · exact absurd hraised (Source.fill_ne_raised hnever _ _)
  rw [← length_payload hm m.2] at hlen hend
  obtain rfl : payload = m.1.payload m.2 := by
    rcases hlen.lt_or_eq with hshort | hwhole
    · rw [hend hshort, List.append_nil] at hbody
      rw [hbody, List.length_append] at hshort
      omega
    · exact (List.append_inj hbody hwhole).1
  exact ⟨_, (listenBody_read hrunning hheader hsome hread hpayload).1 p hp⟩

/-- At the end of the messages, or in front of one that cannot be unpacked, those so far have been
printed. -/
theorem Printing.whole (h : Printing sent stream l) (hshaped : ∀ m ∈ sent, m.1.Shaped)
    (hall : stream = (sent.map fun m => m.1.bytes m.2).flatten)
    (hstuck : ∀ (m : SentMessage) (more : List UInt8), m.1.Shaped →
      l.sock.coming = m.1.bytes m.2 ++ more → m.printed? = none) :
    l.printed.map some = (sent.map SentMessage.printed?).takeWhile Option.isSome := by
  cases h with
  | torn front rest report junk e hsent hstream hend hprinted =>
      have hreport := hshaped (.executionReport report, junk) (by simp [hsent])
      have hsize : (report.bytes junk).length = 65 := by
        have hlen := (hreport.framed junk).2
        rw [show (Message.executionReport report).header = _ from hreport.1] at hlen
        exact hlen.symm
      rw [hall, hsent, List.map_append, List.flatten_append, List.append_cancel_left_eq,
        List.map_cons, List.flatten_cons] at hstream
      have hlen := congrArg List.length hstream
      rw [List.length_append, List.length_take, Message.bytes, hsize] at hlen
      omega
  | front front rest hsent hstream hprinted =>
      rw [hall, hsent, List.map_append, List.flatten_append, List.append_cancel_left_eq] at hstream
      have hsome : ∀ p ∈ l.printed.map some, p.isSome = true := fun p hp => by
        obtain ⟨p, -, rfl⟩ := List.mem_map.mp hp
        rfl
      rw [hsent, List.map_append, hprinted, List.takeWhile_append_of_pos hsome]
      cases rest with
      | nil => simp
      | cons m rest =>
          have hm := hshaped m (by simp [hsent])
          rw [List.map_cons, hstuck m _ hm hstream.symm]
          simp

/-- **The shell prints what the engine sends up to the first execution report**, whatever the calls
of `recv` give: of the messages that get to it, it has printed a front when the loop ends, and 52
bytes of a report if the connection ends there. If nobody stops it, `recv` never raises or gives
a part of a header only, and the messages get to it as a whole, it has printed all up to the first
that is not unpacked. No report is. -/
theorem prints_until_report (running : Nat → Bool) (gives : Nat → Option Nat)
    {clock : Nat → Timestamp} {fd : Int} {g₀ g : ClientGateway}
    {engine : List (Happening × Reporting)} (hrun : Trace.Run (Happens clock) g₀ engine g)
    (hsent : (sent.map Prod.fst).Sublist (messagesTo fd (engine.flatMap (·.2.sent))))
    (hfront : stream <+: (sent.map fun m => m.1.bytes m.2).flatten) :
    (∃ l, listenLoop running gives stream = .ok l ∧ Printing sent stream l ∧
      ((∀ k, running k = true) → (∀ k, (gives k).isSome = true) →
        HeadersWhole running gives stream →
        stream = (sent.map fun m => m.1.bytes m.2).flatten →
        l.printed.map some = (sent.map SentMessage.printed?).takeWhile Option.isSome)) ∧
    ∀ m ∈ sent, ∀ report, m.1 = .executionReport report → m.printed? = none := by
  have hshaped : ∀ m ∈ sent, m.1.Shaped := fun m hm =>
    shaped_of_run hrun (hsent.subset (List.mem_map_of_mem hm))
  refine ⟨?_, fun m hm report hreport => ?_⟩
  swap
  · obtain ⟨message, junk⟩ := m
    obtain rfl : message = .executionReport report := hreport
    exact printed?_executionReport (hshaped _ hm) junk
  have hstart : Printing sent stream { sock := { coming := stream } } := .front [] sent rfl rfl rfl
  obtain ⟨l, hl, ⟨hprinting, hpasses⟩, hdone⟩ : ∃ l, listenLoop running gives stream = .ok l ∧
      (Printing sent stream l ∧
        Passes (listenBody running gives) { sock := { coming := stream } } l) ∧
      listenBody running gives l = .ok (.done l) := by
    refine FuelLoop.run_total (fun l => Printing sent stream l ∧
      Passes (listenBody running gives) { sock := { coming := stream } } l) _
      (·.sock.coming.length) (fun l ⟨hprinting, hpasses⟩ => ?_) ⟨hstart, .start⟩
      (Nat.lt_succ_self _)
    rcases hprinting.step hshaped hfront with hdone | ⟨l', hnext, hprinting', hlt⟩
    · exact .inl ⟨l, hdone, ⟨hprinting, hpasses⟩, hdone⟩
    · exact .inr ⟨l', hnext, ⟨hprinting', hpasses.next hnext⟩, hlt⟩
  refine ⟨l, hl, hprinting, fun hrunning hnever hheaders hall => ?_⟩
  refine hprinting.whole hshaped hall fun m more hm hcoming => ?_
  by_contra hsome
  obtain ⟨p, hp⟩ := Option.ne_none_iff_exists'.mp hsome
  have hsome : l.sock.coming ≠ [] := by
    rw [hcoming, m.1.bytes_eq, List.append_assoc]
    exact List.append_ne_nil_of_left_ne_nil
      (List.ne_nil_of_length_pos (by rw [m.1.header.length_bytes]; decide)) _
  obtain ⟨l', hl'⟩ := listenBody_next hm (hrunning _) hnever
    (fun most hmost => hheaders l most hpasses hsome hmost) hcoming hp
  simp [hdone] at hl'

end Loop

/-- Of the sales, the answer to the log-in and the first book are printed, although `recv` gives the
bodies in pieces. The report disconnects the shell. -/
theorem prints_until_report_sale : ∃ l : TradingShell.Listener,
    listenLoop (fun _ => true) (fun _ => some 10) saleStream = .ok l ∧
      l.printed.map some = (saleSent.map SentMessage.printed?).take 2 := by
  obtain ⟨g, hrun⟩ := sale_run
  have hsent : (saleSent.map Prod.fst).Sublist (messagesTo 4 (sale.1.flatMap (·.2.sent))) := by
    rw [sale_messages]
  obtain ⟨⟨l, hl, -, hwhole⟩, -⟩ :=
    prints_until_report (fun _ => true) (fun _ => some 10) hrun hsent List.prefix_rfl
  have hheaders : HeadersWhole (fun _ => true) (fun _ => some 10) saleStream := by
    rintro l most - - hmost
    obtain rfl := Option.some.inj hmost
    decide
  refine ⟨l, hl, (hwhole (fun _ => rfl) (fun _ => rfl) hheaders rfl).trans ?_⟩
  decide

end OrderMatchingEngine
