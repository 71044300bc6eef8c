import OrderMatchingEngine.Library.Delivery
import OrderMatchingEngine.Refinement.Broadcasts

/-!
# OrderMatchingEngine.Properties.MarketStreams

What the callers of `StreamMarketData` and `RequestMarketDataSnapshot` are shown.

The listener goes through `md_streams` while other threads append to it and remove from it. A call
is shown snapshots of its symbol that were handled since it opened its stream, in their order and
each at most once. It can miss one only in a loop during which a stream that had been given the
snapshot was taken off the list (`Told`).
-/

namespace OrderMatchingEngine

open TradingPb2 (MarketDataSnapshot)

/-- The call has left its loop. -/
def StreamCall.Closing (call : StreamCall) (q : Nat) : Prop :=
  call = .leaving q ∨ call = .removing q ∨ call = .done

namespace GatewayThreads

variable {θ : Type}

/-- The snapshots of the loops that were on or still to come when `n` were over. -/
def Broadcasts.since (b : Broadcasts) (n : Nat) : List MarketDataSnapshot :=
  (b.ended.drop n ++ b.current?.toList).map Broadcast.snapshot

/-- Those of them that are over, where no stream with the snapshot was taken off the list. -/
def Broadcasts.undisturbed (b : Broadcasts) (n : Nat) : List MarketDataSnapshot :=
  ((b.ended.drop n).filter Broadcast.undisturbed).map Broadcast.snapshot

/-- The snapshot of the loop that is on, if the queue has it already. -/
def Broadcasts.served (b : Broadcasts) (target? : Option Nat) (q : Nat) :
    List MarketDataSnapshot :=
  match b.current? with
  | some c => if q ∈ c.given ∧ target? ≠ some q then [c.snapshot] else []
  | none => []

/-- The snapshot of the loop that is on, if the queue does not have it yet. -/
def Broadcasts.due (b : Broadcasts) (target? : Option Nat) (q : Nat) : List MarketDataSnapshot :=
  match b.current? with
  | some c => if q ∈ c.given ∧ target? ≠ some q then [] else [c.snapshot]
  | none => []

theorem Broadcasts.served_on {b : Broadcasts} {c : Broadcast} (hc : b.current? = some c)
    (target? : Option Nat) (q : Nat) : b.served target? q =
      if q ∈ c.given ∧ target? ≠ some q then [c.snapshot] else [] := by
  rw [served, hc]

theorem Broadcasts.due_on {b : Broadcasts} {c : Broadcast} (hc : b.current? = some c)
    (target? : Option Nat) (q : Nat) : b.due target? q =
      if q ∈ c.given ∧ target? ≠ some q then [] else [c.snapshot] := by
  rw [due, hc]

/-- What the call `t` with the queue `q` has to do with the loops since `n` of them were over. -/
inductive Told (t : θ) (symbol : String) (once : Bool) (q n : Nat)
    (seen : List MarketDataSnapshot) (b : Broadcasts) (s : GatewayThreads θ) : Prop
  | inLoop (hcall : s.calls t = .watching symbol once q)
      (h : Delivery (fun snapshot => snapshot.symbol = symbol)
        (b.undisturbed n ++ b.served s.listener.target? q) seen (s.snapshots q)
        (b.due s.listener.target? q) (b.since n))
  | closing (hcall : (s.calls t).Closing q)
      (h : seen.Sublist ((b.since n).filter fun snapshot => snapshot.symbol = symbol))

/-- The snapshot that a step begins to hand out. -/
def Action.announced : Action θ → List MarketDataSnapshot
  | .handleSnapshot snapshot => [snapshot]
  | _ => []

section Steps

variable [DecidableEq θ] {t : θ} {symbol : String} {once : Bool} {q n : Nat}
  {seen : List MarketDataSnapshot} {b : Broadcasts} {s s' : GatewayThreads θ} {a : Action θ}
  {o : Output θ}

theorem since_after (h : Streams b s) (hs : s.Move a o s') (hn : n ≤ b.ended.length) :
    (b.after (a, o)).since n = b.since n ++ a.announced := by
  cases hs with
  | handleSnapshot snapshot hl =>
      have hoff := h.off (by rw [hl]; rfl)
      simp [Broadcasts.since, Broadcasts.after, Action.announced, hoff]
  | stop hl hend =>
      simp [Broadcasts.since, Broadcasts.after, Action.announced, List.drop_append_of_le_length hn]
  | next hl hq =>
      cases hc : b.current? <;>
        simp [Broadcasts.since, Broadcasts.after, Action.announced, hc, Broadcast.give]
  | removeStream hcall hq =>
      cases hc : b.current? <;>
        simp [Broadcasts.since, Broadcasts.after, Action.announced, hc, Broadcast.leave]
  | _ => exact (List.append_nil _).symm

theorem ended_after (hs : s.Move a o s') : b.ended.length ≤ (b.after (a, o)).ended.length := by
  cases hs with
  | stop hl hend => simp [Broadcasts.after]
  | _ => exact Nat.le_refl _

/-- A call that has left its loop shows nothing more. -/
theorem closing_step (hcall : (s.calls t).Closing q) (hs : s.Move a o s') :
    (s'.calls t).Closing q ∧ o.shown t = [] := by
  by_cases ht : a.call? = some t
  · cases hs with
    | foundStream h hq =>
        obtain rfl := Option.some.inj ht
        rw [h] at hcall
        obtain rfl : _ = q := by simpa [StreamCall.Closing] using hcall
        exact ⟨.inr (.inl (Function.update_self ..)), rfl⟩
    | foundNoStream h hq =>
        obtain rfl := Option.some.inj ht
        exact ⟨.inr (.inr (Function.update_self ..)), rfl⟩
    | removeStream h hq =>
        obtain rfl := Option.some.inj ht
        exact ⟨.inr (.inr (Function.update_self ..)), rfl⟩
    | handleSnapshot _ _ | next _ _ | stop _ _ | putSnapshot _ | handleExecution _ _
    | foundQueue _ _ | foundNoQueue _ _ | createQueue _ | lookUp _ _ | putReport _ =>
        simp [Action.call?] at ht
    | openStream _ _ h | showSnapshot h _ _ | skipSnapshot h _ _ | noSnapshot h _ | hangUp h
    | endExecutions h | streamExecutions _ h | foundUser h _ | foundNoUser h _ | createUser h
    | lookUser h _ | getReport h _ | noReport h _ =>
        obtain rfl := Option.some.inj ht
        simp [StreamCall.Closing, h] at hcall
  · obtain ⟨hsame, hshown, -⟩ := hs.frame ht
    exact ⟨hsame ▸ hcall, hshown⟩

/-- A step of the call itself. -/
theorem Told.own (hcall : s.calls t = .watching symbol once q)
    (h : Delivery (fun snapshot => snapshot.symbol = symbol)
      (b.undisturbed n ++ b.served s.listener.target? q) seen (s.snapshots q)
      (b.due s.listener.target? q) (b.since n))
    (hs : s.Move a o s') (ht : a.call? = some t) :
    Told t symbol once q n (seen ++ o.shown t) (b.after (a, o)) s' := by
  cases hs with
  | @showSnapshot t' symbol' once' q' x rest hcall' hq hsymbol =>
      obtain rfl : t' = t := Option.some.inj ht
      obtain ⟨rfl, rfl, rfl⟩ := StreamCall.watching.inj (hcall'.symm.trans hcall)
      rw [hq] at h
      have hshown : (Output.snapshot t' x).shown t' = [x] := if_pos rfl
      rw [hshown]
      have hnext := h.shown (by simpa using hsymbol)
      cases once' with
      | true => exact .closing (.inl (Function.update_self ..)) hnext.seen_sublist
      | false =>
          refine .inLoop hcall ?_
          show Delivery _ _ _ (Function.update s.snapshots q' rest q') _ _
          rw [Function.update_self]
          exact hnext
  | @skipSnapshot t' symbol' once' q' x rest hcall' hq hsymbol =>
      obtain rfl : t' = t := Option.some.inj ht
      obtain ⟨rfl, rfl, rfl⟩ := StreamCall.watching.inj (hcall'.symm.trans hcall)
      rw [hq] at h
      refine .inLoop hcall ?_
      show Delivery _ _ (seen ++ []) (Function.update s.snapshots q' rest q') _ _
      rw [Function.update_self, List.append_nil]
      exact h.skip (by simpa using hsymbol)
  | @noSnapshot t' symbol' once' q' hcall' hq =>
      obtain rfl : t' = t := Option.some.inj ht
      obtain ⟨rfl, rfl, rfl⟩ := StreamCall.watching.inj (hcall'.symm.trans hcall)
      rw [show (Output.silent : Output θ).shown t' = [] from rfl, List.append_nil]
      cases once' with
      | true => exact .closing (.inl (Function.update_self ..)) h.seen_sublist
      | false => exact .inLoop hcall h
  | @hangUp t' symbol' once' q' hcall' =>
      obtain rfl : t' = t := Option.some.inj ht
      obtain ⟨rfl, rfl, rfl⟩ := StreamCall.watching.inj (hcall'.symm.trans hcall)
      rw [show (Output.silent : Output θ).shown t' = [] from rfl, List.append_nil]
      exact .closing (.inl (Function.update_self ..)) h.seen_sublist
  | handleSnapshot _ _ | next _ _ | stop _ _ | putSnapshot _ | handleExecution _ _
  | foundQueue _ _ | foundNoQueue _ _ | createQueue _ | lookUp _ _ | putReport _ =>
      simp [Action.call?] at ht
  | openStream _ _ h | endExecutions h | foundStream h _ | foundNoStream h _ | removeStream h _
  | streamExecutions _ h | foundUser h _ | foundNoUser h _ | createUser h | lookUser h _
  | getReport h _ | noReport h _ =>
      obtain rfl := Option.some.inj ht
      simp [h] at hcall

/-- A step of another thread. -/
theorem Told.other (hb : Streams b s) (hn : n ≤ b.ended.length)
    (hcall : s.calls t = .watching symbol once q)
    (h : Delivery (fun snapshot => snapshot.symbol = symbol)
      (b.undisturbed n ++ b.served s.listener.target? q) seen (s.snapshots q)
      (b.due s.listener.target? q) (b.since n))
    (hs : s.Move a o s') (ht : a.call? ≠ some t) :
    Told t symbol once q n seen (b.after (a, o)) s' := by
  have hcall' : s'.calls t = .watching symbol once q := (hs.frame ht).1.trans hcall
  have hown : (s.calls t).queue? = some q := by rw [hcall]; rfl
  have hmem : q ∈ s.mdStreams := (hb.mem q).mpr ⟨t, hown⟩
  have hqueue : ∀ t' q', (s.calls t').queue? = some q' → some t' ≠ some t → q ≠ q' := by
    rintro t' q' hq' hne rfl
    exact hne (congrArg some (hb.unique t' t q hq' hown))
  refine .inLoop hcall' ?_
  cases hs with
  | handleSnapshot x hl =>
      have hoff : b.current? = none := hb.off (by rw [hl]; rfl)
      have hserved : b.served s.listener.target? q = [] := by simp [Broadcasts.served, hoff]
      have hdue : b.due s.listener.target? q = [] := by simp [Broadcasts.due, hoff]
      rw [hserved, hdue] at h
      rw [since_after hb (.handleSnapshot x hl) hn]
      exact h.announce x
  | @next x index q' hl hq' =>
      obtain ⟨c, hc, hloop⟩ := hb.loop x index (by rw [hl]; rfl)
      have hnew := hloop.roll.notMem hq'
      have hsame : (q ∈ (c.give q').given ∧ some q' ≠ some q) ↔
          (q ∈ c.given ∧ s.listener.target? ≠ some q) := by
        rw [hl]
        by_cases hq : q = q'
        · subst hq
          simp [hnew]
        · simp [Broadcast.give, GatewayListener.target?, hq, Ne.symm hq]
      have hc' : (b.after (θ := θ) (.next, .given q')).current? = some (c.give q') := by
        simp [Broadcasts.after, hc]
      have hserved := (Broadcasts.served_on hc' (some q') q).trans
        ((if_congr hsame rfl rfl).trans (Broadcasts.served_on hc s.listener.target? q).symm)
      have hdue := (Broadcasts.due_on hc' (some q') q).trans
        ((if_congr hsame rfl rfl).trans (Broadcasts.due_on hc s.listener.target? q).symm)
      rw [since_after hb (.next hl hq') hn]
      show Delivery _ (b.undisturbed n ++ Broadcasts.served _ (some q') q) _ _
        (Broadcasts.due _ (some q') q) (b.since n ++ [])
      rw [hserved, hdue, List.append_nil]
      exact h
  | @stop x index hl hend =>
      obtain ⟨c, hc, hloop⟩ := hb.loop x index (by rw [hl]; rfl)
      rw [since_after hb (.stop hl hend) hn]
      rw [hl, Broadcasts.served_on hc, Broadcasts.due_on hc] at h
      have hover : (b.after (θ := θ) (.stop, .silent)).undisturbed n =
          b.undisturbed n ++ if c.undisturbed = true then [c.snapshot] else [] := by
        cases hun : c.undisturbed <;>
          simp [Broadcasts.undisturbed, Broadcasts.after, hc, List.drop_append_of_le_length hn, hun]
      show Delivery _ (_ ++ []) _ _ [] (b.since n ++ [])
      rw [hover, List.append_nil, List.append_nil]
      by_cases hgiven : q ∈ c.given
      · have hon : q ∈ c.given ∧ GatewayListener.target? (.broadcasting x index) ≠ some q :=
          ⟨hgiven, by simp [GatewayListener.target?]⟩
        rw [if_pos hon, if_pos hon] at h
        refine h.mono (List.Sublist.append_left ?_ _)
        split
        · exact List.Sublist.refl _
        · exact List.nil_sublist _
      · have hoff : ¬ (q ∈ c.given ∧ GatewayListener.target? (.broadcasting x index) ≠ some q) :=
          fun hon => hgiven hon.1
        rw [if_neg hoff, if_neg hoff] at h
        have hdisturbed : ¬ c.undisturbed = true := fun hun =>
          hgiven (hloop.roll.complete hend (hloop.undisturbed hun) q hmem)
        rw [if_neg hdisturbed]
        exact h.miss
  | @putSnapshot x index q' hl =>
      obtain ⟨c, hc, hloop⟩ := hb.loop x index (by rw [hl]; rfl)
      have hgiven : q' ∈ c.given := hloop.target q' (by rw [hl]; rfl)
      rw [hl, Broadcasts.served_on hc, Broadcasts.due_on hc] at h
      show Delivery _ (b.undisturbed n ++ b.served none q) _
        (Function.update s.snapshots q' (s.snapshots q' ++ [x]) q) (b.due none q) _
      rw [Broadcasts.served_on hc, Broadcasts.due_on hc]
      by_cases hq : q = q'
      · subst hq
        have hput : ¬ (q ∈ c.given ∧ GatewayListener.target? (.putting x index q) ≠ some q) :=
          fun hon => hon.2 rfl
        rw [if_neg hput, if_neg hput, List.append_nil] at h
        rw [if_pos ⟨hgiven, by simp⟩, if_pos ⟨hgiven, by simp⟩, Function.update_self,
          ← hloop.snapshot]
        exact h.put
      · have hsame : (q ∈ c.given ∧ GatewayListener.target? (.putting x index q') ≠ some q) ↔
            (q ∈ c.given ∧ none ≠ some q) := by
          simp [GatewayListener.target?, Ne.symm hq]
        rw [if_congr hsame rfl rfl, if_congr hsame rfl rfl] at h
        rw [Function.update_of_ne hq]
        exact h
  | handleExecution report hl | foundQueue hl _ | foundNoQueue hl _ | createQueue hl | lookUp hl _
  | putReport hl =>
      rw [hl] at h
      exact h
  | @showSnapshot t' _ _ q' x rest hcall _ _ | @skipSnapshot t' _ _ q' x rest hcall _ _ =>
      have hne := hqueue t' q' (by rw [hcall]; rfl) ht
      show Delivery _ _ _ (Function.update s.snapshots q' rest q) _ _
      rw [Function.update_of_ne hne]
      exact h
  | @removeStream t' q' hcall hq =>
      have hserved : (b.after (Action.removeStream t', .left q')).served s.listener.target? q =
          b.served s.listener.target? q := by
        cases hc : b.current? <;> simp [Broadcasts.served, Broadcasts.after, hc, Broadcast.leave]
      have hdue : (b.after (Action.removeStream t', .left q')).due s.listener.target? q =
          b.due s.listener.target? q := by
        cases hc : b.current? <;> simp [Broadcasts.due, Broadcasts.after, hc, Broadcast.leave]
      rw [since_after hb (.removeStream hcall hq) hn]
      show Delivery _ (b.undisturbed n ++ Broadcasts.served _ s.listener.target? q) _ _
        (Broadcasts.due _ s.listener.target? q) (b.since n ++ [])
      rw [hserved, hdue, List.append_nil]
      exact h
  | _ => exact h

/-- **One step.** -/
theorem Told.step (hb : Streams b s) (hn : n ≤ b.ended.length)
    (h : Told t symbol once q n seen b s) (hs : s.Move a o s') :
    Told t symbol once q n (seen ++ o.shown t) (b.after (a, o)) s' := by
  cases h with
  | inLoop hcall h =>
      by_cases ht : a.call? = some t
      · exact .own hcall h hs ht
      · rw [(hs.frame ht).2.1, List.append_nil]
        exact .other hb hn hcall h hs ht
  | closing hcall h =>
      obtain ⟨hcall', hshown⟩ := closing_step hcall hs
      rw [hshown, List.append_nil]
      refine .closing hcall' ?_
      rw [since_after hb hs hn, List.filter_append]
      exact h.trans (List.sublist_append_left ..)

/-- A call that has just opened its stream. -/
theorem Told.start (hb : Streams b s) :
    Told t symbol once s.created b.ended.length [] b
      { s.goto t (.watching symbol once s.created) with
        mdStreams := s.mdStreams ++ [s.created]
        created := s.created + 1 } := by
  have hserved : b.served s.listener.target? s.created = [] := by
    cases hc : b.current? with
    | none => simp [Broadcasts.served, hc]
    | some c =>
        rw [Broadcasts.served_on hc]
        exact if_neg fun hon => lt_irrefl _ (hb.given_lt hc _ hon.1)
  have hdue : b.due s.listener.target? s.created = b.since b.ended.length := by
    cases hc : b.current? with
    | none => simp [Broadcasts.due, Broadcasts.since, hc]
    | some c =>
        rw [Broadcasts.due_on hc, Broadcasts.since, hc, List.drop_length]
        exact if_neg fun hon => lt_irrefl _ (hb.given_lt hc _ hon.1)
  refine .inLoop (Function.update_self ..) ?_
  show Delivery _ (b.undisturbed b.ended.length ++ b.served s.listener.target? s.created) _
    (s.snapshots s.created) (b.due s.listener.target? s.created) _
  rw [hserved, hdue, hb.fresh _ (Nat.le_refl _), Broadcasts.undisturbed, List.drop_length]
  exact .start _

end Steps

section Run

variable [DecidableEq θ] {t : θ} {symbol : String} {once : Bool}
  {earlier later tr : List (Action θ × Output θ)} {s₀ s₁ s : GatewayThreads θ} {o : Output θ}

/-- The snapshots that a call has shown in a run. -/
def shown (t : θ) (tr : List (Action θ × Output θ)) : List MarketDataSnapshot :=
  tr.flatMap fun x => x.2.shown t

theorem told_of_run (hearlier : Run earlier s₀)
    (hopen : s₀.act (.openStream t symbol once) = some (o, s₁))
    (hlater : Trace.Run (Trace.ofFun act) s₁ later s) :
    Told t symbol once s₀.created (broadcasts earlier).ended.length (shown t later)
      (broadcasts (earlier ++ (.openStream t symbol once, o) :: later)) s := by
  have hstreams := Streams.of_run hearlier
  have hopened : Streams (broadcasts (earlier ++ [(.openStream t symbol once, o)])) s₁ :=
    .of_run (hearlier.snoc hopen)
  suffices hall : Streams (broadcasts (earlier ++ (.openStream t symbol once, o) :: later)) s ∧
      (broadcasts earlier).ended.length ≤
        (broadcasts (earlier ++ (.openStream t symbol once, o) :: later)).ended.length ∧
      Told t symbol once s₀.created (broadcasts earlier).ended.length (shown t later)
        (broadcasts (earlier ++ (.openStream t symbol once, o) :: later)) s from hall.2.2
  refine Trace.Run.invariant (fun later s =>
    Streams (broadcasts (earlier ++ (.openStream t symbol once, o) :: later)) s ∧
      (broadcasts earlier).ended.length ≤
        (broadcasts (earlier ++ (.openStream t symbol once, o) :: later)).ended.length ∧
      Told t symbol once s₀.created (broadcasts earlier).ended.length (shown t later)
        (broadcasts (earlier ++ (.openStream t symbol once, o) :: later)) s) ?_ ?_ hlater
  · rw [broadcasts_snoc] at hopened ⊢
    cases Move.of_act hopen with
    | openStream _ _ hcall => exact ⟨hopened, Nat.le_refl _, .start hstreams⟩
  · rintro later s a o' s' - ⟨hb, hn, htold⟩ hs
    have hmove := Move.of_act hs
    have hsplit : earlier ++ (.openStream t symbol once, o) :: (later ++ [(a, o')]) =
        (earlier ++ (.openStream t symbol once, o) :: later) ++ [(a, o')] := by simp
    rw [hsplit, broadcasts_snoc, shown, List.flatMap_append, List.flatMap_singleton]
    exact ⟨hb.step hmove, hn.trans (ended_after hmove), htold.step hb hn hmove⟩

/-- The snapshots of a symbol. -/
def ofSymbol (symbol : String) (snapshots : List MarketDataSnapshot) : List MarketDataSnapshot :=
  snapshots.filter fun snapshot => snapshot.symbol = symbol

/-- The snapshots of the loops of a run that were not over after the steps `earlier`. -/
def handledSince (earlier tr : List (Action θ × Output θ)) : List MarketDataSnapshot :=
  (broadcasts tr).since (broadcasts earlier).ended.length

/-- Those of loops that are over and took place without a stream that had been given the snapshot
being taken off the list. -/
def undisturbedSince (earlier tr : List (Action θ × Output θ)) : List MarketDataSnapshot :=
  (broadcasts tr).undisturbed (broadcasts earlier).ended.length

/-- The calls are shown snapshots of their symbols, in the order in which they were handled. -/
theorem shown_sublist (hearlier : Run earlier s₀)
    (hopen : s₀.act (.openStream t symbol once) = some (o, s₁))
    (hlater : Trace.Run (Trace.ofFun act) s₁ later s) :
    (shown t later).Sublist (ofSymbol symbol
      (handledSince earlier (earlier ++ (.openStream t symbol once, o) :: later))) := by
  cases told_of_run hearlier hopen hlater with
  | closing hcall h => exact h
  | inLoop hcall h => exact h.seen_sublist

/-- **What a call is shown** are snapshots of its symbol that were handled since it opened its
stream, in that order. Between two loops, what was shown so far and what waits has all of these but
those of loops during which a stream with the snapshot was taken off the list. -/
theorem stream_in_order (hearlier : Run earlier s₀)
    (hopen : s₀.act (.openStream t symbol once) = some (o, s₁))
    (hlater : Trace.Run (Trace.ofFun act) s₁ later s)
    (htr : tr = earlier ++ (.openStream t symbol once, o) :: later) :
    (shown t later).Sublist (ofSymbol symbol (handledSince earlier tr)) ∧
    ∀ q, s.calls t = .watching symbol once q → s.listener.loop? = none →
      (ofSymbol symbol (undisturbedSince earlier tr)).Sublist
        (shown t later ++ ofSymbol symbol (s.snapshots q)) ∧
      (shown t later ++ ofSymbol symbol (s.snapshots q)).Sublist
        (ofSymbol symbol (handledSince earlier tr)) := by
  subst htr
  have hstreams : Streams (broadcasts (earlier ++ (.openStream t symbol once, o) :: later)) s := by
    refine .of_run ?_
    rw [List.append_cons]
    exact (hearlier.snoc hopen).append hlater
  refine ⟨shown_sublist hearlier hopen hlater, fun q hq hl => ?_⟩
  cases told_of_run hearlier hopen hlater with
  | closing hcall h => simp [StreamCall.Closing, hq] at hcall
  | inLoop hcall h =>
      obtain rfl := (StreamCall.watching.inj (hq.symm.trans hcall)).2.2
      have hoff := hstreams.off hl
      rw [Broadcasts.served, Broadcasts.due, hoff] at h
      obtain ⟨hlower, hupper⟩ := h
      rw [List.append_nil] at hlower hupper
      exact ⟨hlower, hupper⟩

/-- **What a loop reaches.** It gives no queue twice. The streams that are there when it ends and
were not given the snapshot are no more than those that were given it and have left. -/
theorem loop_reaches (hrun : Run tr s) (hstop : s.act .stop = some (o, s₁)) :
    ∃ c, (broadcasts (tr ++ [(.stop, o)])).ended = (broadcasts tr).ended ++ [c] ∧
      s.listener = .broadcasting c.snapshot c.given.length ∧ c.given.Nodup ∧
      (s.mdStreams.filter fun q => q ∉ c.given).length ≤
        (c.given.filter fun q => q ∉ s.mdStreams).length ∧
      (c.undisturbed = true → ∀ q ∈ s.mdStreams, q ∈ c.given) ∧
      ∀ q, q ∈ s.mdStreams ↔ ∃ t, (s.calls t).queue? = some q := by
  have hstreams := Streams.of_run hrun
  cases Move.of_act hstop with
  | @stop snapshot index hl hend =>
      obtain ⟨c, hc, hloop⟩ := hstreams.loop snapshot index (by rw [hl]; rfl)
      refine ⟨c, ?_, ?_, hloop.roll.called_nodup, hloop.roll.missed_le hend, fun hun => ?_,
        hstreams.mem⟩
      · rw [broadcasts_snoc]
        simp [Broadcasts.after, hc]
      · rw [hl, hloop.snapshot, hloop.roll.length]
      · exact hloop.roll.complete hend (hloop.undisturbed hun)

end Run

def emptyA : MarketDataSnapshot := { symbol := "A" }

def bidOfOne : MarketDataSnapshot := { symbol := "A", bids := [{ price := 0, quantity := 1 }] }

/-- A stream has got the snapshot and leaves the list before the loop is over. -/
def leavesInLoop : List (Action Bool × Output Bool) :=
  [(.handleSnapshot emptyA, .silent), (.next, .given 0), (.putSnapshot, .silent),
    (.hangUp false, .silent), (.checkStream false, .silent), (.removeStream false, .left 0)]

/-- The loop is over, and the next one reaches the stream that is still there. -/
def nextLoop : List (Action Bool × Output Bool) :=
  [(.stop, .silent), (.handleSnapshot bidOfOne, .silent), (.next, .given 1),
    (.putSnapshot, .silent), (.stop, .silent), (.getSnapshot true, .snapshot true bidOfOne)]

/-- Two streams are open. -/
def secondOpened : List (Action Bool × Output Bool) :=
  [(.openStream false "A" false, .silent), (.openStream true "A" false, .silent)]

/-- The loop that the first stream leaves reaches only that one. -/
theorem loop_reaches_leaves : ∃ (s : GatewayThreads Bool) (c : Broadcast),
    s.mdStreams = [1] ∧ c.given.length = 1 ∧ (s.mdStreams.filter fun q => q ∉ c.given).length ≤
      (c.given.filter fun q => q ∉ s.mdStreams).length := by
  have hexec : Trace.exec act ((secondOpened ++ leavesInLoop).map Prod.fst) {} =
    some (secondOpened ++ leavesInLoop, _) := rfl
  obtain ⟨c, -, hlistener, -, hmissed, -⟩ := loop_reaches (.of_exec hexec) rfl
  exact ⟨_, c, rfl, (GatewayListener.broadcasting.inj hlistener).2.symm, hmissed⟩

/-- The second stream misses the snapshot during whose loop the first one left, and no other. -/
theorem stream_in_order_leaves : ∃ s : GatewayThreads Bool,
    Run (secondOpened ++ leavesInLoop ++ nextLoop) s ∧
      (shown true (leavesInLoop ++ nextLoop)).Sublist [emptyA, bidOfOne] ∧
      [bidOfOne].Sublist (shown true (leavesInLoop ++ nextLoop)) := by
  have hearlier : Trace.exec act [.openStream false "A" false] ({} : GatewayThreads Bool) =
    some (secondOpened.take 1, _) := rfl
  have hall : Trace.exec act ((secondOpened ++ leavesInLoop ++ nextLoop).map Prod.fst) {} =
    some (secondOpened ++ leavesInLoop ++ nextLoop, _) := rfl
  obtain ⟨hshown, hbetween⟩ := stream_in_order (.of_exec hearlier)
    (rfl : act _ (.openStream true "A" false) = some (_, _))
    (.of_exec (rfl : Trace.exec act ((leavesInLoop ++ nextLoop).map Prod.fst) _ =
      some (leavesInLoop ++ nextLoop, _))) rfl
  exact ⟨_, .of_exec hall, hshown, (hbetween 1 rfl rfl).1⟩


end GatewayThreads

end OrderMatchingEngine
