import OrderMatchingEngine.Library.RollCall
import OrderMatchingEngine.Refinement.Threads

/-!
# OrderMatchingEngine.Refinement.Broadcasts

What is true of `md_streams` whatever the threads do.

The list has the queues of the calls that are under way, each once, and the listener's loop over it
is a roll call (`Streams`). `broadcasts` is what a run shows of these loops.
-/

namespace OrderMatchingEngine

open TradingPb2 (MarketDataSnapshot)

/-- Where the loop over `md_streams` is: its snapshot and the index of the iterator. -/
def GatewayListener.loop? : GatewayListener → Option (MarketDataSnapshot × Nat)
  | .broadcasting snapshot index | .putting snapshot index _ => some (snapshot, index)
  | _ => none

/-- The queue that the snapshot is about to be put into. -/
def GatewayListener.target? : GatewayListener → Option Nat
  | .putting _ _ q => some q
  | _ => none

namespace GatewayThreads

/-- One loop over `md_streams`. -/
structure Broadcast where
  snapshot : MarketDataSnapshot
  /-- The queues that the iterator gave. -/
  given : List Nat := []
  /-- None of them was taken off the list while the loop went on. -/
  undisturbed : Bool := true
  deriving DecidableEq, Repr

/-- The loops of a run. -/
structure Broadcasts where
  ended : List Broadcast := []
  current? : Option Broadcast := none
  deriving DecidableEq, Repr

variable {θ : Type}

/-- The loop after the queue was given. -/
def Broadcast.give (c : Broadcast) (q : Nat) : Broadcast := { c with given := c.given ++ [q] }

/-- The loop after the queue was taken off the list. -/
def Broadcast.leave (c : Broadcast) (q : Nat) : Broadcast :=
  { c with undisturbed := c.undisturbed && decide (q ∉ c.given) }

/-- The loops after one more step. -/
def Broadcasts.after (b : Broadcasts) : Action θ × Output θ → Broadcasts
  | (.handleSnapshot snapshot, _) => { b with current? := some { snapshot := snapshot } }
  | (.stop, _) => { ended := b.ended ++ b.current?.toList }
  | (_, .given q) => { b with current? := b.current?.map (·.give q) }
  | (_, .left q) => { b with current? := b.current?.map (·.leave q) }
  | _ => b

/-- The loops of a run. -/
def broadcasts (tr : List (Action θ × Output θ)) : Broadcasts := tr.foldl Broadcasts.after {}

theorem broadcasts_snoc (tr : List (Action θ × Output θ)) (x : Action θ × Output θ) :
    broadcasts (tr ++ [x]) = (broadcasts tr).after x := List.foldl_concat ..

/-- The loop that is on. -/
structure Broadcast.Loop (c : Broadcast) (s : GatewayThreads θ) (snapshot : MarketDataSnapshot)
    (index : Nat) : Prop where
  snapshot : c.snapshot = snapshot
  roll : RollCall.Valid s.mdStreams index c.given
  lt : ∀ q ∈ c.given, q < s.created
  target : ∀ q, s.listener.target? = some q → q ∈ c.given
  undisturbed : c.undisturbed = true → ∀ q ∈ c.given, q ∈ s.mdStreams

/-- **The list of streams** has the queue of each call that is under way, and the listener calls
them one after the other. -/
structure Streams (b : Broadcasts) (s : GatewayThreads θ) : Prop where
  nodup : s.mdStreams.Nodup
  lt : ∀ q ∈ s.mdStreams, q < s.created
  fresh : ∀ q, s.created ≤ q → s.snapshots q = []
  mem : ∀ q, q ∈ s.mdStreams ↔ ∃ t, (s.calls t).queue? = some q
  unique : ∀ t t' q, (s.calls t).queue? = some q → (s.calls t').queue? = some q → t = t'
  off : s.listener.loop? = none → b.current? = none
  loop : ∀ snapshot index, s.listener.loop? = some (snapshot, index) →
    ∃ c, b.current? = some c ∧ c.Loop s snapshot index

section Calls

variable [DecidableEq θ] {s : GatewayThreads θ} {t : θ} {q : Nat}

theorem queue?_update {call : StreamCall} (h : call.queue? = (s.calls t).queue?) (t' : θ) :
    (Function.update s.calls t call t').queue? = (s.calls t').queue? := by
  by_cases ht : t' = t
  · subst ht
    rw [Function.update_self, h]
  · rw [Function.update_of_ne ht]

/-- The queues of the calls after one has opened its stream. -/
theorem queue?_opened (call : StreamCall) (h : (s.calls t).queue? = none)
    (hcall : call.queue? = some s.created) (t' : θ) (q : Nat) :
    (Function.update s.calls t call t').queue? = some q ↔
      t' = t ∧ s.created = q ∨ (s.calls t').queue? = some q := by
  by_cases ht : t' = t
  · subst ht
    simp [h, hcall]
  · simp [ht]

/-- The queues of the calls after one has left. -/
theorem queue?_closed (call : StreamCall) (h : (s.calls t).queue? = some q)
    (hcall : call.queue? = none)
    (hunique : ∀ t' q', (s.calls t').queue? = some q' → (s.calls t).queue? = some q' → t' = t)
    (t' : θ) (q' : Nat) : (Function.update s.calls t call t').queue? = some q' ↔
      q' ≠ q ∧ (s.calls t').queue? = some q' := by
  by_cases ht : t' = t
  · subst ht
    simp [h, hcall, eq_comm]
  · rw [Function.update_of_ne ht]
    refine ⟨fun hq' => ⟨?_, hq'⟩, And.right⟩
    rintro rfl
    exact ht (hunique t' _ hq' h)

end Calls

namespace Streams

variable {b : Broadcasts} {s s' : GatewayThreads θ} {a : Action θ} {o : Output θ}

theorem start : Streams {} ({} : GatewayThreads θ) where
  nodup := .nil
  lt q hq := by simp at hq
  fresh q _ := rfl
  mem q := by simp [StreamCall.queue?]
  unique t t' q h := by simp [StreamCall.queue?] at h
  off _ := rfl
  loop snapshot index h := by simp [GatewayListener.loop?] at h

/-- A step that is not about the list. -/
theorem frame (h : Streams b s) (hstreams : s'.mdStreams = s.mdStreams)
    (hcreated : s.created ≤ s'.created) (hloop : s'.listener.loop? = s.listener.loop?)
    (htarget : ∀ q, s'.listener.target? = some q → s.listener.target? = some q)
    (hsnapshots : ∀ q, s.snapshots q = [] → s'.snapshots q = [])
    (hcalls : ∀ t, (s'.calls t).queue? = (s.calls t).queue?) : Streams b s' := by
  refine ⟨hstreams ▸ h.nodup, fun q hq => ?_, fun q hq => ?_, fun q => ?_, fun t t' q ht ht' => ?_,
    fun hl => h.off (hloop ▸ hl), fun snapshot index hl => ?_⟩
  · exact (h.lt q (hstreams ▸ hq)).trans_le hcreated
  · exact hsnapshots q (h.fresh q (hcreated.trans hq))
  · rw [hstreams, h.mem]
    exact exists_congr fun t => by rw [hcalls]
  · exact h.unique t t' q (hcalls t ▸ ht) (hcalls t' ▸ ht')
  · obtain ⟨c, hc, hloop⟩ := h.loop snapshot index (hloop ▸ hl)
    exact ⟨c, hc, hloop.snapshot, hstreams ▸ hloop.roll,
      fun q hq => (hloop.lt q hq).trans_le hcreated, fun q hq => hloop.target q (htarget q hq),
      hstreams ▸ hloop.undisturbed⟩

/-- Only queues that exist were given. -/
theorem given_lt (h : Streams b s) {c : Broadcast} (hc : b.current? = some c) :
    ∀ q ∈ c.given, q < s.created := by
  rcases hl : s.listener.loop? with _ | ⟨snapshot, index⟩
  · simp [h.off hl] at hc
  · obtain ⟨c', hc', hloop⟩ := h.loop snapshot index hl
    obtain rfl := Option.some.inj (hc.symm.trans hc')
    exact hloop.lt

/-- An empty queue is still empty after something was taken from one that was not. -/
theorem taken_nil {α : Type} {queues : Nat → List α} {q q' : Nat} {x : α} {rest : List α}
    (hq : queues q = x :: rest) (h : queues q' = []) : Function.update queues q rest q' = [] := by
  rw [Function.update_of_ne, h]
  rintro rfl
  simp [hq] at h

variable [DecidableEq θ]

/-- **One step.** -/
theorem step (h : Streams b s) (hs : s.Move a o s') : Streams (b.after (a, o)) s' := by
  cases hs with
  | handleSnapshot snapshot hl =>
      refine ⟨h.nodup, h.lt, h.fresh, h.mem, h.unique, fun hoff => ?_,
        fun snapshot' index hon => ?_⟩
      · simp [GatewayListener.loop?] at hoff
      · obtain ⟨rfl, rfl⟩ := Prod.mk.inj (Option.some.inj hon)
        exact ⟨_, rfl, rfl, .start h.nodup, by simp, by simp [GatewayListener.target?], by simp⟩
  | @next snapshot index q hl hq =>
      refine ⟨h.nodup, h.lt, h.fresh, h.mem, h.unique, fun hoff => ?_,
        fun snapshot' index' hon => ?_⟩
      · simp [GatewayListener.loop?] at hoff
      · obtain ⟨rfl, rfl⟩ := Prod.mk.inj (Option.some.inj hon)
        obtain ⟨c, hc, hloop⟩ := h.loop snapshot index (by rw [hl]; rfl)
        have hmem := List.mem_of_getElem? hq
        refine ⟨c.give q, by simp [Broadcasts.after, hc], hloop.snapshot, hloop.roll.next hq,
          fun q' hq' => ?_, fun q' hq' => ?_, fun hun q' hq' => ?_⟩
        · rcases List.mem_append.mp hq' with hq' | hq'
          · exact hloop.lt q' hq'
          · exact List.mem_singleton.mp hq' ▸ h.lt q hmem
        · obtain rfl := Option.some.inj hq'
          exact List.mem_append_right _ (List.mem_singleton_self q)
        · rcases List.mem_append.mp hq' with hq' | hq'
          · exact hloop.undisturbed hun q' hq'
          · exact List.mem_singleton.mp hq' ▸ hmem
  | stop hl hend =>
      refine ⟨h.nodup, h.lt, h.fresh, h.mem, h.unique, fun _ => rfl, fun snapshot index hon => ?_⟩
      simp [GatewayListener.loop?] at hon
  | @putSnapshot snapshot index q hl =>
      obtain ⟨c, hc, hloop⟩ := h.loop snapshot index (by rw [hl]; rfl)
      have hlt : q < s.created := hloop.lt q (hloop.target q (by rw [hl]; rfl))
      refine ⟨h.nodup, h.lt, fun q' hq' => ?_, h.mem, h.unique, fun hoff => ?_,
        fun snapshot' index' hon => ?_⟩
      · have hne : q' ≠ q := (hlt.trans_le hq').ne'
        exact (Function.update_of_ne hne _ _).trans (h.fresh q' hq')
      · simp [GatewayListener.loop?] at hoff
      · obtain ⟨rfl, rfl⟩ := Prod.mk.inj (Option.some.inj hon)
        exact ⟨c, hc, hloop.snapshot, hloop.roll, hloop.lt, by simp [GatewayListener.target?],
          hloop.undisturbed⟩
  | handleExecution report hl | foundQueue hl _ | foundNoQueue hl _ | lookUp hl _ | putReport hl =>
      exact h.frame rfl (Nat.le_refl _) (by rw [hl]; rfl) (by simp [GatewayListener.target?])
        (fun _ => id) fun _ => rfl
  | createQueue hl =>
      exact h.frame rfl (Nat.le_succ _) (by rw [hl]; rfl) (by simp [GatewayListener.target?])
        (fun _ => id) fun _ => rfl
  | @openStream t symbol once hcall =>
      have hnew : s.created ∉ s.mdStreams := fun hmem => lt_irrefl _ (h.lt _ hmem)
      have hcalls := queue?_opened (s := s) (t := t) (.watching symbol once s.created)
        (by rw [hcall]; rfl) rfl
      refine ⟨?_, fun q hq => ?_, fun q hq => h.fresh q (Nat.le_of_succ_le hq), fun q => ?_,
        fun t' t'' q ht' ht'' => ?_, h.off, fun snapshot index hon => ?_⟩
      · exact List.nodup_append.mpr ⟨h.nodup, List.nodup_singleton _, fun x hx y hy hxy =>
          hnew (List.mem_singleton.mp hy ▸ hxy ▸ hx)⟩
      · rcases List.mem_append.mp hq with hq | hq
        · exact (h.lt q hq).trans (Nat.lt_succ_self _)
        · exact List.mem_singleton.mp hq ▸ Nat.lt_succ_self _
      · refine Iff.trans ?_ (exists_congr fun t' => hcalls t' q).symm
        rw [List.mem_append, List.mem_singleton, h.mem]
        constructor
        · rintro (⟨t', ht'⟩ | rfl)
          · exact ⟨t', .inr ht'⟩
          · exact ⟨t, .inl ⟨rfl, rfl⟩⟩
        · rintro ⟨t', ⟨-, rfl⟩ | ht'⟩
          · exact .inr rfl
          · exact .inl ⟨t', ht'⟩
      · rcases (hcalls t' q).mp ht' with ⟨rfl, rfl⟩ | hold
        · rcases (hcalls t'' _).mp ht'' with ⟨rfl, -⟩ | hold'
          · rfl
          · exact absurd ((h.mem _).mpr ⟨t'', hold'⟩) hnew
        · rcases (hcalls t'' q).mp ht'' with ⟨rfl, rfl⟩ | hold'
          · exact absurd ((h.mem _).mpr ⟨t', hold⟩) hnew
          · exact h.unique t' t'' q hold hold'
      · obtain ⟨c, hc, hloop⟩ := h.loop snapshot index hon
        exact ⟨c, hc, hloop.snapshot,
          hloop.roll.join hnew fun hgiven => lt_irrefl _ (hloop.lt _ hgiven),
          fun q hq => (hloop.lt q hq).trans (Nat.lt_succ_self _), hloop.target,
          fun hun q hq => List.mem_append_left _ (hloop.undisturbed hun q hq)⟩
  | @showSnapshot t symbol once q snapshot rest hcall hq hsymbol =>
      refine h.frame rfl (Nat.le_refl _) rfl (fun _ => id) (fun _ => taken_nil hq) fun t' => ?_
      cases once
      · rfl
      · exact queue?_update (by rw [hcall]; rfl) t'
  | @skipSnapshot t symbol once q snapshot rest hcall hq hsymbol =>
      exact h.frame rfl (Nat.le_refl _) rfl (fun _ => id) (fun _ => taken_nil hq) fun _ => rfl
  | @noSnapshot t symbol once q hcall hq =>
      refine h.frame rfl (Nat.le_refl _) rfl (fun _ => id) (fun _ => id) fun t' => ?_
      cases once
      · rfl
      · exact queue?_update (by rw [hcall]; rfl) t'
  | @foundNoStream t q hcall hq =>
      exact absurd ((h.mem q).mpr ⟨t, by rw [hcall]; rfl⟩) hq
  | @removeStream t q hcall hq =>
      have hown : (s.calls t).queue? = some q := by rw [hcall]; rfl
      have hcalls := queue?_closed .done hown rfl fun t' q' hq' ht => h.unique t' t q' hq' ht
      refine ⟨h.nodup.erase q, fun q' hq' => h.lt q' (List.mem_of_mem_erase hq'), h.fresh,
        fun q' => ?_, fun t' t'' q' ht' ht'' => ?_, fun hoff => ?_, fun snapshot index hon => ?_⟩
      · refine Iff.trans ?_ (exists_congr fun t' => hcalls t' q').symm
        rw [h.nodup.mem_erase_iff, exists_and_left, h.mem]
      · exact h.unique t' t'' q' ((hcalls t' q').mp ht').2 ((hcalls t'' q').mp ht'').2
      · simp [Broadcasts.after, h.off hoff]
      · obtain ⟨c, hc, hloop⟩ := h.loop snapshot index hon
        refine ⟨c.leave q, by simp [Broadcasts.after, hc], hloop.snapshot, hloop.roll.leave q,
          hloop.lt, hloop.target, fun hun q' hq' => ?_⟩
        obtain ⟨hun, hgiven⟩ := (Bool.and_eq_true _ _).mp hun
        refine (List.mem_erase_of_ne ?_).mpr (hloop.undisturbed hun q' hq')
        rintro rfl
        exact of_decide_eq_true hgiven hq'
  | createUser hcall =>
      exact h.frame rfl (Nat.le_succ _) rfl (fun _ => id) (fun _ => id)
        (queue?_update (s := s) (by rw [hcall]; rfl))
  | hangUp hcall | endExecutions hcall | foundStream hcall _ | streamExecutions _ hcall
  | foundUser hcall _ | foundNoUser hcall _ | lookUser hcall _ | getReport hcall _
  | noReport hcall _ =>
      exact h.frame rfl (Nat.le_refl _) rfl (fun _ => id) (fun _ => id)
        (queue?_update (by rw [hcall]; rfl))

/-- **Every run** keeps the list like this. -/
theorem of_run {tr : List (Action θ × Output θ)} (h : Run tr s) : Streams (broadcasts tr) s := by
  induction h with
  | nil => exact .start
  | snoc _ hs ih =>
      rw [broadcasts_snoc]
      exact ih.step (.of_act hs)

end Streams

end GatewayThreads

end OrderMatchingEngine
