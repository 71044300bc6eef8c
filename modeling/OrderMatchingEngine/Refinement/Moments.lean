import OrderMatchingEngine.Refinement.Feeds
import OrderMatchingEngine.Refinement.Listening
import OrderMatchingEngine.Refinement.Subscriptions

/-!
# OrderMatchingEngine.Refinement.Moments

When messages are sent.

The messages to a connection are sent in the happenings of a run, one after the other (`moments`).
A snapshot among them shows a book as it is when the happening is over (`snapshot?_of_happens`).
-/

namespace OrderMatchingEngine

open ClientGateway (Happening Happens messagesTo messagesTo_append)

/-- A message that was sent, with the memory that it was built in. -/
abbrev SentMessage := Message × (Nat → UInt8)

variable {clock : Nat → Timestamp} {fd : Int} {g₀ g : ClientGateway}
  {engine : List (Happening × Reporting)}

/-- The engine's messages are shaped as its structs are. -/
theorem shaped_of_happens {g' : ClientGateway} {i : Happening} {r : Reporting} {m : Sent}
    (h : Happens clock g i r g') (hm : m ∈ r.sent) : m.message.Shaped := by
  obtain ⟨fuel, h⟩ := h
  cases i with
  | packet fd now data => exact ClientGateway.processPacket_shaped h hm
  | connection fd =>
      obtain ⟨rfl, -⟩ := Prod.mk.inj (Except.ok.inj h)
      simp at hm
  | disconnection fd =>
      obtain ⟨rfl, -⟩ := Prod.mk.inj (Except.ok.inj h)
      simp at hm

/-- The messages to a connection, each with how many things have happened when it is sent. -/
def moments (fd : Int) (engine : List (Happening × Reporting)) : List (Nat × Message) :=
  (engine.zipIdx 1).flatMap fun x => (messagesTo fd x.1.2.sent).map fun m => (x.2, m)

theorem map_moments (fd : Int) (engine : List (Happening × Reporting)) :
    (moments fd engine).map Prod.snd = messagesTo fd (engine.flatMap (·.2.sent)) := by
  suffices hall : ∀ n, ((engine.zipIdx n).flatMap fun x =>
      (messagesTo fd x.1.2.sent).map fun m => (x.2, m)).map Prod.snd =
        messagesTo fd (engine.flatMap (·.2.sent)) from hall 1
  induction engine with
  | nil => exact fun _ => rfl
  | cons x engine ih =>
      intro n
      rw [List.zipIdx_cons, List.flatMap_cons, List.map_append, ih, List.flatMap_cons,
        messagesTo_append, List.map_map]
      exact congrArg (· ++ _) (List.map_id _)

/-- The happening in which a message was sent. -/
theorem exists_happening {n : Nat} {m : Message} (hrun : Trace.Run (Happens clock) g₀ engine g)
    (h : (n, m) ∈ moments fd engine) :
    ∃ i r g₁ g₂ x, Trace.Run (Happens clock) g₀ (engine.take n) g₂ ∧
      Happens clock g₁ i r g₂ ∧ x ∈ r.sent ∧ x.message = m := by
  obtain ⟨⟨⟨i, r⟩, n'⟩, hmem, hm⟩ := List.mem_flatMap.mp h
  obtain ⟨m', hm', heq⟩ := List.mem_map.mp hm
  obtain ⟨rfl, rfl⟩ := Prod.mk.inj heq
  obtain ⟨x, hx, rfl⟩ := List.mem_map.mp hm'
  obtain ⟨hpos, hget⟩ := List.mk_mem_zipIdx_iff_le_and_getElem?_sub.mp hmem
  obtain ⟨k, rfl⟩ := Nat.exists_eq_add_of_le' hpos
  rw [Nat.add_sub_cancel] at hget
  obtain ⟨hk, hget⟩ := List.getElem?_eq_some_iff.mp hget
  have hsplit : engine = engine.take k ++ (i, r) :: engine.drop (k + 1) := by
    rw [← hget, List.getElem_cons_drop, List.take_append_drop]
  rw [hsplit] at hrun
  obtain ⟨g₁, g₂, hfront, hs, -⟩ := hrun.middle
  refine ⟨i, r, g₁, g₂, x, ?_, hs, List.mem_of_mem_filter hx, rfl⟩
  rw [List.take_succ_eq_append_getElem hk, hget]
  exact hfront.snoc hs

/-- All messages of a run are shaped as the engine's structs are. -/
theorem shaped_of_run {m : Message} (hrun : Trace.Run (Happens clock) g₀ engine g)
    (h : m ∈ messagesTo fd (engine.flatMap (·.2.sent))) : m.Shaped := by
  rw [← map_moments] at h
  obtain ⟨x, hx, rfl⟩ := List.mem_map.mp h
  obtain ⟨i, r, g₁, g₂, sent, -, hs, hsent, heq⟩ := exists_happening hrun hx
  exact heq ▸ shaped_of_happens hs hsent

end OrderMatchingEngine
