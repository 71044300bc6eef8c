import OrderMatchingEngine.ClientGateway
import OrderMatchingEngine.TradingPb2

/-!
# OrderMatchingEngine.GatewayService

The side of `gateway/gateway.py` that users are served from.

The service holds one connection to the engine for all its users. `handle_execution` copies the
fields of an execution report from the engine into the message for a user, and puts this into the
queue of the user that the report names. If `trading_pb2` does not take the fields, it raises, and
the listener that has called it ends.
-/

namespace OrderMatchingEngine

/-- `class GatewayService`: the execution reports queued for each user. -/
structure GatewayService where
  userQueues : AList fun _ : UserID => List ExecutionReport

namespace GatewayService

/-- `self.user_queues.get(user_id)`, empty before the first report. -/
def userQueue (user : UserID) (s : GatewayService) : List ExecutionReport :=
  (s.userQueues.lookup user).getD []

/-- `self.user_queues[user_id].put(report)`. -/
def put (s : GatewayService) (report : ExecutionReport) : GatewayService :=
  { s with userQueues := s.userQueues.insert report.userId (s.userQueue report.userId ++ [report]) }

/-- `def handle_execution(self, payload)`, unless it raises. -/
def handleExecution (pb : TradingPb2) (s : GatewayService) (report : ExecutionReport) :
    Option GatewayService :=
  if pb.takesReport then some (s.put report) else none

theorem userQueue_put (user : UserID) (s : GatewayService) (report : ExecutionReport) :
    (s.put report).userQueue user =
      s.userQueue user ++ if report.userId = user then [report] else [] := by
  unfold userQueue put
  split
  · rename_i huser
    subst huser
    rw [AList.lookup_insert]
    rfl
  · rename_i huser
    rw [AList.lookup_insert_ne (Ne.symm huser), List.append_nil]

variable {pb : TradingPb2}

/-- A user's queue receives the reports that name the user, in order. -/
theorem userQueue_foldlM (htakes : pb.takesReport = true) (s : GatewayService)
    (reports : List ExecutionReport) : ∃ s', reports.foldlM (handleExecution pb) s = some s' ∧
      ∀ user, s'.userQueue user = s.userQueue user ++ reports.filter (·.userId = user) := by
  induction reports generalizing s with
  | nil => exact ⟨s, rfl, by simp⟩
  | cons report reports ih =>
      obtain ⟨s', hs', hqueue⟩ := ih (s.put report)
      refine ⟨s', ?_, fun user => ?_⟩
      · rw [List.foldlM_cons, handleExecution, if_pos htakes]
        exact hs'
      · rw [hqueue, userQueue_put, List.filter_cons, List.append_assoc]
        by_cases huser : report.userId = user <;> simp [huser]

/-- The first report is the last that is looked at, if `trading_pb2` does not take it. -/
theorem foldlM_eq_none (htakes : pb.takesReport = false) (s : GatewayService)
    (report : ExecutionReport) (reports : List ExecutionReport) :
    (report :: reports).foldlM (handleExecution pb) s = none := by
  rw [List.foldlM_cons, handleExecution, htakes, if_neg Bool.false_ne_true]
  rfl

end GatewayService

end OrderMatchingEngine
