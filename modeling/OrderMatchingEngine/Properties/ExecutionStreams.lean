import OrderMatchingEngine.Refinement.Mailboxes

/-!
# OrderMatchingEngine.Properties.ExecutionStreams

Where the execution reports of a user go.

Calls of `StreamExecutions` for one user share the user's queue, and a user's queue can be replaced.
Each of the calls gets reports of its own user only, in the order in which they were handled
(`reports_in_order`). A report that was handled is got once, or waits: in the user's queue, or in
one that was replaced and that nobody will look up any more (`reports_kept`).
-/

namespace OrderMatchingEngine

open GatewayService (Execution)

namespace GatewayThreads

variable {θ : Type}

/-- The reports that a call has got, with their queues. -/
def gotBy (t : θ) [DecidableEq θ] (tr : List (Action θ × Output θ)) : List (Nat × Execution) :=
  tr.flatMap fun x => x.2.gotBy t

/-- The reports of a user. -/
def ofUser (userId : Nat) (reports : List Execution) : List Execution :=
  reports.filter fun report => report.userId = userId

/-- The queues that were created for a user, oldest first. -/
def queuesOf (userId : Nat) (tr : List (Action θ × Output θ)) : List Nat :=
  ((binds tr).filter fun x => x.1 = userId).map Prod.snd

variable [DecidableEq θ] {t : θ} {userId : Nat} {earlier later tr : List (Action θ × Output θ)}
  {s₀ s₁ s : GatewayThreads θ} {o : Output θ}

theorem stream_of_run (hearlier : Run earlier s₀)
    (hopen : s₀.act (.streamExecutions t userId) = some (o, s₁))
    (hlater : Trace.Run (Trace.ofFun act) s₁ later s) :
    Stream t userId (gotBy t later) (earlier ++ (.streamExecutions t userId, o) :: later) s := by
  suffices hall : Mailboxes (earlier ++ (.streamExecutions t userId, o) :: later) s ∧
      Stream t userId (gotBy t later) (earlier ++ (.streamExecutions t userId, o) :: later) s from
    hall.2
  refine Trace.Run.invariant (fun later s =>
    Mailboxes (earlier ++ (.streamExecutions t userId, o) :: later) s ∧
      Stream t userId (gotBy t later) (earlier ++ (.streamExecutions t userId, o) :: later) s)
    ?_ ?_ hlater
  · refine ⟨.of_run (hearlier.snoc hopen), ?_⟩
    cases Move.of_act hopen with
    | streamExecutions _ hcall =>
        have hs₁ : (s₀.goto t (.checking userId)).calls t = .checking userId :=
          Function.update_self ..
        exact ⟨.inl (congrArg StreamCall.user? hs₁), List.nil_sublist _, by simp [gotBy], .nil,
          fun q hq => by simp [hs₁] at hq⟩
  · rintro later s a o' s' - ⟨hm, hstream⟩ hs
    have hsplit : earlier ++ (.streamExecutions t userId, o) :: (later ++ [(a, o')]) =
        (earlier ++ (.streamExecutions t userId, o) :: later) ++ [(a, o')] := by simp
    rw [hsplit, gotBy, List.flatMap_append, List.flatMap_singleton]
    exact ⟨hm.step (.of_act hs), hstream.step hm (.of_act hs)⟩

theorem ofUser_map (userId : Nat) (log : List (Nat × Execution)) :
    ofUser userId (log.map Prod.snd) =
      (log.filter fun x => x.2.userId = userId).map Prod.snd := List.filter_map ..

/-- The queues of the users are numbered as they are created. -/
theorem queuesOf_sorted (hrun : Run tr s) : (queuesOf userId tr).Pairwise (· < ·) := by
  have hall : ((binds tr).map Prod.snd).Pairwise (· < ·) := by
    induction hrun with
    | nil => exact .nil
    | @snoc tr s s' a o hrun hs ih =>
        rw [binds_snoc, List.map_append]
        rcases (Move.of_act hs).binds with ⟨hnone, -⟩ | ⟨userId', hsome, -⟩
        · rw [hnone, List.map_nil, List.append_nil]
          exact ih
        · rw [hsome]
          refine List.pairwise_append.mpr ⟨ih, List.pairwise_singleton .., fun q hq q' hq' => ?_⟩
          obtain ⟨x, hx, rfl⟩ := List.mem_map.mp hq
          rw [List.mem_singleton.mp hq']
          exact (Mailboxes.of_run hrun).lt x hx
  exact hall.sublist (List.filter_sublist.map _)

/-- The queue in the dictionary is the last one. -/
theorem userQueues_eq (hrun : Run tr s) : s.userQueues userId = (queuesOf userId tr).getLast? := by
  induction hrun with
  | nil => rfl
  | @snoc tr s s' a o hrun hs ih =>
      have hsnoc : queuesOf userId (tr ++ [(a, o)]) =
          queuesOf userId tr ++ (o.binds.filter fun x => x.1 = userId).map Prod.snd := by
        simp [queuesOf]
      rw [hsnoc]
      rcases (Move.of_act hs).binds with ⟨hnone, hqueues⟩ | ⟨userId', hsome, hqueues⟩
      · rw [hnone, hqueues, ih, List.filter_nil, List.map_nil, List.append_nil]
      · rw [hsome, hqueues]
        by_cases hu : userId' = userId
        · subst hu
          simp
        · simp [hu, Function.update_of_ne (Ne.symm hu), ih]

/-- A call gets reports of its user, in the order in which they were handled. -/
theorem got_sublist (hearlier : Run earlier s₀)
    (hopen : s₀.act (.streamExecutions t userId) = some (o, s₁))
    (hlater : Trace.Run (Trace.ofFun act) s₁ later s) :
    ((gotBy t later).map Prod.snd).Sublist
      (ofUser userId (handled (earlier ++ (.streamExecutions t userId, o) :: later))) := by
  have hstream := stream_of_run hearlier hopen hlater
  have hm : Mailboxes (earlier ++ (.streamExecutions t userId, o) :: later) s := by
    refine .of_run ?_
    rw [List.append_cons]
    exact (hearlier.snoc hopen).append hlater
  have hputs := sublist_of_parts Prod.fst hstream.sorted (hm.put_sorted userId) fun q => by
    by_cases hq : ∃ x ∈ gotBy t later, x.1 = q
    · obtain ⟨x, hx, rfl⟩ := hq
      rw [hm.filter_owner (hstream.bound x hx)]
      exact (hstream.sublist.filter _).trans (hm.gets_filter x.1).sublist
    · have hnone : ((gotBy t later).filter fun x => x.1 = q) = [] :=
        List.filter_eq_nil_iff.mpr fun x hx => by simpa using fun heq => hq ⟨x, hx, heq⟩
      rw [hnone]
      exact List.nil_sublist _
  rw [hm.handled, ofUser, List.filter_append]
  refine List.Sublist.trans ?_ (List.sublist_append_left ..)
  rw [← ofUser, ofUser_map]
  exact hputs.map Prod.snd

/-- **What a call gets** are reports of its user, in the order in which they were handled and each
once. What all calls have got from a queue and what waits there is what was put into it. -/
theorem reports_in_order (hearlier : Run earlier s₀)
    (hopen : s₀.act (.streamExecutions t userId) = some (o, s₁))
    (hlater : Trace.Run (Trace.ofFun act) s₁ later s)
    (htr : tr = earlier ++ (.streamExecutions t userId, o) :: later) :
    ((gotBy t later).map Prod.snd).Sublist (ofUser userId (handled tr)) ∧
      (gotBy t later).Sublist (gets tr) ∧
      ∀ q, through q (gets tr) ++ s.reports q = through q (puts tr) := by
  subst htr
  have hrun : Run (earlier ++ (.streamExecutions t userId, o) :: later) s := by
    rw [List.append_cons]
    exact (hearlier.snoc hopen).append hlater
  exact ⟨got_sublist hearlier hopen hlater, (stream_of_run hearlier hopen hlater).sublist,
    (Mailboxes.of_run hrun).fifo⟩

/-- **No report is lost or doubled.** The reports of a user, in the order in which they were
handled, are those that went through each of the user's queues, and the one that is about to be put
there. Those that went through a queue are those that calls have got and those that wait. The
listener and the calls look up the last queue. -/
theorem reports_kept (hrun : Run tr s) (userId : Nat) :
    ofUser userId (handled tr) =
        (queuesOf userId tr).flatMap (fun q => through q (gets tr) ++ s.reports q) ++
          ofUser userId s.listener.report?.toList ∧
      s.userQueues userId = (queuesOf userId tr).getLast? := by
  have hm := Mailboxes.of_run hrun
  have hmem : ∀ q, (userId, q) ∈ binds tr ↔ q ∈ queuesOf userId tr := fun q => by
    simp [queuesOf]
  constructor
  · have hparts := flatMap_parts Prod.fst (hm.put_sorted userId) (queuesOf_sorted hrun)
      fun x hx => by
        obtain ⟨hx, huser⟩ := List.mem_filter.mp hx
        exact (hmem x.1).mp (of_decide_eq_true huser ▸ hm.put_bound x hx)
    rw [hm.handled, ofUser, List.filter_append, ← ofUser, ← ofUser, ofUser_map, ← hparts,
      List.map_flatMap]
    congr 1
    refine List.flatMap_congr fun q hq => ?_
    rw [hm.filter_owner ((hmem q).mpr hq), hm.fifo, through]
  · exact userQueues_eq hrun

/-- A report for user 7. -/
def reportSeven (execId : Nat) : Execution :=
  { clientOrderId := 1, userId := 7, execId := execId, symbol := "A", side := 0, price := 0,
    qty := 5, filledQty := execId, status := 1 }

/-- A call for user 7 finds no queue, and neither does the listener, which creates one and uses it
before the call replaces it. The next report gets to the call. -/
def queueReplaced : List (Action Unit × Output Unit) :=
  [(.checkUser (), .silent), (.handleExecution (reportSeven 1), .silent), (.checkQueue, .silent),
    (.createQueue, .bound 7 0), (.lookUp, .silent), (.putReport, .put 0 (reportSeven 1)),
    (.createUser (), .bound 7 1), (.handleExecution (reportSeven 2), .silent),
    (.checkQueue, .silent), (.lookUp, .silent), (.putReport, .put 1 (reportSeven 2)),
    (.lookUser (), .silent), (.getReport (), .got () 1 (reportSeven 2))]

/-- Of the two reports the call gets the second. -/
theorem reports_in_order_replaced : ((gotBy () queueReplaced).map Prod.snd).Sublist
    (ofUser 7 (handled ((.streamExecutions () 7, .silent) :: queueReplaced))) := by
  have hearlier : Trace.exec act [] ({} : GatewayThreads Unit) = some ([], _) := rfl
  exact (reports_in_order (.of_exec hearlier)
    (rfl : act _ (.streamExecutions () 7) = some (_, _))
    (.of_exec (rfl : Trace.exec act (queueReplaced.map Prod.fst) _ = some (queueReplaced, _)))
    rfl).1

/-- The first report is in a queue that was replaced. -/
theorem reports_kept_replaced : ∃ s : GatewayThreads Unit,
    Run ((.streamExecutions () 7, .silent) :: queueReplaced) s ∧ s.userQueues 7 = some 1 ∧
      s.reports 0 = [reportSeven 1] ∧ s.reports 1 = [] ∧
      ofUser 7 (handled ((.streamExecutions () 7, .silent) :: queueReplaced)) =
        through 0 [(1, reportSeven 2)] ++ s.reports 0 ++
          (through 1 [(1, reportSeven 2)] ++ s.reports 1 ++ []) := by
  have hexec : Trace.exec act (.streamExecutions () 7 :: queueReplaced.map Prod.fst) {} =
    some ((.streamExecutions () 7, .silent) :: queueReplaced, _) := rfl
  obtain ⟨hkept, hcurrent⟩ := reports_kept (.of_exec hexec) 7
  exact ⟨_, .of_exec hexec, hcurrent.trans rfl, rfl, rfl, hkept.trans (List.append_nil _)⟩

end GatewayThreads

end OrderMatchingEngine
