import OrderMatchingEngine.GatewayThreads

/-!
# OrderMatchingEngine.Refinement.Threads

The steps of the service's threads, one by one.

`Move` has one constructor for each thing a step can do, with what it finds and what it leaves;
every step is one of them (`Move.of_act`).
-/

namespace OrderMatchingEngine

open GatewayService (Execution)
open TradingPb2 (MarketDataSnapshot)

namespace GatewayThreads

variable {θ : Type} [DecidableEq θ]

/-- **What a step does.** -/
inductive Move (s : GatewayThreads θ) : Action θ → Output θ → GatewayThreads θ → Prop
  | handleSnapshot (snapshot : MarketDataSnapshot) (h : s.listener = .idle) :
      Move s (.handleSnapshot snapshot) .silent { s with listener := .broadcasting snapshot 0 }
  | next {snapshot : MarketDataSnapshot} {index q : Nat}
      (h : s.listener = .broadcasting snapshot index) (hq : s.mdStreams[index]? = some q) :
      Move s .next (.given q) { s with listener := .putting snapshot (index + 1) q }
  | stop {snapshot : MarketDataSnapshot} {index : Nat}
      (h : s.listener = .broadcasting snapshot index) (hend : s.mdStreams.length ≤ index) :
      Move s .stop .silent { s with listener := .idle }
  | putSnapshot {snapshot : MarketDataSnapshot} {index q : Nat}
      (h : s.listener = .putting snapshot index q) :
      Move s .putSnapshot .silent { s with
        snapshots := Function.update s.snapshots q (s.snapshots q ++ [snapshot])
        listener := .broadcasting snapshot index }
  | handleExecution (report : Execution) (h : s.listener = .idle) :
      Move s (.handleExecution report) .silent { s with listener := .checking report }
  | foundQueue {report : Execution} {q : Nat} (h : s.listener = .checking report)
      (hq : s.userQueues report.userId = some q) :
      Move s .checkQueue .silent { s with listener := .looking report }
  | foundNoQueue {report : Execution} (h : s.listener = .checking report)
      (hq : s.userQueues report.userId = none) :
      Move s .checkQueue .silent { s with listener := .creating report }
  | createQueue {report : Execution} (h : s.listener = .creating report) :
      Move s .createQueue (.bound report.userId s.created)
        { s.bindUser report.userId with listener := .looking report }
  | lookUp {report : Execution} {q : Nat} (h : s.listener = .looking report)
      (hq : s.userQueues report.userId = some q) :
      Move s .lookUp .silent { s with listener := .reporting report q }
  | putReport {report : Execution} {q : Nat} (h : s.listener = .reporting report q) :
      Move s .putReport (.put q report) { s with
        reports := Function.update s.reports q (s.reports q ++ [report])
        listener := .idle }
  | openStream {t : θ} (symbol : String) (once : Bool) (h : s.calls t = .idle) :
      Move s (.openStream t symbol once) .silent
        { s.goto t (.watching symbol once s.created) with
          mdStreams := s.mdStreams ++ [s.created]
          created := s.created + 1 }
  | showSnapshot {t : θ} {symbol : String} {once : Bool} {q : Nat} {snapshot : MarketDataSnapshot}
      {rest : List MarketDataSnapshot} (h : s.calls t = .watching symbol once q)
      (hq : s.snapshots q = snapshot :: rest) (hsymbol : snapshot.symbol = symbol) :
      Move s (.getSnapshot t) (.snapshot t snapshot)
        { s with
          snapshots := Function.update s.snapshots q rest
          calls := if once then Function.update s.calls t (.leaving q) else s.calls }
  | skipSnapshot {t : θ} {symbol : String} {once : Bool} {q : Nat} {snapshot : MarketDataSnapshot}
      {rest : List MarketDataSnapshot} (h : s.calls t = .watching symbol once q)
      (hq : s.snapshots q = snapshot :: rest) (hsymbol : snapshot.symbol ≠ symbol) :
      Move s (.getSnapshot t) .silent { s with snapshots := Function.update s.snapshots q rest }
  | noSnapshot {t : θ} {symbol : String} {once : Bool} {q : Nat}
      (h : s.calls t = .watching symbol once q) (hq : s.snapshots q = []) :
      Move s (.noSnapshot t) .silent
        { s with calls := if once then Function.update s.calls t (.leaving q) else s.calls }
  | hangUp {t : θ} {symbol : String} {once : Bool} {q : Nat}
      (h : s.calls t = .watching symbol once q) :
      Move s (.hangUp t) .silent (s.goto t (.leaving q))
  | endExecutions {t : θ} {userId : Nat} (h : s.calls t = .looping userId) :
      Move s (.hangUp t) .silent (s.goto t .done)
  | foundStream {t : θ} {q : Nat} (h : s.calls t = .leaving q) (hq : q ∈ s.mdStreams) :
      Move s (.checkStream t) .silent (s.goto t (.removing q))
  | foundNoStream {t : θ} {q : Nat} (h : s.calls t = .leaving q) (hq : q ∉ s.mdStreams) :
      Move s (.checkStream t) .silent (s.goto t .done)
  | removeStream {t : θ} {q : Nat} (h : s.calls t = .removing q) (hq : q ∈ s.mdStreams) :
      Move s (.removeStream t) (.left q)
        { s.goto t .done with mdStreams := s.mdStreams.erase q }
  | streamExecutions {t : θ} (userId : Nat) (h : s.calls t = .idle) :
      Move s (.streamExecutions t userId) .silent (s.goto t (.checking userId))
  | foundUser {t : θ} {userId q : Nat} (h : s.calls t = .checking userId)
      (hq : s.userQueues userId = some q) :
      Move s (.checkUser t) .silent (s.goto t (.looping userId))
  | foundNoUser {t : θ} {userId : Nat} (h : s.calls t = .checking userId)
      (hq : s.userQueues userId = none) :
      Move s (.checkUser t) .silent (s.goto t (.creating userId))
  | createUser {t : θ} {userId : Nat} (h : s.calls t = .creating userId) :
      Move s (.createUser t) (.bound userId s.created)
        ((s.bindUser userId).goto t (.looping userId))
  | lookUser {t : θ} {userId q : Nat} (h : s.calls t = .looping userId)
      (hq : s.userQueues userId = some q) :
      Move s (.lookUser t) .silent (s.goto t (.getting userId q))
  | getReport {t : θ} {userId q : Nat} {report : Execution} {rest : List Execution}
      (h : s.calls t = .getting userId q) (hq : s.reports q = report :: rest) :
      Move s (.getReport t) (.got t q report)
        { s.goto t (.looping userId) with reports := Function.update s.reports q rest }
  | noReport {t : θ} {userId q : Nat} (h : s.calls t = .getting userId q)
      (hq : s.reports q = []) :
      Move s (.noReport t) .silent (s.goto t (.looping userId))

/-- The call that a step is of, if it is not of the listener. -/
def Action.call? : Action θ → Option θ
  | .openStream t _ _ | .getSnapshot t | .noSnapshot t | .hangUp t | .checkStream t
  | .removeStream t | .streamExecutions t _ | .checkUser t | .createUser t | .lookUser t
  | .getReport t | .noReport t => some t
  | _ => none

/-- The snapshot that a step shows for a call. -/
def Output.shown (t : θ) : Output θ → List MarketDataSnapshot
  | .snapshot t' x => if t' = t then [x] else []
  | _ => []

/-- The report that a call got in a step, with the queue. -/
def Output.gotBy (t : θ) : Output θ → List (Nat × Execution)
  | .got t' q x => if t' = t then [(q, x)] else []
  | _ => []

variable {s s' : GatewayThreads θ} {a : Action θ} {o : Output θ}

theorem calls_goto_of_ne {t t' : θ} (h : t' ≠ t) (call : StreamCall) :
    (s.goto t' call).calls t = s.calls t := Function.update_of_ne (Ne.symm h) ..

/-- **Frame rule.** A step of another thread leaves a call where it is. -/
theorem Move.frame {t : θ} (hs : s.Move a o s') (h : a.call? ≠ some t) :
    s'.calls t = s.calls t ∧ o.shown t = [] ∧ o.gotBy t = [] := by
  have hne : ∀ t', some t' ≠ some t → t' ≠ t := fun t' hne heq => hne (congrArg some heq)
  cases hs with
  | @showSnapshot t' symbol once q snapshot rest hcall hq hsymbol =>
      have ht := hne t' h
      refine ⟨?_, if_neg ht, rfl⟩
      cases once
      · rfl
      · exact calls_goto_of_ne ht _
  | @noSnapshot t' symbol once q hcall hq =>
      refine ⟨?_, rfl, rfl⟩
      cases once
      · rfl
      · exact calls_goto_of_ne (hne t' h) _
  | getReport hcall hq => exact ⟨calls_goto_of_ne (hne _ h) _, rfl, if_neg (hne _ h)⟩
  | openStream _ _ hcall | streamExecutions _ hcall | hangUp hcall | endExecutions hcall
  | foundStream hcall _ | foundNoStream hcall _ | removeStream hcall _ | foundUser hcall _
  | foundNoUser hcall _ | createUser hcall | lookUser hcall _ | noReport hcall _ =>
      exact ⟨calls_goto_of_ne (hne _ h) _, rfl, rfl⟩
  | _ => exact ⟨rfl, rfl, rfl⟩

omit [DecidableEq θ] in
/-- A place that is not the one a step starts from. -/
theorem absurd_none {P : Prop} {x : Output θ × GatewayThreads θ} (h : none = some x) : P := by
  simp at h

theorem Move.of_listen (h : s.listen a = some (o, s')) : s.Move a o s' := by
  cases a with
  | handleSnapshot snapshot =>
      simp only [listen] at h
      split at h
      · rename_i hidle
        cases h
        exact .handleSnapshot snapshot hidle
      · exact absurd_none h
  | next =>
      simp only [listen] at h
      split at h
      · rename_i hlistener
        split at h
        · rename_i hq
          cases h
          exact .next hlistener hq
        · exact absurd_none h
      · exact absurd_none h
  | stop =>
      simp only [listen] at h
      split at h
      · rename_i hlistener
        split at h
        · rename_i hend
          cases h
          exact .stop hlistener hend
        · exact absurd_none h
      · exact absurd_none h
  | putSnapshot =>
      simp only [listen] at h
      split at h
      · rename_i hlistener
        cases h
        exact .putSnapshot hlistener
      · exact absurd_none h
  | handleExecution report =>
      simp only [listen] at h
      split at h
      · rename_i hidle
        cases h
        exact .handleExecution report hidle
      · exact absurd_none h
  | checkQueue =>
      simp only [listen] at h
      split at h
      · rename_i report hlistener
        cases h
        rcases hq : s.userQueues report.userId with _ | q
        · exact .foundNoQueue hlistener hq
        · exact .foundQueue hlistener hq
      · exact absurd_none h
  | createQueue =>
      simp only [listen] at h
      split at h
      · rename_i hlistener
        cases h
        exact .createQueue hlistener
      · exact absurd_none h
  | lookUp =>
      simp only [listen] at h
      split at h
      · rename_i hlistener
        split at h
        · rename_i hq
          cases h
          exact .lookUp hlistener hq
        · exact absurd_none h
      · exact absurd_none h
  | putReport =>
      simp only [listen] at h
      split at h
      · rename_i hlistener
        cases h
        exact .putReport hlistener
      · exact absurd_none h
  | _ => exact absurd_none h

theorem Move.of_serve (h : s.serve a = some (o, s')) : s.Move a o s' := by
  cases a with
  | openStream t symbol once =>
      simp only [serve] at h
      split at h
      · rename_i hcall
        cases h
        exact .openStream symbol once hcall
      · exact absurd_none h
  | getSnapshot t =>
      simp only [serve] at h
      split at h
      · rename_i symbol once q hcall
        split at h
        · exact absurd_none h
        · rename_i snapshot rest hq
          split at h
          · rename_i hsymbol
            cases h
            cases once
            · exact .showSnapshot hcall hq hsymbol
            · exact .showSnapshot hcall hq hsymbol
          · rename_i hsymbol
            cases h
            exact .skipSnapshot hcall hq hsymbol
      · exact absurd_none h
  | noSnapshot t =>
      simp only [serve] at h
      split at h
      · rename_i symbol once q hcall
        split at h
        · rename_i hq
          cases h
          cases once
          · exact .noSnapshot hcall hq
          · exact .noSnapshot hcall hq
        · exact absurd_none h
      · exact absurd_none h
  | hangUp t =>
      simp only [serve] at h
      split at h
      · rename_i hcall
        cases h
        exact .hangUp hcall
      · rename_i hcall
        cases h
        exact .endExecutions hcall
      · exact absurd_none h
  | checkStream t =>
      simp only [serve] at h
      split at h
      · rename_i q hcall
        cases h
        by_cases hq : q ∈ s.mdStreams
        · rw [if_pos hq]
          exact .foundStream hcall hq
        · rw [if_neg hq]
          exact .foundNoStream hcall hq
      · exact absurd_none h
  | removeStream t =>
      simp only [serve] at h
      split at h
      · rename_i hcall
        split at h
        · rename_i hq
          cases h
          exact .removeStream hcall hq
        · exact absurd_none h
      · exact absurd_none h
  | streamExecutions t userId =>
      simp only [serve] at h
      split at h
      · rename_i hcall
        cases h
        exact .streamExecutions userId hcall
      · exact absurd_none h
  | checkUser t =>
      simp only [serve] at h
      split at h
      · rename_i userId hcall
        cases h
        rcases hq : s.userQueues userId with _ | q
        · exact .foundNoUser hcall hq
        · exact .foundUser hcall hq
      · exact absurd_none h
  | createUser t =>
      simp only [serve] at h
      split at h
      · rename_i hcall
        cases h
        exact .createUser hcall
      · exact absurd_none h
  | lookUser t =>
      simp only [serve] at h
      split at h
      · rename_i hcall
        split at h
        · rename_i hq
          cases h
          exact .lookUser hcall hq
        · exact absurd_none h
      · exact absurd_none h
  | getReport t =>
      simp only [serve] at h
      split at h
      · rename_i hcall
        split at h
        · exact absurd_none h
        · rename_i hq
          cases h
          exact .getReport hcall hq
      · exact absurd_none h
  | noReport t =>
      simp only [serve] at h
      split at h
      · rename_i hcall
        split at h
        · rename_i hq
          cases h
          exact .noReport hcall hq
        · exact absurd_none h
      · exact absurd_none h
  | _ => exact absurd_none h

/-- **Every step is one of these moves.** -/
theorem Move.of_act (h : s.act a = some (o, s')) : s.Move a o s' := by
  unfold act at h
  cases hlisten : s.listen a with
  | none =>
      rw [hlisten] at h
      exact .of_serve h
  | some x =>
      rw [hlisten] at h
      exact .of_listen (hlisten.trans h)

end GatewayThreads

end OrderMatchingEngine
