import Mathlib.Data.List.Pairwise
import OrderMatchingEngine.Library.Delivery
import OrderMatchingEngine.Refinement.Threads

/-!
# OrderMatchingEngine.Refinement.Mailboxes

What is true of `user_queues` whatever the threads do.

A user can get more than one queue, one after the other: between `if user_id not in
self.user_queues` and the assignment another thread can make the same assignment. A queue has only
ever been of one user, the reports come out of it in the order in which they went in, and the
listener never goes back to a queue that a later one has replaced (`Mailboxes`). What one call of
`StreamExecutions` has got is `Stream`.
-/

namespace OrderMatchingEngine

open GatewayService (Execution)

/-- The report that `handle_execution` is about to put into a queue. -/
def GatewayListener.report? : GatewayListener → Option Execution
  | .checking report | .creating report | .looking report | .reporting report _ => some report
  | _ => none

/-- The user of a call of `StreamExecutions`. -/
def StreamCall.user? : StreamCall → Option Nat
  | .checking userId | .creating userId | .looping userId | .getting userId _ => some userId
  | _ => none

namespace GatewayThreads

variable {θ : Type}

/-- The report that a step begins to handle. -/
def Action.handles : Action θ → List Execution
  | .handleExecution report => [report]
  | _ => []

/-- The queue that a step creates for a user. -/
def Output.binds : Output θ → List (Nat × Nat)
  | .bound userId q => [(userId, q)]
  | _ => []

/-- The report that a step puts into a queue. -/
def Output.puts : Output θ → List (Nat × Execution)
  | .put q report => [(q, report)]
  | _ => []

/-- The report that a step gets from a queue. -/
def Output.gets : Output θ → List (Nat × Execution)
  | .got _ q report => [(q, report)]
  | _ => []

def handled (tr : List (Action θ × Output θ)) : List Execution := tr.flatMap fun x => x.1.handles

def binds (tr : List (Action θ × Output θ)) : List (Nat × Nat) := tr.flatMap fun x => x.2.binds

def puts (tr : List (Action θ × Output θ)) : List (Nat × Execution) :=
  tr.flatMap fun x => x.2.puts

def gets (tr : List (Action θ × Output θ)) : List (Nat × Execution) :=
  tr.flatMap fun x => x.2.gets

/-- The reports that went through a queue. -/
def through (q : Nat) (log : List (Nat × Execution)) : List Execution :=
  (log.filter fun x => x.1 = q).map Prod.snd

/-- **The queues of the users.** -/
structure Mailboxes (tr : List (Action θ × Output θ)) (s : GatewayThreads θ) : Prop where
  /-- First in, first out. -/
  fifo : ∀ q, through q (gets tr) ++ s.reports q = through q (puts tr)
  handled : handled tr = (puts tr).map Prod.snd ++ s.listener.report?.toList
  lt : ∀ x ∈ binds tr, x.2 < s.created
  /-- A queue is of one user. -/
  owner : ∀ x ∈ binds tr, ∀ y ∈ binds tr, x.2 = y.2 → x.1 = y.1
  current : ∀ userId q, s.userQueues userId = some q →
    (userId, q) ∈ binds tr ∧ ∀ q', (userId, q') ∈ binds tr → q' ≤ q
  put_bound : ∀ x ∈ puts tr, (x.2.userId, x.1) ∈ binds tr
  /-- The listener does not go back. -/
  put_sorted : ∀ userId,
    ((puts tr).filter fun x => x.2.userId = userId).Pairwise fun x y => x.1 ≤ y.1
  reporting : ∀ report q, s.listener = .reporting report q → (report.userId, q) ∈ binds tr ∧
    ∀ x ∈ puts tr, x.2.userId = report.userId → x.1 ≤ q

/-- What the call `t` for the user has got from the queues. -/
structure Stream (t : θ) (userId : Nat) (got : List (Nat × Execution))
    (tr : List (Action θ × Output θ)) (s : GatewayThreads θ) : Prop where
  place : (s.calls t).user? = some userId ∨ s.calls t = .done
  sublist : got.Sublist (gets tr)
  bound : ∀ x ∈ got, (userId, x.1) ∈ binds tr
  sorted : got.Pairwise fun x y => x.1 ≤ y.1
  getting : ∀ q, s.calls t = .getting userId q → (userId, q) ∈ binds tr ∧ ∀ x ∈ got, x.1 ≤ q

section Logs

variable (tr : List (Action θ × Output θ)) (x : Action θ × Output θ)

@[simp] theorem handled_snoc : handled (tr ++ [x]) = handled tr ++ x.1.handles := by simp [handled]

@[simp] theorem binds_snoc : binds (tr ++ [x]) = binds tr ++ x.2.binds := by simp [binds]

@[simp] theorem puts_snoc : puts (tr ++ [x]) = puts tr ++ x.2.puts := by simp [puts]

@[simp] theorem gets_snoc : gets (tr ++ [x]) = gets tr ++ x.2.gets := by simp [gets]

theorem through_append (q : Nat) (log log' : List (Nat × Execution)) :
    through q (log ++ log') = through q log ++ through q log' := by simp [through]

end Logs

/-- A step gives one user a new queue or none. -/
theorem Move.binds [DecidableEq θ] {s s' : GatewayThreads θ} {a : Action θ} {o : Output θ}
    (hs : s.Move a o s') : o.binds = [] ∧ s'.userQueues = s.userQueues ∨
      ∃ userId, o.binds = [(userId, s.created)] ∧
        s'.userQueues = Function.update s.userQueues userId (some s.created) := by
  cases hs with
  | createQueue hl => exact .inr ⟨_, rfl, rfl⟩
  | createUser hcall => exact .inr ⟨_, rfl, rfl⟩
  | _ => exact .inl ⟨rfl, rfl⟩

namespace Mailboxes

variable {tr : List (Action θ × Output θ)} {s s' : GatewayThreads θ} {a : Action θ} {o : Output θ}

theorem start : Mailboxes [] ({} : GatewayThreads θ) where
  fifo q := rfl
  handled := rfl
  lt x hx := by simp [binds] at hx
  owner x hx := by simp [binds] at hx
  current userId q h := by simp at h
  put_bound x hx := by simp [puts] at hx
  put_sorted userId := .nil
  reporting report q h := by simp at h

/-- A step that is not about the queues of the users. -/
theorem frame (h : Mailboxes tr s) {x : Action θ × Output θ} (hreports : s'.reports = s.reports)
    (hqueues : s'.userQueues = s.userQueues) (hcreated : s.created ≤ s'.created)
    (hbinds : x.2.binds = []) (hputs : x.2.puts = []) (hgets : x.2.gets = [])
    (hhandles : s.listener.report?.toList ++ x.1.handles = s'.listener.report?.toList)
    (hreporting : ∀ report q, s'.listener = .reporting report q →
      s.listener = .reporting report q ∨ s.userQueues report.userId = some q) :
    Mailboxes (tr ++ [x]) s' := by
  have hb : binds (tr ++ [x]) = binds tr := by rw [binds_snoc, hbinds, List.append_nil]
  have hp : puts (tr ++ [x]) = puts tr := by rw [puts_snoc, hputs, List.append_nil]
  have hg : gets (tr ++ [x]) = gets tr := by rw [gets_snoc, hgets, List.append_nil]
  refine ⟨?_, ?_, ?_, ?_, ?_, ?_, ?_, ?_⟩
  · rw [hp, hg, hreports]
    exact h.fifo
  · rw [handled_snoc, h.handled, hp, List.append_assoc, hhandles]
  · rw [hb]
    exact fun x hx => (h.lt x hx).trans_le hcreated
  · rw [hb]
    exact h.owner
  · rw [hb, hqueues]
    exact h.current
  · rw [hb, hp]
    exact h.put_bound
  · rw [hp]
    exact h.put_sorted
  · rw [hb, hp]
    intro report q hl
    rcases hreporting report q hl with hl | hq
    · exact h.reporting report q hl
    · obtain ⟨hmem, hmax⟩ := h.current _ q hq
      exact ⟨hmem, fun x hx hu => hmax _ (hu ▸ h.put_bound x hx)⟩

/-- A user gets a new queue. -/
theorem bind (h : Mailboxes tr s) {x : Action θ × Output θ} {userId : Nat}
    (hreports : s'.reports = s.reports)
    (hqueues : s'.userQueues = Function.update s.userQueues userId (some s.created))
    (hcreated : s'.created = s.created + 1) (hbinds : x.2.binds = [(userId, s.created)])
    (hputs : x.2.puts = []) (hgets : x.2.gets = [])
    (hhandles : s.listener.report?.toList ++ x.1.handles = s'.listener.report?.toList)
    (hreporting : ∀ report q, s'.listener = .reporting report q →
      s.listener = .reporting report q) : Mailboxes (tr ++ [x]) s' := by
  have hb : binds (tr ++ [x]) = binds tr ++ [(userId, s.created)] := by rw [binds_snoc, hbinds]
  have hp : puts (tr ++ [x]) = puts tr := by rw [puts_snoc, hputs, List.append_nil]
  have hg : gets (tr ++ [x]) = gets tr := by rw [gets_snoc, hgets, List.append_nil]
  refine ⟨?_, ?_, ?_, ?_, ?_, ?_, ?_, ?_⟩
  · rw [hp, hg, hreports]
    exact h.fifo
  · rw [handled_snoc, h.handled, hp, List.append_assoc, hhandles]
  · intro y hy
    rw [hcreated]
    rcases List.mem_append.mp (hb ▸ hy) with hy | hy
    · exact (h.lt y hy).trans (Nat.lt_succ_self _)
    · exact List.mem_singleton.mp hy ▸ Nat.lt_succ_self _
  · intro y hy z hz hyz
    rcases List.mem_append.mp (hb ▸ hy) with hy | hy <;>
      rcases List.mem_append.mp (hb ▸ hz) with hz | hz
    · exact h.owner y hy z hz hyz
    · rw [List.mem_singleton.mp hz] at hyz
      exact absurd hyz (h.lt y hy).ne
    · rw [List.mem_singleton.mp hy] at hyz
      exact absurd hyz (h.lt z hz).ne'
    · rw [List.mem_singleton.mp hy, List.mem_singleton.mp hz]
  · intro userId' q hq
    rw [hb]
    rw [hqueues] at hq
    by_cases hu : userId' = userId
    · subst hu
      rw [Function.update_self] at hq
      obtain rfl := Option.some.inj hq
      refine ⟨List.mem_append_right _ (List.mem_singleton_self _), fun q' hq' => ?_⟩
      rcases List.mem_append.mp hq' with hq' | hq'
      · exact (h.lt _ hq').le
      · exact (Prod.mk.inj (List.mem_singleton.mp hq')).2.le
    · rw [Function.update_of_ne hu] at hq
      obtain ⟨hmem, hmax⟩ := h.current userId' q hq
      refine ⟨List.mem_append_left _ hmem, fun q' hq' => ?_⟩
      rcases List.mem_append.mp hq' with hq' | hq'
      · exact hmax q' hq'
      · exact absurd (Prod.mk.inj (List.mem_singleton.mp hq')).1 hu
  · rw [hb, hp]
    exact fun y hy => List.mem_append_left _ (h.put_bound y hy)
  · rw [hp]
    exact h.put_sorted
  · rw [hb, hp]
    intro report q hl
    obtain ⟨hmem, hmax⟩ := h.reporting report q (hreporting report q hl)
    exact ⟨List.mem_append_left _ hmem, hmax⟩

/-- The listener puts a report into the queue that it has looked up. -/
theorem put (h : Mailboxes tr s) {x : Action θ × Output θ} {report : Execution} {q : Nat}
    (hl : s.listener = .reporting report q)
    (hreports : s'.reports = Function.update s.reports q (s.reports q ++ [report]))
    (hqueues : s'.userQueues = s.userQueues) (hcreated : s'.created = s.created)
    (hbinds : x.2.binds = []) (hputs : x.2.puts = [(q, report)]) (hgets : x.2.gets = [])
    (hhandles : x.1.handles = []) (hidle : s'.listener = .idle) : Mailboxes (tr ++ [x]) s' := by
  have hb : binds (tr ++ [x]) = binds tr := by rw [binds_snoc, hbinds, List.append_nil]
  have hp : puts (tr ++ [x]) = puts tr ++ [(q, report)] := by rw [puts_snoc, hputs]
  have hg : gets (tr ++ [x]) = gets tr := by rw [gets_snoc, hgets, List.append_nil]
  obtain ⟨hmem, hmax⟩ := h.reporting report q hl
  refine ⟨fun q' => ?_, ?_, ?_, ?_, ?_, ?_, fun userId => ?_, ?_⟩
  · rw [hp, hg, hreports, through_append, ← h.fifo]
    by_cases hq : q' = q
    · subst hq
      simp [through]
    · simp [through, hq, Ne.symm hq]
  · rw [handled_snoc, h.handled, hp, hhandles, hl, hidle]
    simp [GatewayListener.report?]
  · rw [hb, hcreated]
    exact h.lt
  · rw [hb]
    exact h.owner
  · rw [hb, hqueues]
    exact h.current
  · rw [hb, hp]
    intro y hy
    rcases List.mem_append.mp hy with hy | hy
    · exact h.put_bound y hy
    · exact List.mem_singleton.mp hy ▸ hmem
  · rw [hp, List.filter_append]
    refine List.pairwise_append.mpr ⟨h.put_sorted userId, ?_, fun y hy z hz => ?_⟩
    · exact (List.pairwise_singleton _ _).filter _
    · obtain ⟨hz, huser⟩ := List.mem_filter.mp hz
      obtain ⟨hy, huser'⟩ := List.mem_filter.mp hy
      rw [List.mem_singleton.mp hz] at huser ⊢
      exact hmax y hy ((of_decide_eq_true huser').trans (of_decide_eq_true huser).symm)
  · rw [hidle]
    simp

/-- A call gets the first report of a queue. -/
theorem get (h : Mailboxes tr s) {x : Action θ × Output θ} {report : Execution} {q : Nat}
    {rest : List Execution} (hq : s.reports q = report :: rest)
    (hreports : s'.reports = Function.update s.reports q rest)
    (hqueues : s'.userQueues = s.userQueues) (hcreated : s'.created = s.created)
    (hbinds : x.2.binds = []) (hputs : x.2.puts = []) (hgets : x.2.gets = [(q, report)])
    (hhandles : x.1.handles = []) (hl : s'.listener = s.listener) : Mailboxes (tr ++ [x]) s' := by
  have hb : binds (tr ++ [x]) = binds tr := by rw [binds_snoc, hbinds, List.append_nil]
  have hp : puts (tr ++ [x]) = puts tr := by rw [puts_snoc, hputs, List.append_nil]
  have hg : gets (tr ++ [x]) = gets tr ++ [(q, report)] := by rw [gets_snoc, hgets]
  refine ⟨fun q' => ?_, ?_, ?_, ?_, ?_, ?_, ?_, ?_⟩
  · rw [hp, hg, hreports, through_append, ← h.fifo, List.append_assoc]
    by_cases hq' : q' = q
    · subst hq'
      simp [through, hq]
    · simp [through, hq', Ne.symm hq']
  · rw [handled_snoc, h.handled, hp, hhandles, hl, List.append_nil]
  · rw [hb, hcreated]
    exact h.lt
  · rw [hb]
    exact h.owner
  · rw [hb, hqueues]
    exact h.current
  · rw [hb, hp]
    exact h.put_bound
  · rw [hp]
    exact h.put_sorted
  · rw [hb, hp, hl]
    exact h.reporting

variable [DecidableEq θ]

/-- **One step.** -/
theorem step (h : Mailboxes tr s) (hs : s.Move a o s') : Mailboxes (tr ++ [(a, o)]) s' := by
  cases hs with
  | createQueue hl =>
      exact h.bind rfl rfl rfl rfl rfl rfl (by rw [hl]; rfl) (by simp)
  | createUser hcall =>
      exact h.bind rfl rfl rfl rfl rfl rfl (List.append_nil _) fun _ _ => id
  | putReport hl =>
      exact h.put hl rfl rfl rfl rfl rfl rfl rfl rfl
  | getReport hcall hq =>
      exact h.get hq rfl rfl rfl rfl rfl rfl rfl rfl
  | lookUp hl hq =>
      refine h.frame rfl rfl (Nat.le_refl _) rfl rfl rfl (by rw [hl]; rfl) fun report q hr => ?_
      obtain ⟨rfl, rfl⟩ := GatewayListener.reporting.inj hr
      exact .inr hq
  | handleSnapshot _ hl | next hl _ | stop hl _ | putSnapshot hl | handleExecution _ hl
  | foundQueue hl _ | foundNoQueue hl _ =>
      exact h.frame rfl rfl (Nat.le_refl _) rfl rfl rfl (by rw [hl]; rfl) (by simp)
  | openStream _ _ hcall =>
      exact h.frame rfl rfl (Nat.le_succ _) rfl rfl rfl (List.append_nil _) fun _ _ => .inl
  | _ => exact h.frame rfl rfl (Nat.le_refl _) rfl rfl rfl (List.append_nil _) fun _ _ => .inl

/-- **Every run** keeps the queues like this. -/
theorem of_run (h : Run tr s) : Mailboxes tr s := by
  induction h with
  | nil => exact .start
  | snoc _ hs ih => exact ih.step (.of_act hs)

omit [DecidableEq θ] in
/-- What was got from a queue is the beginning of what was put into it. -/
theorem gets_filter (h : Mailboxes tr s) (q : Nat) :
    ((gets tr).filter fun x => x.1 = q) <+: (puts tr).filter fun x => x.1 = q := by
  have hpairs : ∀ log : List (Nat × Execution),
      (log.filter fun x => x.1 = q) = (through q log).map fun report => (q, report) := by
    intro log
    rw [through, List.map_map]
    refine (List.map_id _).symm.trans (List.map_congr_left fun x hx => ?_)
    have hq : x.1 = q := by simpa using (List.mem_filter.mp hx).2
    exact Prod.ext hq rfl
  rw [hpairs, hpairs, ← h.fifo, List.map_append]
  exact List.prefix_append ..

omit [DecidableEq θ] in
/-- All reports in a queue of a user are the user's. -/
theorem filter_owner (h : Mailboxes tr s) {userId q : Nat} (hq : (userId, q) ∈ binds tr) :
    (((puts tr).filter fun x => x.2.userId = userId).filter fun x => x.1 = q) =
      (puts tr).filter fun x => x.1 = q := by
  rw [List.filter_filter]
  refine List.filter_congr fun x hx => ?_
  by_cases hxq : x.1 = q
  · have huser : x.2.userId = userId := h.owner _ (h.put_bound x hx) _ hq hxq
    simp [hxq, huser]
  · simp [hxq]

end Mailboxes

namespace Stream

variable {t : θ} {userId : Nat} {got : List (Nat × Execution)} {tr : List (Action θ × Output θ)}
  {s s' : GatewayThreads θ} {a : Action θ} {o : Output θ}

/-- A step in which the call gets nothing. -/
theorem keep (h : Stream t userId got tr s) (x : Action θ × Output θ)
    (hplace : (s'.calls t).user? = some userId ∨ s'.calls t = .done)
    (hgetting : ∀ q, s'.calls t = .getting userId q →
      (userId, q) ∈ binds tr ∧ ∀ x ∈ got, x.1 ≤ q) : Stream t userId got (tr ++ [x]) s' := by
  refine ⟨hplace, ?_, fun y hy => ?_, h.sorted, fun q hq => ?_⟩
  · rw [gets_snoc]
    exact h.sublist.trans (List.sublist_append_left ..)
  · rw [binds_snoc]
    exact List.mem_append_left _ (h.bound y hy)
  · obtain ⟨hmem, hmax⟩ := hgetting q hq
    rw [binds_snoc]
    exact ⟨List.mem_append_left _ hmem, hmax⟩

/-- The call is with its user. -/
theorem user (h : Stream t userId got tr s) {call : StreamCall} {userId' : Nat}
    (hcall : s.calls t = call) (huser : call.user? = some userId') : userId' = userId := by
  rcases h.place with hplace | hdone
  · rw [hcall, huser] at hplace
    exact Option.some.inj hplace
  · rw [hdone] at hcall
    subst hcall
    simp [StreamCall.user?] at huser

/-- The call moves on, but not to a queue. -/
theorem moved (h : Stream t userId got tr s) (x : Action θ × Output θ) {call : StreamCall}
    (hs' : s'.calls t = call) (hplace : call.user? = some userId ∨ call = .done)
    (hnot : ∀ q, call ≠ .getting userId q) : Stream t userId (got ++ []) (tr ++ [x]) s' := by
  rw [List.append_nil]
  exact h.keep x (hs' ▸ hplace) fun q hq => absurd (hs'.symm.trans hq) (hnot q)

variable [DecidableEq θ]

/-- **One step.** -/
theorem step (hm : Mailboxes tr s) (h : Stream t userId got tr s) (hs : s.Move a o s') :
    Stream t userId (got ++ o.gotBy t) (tr ++ [(a, o)]) s' := by
  by_cases ht : a.call? = some t
  · cases hs with
    | foundUser hcall _ | foundNoUser hcall _ | createUser hcall | noReport hcall _ =>
        obtain rfl := Option.some.inj ht
        obtain rfl := h.user hcall rfl
        exact h.moved _ (Function.update_self ..) (.inl rfl) (by simp)
    | endExecutions hcall =>
        obtain rfl := Option.some.inj ht
        exact h.moved _ (Function.update_self ..) (.inr rfl) (by simp)
    | @lookUser t' userId' q hcall hq =>
        obtain rfl : t' = t := Option.some.inj ht
        obtain rfl := h.user hcall rfl
        obtain ⟨hmem, hmax⟩ := hm.current userId' q hq
        have hs' : (s.goto t' (.getting userId' q)).calls t' = .getting userId' q :=
          Function.update_self ..
        rw [show (Output.silent : Output θ).gotBy t' = [] from rfl, List.append_nil]
        refine h.keep _ (.inl (by rw [hs']; rfl)) fun q' hq' => ?_
        obtain ⟨-, rfl⟩ := StreamCall.getting.inj (hs'.symm.trans hq')
        exact ⟨hmem, fun x hx => hmax x.1 (h.bound x hx)⟩
    | @getReport t' userId' q report rest hcall hq =>
        obtain rfl : t' = t := Option.some.inj ht
        obtain rfl := h.user hcall rfl
        obtain ⟨hmem, hmax⟩ := h.getting q hcall
        have hgot : (Output.got t' q report).gotBy t' = [(q, report)] := if_pos rfl
        rw [hgot]
        refine ⟨.inl ?_, ?_, fun x hx => ?_, ?_, fun q' hq' => ?_⟩
        · show (Function.update s.calls t' (.looping userId') t').user? = some userId'
          rw [Function.update_self]
          rfl
        · rw [gets_snoc]
          exact h.sublist.append (List.Sublist.refl _)
        · rw [binds_snoc]
          refine List.mem_append_left _ ?_
          rcases List.mem_append.mp hx with hx | hx
          · exact h.bound x hx
          · exact List.mem_singleton.mp hx ▸ hmem
        · refine List.pairwise_append.mpr
            ⟨h.sorted, List.pairwise_singleton _ _, fun x hx y hy => ?_⟩
          exact List.mem_singleton.mp hy ▸ hmax x hx
        · exact absurd ((Function.update_self ..).symm.trans hq') (by simp)
    | handleSnapshot _ _ | next _ _ | stop _ _ | putSnapshot _ | handleExecution _ _
    | foundQueue _ _ | foundNoQueue _ _ | createQueue _ | lookUp _ _ | putReport _ =>
        simp [Action.call?] at ht
    | openStream _ _ hcall | showSnapshot hcall _ _ | skipSnapshot hcall _ _ | noSnapshot hcall _
    | hangUp hcall | foundStream hcall _ | foundNoStream hcall _ | removeStream hcall _
    | streamExecutions _ hcall =>
        obtain rfl := Option.some.inj ht
        have hplace := h.place
        simp [hcall, StreamCall.user?] at hplace
  · obtain ⟨hsame, -, hgot⟩ := hs.frame ht
    rw [hgot, List.append_nil]
    exact h.keep _ (hsame ▸ h.place) fun q hq => h.getting q (hsame ▸ hq)

end Stream

end GatewayThreads

end OrderMatchingEngine
