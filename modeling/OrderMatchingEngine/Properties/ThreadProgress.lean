import OrderMatchingEngine.Refinement.Broadcasts
import OrderMatchingEngine.Refinement.Mailboxes

/-!
# OrderMatchingEngine.Properties.ThreadProgress

No thread of the service is ever in the way of another.

`self.md_streams.remove(client_queue)` would raise if another thread had taken the queue off the
list after `if client_queue in self.md_streams`, and `self.user_queues[user_id]` if the user had
lost the queue. Neither can happen: whatever the others have done, a thread that is under way can
take its next step.
-/

namespace OrderMatchingEngine

namespace GatewayThreads

variable {θ : Type} [DecidableEq θ] {tr : List (Action θ × Output θ)} {s s' : GatewayThreads θ}
  {a : Action θ} {o : Output θ}

/-- The call is in the loop of `StreamExecutions`. -/
def InReports (call : StreamCall) (userId : Nat) : Prop :=
  call = .looping userId ∨ ∃ q, call = .getting userId q

/-- Who is about to look a user up will find a queue. -/
structure LookUps (s : GatewayThreads θ) : Prop where
  listener : ∀ report, s.listener = .looking report → (s.userQueues report.userId).isSome
  calls : ∀ t userId, InReports (s.calls t) userId → (s.userQueues userId).isSome

/-- A user that has a queue always has one. -/
theorem Move.isSome (hs : s.Move a o s') {userId : Nat} (h : (s.userQueues userId).isSome) :
    (s'.userQueues userId).isSome := by
  rcases hs.binds with ⟨-, hqueues⟩ | ⟨userId', -, hqueues⟩
  · rwa [hqueues]
  · rw [hqueues]
    by_cases hu : userId = userId'
    · subst hu
      simp
    · rwa [Function.update_of_ne hu]

/-- A call gets into the loop with a queue. -/
theorem LookUps.own (h : LookUps s) (hs : s.Move a o s') {t : θ} (ht : a.call? = some t)
    {userId : Nat} (hcall : InReports (s'.calls t) userId) : (s'.userQueues userId).isSome := by
  have hgoto : ∀ call, InReports (Function.update s.calls t call t) userId →
      call = .looping userId ∨ ∃ q, call = .getting userId q := fun call hcall => by
    rwa [Function.update_self] at hcall
  cases hs with
  | @foundUser t' userId' q h' hq =>
      obtain rfl : t' = t := Option.some.inj ht
      obtain rfl : userId' = userId := by simpa using hgoto _ hcall
      exact Option.isSome_iff_exists.mpr ⟨q, hq⟩
  | @createUser t' userId' h' =>
      obtain rfl : t' = t := Option.some.inj ht
      obtain rfl : userId' = userId := by simpa using hgoto _ hcall
      simp [goto, bindUser]
  | @lookUser t' userId' q h' hq =>
      obtain rfl : t' = t := Option.some.inj ht
      obtain rfl : userId' = userId := by simpa using hgoto _ hcall
      exact Option.isSome_iff_exists.mpr ⟨q, hq⟩
  | @getReport t' userId' q _ _ h' _ | @noReport t' userId' q h' _ =>
      obtain rfl : t' = t := Option.some.inj ht
      obtain rfl : userId' = userId := by simpa using hgoto _ hcall
      exact h.calls t' _ (.inr ⟨q, h'⟩)
  | @showSnapshot t' _ once _ _ _ h' _ _ | @noSnapshot t' _ once _ h' _ =>
      obtain rfl : t' = t := Option.some.inj ht
      cases once with
      | true => simpa using hgoto _ hcall
      | false => simp [InReports, h'] at hcall
  | @skipSnapshot t' _ _ _ _ _ h' _ _ =>
      obtain rfl : t' = t := Option.some.inj ht
      simp [InReports, h'] at hcall
  | openStream _ _ h' | hangUp h' | endExecutions h' | foundStream h' _ | foundNoStream h' _
  | removeStream h' _ | streamExecutions _ h' | foundNoUser h' _ =>
      obtain rfl := Option.some.inj ht
      simpa using hgoto _ hcall
  | handleSnapshot _ _ | next _ _ | stop _ _ | putSnapshot _ | handleExecution _ _
  | foundQueue _ _ | foundNoQueue _ _ | createQueue _ | lookUp _ _ | putReport _ =>
      simp [Action.call?] at ht

theorem LookUps.step (h : LookUps s) (hs : s.Move a o s') : LookUps s' := by
  constructor
  · intro report hl
    have hkeep : ∀ userId, (s.userQueues userId).isSome → (s'.userQueues userId).isSome :=
      fun _ => hs.isSome
    cases hs with
    | foundQueue _ hq =>
        obtain rfl := GatewayListener.looking.inj hl
        exact Option.isSome_iff_exists.mpr ⟨_, hq⟩
    | createQueue _ =>
        obtain rfl := GatewayListener.looking.inj hl
        simp [bindUser]
    | handleSnapshot _ _ | next _ _ | stop _ _ | putSnapshot _ | handleExecution _ _
    | foundNoQueue _ _ | lookUp _ _ | putReport _ => simp at hl
    | _ => exact hkeep _ (h.listener report hl)
  · intro t userId hcall
    by_cases ht : a.call? = some t
    · exact h.own hs ht hcall
    · exact hs.isSome (h.calls t userId ((hs.frame ht).1 ▸ hcall))

theorem LookUps.of_run (hrun : Run tr s) : LookUps s := by
  induction hrun with
  | nil => exact ⟨by simp, by simp [InReports]⟩
  | snoc _ hs ih => exact ih.step (.of_act hs)

/-- **No thread is stuck.** The listener can take its next step unless it is in no handler, and a
call that is under way can take its next one, also if its client stays. -/
theorem no_thread_stuck (hrun : Run tr s) :
    (s.listener ≠ .idle → ∃ a : Action θ, (s.listen a).isSome) ∧
    ∀ t, s.calls t ≠ .idle → s.calls t ≠ .done →
      ∃ a, a.call? = some t ∧ a ≠ .hangUp t ∧ (s.serve a).isSome := by
  have hstreams := Streams.of_run hrun
  have hlookups := LookUps.of_run hrun
  constructor
  · intro hidle
    rcases hl : s.listener with _ | ⟨snapshot, index⟩ | ⟨snapshot, index, q⟩ | report | report |
      report | ⟨report, q⟩
    · exact absurd hl hidle
    · rcases hq : s.mdStreams[index]? with _ | q
      · exact ⟨.stop, by simp [listen, hl, List.getElem?_eq_none_iff.mp hq]⟩
      · exact ⟨.next, by simp [listen, hl, hq]⟩
    · exact ⟨.putSnapshot, by simp [listen, hl]⟩
    · exact ⟨.checkQueue, by simp [listen, hl]⟩
    · exact ⟨.createQueue, by simp [listen, hl]⟩
    · obtain ⟨q, hq⟩ := Option.isSome_iff_exists.mp (hlookups.listener report hl)
      exact ⟨.lookUp, by simp [listen, hl, hq]⟩
    · exact ⟨.putReport, by simp [listen, hl]⟩
  · intro t hidle hdone
    rcases hcall : s.calls t with _ | ⟨symbol, once, q⟩ | q | q | userId | userId | userId |
      ⟨userId, q⟩ | _
    · exact absurd hcall hidle
    · rcases hq : s.snapshots q with _ | ⟨snapshot, rest⟩
      · exact ⟨.noSnapshot t, rfl, by simp, by simp [serve, hcall, hq]⟩
      · refine ⟨.getSnapshot t, rfl, by simp, ?_⟩
        by_cases hsymbol : snapshot.symbol = symbol <;> simp [serve, hcall, hq, hsymbol]
    · exact ⟨.checkStream t, rfl, by simp, by simp [serve, hcall]⟩
    · have hmem : q ∈ s.mdStreams := (hstreams.mem q).mpr ⟨t, by rw [hcall]; rfl⟩
      exact ⟨.removeStream t, rfl, by simp, by simp [serve, hcall, hmem]⟩
    · exact ⟨.checkUser t, rfl, by simp, by simp [serve, hcall]⟩
    · exact ⟨.createUser t, rfl, by simp, by simp [serve, hcall]⟩
    · obtain ⟨q, hq⟩ := Option.isSome_iff_exists.mp (hlookups.calls t userId (.inl hcall))
      exact ⟨.lookUser t, rfl, by simp, by simp [serve, hcall, hq]⟩
    · rcases hq : s.reports q with _ | ⟨report, rest⟩
      · exact ⟨.noReport t, rfl, by simp, by simp [serve, hcall, hq]⟩
      · exact ⟨.getReport t, rfl, by simp, by simp [serve, hcall, hq]⟩
    · exact absurd hcall hdone

/-- A stream takes itself off the list while the listener has its queue in hand. -/
theorem no_thread_stuck_leaving : ∃ s : GatewayThreads Unit,
    s.calls () = .removing 0 ∧ s.listener = .putting { symbol := "A" } 1 0 ∧
      (∃ a : Action Unit, (s.listen a).isSome) ∧
      ∃ a, a.call? = some () ∧ a ≠ .hangUp () ∧ (s.serve a).isSome := by
  have hexec : Trace.exec act [.openStream () "A" false, .handleSnapshot { symbol := "A" }, .next,
    .hangUp (), .checkStream ()] ({} : GatewayThreads Unit) = some (_, _) := rfl
  obtain ⟨hlistener, hcalls⟩ := no_thread_stuck (.of_exec hexec)
  exact ⟨_, rfl, rfl, hlistener (by decide), hcalls () (by decide) (by decide)⟩

end GatewayThreads

end OrderMatchingEngine
