import OrderMatchingEngine.Refinement.LogProgress

/-!
# OrderMatchingEngine.Properties.LogWakeUps

Does the worker of the logger always wake up?

All threads sleep at one condition variable. `notify_one` may wake a `flush` that goes back to
sleep, and the worker sleeps on. `exit_flag_` is set without the mutex, so `notify_all` may come
after the worker has looked at the flag and before it sleeps. In a run in which neither happens, and
in which no line is pushed after the worker has left, the worker misses nothing, and every `flush`
and the destructor come to an end (`worker_wakes`).
-/

namespace OrderMatchingEngine

open Monitor (Wait)
open Logger

namespace Logger

variable {θ : Type}

/-! ### Wake-ups -/

/-- The worker sleeps, or has found its predicate false and sleeps next. -/
def Parked (s : Logger θ) : Prop := .worker ∈ s.cv ∨ s.worker = .waiting .parking

/-- A thread has changed what the worker waits for, and notifies next. -/
def AboutToNotify (s : Logger θ) : Prop :=
  (∃ t, s.clients t = .notifying) ∨ s.destructor = .notifying

/-- The worker sleeps while its predicate is true, and no thread is about to notify. -/
def Missed (s : Logger θ) : Prop :=
  .worker ∈ s.cv ∧ s.predicate .worker = true ∧ ¬ s.AboutToNotify

/-- The worker has left, and there is a line in the queue. -/
def Abandoned (s : Logger θ) : Prop := s.worker = .exited ∧ s.logQueue ≠ []

/-- No thread is in `flush`, or in the destructor. -/
def Returned (s : Logger θ) : Prop :=
  (∀ t w, s.clients t ≠ .flushing w) ∧ (s.destructor = .before ∨ s.destructor = .done)

/-- The condition on the steps. A notification that the worker needs wakes it, or another thread is
about to notify as well. No line is pushed once the worker has left. -/
def Heeded (s : Logger θ) : Step θ → Prop
  | .notifyOne t woken => s.Parked → s.predicate .worker = true →
      woken = some .worker ∨ (∃ u, u ≠ t ∧ s.clients u = .notifying) ∨ s.destructor = .notifying
  | .notifyExit => s.Parked → s.predicate .worker = true →
      .worker ∈ s.cv ∨ ∃ t, s.clients t = .notifying
  | .push _ => s.worker ≠ .exited
  | _ => True

/-- No notification is missing, and no line is left behind. -/
structure Heard (s : Logger θ) : Prop where
  owing : s.Parked → s.predicate .worker = true → s.AboutToNotify
  drained : s.worker = .exited → s.logQueue = []

theorem Heard.start (isOpen : Bool) : (start θ isOpen).Heard where
  owing _ hpredicate := by simp [predicate, Logger.start] at hpredicate
  drained _ := rfl

theorem Heard.not_missed {s : Logger θ} (h : s.Heard) : ¬ s.Missed :=
  fun ⟨hcv, hpredicate, hnobody⟩ => hnobody (h.owing (.inl hcv) hpredicate)

/-- A worker that sleeps is in `wait`, at its mutex. -/
theorem Sound.asleep_worker {s : Logger θ} (h : s.Sound) (hcv : .worker ∈ s.cv) :
    s.worker = .waiting .locking :=
  waits?_worker.mp (h.asleep _ hcv)

theorem Sound.awake_worker {s : Logger θ} {place : ProcessLogs} (h : s.Sound)
    (hworker : s.worker = place) (hplace : place ≠ .waiting .locking) : .worker ∉ s.cv :=
  fun hcv => hplace (hworker.symm.trans (h.asleep_worker hcv))

variable [DecidableEq θ] {s s' : Logger θ} {a : Step θ} {e : Effect}

/-- A run whose steps meet the condition. -/
abbrev HeededRun (s₀ : Logger θ) (tr : List (Step θ × Effect)) (s : Logger θ) : Prop :=
  Trace.Run (Trace.guarded Heeded (Trace.ofFun step)) s₀ tr s

/-- One more step. -/
theorem HeededRun.next {s₀ : Logger θ} {tr : List (Step θ × Effect)} (h : HeededRun s₀ tr s)
    (a : Step θ) (hheeded : s.Heeded a) (hs : s.step a = some (e, s')) :
    HeededRun s₀ (tr ++ [(a, e)]) s' :=
  h.snoc ⟨hheeded, hs⟩

/-- A client that notifies next does so by a step of its own. -/
theorem Moves.notifying (hm : s.Moves a e s') {t : θ} (ht : s.clients t = .notifying) :
    s'.clients t = .notifying ∨ ∃ woken, a = .notifyOne t woken := by
  cases hm with
  | @notifyOne u woken cv hnotifying hnotify =>
      by_cases hu : t = u
      · exact .inr ⟨woken, by rw [hu]⟩
      · exact .inl ((Function.update_of_ne hu _ _).trans ht)
  | _ => grind [Function.update_apply]

/-- So does the destructor. -/
theorem Moves.exiting (hm : s.Moves a e s') (h : s.destructor = .notifying) :
    s'.destructor = .notifying ∨ a = .notifyExit := by
  cases hm <;> simp_all

theorem Moves.about (hm : s.Moves a e s') (h : s.AboutToNotify) :
    s'.AboutToNotify ∨ (∃ t woken, a = .notifyOne t woken) ∨ a = .notifyExit := by
  rcases h with ⟨t, ht⟩ | hexit
  · rcases hm.notifying ht with hstill | ⟨woken, ha⟩
    · exact .inl (.inl ⟨t, hstill⟩)
    · exact .inr (.inl ⟨t, woken, ha⟩)
  · rcases hm.exiting hexit with hstill | ha
    · exact .inl (.inr hstill)
    · exact .inr (.inr ha)

/-- What makes the predicate true while the worker is parked is followed by a notification. -/
theorem Moves.needed (hm : s.Moves a e s') (hsound : s.Sound) (hparked : s'.Parked)
    (hpredicate : s'.predicate .worker = true) :
    s'.AboutToNotify ∨ s.Parked ∧ s.predicate .worker = true := by
  cases hm with
  | push hpushing hfree => exact .inl (.inl ⟨_, Function.update_self _ _ _⟩)
  | setExitFlag hbefore => exact .inl (.inr rfl)
  | parkWorker hworker hqueue hexit => simp [predicate, hqueue, hexit] at hpredicate
  | sleepWorker hworker => exact .inr ⟨.inr hworker, hpredicate⟩
  | notifyOne hnotifying hnotify =>
      exact .inr ⟨hparked.imp_left fun hcv => ((Monitor.mem_of_notifyOne hnotify _).mp hcv).1,
        hpredicate⟩
  | wakeSpuriously hx => exact .inr ⟨hparked.imp_left Finset.mem_of_mem_erase, hpredicate⟩
  | notifyExit hnotifying => exact .inr ⟨.inr (by simpa [Parked] using hparked), hpredicate⟩
  | sleepClient hflushing => exact .inr ⟨by simpa [Parked] using hparked, hpredicate⟩
  | lockWorker hworker hfree hawake => simp [Parked, hawake] at hparked
  | drain hworker _ | pop hworker _ | write hworker | relock hworker _ | notifyAll hworker _
  | again hworker _ | exit hworker _ =>
      have hawake := hsound.awake_worker hworker (by simp)
      simp [Parked, hawake] at hparked
  | _ => exact .inr ⟨hparked, hpredicate⟩

theorem Heard.owing_moves (h : s.Heard) (hsound : s.Sound) (hheeded : s.Heeded a)
    (hm : s.Moves a e s') (hparked : s'.Parked) (hpredicate : s'.predicate .worker = true) :
    s'.AboutToNotify := by
  rcases hm.needed hsound hparked hpredicate with habout | ⟨hparked₀, hpredicate₀⟩
  · exact habout
  · rcases hm.about (h.owing hparked₀ hpredicate₀) with habout | ⟨t, woken, rfl⟩ | rfl
    · exact habout
    · rcases hheeded hparked₀ hpredicate₀ with rfl | ⟨u, hu, hnotifying⟩ | hexit
      · -- the worker was woken, so it is not parked any more
        cases hm with
        | notifyOne hnotifying hnotify =>
            rcases hparked with hcv | hparking
            · exact absurd rfl ((Monitor.mem_of_notifyOne hnotify _).mp hcv).2
            · have hslept := Monitor.slept_of_notifyOne hnotify
              exact absurd hparking (by simp [hsound.asleep_worker hslept])
      · rcases hm.notifying hnotifying with hstill | ⟨woken', ha⟩
        · exact .inl ⟨u, hstill⟩
        · simp [hu.symm] at ha
      · rcases hm.exiting hexit with hstill | ha
        · exact .inr hstill
        · simp at ha
    · rcases hheeded hparked₀ hpredicate₀ with hcv | ⟨u, hnotifying⟩
      · cases hm with
        | notifyExit hexit => simp [Parked, hsound.asleep_worker hcv] at hparked
      · rcases hm.notifying hnotifying with hstill | ⟨woken', ha⟩
        · exact .inl ⟨u, hstill⟩
        · simp at ha

theorem Heard.drained_moves (h : s.Heard) (hsound : s.Sound) (hheeded : s.Heeded a)
    (hm : s.Moves a e s') : s'.worker = .exited → s'.logQueue = [] := by
  have hdrained := h.drained
  cases hm with
  | push hpushing hfree => exact fun hexited => absurd hexited hheeded
  | exit hworker hexit => exact fun _ => hsound.emptied (.inr hworker)
  | _ => simp_all

/-- **One step** that meets the condition loses no notification. -/
theorem Heard.moves (h : s.Heard) (hsound : s.Sound) (hheeded : s.Heeded a)
    (hm : s.Moves a e s') : s'.Heard where
  owing := h.owing_moves hsound hheeded hm
  drained := h.drained_moves hsound hheeded hm

theorem HeededRun.run {s₀ : Logger θ} {tr : List (Step θ × Effect)} (h : HeededRun s₀ tr s) :
    Run s₀ tr s :=
  h.mono fun _ _ _ _ hs => hs.2

/-- **Every run** whose steps meet it loses none. -/
theorem Heard.run {s₀ : Logger θ} {tr : List (Step θ × Effect)} (hsound : s₀.Sound)
    (hheard : s₀.Heard) (h : HeededRun s₀ tr s) : s.Heard :=
  h.invariant (fun _ s => s.Heard) hheard fun _ _ _ _ _ hrun hheard hs =>
    hheard.moves (hsound.run (HeededRun.run hrun)) hs.1 (Moves.of_step hs.2)

/-! ### Coming to rest -/

/-- No thread can go on with a call by a step that meets the condition. -/
def Quiet (s : Logger θ) : Prop :=
  ∀ a e s', a.internal = true → s.Heeded a → s.step a ≠ some (e, s')

/-- Who has the mutex can go on. -/
theorem holder_moves {x : Thread θ} (hx : s.holds x = true) :
    ∃ a e s', a.internal = true ∧ s.Heeded a ∧ s.Moves a e s' := by
  cases x with
  | worker =>
      cases hworker : s.worker with
      | waiting w =>
          cases w with
          | locking => simp [holds, hworker] at hx
          | checking =>
              by_cases hpredicate : s.predicate .worker = true
              · exact ⟨.check .worker, _, _, rfl, trivial,
                  .drain hworker (predicate_worker.mp hpredicate)⟩
              · obtain ⟨hqueue, hexit⟩ := not_or.mp (mt predicate_worker.mpr hpredicate)
                exact ⟨.check .worker, _, _, rfl, trivial, .parkWorker hworker (not_not.mp hqueue)
                  (Bool.eq_false_iff.mpr hexit)⟩
          | parking => exact ⟨.sleep .worker, _, _, rfl, trivial, .sleepWorker hworker⟩
      | draining =>
          cases hqueue : s.logQueue with
          | nil => exact ⟨.notifyAll, _, _, rfl, trivial, .notifyAll hworker hqueue⟩
          | cons line logQueue => exact ⟨.pop, _, _, rfl, trivial, .pop hworker hqueue⟩
      | leaving =>
          cases hexit : s.exitFlag with
          | false => exact ⟨.leave, _, _, rfl, trivial, .again hworker hexit⟩
          | true => exact ⟨.leave, _, _, rfl, trivial, .exit hworker hexit⟩
      | writing line | relocking | exited => simp [holds, hworker] at hx
  | client t =>
      cases hclient : s.clients t with
      | flushing w =>
          cases w with
          | locking => simp [holds, hclient] at hx
          | checking =>
              by_cases hqueue : s.logQueue = []
              · exact ⟨.check (.client t), _, _, rfl, trivial, .flushed hclient hqueue⟩
              · exact ⟨.check (.client t), _, _, rfl, trivial, .parkClient hclient hqueue⟩
          | parking => exact ⟨.sleep (.client t), _, _, rfl, trivial, .sleepClient hclient⟩
      | idle | pushing line | notifying => simp [holds, hclient] at hx

namespace Quiet

theorem not_moves (hquiet : s.Quiet) (a : Step θ) (ha : a.internal = true)
    (hheeded : s.Heeded a) : ¬ s.Moves a e s' :=
  fun hm => hquiet a e s' ha hheeded hm.step_eq

theorem not_holds (hquiet : s.Quiet) (x : Thread θ) : s.holds x = false := by
  by_contra hx
  obtain ⟨a, e, s', ha, hheeded, hm⟩ := holder_moves (Bool.eq_true_of_not_eq_false hx)
  exact hquiet.not_moves a ha hheeded hm

theorem free (hquiet : s.Quiet) (hsound : s.Sound) : s.queueMutex = none := by
  by_contra hheld
  obtain ⟨x, hx⟩ := Option.ne_none_iff_exists'.mp hheld
  have hholds := (hsound.mutex x).mpr hx
  simp [hquiet.not_holds x] at hholds

theorem not_parking (hquiet : s.Quiet) : s.worker ≠ .waiting .parking := by
  intro hworker
  have hholds := hquiet.not_holds .worker
  simp [holds, hworker] at hholds

/-- Who is about to notify can do so, and can wake the worker. -/
theorem not_about (hquiet : s.Quiet) : ¬ s.AboutToNotify := by
  rintro (⟨t, ht⟩ | hexit)
  · obtain ⟨woken, cv, hnotify, hwakes⟩ := Monitor.exists_notifyOne s.cv .worker
    refine hquiet.not_moves (.notifyOne t woken) rfl ?_ (.notifyOne ht hnotify)
    rintro (hcv | hparking) -
    · exact .inl (hwakes hcv)
    · exact absurd hparking hquiet.not_parking
  · refine hquiet.not_moves .notifyExit rfl ?_ (.notifyExit hexit)
    rintro (hcv | hparking) -
    · exact .inl hcv
    · exact absurd hparking hquiet.not_parking

/-- The worker sleeps, or it has left. -/
theorem worker_cases (hquiet : s.Quiet) (hsound : s.Sound) :
    .worker ∈ s.cv ∨ s.worker = .exited := by
  have hfree := hquiet.free hsound
  have hholds := hquiet.not_holds .worker
  cases hworker : s.worker with
  | waiting w =>
      cases w with
      | locking =>
          by_contra hawake
          exact hquiet.not_moves (.lock .worker) rfl trivial
            (.lockWorker hworker hfree (not_or.mp hawake).1)
      | checking | parking => simp [holds, hworker] at hholds
  | draining | leaving => simp [holds, hworker] at hholds
  | writing line => exact absurd (.write hworker) (hquiet.not_moves .write rfl trivial)
  | relocking => exact absurd (.relock hworker hfree) (hquiet.not_moves .relock rfl trivial)
  | exited => exact .inr rfl

/-- A `flush` that has not returned sleeps. -/
theorem asleep (hquiet : s.Quiet) (hsound : s.Sound) {t : θ} {w : Wait}
    (ht : s.clients t = .flushing w) : .client t ∈ s.cv := by
  have hholds := hquiet.not_holds (.client t)
  cases w with
  | locking =>
      by_contra hawake
      exact hquiet.not_moves (.lock (.client t)) rfl trivial
        (.lockClient ht (hquiet.free hsound) hawake)
  | checking | parking => simp [holds, ht] at hholds

/-- **At rest nobody waits.** The worker would have to serve a `flush` that sleeps, or to leave when
the flag is set; it does so unless it sleeps, and then it needs no notification. -/
theorem returned (hquiet : s.Quiet) (hsound : s.Sound) (hheard : s.Heard) : s.Returned := by
  have hneeded : .worker ∈ s.cv → ¬ s.predicate .worker = true := fun hcv hpredicate =>
    hquiet.not_about (hheard.owing (.inl hcv) hpredicate)
  refine ⟨fun t w ht => ?_, ?_⟩
  · rcases hquiet.worker_cases hsound with hcv | hexited
    · have hserved := hsound.served t (hquiet.asleep hsound ht)
      rw [hsound.asleep_worker hcv] at hserved
      exact hneeded hcv (predicate_worker.mpr (.inl (hserved.resolve_right nofun)))
    · have hserved := hsound.served t (hquiet.asleep hsound ht)
      simp [hexited, hheard.drained hexited] at hserved
  · cases hdestructor : s.destructor with
    | before => exact .inl rfl
    | done => exact .inr rfl
    | notifying => exact absurd (.inr hdestructor) hquiet.not_about
    | joining =>
        rcases hquiet.worker_cases hsound with hcv | hexited
        · have hflag := hsound.exiting.mpr (by simp [hdestructor])
          exact absurd (predicate_worker.mpr (.inr hflag)) (hneeded hcv)
        · exact absurd (.join hdestructor hexited) (hquiet.not_moves .join rfl trivial)

end Quiet

/-! ### Steps that do not meet the condition -/

/-- A parked worker that nobody is about to notify falls asleep, if it does not sleep yet. -/
theorem missed_of_parked (hparked : s.Parked) (hpredicate : s.predicate .worker = true)
    (hnobody : ¬ s.AboutToNotify) : ∃ tr s', Run s tr s' ∧ s'.Missed := by
  rcases hparked with hcv | hparking
  · exact ⟨[], s, .nil, hcv, hpredicate, hnobody⟩
  · exact ⟨_, _, .snoc .nil (Moves.sleepWorker hparking).step_eq, Finset.mem_insert_self _ _,
      hpredicate, hnobody⟩

/-- **The condition is exact.** A step that does not meet it leads to a notification that the worker
misses, or to a line that it leaves behind. -/
theorem missed_of_unheeded (hs : s.step a = some (e, s')) (hnot : ¬ s.Heeded a) :
    ∃ tr s'', Run s' tr s'' ∧ (s''.Missed ∨ s''.Abandoned) := by
  cases Moves.of_step hs with
  | push hpushing hfree =>
      exact ⟨[], _, .nil, .inr ⟨not_not.mp hnot, by simp⟩⟩
  | @notifyOne t woken cv hnotifying hnotify =>
      simp only [Heeded, Classical.not_imp, not_or, not_exists, not_and] at hnot
      obtain ⟨hparked, hpredicate, hwoken, hothers, hexit⟩ := hnot
      have hmem := Monitor.mem_of_notifyOne hnotify .worker
      obtain ⟨tr, s'', hrun, hmissed⟩ := missed_of_parked
        (s := { s with clients := Function.update s.clients t .idle, cv := cv })
        (hparked.imp_left fun hcv => hmem.mpr ⟨hcv, hwoken⟩) hpredicate (by
          rintro (⟨u, hu⟩ | hstill)
          · by_cases heq : u = t
            · rw [heq] at hu
              simp at hu
            · exact hothers u heq ((Function.update_of_ne heq _ _).symm.trans hu)
          · exact hexit hstill)
      exact ⟨tr, s'', hrun, .inl hmissed⟩
  | notifyExit hnotifying =>
      simp only [Heeded, Classical.not_imp, not_or, not_exists] at hnot
      obtain ⟨hparked, hpredicate, hawake, hothers⟩ := hnot
      obtain ⟨tr, s'', hrun, hmissed⟩ := missed_of_parked
        (s := { s with destructor := .joining, cv := ∅ }) (.inr (hparked.resolve_left hawake))
        hpredicate (by
          rintro (⟨u, hu⟩ | hstill)
          · exact hothers u hu
          · cases hstill)
      exact ⟨tr, s'', hrun, .inl hmissed⟩
  | _ => exact absurd trivial hnot

/-- A line that was left behind stays there, and no `flush` returns any more. -/
theorem Abandoned.run {tr : List (Step θ × Effect)} (h : s.Abandoned) (hrun : Run s tr s') :
    s'.Abandoned ∧ ∀ call ∈ tr, call.2 ≠ .flushed := by
  refine hrun.invariant (fun tr s => s.Abandoned ∧ ∀ call ∈ tr, call.2 ≠ .flushed) ⟨h, nofun⟩ ?_
  rintro tr s a e s' - ⟨⟨hexited, hqueue⟩, htr⟩ hs
  have hm := Moves.of_step hs
  refine ⟨?_, ?_⟩
  · unfold Abandoned
    cases hm <;> simp_all
  · intro call hcall
    rcases List.mem_append.mp hcall with hcall | hcall
    · exact htr call hcall
    · rw [List.mem_singleton.mp hcall]
      cases hm <;> simp_all

end Logger

/-- **The worker wakes up**, in every run whose steps meet the condition. It does not sleep while
its predicate is true, unless a thread is about to notify. The threads go on with their calls for a
bounded number of steps, and where they cannot go on, every `flush` and the destructor have
returned. The first step that does not meet the condition leads to a notification that is missed, or
to a line that is left behind. -/
theorem worker_wakes {θ : Type} [DecidableEq θ] {isOpen : Bool} {tr : List (Step θ × Effect)}
    {s : Logger θ}
    (h : HeededRun (start θ isOpen) tr s) :
    ¬ s.Missed ∧
    (∃ n, ∀ tr' s', Trace.Run (Trace.guarded (fun s a => a.internal = true ∧ s.Heeded a)
        (Trace.ofFun step)) s tr' s' →
      tr'.length ≤ n ∧ (s'.Quiet → s'.Returned)) ∧
    ∀ a e s', s.step a = some (e, s') → ¬ s.Heeded a →
      ∃ tr' s'', Run s' tr' s'' ∧ (s''.Missed ∨ s''.Abandoned) := by
  have hsound := (Sound.start isOpen).run h.run
  have hheard := Heard.run (.start isOpen) (.start isOpen) h
  obtain ⟨busy, hbusy⟩ := exists_busy h.run
  refine ⟨hheard.not_missed, ⟨_, fun tr' s' hrun => ⟨internal_bounded hsound hbusy
    (hrun.mono fun _ _ _ _ hs => ⟨hs.1.1, hs.2⟩), fun hquiet => ?_⟩⟩,
    fun _ _ _ => missed_of_unheeded⟩
  have hheeded : HeededRun s tr' s' := hrun.mono fun _ _ _ _ hs => ⟨hs.1.2, hs.2⟩
  exact hquiet.returned (hsound.run hheeded.run) (hheard.run hsound hheeded)

/-- The worker sleeps when a line is pushed, and it is the one that is notified. -/
theorem worker_wakes_for_line : ∃ s : Logger Unit, s.logQueue ≠ [] ∧ .worker ∉ s.cv ∧ ¬ s.Missed ∧
    ∃ n, ∀ tr' s', Trace.Run (Trace.guarded (fun s a => a.internal = true ∧ s.Heeded a)
        (Trace.ofFun step)) s tr' s' →
      tr'.length ≤ n ∧ (s'.Quiet → s'.Returned) := by
  have hlock : HeededRun (start Unit true) _ _ := HeededRun.next .nil (.lock .worker) trivial rfl
  have hsleep := (hlock.next (.check .worker) trivial rfl).next (.sleep .worker) trivial rfl
  have hlog := hsleep.next (.logInternal () .info "" ⟨0, "", ""⟩ "") trivial rfl
  have hpush := hlog.next (.push ()) nofun rfl
  have hnotify := hpush.next (.notifyOne () (some .worker)) (fun _ _ => .inl rfl) rfl
  obtain ⟨hmissed, hrest, -⟩ := worker_wakes hnotify
  exact ⟨_, List.cons_ne_nil _ _, by decide, hmissed, hrest⟩

/-! ### Notifications that are lost -/

namespace Logger

/-- Where the worker and all callers sleep, nobody can go on. -/
theorem not_step_of_asleep {θ : Type} [DecidableEq θ] {s s' : Logger θ} {a : Step θ} {e : Effect}
    (hworker : s.worker = .waiting .locking) (hcv : .worker ∈ s.cv)
    (hclients : ∀ t, s.clients t = .idle ∨
      s.clients t = .flushing .locking ∧ .client t ∈ s.cv)
    (hdestructor : s.destructor ≠ .notifying) (ha : a.internal = true) :
    s.step a ≠ some (e, s') := by
  intro hs
  cases Moves.of_step hs <;> grind [Step.internal]

end Logger

/-- The worker sleeps. -/
def workerAsleep : List (Step (Fin 2)) := [.lock .worker, .check .worker, .sleep .worker]

/-- A line is pushed, and then a `flush` falls asleep, too. -/
def flushAsleep : List (Step (Fin 2)) :=
  [.logInternal 0 .info "" ⟨0, "", ""⟩ "", .push 0, .flush 1, .lock (.client 1),
    .check (.client 1), .sleep (.client 1)]

/-- The `flush` is notified, and goes back to sleep. -/
def flushNotified : List (Step (Fin 2)) :=
  [.notifyOne 0 (some (.client 1)), .lock (.client 1), .check (.client 1), .sleep (.client 1)]

/-- The flag is set, and all are notified, after the worker has looked at the flag. -/
def flagUnseen : List (Step (Fin 2)) :=
  [.lock .worker, .check .worker, .setExitFlag, .notifyExit, .sleep .worker]

/-- The notification for a line wakes a `flush`; both sleep for ever. The one for the flag comes
before the worker sleeps; the destructor waits for ever. -/
theorem worker_misses :
    (∃ tr s, Run (start (Fin 2) true) tr s ∧ s.Missed ∧ s.clients 1 = .flushing .locking ∧
      ∀ a e s', a.internal = true → s.step a ≠ some (e, s')) ∧
    ∃ tr s, Run (start (Fin 2) true) tr s ∧ s.Missed ∧ s.destructor = .joining ∧
      ∀ a e s', a.internal = true → s.step a ≠ some (e, s') := by
  have hline : Trace.exec step (workerAsleep ++ flushAsleep ++ flushNotified)
    (start (Fin 2) true) = some (_, _) := rfl
  have hflag : Trace.exec step flagUnseen (start (Fin 2) true) = some (_, _) := rfl
  refine ⟨⟨_, _, .of_exec hline, ⟨by decide, rfl, by unfold AboutToNotify; decide⟩, rfl, ?_⟩,
    ⟨_, _, .of_exec hflag, ⟨by decide, rfl, by unfold AboutToNotify; decide⟩, rfl, ?_⟩⟩
  · exact fun _ _ _ => not_step_of_asleep rfl (by decide) (by decide) nofun
  · exact fun _ _ _ => not_step_of_asleep rfl (by decide) (by decide) nofun

end OrderMatchingEngine
