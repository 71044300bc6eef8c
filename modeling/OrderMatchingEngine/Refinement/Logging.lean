import OrderMatchingEngine.Logger

/-!
# OrderMatchingEngine.Refinement.Logging

What a step of the logger can do, and what holds between any two steps.

`Moves` has one constructor for each way in which a step can be taken (`Moves.of_step`). Every
invariant is a case analysis on it. `Sound` is about the mutex and about the threads that wait:
while it waits, nobody changes what a thread has seen with the mutex held, except to wake it up
later. `Stored` is about the lines: each is in the file, with the worker or in the queue.
-/

namespace OrderMatchingEngine

open Monitor (Wait Exclusive)

namespace Logger

variable {θ : Type}

/-! ### The places of the threads -/

/-- The worker has the mutex. -/
@[simp] def ProcessLogs.holds : ProcessLogs → Bool
  | .waiting w => w.holds
  | .draining | .leaving => true
  | .writing _ | .relocking | .exited => false

/-- The worker is in its inner loop, and so will come to its `notify_all`. -/
@[simp] def ProcessLogs.drains : ProcessLogs → Bool
  | .draining | .writing _ | .relocking => true
  | .waiting _ | .leaving | .exited => false

/-- The client has the mutex between two steps. -/
@[simp] def Client.holds : Client → Bool
  | .flushing w => w.holds
  | .idle | .pushing _ | .notifying => false

/-- A thread is where it has the mutex. -/
def holds (s : Logger θ) : Thread θ → Bool
  | .worker => s.worker.holds
  | .client t => (s.clients t).holds

/-- What holds between any two steps. -/
structure Sound (s : Logger θ) : Prop where
  mutex : Exclusive s.queueMutex s.holds
  asleep : ∀ x ∈ s.cv, s.waits? x = some .locking
  /-- The worker sees the queue empty before it falls asleep, or loops. -/
  emptied : s.worker = .waiting .parking ∨ s.worker = .leaving → s.logQueue = []
  /-- `flush` sees a line in the queue before it falls asleep. -/
  unflushed : ∀ t, s.clients t = .flushing .parking → s.logQueue ≠ []
  /-- While a `flush` sleeps, there is a line, or the worker has yet to notify it. -/
  served : ∀ t, .client t ∈ s.cv → s.logQueue ≠ [] ∨ s.worker.drains = true
  exiting : s.exitFlag = true ↔ s.destructor ≠ .before
  exited : s.worker = .exited → s.exitFlag = true

theorem Sound.start (isOpen : Bool) : (start θ isOpen).Sound where
  mutex x := by cases x <;> simp [Logger.start, holds]
  asleep x hx := absurd hx (Finset.notMem_empty x)
  emptied h := by simp [Logger.start] at h
  unflushed t h := by simp [Logger.start] at h
  served t ht := absurd ht (Finset.notMem_empty _)
  exiting := by simp [Logger.start]
  exited h := by simp [Logger.start] at h

/-- A step of the worker leaves the places of the others as they are. -/
theorem holds_of_clients {s s' : Logger θ} (h : s'.clients = s.clients) (y : Thread θ)
    (hy : y ≠ .worker) : s'.holds y = s.holds y := by
  cases y with
  | worker => exact absurd rfl hy
  | client u => exact congrArg Client.holds (congrFun h u)

/-- A step of the worker that neither takes nor gives up the mutex. -/
theorem holds_same_worker {s s' : Logger θ} (hclients : s'.clients = s.clients)
    (hworker : s'.worker.holds = s.worker.holds) (y : Thread θ) : s'.holds y = s.holds y := by
  by_cases hy : y = .worker
  · rw [hy]
    exact hworker
  · exact holds_of_clients hclients y hy

/-! ### The steps -/

/-- A name sets a level, or leaves the level as it is. -/
theorem exists_setMinLevel (levelStr : String) (s : Logger θ) :
    ∃ level, s.setMinLevelStr levelStr = s.setMinLevel level := by
  unfold setMinLevelStr
  split_ifs
  · exact ⟨.debug, rfl⟩
  · exact ⟨.info, rfl⟩
  · exact ⟨.warn, rfl⟩
  · exact ⟨.error, rfl⟩
  · exact ⟨s.minLevel, rfl⟩

section Waiting

variable {s : Logger θ} {t : θ} {w : Wait}

theorem waits?_worker : s.waits? .worker = some w ↔ s.worker = .waiting w := by
  cases h : s.worker <;> simp [waits?, h]

theorem waits?_client : s.waits? (.client t) = some w ↔ s.clients t = .flushing w := by
  cases h : s.clients t <;> simp [waits?, h]

theorem predicate_worker : s.predicate .worker = true ↔ s.logQueue ≠ [] ∨ s.exitFlag = true := by
  simp [predicate]

theorem predicate_client : s.predicate (.client t) = true ↔ s.logQueue = [] :=
  List.isEmpty_iff

end Waiting

variable [DecidableEq θ] {s s' : Logger θ}

/-- The steps that can be taken, with what they need and what they do. -/
inductive Moves (s : Logger θ) : Step θ → Effect → Logger θ → Prop
  | setMinLevel (level : LogLevel) :
      Moves s (.setMinLevel level) .silent { s with minLevel := level }
  | setMinLevelStr {levelStr : String} {level : LogLevel} :
      s.setMinLevelStr levelStr = s.setMinLevel level →
      Moves s (.setMinLevelStr levelStr) .silent { s with minLevel := level }
  /-- `log_internal` returns at once. -/
  | discard {t : θ} {level : LogLevel} {msg : String} {loc : SourceLocation} {now : String} :
      s.clients t = .idle → level < s.minLevel →
      Moves s (.logInternal t level msg loc now) .silent s
  | logInternal {t : θ} {level : LogLevel} {msg : String} {loc : SourceLocation} {now : String} :
      s.clients t = .idle → ¬ level < s.minLevel →
      Moves s (.logInternal t level msg loc now) .silent
        { s with clients := Function.update s.clients t (.pushing (formatted now level msg loc)) }
  | push {t : θ} {line : String} :
      s.clients t = .pushing line → s.queueMutex = none →
      Moves s (.push t) (.pushed line)
        { s with
          clients := Function.update s.clients t .notifying
          logQueue := s.logQueue ++ [line] }
  | notifyOne {t : θ} {woken : Option (Thread θ)} {cv : Finset (Thread θ)} :
      s.clients t = .notifying → Monitor.notifyOne woken s.cv = some cv →
      Moves s (.notifyOne t woken) .silent
        { s with clients := Function.update s.clients t .idle, cv := cv }
  | flush {t : θ} :
      s.clients t = .idle →
      Moves s (.flush t) .silent
        { s with clients := Function.update s.clients t (.flushing .locking) }
  | lockWorker :
      s.worker = .waiting .locking → s.queueMutex = none → .worker ∉ s.cv →
      Moves s (.lock .worker) .silent
        { s with worker := .waiting .checking, queueMutex := some .worker }
  | lockClient {t : θ} :
      s.clients t = .flushing .locking → s.queueMutex = none → .client t ∉ s.cv →
      Moves s (.lock (.client t)) .silent
        { s with
          clients := Function.update s.clients t (.flushing .checking)
          queueMutex := some (.client t) }
  /-- There is a line, or the logger is being destroyed. -/
  | drain :
      s.worker = .waiting .checking → s.logQueue ≠ [] ∨ s.exitFlag = true →
      Moves s (.check .worker) .silent { s with worker := .draining }
  | parkWorker :
      s.worker = .waiting .checking → s.logQueue = [] → s.exitFlag = false →
      Moves s (.check .worker) .silent { s with worker := .waiting .parking }
  /-- `flush` returns. -/
  | flushed {t : θ} :
      s.clients t = .flushing .checking → s.logQueue = [] →
      Moves s (.check (.client t)) .flushed
        { s with clients := Function.update s.clients t .idle, queueMutex := none }
  | parkClient {t : θ} :
      s.clients t = .flushing .checking → s.logQueue ≠ [] →
      Moves s (.check (.client t)) .silent
        { s with clients := Function.update s.clients t (.flushing .parking) }
  | sleepWorker :
      s.worker = .waiting .parking →
      Moves s (.sleep .worker) .silent
        { s with worker := .waiting .locking, queueMutex := none, cv := insert .worker s.cv }
  | sleepClient {t : θ} :
      s.clients t = .flushing .parking →
      Moves s (.sleep (.client t)) .silent
        { s with
          clients := Function.update s.clients t (.flushing .locking)
          queueMutex := none
          cv := insert (.client t) s.cv }
  | wakeSpuriously {x : Thread θ} :
      x ∈ s.cv → Moves s (.wakeSpuriously x) .silent { s with cv := s.cv.erase x }
  | pop {line : String} {logQueue : List String} :
      s.worker = .draining → s.logQueue = line :: logQueue →
      Moves s .pop .silent
        { s with worker := .writing line, logQueue := logQueue, queueMutex := none }
  | write {line : String} :
      s.worker = .writing line →
      Moves s .write .silent
        { s with worker := .relocking, file := if s.isOpen then s.file ++ [line] else s.file }
  | relock :
      s.worker = .relocking → s.queueMutex = none →
      Moves s .relock .silent { s with worker := .draining, queueMutex := some .worker }
  | notifyAll :
      s.worker = .draining → s.logQueue = [] →
      Moves s .notifyAll .silent { s with worker := .leaving, cv := ∅ }
  /-- The loop goes round again. -/
  | again :
      s.worker = .leaving → s.exitFlag = false →
      Moves s .leave .silent { s with worker := .waiting .locking, queueMutex := none }
  /-- `break`. -/
  | exit :
      s.worker = .leaving → s.exitFlag = true →
      Moves s .leave .silent { s with worker := .exited, queueMutex := none }
  | setExitFlag :
      s.destructor = .before →
      Moves s .setExitFlag .silent { s with destructor := .notifying, exitFlag := true }
  | notifyExit :
      s.destructor = .notifying →
      Moves s .notifyExit .silent { s with destructor := .joining, cv := ∅ }
  | join :
      s.destructor = .joining → s.worker = .exited →
      Moves s .join .silent { s with destructor := .done }

/-- **What a step can do.** -/
theorem Moves.of_step {a : Step θ} {e : Effect} (h : s.step a = some (e, s')) :
    s.Moves a e s' := by
  cases a with
  | setMinLevel level =>
      cases h
      exact .setMinLevel level
  | setMinLevelStr levelStr =>
      obtain ⟨level, hlevel⟩ := s.exists_setMinLevel levelStr
      cases h
      rw [hlevel]
      exact .setMinLevelStr hlevel
  | logInternal t level msg loc now =>
      simp only [step, Logger.logInternal] at h
      split at h <;> try contradiction
      rename_i hidle
      split at h <;> cases h
      · exact .discard hidle ‹_›
      · exact .logInternal hidle ‹_›
  | push t =>
      simp only [step, Logger.push] at h
      split at h <;> cases h
      exact .push ‹_› ‹_›
  | notifyOne t woken =>
      simp only [step, Logger.notifyOne] at h
      split at h <;> cases h
      exact .notifyOne ‹_› ‹_›
  | flush t =>
      simp only [step, Logger.flush] at h
      split at h <;> cases h
      exact .flush ‹_›
  | lock x =>
      simp only [step, Logger.lock] at h
      split at h <;> try contradiction
      split at h <;> cases h
      rename_i hwaits hfree hawake
      cases x with
      | worker => exact .lockWorker (waits?_worker.mp hwaits) hfree hawake
      | client t => exact .lockClient (waits?_client.mp hwaits) hfree hawake
  | check x =>
      simp only [step, Logger.check] at h
      split at h <;> try contradiction
      rename_i hwaits
      cases x with
      | worker =>
          simp only [predicate_worker] at h
          split at h <;> cases h
          · exact .drain (waits?_worker.mp hwaits) ‹_›
          · rename_i hpredicate
            obtain ⟨hqueue, hexit⟩ := not_or.mp hpredicate
            exact .parkWorker (waits?_worker.mp hwaits) (not_not.mp hqueue)
              (Bool.eq_false_iff.mpr hexit)
      | client t =>
          simp only [predicate_client] at h
          split at h <;> cases h
          · exact .flushed (waits?_client.mp hwaits) ‹_›
          · exact .parkClient (waits?_client.mp hwaits) ‹_›
  | sleep x =>
      simp only [step, Logger.sleep] at h
      split at h <;> cases h
      rename_i hwaits
      cases x with
      | worker => exact .sleepWorker (waits?_worker.mp hwaits)
      | client t => exact .sleepClient (waits?_client.mp hwaits)
  | wakeSpuriously x =>
      simp only [step, Logger.wakeSpuriously] at h
      split at h <;> cases h
      exact .wakeSpuriously ‹_›
  | pop =>
      simp only [step, Logger.pop] at h
      split at h <;> cases h
      exact .pop ‹_› ‹_›
  | write =>
      simp only [step, Logger.write] at h
      split at h <;> cases h
      exact .write ‹_›
  | relock =>
      simp only [step, Logger.relock] at h
      split at h <;> cases h
      exact .relock ‹_› ‹_›
  | notifyAll =>
      simp only [step, Logger.notifyAll] at h
      split at h <;> cases h
      exact .notifyAll ‹_› ‹_›
  | leave =>
      simp only [step, Logger.leave] at h
      split at h <;> try contradiction
      rename_i hleaving
      split at h <;> cases h
      · exact .exit hleaving ‹_›
      · exact .again hleaving (Bool.eq_false_iff.mpr ‹_›)
  | setExitFlag =>
      simp only [step, Logger.setExitFlag] at h
      split at h <;> cases h
      exact .setExitFlag ‹_›
  | notifyExit =>
      simp only [step, Logger.notifyExit] at h
      split at h <;> cases h
      exact .notifyExit ‹_›
  | join =>
      simp only [step, Logger.join] at h
      split at h <;> cases h
      exact .join ‹_› ‹_›

/-- What a step can do, it does. -/
theorem Moves.step_eq {a : Step θ} {e : Effect} (hm : s.Moves a e s') :
    s.step a = some (e, s') := by
  cases hm with
  | setMinLevel level => rfl
  | setMinLevelStr hlevel => exact congrArg (fun s' => some (Effect.silent, s')) hlevel
  | discard hidle hlevel => simp [step, Logger.logInternal, hidle, hlevel]
  | logInternal hidle hlevel => simp [step, Logger.logInternal, setClient, hidle, hlevel]
  | push hpushing hfree => simp [step, Logger.push, setClient, hpushing, hfree]
  | notifyOne hnotifying hnotify => simp [step, Logger.notifyOne, setClient, hnotifying, hnotify]
  | flush hidle => simp [step, Logger.flush, setClient, hidle]
  | lockWorker hworker hfree hawake =>
      simp [step, lock, setWait, waits?_worker.mpr hworker, hfree, hawake]
  | lockClient hflushing hfree hawake =>
      simp [step, lock, setWait, setClient, waits?_client.mpr hflushing, hfree, hawake]
  | drain hworker hready =>
      simp [step, check, proceed, waits?_worker.mpr hworker, predicate_worker.mpr hready]
  | parkWorker hworker hqueue hexit =>
      simp [step, check, setWait, predicate, waits?_worker.mpr hworker, hqueue, hexit]
  | flushed hflushing hqueue =>
      simp [step, check, proceed, setClient, waits?_client.mpr hflushing,
        predicate_client.mpr hqueue]
  | parkClient hflushing hqueue =>
      simp [step, check, setWait, setClient, predicate, waits?_client.mpr hflushing, hqueue]
  | sleepWorker hworker => simp [step, sleep, setWait, waits?_worker.mpr hworker]
  | sleepClient hflushing => simp [step, sleep, setWait, setClient, waits?_client.mpr hflushing]
  | wakeSpuriously hx => simp [step, Logger.wakeSpuriously, hx]
  | pop hworker hqueue => simp [step, Logger.pop, hworker, hqueue]
  | write hworker => simp [step, Logger.write, hworker]
  | relock hworker hfree => simp [step, Logger.relock, hworker, hfree]
  | notifyAll hworker hqueue => simp [step, Logger.notifyAll, hworker, hqueue]
  | again hworker hexit => simp [step, Logger.leave, hworker, hexit]
  | exit hworker hexit => simp [step, Logger.leave, hworker, hexit]
  | setExitFlag hbefore => simp [step, Logger.setExitFlag, hbefore]
  | notifyExit hnotifying => simp [step, Logger.notifyExit, hnotifying]
  | join hjoining hworker => simp [step, Logger.join, hjoining, hworker]

/-- A run of the logger, with what its callers can see. -/
abbrev Run (s₀ : Logger θ) (tr : List (Step θ × Effect)) (s : Logger θ) : Prop :=
  Trace.Run (Trace.ofFun step) s₀ tr s

/-! ### The invariant -/

/-- A step of a client leaves the places of the others as they are. -/
theorem holds_of_update {t : θ} {place : Client} (hworker : s'.worker = s.worker)
    (hclients : s'.clients = Function.update s.clients t place) (y : Thread θ)
    (hy : y ≠ .client t) : s'.holds y = s.holds y := by
  cases y with
  | worker => exact congrArg ProcessLogs.holds hworker
  | client u =>
      have hu : u ≠ t := fun heq => hy (congrArg Thread.client heq)
      rw [holds, holds, hclients, Function.update_of_ne hu]

theorem holds_update {t : θ} {place : Client} {b : Bool}
    (hclients : s'.clients = Function.update s.clients t place) (hplace : place.holds = b) :
    s'.holds (.client t) = b := by
  rw [holds, hclients, Function.update_self, hplace]

/-- A step of a client that neither takes nor gives up the mutex. -/
theorem holds_same_client {t : θ} {place : Client} (hworker : s'.worker = s.worker)
    (hclients : s'.clients = Function.update s.clients t place)
    (hplace : place.holds = (s.clients t).holds) (y : Thread θ) : s'.holds y = s.holds y := by
  by_cases hy : y = .client t
  · rw [hy]
    exact holds_update hclients hplace
  · exact holds_of_update hworker hclients y hy

/-- A thread falls asleep by a step of its own. -/
theorem Moves.mem_cv {a : Step θ} {e : Effect} (hm : s.Moves a e s') {x : Thread θ}
    (hx : x ∈ s'.cv) : x ∈ s.cv ∨ a = .sleep x := by
  cases hm with
  | notifyOne hnotifying hnotify => exact .inl ((Monitor.mem_of_notifyOne hnotify x).mp hx).1
  | sleepWorker hworker => simpa [or_comm, eq_comm] using hx
  | sleepClient hflushing => simpa [or_comm, eq_comm] using hx
  | wakeSpuriously hy => exact .inl (Finset.mem_of_mem_erase hx)
  | notifyAll hworker hqueue => simp at hx
  | notifyExit hnotifying => simp at hx
  | _ => exact .inl hx

/-- The worker stays where it is while it sleeps. -/
theorem Moves.worker_of_asleep {a : Step θ} {e : Effect} (hm : s.Moves a e s')
    (hworker : s.worker = .waiting .locking) (hcv : .worker ∈ s.cv) :
    s'.worker = .waiting .locking := by
  cases hm <;> simp_all

/-- A client stays where it is while it sleeps. -/
theorem Moves.client_of_asleep {a : Step θ} {e : Effect} (hm : s.Moves a e s') {t : θ}
    (hflushing : s.clients t = .flushing .locking) (hcv : .client t ∈ s.cv) :
    s'.clients t = .flushing .locking := by
  cases hm <;> grind [Function.update_apply]

namespace Sound

variable {a : Step θ} {e : Effect}

/-- **The mutex** is held by the thread that is where it has it. -/
theorem mutex_moves (h : s.Sound) (hm : s.Moves a e s') :
    Exclusive s'.queueMutex s'.holds := by
  have hmutex := h.mutex
  cases hm with
  | setMinLevel _ | setMinLevelStr _ | discard _ _ | wakeSpuriously _ | setExitFlag _
  | notifyExit _ | join _ _ => exact hmutex
  | logInternal hplace _ | push hplace _ | notifyOne hplace _ | flush hplace
  | parkClient hplace _ =>
      exact hmutex.keep (holds_same_client rfl rfl (by simp [hplace]))
  | drain hworker _ | parkWorker hworker _ _ | write hworker | notifyAll hworker _ =>
      exact hmutex.keep (holds_same_worker rfl (by simp [hworker]))
  | lockWorker _ hfree _ | relock _ hfree =>
      rw [hfree] at hmutex
      exact hmutex.acquire rfl (holds_of_clients rfl)
  | lockClient _ hfree _ =>
      rw [hfree] at hmutex
      exact hmutex.acquire (holds_update rfl rfl) (holds_of_update rfl rfl)
  | flushed hflushing _ | sleepClient hflushing =>
      exact hmutex.release (by simp [holds, hflushing]) (holds_update rfl rfl)
        (holds_of_update rfl rfl)
  | sleepWorker hworker | pop hworker _ | again hworker _ | exit hworker _ =>
      exact hmutex.release (by simp [holds, hworker]) rfl (holds_of_clients rfl)

/-- Who sleeps takes the mutex next. -/
theorem asleep_moves (h : s.Sound) (hm : s.Moves a e s') :
    ∀ x ∈ s'.cv, s'.waits? x = some .locking := by
  intro x hx
  rcases hm.mem_cv hx with hasleep | rfl
  · have hwaits := h.asleep x hasleep
    cases x with
    | worker => exact waits?_worker.mpr (hm.worker_of_asleep (waits?_worker.mp hwaits) hasleep)
    | client t => exact waits?_client.mpr (hm.client_of_asleep (waits?_client.mp hwaits) hasleep)
  · cases hm with
    | sleepWorker hworker => rfl
    | sleepClient hflushing => simp [waits?]

theorem emptied_moves (h : s.Sound) (hm : s.Moves a e s') :
    s'.worker = .waiting .parking ∨ s'.worker = .leaving → s'.logQueue = [] := by
  have hemptied := h.emptied
  cases hm with
  | push hpushing hfree =>
      -- the mutex is free, so the worker is not there
      intro hplace
      have hholds : s.holds .worker = true := by
        rcases hplace with hplace | hplace <;> simp [holds, show s.worker = _ from hplace]
      have hholder := (h.mutex .worker).mp hholds
      simp [hfree] at hholder
  | _ => simp_all

theorem unflushed_moves (h : s.Sound) (hm : s.Moves a e s') (t : θ)
    (ht : s'.clients t = .flushing .parking) : s'.logQueue ≠ [] := by
  have hunflushed := h.unflushed
  cases hm with
  | push hpushing hfree => simp
  | pop hworker hqueue =>
      -- the worker has the mutex, so the client is not there
      have heq := h.mutex.unique (show s.holds .worker = true by simp [holds, hworker])
        (show s.holds (.client t) = true by simp [holds, show s.clients t = _ from ht])
      simp at heq
  | _ => grind [Function.update_apply]

theorem served_moves (h : s.Sound) (hm : s.Moves a e s') (t : θ) (ht : .client t ∈ s'.cv) :
    s'.logQueue ≠ [] ∨ s'.worker.drains = true := by
  rcases hm.mem_cv ht with hasleep | rfl
  · have hserved := h.served t hasleep
    cases hm with
    | push hpushing hfree => exact .inl (by simp)
    | pop hworker hqueue => exact .inr rfl
    | notifyAll hworker hqueue => exact absurd ht (Finset.notMem_empty _)
    | _ => simp_all
  · cases hm with
    | sleepClient hflushing => exact .inl (h.unflushed t hflushing)

theorem exiting_moves (h : s.Sound) (hm : s.Moves a e s') :
    s'.exitFlag = true ↔ s'.destructor ≠ .before := by
  have hexiting := h.exiting
  cases hm <;> simp_all

theorem exited_moves (h : s.Sound) (hm : s.Moves a e s') :
    s'.worker = .exited → s'.exitFlag = true := by
  have hexited := h.exited
  cases hm <;> simp_all

/-- **One step** keeps the invariant. -/
theorem moves (h : s.Sound) (hm : s.Moves a e s') : s'.Sound where
  mutex := h.mutex_moves hm
  asleep := h.asleep_moves hm
  emptied := h.emptied_moves hm
  unflushed := h.unflushed_moves hm
  served := h.served_moves hm
  exiting := h.exiting_moves hm
  exited := h.exited_moves hm

/-- **Every run** keeps it. -/
theorem run {s₀ : Logger θ} {tr : List (Step θ × Effect)} (h₀ : s₀.Sound) (h : Run s₀ tr s) :
    s.Sound :=
  h.invariant (fun _ s => s.Sound) h₀ fun _ _ _ _ _ _ hsound hs => hsound.moves (Moves.of_step hs)

end Sound

/-! ### The lines -/

/-- The line that a step pushes. -/
def Effect.pushed? : Effect → Option String
  | .pushed line => some line
  | .silent | .flushed => none

/-- The lines pushed in a run, in order. -/
def pushed (tr : List (Step θ × Effect)) : List String := tr.filterMap fun call => call.2.pushed?

omit [DecidableEq θ] in
theorem pushed_append (tr tr' : List (Step θ × Effect)) :
    pushed (tr ++ tr') = pushed tr ++ pushed tr' :=
  List.filterMap_append

/-- The line that the worker has taken off the queue and not written yet. -/
def ProcessLogs.inHand : ProcessLogs → List String
  | .writing line => [line]
  | .waiting _ | .draining | .relocking | .leaving | .exited => []

/-- The lines pushed so far are in the file, in the worker's hand and in the queue, in this order,
if there is a file. -/
structure Stored (tr : List (Step θ × Effect)) (s : Logger θ) : Prop where
  opened : s.isOpen = true → s.file ++ s.worker.inHand ++ s.logQueue = pushed tr
  closed : s.isOpen = false → s.file = []

theorem inHand_eq_nil {worker : ProcessLogs} :
    worker.inHand = [] ↔ ∀ line, worker ≠ .writing line := by
  cases worker <;> simp [ProcessLogs.inHand]

omit [DecidableEq θ] in
/-- **The file** has the first of the lines that were pushed, in order. -/
theorem Stored.file_ordered {tr : List (Step θ × Effect)} (h : s.Stored tr) :
    s.file <+: pushed tr := by
  cases hopen : s.isOpen with
  | true =>
      rw [← h.opened hopen, List.append_assoc]
      exact List.prefix_append _ _
  | false =>
      rw [h.closed hopen]
      exact List.nil_prefix

/-- **One step** moves a line on, or none. -/
theorem Stored.moves {tr : List (Step θ × Effect)} {a : Step θ} {e : Effect} (h : s.Stored tr)
    (hm : s.Moves a e s') : s'.Stored (tr ++ [(a, e)]) := by
  obtain ⟨hopened, hclosed⟩ := h
  refine ⟨?_, ?_⟩
  · rw [pushed_append]
    cases hm with
    | push hpushing hfree =>
        intro hopen
        rw [← hopened hopen, List.append_assoc _ s.logQueue]
        rfl
    | pop hworker hqueue =>
        simpa [hworker, hqueue, pushed, Effect.pushed?, ProcessLogs.inHand] using hopened
    | _ => simp_all [pushed, Effect.pushed?, ProcessLogs.inHand]
  · cases hm <;> simp_all

/-- **Every run** keeps each line in one place. -/
theorem Stored.run {isOpen : Bool} {tr : List (Step θ × Effect)} (h : Run (start θ isOpen) tr s) :
    s.Stored tr :=
  h.invariant (fun tr s => s.Stored tr) ⟨fun _ => rfl, fun _ => rfl⟩
    fun _ _ _ _ _ _ hstored hs => hstored.moves (Moves.of_step hs)

end Logger

end OrderMatchingEngine
