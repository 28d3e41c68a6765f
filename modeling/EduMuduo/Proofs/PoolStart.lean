/-
Module: EduMuduo.Proofs.PoolStart
Layer: Proofs
Purpose: However many threads call `start`, one of them starts the pool, and the acceptor listens
  once and only behind that: `newConnection` never sees a part of `loops_`.  If meanwhile no loop of
  the pool is left, every pointer in it is that of a loop which is alive and initialized.
Imports: EduMuduo.Core.ServerStart, EduMuduo.Proofs.LoopThread
Trusted boundary: none
Main exports: ServerStart.Course, ServerStart.Course.next, course, listens_after_pool,
  ServerStart.LoopsStay, listens_to_living_loops
-/
import EduMuduo.Core.ServerStart
import EduMuduo.Proofs.LoopThread

namespace EduMuduo

open Library

namespace StartPoint

/-- Not behind an exchange that found `started_` unset. -/
def Idle (point : StartPoint) : Prop := point = .outside ∨ point = .exchanging

/-- Between that exchange and `runInLoop`. -/
def Builds (point : StartPoint) : Prop :=
  point = .storing ∨ point = .starting ∨ point = .inStartLoop ∨ point = .inCallback ∨
    point = .handing

theorem Builds.not_idle {point : StartPoint} (builds : point.Builds) : ¬ point.Idle := by
  rintro (rfl | rfl) <;> simp [Builds] at builds

theorem waking_not_idle : ¬ waking.Idle := by
  simp [Idle]

theorem waking_not_builds : ¬ waking.Builds := by
  simp [Builds]

end StartPoint

namespace ServerStart

variable {Functor : Type}

/-- The calls of `listen` that have been handed over or made. -/
def listenCalls (s : ServerStart Functor) : Nat := s.pending + s.listened

/-! ### The course of the start -/

/-- Caller `t` starts the pool, and has not handed over the call of `listen`. -/
structure Building (s : ServerStart Functor) (t : ThreadId) : Prop where
  flag : s.started = true
  inside : (s.callers t).Builds
  others : ∀ t', t' ≠ t → (s.callers t').Idle
  sizes : s.threads.length = s.loops.length + if s.callers t = .inStartLoop then 1 else 0
  few : s.threads.length ≤ s.numThreads
  full : s.callers t = .inCallback ∨ s.callers t = .handing → s.threads.length = s.numThreads
  silent : s.listenCalls = 0

/-- How far the server has been started. -/
inductive Course (s : ServerStart Functor) : Prop where
  | notStarted (flag : s.started = false) (callers : ∀ t, (s.callers t).Idle)
      (empty : s.threads = [] ∧ s.loops = []) (silent : s.listenCalls = 0)
  | building (t : ThreadId) (builds : s.Building t)
  | complete (flag : s.started = true) (callers : ∀ t, (s.callers t).Idle ∨ s.callers t = .waking)
      (full : s.threads.length = s.numThreads ∧ s.loops.length = s.numThreads)
      (once : s.listenCalls = 1)

theorem setCaller_callers (s : ServerStart Functor) (t t' : ThreadId) (point : StartPoint) :
    (s.setCaller t point).callers t' = if t' = t then point else s.callers t' :=
  Function.update_apply _ _ _ _

/-- Moving one caller keeps what holds of all. -/
theorem forall_setCaller {s : ServerStart Functor} {P : StartPoint → Prop} {t : ThreadId}
    {point : StartPoint} (all : ∀ t', P (s.callers t')) (here : P point) (t' : ThreadId) :
    P ((s.setCaller t point).callers t') := by
  rw [setCaller_callers]
  split
  · exact here
  · exact all t'

section Step

variable {s : ServerStart Functor} {t : ThreadId}

theorem Course.of_builds (course : s.Course) (inside : (s.callers t).Builds) : s.Building t := by
  have busy : ¬ (s.callers t).Idle := inside.not_idle
  cases course with
  | notStarted flag callers => exact absurd (callers t) busy
  | building t' builds =>
      by_cases same : t = t'
      · exact same ▸ builds
      · exact absurd (builds.others t same) busy
  | complete flag callers =>
      rcases callers t with idle | waking
      · exact absurd idle busy
      · rw [waking] at inside
        exact absurd inside StartPoint.waking_not_builds

/-- Only in `startLoop` there is a thread without a pointer in `loops_`. -/
theorem Building.lengths (builds : s.Building t) {point : StartPoint} (here : s.callers t = point)
    (apart : point ≠ .inStartLoop) : s.threads.length = s.loops.length := by
  have sizes := builds.sizes
  rw [here, if_neg apart] at sizes
  exact sizes

/-- A caller that has found `started_` set, or has not looked, changes nothing. -/
theorem Course.setIdle (course : s.Course) (idle : (s.callers t).Idle) {point : StartPoint}
    (still : point.Idle) : (s.setCaller t point).Course := by
  cases course with
  | notStarted flag callers empty silent =>
      exact .notStarted flag (forall_setCaller callers still) empty silent
  | building t' builds =>
      have other : t' ≠ t := by
        rintro rfl
        exact builds.inside.not_idle idle
      have same : (s.setCaller t point).callers t' = s.callers t' := by
        rw [setCaller_callers, if_neg other]
      refine .building t' ⟨builds.flag, same ▸ builds.inside, fun t₀ apart => ?_, same ▸ builds.sizes,
        builds.few, same ▸ builds.full, builds.silent⟩
      rw [setCaller_callers]
      split
      · exact still
      · exact builds.others t₀ apart
  | complete flag callers full once =>
      exact .complete flag
        (forall_setCaller (P := fun point => point.Idle ∨ point = .waking) callers (.inl still))
        full once

/-- The caller that starts the pool moves on. -/
theorem Building.move (builds : s.Building t) {s' : ServerStart Functor} {point : StartPoint}
    (inside : point.Builds) (flag : s'.started = true)
    (callers : s'.callers = Function.update s.callers t point)
    (numThreads : s'.numThreads = s.numThreads)
    (sizes : s'.threads.length = s'.loops.length + if point = .inStartLoop then 1 else 0)
    (few : s'.threads.length ≤ s.numThreads)
    (full : point = .inCallback ∨ point = .handing → s'.threads.length = s.numThreads)
    (silent : s'.listenCalls = 0) : s'.Building t := by
  have here : s'.callers t = point := by rw [callers, Function.update_self]
  refine ⟨flag, here ▸ inside, fun t' other => ?_, here ▸ sizes, numThreads ▸ few,
    here ▸ numThreads ▸ full, silent⟩
  rw [callers, Function.update_of_ne other]
  exact builds.others t' other

/-- The steps of the threads of the pool are none of the start. -/
theorem Course.setThread (course : s.Course) (i : Nat) (thread : EventLoopThread Functor) :
    { s with threads := s.threads.set i thread }.Course := by
  have length : (s.threads.set i thread).length = s.threads.length := List.length_set
  cases course with
  | notStarted flag callers empty silent =>
      refine .notStarted flag callers ⟨?_, empty.2⟩ silent
      rw [empty.1]
      rfl
  | building t builds =>
      exact .building t ⟨builds.flag, builds.inside, builds.others, length.trans builds.sizes,
        length.symm ▸ builds.few, fun ends => length.trans (builds.full ends), builds.silent⟩
  | complete flag callers full once =>
      exact .complete flag callers ⟨length.trans full.1, full.2⟩ once

/-- The call of `listen` is handed over when the pool is complete. -/
theorem Building.complete (builds : s.Building t) (handing : s.callers t = .handing)
    {s' : ServerStart Functor} {point : StartPoint} (ends : point.Idle ∨ point = .waking)
    (flag : s'.started = s.started) (callers : s'.callers = Function.update s.callers t point)
    (numThreads : s'.numThreads = s.numThreads) (threads : s'.threads = s.threads)
    (loops : s'.loops = s.loops) (once : s'.listenCalls = s.listenCalls + 1) : s'.Course := by
  have sizes := builds.lengths handing (by decide)
  have full := builds.full (.inr handing)
  refine .complete (flag.trans builds.flag) (fun t' => ?_) ?_ ?_
  · rw [callers, Function.update_apply]
    split
    · exact ends
    · rename_i other
      exact .inl (builds.others t' other)
  · rw [threads, loops, numThreads, ← sizes]
    exact ⟨full, full⟩
  · rw [once, builds.silent]

/-- The exchange makes the one caller that finds `started_` unset the builder. -/
theorem Course.exchange (course : s.Course) (exchanging : s.callers t = .exchanging) :
    (s.next (.exchange t)).Course := by
  cases flag : s.started with
  | true =>
      have same : { s with started := true } = s := by rw [← flag]
      rw [ServerStart.next, same, flag]
      exact course.setIdle (.inr exchanging) (.inl rfl)
  | false =>
      cases course with
      | notStarted _ callers empty silent =>
          refine .building t ⟨rfl, ?_, fun t' other => ?_, ?_, ?_, ?_, silent⟩
          · rw [ServerStart.next, setCaller_callers, if_pos rfl, flag]
            exact .inl rfl
          · rw [ServerStart.next, setCaller_callers, if_neg other]
            exact callers t'
          · simp [ServerStart.next, setCaller, empty, flag]
          · simp [ServerStart.next, setCaller, empty]
          · simp [ServerStart.next, setCaller, flag]
      | building t' builds => exact absurd (flag.symm.trans builds.flag) (by decide)
      | complete flag' => exact absurd (flag.symm.trans flag') (by decide)

theorem Course.wakeup (course : s.Course) (waking : s.callers t = .waking) :
    (s.next (.wakeup t)).Course := by
  have busy : ¬ (s.callers t).Idle := by
    rw [waking]
    exact StartPoint.waking_not_idle
  cases course with
  | notStarted flag callers => exact absurd (callers t) busy
  | building t' builds =>
      have other : t ≠ t' := by
        rintro rfl
        have inside := builds.inside
        rw [waking] at inside
        exact StartPoint.waking_not_builds inside
      exact absurd (builds.others t other) busy
  | complete flag callers full once =>
      exact .complete flag (forall_setCaller
        (P := fun point => point.Idle ∨ point = .waking) callers (.inl (.inl rfl))) full once

theorem Course.listen (course : s.Course) (some : 0 < s.pending) :
    (s.next .listen).Course := by
  have waits : s.listenCalls ≠ 0 := by
    rw [listenCalls]
    omega
  cases course with
  | notStarted flag callers empty silent => exact absurd silent waits
  | building t builds => exact absurd builds.silent waits
  | complete flag callers full once =>
      refine .complete flag callers full ?_
      change s.pending - 1 + (s.listened + 1) = 1
      rw [listenCalls] at once
      omega

theorem Course.next (course : s.Course) {a : StartAction Functor} (guard : s.Enabled a) :
    (s.next a).Course := by
  cases a with
  | call t => exact course.setIdle (.inl guard) (.inr rfl)
  | exchange t => exact course.exchange guard
  | store t =>
      have builds := course.of_builds (.inl guard)
      refine .building t (builds.move (.inr (.inl rfl)) builds.flag rfl rfl ?_ builds.few ?_
        builds.silent)
      · exact builds.lengths guard (by decide)
      · rintro (ends | ends) <;> cases ends
  | emplace t =>
      have builds := course.of_builds (.inr (.inl guard.1))
      have sizes := builds.lengths guard.1 (by decide)
      refine .building t (builds.move (.inr (.inr (.inl rfl))) builds.flag rfl rfl ?_ ?_ ?_
        builds.silent)
      · change (s.threads ++ [_]).length = s.loops.length + 1
        exact List.length_append.trans (congrArg (· + 1) sizes)
      · change (s.threads ++ [_]).length ≤ s.numThreads
        rw [List.length_append]
        exact guard.2
      · rintro (ends | ends) <;> cases ends
  | pushBack t =>
      have builds := course.of_builds (.inr (.inr (.inl guard.1)))
      have sizes := builds.sizes
      rw [guard.1, if_pos rfl] at sizes
      obtain ⟨result, returned⟩ := Option.isSome_iff_exists.mp guard.2
      simp only [ServerStart.next, returned]
      refine .building t (builds.move (.inr (.inl rfl)) builds.flag rfl rfl ?_ builds.few ?_
        builds.silent)
      · change s.threads.length = (s.loops ++ [result]).length + 0
        rw [List.length_append, List.length_singleton, sizes, Nat.add_zero]
      · rintro (ends | ends) <;> cases ends
  | endLoop t =>
      have builds := course.of_builds (.inr (.inl guard.1))
      have sizes := builds.lengths guard.1 (by decide)
      refine .building t (builds.move ?_ builds.flag rfl rfl ?_ builds.few (fun _ => guard.2)
        builds.silent)
      · split
        · exact .inr (.inr (.inr (.inl rfl)))
        · exact .inr (.inr (.inr (.inr rfl)))
      · rw [if_neg (by split <;> decide)]
        exact sizes
  | callbackReturn t =>
      have builds := course.of_builds (.inr (.inr (.inr (.inl guard))))
      have sizes := builds.lengths guard (by decide)
      exact .building t (builds.move (.inr (.inr (.inr (.inr rfl)))) builds.flag rfl rfl sizes
        builds.few (fun _ => builds.full (.inl guard)) builds.silent)
  | runInLoop t =>
      have builds := course.of_builds (.inr (.inr (.inr (.inr guard))))
      rw [ServerStart.next]
      split
      · exact builds.complete guard (.inl (.inl rfl)) rfl rfl rfl rfl rfl rfl
      · exact builds.complete guard (.inr rfl) rfl rfl rfl rfl rfl (Nat.succ_add _ _)
  | wakeup t => exact course.wakeup guard
  | thread i action =>
      obtain ⟨thread, found, _⟩ := guard
      rw [ServerStart.next, show s.threads[i]? = some thread from found]
      exact course.setThread i _
  | listen => exact course.listen guard.1

end Step

/-! ### The pool -/

/-- `startLoop` has returned for good. -/
theorem started_kept {thread : EventLoopThread Functor} {action : ThreadAction Functor}
    (guard : thread.Enabled action) (alive : OfDestructor action = false) {result : Bool}
    (returned : thread.owner = .started result) :
    (thread.next action).owner = .started result := by
  cases action with
  | start | lock | evaluate | spuriousWakeup | returnLoop =>
      exact absurd (returned.symm.trans guard) (fun same => by cases same)
  | storeExiting | load | callQuit | callWakeup | join => cases alive
  | notify =>
      rw [EventLoopThread.next, returned]
      rfl
  | constructLoop | callbackReturn | publish | enterLoop | resetLoop | destroyLoop | throw
  | catchReturn | step action => exact returned

/-- All threads of the pool have the property, and each pointer in `loops_` is what `startLoop` of
its thread has returned. -/
structure Pool (P : EventLoopThread Functor → Prop) (s : ServerStart Functor) : Prop where
  each : ∀ thread ∈ s.threads, P thread
  entries : ∀ (i : Nat) (result : Bool), s.loops[i]? = some result →
    ∃ thread : EventLoopThread Functor, s.threads[i]? = some thread ∧
      thread.owner = .started result

theorem result_eq {s : ServerStart Functor} {result : Bool} (returned : s.result = some result) :
    ∃ thread, s.threads.getLast? = some thread ∧ thread.owner = .started result := by
  rw [ServerStart.result] at returned
  split at returned
  · rename_i thread last
    split at returned
    · rename_i value owner
      cases returned
      exact ⟨thread, last, owner⟩
    · cases returned
  · cases returned

theorem Pool.next {P : EventLoopThread Functor → Prop} {s : ServerStart Functor} (pool : s.Pool P)
    (course : s.Course) {a : StartAction Functor} (guard : s.Enabled a)
    (born : P (.construct s.threadInitCallback))
    (kept : ∀ i action thread, a = .thread i action → P thread → thread.Enabled action →
      OfDestructor action = false → P (thread.next action)) : (s.next a).Pool P := by
  cases a with
  | emplace t =>
      refine ⟨fun thread member => ?_, fun i result entry => ?_⟩
      · rcases List.mem_append.mp member with old | new
        · exact pool.each thread old
        · rw [List.mem_singleton.mp new]
          exact born
      · obtain ⟨thread, found, returned⟩ := pool.entries i result entry
        have inside := (List.getElem?_eq_some_iff.mp found).1
        exact ⟨thread, (List.getElem?_append_left inside).trans found, returned⟩
  | pushBack t =>
      obtain ⟨result, returned⟩ := Option.isSome_iff_exists.mp guard.2
      have sizes := (course.of_builds (.inr (.inr (.inl guard.1)))).sizes
      rw [guard.1, if_pos rfl] at sizes
      simp only [ServerStart.next, returned]
      refine ⟨pool.each, fun i value entry => ?_⟩
      obtain ⟨thread, last, owner⟩ := result_eq returned
      rw [List.getLast?_eq_getElem?, sizes, Nat.add_sub_cancel] at last
      rcases Nat.lt_or_ge i s.loops.length with before | beyond
      · exact pool.entries i value ((List.getElem?_append_left before).symm.trans entry)
      · change (s.loops ++ [result])[i]? = some value at entry
        have inside := (List.getElem?_eq_some_iff.mp entry).1
        rw [List.length_append] at inside
        obtain rfl : i = s.loops.length := Nat.le_antisymm (Nat.le_of_lt_succ inside) beyond
        rw [List.getElem?_concat_length] at entry
        cases entry
        exact ⟨thread, last, owner⟩
  | thread i action =>
      obtain ⟨thread, found, enabled, alive⟩ := guard
      have found : s.threads[i]? = some thread := found
      rw [ServerStart.next, found]
      have inside := (List.getElem?_eq_some_iff.mp found).1
      refine ⟨fun other member => ?_, fun j result entry => ?_⟩
      · rcases List.mem_or_eq_of_mem_set member with old | new
        · exact pool.each other old
        · rw [new]
          exact kept i action thread rfl (pool.each thread (List.mem_of_getElem? found)) enabled
            alive
      · obtain ⟨old, here, returned⟩ := pool.entries j result entry
        by_cases same : i = j
        · subst same
          cases found.symm.trans here
          exact ⟨thread.next action, List.getElem?_set_self inside,
            started_kept enabled alive returned⟩
        · exact ⟨old, (List.getElem?_set_ne same).trans here, returned⟩
  | runInLoop t =>
      rw [ServerStart.next]
      split <;> exact ⟨pool.each, pool.entries⟩
  | call t | exchange t | store t | endLoop t | callbackReturn t | wakeup t | listen =>
      exact ⟨pool.each, pool.entries⟩

theorem Pool.construct (P : EventLoopThread Functor → Prop) (numThreads : Nat) (callback : Bool) :
    (ServerStart.construct numThreads callback : ServerStart Functor).Pool P :=
  ⟨List.forall_mem_nil _, fun i result entry => by cases entry⟩

/-! ### Loops that are not left -/

/-- No exception leaves a thread of the pool, and none gets behind its `loop()`. -/
def LoopsStay (_ : ServerStart Functor) : StartAction Functor → Prop
  | .thread _ .throw | .thread _ .resetLoop => False
  | _ => True

instance (s : ServerStart Functor) : ∀ action, Decidable (s.LoopsStay action)
  | .thread _ .throw | .thread _ .resetLoop => inferInstanceAs (Decidable False)
  | .thread _ .start | .thread _ .lock | .thread _ .evaluate | .thread _ .spuriousWakeup
  | .thread _ .returnLoop | .thread _ .storeExiting | .thread _ .load | .thread _ .callQuit
  | .thread _ .callWakeup | .thread _ .join | .thread _ .constructLoop
  | .thread _ .callbackReturn | .thread _ .publish | .thread _ .notify | .thread _ .enterLoop
  | .thread _ .destroyLoop | .thread _ .catchReturn | .thread _ (.step _) | .call _ | .exchange _
  | .store _ | .emplace _ | .pushBack _ | .endLoop _ | .callbackReturn _ | .runInLoop _
  | .wakeup _ | .listen => inferInstanceAs (Decidable True)

/-- The pointer that `startLoop` returns is good. -/
structure Serves (thread : EventLoopThread Functor) : Prop where
  reachable : (eventLoopThread Functor).Reachable thread
  pointer : thread.loop_ = true → thread.thread.Published
  returning : thread.owner = .returning → thread.loop_ = true
  started : ∀ result, thread.owner = .started result → result = true ∧ thread.loop_ = true

theorem Serves.construct (callback : Bool) :
    Serves (.construct callback : EventLoopThread Functor) := by
  refine ⟨.start ⟨_, rfl⟩, fun stored => ?_, fun returning => ?_, fun result returned => ?_⟩
  · cases stored
  · cases returning
  · cases returned

/-- A step of the thread that leaves the pointer alone. -/
theorem Serves.thread {before after : EventLoopThread Functor} (serves : Serves before)
    (reachable : (eventLoopThread Functor).Reachable after) (owner : after.owner = before.owner)
    (pointer : after.loop_ = before.loop_)
    (published : before.thread.Published → after.thread.Published) : Serves after := by
  refine ⟨reachable, ?_, ?_, ?_⟩
  · rw [pointer]
    exact fun stored => published (serves.pointer stored)
  · rw [owner, pointer]
    exact serves.returning
  · rw [owner, pointer]
    exact serves.started

/-- A step of the owner before `startLoop` has seen the pointer. -/
theorem Serves.owner {before after : EventLoopThread Functor} (serves : Serves before)
    (reachable : (eventLoopThread Functor).Reachable after)
    (starting : after.owner = .returning ∧ before.loop_ = true ∨ after.owner.Starting)
    (pointer : after.loop_ = before.loop_) (same : after.thread = before.thread) :
    Serves after := by
  refine ⟨reachable, ?_, fun returning => ?_, fun result returned => ?_⟩
  · rw [pointer, same]
    exact serves.pointer
  · rcases starting with ⟨_, stored⟩ | starting
    · exact pointer.trans stored
    · rw [returning] at starting
      simp [OwnerPoint.Starting] at starting
  · rw [returned] at starting
    simp [OwnerPoint.Starting] at starting

theorem Serves.next {thread : EventLoopThread Functor} (serves : Serves thread)
    {action : ThreadAction Functor} (guard : thread.Enabled action)
    (alive : OfDestructor action = false) (stays : action ≠ .throw ∧ action ≠ .resetLoop) :
    Serves (thread.next action) := by
  have reachable := serves.reachable.step guard
  have away : ∀ point, thread.thread = point → ¬ point.Published →
      thread.thread.Published → (thread.next action).thread.Published := by
    rintro _ rfl unpublished published
    exact absurd published unpublished
  cases action with
  | start =>
      have points := EventLoopThread.pointInvariant serves.reachable
      refine ⟨reachable, fun stored => ?_, fun returning => ?_, fun result returned => ?_⟩
      · refine away .notStarted (points.constructed guard) ?_ (serves.pointer stored)
        simp [ThreadFuncPoint.Published]
      · cases returning
      · cases returned
  | lock => exact serves.owner reachable (.inr (.inr (.inl rfl))) rfl rfl
  | evaluate =>
      refine serves.owner reachable ?_ rfl rfl
      rw [EventLoopThread.next]
      split
      · rename_i stored
        exact .inl ⟨rfl, stored⟩
      · exact .inr (.inr (.inr rfl))
  | spuriousWakeup => exact serves.owner reachable (.inr (.inl rfl)) rfl rfl
  | returnLoop =>
      have stored := serves.returning guard
      refine ⟨reachable, serves.pointer, fun returning => ?_, fun result returned => ?_⟩
      · cases returning
      · cases returned
        exact ⟨stored, stored⟩
  | storeExiting | load | callQuit | callWakeup | join => cases alive
  | throw => exact absurd rfl stays.1
  | resetLoop => exact absurd rfl stays.2
  | constructLoop =>
      exact serves.thread reachable rfl rfl
        (away .constructing guard (by simp [ThreadFuncPoint.Published]))
  | callbackReturn =>
      exact serves.thread reachable rfl rfl
        (away .inCallback guard.1 (by simp [ThreadFuncPoint.Published]))
  | destroyLoop =>
      exact serves.thread reachable rfl rfl
        (away .leaving guard (by simp [ThreadFuncPoint.Published]))
  | catchReturn =>
      exact serves.thread reachable rfl rfl
        (away .caught guard (by simp [ThreadFuncPoint.Published]))
  | publish =>
      exact ⟨reachable, fun _ => .inl rfl, fun _ => rfl,
        fun result returned => ⟨(serves.started result returned).1, rfl⟩⟩
  | notify =>
      by_cases waiting : thread.owner = .waiting
      · refine ⟨reachable, fun _ => .inr (.inl rfl), fun returning => ?_, fun result returned => ?_⟩
        · rw [EventLoopThread.next, if_pos waiting] at returning
          cases returning
        · rw [EventLoopThread.next, if_pos waiting] at returned
          cases returned
      · exact serves.thread reachable (if_neg waiting) rfl fun _ => .inr (.inl rfl)
  | enterLoop => exact serves.thread reachable rfl rfl fun _ => .inr (.inr (.inl rfl))
  | step action =>
      refine serves.thread reachable rfl rfl fun published => ?_
      rcases (EventLoopThread.stepLoop_points guard).1 with same | ⟨_, returned⟩
      · exact same.symm ▸ published
      · exact .inr (.inr (.inr returned))

end ServerStart

/-! ### Runs -/

section Runs

variable {Functor : Type} {s : ServerStart Functor}

theorem course (reachable : (serverStart Functor).Reachable s) : s.Course := by
  refine reachable.invariant (I := ServerStart.Course) ?_
    fun s a _ course guard => course.next guard
  rintro _ ⟨numThreads, callback, rfl⟩
  exact .notStarted rfl (fun _ => .inl rfl) ⟨rfl, rfl⟩ rfl

theorem ServerStart.Course.full (course : s.Course) (listens : 0 < s.listenCalls) :
    s.listenCalls = 1 ∧ s.threads.length = s.numThreads ∧ s.loops.length = s.numThreads ∧
      ∀ t, ¬ (s.callers t).Builds := by
  cases course with
  | notStarted flag callers empty silent => exact absurd silent (Nat.ne_of_gt listens)
  | building t builds => exact absurd builds.silent (Nat.ne_of_gt listens)
  | complete flag callers full once =>
      refine ⟨once, full.1, full.2, fun t builds => ?_⟩
      rcases callers t with idle | waking
      · exact builds.not_idle idle
      · rw [waking] at builds
        exact StartPoint.waking_not_builds builds

/-- However many threads call `start`, and however they and the threads of the pool are interleaved,
`listen` is handed over or called at most once.  From then on no caller is at work on the pool,
`loops_` has an entry for every thread, each is what `startLoop` of this thread has returned, and
the init callback of the thread has come to its end. -/
theorem listens_after_pool (reachable : (serverStart Functor).Reachable s)
    (listens : 0 < s.listenCalls) :
    s.listenCalls = 1 ∧ (∀ t, ¬ (s.callers t).Builds) ∧ s.threads.length = s.numThreads ∧
      ∀ i < s.numThreads, ∃ result thread, s.loops[i]? = some result ∧
        s.threads[i]? = some thread ∧ (eventLoopThread Functor).Reachable thread ∧
          thread.owner = .started result ∧ ¬ thread.thread.Unpublished := by
  obtain ⟨once, threads, loops, idle⟩ := (course reachable).full listens
  have pool : s.Pool (eventLoopThread Functor).Reachable := by
    refine reachable.invariant
      (I := fun s => s.Pool (eventLoopThread Functor).Reachable) ?_ ?_
    · rintro _ ⟨numThreads, callback, rfl⟩
      exact .construct _ _ _
    · intro s a before pool guard
      exact pool.next (course before) guard (.start ⟨_, rfl⟩)
        fun i action thread running reached enabled alive => reached.step enabled
  refine ⟨once, idle, threads, fun i within => ?_⟩
  have inside : i < s.loops.length := loops.symm ▸ within
  obtain ⟨thread, found, returned⟩ := pool.entries i s.loops[i] (List.getElem?_eq_getElem inside)
  have reached := pool.each thread (List.mem_of_getElem? found)
  refine ⟨_, thread, List.getElem?_eq_getElem inside, found, reached, returned, fun early => ?_⟩
  have points := EventLoopThread.pointInvariant reached
  exact (points.unpublished early).2.2 (.inr (.inl ⟨_, returned⟩))

/-- As long as no exception leaves a thread of the pool and none gets behind its `loop()`, all
pointers in `loops_` are good when the acceptor listens: `getNextLoop` chooses among loops that are
alive and published. -/
theorem listens_to_living_loops
    (reachable : ((serverStart Functor).restrict ServerStart.LoopsStay).Reachable s)
    (listens : 0 < s.listenCalls) : s.loops.length = s.numThreads ∧
      ∀ i < s.numThreads, s.loops[i]? = some true ∧
        ∃ thread, s.threads[i]? = some thread ∧ thread.alive = true ∧
          thread.thread.Published := by
  obtain ⟨_, _, loops, _⟩ := (course reachable.of_restrict).full listens
  have pool : s.Pool ServerStart.Serves := by
    refine reachable.invariant (I := fun s => s.Pool ServerStart.Serves) ?_ ?_
    · rintro _ ⟨numThreads, callback, rfl⟩
      exact .construct _ _ _
    · intro s a before pool guard
      refine pool.next (course before.of_restrict) guard.1 ?_ ?_
      · exact .construct _
      · intro i action thread running serves enabled alive
        have stays := guard.2
        rw [running] at stays
        refine serves.next enabled alive ⟨?_, ?_⟩
        · rintro rfl
          exact stays
        · rintro rfl
          exact stays
  refine ⟨loops, fun i within => ?_⟩
  have inside : i < s.loops.length := loops.symm ▸ within
  obtain ⟨thread, found, returned⟩ := pool.entries i s.loops[i] (List.getElem?_eq_getElem inside)
  have serves := pool.each thread (List.mem_of_getElem? found)
  obtain ⟨good, stored⟩ := serves.started _ returned
  have published := serves.pointer stored
  have points := EventLoopThread.pointInvariant serves.reachable
  refine ⟨(List.getElem?_eq_getElem inside).trans (congrArg some good), thread, found, ?_, published⟩
  exact points.alive.mpr (.inr (.inr (.inl published)))

end Runs

/-- Threads 1 and 2 call `start`, thread 1 starts the pool, and the base loop listens. -/
def demoStart : List (StartAction Nat) :=
  [.call 1, .call 2, .exchange 1, .exchange 2, .store 1, .emplace 1, .thread 0 .start,
    .thread 0 .lock, .thread 0 .constructLoop, .thread 0 .evaluate, .thread 0 .callbackReturn,
    .thread 0 .publish, .thread 0 .notify, .thread 0 .lock, .thread 0 .evaluate,
    .thread 0 .returnLoop, .pushBack 1, .endLoop 1, .runInLoop 1, .wakeup 1, .listen]

def demoListening : ServerStart Nat := (serverStart Nat).exec (.construct 1 true) demoStart

theorem listens_after_pool_demo :
    demoListening.listenCalls = 1 ∧ (∀ t, ¬ (demoListening.callers t).Builds) ∧
      demoListening.threads.length = demoListening.numThreads ∧
      ∀ i < demoListening.numThreads, ∃ result thread, demoListening.loops[i]? = some result ∧
        demoListening.threads[i]? = some thread ∧ (eventLoopThread Nat).Reachable thread ∧
          thread.owner = .started result ∧ ¬ thread.thread.Unpublished := by
  have admitted : (serverStart Nat).Admits (.construct 1 true) demoStart := by decide +kernel
  exact listens_after_pool (admitted.reachable ⟨1, true, rfl⟩) (by decide +kernel)

theorem listens_to_living_loops_demo :
    demoListening.loops.length = demoListening.numThreads ∧
      ∀ i < demoListening.numThreads, demoListening.loops[i]? = some true ∧
        ∃ thread, demoListening.threads[i]? = some thread ∧ thread.alive = true ∧
          thread.thread.Published := by
  have admitted : ((serverStart Nat).restrict ServerStart.LoopsStay).Admits (.construct 1 true)
      demoStart := by decide +kernel
  have reachable := admitted.reachable ⟨1, true, rfl⟩
  rw [Machine.restrict_exec] at reachable
  exact listens_to_living_loops reachable (by decide +kernel)

end EduMuduo
