/-
Module: EduMuduo.Proofs.Termination
Layer: Proofs
Purpose: Loops stop and `~TcpServer` returns.  In a run that passes over no loop thread for ever
  every call of user code returns, so that a thread that is not left without something to do comes
  closer to its goal all the time.  The thread that `~TcpServer` waits for in `join()` comes to its
  end by the same argument.
Imports: EduMuduo.Library.Fairness, EduMuduo.Proofs.LoopMeasure
Trusted boundary: none
Main exports: FairRun, JoinsForEver, FairRun.call_returns, FairRun.eventually, FairRun.acts,
  FairRun.join_returns, quit_loop_stops, destructor_returns
-/
import EduMuduo.Library.Fairness
import EduMuduo.Proofs.LoopMeasure

namespace EduMuduo

open Library

/-! ### Fair runs -/

/-- An endless run of the server that passes over none of its loop threads for ever, and in which no
call of user code on one of them goes on calling back into the library for ever. -/
structure FairRun (w : World) (schedule : Nat → Action) : Prop where
  admitted : server.AdmitsEndless w schedule
  fair : ∀ l, w.isLoop l → server.Fair w schedule (World.goesOn? · = some l)
  finite : ∀ l, w.isLoop l → ∀ n,
    (∀ m, n ≤ m → (server.stateAt w schedule m).inCall l = true) →
      ∃ k, ∀ m, k ≤ m → World.callsBack? (schedule m) ≠ some l

/-- The thread of loop `l` is not passed over while it always has something to do. -/
def Acts (w : World) (schedule : Nat → Action) (l : LoopId) : Prop :=
  ∀ n, (∀ m, n ≤ m → ¬ (server.stateAt w schedule m).Ended l) →
    ∃ m, n ≤ m ∧ World.goesOn? (schedule m) = some l

/-- From step `n` on the base loop's thread waits in the `join()` of `~TcpServer` for one thread. -/
def JoinsForEver (w : World) (schedule : Nat → Action) (n : Nat) : Prop :=
  ∃ l, ∀ m, n ≤ m → (server.stateAt w schedule m).Joins l

section Runs

variable {w : World} {schedule : Nat → Action} {l : LoopId}

theorem JoinsForEver.mono {n m : Nat} (joins : JoinsForEver w schedule n) (later : n ≤ m) :
    JoinsForEver w schedule m := by
  obtain ⟨l, stays⟩ := joins
  exact ⟨l, fun k beyond => stays k (Nat.le_trans later beyond)⟩

theorem isLoop_stateAt (n : Nat) : (server.stateAt w schedule n).isLoop l ↔ w.isLoop l := by
  have size : (server.stateAt w schedule n).server.ioLoops = w.server.ioLoops := by
    induction n with
    | zero => rfl
    | succ n inductionHypothesis => exact (World.next_ioLoops _ _).trans inductionHypothesis
  rw [World.isLoop, World.isLoop, size]

theorem FairRun.reachable_stateAt (run : FairRun w schedule)
    (asks : ∀ n, (server.stateAt w schedule n).AsksInLoop (schedule n))
    (reachable : (server.restrict World.AsksInLoop).Reachable w) (n : Nat) :
    (server.restrict World.AsksInLoop).Reachable (server.stateAt w schedule n) := by
  induction n with
  | zero => exact reachable
  | succ n inductionHypothesis =>
      rw [Machine.stateAt_succ]
      exact inductionHypothesis.step ⟨run.admitted n, asks n⟩

theorem not_ended_of_stack (called : (w.loops l).stack ≠ []) : ¬ w.Ended l :=
  fun ended => called ended.stack

/-- Every call of user code returns. -/
theorem FairRun.call_returns (run : FairRun w schedule) (reachable : server.Reachable w)
    (within : w.isLoop l) (acts : Acts w schedule l) (n : Nat) :
    ∃ m, n ≤ m ∧ (server.stateAt w schedule m).inCall l = false := by
  by_contra never
  have calling : ∀ m, n ≤ m → (server.stateAt w schedule m).inCall l = true := by
    intro m later
    by_contra free
    exact never ⟨m, later, Bool.not_eq_true _ ▸ free⟩
  obtain ⟨k, quiet⟩ := run.finite l within n calling
  obtain ⟨_, _, impossible⟩ := Machine.eventually_of_response (M := server) (n := max n k)
    wellFounded_lt (fun (_ : Unit) a => World.goesOn? a = some l) (fun _ => ())
    (World.remaining (fun _ => 0) · l) (fun _ => True) (fun _ => False)
    (by
      intro m later _ _
      have beyond := Nat.max_le.mp later
      have here := sound (reachable.stateAt run.admitted m)
      have falls := World.falls_of_called here (run.admitted m)
        (World.stack_of_inCall (calling m beyond.1))
      have step := World.remaining_next_of_call here (run.admitted m) falls (calling m beyond.1)
        (quiet m beyond.2)
      rcases step with less | ⟨same, idle⟩
      · exact ⟨trivial, .closer less⟩
      · exact ⟨trivial, .waits same rfl idle⟩)
    (by
      intro _ first _
      obtain ⟨m, later, goesOn⟩ := acts (max n first) fun m later =>
        not_ended_of_stack (World.stack_of_inCall (calling m (Nat.max_le.mp later).1))
      exact ⟨m, (Nat.max_le.mp later).2, goesOn⟩)
    trivial
  exact impossible

/-- A goal is reached when, short of it, the thread of loop `l` has something to do and a rank falls
as long as it gets through parts of `loop()`. -/
theorem FairRun.eventually (run : FairRun w schedule) (reachable : server.Reachable w)
    (within : w.isLoop l) (acts : Acts w schedule l) (rank : Loop → Nat) (I goal : World → Prop)
    {n : Nat}
    (step : ∀ m, n ≤ m → I (server.stateAt w schedule m) → ¬ goal (server.stateAt w schedule m) →
      I (server.stateAt w schedule (m + 1)) ∧
        World.Falls rank (server.stateAt w schedule m) (schedule m) l)
    (busy : ∀ w, I w → ¬ goal w → ¬ w.Ended l)
    (start : I (server.stateAt w schedule n)) :
    ∃ m, n ≤ m ∧ goal (server.stateAt w schedule m) := by
  apply Machine.eventually_of_response (M := server) wellFounded_lt
    (fun calling a => calling = false ∧ World.goesOn? a = some l) (World.inCall · l)
    (World.ahead rank · l) I goal _ _ start
  · intro m later kept short
    obtain ⟨kept', falls⟩ := step m later kept short
    refine ⟨kept', ?_⟩
    have here := sound (reachable.stateAt run.admitted m)
    rcases World.ahead_next here (run.admitted m) falls with less | ⟨⟨same, call⟩, idle⟩
    · exact .closer less
    · exact .waits same call fun own => idle own.1 own.2
  · intro calling first stays
    cases calling with
    | true =>
        obtain ⟨m, later, free⟩ := run.call_returns reachable within acts first
        obtain ⟨_, _, still⟩ := stays m later
        rw [free] at still
        cases still
    | false =>
        obtain ⟨m, later, goesOn⟩ := acts first fun m later => by
          obtain ⟨kept, short, _⟩ := stays m later
          exact busy _ kept short
        exact ⟨m, later, rfl, goesOn⟩

/-- The parts of `loop()` from the last one on. -/
def Phase.rank : Phase → Nat
  | .entering => 4
  | .polling => 3
  | .handling => 2
  | .draining => 1
  | .stopped => 0

/-- A loop that is to quit goes through them once. -/
theorem World.falls_of_quit {w : World} {a : Action} (guard : w.Enabled a)
    (asked : (w.loops l).quit = true) (running : (w.loops l).phase ≠ .stopped) :
    Falls (·.phase.rank) w a l := by
  have falls : ((w.next a).loops l).phase.rank < (w.loops l).phase.rank →
      Falls (·.phase.rank) w a l := fun less => ⟨Nat.le_of_lt less, fun _ _ => less⟩
  by_cases turns : turns? a = some l
  · cases a with
    | enterLoop l' =>
        cases turns
        apply falls
        rw [World.next, setLoop_part Loop.phase, if_pos rfl, guard.2.1]
        change 1 < 4
        decide
    | poll l' active | doPendingFunctors l' =>
        cases turns
        apply falls
        rw [World.next, setLoop_part Loop.phase, if_pos rfl, guard.2.1]
        exact Nat.lt_succ_self _
    | endBatch l' =>
        cases turns
        apply falls
        rw [World.next, setLoop_part Loop.phase, if_pos rfl, guard.2.1, if_pos asked]
        exact Nat.lt_succ_self _
    | handleEvent l' named =>
        cases turns
        have same : ((w.next (.handleEvent l named)).loops l).phase = (w.loops l).phase := by
          rw [World.next]
          split
          · rfl
          · rw [part_handleEvent Loop.steady_phase]
            exact setLoop_part_same Loop.phase _ _ _ rfl
        exact ⟨Nat.le_of_eq (congrArg Phase.rank same), fun _ other => absurd rfl (other named)⟩
    | destroyLoop l' =>
        cases turns
        exact absurd guard.2.2.1 running
    | _ => cases turns
  · have same := part_next Loop.steady_phase guard turns
    exact ⟨Nat.le_of_eq (congrArg Phase.rank same), fun other => absurd other turns⟩

theorem FairRun.quit_stops (run : FairRun w schedule) (reachable : server.Reachable w)
    (within : w.isLoop l) (acts : Acts w schedule l) {n : Nat}
    (quits : (server.stateAt w schedule n).Quits l) :
    ∃ m, n ≤ m ∧ ((server.stateAt w schedule m).loops l).phase = .stopped := by
  apply run.eventually reachable within acts (·.phase.rank) (·.Quits l)
    (fun w => (w.loops l).phase = .stopped)
  · intro m _ quits running
    exact ⟨quits.next (run.admitted m), World.falls_of_quit (run.admitted m) quits.quit running⟩
  · exact fun w _ running ended => running ended.phase
  · exact quits

/-- The threads of the pool never wait. -/
theorem FairRun.acts_pool (run : FairRun w schedule) (reachable : server.Reachable w)
    (within : w.isLoop l) (pool : l ≠ 0) : Acts w schedule l := by
  intro n busy
  apply run.fair l within n
  intro m later
  have here := placed (reachable.stateAt run.admitted m)
  rcases World.loop_goes_on here ((isLoop_stateAt m).mpr within) (busy m later) with
    goesOn | ⟨base, _⟩
  · exact goesOn
  · exact absurd base pool

/-- Behind `loop()` a thread of the pool comes to its end. -/
theorem FairRun.stopped_ends (run : FairRun w schedule) (reachable : server.Reachable w)
    (within : w.isLoop l) (pool : l ≠ 0) {n : Nat}
    (stopped : ((server.stateAt w schedule n).loops l).phase = .stopped) :
    ∃ m, n ≤ m ∧ ((server.stateAt w schedule m).loops l).destroyed = true := by
  by_contra never
  have running : ∀ m, n ≤ m → ¬ (server.stateAt w schedule m).Ended l :=
    fun m later ended => never ⟨m, later, ended.destroyed pool⟩
  obtain ⟨m, later, goesOn⟩ := run.acts_pool reachable within pool n running
  have stays : ∀ m, n ≤ m → ((server.stateAt w schedule m).loops l).phase = .stopped := by
    intro m later
    induction later with
    | refl => exact stopped
    | @step m later inductionHypothesis =>
        exact World.stopped_next (run.admitted m) inductionHypothesis
  -- all that is left for it to do is to destroy its loop
  have left := left (reachable.stateAt run.admitted m) pool (stays m later)
  rcases left.only_destroys (run.admitted m) (World.actor_of_goesOn goesOn) with begins | ends
  · rw [begins] at goesOn
    cases goesOn
  · refine never ⟨m + 1, Nat.le_succ_of_le later, ?_⟩
    rw [Machine.stateAt_succ, ends]
    change ((World.next _ (.destroyLoop l)).loops l).destroyed = true
    rw [World.next, World.setLoop_part Loop.destroyed, if_pos rfl]

/-- A `join()` that need not wait any longer is left. -/
theorem FairRun.join_left (run : FairRun w schedule) {n : Nat} {l : LoopId}
    (joins : (server.stateAt w schedule n).Joins l) {k : Nat} (later : n ≤ k)
    (ends : ¬ (server.stateAt w schedule k).Joins l) :
    ∃ m, n ≤ m ∧ World.goesOn? (schedule m) = some 0 := by
  by_contra never
  have waits : ∀ m, n ≤ m →
      ((server.stateAt w schedule m).loops 0).stack.head? = some (.joinThread l) := by
    intro m later
    induction later with
    | refl => exact joins.top
    | @step m later inductionHypothesis =>
        rw [Machine.stateAt_succ]
        have stays := World.join_next (run.admitted m) inductionHypothesis
          fun goesOn => never ⟨m, later, goesOn⟩
        exact (congrArg List.head? stays).trans inductionHypothesis
  have destroyed : ((server.stateAt w schedule k).loops l).destroyed = true := by
    by_contra running
    exact ends ⟨waits k later, Bool.not_eq_true _ ▸ running⟩
  have ended : ∀ m, k ≤ m → ((server.stateAt w schedule m).loops l).destroyed = true := by
    intro m beyond
    induction beyond with
    | refl => exact destroyed
    | @step m beyond inductionHypothesis =>
        exact World.loopDestroyed_next (run.admitted m) inductionHypothesis
  obtain ⟨m, beyond, goesOn⟩ := run.fair 0 (Nat.zero_le _) k fun m beyond => by
    refine ⟨.destroyMember, rfl, ?_⟩
    obtain ⟨rest, top⟩ := List.head?_eq_some_iff.mp (waits m (Nat.le_trans later beyond))
    change World.MemberReady _ ((server.stateAt w schedule m).loops 0).stack
    rw [top]
    exact ended m beyond
  exact never ⟨m, Nat.le_trans later beyond, goesOn⟩

/-- The base loop's thread waits in `join()` only. -/
theorem FairRun.acts (run : FairRun w schedule) (reachable : server.Reachable w)
    (returns : ∀ n, ¬ JoinsForEver w schedule n) (within : w.isLoop l) : Acts w schedule l := by
  by_cases base : l = 0
  · subst base
    intro n busy
    by_cases free : ∀ m, n ≤ m → (server.stateAt w schedule m).CanGoOn 0
    · exact run.fair 0 within n free
    · obtain ⟨m, stuck⟩ := not_forall.mp free
      obtain ⟨later, waits⟩ := Classical.not_imp.mp stuck
      have here := placed (reachable.stateAt run.admitted m)
      rcases World.loop_goes_on here ((isLoop_stateAt m).mpr within) (busy m later) with
        goesOn | ⟨_, l', joins⟩
      · exact absurd goesOn waits
      · obtain ⟨k, left⟩ := not_forall.mp fun stays => returns m ⟨l', stays⟩
        obtain ⟨beyond, ends⟩ := Classical.not_imp.mp left
        obtain ⟨m', later', goesOn⟩ := run.join_left joins beyond ends
        exact ⟨m', Nat.le_trans later later', goesOn⟩
  · exact run.acts_pool reachable within base

/-- It never waits when the loop serves connections itself. -/
theorem FairRun.acts_conn (run : FairRun w schedule) (reachable : server.Reachable w) {n : Nat}
    {c : ConnId} (known : c < (server.stateAt w schedule n).created) :
    Acts w schedule ((server.stateAt w schedule n).conns c).conn.loop := by
  have here := inRange (reachable.stateAt run.admitted n)
  have within := (isLoop_stateAt n).mp (here.conns c known)
  by_cases base : ((server.stateAt w schedule n).conns c).conn.loop = 0
  · have alone := here.base c known base
    refine run.acts reachable ?_ within
    rintro k ⟨l, joins⟩
    obtain ⟨pool, inside, _⟩ :=
      (destruction (reachable.stateAt run.admitted k)).joins (joins k (Nat.le_refl k))
    have few : l ≤ (server.stateAt w schedule n).server.ioLoops :=
      (isLoop_stateAt n).mpr ((isLoop_stateAt k).mp inside)
    rw [alone] at few
    exact pool (Nat.le_zero.mp few)
  · exact run.acts_pool reachable within base

/-- It does not wait for ever when `~TcpServer` asks a thread in its loop: the thread that is joined
leaves the loop and ends. -/
theorem FairRun.join_returns (run : FairRun w schedule)
    (asks : ∀ n, (server.stateAt w schedule n).AsksInLoop (schedule n))
    (reachable : (server.restrict World.AsksInLoop).Reachable w) (n : Nat) :
    ¬ JoinsForEver w schedule n := by
  rintro ⟨l, joins⟩
  have plain := reachable.of_restrict
  have now := joins n (Nat.le_refl n)
  have course := destruction (plain.stateAt run.admitted n)
  obtain ⟨pool, inside, _⟩ := course.joins now
  have within : w.isLoop l := (isLoop_stateAt n).mp inside
  have quits := (asked (run.reachable_stateAt asks reachable n)).joins course now
  obtain ⟨m, first, stopped⟩ :=
    run.quit_stops plain within (run.acts_pool plain within pool) quits
  obtain ⟨k, second, destroyed⟩ := run.stopped_ends plain within pool stopped
  have running := (joins k (Nat.le_trans first second)).running
  rw [destroyed] at running
  cases running

/-- A loop that has been asked to quit after it was entered stops in every fair run, whatever user
code does on it and on the other loops: the base loop after the joins of `~TcpServer`, if it is in
them and the destructor asks no thread in front of its loop. -/
theorem quit_loop_stops (run : FairRun w schedule)
    (asks : ∀ n, (server.stateAt w schedule n).AsksInLoop (schedule n))
    (reachable : (server.restrict World.AsksInLoop).Reachable w) (within : w.isLoop l)
    (asked : (w.loops l).quit = true) (inside : (w.loops l).phase ≠ .entering) :
    ∃ n, ((server.stateAt w schedule n).loops l).phase = .stopped := by
  have plain := reachable.of_restrict
  obtain ⟨n, _, stopped⟩ := run.quit_stops (n := 0) plain within
    (run.acts plain (run.join_returns asks reachable) within) ⟨asked, inside⟩
  exact ⟨n, stopped⟩

/-- Short of its end, `~TcpServer` has a frame on the stack. -/
theorem World.Destruction.busy {frames : List Frame} (course : w.Destruction frames)
    (begun : w.server.destroying = true) (running : w.server.destroyed = false) : frames ≠ [] := by
  cases course with
  | notBegun stage =>
      have unbegun : w.server.destroying = false := congrArg Prod.fst stage
      rw [begun] at unbegun
      cases unbegun
  | connections stage => exact List.cons_ne_nil _ _
  | quitting first within stage joined =>
      rw [memberFrames]
      exact List.append_ne_nil_of_right_ne_nil _ (List.cons_ne_nil _ _)
  | joining first within stage joined asked => exact List.cons_ne_nil _ _
  | finished stage joined =>
      have ended : w.server.destroyed = true := congrArg Prod.snd stage
      rw [running] at ended
      cases ended

/-- `~TcpServer` returns in every fair run in which it asks no thread in front of its loop: it gets
through its connections with their callbacks, and each thread that it joins comes to its end,
whatever the other threads do. -/
theorem destructor_returns (run : FairRun w schedule)
    (asks : ∀ n, (server.stateAt w schedule n).AsksInLoop (schedule n))
    (reachable : (server.restrict World.AsksInLoop).Reachable w)
    (begun : w.server.destroying = true) :
    ∃ n, (server.stateAt w schedule n).server.destroyed = true := by
  have called : ∀ w, server.Reachable w ∧ w.server.destroying = true →
      ¬ w.server.destroyed = true → (w.loops 0).stack ≠ [] := by
    intro w ⟨reachable, begun⟩ running empty
    have frames := (destruction reachable).busy begun (Bool.not_eq_true _ ▸ running)
    rw [World.destructorFrames, empty] at frames
    exact frames rfl
  have plain := reachable.of_restrict
  obtain ⟨n, _, destroyed⟩ := run.eventually (n := 0) plain (Nat.zero_le _)
    (run.acts plain (run.join_returns asks reachable) (Nat.zero_le _)) (fun _ => 0)
    (fun w => server.Reachable w ∧ w.server.destroying = true) (fun w => w.server.destroyed = true)
    (by
      intro m _ kept short
      have guard := run.admitted m
      refine ⟨⟨kept.1.step guard, World.destroying_kept kept.2⟩, ?_⟩
      exact World.falls_of_called (sound kept.1) guard (called _ kept short))
    (fun w kept short => not_ended_of_stack (called w kept short))
    ⟨plain, begun⟩
  exact ⟨n, destroyed⟩

end Runs

/-- A run to the end of all loops, behind which nothing happens but that some thread calls `quit()`
again and again. -/
theorem FairRun.of_ended {w : World} {front : List Action} (admitted : server.Admits w front)
    (ended : ∀ l, w.isLoop l → (server.exec w front).Ended l) :
    FairRun w (front.getD · (.quit 0)) := by
  have stays : ∀ w' : World, (∀ l, w.isLoop l → w'.Ended l) →
      server.enabled w' (.quit 0) ∧ ∀ l, w.isLoop l → (w'.next (.quit 0)).Ended l := by
    intro w' ended
    refine ⟨Nat.zero_le _, fun l within => ⟨⟨?_, ?_⟩, fun pool => ?_⟩⟩
    · rw [World.next, World.setLoop_part_same Loop.phase _ _ _ (by rfl)]
      exact (ended l within).phase
    · rw [World.next, World.setLoop_part_same Loop.stack _ _ _ (by rfl)]
      exact (ended l within).stack
    · rw [World.next, World.setLoop_part_same Loop.destroyed _ _ _ (by rfl)]
      exact (ended l within).destroyed pool
  obtain ⟨endless, kept⟩ := Machine.admitsEndless_getD stays admitted ended
  refine ⟨endless, fun l within n enabled => ?_, fun l within n calling => ?_⟩
  · obtain ⟨a, goesOn, guard⟩ := enabled _ (Nat.le_max_left n front.length)
    have here := kept _ (Nat.le_max_right n front.length) l within
    exact absurd ⟨a, goesOn, guard⟩ here.not_goes_on
  · refine ⟨front.length, fun m beyond => ?_⟩
    simp only [List.getD_eq_getElem?_getD, List.getElem?_eq_none beyond, Option.getD_none,
      World.callsBack?]
    exact (Option.some_ne_none l).symm

/-- In such a run `~TcpServer` asks no thread behind `front`. -/
theorem asks_of_front {w : World} {front : List Action}
    (admitted : (server.restrict World.AsksInLoop).Admits w front) (n : Nat) :
    (server.stateAt w (front.getD · (.quit 0)) n).AsksInLoop (front.getD n (.quit 0)) := by
  have stays : ∀ w' : World, True →
      (server.restrict World.AsksInLoop).enabled w' (.quit 0) ∧ True :=
    fun w' _ => ⟨⟨Nat.zero_le w'.server.ioLoops, nofun⟩, trivial⟩
  have step := ((Machine.admitsEndless_getD stays admitted trivial).1 n).2
  rwa [Machine.restrict_stateAt] at step

/-- With one loop beside the base loop. -/
theorem FairRun.of_both_ended {w : World} {front : List Action} (one : w.server.ioLoops = 1)
    (admitted : server.Admits w front)
    (base : (server.exec w front).Ended 0) (pool : (server.exec w front).Ended 1) :
    FairRun w (front.getD · (.quit 0)) := by
  apply FairRun.of_ended admitted
  intro l within
  have few : l ≤ 1 := one ▸ within
  rcases Nat.le_one_iff_eq_zero_or_eq_one.mp few with rfl | rfl
  · exact base
  · exact pool

/-- Loop 1 runs to its end, `~TcpServer` returns, and the base loop stops. -/
def demoEnding : List Action :=
  [.poll 1 [], .doPendingFunctors 1, .run 1 demoKernel, .userReturn 1, .run 1 demoKernel,
    .endBatch 1, .destroyLoop 1, .destroyMember, .destroyMember, .quit 0, .doPendingFunctors 0,
    .endBatch 0]

theorem demoEnding_fair :
    FairRun (server.exec (demoServer 1 1) demoWaiting) (demoEnding.getD · (.quit 0)) := by
  apply FairRun.of_both_ended (by decide +kernel) (by decide +kernel)
  · exact ⟨⟨by decide +kernel, by decide +kernel⟩, nofun⟩
  · exact ⟨⟨by decide +kernel, by decide +kernel⟩, fun _ => by decide +kernel⟩

theorem demoEnding_asks (n : Nat) :
    (server.stateAt (server.exec (demoServer 1 1) demoWaiting) (demoEnding.getD · (.quit 0))
      n).AsksInLoop (demoEnding.getD n (.quit 0)) :=
  asks_of_front (by decide +kernel) n

theorem demoWaiting_reachable : (server.restrict World.AsksInLoop).Reachable
    (server.exec (demoServer 1 1) demoWaiting) := by
  have admitted : (server.restrict World.AsksInLoop).Admits (demoServer 1 1) demoWaiting := by
    decide +kernel
  have reachable := admitted.reachable (demoServer_initial 1 1)
  rwa [Machine.restrict_exec] at reachable

theorem quit_loop_stops_demo : ∃ n, ((server.stateAt (server.exec (demoServer 1 1) demoWaiting)
    (demoEnding.getD · (.quit 0)) n).loops 1).phase = .stopped :=
  quit_loop_stops demoEnding_fair demoEnding_asks demoWaiting_reachable (by decide +kernel)
    (by decide +kernel) (by decide +kernel)

theorem destructor_returns_demo :
    ∃ n, (server.stateAt (server.exec (demoServer 1 1) demoWaiting)
      (demoEnding.getD · (.quit 0)) n).server.destroyed = true :=
  destructor_returns demoEnding_fair demoEnding_asks demoWaiting_reachable (by decide +kernel)

end EduMuduo
