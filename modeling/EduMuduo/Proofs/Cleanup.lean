/-
Module: EduMuduo.Proofs.Cleanup
Layer: Proofs
Purpose: The life of a connection goes on to its end.  In a fair run every accepted connection is
  established, and every closed one gets through its three hops, from the close callback over the
  removal on the base loop to the end of `connectDestroyed`, which leaves no trace of it in the
  poller, unless a loop that has to take part stops, the base loop is kept in a `join()`, or the
  server has been destroyed under it.
Imports: EduMuduo.Proofs.ConnectionNames, EduMuduo.Proofs.EventualCalls,
  EduMuduo.Proofs.PolledOwned
Trusted boundary: none
Main exports: World.Departing, closed_departing, World.CleanedUp, accepted_connection_established,
  closed_connection_cleaned_up
-/
import EduMuduo.Proofs.ConnectionNames
import EduMuduo.Proofs.EventualCalls
import EduMuduo.Proofs.PolledOwned

namespace EduMuduo

open Library

namespace World

/-! ### The way out -/

/-- A closed connection is on its way out: the removal has run, waits to be run, or is what the
close callback asks for. -/
inductive Departing (w : World) (c : ConnId) : Prop where
  | removed (ran : .removeConnectionInLoop ∈ (w.conns c).history)
  | removing (waits : w.Waits (.removeConnectionInLoop c))
  | closing (l : LoopId) (onStack : .job (.closeCallback c) ∈ (w.loops l).stack)

section Departing

variable {w : World} {a : Action} {l : LoopId} {c : ConnId}

/-- `handleClose` leaves the close callback on the stack. -/
theorem closing_of_event {kernel : Kernel} {job : Job}
    (closes : .handleClose ∈ (w.perform l kernel job).events) :
    .job (.closeCallback job.conn) ∈ (w.perform l kernel job).frames := by
  have emits := (w.perform_deed l kernel job).emits closes
  cases emits with
  | closed callback c closing =>
      rcases closing with rfl | rfl
      · exact List.mem_append_right _ (List.mem_singleton_self _)
      · simp only [perform, runCallback, handleRead] at closes ⊢
        split at closes <;> rename_i read
        · split at closes
          · simp at closes
          · simp [quiet] at closes
        · exact List.mem_append_right _ (List.mem_singleton_self _)
        · simp [quiet] at closes

/-- The close callback hands the removal to the base loop. -/
theorem removing_of_callback {kernel : Kernel} (guard : w.Enabled (.run l kernel))
    (current : w.current l = some (.closeCallback c)) :
    (w.next (.run l kernel)).Waits (.removeConnectionInLoop c) := by
  obtain ⟨job, loop, fetched, found, _⟩ := enabled_run guard
  cases current.symm.trans found
  by_cases base : l = 0
  · refine .inl ⟨l, List.mem_append_left _ (List.mem_filterMap.mpr
      ⟨.job (.task (.removeConnectionInLoop c)), ?_, rfl⟩)⟩
    rw [run_stack kernel fetched, if_pos rfl]
    simp only [perform, closeCallback, if_pos base]
    exact List.mem_cons_self
  · apply run_waits fetched
    simp only [perform, closeCallback, if_neg base]
    exact List.mem_singleton_self _

theorem departing_of_removal (guard : w.Enabled a)
    (runs : ∃ l kernel, a = .run l kernel ∧ w.current l = some (.task (.removeConnectionInLoop c))) :
    (w.next a).Departing c := by
  obtain ⟨l, kernel, rfl, current⟩ := runs
  apply Departing.removed
  apply mem_run_history guard current
  rw [perform, runTask, removeConnectionInLoop_events]
  exact List.mem_singleton_self _

/-- A connection stays on its way out. -/
theorem Departing.next (placed : w.Placed) (guard : w.Enabled a) (known : c < w.created)
    (leaving : w.Departing c) : (w.next a).Departing c := by
  cases leaving with
  | removed ran => exact .removed ((placed.next_extends guard).history c known _ ran)
  | removing waits =>
      rcases waits.next placed guard with runs | still
      · exact departing_of_removal guard runs
      · exact .removing still
  | closing l onStack =>
      by_cases takes : w.TakesUp a l (.closeCallback c)
      · obtain ⟨⟨kernel, rfl⟩, current⟩ := takes.runs guard trivial
        exact .removing (removing_of_callback guard current)
      · exact .closing l (stacked_next guard onStack takes)

end Departing

end World

/-- Every connection that has been closed is on its way out. -/
theorem closed_departing {w : World} (reachable : server.Reachable w) {c : ConnId}
    (closed : .handleClose ∈ (w.conns c).history) : w.Departing c := by
  revert closed
  refine reachable.invariant
    (I := fun w => .handleClose ∈ (w.conns c).history → w.Departing c) ?_ ?_
  · rintro w ⟨name, ipPort, callbacks, ioLoops, users, rfl⟩ closed
    cases closed
  · intro w a before leaving guard closed
    have guard : w.Enabled a := guard
    have ok := placed before
    change .handleClose ∈ ((w.next a).conns c).history at closed
    rcases Nat.lt_or_ge c w.created with known | unknown
    · by_cases old : .handleClose ∈ (w.conns c).history
      · exact (leaving old).next ok guard known
      · rcases World.mem_next_history guard closed (Nat.ne_of_lt known) with
          same | ⟨l, kernel, job, running, current, about, here, emits⟩
        · exact absurd same old
        · subst running about
          obtain ⟨_, loop, fetched, found, _⟩ := World.enabled_run guard
          cases current.symm.trans found
          rw [World.run_conns fetched, Function.update_self] at closed
          have closes := (List.mem_append.mp closed).resolve_left old
          refine .closing l ?_
          change _ ∈ ((w.next (.run l kernel)).loops l).stack
          rw [World.run_stack kernel fetched, if_pos rfl]
          exact List.mem_append_left _ (World.closing_of_event closes)
    · rw [ok.next_history_unknown guard unknown] at closed
      cases closed

/-! ### What has happened to a connection that leaves -/

/-- `~TcpServer` is under way when its loop over the connections is on top of the stack. -/
theorem destroying_of_loop {w : World} (reachable : server.Reachable w)
    (top : (w.loops 0).stack.head? = some .destroyServer) : w.server.destroying = true := by
  obtain ⟨rest, stack⟩ := List.head?_eq_some_iff.mp top
  by_contra running
  have none := ((destruction reachable).of_running (Bool.not_eq_true _ ▸ running)).1
  rw [World.destructorFrames, stack] at none
  cases none

/-- A connection leaves through `removeConnectionInLoop`, or because `~TcpServer` is under way. -/
theorem leaving_cause {w : World} (reachable : server.Reachable w) {c : ConnId}
    (known : c < w.created) (leaving : w.Leaving c) :
    .removeConnectionInLoop ∈ (w.conns c).history ∨ w.server.destroying = true := by
  revert known leaving
  refine reachable.invariant (I := fun w => c < w.created → w.Leaving c →
    .removeConnectionInLoop ∈ (w.conns c).history ∨ w.server.destroying = true) ?_ ?_
  · rintro w ⟨name, ipPort, callbacks, ioLoops, users, rfl⟩ known
    exact absurd known (Nat.not_lt_zero c)
  · intro w a before cause guard known' leaving
    have guard : w.Enabled a := guard
    have ok := placed before
    rcases Nat.lt_or_ge c w.created with known | unknown
    · rcases (World.leaving_next ok guard known).mp leaving with old | removes | rfl
      · exact (cause known old).imp ((ok.next_extends guard).history c known _)
          World.destroying_kept
      · exact .inl ((World.removed_next guard known).mpr (.inr removes))
      · exact .inr (World.destroying_kept (destroying_of_loop before guard.1))
    · obtain rfl := World.eq_created_of_next unknown known'
      exact absurd leaving (World.not_leaving_new ok guard)

/-- The close callback runs before `removeConnectionInLoop` is queued. -/
theorem removal_called {w : World} (reachable : server.Reachable w) {c : ConnId}
    (removing : w.Waits (.removeConnectionInLoop c) ∨
      .removeConnectionInLoop ∈ (w.conns c).history) :
    .closeCallback ∈ (w.conns c).history := by
  revert removing
  refine reachable.invariant (I := fun w => w.Waits (.removeConnectionInLoop c) ∨
    .removeConnectionInLoop ∈ (w.conns c).history → .closeCallback ∈ (w.conns c).history) ?_ ?_
  · rintro w ⟨name, ipPort, callbacks, ioLoops, users, rfl⟩ (waits | ran)
    · rcases waits with ⟨l, waits⟩ | ⟨t, calling⟩
      · cases waits
      · cases calling
    · cases ran
  · intro w a before called guard removing
    have guard : w.Enabled a := guard
    have ok := placed before
    have calls : ∀ l kernel, a = .run l kernel → w.current l = some (.closeCallback c) →
        .closeCallback ∈ ((w.next a).conns c).history := by
      rintro l kernel rfl current
      apply World.mem_run_history guard current
      simp only [World.perform, World.closeCallback]
      split <;> exact List.mem_singleton_self _
    have still (known : c < w.created) (old : .closeCallback ∈ (w.conns c).history) :
        .closeCallback ∈ ((w.next a).conns c).history :=
      (ok.next_extends guard).history c known _ old
    have waited (waits : w.Waits (.removeConnectionInLoop c)) :
        .closeCallback ∈ ((w.next a).conns c).history :=
      still (ok.known_of_waits waits) (called (.inl waits))
    rcases removing with waits | ran
    · rcases World.Waits.of_next ok guard waits with
        old | ⟨l, pushed⟩ | ⟨l, appended⟩ | ⟨t, byThread⟩
      · exact waited old
      · cases pushed with
        | removeConnectionInLoop kernel _ running current => exact calls l kernel running current
      · cases appended with
        | byJob l' kernel job running current _ queued target =>
            rcases (w.perform_calls l' kernel job).of_queued queued with
              ⟨kind, same, _⟩ | ⟨c', same, _⟩ | ⟨c', same, close, _⟩
            · cases kind <;> cases same
            · cases same
            · cases same
              exact calls l' kernel running (close ▸ current)
        | submitted l' _ running top target =>
            have onStack := List.mem_of_mem_head? (World.submitted_eq top).1
            exact waited (.inl ⟨l', List.mem_append_left _
              (List.mem_filterMap.mpr ⟨_, onStack, rfl⟩)⟩)
        | byThread t _ running calling target => exact waited (.inr ⟨t, calling⟩)
      · cases byThread
    · rcases Nat.lt_or_ge c w.created with known | unknown
      · rcases (World.removed_next guard known).mp ran with old | ⟨l, kernel, running, current⟩
        · exact still known (called (.inr old))
        · exact waited (.inl ⟨l, World.mem_tasks_of_current current⟩)
      · have blank := ok.next_history_unknown guard unknown
        change _ ∈ ((w.next a).conns c).history at ran
        rw [blank] at ran
        cases ran

/-- What a connection leaves behind when it is cleaned up. -/
structure World.CleanedUp (w : World) (c : ConnId) : Prop where
  returned : .connectDestroyedReturned ∈ (w.conns c).history
  outOfPoller : w.OutOfPoller c
  absent : w.server.connections.contains (w.conns c).conn.name = false
  course : .closeCallback ∈ (w.conns c).history ∧ .removeConnectionInLoop ∈ (w.conns c).history ∨
    w.server.destroying = true

/-- The end of `connectDestroyed` completes the cleanup. -/
theorem cleanedUp_of_removal {w : World}
    (reachable : (server.restrict World.FewAccepted).Reachable w) {a : Action} {c : ConnId}
    (guard : w.Enabled a) (few : w.FewAccepted a) (removes : w.RemovesFromPoller a c) :
    (w.next a).CleanedUp c := by
  have after := reachable.step ⟨guard, few⟩
  have ok := placed after.of_restrict
  have returned : (w.next a).Removed c := removes.removed guard
  have leaving : (w.next a).Leaving c :=
    .inr (.inr (destroyed_of_returned after.of_restrict returned))
  have known : c < (w.next a).created := (removed_up after.of_restrict returned).1
  refine ⟨returned, removes.outOfPoller guard, ?_, ?_⟩
  · apply eq_false_of_ne_true
    intro stored
    have entry := ((numbered_few after).contains ok known).mp stored
    exact (inService_of_entry after.of_restrict entry).2 leaving
  · rcases leaving_cause after.of_restrict known leaving with removed | destroying
    · exact .inl ⟨removal_called after.of_restrict (.inr removed), removed⟩
    · exact .inr destroying

/-- Something that captured the server's `this` is executed behind `~TcpServer`. -/
def World.UsesDestroyed (w : World) (a : Action) : Prop :=
  w.server.destroyed = true ∧ w.TouchesServer a

/-! ### Fair runs -/

section Runs

variable {w : World} {schedule : Nat → Action} {c : ConnId}

/-- A functor of those that carry a connection from loop to loop is in the queue or on the stack of
its own loop. -/
theorem hop_runs (run : FairRun w schedule) (reachable : server.Reachable w) {task : Task}
    (hop : task.hop = true) {n : Nat} (waits : (server.stateAt w schedule n).Waits task)
    (acts : Acts w schedule ((server.stateAt w schedule n).target task)) :
    ∃ m, n ≤ m ∧ ((server.stateAt w schedule m).RunsTask (schedule m) task ∨
      ((server.stateAt w schedule m).loops
        ((server.stateAt w schedule n).target task)).phase = .stopped) := by
  have ok := placed (reachable.stateAt run.admitted n)
  rcases waits with ⟨l, member⟩ | ⟨t, calling⟩
  · have own := (ok.task_ok member).2 hop
    exact held_task_runs run reachable (own ▸ acts) acts member
  · rw [((ok.threads t).calling task calling).1] at hop
    cases hop

/-- Every accepted connection is established, unless its loop stops. -/
theorem accepted_connection_established (run : FairRun w schedule) (reachable : server.Reachable w)
    {n : Nat} (accepted : c < (server.stateAt w schedule n).created) :
    ∃ m, n ≤ m ∧ ((server.stateAt w schedule m).Up c ∨
      ((server.stateAt w schedule m).loops
        ((server.stateAt w schedule n).conns c).conn.loop).phase = .stopped) := by
  by_cases up : (server.stateAt w schedule n).Up c
  · exact ⟨n, Nat.le_refl n, .inl up⟩
  · have waits := establish_waits (reachable.stateAt run.admitted n) accepted up
    obtain ⟨m, later, ⟨kernel, running, current⟩ | stopped⟩ :=
      hop_runs run reachable rfl (.inl ⟨_, waits⟩) (run.acts_conn reachable accepted)
    · refine ⟨m + 1, Nat.le_succ_of_le later, .inl ?_⟩
      have guard := run.admitted m
      rw [running] at guard
      rw [Machine.stateAt_succ, running]
      exact World.up_of_establish (placed (reachable.stateAt run.admitted m)) guard current
    · exact ⟨m, later, .inr stopped⟩

/-- The removal of a closed connection is run, unless the base loop stops. -/
theorem removal_runs (run : FairRun w schedule) (reachable : server.Reachable w)
    (base : Acts w schedule 0) {n : Nat} (leaving : (server.stateAt w schedule n).Departing c) :
    ∃ m, n ≤ m ∧ (.removeConnectionInLoop ∈ ((server.stateAt w schedule m).conns c).history ∨
      ((server.stateAt w schedule m).loops 0).phase = .stopped) := by
  have removing : ∀ n, (server.stateAt w schedule n).Waits (.removeConnectionInLoop c) →
      ∃ m, n ≤ m ∧ (.removeConnectionInLoop ∈ ((server.stateAt w schedule m).conns c).history ∨
        ((server.stateAt w schedule m).loops 0).phase = .stopped) := by
    intro n waits
    obtain ⟨m, later, ⟨kernel, running, current⟩ | stopped⟩ :=
      hop_runs run reachable rfl waits base
    · refine ⟨m + 1, Nat.le_succ_of_le later, .inl ?_⟩
      have guard := run.admitted m
      rw [running] at guard
      rw [Machine.stateAt_succ, running]
      apply World.mem_run_history guard current
      rw [World.perform, World.runTask, World.removeConnectionInLoop_events]
      exact List.mem_singleton_self _
    · exact ⟨m, later, .inr stopped⟩
  cases leaving with
  | removed ran => exact ⟨n, Nat.le_refl n, .inl ran⟩
  | removing waits => exact removing n waits
  | closing l onStack =>
      have ok := ((placed (reachable.stateAt run.admitted n)).loops l).stack _ onStack
      have own : ((server.stateAt w schedule n).conns c).conn.loop = l := ok.2.1
      obtain ⟨m, later, takes⟩ :=
        stacked_job_taken run reachable (own ▸ run.acts_conn reachable ok.1.1) onStack
      have guard := run.admitted m
      obtain ⟨⟨kernel, running⟩, current⟩ := takes.runs guard trivial
      rw [running] at guard
      have waits := World.removing_of_callback guard current
      obtain ⟨m', later', removed⟩ := removing (m + 1) (by
        rw [Machine.stateAt_succ, running]
        exact waits)
      exact ⟨m', by omega, removed⟩

/-- The end of `connectDestroyed` is run when it is on a stack. -/
theorem channel_removed (run : FairRun w schedule) (reachable : server.Reachable w) {n : Nat}
    {l : LoopId} (onStack : .job (.removeChannel c) ∈ ((server.stateAt w schedule n).loops l).stack) :
    ∃ m, n ≤ m ∧ (server.stateAt w schedule m).Removed c := by
  have ok := ((placed (reachable.stateAt run.admitted n)).loops l).stack _ onStack
  have own : ((server.stateAt w schedule n).conns c).conn.loop = l := ok.2.1
  obtain ⟨m, later, takes⟩ :=
    stacked_job_taken run reachable (own ▸ run.acts_conn reachable ok.1) onStack
  have guard := run.admitted m
  obtain ⟨⟨kernel, running⟩, current⟩ := takes.runs guard trivial
  refine ⟨m + 1, Nat.le_succ_of_le later, ?_⟩
  rw [Machine.stateAt_succ]
  exact World.RemovesFromPoller.removed guard ⟨l, kernel, running, current⟩

/-- `connectDestroyed` gets to its end when it waits, unless the connection's loop stops. -/
theorem destruction_returns (run : FairRun w schedule) (reachable : server.Reachable w) {n : Nat}
    (waits : (server.stateAt w schedule n).Waits (.connectDestroyed c)) :
    ∃ m, n ≤ m ∧ ((server.stateAt w schedule m).Removed c ∨
      ((server.stateAt w schedule m).loops
        ((server.stateAt w schedule n).conns c).conn.loop).phase = .stopped) := by
  have known := (placed (reachable.stateAt run.admitted n)).known_of_waits waits
  obtain ⟨m, later, ⟨kernel, running, current⟩ | stopped⟩ :=
    hop_runs run reachable rfl waits (run.acts_conn reachable known)
  · have guard := run.admitted m
    rw [running] at guard
    obtain ⟨job, loop, fetched, found, _⟩ := World.enabled_run guard
    cases current.symm.trans found
    obtain ⟨m', later', removed⟩ := channel_removed (n := m + 1) run reachable (by
      rw [Machine.stateAt_succ, running]
      change _ ∈ ((World.next _ (.run _ kernel)).loops _).stack
      rw [World.run_stack kernel fetched, if_pos rfl]
      apply List.mem_append_left
      exact List.mem_append_right _ (List.mem_singleton_self _))
    exact ⟨m', by omega, .inl removed⟩
  · exact ⟨m, later, .inr stopped⟩

/-- Histories only grow. -/
theorem history_stateAt (run : FairRun w schedule) (reachable : server.Reachable w) {event : Event}
    {n : Nat} (past : event ∈ ((server.stateAt w schedule n).conns c).history) {m : Nat}
    (later : n ≤ m) : c < (server.stateAt w schedule m).created ∧
      event ∈ ((server.stateAt w schedule m).conns c).history := by
  have known : c < (server.stateAt w schedule n).created := by
    by_contra beyond
    have none := ((placed (reachable.stateAt run.admitted n)).conns c).unborn
      (Nat.le_of_not_lt beyond)
    rw [none] at past
    cases past
  induction later with
  | refl => exact ⟨known, past⟩
  | @step m later inductionHypothesis =>
      have grown := (placed (reachable.stateAt run.admitted m)).next_extends (run.admitted m)
      exact ⟨Nat.lt_of_lt_of_le inductionHypothesis.1 grown.created,
        grown.history c inductionHypothesis.1 event inductionHypothesis.2⟩

theorem few_stateAt (run : FairRun w schedule)
    (reachable : (server.restrict World.FewAccepted).Reachable w)
    (few : ∀ n, (server.stateAt w schedule n).accepted < 2 ^ 32) (n : Nat) :
    (server.restrict World.FewAccepted).Reachable (server.stateAt w schedule n) := by
  have admitted : (server.restrict World.FewAccepted).AdmitsEndless w schedule := by
    intro n
    rw [Machine.restrict_stateAt]
    exact ⟨run.admitted n, few (n + 1)⟩
  have reached := reachable.stateAt admitted n
  rwa [Machine.restrict_stateAt] at reached

/-- `connectDestroyed` returns for every closed connection, unless one of the loops that have to
take part stops before, or the base loop's thread is kept in `join()`. -/
theorem closed_connection_removed (run : FairRun w schedule)
    (reachable : (server.restrict World.FewAccepted).Reachable w)
    (few : ∀ n, (server.stateAt w schedule n).accepted < 2 ^ 32) {n : Nat}
    (closed : .handleClose ∈ ((server.stateAt w schedule n).conns c).history) :
    ∃ m, n ≤ m ∧ ((server.stateAt w schedule m).Removed c ∨
      (((server.stateAt w schedule m).loops 0).phase = .stopped ∨ JoinsForEver w schedule m) ∧
          .removeConnectionInLoop ∉ ((server.stateAt w schedule m).conns c).history ∨
      ((server.stateAt w schedule m).loops
        ((server.stateAt w schedule n).conns c).conn.loop).phase = .stopped) := by
  have plain := reachable.of_restrict
  obtain ⟨m, later, outcome⟩ : ∃ m, n ≤ m ∧
      (.removeConnectionInLoop ∈ ((server.stateAt w schedule m).conns c).history ∨
        ((server.stateAt w schedule m).loops 0).phase = .stopped ∨
          JoinsForEver w schedule m) := by
    by_cases returns : ∃ k, JoinsForEver w schedule k
    · obtain ⟨k, joins⟩ := returns
      exact ⟨max n k, Nat.le_max_left n k, .inr (.inr (joins.mono (Nat.le_max_right n k)))⟩
    · have base := run.acts plain (not_exists.mp returns) (Nat.zero_le _)
      have leaving := closed_departing (plain.stateAt run.admitted n) closed
      obtain ⟨m, later, outcome⟩ := removal_runs run plain base leaving
      exact ⟨m, later, outcome.imp_right .inl⟩
  by_cases ran : .removeConnectionInLoop ∈ ((server.stateAt w schedule m).conns c).history
  · by_cases removed : (server.stateAt w schedule m).Removed c
    · exact ⟨m, later, .inl removed⟩
    · have known := (history_stateAt run plain ran (Nat.le_refl m)).1
      cases keeper (few_stateAt run reachable few m) known removed with
      | entry stored =>
          exact absurd (.inl ran) (inService_of_entry (plain.stateAt run.admitted m) stored).2
      | destruction waits =>
          obtain ⟨m', later', returned | stopped⟩ := destruction_returns run plain waits
          · exact ⟨m', by omega, .inl returned⟩
          · have started := (history_stateAt run plain closed (Nat.le_refl n)).1
            have same : ((server.stateAt w schedule m).conns c).conn.loop =
                ((server.stateAt w schedule n).conns c).conn.loop :=
              target_stateAt run plain (show (Task.connectDestroyed c).conn < _ from started) later
            rw [same] at stopped
            exact ⟨m', by omega, .inr (.inr stopped)⟩
      | removal l onStack =>
          obtain ⟨m', later', returned⟩ := channel_removed run plain onStack
          exact ⟨m', by omega, .inl returned⟩
  · exact ⟨m, later, .inr (.inl ⟨outcome.resolve_left ran, ran⟩)⟩

/-- Every closed connection is cleaned up: `connectDestroyed` takes its channel out of the poller
when `removeConnectionInLoop`, called by the close callback, has taken it out of `connections_`, or
`~TcpServer` has.  This holds unless, before that, the base loop stops without the removal or is
kept from it for ever by a `join()`, the connection's own loop stops, or some step uses the
destroyed server. -/
theorem closed_connection_cleaned_up (run : FairRun w schedule)
    (reachable : (server.restrict World.FewAccepted).Reachable w)
    (few : ∀ n, (server.stateAt w schedule n).accepted < 2 ^ 32) {n : Nat}
    (closed : .handleClose ∈ ((server.stateAt w schedule n).conns c).history)
    (present : .connectDestroyedReturned ∉ ((server.stateAt w schedule n).conns c).history) :
    ∃ m, n ≤ m ∧
      ((server.stateAt w schedule m).CleanedUp c ∧
          (∀ k, n ≤ k → k < m → ¬ (server.stateAt w schedule k).UsesDestroyed (schedule k)) ∨
        .connectDestroyedReturned ∉ ((server.stateAt w schedule m).conns c).history ∧
          ((((server.stateAt w schedule m).loops 0).phase = .stopped ∨
                JoinsForEver w schedule m) ∧
              .removeConnectionInLoop ∉ ((server.stateAt w schedule m).conns c).history ∨
            ((server.stateAt w schedule m).loops
              ((server.stateAt w schedule n).conns c).conn.loop).phase = .stopped ∨
            (server.stateAt w schedule m).UsesDestroyed (schedule m))) := by
  have plain := reachable.of_restrict
  obtain ⟨m, later, outcome⟩ := closed_connection_removed run reachable few closed
  by_cases removed : (server.stateAt w schedule m).Removed c
  · -- the step that removes the channel is the one that counts
    obtain ⟨k, first, last, before, after⟩ :=
      exists_crossing (P := fun m => (server.stateAt w schedule m).Removed c) present later removed
    have still : ∀ j, j ≤ k → ¬ (server.stateAt w schedule j).Removed c :=
      fun j earlier removed => before (history_stateAt run plain removed earlier).2
    by_cases used : ∃ j, n ≤ j ∧ j ≤ k ∧ (server.stateAt w schedule j).UsesDestroyed (schedule j)
    · obtain ⟨j, begun, earlier, uses⟩ := used
      exact ⟨j, begun, .inr ⟨still j earlier, .inr (.inr uses)⟩⟩
    · have known := (history_stateAt run plain closed first).1
      have removes := (World.returned_next (run.admitted k) known after).resolve_left before
      refine ⟨k + 1, Nat.le_succ_of_le first, .inl ⟨?_, fun j begun earlier uses => ?_⟩⟩
      · exact cleanedUp_of_removal (few_stateAt run reachable few k) (run.admitted k) (few (k + 1))
          removes
      · exact used ⟨j, begun, Nat.le_of_lt_succ earlier, uses⟩
  · refine ⟨m, later, .inr ⟨removed, ?_⟩⟩
    exact (outcome.resolve_left removed).imp_right .inl

end Runs

/-- Connection 0 has been accepted. -/
def demoAccepted : List Action := demoEntering ++ [.poll 0 [.acceptor], .handleEvent 0 true]

/-- Loop 1 runs `connectEstablished` in its next batch, and both loops quit. -/
def demoEstablishing : List Action :=
  [.poll 1 [], .doPendingFunctors 1, .run 1 demoKernel, .userReturn 1, .quit 1, .endBatch 1,
    .destroyLoop 1, .doPendingFunctors 0, .quit 0, .endBatch 0]

theorem demoEstablishing_fair :
    FairRun (server.exec (demoServer 1 1) demoAccepted) (demoEstablishing.getD · (.quit 0)) := by
  apply FairRun.of_both_ended (by decide +kernel) (by decide +kernel)
  · exact ⟨⟨by decide +kernel, by decide +kernel⟩, nofun⟩
  · exact ⟨⟨by decide +kernel, by decide +kernel⟩, fun _ => by decide +kernel⟩

theorem accepted_connection_established_demo :
    ∃ m, 0 ≤ m ∧ ((server.stateAt (server.exec (demoServer 1 1) demoAccepted)
        (demoEstablishing.getD · (.quit 0)) m).Up 0 ∨
      ((server.stateAt (server.exec (demoServer 1 1) demoAccepted)
        (demoEstablishing.getD · (.quit 0)) m).loops
          ((server.stateAt (server.exec (demoServer 1 1) demoAccepted)
            (demoEstablishing.getD · (.quit 0)) 0).conns 0).conn.loop).phase = .stopped) := by
  have admitted : server.Admits (demoServer 1 1) demoAccepted := by decide +kernel
  have reachable := admitted.reachable (demoServer_initial 1 1)
  exact accepted_connection_established (n := 0) demoEstablishing_fair reachable (by decide +kernel)

/-- The peer has closed connection 0, and its callback is being invoked. -/
def demoClosed : List Action :=
  demoOpening ++ [.poll 1 [.channel 0 EPOLLHUP], .handleEvent 1 true, .run 1 demoKernel]

/-- The connection is cleaned up, and then both loops quit. -/
def demoCleanup : List Action :=
  [.userReturn 1, .run 1 demoKernel, .run 1 demoKernel, .doPendingFunctors 0, .run 0 demoKernel,
    .doPendingFunctors 1, .run 1 demoKernel, .run 1 demoKernel, .quit 0, .quit 1, .endBatch 0,
    .endBatch 1, .destroyLoop 1]

theorem demoCleanup_fair :
    FairRun (server.exec (demoServer 1 1) demoClosed) (demoCleanup.getD · (.quit 0)) := by
  apply FairRun.of_both_ended (by decide +kernel) (by decide +kernel)
  · exact ⟨⟨by decide +kernel, by decide +kernel⟩, nofun⟩
  · exact ⟨⟨by decide +kernel, by decide +kernel⟩, fun _ => by decide +kernel⟩

/-- Not many connections are accepted meanwhile. -/
theorem demoCleanup_few (n : Nat) : (server.stateAt (server.exec (demoServer 1 1) demoClosed)
    (demoCleanup.getD · (.quit 0)) n).accepted < 2 ^ 32 := by
  have stays : ∀ w : World, w.accepted < 2 ^ 32 →
      (server.restrict World.FewAccepted).enabled w (.quit 0) ∧
        (w.next (.quit 0)).accepted < 2 ^ 32 :=
    fun w few => ⟨⟨Nat.zero_le _, few⟩, few⟩
  have front : (server.restrict World.FewAccepted).Admits
      (server.exec (demoServer 1 1) demoClosed) demoCleanup := by decide +kernel
  have admitted := (Machine.admitsEndless_getD stays front (by decide +kernel)).1
  cases n with
  | zero => decide +kernel
  | succ n =>
      have step := (admitted n).2
      rw [Machine.restrict_stateAt] at step
      exact step

theorem closed_connection_cleaned_up_demo :
    ∃ m, 0 ≤ m ∧
      ((server.stateAt (server.exec (demoServer 1 1) demoClosed)
          (demoCleanup.getD · (.quit 0)) m).CleanedUp 0 ∧
          (∀ k, 0 ≤ k → k < m → ¬ (server.stateAt (server.exec (demoServer 1 1) demoClosed)
            (demoCleanup.getD · (.quit 0)) k).UsesDestroyed (demoCleanup.getD k (.quit 0))) ∨
        .connectDestroyedReturned ∉ ((server.stateAt (server.exec (demoServer 1 1) demoClosed)
            (demoCleanup.getD · (.quit 0)) m).conns 0).history ∧
          ((((server.stateAt (server.exec (demoServer 1 1) demoClosed)
              (demoCleanup.getD · (.quit 0)) m).loops 0).phase = .stopped ∨
                JoinsForEver (server.exec (demoServer 1 1) demoClosed)
                  (demoCleanup.getD · (.quit 0)) m) ∧
              .removeConnectionInLoop ∉ ((server.stateAt (server.exec (demoServer 1 1) demoClosed)
                (demoCleanup.getD · (.quit 0)) m).conns 0).history ∨
            ((server.stateAt (server.exec (demoServer 1 1) demoClosed)
              (demoCleanup.getD · (.quit 0)) m).loops
                ((server.stateAt (server.exec (demoServer 1 1) demoClosed)
                  (demoCleanup.getD · (.quit 0)) 0).conns 0).conn.loop).phase = .stopped ∨
            (server.stateAt (server.exec (demoServer 1 1) demoClosed)
              (demoCleanup.getD · (.quit 0)) m).UsesDestroyed (demoCleanup.getD m (.quit 0)))) := by
  have few : (server.restrict World.FewAccepted).Admits (demoServer 1 1) demoClosed := by
    decide +kernel
  have reachable := few.reachable (demoServer_initial 1 1)
  rw [Machine.restrict_exec] at reachable
  exact closed_connection_cleaned_up (n := 0) demoCleanup_fair reachable demoCleanup_few
    (by decide +kernel) (by decide +kernel)

end EduMuduo
