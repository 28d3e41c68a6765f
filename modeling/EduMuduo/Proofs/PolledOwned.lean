/-
Module: EduMuduo.Proofs.PolledOwned
Layer: Proofs
Purpose: The pointers to a connection that are no `shared_ptr`.  Until `connectDestroyed` has taken
  the channel out of the poller the connection has a keeper, the entry in `connections_` or that
  functor, so a poller has no pointer to a channel that is gone while its loop exists, unless a job
  puts the channel back; and the member functions that loops run on a connection find it alive, the
  functors with a raw `this` apart.
Imports: EduMuduo.Proofs.Announcement, EduMuduo.Proofs.Lifecycle, EduMuduo.Proofs.RawFunctors,
  EduMuduo.Proofs.StateOrder
Trusted boundary: none
Main exports: World.Keeper, kept_until_removed, registered_channel_owned, channel_put_back,
  member_function_finds_owner
-/
import EduMuduo.Proofs.Announcement
import EduMuduo.Proofs.Lifecycle
import EduMuduo.Proofs.RawFunctors
import EduMuduo.Proofs.StateOrder

namespace EduMuduo

open Library

namespace World

/-! ### Keepers -/

/-- What takes the channel of a connection out of the poller in the end: the entry whose removal
queues `connectDestroyed`, this functor, or the rest of it. -/
inductive Keeper (w : World) (c : ConnId) : Prop where
  | entry (stored : ((w.conns c).conn.name, c) ∈ w.server.connections)
  | destruction (waits : w.Waits (.connectDestroyed c))
  | removal (l : LoopId) (onStack : .job (.removeChannel c) ∈ (w.loops l).stack)

/-- Each of them owns the connection, the functor as long as the loop exists. -/
theorem Keeper.owner {w : World} (placed : w.Placed) {c : ConnId} (keeper : w.Keeper c)
    (alive : (w.loops (w.conns c).conn.loop).destroyed = false) : w.Owner c := by
  cases keeper with
  | entry stored => exact .entry _ stored
  | destruction waits =>
      exact .of_waits placed waits (List.mem_singleton_self c) (alive_iff.mpr alive)
  | removal l onStack => exact .frame l _ onStack (List.mem_singleton_self c)

/-- Action `a` runs the end of `connectDestroyed`. -/
def RemovesFromPoller (w : World) (a : Action) (c : ConnId) : Prop :=
  ∃ l kernel, a = .run l kernel ∧ w.current l = some (.removeChannel c)

/-- The end of `connectDestroyed` stays on the stack until it is run. -/
theorem removal_next {w : World} {a : Action} (guard : w.Enabled a) {l : LoopId} {c : ConnId}
    (onStack : .job (.removeChannel c) ∈ (w.loops l).stack) :
    w.RemovesFromPoller a c ∨ .job (.removeChannel c) ∈ ((w.next a).loops l).stack := by
  by_cases takes : w.TakesUp a l (.removeChannel c)
  · obtain ⟨⟨kernel, running⟩, current⟩ := takes.runs guard trivial
    exact .inl ⟨l, kernel, running, current⟩
  · exact .inr (stacked_next guard onStack takes)

/-- `connectDestroyed` leaves its end on the stack. -/
theorem Keeper.of_destruction {w : World} {l : LoopId} {kernel : Kernel}
    (guard : w.Enabled (.run l kernel)) {c : ConnId}
    (current : w.current l = some (.task (.connectDestroyed c))) :
    (w.next (.run l kernel)).Keeper c := by
  obtain ⟨job, loop, fetched, found, _⟩ := enabled_run guard
  cases current.symm.trans found
  refine .removal l ?_
  rw [run_stack kernel fetched, if_pos rfl]
  apply List.mem_append_left
  exact List.mem_append_right _ (List.mem_singleton_self _)

/-- The removal of a stored connection queues `connectDestroyed`. -/
theorem Keeper.of_removal {w : World} {l : LoopId} {kernel : Kernel}
    (guard : w.Enabled (.run l kernel)) {c : ConnId}
    (current : w.current l = some (.task (.removeConnectionInLoop c)))
    (stored : w.server.connections.contains (w.conns c).conn.name = true) :
    (w.next (.run l kernel)).Keeper c := by
  obtain ⟨job, loop, fetched, found, _⟩ := enabled_run guard
  cases current.symm.trans found
  apply Keeper.destruction
  apply run_waits fetched
  simp only [perform, runTask, removeConnectionInLoop, if_pos stored, List.mem_singleton]

/-- The entry of a connection goes only when `connectDestroyed` has been queued for it. -/
theorem Keeper.entry_next {w : World} (placed : w.Placed) (numbered : w.Numbered) {a : Action}
    (guard : w.Enabled a) {c : ConnId} (known : c < w.created)
    (stored : ((w.conns c).conn.name, c) ∈ w.server.connections) : (w.next a).Keeper c := by
  have named := (placed.next_extends guard).name c known
  by_cases erased : ∃ c', w.Erases a c' ∧ (w.conns c').conn.name = (w.conns c).conn.name
  · obtain ⟨c', erases, same⟩ := erased
    rcases erases with ⟨l, kernel, running, current⟩ | running
    · have known' := (placed.current_ok current).known
      obtain rfl := numbered.distinct c' known' c known same
      subst running
      exact .of_removal guard current (ConnectionMap.contains_of_mem stored)
    · subst running
      have known' := (placed.entries _ _ guard.2).1
      obtain rfl := numbered.distinct c' known' c known same
      exact .destruction (runInLoop_waits _ _ _ _)
  · apply Keeper.entry
    rw [named]
    refine (mem_entry_next guard known _).mpr ⟨stored, fun c' erases same => ?_⟩
    exact erased ⟨c', erases, same⟩

/-- A connection keeps a keeper until its channel is removed. -/
theorem Keeper.next {w : World} (placed : w.Placed) (numbered : w.Numbered) {a : Action}
    (guard : w.Enabled a) {c : ConnId} (known : c < w.created) (keeper : w.Keeper c) :
    w.RemovesFromPoller a c ∨ (w.next a).Keeper c := by
  cases keeper with
  | entry stored => exact .inr (.entry_next placed numbered guard known stored)
  | destruction waits =>
      rcases waits.next placed guard with ⟨l, kernel, running, current⟩ | still
      · subst running
        exact .inr (.of_destruction guard current)
      · exact .inr (.destruction still)
  | removal l onStack => exact (removal_next guard onStack).imp_right (.removal l)

/-! ### Registration -/

/-- `connectDestroyed` has returned. -/
def Removed (w : World) (c : ConnId) : Prop := .connectDestroyedReturned ∈ (w.conns c).history

instance (w : World) (c : ConnId) : Decidable (w.Removed c) :=
  inferInstanceAs (Decidable (_ ∈ _))

/-- A job on a connection whose channel has been removed does not ask the poller for anything: a
functor of `send` leaves nothing to write, and no handler closes it or drains its buffer. -/
def Spares (w : World) (kernel : Kernel) (job : Job) : Prop :=
  w.Removed job.conn →
    (∀ data ∈ job.message?, (w.conns job.conn).conn.channel.isWriting = false →
      (w.conns job.conn).conn.LeavesNothing data kernel.write) ∧
    kernel.closes job = false ∧
    (job = .callback .write job.conn → (w.conns job.conn).conn.channel.isWriting = false)

instance (w : World) (kernel : Kernel) (job : Job) : Decidable (w.Spares kernel job) :=
  inferInstanceAs (Decidable (_ → _ ∧ _ ∧ _))

/-- Fewer than 2^32 sockets are accepted. -/
def FewAccepted (w : World) (a : Action) : Prop := (w.next a).accepted < 2 ^ 32

instance (w : World) (a : Action) : Decidable (w.FewAccepted a) :=
  inferInstanceAs (Decidable (_ < _))

/-- Besides, no job puts a removed channel back. -/
def SparesPoller (w : World) (a : Action) : Prop := w.FewAccepted a ∧ w.OnJobs Spares a

instance (w : World) (a : Action) : Decidable (w.SparesPoller a) :=
  inferInstanceAs (Decidable (_ ∧ _))

/-- Of the jobs on a connection whose channel has been removed only `connectEstablished` enters it
in `channels_`, and `connectDestroyed` may. -/
theorem Deed.maps {w : World} {l : LoopId} {kernel : Kernel} {job : Job}
    {after : TcpConnection} {events : List Event}
    (deed : Deed l kernel (w.conns job.conn).conn job after events)
    (fits : w.KernelFits kernel job) (spares : w.Spares kernel job)
    (removed : w.Removed job.conn) (mapped : after.channel.mapped = true) :
    (w.conns job.conn).conn.channel.mapped = true ∨
      job = .task (.connectEstablished job.conn) ∨ job = .task (.connectDestroyed job.conn) := by
  cases before : (w.conns job.conn).conn.channel.mapped with
  | true => exact .inl rfl
  | false =>
      right
      obtain ⟨leaves, open', idle⟩ := spares removed
      have same : after.channel = (w.conns job.conn).conn.channel → False := by
        intro same
        rw [same, before] at mapped
        cases mapped
      cases deed with
      | establish c => exact .inl rfl
      | destroy c => exact .inr rfl
      | send c data caller =>
          apply (same _).elim
          change ((w.conns c).conn.sendInLoop data kernel.write).1.channel =
            (w.conns c).conn.channel
          cases writing : (w.conns c).conn.channel.isWriting with
          | false => exact (leaves data rfl writing).channel writing
          | true =>
              cases (w.conns c).conn.sendInLoop_effect data kernel.write with
              | written quiet _ _ _ _ _ | discarded quiet _ _ _ _ _ | split quiet _ _ _ _ _ =>
                  rw [writing] at quiet
                  cases quiet
              | buffered _ _ equal =>
                  rw [equal]
                  exact if_neg (by rw [writing]; exact Bool.false_ne_true.symm)
              | nothing _ _ equal => rw [equal]
      | close callback c input closing =>
          have closes : kernel.closes (.callback callback c) = true := by
            rcases closing with rfl | ⟨rfl, nothing⟩
            · rfl
            · exact decide_eq_true nothing
          rw [closes] at open'
          cases open'
      | write c =>
          apply (same _).elim
          rw [TcpConnection.handleWrite_idle _ (idle rfl)]
      | removeChannel c =>
          rw [PolledChannel.mapped_iff, TcpConnection.removeChannel,
            PolledChannel.remove_index] at mapped
          exact absurd rfl mapped
      | shutdown c =>
          apply (same _).elim
          rw [TcpConnection.shutdownInLoop_eq]
      | remove c | other job | error c | read c input events received | closeCallback c =>
          exact (same rfl).elim

/-- The poller has no trace of the channel: neither `channels_` nor the interest list. -/
structure OutOfPoller (w : World) (c : ConnId) : Prop where
  unmapped : (w.conns c).conn.channel.mapped = false
  unregistered : (w.conns c).conn.channel.registered = false

/-- The end of `connectDestroyed` takes the channel out of the poller. -/
theorem RemovesFromPoller.outOfPoller {w : World} {a : Action} (guard : w.Enabled a) {c : ConnId}
    (removes : w.RemovesFromPoller a c) : (w.next a).OutOfPoller c := by
  obtain ⟨l, kernel, rfl, current⟩ := removes
  obtain ⟨job, loop, fetched, found, _⟩ := enabled_run guard
  cases current.symm.trans found
  have channel : ((w.next (.run l kernel)).conns c).conn.channel =
      (w.conns c).conn.channel.remove := by
    rw [run_conns fetched]
    change (Function.update w.conns c _ c).conn.channel = _
    rw [Function.update_self]
    rfl
  constructor
  · rw [channel, ← Bool.not_eq_true, PolledChannel.mapped_iff, PolledChannel.remove_index]
    exact fun new => new rfl
  · rw [channel, ← Bool.not_eq_true, PolledChannel.registered_iff, PolledChannel.remove_index]
    exact nofun

end World

/-- A connection whose channel has been removed had been established. -/
theorem removed_up {w : World} (reachable : server.Reachable w) {c : ConnId}
    (removed : w.Removed c) : w.Up c :=
  destroyed_up reachable (destroyed_of_returned reachable removed)

namespace World

/-- The step that removes a channel is the one that ends `connectDestroyed`. -/
theorem returned_next {w : World} {a : Action} (guard : w.Enabled a) {c : ConnId}
    (known : c < w.created) (removed : (w.next a).Removed c) :
    w.Removed c ∨ w.RemovesFromPoller a c := by
  rcases mem_next_history guard removed (Nat.ne_of_lt known) with
    old | ⟨l, kernel, job, running, current, about, here, emits⟩
  · exact .inl old
  · cases emits with
    | returned c' =>
        obtain rfl : c' = c := about
        exact .inr ⟨l, kernel, running, current⟩

theorem RemovesFromPoller.removed {w : World} {a : Action} (guard : w.Enabled a) {c : ConnId}
    (removes : w.RemovesFromPoller a c) : (w.next a).Removed c := by
  obtain ⟨l, kernel, rfl, current⟩ := removes
  exact mem_run_history guard current List.mem_cons_self

/-- What is not in `channels_` stays out of it on a removed connection. -/
theorem mapped_next {w : World} {a : Action} (guard : w.Enabled a) (spares : w.SparesPoller a)
    {c : ConnId} (known : c < w.created) (removed : w.Removed c)
    (mapped : ((w.next a).conns c).conn.channel.mapped = true) :
    (w.conns c).conn.channel.mapped = true ∨ ∃ l kernel, a = .run l kernel ∧
      (w.current l = some (.task (.connectEstablished c)) ∨
        w.current l = some (.task (.connectDestroyed c))) := by
  have change := next_change guard c
  generalize (w.next a).conns c = tracked at change mapped
  cases change with
  | same | exchanged | marked | retrieved => exact .inl mapped
  | constructed new => exact absurd new (Nat.ne_of_lt known)
  | performed l kernel job running current about here fits after events conn log deed =>
      subst running about
      rcases deed.maps fits (spares.2 job current) removed mapped with old | same | same
      · exact .inl old
      · exact .inr ⟨l, kernel, rfl, .inl (current.trans (congrArg some same))⟩
      · exact .inr ⟨l, kernel, rfl, .inr (current.trans (congrArg some same))⟩

end World

/-- The new connection is entered, for its name is free. -/
theorem keeper_new {w : World} (placed : w.Placed) (numbered : w.Numbered) {a : Action}
    (guard : w.Enabled a) (few : w.FewAccepted a) (grown : (w.next a).created ≠ w.created) :
    (w.next a).Keeper w.created := by
  obtain ⟨_, _, same | ⟨_, accepted⟩⟩ := (World.next_registry guard).counters numbered.nextConnId
  · exact absurd same grown
  · apply World.Keeper.entry
    rw [World.next_constructed grown]
    apply (World.mem_entry_new placed guard grown).mpr
    apply numbered.free placed
    change (w.next a).accepted = w.accepted + 1 at accepted
    exact accepted ▸ few

theorem numbered_few {w : World} (reachable : (server.restrict World.FewAccepted).Reachable w) :
    w.Numbered := by
  refine reachable.invariant (I := World.Numbered) ?_ ?_
  · rintro w ⟨name, ipPort, callbacks, ioLoops, users, rfl⟩
    exact ⟨rfl, nofun, nofun⟩
  · exact fun w a before numbered guard =>
      numbered.next (placed before.of_restrict) guard.1 guard.2

/-- Until its channel is removed a connection has a keeper. -/
theorem keeper {w : World} (reachable : (server.restrict World.FewAccepted).Reachable w)
    {c : ConnId} (known : c < w.created) (present : ¬ w.Removed c) : w.Keeper c := by
  revert known present
  refine reachable.invariant
    (I := fun w => c < w.created → ¬ w.Removed c → w.Keeper c) ?_ ?_
  · rintro w ⟨name, ipPort, callbacks, ioLoops, users, rfl⟩ known
    exact absurd known (Nat.not_lt_zero c)
  · intro w a before keeper guard known' present
    have placed := placed before.of_restrict
    have numbered := numbered_few before
    have later := placed.next_extends guard.1
    rcases Nat.lt_or_ge c w.created with known | unknown
    · have wasPresent : ¬ w.Removed c := fun removed => present (later.history c known _ removed)
      rcases (keeper known wasPresent).next placed numbered guard.1 known with removes | still
      · exact absurd (removes.removed guard.1) present
      · exact still
    · obtain rfl := World.eq_created_of_next unknown known'
      exact keeper_new placed numbered guard.1 guard.2 (Nat.ne_of_gt known')

/-- `~TcpServer` has erased the connection, the user's copy is gone, and the functor of
`connectDestroyed` is the last owner of a connection that is still polled. -/
def demoLastOwner : List Action :=
  demoOpening ++ [.drop 0 0, .destroyServer, .destroyConnection 0, .destroyMember]

/-- A channel in `channels_` has a keeper. -/
theorem mapped_keeper {w : World}
    (reachable : (server.restrict World.SparesPoller).Reachable w) {c : ConnId}
    (mapped : (w.conns c).conn.channel.mapped = true) : w.Keeper c := by
  revert mapped
  refine reachable.invariant
    (I := fun w => (w.conns c).conn.channel.mapped = true → w.Keeper c) ?_ ?_
  · rintro w ⟨name, ipPort, callbacks, ioLoops, users, rfl⟩ mapped
    cases mapped
  · intro w a before keeper' guard mapped
    have placedBefore := placed before.of_restrict
    have placedAfter := placedBefore.next guard.1
    have few : (server.restrict World.FewAccepted).Reachable w :=
      before.restrict_mono fun _ _ spares => spares.1
    have fewAfter := few.step ⟨guard.1, guard.2.1⟩
    change ((w.next a).conns c).conn.channel.mapped = true at mapped
    have known' : c < (w.next a).created := by
      by_contra unknown
      have down : ¬ (w.next a).Up c := fun up => unknown up.1
      rw [PolledChannel.mapped_iff, ((placedAfter.conns c).untouched down).1] at mapped
      exact absurd rfl mapped
    by_cases removed : (w.next a).Removed c
    · have known : c < w.created := by
        by_contra unknown
        have blank := placedBefore.next_history_unknown guard.1 (Nat.le_of_not_lt unknown)
        rw [World.Removed, blank] at removed
        exact absurd removed List.not_mem_nil
      have notRemoving : ¬ w.RemovesFromPoller a c := by
        intro removes
        rw [(removes.outOfPoller guard.1).unmapped] at mapped
        cases mapped
      have wasRemoved := (World.returned_next guard.1 known removed).resolve_right notRemoving
      rcases World.mapped_next guard.1 guard.2 known wasRemoved mapped with
        old | ⟨l, kernel, rfl, establishes | destroys⟩
      · exact ((keeper' old).next placedBefore (numbered_few few) guard.1 known).resolve_left
          notRemoving
      · have down := (establishToken before.of_restrict).not_up_of_current establishes
        exact absurd (removed_up before.of_restrict wasRemoved) down
      · exact .of_destruction guard.1 destroys
    · exact keeper fewAfter known' removed

/-- A connection of a server without a pool is `Disconnecting`, has bytes left to write, and is
readable and writable. -/
def demoHalfClosed : List Action :=
  demoBaseEntering ++
    [.poll 0 [.acceptor], .handleEvent 0 true, .run 0 demoKernel, .userSend 0 0 [1, 2, 3],
      .run 0 demoKernel, .userShutdown 0 0, .run 0 demoKernel, .userReturn 0,
      .doPendingFunctors 0, .endBatch 0, .poll 0 [.channel 0 (EPOLLIN ||| EPOLLOUT)],
      .handleEvent 0 true]

/-- In its message callback the user destroys the server.  `connectDestroyed` removes the channel
and leaves its write interest, so the write handler of the same event drains the buffer and
`disableWriting` puts the channel back. -/
def demoPutBack : List Action :=
  [.run 0 ⟨.data [7], .accepted 2⟩, .destroyServer, .destroyConnection 0, .run 0 demoKernel,
    .run 0 demoKernel, .destroyMember, .destroyMember, .userReturn 0,
    .run 0 ⟨.data [7], .accepted 2⟩, .run 0 demoKernel]

/-- Whatever a buffer holds, it has room for the byte that is read. -/
theorem demoPutBack_admitted : server.Admits (demoServer 0 0) (demoHalfClosed ++ demoPutBack) := by
  have opened : server.Admits (demoServer 0 0) demoHalfClosed := by decide +kernel
  have fits : ∀ buffer : SafeBuffer, (ReadResult.data [7]).Fits buffer.raw.readRoom :=
    fun buffer => Nat.le_trans (by decide) buffer.kExtraBufSize_le_readRoom
  apply Machine.admits_append.mpr
  constructor
  · exact opened
  · constructor
    · exact ⟨by decide, .callback .read 0, by decide +kernel, trivial, fits _⟩
    · decide +kernel

/-- Then `channels_` keeps a pointer to a connection that is gone. -/
theorem channel_put_back :
    ¬ ∀ (w : World) (c : ConnId), server.Reachable w →
      (w.conns c).conn.channel.mapped = true →
        (w.loops (w.conns c).conn.loop).destroyed = false → w.owned c = true := by
  intro claim
  have found := claim _ 0 (demoPutBack_admitted.reachable (demoServer_initial 0 0))
    (by decide +kernel) (by decide +kernel)
  revert found
  decide +kernel

/-- A job is done by an object that is alive: only the functors that have captured a raw `this`
bring no owner along. -/
theorem member_function_finds_owner {w : World} (reachable : server.Reachable w) {l : LoopId}
    {job : Job} (current : w.current l = some job)
    (shared : ∀ task, job = .task task → task.raw = false) : w.owned job.conn = true := by
  obtain ⟨loop, fetched⟩ := World.exists_fetch current
  have placed := placed reachable
  have range := (inRange reachable).held placed
  apply range.owned_iff.mpr
  cases job with
  | task task =>
      apply World.Owner.of_job fetched placed.running
      rw [Job.held, Task.held, if_neg (by rw [shared task rfl]; exact Bool.false_ne_true)]
      exact List.mem_singleton_self _
  | callback callback c =>
      -- `handleEvent` holds the `guard` below
      rcases Loop.fetch_stack fetched with top | ⟨_, _, task, same⟩
      · have guarded := guarded reachable l
        rw [top] at guarded
        apply World.Owner.frame l (.job (.releaseGuard c))
        · rw [top]
          exact List.mem_cons_of_mem _ (guarded.mem rfl)
        · exact List.mem_singleton_self c
      · cases same
  | closeCallback c | releaseGuard c | removeChannel c =>
      exact World.Owner.of_job fetched placed.running (List.mem_singleton_self _)

theorem member_function_finds_owner_demo :
    (server.exec (demoServer 1 1) (demoOpening ++
      [.drop 0 0, .poll 1 [.channel 0 EPOLLHUP], .handleEvent 1 true])).owned 0 = true := by
  have admitted : server.Admits (demoServer 1 1) (demoOpening ++
      [.drop 0 0, .poll 1 [.channel 0 EPOLLHUP], .handleEvent 1 true]) := by decide +kernel
  have current : (server.exec (demoServer 1 1) (demoOpening ++
      [.drop 0 0, .poll 1 [.channel 0 EPOLLHUP], .handleEvent 1 true])).current 1 =
        some (.callback .close 0) := by decide +kernel
  exact member_function_finds_owner (admitted.reachable (demoServer_initial 1 1)) current nofun

end EduMuduo
