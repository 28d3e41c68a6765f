/-
Module: EduMuduo.Proofs.Lifecycle
Layer: Proofs
Purpose: The life of a connection of a server that is not destroyed.  `connectEstablished`,
  `removeConnectionInLoop` and `connectDestroyed` are hops from loop to loop; each hop is queued by
  the one before, and the erasure from `connections_` lets only the first removal through.
Imports: EduMuduo.Library.History, EduMuduo.Proofs.Registry
Trusted boundary: none
Main exports: Event.InOrder, World.Lifecycle, lifecycle
-/
import EduMuduo.Library.History
import EduMuduo.Proofs.Registry

namespace EduMuduo

open Library

/-! ### No destructor runs -/

/-- A frame of `~TcpServer`. -/
def Frame.isDestructor : Frame → Bool
  | .destroyServer | .quitThread _ | .joinThread _ | .destroyAcceptor => true
  | .job _ | .user _ => false

namespace World

theorem Leaves.isDestructor {c : ConnId} {frame : Frame} (leaves : Leaves c frame) :
    frame.isDestructor = false := by
  cases leaves <;> rfl

theorem Dispatches.isDestructor {c : ConnId} {frame : Frame} (dispatches : Dispatches c frame) :
    frame.isDestructor = false := by
  cases dispatches <;> rfl

/-- What a later step of `~TcpServer` continues from. -/
theorem memberReady_top {w : World} {stack : List Frame} (ready : w.MemberReady stack) :
    ∃ frame ∈ stack, frame.isDestructor = true := by
  match stack, ready with
  | .destroyServer :: rest, _ => exact ⟨_, List.mem_cons_self, rfl⟩
  | .quitThread l :: rest, _ => exact ⟨_, List.mem_cons_self, rfl⟩
  | .joinThread l :: rest, _ => exact ⟨_, List.mem_cons_self, rfl⟩
  | .destroyAcceptor :: rest, _ => exact ⟨_, List.mem_cons_self, rfl⟩

/-- No frame of a destructor is on any stack. -/
def Undestroyed (w : World) : Prop :=
  ∀ l, ∀ frame ∈ (w.loops l).stack, frame.isDestructor = false

theorem Undestroyed.next {w : World} (undestroyed : w.Undestroyed) {a : Action}
    (guard : w.Enabled a) (living : a ≠ .destroyServer) : (w.next a).Undestroyed := by
  intro l frame member
  rcases mem_stack_next guard member with old | new
  · exact undestroyed l frame old
  cases new with
  | dispatched named running c _ dispatches => exact dispatches.isDestructor
  | left kernel job running current _ left =>
      exact (w.perform_leaves l kernel job frame left).isDestructor
  | called task idle pushed => rfl
  | took t c running held => rfl
  | destroying running => exact absurd running living
  | member running _ plain =>
      subst running
      obtain ⟨destructor, onStack, is⟩ := memberReady_top guard
      rw [undestroyed 0 destructor onStack] at is
      cases is

end World

theorem undestroyed {w : World} (reachable : (server.restrict World.Living).Reachable w) :
    w.Undestroyed := by
  refine reachable.invariant (I := World.Undestroyed) ?_ ?_
  · rintro w ⟨name, ipPort, callbacks, ioLoops, users, rfl⟩
    exact fun _ => nofun
  · exact fun w a _ undestroyed guard => undestroyed.next guard.1 guard.2.1

/-- Nor does it get at a connection. -/
theorem ne_destroyConnection {w : World}
    (reachable : (server.restrict World.Living).Reachable w) {a : Action} (guard : w.Enabled a)
    (c : ConnId) : a ≠ .destroyConnection c := by
  rintro rfl
  have top := List.mem_of_mem_head? guard.1
  exact absurd (undestroyed reachable 0 _ top) (by decide)

namespace World

/-! ### The entry in `connections_` -/

/-- Action `a` runs `removeConnectionInLoop` for connection `c`. -/
def Removes (w : World) (a : Action) (c : ConnId) : Prop :=
  ∃ l kernel, a = .run l kernel ∧ w.current l = some (.task (.removeConnectionInLoop c))

theorem removes_run {w : World} {l : LoopId} {kernel : Kernel} {job : Job}
    (current : w.current l = some job) (c : ConnId) :
    w.Removes (.run l kernel) c ↔ job = .task (.removeConnectionInLoop c) := by
  constructor
  · rintro ⟨_, _, ⟨⟩, same⟩
    exact Option.some.inj (current.symm.trans same)
  · rintro rfl
    exact ⟨l, kernel, rfl, current⟩

theorem not_removes_of_ne {w : World} {a : Action} (idle : ∀ l kernel, a ≠ .run l kernel)
    (c : ConnId) : ¬ w.Removes a c := by
  rintro ⟨l, kernel, same, _⟩
  exact idle l kernel same

theorem removeConnectionInLoop_events (w : World) (c : ConnId) :
    (w.removeConnectionInLoop c).events = [.removeConnectionInLoop] := by
  rw [removeConnectionInLoop]
  split <;> rfl

/-- Only that job writes its event. -/
theorem removed_next {w : World} {a : Action} (guard : w.Enabled a) {c : ConnId}
    (known : c < w.created) :
    .removeConnectionInLoop ∈ ((w.next a).conns c).history ↔
      .removeConnectionInLoop ∈ (w.conns c).history ∨ w.Removes a c := by
  by_cases running : ∃ l kernel, a = .run l kernel
  · obtain ⟨l, kernel, rfl⟩ := running
    obtain ⟨job, loop, fetched, current, _⟩ := enabled_run guard
    rw [removes_run current, run_conns fetched, Function.update_apply]
    by_cases removal : job = .task (.removeConnectionInLoop c)
    · subst removal
      simp [Job.conn, Task.conn, perform, runTask, removeConnectionInLoop_events]
    · rw [or_iff_left removal]
      split
      · rename_i about
        subst about
        rw [List.mem_append]
        refine or_iff_left fun written => removal ?_
        have emits := (w.perform_deed l kernel job).emits written
        cases emits with
        | removed c => rfl
      · rfl
  · have idle : ∀ l kernel, a ≠ .run l kernel := fun l kernel same => running ⟨l, kernel, same⟩
    rw [next_history_of_ne guard idle known, or_iff_left (not_removes_of_ne idle c)]

/-- Action `a` erases the name of connection `c` from `connections_`, or finds it erased. -/
def Erases (w : World) (a : Action) (c : ConnId) : Prop :=
  w.Removes a c ∨ a = .destroyConnection c

/-- An entry of a known connection stays until its name is erased. -/
theorem mem_entry_next {w : World} {a : Action} (guard : w.Enabled a) {c : ConnId}
    (known : c < w.created) (name : String) :
    (name, c) ∈ (w.next a).server.connections ↔
      (name, c) ∈ w.server.connections ∧
        ∀ c', w.Erases a c' → (w.conns c').conn.name ≠ name := by
  by_cases destroys : ∃ c', a = .destroyConnection c'
  · obtain ⟨c', rfl⟩ := destroys
    have map : (w.next (.destroyConnection c')).server.connections =
        w.server.connections.erase (w.conns c').conn.name :=
      congrArg Registry.connections (runInLoop_registry _ _ _ _)
    rw [map, ConnectionMap.mem_erase]
    refine and_congr_right fun _ =>
      ⟨fun other c'' erases => ?_, fun erased => (erased c' (.inr rfl)).symm⟩
    rcases erases with ⟨_, _, running, _⟩ | same
    · cases running
    · cases same
      exact other.symm
  · have change := next_registry guard
    change (name, c) ∈ (w.next a).registry.connections ↔ _
    have plain : (∀ l kernel, a ≠ .run l kernel) → ∀ c', ¬ w.Erases a c' := by
      rintro idle c' (removes | destroying)
      · exact not_removes_of_ne idle c' removes
      · exact destroys ⟨c', destroying⟩
    generalize (w.next a).registry = registry at change ⊢
    cases change with
    | same other =>
        exact (and_iff_left fun c' erases => absurd erases (plain other c')).symm
    | counted l running =>
        refine (and_iff_left fun c' erases => absurd erases (plain ?_ c')).symm
        rintro _ _ rfl
        cases running
    | entered l running =>
        rw [and_iff_left fun c' erases => absurd erases (plain (by rintro _ _ rfl; cases running) c')]
        dsimp only [ConnectionMap.emplace]
        split
        · rfl
        · refine ⟨fun member => ?_, List.mem_cons_of_mem _⟩
          rcases List.mem_cons.mp member with same | old
          · cases same
            exact absurd known (Nat.lt_irrefl _)
          · exact old
    | ran l kernel job running current =>
        subst running
        have erases : ∀ c', w.Erases (.run l kernel) c' ↔
            job = .task (.removeConnectionInLoop c') := by
          intro c'
          rw [Erases, removes_run current]
          exact or_iff_left fun same => by cases same
        simp only [erases]
        have map := w.perform_connections l kernel job
        generalize (w.perform l kernel job).connections = connections at map ⊢
        cases map with
        | same job absent =>
            refine (and_iff_left_of_imp fun member c' removal same => ?_).symm
            have absent := absent c' removal
            rw [same, ConnectionMap.contains_of_mem member] at absent
            cases absent
        | erased c' stored =>
            rw [ConnectionMap.mem_erase]
            refine and_congr_right fun _ => ⟨?_, fun erased => (erased c' rfl).symm⟩
            rintro other _ ⟨⟩ same
            exact other same.symm
    | erased c' running => exact absurd ⟨c', running⟩ destroys

/-- A new connection is entered exactly where its name is free. -/
theorem mem_entry_new {w : World} (placed : w.Placed) {a : Action} (guard : w.Enabled a)
    (grown : (w.next a).created ≠ w.created) :
    (nextName w.server, w.created) ∈ (w.next a).server.connections ↔
      w.server.connections.contains (nextName w.server) = false := by
  have change := next_registry guard
  change (nextName w.server, w.created) ∈ (w.next a).registry.connections ↔ _
  change (w.next a).registry.created ≠ w.created at grown
  generalize (w.next a).registry = registry at change grown ⊢
  cases change with
  | entered l running =>
      dsimp only [ConnectionMap.emplace]
      split
      · rename_i taken
        refine iff_of_false (fun member => ?_) (by simp [taken])
        exact absurd (placed.entries _ _ member).1 (Nat.lt_irrefl _)
      · rename_i free
        exact iff_of_true List.mem_cons_self (eq_false_of_ne_true free)
  | same other | counted l running | ran l kernel job running current | erased c running =>
      exact absurd rfl grown

/-- A name leads to the connection that bears it. -/
theorem Numbered.contains {w : World} (numbered : w.Numbered) (placed : w.Placed) {c : ConnId}
    (known : c < w.created) :
    w.server.connections.contains (w.conns c).conn.name = true ↔
      ((w.conns c).conn.name, c) ∈ w.server.connections := by
  rw [ConnectionMap.contains, List.any_eq_true]
  constructor
  · rintro ⟨⟨name, c'⟩, member, same⟩
    rw [beq_iff_eq] at same
    obtain ⟨known', named⟩ := placed.entries name c' member
    obtain rfl := numbered.distinct c' known' c known (named.trans same)
    exact named.symm ▸ member
  · exact fun member => ⟨_, member, beq_self_eq_true _⟩

/-- The next name is free. -/
theorem Numbered.free {w : World} (numbered : w.Numbered) (placed : w.Placed)
    (few : w.accepted + 1 < 2 ^ 32) :
    w.server.connections.contains (nextName w.server) = false := by
  rw [← Bool.not_eq_true, ConnectionMap.contains, List.any_eq_true]
  rintro ⟨⟨name, c⟩, member, same⟩
  rw [beq_iff_eq] at same
  obtain ⟨known, named⟩ := placed.entries name c member
  obtain ⟨id, small, numberedSo⟩ := numbered.named c known
  have next : nextName w.server = w.nameOf (w.accepted + 1) := by
    rw [nextName, numbered.nextConnId, Nat.mod_eq_of_lt few]
    rfl
  have collision : w.nameOf id = w.nameOf (w.accepted + 1) :=
    numberedSo.symm.trans (named.trans (same.trans next))
  exact absurd (nameOf_inj collision) (by omega)

end World

/-- A step takes an entry of a known connection out exactly when it removes that connection. -/
theorem entry_next {w : World} (reachable : (server.restrict World.Living).Reachable w)
    {a : Action} (guard : w.Enabled a) {c : ConnId} (known : c < w.created) (name : String) :
    (name, c) ∈ (w.next a).server.connections ↔
      (name, c) ∈ w.server.connections ∧ ¬ w.Removes a c := by
  have placed := placed reachable.of_restrict
  rw [World.mem_entry_next guard known]
  refine and_congr_right fun entry => ⟨fun kept removes => ?_, fun never c' erases same => ?_⟩
  · exact kept c (.inl removes) (placed.entries name c entry).2
  · rcases erases with ⟨l, kernel, running, current⟩ | running
    · have known' := (placed.current_ok current).known
      have named := (placed.entries name c entry).2.trans same.symm
      obtain rfl := (numbered reachable).distinct c known c' known' named
      exact never ⟨l, kernel, running, current⟩
    · exact ne_destroyConnection reachable guard c' running

/-- A new connection is entered under the next name. -/
theorem entry_new {w : World} (reachable : (server.restrict World.Living).Reachable w)
    {a : Action} (guard : w.Enabled a) (few : (w.next a).accepted < 2 ^ 32)
    (grown : (w.next a).created ≠ w.created) :
    (World.nextName w.server, w.created) ∈ (w.next a).server.connections := by
  have numbered := numbered reachable
  obtain ⟨_, _, same | ⟨_, accepted⟩⟩ := (World.next_registry guard).counters numbered.nextConnId
  · exact absurd same grown
  · have placed := placed reachable.of_restrict
    refine (World.mem_entry_new placed guard grown).mpr (numbered.free placed ?_)
    exact accepted ▸ few

/-- A connection is stored under its name until the first removal, and never afterwards. -/
theorem entry_iff {w : World} (reachable : (server.restrict World.Living).Reachable w)
    {c : ConnId} (known : c < w.created) :
    ((w.conns c).conn.name, c) ∈ w.server.connections ↔
      .removeConnectionInLoop ∉ (w.conns c).history := by
  revert known
  refine reachable.invariant (I := fun w => c < w.created →
    (((w.conns c).conn.name, c) ∈ w.server.connections ↔
      .removeConnectionInLoop ∉ (w.conns c).history)) ?_ ?_
  · rintro w ⟨name, ipPort, callbacks, ioLoops, users, rfl⟩ known
    exact absurd known (Nat.not_lt_zero c)
  · intro w a before entry guard known'
    have placed := placed before.of_restrict
    rcases Nat.lt_or_ge c w.created with known | unknown
    · have named := (placed.next_extends guard.1).name c known
      change (((w.next a).conns c).conn.name, c) ∈ (w.next a).server.connections ↔
        .removeConnectionInLoop ∉ ((w.next a).conns c).history
      rw [named, entry_next before guard.1 known, entry known, World.removed_next guard.1 known,
        not_or]
    · change c < (w.next a).created at known'
      obtain rfl := World.eq_created_of_next unknown known'
      have grown : (w.next a).created ≠ w.created := Nat.ne_of_gt known'
      change (((w.next a).conns w.created).conn.name, w.created) ∈
        (w.next a).server.connections ↔
          .removeConnectionInLoop ∉ ((w.next a).conns w.created).history
      rw [World.next_constructed grown]
      exact iff_of_true (entry_new before guard.1 guard.2.2 grown) List.not_mem_nil

/-! ### The functor of `connectDestroyed` -/

namespace World

theorem Pushed.destroy {w : World} {a : Action} {l : LoopId} {c : ConnId}
    (pushed : Pushed w a l (.connectDestroyed c)) : a = .destroyConnection c := by
  cases pushed with
  | connectDestroyed _ running base here => exact running

/-- Only the removal of a stored connection and `~TcpServer` queue it. -/
theorem Appended.destroy {w : World} (placed : w.Placed) {a : Action} {l : LoopId} {c : ConnId}
    (appended : Appended w a l (.connectDestroyed c)) :
    a = .destroyConnection c ∨ w.Removes a c ∧
      w.server.connections.contains (w.conns c).conn.name = true := by
  cases appended with
  | byJob l' kernel job running current _ member target =>
      rcases (w.perform_calls l' kernel job).of_queued member with
        ⟨kind, same, _⟩ | ⟨c', same, removal, stored⟩ | ⟨c', same, _⟩
      · cases kind <;> cases same
      · cases same
        exact .inr ⟨⟨l', kernel, running, removal ▸ current⟩, stored⟩
      · cases same
  | submitted l' _ running top target =>
      exact absurd (placed.submitted_hop top) (by simp [Task.hop])
  | byThread t _ running calling target =>
      exact absurd ((placed.threads t).calling _ calling).1 (by simp [Task.hop])
  | connectDestroyed _ running here => exact .inl running

/-- What removes a connection was called by its `handleClose`. -/
theorem Removes.closed {w : World} (placed : w.Placed) {a : Action} {c : ConnId}
    (removes : w.Removes a c) : w.Up c ∧ .handleClose ∈ (w.conns c).history := by
  obtain ⟨l, kernel, _, current⟩ := removes
  obtain ⟨up, closed, _⟩ := (placed.current_ok current).1.2.2 c rfl
  exact ⟨up, closed⟩

end World

/-- `connectDestroyed` waits only for connections that are established and closed. -/
theorem destruction_closed {w : World} (reachable : (server.restrict World.Living).Reachable w)
    {c : ConnId} {l : LoopId} (waiting : .connectDestroyed c ∈ (w.loops l).tasks) :
    w.Up c ∧ .handleClose ∈ (w.conns c).history := by
  revert l
  refine reachable.invariant (I := fun w => ∀ {l}, .connectDestroyed c ∈ (w.loops l).tasks →
    w.Up c ∧ .handleClose ∈ (w.conns c).history) ?_ ?_
  · rintro w ⟨name, ipPort, callbacks, ioLoops, users, rfl⟩
    exact nofun
  · intro w a before closed guard l waiting
    have placed := placed before.of_restrict
    have later := placed.next_extends guard.1
    have still : w.Up c ∧ .handleClose ∈ (w.conns c).history →
        (w.next a).Up c ∧ .handleClose ∈ ((w.next a).conns c).history :=
      fun ⟨up, event⟩ => ⟨up.mono later, later.history c up.1 _ event⟩
    obtain ⟨taken, pushed, rest, queued, takes, split, same, pushes, appends, few⟩ :=
      World.next_flow placed guard.1 l
    change _ ∈ ((w.next a).loops l).tasks at waiting
    rw [same, List.mem_append, List.mem_append] at waiting
    rcases waiting with (new | old) | new
    · exact absurd (pushes _ new).destroy (ne_destroyConnection before guard.1 c)
    · exact still (closed (by rw [split]; exact List.mem_append_right _ old))
    · rcases (appends _ new).destroy placed with destroys | ⟨removes, _⟩
      · exact absurd destroys (ne_destroyConnection before guard.1 c)
      · exact still (removes.closed placed)

namespace World

/-- Action `a` runs `connectDestroyed` for connection `c`. -/
def Destroys (w : World) (a : Action) (c : ConnId) : Prop :=
  ∃ l kernel, a = .run l kernel ∧ w.current l = some (.task (.connectDestroyed c))

/-- The history gets the event from the job only. -/
theorem destroyed_next {w : World} {a : Action} (guard : w.Enabled a) {c : ConnId}
    (known : c < w.created) (loop : LoopId) :
    ((w.next a).conns c).history.count (.connectDestroyed loop) ≤
        (w.conns c).history.count (.connectDestroyed loop) + 1 ∧
      (¬ w.Destroys a c → ((w.next a).conns c).history.count (.connectDestroyed loop) ≤
        (w.conns c).history.count (.connectDestroyed loop)) := by
  have change := next_change guard c
  generalize (w.next a).conns c = tracked at change ⊢
  cases change with
  | constructed new => exact absurd new (Nat.ne_of_lt known)
  | performed l kernel job running current about here fits after events conn log deed =>
      have once := deed.count_le_one (.connectDestroyed loop)
      rw [List.count_append]
      refine ⟨by omega, fun never => ?_⟩
      rcases Nat.eq_zero_or_pos (events.count (.connectDestroyed loop)) with none | some
      · omega
      · have emits := deed.emits (List.count_pos_iff.mp some)
        have same : job = .task (.connectDestroyed c) := by
          cases emits
          rw [← about]
          rfl
        exact absurd ⟨l, kernel, running, same ▸ current⟩ never
  | same | exchanged call | marked mark | retrieved len =>
      exact ⟨Nat.le_succ _, fun _ => Nat.le_refl _⟩

/-- The functor of `connectDestroyed` waits, or has run, at most once, and not before the first
removal. -/
def DestroyToken (w : World) (c : ConnId) : Prop :=
  (w.loops (w.conns c).conn.loop).tasks.count (.connectDestroyed c) +
      (w.conns c).history.count (.connectDestroyed (w.conns c).conn.loop) ≤
    if .removeConnectionInLoop ∈ (w.conns c).history then 1 else 0

theorem DestroyToken.le_one {w : World} {c : ConnId} (token : w.DestroyToken c) :
    (w.loops (w.conns c).conn.loop).tasks.count (.connectDestroyed c) +
      (w.conns c).history.count (.connectDestroyed (w.conns c).conn.loop) ≤ 1 :=
  Nat.le_trans token (by split <;> simp)

/-- Running the functor takes it from its loop. -/
theorem Taken.destroys {w : World} {a : Action} (guard : w.Enabled a) {c : ConnId}
    (destroys : w.Destroys a c) {taken : Option Task}
    (takes : Taken w a (w.conns c).conn.loop taken) : taken = some (.connectDestroyed c) := by
  obtain ⟨l, kernel, rfl, current⟩ := destroys
  obtain ⟨job, loop, fetched, current', here, _⟩ := enabled_run guard
  rw [current, Option.some.injEq] at current'
  subst current'
  obtain rfl : (w.conns c).conn.loop = l := here
  cases takes with
  | nothing idle => exact absurd current (idle kernel _ rfl)
  | ran kernel' task running current' =>
      rw [current] at current'
      cases current'
      rfl
  | submitted task running top => cases running

end World

theorem destroyToken_next {w : World} (reachable : (server.restrict World.Living).Reachable w)
    {a : Action} (guard : w.Enabled a) {c : ConnId} (known : c < w.created)
    (token : w.DestroyToken c) : (w.next a).DestroyToken c := by
  have placed := placed reachable.of_restrict
  have sameLoop := (placed.next_extends guard).loop c known
  obtain ⟨more, unlessRun⟩ := World.destroyed_next guard known (w.conns c).conn.loop
  have removed := World.removed_next guard known
  obtain ⟨taken, pushed, rest, queued, takes, before, same, pushes, appends, few⟩ :=
    World.next_flow placed guard (w.conns c).conn.loop
  have notPushed : pushed.count (.connectDestroyed c) = 0 := List.count_eq_zero.mpr
    fun member => ne_destroyConnection reachable guard c (pushes _ member).destroy
  rw [World.DestroyToken] at token ⊢
  rw [sameLoop, same, List.count_append, List.count_append, notPushed, Nat.zero_add]
  rw [before, List.count_append] at token
  by_cases fresh : Task.connectDestroyed c ∈ queued
  · -- the removal of a stored connection queues the functor
    rcases (appends _ fresh).destroy placed with destroys | ⟨removes, stored⟩
    · exact absurd destroys (ne_destroyConnection reachable guard c)
    · have first : .removeConnectionInLoop ∉ (w.conns c).history :=
        (entry_iff reachable known).mp (((numbered reachable).contains placed known).mp stored)
      have idle : ¬ w.Destroys a c := by
        rintro ⟨l, kernel, rfl, current⟩
        obtain ⟨l', kernel', same', current'⟩ := removes
        cases same'
        rw [current] at current'
        cases current'
      have once : queued.count (.connectDestroyed c) ≤ 1 := by
        refine Nat.le_trans (List.countP_mono_left fun task _ found => ?_)
          (Nat.le_trans (List.Sublist.countP_le (List.sublist_append_right pushed queued)) few)
        rw [beq_iff_eq] at found
        exact found ▸ rfl
      have fewer := unlessRun idle
      rw [if_neg first] at token
      rw [if_pos (removed.mpr (.inr removes))]
      omega
  · have notQueued : queued.count (.connectDestroyed c) = 0 := List.count_eq_zero.mpr fresh
    have longer : (if .removeConnectionInLoop ∈ (w.conns c).history then 1 else 0) ≤
        if .removeConnectionInLoop ∈ ((w.next a).conns c).history then 1 else 0 := by
      split
      · rename_i old
        exact Nat.le_of_eq (if_pos (removed.mpr (.inl old))).symm
      · exact Nat.zero_le _
    by_cases destroys : w.Destroys a c
    · rw [takes.destroys guard destroys, Option.toList_some, List.count_singleton_self] at token
      omega
    · have fewer := unlessRun destroys
      omega

theorem destroyToken {w : World} (reachable : (server.restrict World.Living).Reachable w)
    {c : ConnId} (known : c < w.created) : w.DestroyToken c := by
  revert known
  refine reachable.invariant (I := fun w => c < w.created → w.DestroyToken c) ?_ ?_
  · rintro w ⟨name, ipPort, callbacks, ioLoops, users, rfl⟩ known
    exact absurd known (Nat.not_lt_zero c)
  · intro w a before token guard known'
    rcases Nat.lt_or_ge c w.created with known | unknown
    · exact destroyToken_next before guard.1 known (token known)
    · -- a new connection has no history, hence no such functor
      have blank := (placed before.of_restrict).next_history_unknown guard.1 unknown
      change (w.next a).DestroyToken c
      have none : ((w.next a).loops ((w.next a).conns c).conn.loop).tasks.count
          (.connectDestroyed c) = 0 := by
        refine List.count_eq_zero.mpr fun waiting => ?_
        have closed := (destruction_closed (before.step guard) waiting).2
        change .handleClose ∈ ((w.next a).conns c).history at closed
        rw [blank] at closed
        exact absurd closed List.not_mem_nil
      rw [World.DestroyToken, none, blank]
      exact Nat.zero_le _

/-! ### The order of events -/

/-- What must have happened to a connection of `loop` before an event, and what must not. -/
def Event.InOrder (loop : LoopId) (past : List Event) : Event → Prop
  | .connectEstablished l => l = loop ∧ .connectEstablished loop ∉ past
  | .handler l _ => l = loop ∧ .connectEstablished loop ∈ past
  | .connectDestroyed l =>
      l = loop ∧ .connectEstablished loop ∈ past ∧ .handleClose ∈ past ∧
        .connectDestroyed loop ∉ past
  | .handleClose | .connectionCallback _ | .messageCallback | .closeCallback
  | .removeConnectionInLoop | .connectDestroyedReturned => True

/-- An announcement may stand anywhere. -/
theorem announcement_inOrder {loop : LoopId} {announce connected : Bool} :
    ∀ event ∈ (if announce then [Event.connectionCallback connected] else []),
      ∀ past, Event.InOrder loop past event := by
  intro event member past
  rw [World.eq_of_mem_announced member]
  trivial

/-- Only the first event of a job is bound to an order. -/
theorem eachAfter_first {loop : LoopId} {history rest : List Event} {first : Event}
    (now : Event.InOrder loop history first)
    (free : ∀ event ∈ rest, ∀ past, Event.InOrder loop past event) :
    EachAfter (fun more => Event.InOrder loop (history ++ more)) (first :: rest) :=
  eachAfter_cons.mpr ⟨(List.append_nil history).symm ▸ now,
    eachAfter_of_forall fun event member _ => free event member _⟩

/-- The events of a job come in order. -/
theorem events_inOrder {w : World} (reachable : (server.restrict World.Living).Reachable w)
    {l : LoopId} {kernel : Kernel} {job : Job} {after : TcpConnection} {events : List Event}
    (current : w.current l = some job) (here : w.RunsHere l job)
    (deed : World.Deed l kernel (w.conns job.conn).conn job after events) :
    EachAfter (fun more => Event.InOrder (w.conns job.conn).conn.loop
      ((w.conns job.conn).history ++ more)) events := by
  have ok := (placed reachable.of_restrict).current_ok current
  cases deed with
  | establish c =>
      obtain rfl : (w.conns c).conn.loop = l := here
      refine eachAfter_first ⟨rfl, fun already => ?_⟩ announcement_inOrder
      exact (establishToken reachable.of_restrict).not_up_of_current current ⟨ok.known, already⟩
  | destroy c =>
      obtain rfl : (w.conns c).conn.loop = l := here
      have waiting := World.mem_tasks_of_current current
      obtain ⟨up, closed⟩ := destruction_closed reachable waiting
      refine eachAfter_first ⟨rfl, up.2, closed, fun already => ?_⟩ announcement_inOrder
      have token : w.DestroyToken c := destroyToken reachable ok.known
      have once := token.le_one
      have waits := List.count_pos_iff.mpr waiting
      have ran : 0 < (w.conns c).history.count (.connectDestroyed (w.conns c).conn.loop) :=
        List.count_pos_iff.mpr already
      omega
  | close callback c input closing =>
      refine eachAfter_first ⟨ok.2.symm, ok.1.2⟩ fun event member past => ?_
      rcases List.mem_cons.mp member with rfl | announced
      · trivial
      · exact announcement_inOrder event announced past
  | read c input events received =>
      refine eachAfter_first ⟨ok.2.symm, ok.1.2⟩ fun event member past => ?_
      rcases received with rfl | ⟨rfl, _⟩
      · exact absurd member List.not_mem_nil
      · exact List.mem_singleton.mp member ▸ trivial
  | error c | write c => exact eachAfter_first ⟨ok.2.symm, ok.1.2⟩ nofun
  | remove c | closeCallback c | removeChannel c => exact eachAfter_first trivial nofun
  | send c data caller | shutdown c | other job => exact eachAfter_nil _

/-- The life of one connection: its events come in order, `connectEstablished` and
`connectDestroyed` run at most once, and it is stored, under its own name, until the first
removal. -/
structure World.Lifecycle (w : World) (c : ConnId) : Prop where
  ordered : EachAfter (Event.InOrder (w.conns c).conn.loop) (w.conns c).history
  establishedOnce : (w.conns c).history.count (.connectEstablished (w.conns c).conn.loop) ≤ 1
  destroyedOnce : (w.conns c).history.count (.connectDestroyed (w.conns c).conn.loop) ≤ 1
  stored : ∀ name, (name, c) ∈ w.server.connections ↔
    name = (w.conns c).conn.name ∧ .removeConnectionInLoop ∉ (w.conns c).history

theorem history_inOrder {w : World} (reachable : (server.restrict World.Living).Reachable w)
    (c : ConnId) : EachAfter (Event.InOrder (w.conns c).conn.loop) (w.conns c).history := by
  refine reachable.invariant
    (I := fun w => EachAfter (Event.InOrder (w.conns c).conn.loop) (w.conns c).history) ?_ ?_
  · rintro w ⟨name, ipPort, callbacks, ioLoops, users, rfl⟩
    exact eachAfter_nil _
  · intro w a before ordered guard
    have placed := placed before.of_restrict
    have change := World.next_change guard.1 c
    change EachAfter (Event.InOrder ((w.next a).conns c).conn.loop) ((w.next a).conns c).history
    generalize (w.next a).conns c = tracked at change ⊢
    cases change with
    | constructed new => exact eachAfter_nil _
    | performed l kernel job running current about here fits after events conn log deed =>
        subst about
        have sameLoop : after.loop = (w.conns job.conn).conn.loop := by
          rw [conn]
          exact (World.perform_ok placed (placed.current_ok current) here fits).loop
        dsimp only
        rw [sameLoop]
        exact eachAfter_append.mpr ⟨ordered, events_inOrder before current here deed⟩
    | same | exchanged call | marked mark | retrieved len => exact ordered

/-- Every connection of a server that is not destroyed lives its life once, and a removal leaves
the entries of the other connections alone. -/
theorem lifecycle {w : World} (reachable : (server.restrict World.Living).Reachable w) :
    (∀ c < w.created, w.Lifecycle c) ∧
      ∀ a c, w.Enabled a → w.Removes a c → ∀ name c', c' ≠ c →
        ((name, c') ∈ (w.next a).server.connections ↔ (name, c') ∈ w.server.connections) := by
  have placed := placed reachable.of_restrict
  refine ⟨fun c known => ?_, fun a c guard removes name c' other => ?_⟩
  · have ordered := history_inOrder reachable c
    refine ⟨ordered, count_le_one_of_eachAfter ?_, count_le_one_of_eachAfter ?_, fun name => ?_⟩
    · refine ordered.mono fun past event inOrder => ?_
      rintro rfl
      exact inOrder.2
    · refine ordered.mono fun past event inOrder => ?_
      rintro rfl
      exact inOrder.2.2.2
    · rw [← entry_iff reachable known]
      constructor
      · intro member
        obtain ⟨_, rfl⟩ := placed.entries name c member
        exact ⟨rfl, member⟩
      · rintro ⟨rfl, member⟩
        exact member
  · have kept : ¬ w.Removes a c' := by
      rintro ⟨l', kernel', rfl, current'⟩
      obtain ⟨l, kernel, same, current⟩ := removes
      cases same
      rw [current] at current'
      cases current'
      exact other rfl
    have created : (w.next a).created = w.created := by
      rcases World.next_created w a with same | ⟨⟨l, rfl⟩, _⟩
      · exact same
      · obtain ⟨_, _, ⟨⟩, _⟩ := removes
    rcases Nat.lt_or_ge c' w.created with known | unknown
    · rw [entry_next reachable guard known, and_iff_left kept]
    · refine iff_of_false (fun member => ?_) fun member => ?_
      · have known := ((placed.next guard).entries name c' member).1
        rw [created] at known
        exact absurd known (Nat.not_lt_of_le unknown)
      · exact absurd (placed.entries name c' member).1 (Nat.not_lt_of_le unknown)

/-- The hypotheses are met by a connection that the peer closes, up to the end of
`connectDestroyed`. -/
theorem lifecycle_demo :
    (server.exec (demoServer 1 1) (demoOpening ++ [.poll 1 [.channel 0 EPOLLHUP],
      .handleEvent 1 true, .run 1 demoKernel, .userReturn 1, .run 1 demoKernel, .run 1 demoKernel,
      .doPendingFunctors 0, .run 0 demoKernel, .doPendingFunctors 1, .run 1 demoKernel,
      .run 1 demoKernel])).Lifecycle 0 := by
  have admitted : (server.restrict World.Living).Admits (demoServer 1 1) (demoOpening ++
      [.poll 1 [.channel 0 EPOLLHUP], .handleEvent 1 true, .run 1 demoKernel, .userReturn 1,
        .run 1 demoKernel, .run 1 demoKernel, .doPendingFunctors 0, .run 0 demoKernel,
        .doPendingFunctors 1, .run 1 demoKernel, .run 1 demoKernel]) := by decide +kernel
  have reachable := admitted.reachable (demoServer_initial 1 1)
  rw [Machine.restrict_exec] at reachable
  exact (lifecycle reachable).1 0 (by decide +kernel)

end EduMuduo
