/-
Module: EduMuduo.Proofs.ConnectionNames
Layer: Proofs
Purpose: Whether the connections in service have distinct names and are all stored under them.
  The names repeat when the 32-bit `nextConnId_` has come round, and `emplace` then keeps the old
  entry.  A run keeps the names exactly when every new connection finds its name free and every
  removal finds no other connection under the name that it erases.
Imports: EduMuduo.Proofs.Lifecycle, EduMuduo.Proofs.Announcement, EduMuduo.Proofs.QueueFlow
Trusted boundary: none
Main exports: World.InService, World.NamesKept, World.KeepsNames, names_kept_iff
-/
import EduMuduo.Proofs.Lifecycle
import EduMuduo.Proofs.Announcement
import EduMuduo.Proofs.QueueFlow

namespace EduMuduo

open Library

namespace World

/-! ### The connections in service -/

/-- The removal of the connection has begun: `removeConnectionInLoop` has run, or a functor of
`connectDestroyed` waits or has run. -/
def Leaving (w : World) (c : ConnId) : Prop :=
  .removeConnectionInLoop ∈ (w.conns c).history ∨ w.Waits (.connectDestroyed c) ∨ w.Destroyed c

/-- The connection is created and not removed. -/
def InService (w : World) (c : ConnId) : Prop := c < w.created ∧ ¬ w.Leaving c

/-- The connection is leaving once its name is erased for it, and not before. -/
theorem leaving_next {w : World} (placed : w.Placed) {a : Action} (guard : w.Enabled a)
    {c : ConnId} (known : c < w.created) :
    (w.next a).Leaving c ↔ w.Leaving c ∨ w.Erases a c := by
  have later := placed.next_extends guard
  have sameLoop := later.loop c known
  constructor
  · rintro (removed | waits | destroyed)
    · exact ((removed_next guard known).mp removed).imp .inl .inl
    · rcases Waits.of_next placed guard waits with
        waits | ⟨l, pushed⟩ | ⟨l, appended⟩ | ⟨t, called⟩
      · exact .inl (.inr (.inl waits))
      · exact .inr (.inr pushed.destroy)
      · rcases appended.destroy placed with destroys | ⟨removes, _⟩
        · exact .inr (.inr destroys)
        · exact .inr (.inl removes)
      · cases called
    · rw [Destroyed, sameLoop] at destroyed
      rcases mem_next_history guard destroyed (Nat.ne_of_lt known) with
        old | ⟨l, kernel, job, running, current, about, here, emits⟩
      · exact .inl (.inr (.inr old))
      · obtain rfl : job = .task (.connectDestroyed c) := by
          cases emits
          exact congrArg (fun c => Job.task (.connectDestroyed c)) about
        exact .inl (.inr (.inl (.inl ⟨l, mem_tasks_of_current current⟩)))
  · rintro ((removed | waits | destroyed) | removes | rfl)
    · exact .inl (later.history c known _ removed)
    · rcases waits.next placed guard with ⟨l, kernel, rfl, current⟩ | waits
      · refine .inr (.inr ?_)
        rw [Destroyed, sameLoop, show (w.conns c).conn.loop = l from
          (placed.current_ok current).2 rfl]
        exact mem_run_history guard current List.mem_cons_self
      · exact .inr (.inl waits)
    · refine .inr (.inr ?_)
      rw [Destroyed, sameLoop]
      exact later.history c known _ destroyed
    · exact .inl ((removed_next guard known).mpr (.inr removes))
    · exact .inr (.inl (runInLoop_waits _ _ _ _))

/-- A connection that is being constructed is not leaving. -/
theorem not_leaving_new {w : World} (placed : w.Placed) {a : Action} (guard : w.Enabled a) :
    ¬ (w.next a).Leaving w.created := by
  have blank := placed.next_history_new guard
  rintro (removed | waits | destroyed)
  · rw [blank] at removed
    exact absurd removed List.not_mem_nil
  · refine absurd (?_ : w.created < w.created) (Nat.lt_irrefl _)
    rcases Waits.of_next placed guard waits with
      (⟨l, member⟩ | ⟨t, calling⟩) | ⟨l, pushed⟩ | ⟨l, appended⟩ | ⟨t, called⟩
    · exact (placed.task_ok member).1.1
    · exact ((placed.threads t).calling _ calling).2.1
    · obtain rfl := pushed.destroy
      exact (placed.entries _ _ guard.2).1
    · rcases appended.destroy placed with rfl | ⟨removes, _⟩
      · exact (placed.entries _ _ guard.2).1
      · exact (removes.closed placed).1.1
    · cases called
  · rw [Destroyed, blank] at destroyed
    exact absurd destroyed List.not_mem_nil

end World

/-- What is stored is in service. -/
theorem inService_of_entry {w : World} (reachable : server.Reachable w) {name : String}
    {c : ConnId} (entry : (name, c) ∈ w.server.connections) : w.InService c := by
  have owner := (placed reachable).entries name c entry
  refine ⟨owner.1, fun leaving => ?_⟩
  revert entry leaving
  refine reachable.invariant
    (I := fun w => (name, c) ∈ w.server.connections → w.Leaving c → False) ?_ ?_
  · rintro w ⟨_, _, _, _, _, rfl⟩ entry
    exact absurd entry List.not_mem_nil
  · intro w a before served guard entry leaving
    have guard : w.Enabled a := guard
    have placed := placed before
    rcases Nat.lt_or_ge c w.created with known | unknown
    · obtain ⟨old, kept⟩ := (World.mem_entry_next guard known name).mp entry
      rcases (World.leaving_next placed guard known).mp leaving with leaving | erases
      · exact served old leaving
      · exact kept c erases (placed.entries name c old).2
    · obtain rfl := World.eq_created_of_next unknown ((placed.next guard).entries name c entry).1
      exact World.not_leaving_new placed guard leaving

namespace World

/-! ### The names -/

/-- Connections in service have distinct names and are stored under them. -/
structure NamesKept (w : World) : Prop where
  distinct : ∀ c c', w.InService c → w.InService c' →
    (w.conns c).conn.name = (w.conns c').conn.name → c = c'
  stored : ∀ c, w.InService c → ((w.conns c).conn.name, c) ∈ w.server.connections

/-- A new connection finds its name free, and a removal finds no other connection under the name
that it erases. -/
def KeepsNames (w : World) : Action → Prop
  | .handleEvent l true =>
      (w.loops l).activeChannels.head? = some .acceptor → w.server.destroyed = false →
        w.server.connections.contains (nextName w.server) = false
  | .run l _ =>
      ∀ c ∈ (w.current l).bind removes?, ∀ entry ∈ w.server.connections,
        entry.1 = (w.conns c).conn.name → entry.2 = c
  | _ => True

instance (w : World) : ∀ action, Decidable (w.KeepsNames action)
  | .handleEvent _ true => inferInstanceAs (Decidable (_ = _ → _ = _ → _ = _))
  | .run l _ => inferInstanceAs (Decidable (∀ c ∈ (w.current l).bind removes?,
      ∀ entry ∈ w.server.connections, entry.1 = (w.conns c).conn.name → entry.2 = c))
  | .enterLoop _ | .poll _ _ | .handleEvent _ false | .doPendingFunctors _ | .endBatch _
  | .destroyLoop _ | .submit _ | .userSend _ _ _ | .userShutdown _ _
  | .userSetHighWaterMarkCallback _ _ _ | .userRetrieve _ _ _ | .userTake _ _ _ | .userGive _ _ _
  | .userReturn _ | .copy _ _ _ | .drop _ _ | .send _ _ _ | .shutdown _ _ | .queueUser _ _
  | .queueInLoop _ | .quit _ | .destroyServer | .destroyConnection _ | .destroyMember =>
      inferInstanceAs (Decidable True)

theorem mem_removes? {w : World} {l : LoopId} {c : ConnId} :
    c ∈ (w.current l).bind removes? ↔ w.current l = some (.task (.removeConnectionInLoop c)) := by
  constructor
  · intro member
    obtain ⟨job, current, removal⟩ := Option.bind_eq_some_iff.mp member
    unfold removes? at removal
    split at removal
    · cases removal
      exact current
    · cases removal
  · intro current
    rw [current]
    rfl

/-- A connection is constructed where the acceptor's event is handled. -/
theorem grown_iff (w : World) (l : LoopId) :
    (w.next (.handleEvent l true)).created ≠ w.created ↔
      (w.loops l).activeChannels.head? = some .acceptor ∧ w.server.destroyed = false := by
  rw [next]
  split
  · rename_i none
    exact iff_of_false (fun grown => grown rfl) (by simp [none])
  · rename_i active rest first
    cases active with
    | channel c revents => exact iff_of_false (fun grown => grown rfl) (by simp [first])
    | acceptor =>
        rw [handleEvent, first]
        split
        · rename_i destroyed
          have destroyed : w.server.destroyed = true := destroyed
          exact iff_of_false (fun grown => grown rfl) (by simp [destroyed])
        · rename_i running
          have running : w.server.destroyed = false := eq_false_of_ne_true running
          refine iff_of_true ?_ ⟨rfl, running⟩
          simp only [newConnection, if_true, runInLoop_created]
          exact Nat.succ_ne_self _

/-- The condition, for the step that constructs and for the step that removes. -/
theorem keepsNames_iff (w : World) (a : Action) :
    w.KeepsNames a ↔
      ((w.next a).created ≠ w.created →
        w.server.connections.contains (nextName w.server) = false) ∧
      ∀ c, w.Removes a c → ∀ c', ((w.conns c).conn.name, c') ∈ w.server.connections → c' = c := by
  cases a with
  | run l kernel =>
      refine ⟨fun keeps => ⟨fun grown => ?_, fun c removes => ?_⟩, fun keeps c current => ?_⟩
      · rcases next_created w (.run l kernel) with same | ⟨⟨_, ⟨⟩⟩, _⟩
        exact absurd same grown
      · obtain ⟨_, _, ⟨⟩, current⟩ := removes
        exact fun c' entry => keeps c (mem_removes?.mpr current) _ entry rfl
      · rintro ⟨name, c'⟩ entry rfl
        exact keeps.2 c ⟨l, kernel, rfl, mem_removes?.mp current⟩ c' entry
  | handleEvent l named =>
      have idle : ∀ c, ¬ w.Removes (.handleEvent l named) c :=
        not_removes_of_ne fun _ => ne_run rfl
      rw [and_iff_left fun c removes => absurd removes (idle c)]
      cases named with
      | true =>
          rw [grown_iff]
          exact ⟨fun keeps both => keeps both.1 both.2, fun keeps top running => keeps ⟨top, running⟩⟩
      | false =>
          refine iff_of_true trivial fun grown => ?_
          rcases next_created w (.handleEvent l false) with same | ⟨⟨_, ⟨⟩⟩, _⟩
          exact absurd same grown
  | _ =>
      refine iff_of_true trivial ⟨fun grown => ?_, fun c removes => ?_⟩
      · rcases next_created w _ with same | ⟨⟨_, accepting⟩, _⟩
        · exact absurd same grown
        · cases accepting
      · obtain ⟨_, _, running, _⟩ := removes
        cases running

end World

/-- A step that keeps the names takes only connections out of the map that leave with it. -/
theorem not_erases_of_name {w : World} (reachable : server.Reachable w) (names : w.NamesKept)
    {a : Action} (guard : w.Enabled a) (keeps : w.KeepsNames a) {c c' : ConnId}
    (entry : ((w.conns c).conn.name, c) ∈ w.server.connections) (erases : w.Erases a c')
    (same : (w.conns c').conn.name = (w.conns c).conn.name) : c = c' := by
  rcases erases with removes | rfl
  · exact ((w.keepsNames_iff a).mp keeps).2 c' removes c (same ▸ entry)
  · exact (names.distinct c' c (inService_of_entry reachable guard.2)
      (inService_of_entry reachable entry) same).symm

/-- A step keeps the names exactly under the condition. -/
theorem namesKept_next_iff {w : World} (reachable : server.Reachable w) (names : w.NamesKept)
    {a : Action} (guard : w.Enabled a) : (w.next a).NamesKept ↔ w.KeepsNames a := by
  have placed := placed reachable
  have later := placed.next_extends guard
  constructor
  · intro kept
    rw [World.keepsNames_iff]
    refine ⟨fun grown => ?_, fun c removes c' entry => ?_⟩
    · -- the new connection is in service
      have serves : (w.next a).InService w.created :=
        ⟨Nat.lt_of_le_of_ne later.created (Ne.symm grown), World.not_leaving_new placed guard⟩
      have stored := kept.stored _ serves
      rw [World.next_constructed grown] at stored
      exact (World.mem_entry_new placed guard grown).mp stored
    · -- another connection under the name would lose its entry and stay in service
      by_contra other
      obtain ⟨known, unleaving⟩ := inService_of_entry reachable entry
      have named := (placed.entries _ _ entry).2
      have serves : (w.next a).InService c' := by
        refine ⟨Nat.lt_of_lt_of_le known later.created, ?_⟩
        rw [World.leaving_next placed guard known]
        rintro (leaving | ⟨l, kernel, running, current⟩ | running)
        · exact unleaving leaving
        · obtain ⟨l', kernel', running', current'⟩ := removes
          rw [running] at running'
          cases running'
          rw [current] at current'
          cases current'
          exact other rfl
        · obtain ⟨_, _, running', _⟩ := removes
          rw [running] at running'
          cases running'
      have stored := kept.stored c' serves
      rw [later.name c' known] at stored
      exact ((World.mem_entry_next guard known _).mp stored).2 c (.inl removes) named.symm
  · intro keeps
    have keeps' := (w.keepsNames_iff a).mp keeps
    have before : ∀ c < w.created, (w.next a).InService c → w.InService c ∧ ¬ w.Erases a c := by
      intro c known serves
      have unleaving := mt (World.leaving_next placed guard known).mpr serves.2
      exact ⟨⟨known, fun leaving => unleaving (.inl leaving)⟩,
        fun erases => unleaving (.inr erases)⟩
    have fresh : ∀ c < w.created, (w.next a).InService c → (w.next a).InService w.created →
        ((w.next a).conns c).conn.name ≠ ((w.next a).conns w.created).conn.name := by
      intro c known serves new same
      have grown : (w.next a).created ≠ w.created := Nat.ne_of_gt new.1
      rw [later.name c known, World.next_constructed grown] at same
      have same : (w.conns c).conn.name = World.nextName w.server := same
      have taken := ConnectionMap.contains_of_mem (names.stored c (before c known serves).1)
      rw [same, keeps'.1 grown] at taken
      cases taken
    refine ⟨fun c c' serves serves' same => ?_, fun c serves => ?_⟩
    · rcases Nat.lt_or_ge c w.created with known | unknown <;>
        rcases Nat.lt_or_ge c' w.created with known' | unknown'
      · rw [later.name c known, later.name c' known'] at same
        exact names.distinct c c' (before c known serves).1 (before c' known' serves').1 same
      · obtain rfl := World.eq_created_of_next unknown' serves'.1
        exact absurd same (fresh c known serves serves')
      · obtain rfl := World.eq_created_of_next unknown serves.1
        exact absurd same.symm (fresh c' known' serves' serves)
      · rw [World.eq_created_of_next unknown serves.1, World.eq_created_of_next unknown' serves'.1]
    · rcases Nat.lt_or_ge c w.created with known | unknown
      · obtain ⟨served, unerased⟩ := before c known serves
        have entry := names.stored c served
        rw [later.name c known, World.mem_entry_next guard known]
        refine ⟨entry, fun c' erases same => unerased ?_⟩
        exact not_erases_of_name reachable names guard keeps entry erases same ▸ erases
      · obtain rfl := World.eq_created_of_next unknown serves.1
        have grown : (w.next a).created ≠ w.created := Nat.ne_of_gt serves.1
        rw [World.next_constructed grown]
        exact (World.mem_entry_new placed guard grown).mpr (keeps'.1 grown)

/-- In a run the connections in service have distinct names and are all stored under them at all
times exactly when every new connection finds its name free and no removal erases the name of
another connection. -/
theorem names_kept_iff {start : World} (initial : server.initial start) {schedule : List Action}
    (admitted : server.Admits start schedule) :
    (∀ front rest, schedule = front ++ rest → (server.exec start front).NamesKept) ↔
      ∀ front a rest, schedule = front ++ a :: rest →
        (server.exec start front).KeepsNames a := by
  have begins : start.NamesKept := by
    obtain ⟨name, ipPort, callbacks, ioLoops, users, rfl⟩ := initial
    exact ⟨fun c _ serves => absurd serves.1 (Nat.not_lt_zero c),
      fun c serves => absurd serves.1 (Nat.not_lt_zero c)⟩
  exact Machine.throughout_iff_of_reachable initial
    (fun w a reachable kept guard => namesKept_next_iff reachable kept guard) begins admitted

/-- Behind `handleClose` connection 0 is removed by the base loop. -/
def demoRemoval : List Action :=
  [.userReturn 1, .run 1 demoKernel, .run 1 demoKernel, .doPendingFunctors 0, .run 0 demoKernel]

/-- The hypotheses are met by a server that accepts a connection and removes it. -/
theorem names_kept_iff_demo :
    (server.exec (demoServer 1 1) (demoOpening ++ demoClosing ++ demoRemoval)).NamesKept := by
  have admitted : (server.restrict World.KeepsNames).Admits (demoServer 1 1)
      (demoOpening ++ demoClosing ++ demoRemoval) := by decide +kernel
  obtain ⟨plain, keeps⟩ := Machine.admits_restrict_iff.mp admitted
  exact (names_kept_iff (demoServer_initial 1 1) plain).mpr keeps _ [] (List.append_nil _).symm

/-! ### The counter comes round -/

/-- A loop with no functors, in some part of `loop()`. -/
abbrev Loop.idle (phase : Phase) (active : List Active) : Loop :=
  ⟨phase, active, [], .empty, false, false, false⟩

/-- A socket is accepted for which `getsockname` fails, and the base loop goes round once. -/
theorem reachable_failedAccept {w : World} (reachable : server.Reachable w)
    (idle : w.loops 0 = .idle .polling []) (running : w.server.destroyed = false) :
    server.Reachable w.countAccepted := by
  have polled : w.next (.poll 0 [.acceptor]) =
      w.setLoop 0 (.idle .handling [.acceptor]) := by
    rw [World.next, idle]
  have counted : (w.setLoop 0 (.idle .handling [.acceptor])).next
      (.handleEvent 0 false) = w.countAccepted.setLoop 0 (.idle .handling []) := by
    simp only [World.next, World.setLoop_loops, Function.update_self, World.setLoop_setLoop]
    rw [World.handleEvent, if_neg (by exact Bool.eq_false_iff.mp running)]
    rfl
  have drained : (w.countAccepted.setLoop 0 (.idle .handling [])).next
      (.doPendingFunctors 0) = w.countAccepted.setLoop 0 (.idle .draining []) := by
    simp only [World.next, World.setLoop_loops, Function.update_self, World.setLoop_setLoop]
    rfl
  have ended : (w.countAccepted.setLoop 0 (.idle .draining [])).next
      (.endBatch 0) = w.countAccepted := by
    simp only [World.next, World.setLoop_loops, Function.update_self, World.setLoop_setLoop]
    have same : w.countAccepted.loops 0 = .idle .polling [] := idle
    exact (congrArg _ same.symm).trans (World.setLoop_self _ _)
  have first : server.Reachable (w.setLoop 0 (.idle .handling [.acceptor])) := by
    have enabled : w.Enabled (.poll 0 [.acceptor]) :=
      ⟨Nat.zero_le _, by rw [idle], List.forall_mem_singleton.mpr ⟨rfl, running⟩, by decide⟩
    rw [← polled]
    exact reachable_next reachable enabled
  have second : server.Reachable
      (w.countAccepted.setLoop 0 (.idle .handling [])) := by
    have enabled : (w.setLoop 0 (.idle .handling [.acceptor])).Enabled
        (.handleEvent 0 false) := ⟨Nat.zero_le _, by simp, by simp, by simp⟩
    rw [← counted]
    exact reachable_next first enabled
  have third : server.Reachable
      (w.countAccepted.setLoop 0 (.idle .draining [])) := by
    have enabled : (w.countAccepted.setLoop 0 (.idle .handling [])).Enabled
        (.doPendingFunctors 0) := ⟨Nat.zero_le _, by simp, by simp, by simp⟩
    rw [← drained]
    exact reachable_next second enabled
  have enabled : (w.countAccepted.setLoop 0 (.idle .draining [])).Enabled
      (.endBatch 0) := ⟨Nat.zero_le _, by simp, by simp, by simp [BatchQueue.empty]⟩
  rw [← ended]
  exact reachable_next third enabled

/-- After any number of such sockets the server stands as before, but for its counters. -/
theorem reachable_failedAccepts {w : World} (reachable : server.Reachable w)
    (idle : w.loops 0 = .idle .polling []) (running : w.server.destroyed = false)
    (counts : w.server.nextConnId < 2 ^ 32) (n : Nat) :
    ∃ w', server.Reachable w' ∧ w'.loops 0 = .idle .polling [] ∧ w'.server.destroyed = false ∧
      w'.registry = { w.registry with
        nextConnId := (w.server.nextConnId + n) % 2 ^ 32
        accepted := w.accepted + n } := by
  induction n with
  | zero =>
      refine ⟨w, reachable, idle, running, ?_⟩
      rw [Nat.add_zero, Nat.mod_eq_of_lt counts]
      rfl
  | succ n inductionHypothesis =>
      obtain ⟨w', reachable', idle', running', registry⟩ := inductionHypothesis
      refine ⟨w'.countAccepted, reachable_failedAccept reachable' idle' running', idle', ?_, ?_⟩
      · obtain ⟨next, same⟩ := World.getNextLoop_snd w'.server
        rw [World.countAccepted, same]
        exact running'
      · have counter : w'.server.nextConnId = (w.server.nextConnId + n) % 2 ^ 32 :=
          congrArg Registry.nextConnId registry
        have accepted : w'.accepted = w.accepted + n := congrArg Registry.accepted registry
        rw [World.countAccepted_registry, World.countedRegistry, registry, counter, accepted,
          Nat.mod_add_mod]
        rfl

/-- Connection 0 stays in service while 2^32 - 1 further sockets are accepted.  The next connection
gets its name and is not stored. -/
theorem names_repeat : ¬ ∀ w : World, server.Reachable w → w.NamesKept := by
  intro claim
  have admitted : server.Admits (demoServer 1 1)
      (demoOpening ++ [.doPendingFunctors 0, .endBatch 0]) := by decide +kernel
  obtain ⟨w, reachable, idle, running, registry⟩ :=
    reachable_failedAccepts (admitted.reachable (demoServer_initial 1 1)) (by decide +kernel)
      (by decide +kernel) (by decide +kernel) (2 ^ 32 - 1)
  have taken : w.server.connections.contains (World.nextName w.server) = true := by
    change w.registry.connections.contains (w.registry.name ++ "-" ++ w.registry.ipPort ++ "#" ++
      toString w.registry.nextConnId) = true
    rw [registry]
    decide +kernel
  have polling : w.Enabled (.poll 0 [.acceptor]) :=
    ⟨Nat.zero_le _, by rw [idle], List.forall_mem_singleton.mpr ⟨rfl, running⟩, by decide⟩
  have polled := reachable_next reachable polling
  have accepting : (w.next (.poll 0 [.acceptor])).Enabled (.handleEvent 0 true) :=
    ⟨Nat.zero_le _, by simp [World.next], by simp [World.next, idle, Loop.idle],
      by simp [World.next]⟩
  have free := (namesKept_next_iff polled (claim _ polled) accepting).mp
    (claim _ (reachable_next polled accepting)) (by simp [World.next]) running
  exact absurd (taken.symm.trans free) (by decide)

end EduMuduo
