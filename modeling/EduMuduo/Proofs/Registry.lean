/-
Module: EduMuduo.Proofs.Registry
Layer: Proofs
Purpose: The names of the connections and what is stored under them.  While fewer than 2^32 sockets
  have been accepted, `nextConnId_` has not come round and no two connections have one name; so
  `connections_.erase` of a connection's name can only take out that connection.
Imports: EduMuduo.Proofs.StackFlow
Trusted boundary: none
Main exports: Registry, World.RegistryChange, World.next_registry, World.Numbered, numbered
-/
import EduMuduo.Proofs.StackFlow

namespace EduMuduo

open Library

/-- The counters of the server and its map. -/
structure Registry where
  name : String
  ipPort : String
  nextConnId : Nat
  connections : ConnectionMap
  created : Nat
  accepted : Nat

namespace World

def registry (w : World) : Registry :=
  ⟨w.server.name, w.server.ipPort, w.server.nextConnId, w.server.connections, w.created, w.accepted⟩

/-! ### What a step does to the registry -/

/-- The counters after one more accepted socket. -/
def countedRegistry (w : World) : Registry :=
  { w.registry with
    nextConnId := (w.server.nextConnId + 1) % 2 ^ 32
    accepted := w.accepted + 1 }

/-- Everything that action `a` can make of the registry. -/
inductive RegistryChange (w : World) (a : Action) : Registry → Prop where
  | same (other : ∀ l kernel, a ≠ .run l kernel) : RegistryChange w a w.registry
  | counted (l : LoopId) (running : a = .handleEvent l false) :
      RegistryChange w a w.countedRegistry
  | entered (l : LoopId) (running : a = .handleEvent l true) :
      RegistryChange w a { w.countedRegistry with
        connections := w.server.connections.emplace (nextName w.server) w.created
        created := w.created + 1 }
  | ran (l : LoopId) (kernel : Kernel) (job : Job) (running : a = .run l kernel)
      (current : w.current l = some job) :
      RegistryChange w a { w.registry with connections := (w.perform l kernel job).connections }
  | erased (c : ConnId) (running : a = .destroyConnection c) :
      RegistryChange w a { w.registry with
        connections := w.server.connections.erase (w.conns c).conn.name }

@[simp] theorem setLoop_registry (w : World) (l : LoopId) (loop : Loop) :
    (w.setLoop l loop).registry = w.registry := rfl

@[simp] theorem setConn_registry (w : World) (c : ConnId) (conn : TcpConnection)
    (events : List Event) : (w.setConn c conn events).registry = w.registry := rfl

@[simp] theorem setThread_registry (w : World) (t : ThreadId) (thread : UserThread) :
    (w.setThread t thread).registry = w.registry := rfl

@[simp] theorem queueInLoop_registry (w : World) (l : LoopId) (tasks : List Task) :
    (w.queueInLoop l tasks).registry = w.registry := rfl

@[simp] theorem runInLoop_registry (w : World) (l ioLoop : LoopId) (task : Task) :
    (w.runInLoop l ioLoop task).registry = w.registry := by
  rw [runInLoop]
  split <;> rfl

/-- Choosing a loop moves `next_` only. -/
theorem getNextLoop_snd (server : TcpServer) :
    ∃ next, (getNextLoop server).2 = { server with next := next } := by
  rw [getNextLoop]
  split
  · exact ⟨server.next, rfl⟩
  · exact ⟨_, rfl⟩

theorem countAccepted_registry (w : World) : w.countAccepted.registry = w.countedRegistry := by
  obtain ⟨next, same⟩ := getNextLoop_snd w.server
  simp only [countAccepted, registry, countedRegistry, same]

theorem newConnection_registry (w : World) (l : LoopId) (named : Bool) :
    (w.newConnection l named).registry =
      if named then
        { w.countedRegistry with
          connections := w.server.connections.emplace (nextName w.server) w.created
          created := w.created + 1 }
      else w.countedRegistry := by
  obtain ⟨next, same⟩ := getNextLoop_snd w.server
  cases named with
  | false => exact w.countAccepted_registry
  | true =>
      simp only [newConnection, if_true, runInLoop_registry, same]
      simp only [addConnection, countAccepted, registry, countedRegistry, same, nextName]

theorem next_registry {w : World} {a : Action} (guard : w.Enabled a) :
    RegistryChange w a (w.next a).registry := by
  cases a with
  | run l kernel =>
      obtain ⟨job, loop, fetched, current, _⟩ := enabled_run guard
      simp only [next, fetched]
      exact .ran l kernel job rfl current
  | handleEvent l named =>
      rw [next]
      split
      · exact .same fun _ => ne_run rfl
      · rename_i active rest _
        cases active with
        | channel c revents => exact .same fun _ => ne_run rfl
        | acceptor =>
            rw [handleEvent]
            split
            · exact .same fun _ => ne_run rfl
            · rw [newConnection_registry]
              cases named with
              | false => exact .counted l rfl
              | true => exact .entered l rfl
  | destroyConnection c =>
      simp only [next, runInLoop_registry]
      exact .erased c rfl
  | submit l | userSend l c data | send t c data | queueInLoop t =>
      rw [next]
      split <;> exact .same fun _ => ne_run rfl
  | userShutdown l c | shutdown t c =>
      simp only [next]
      split <;> exact .same fun _ => ne_run rfl
  | destroyMember =>
      rw [next, destroyMember]
      split <;> exact .same fun _ => ne_run rfl
  | enterLoop l | poll l active | doPendingFunctors l | endBatch l | destroyLoop l
  | userSetHighWaterMarkCallback l c mark | userRetrieve l c len | userTake l t c | userGive l t c
  | userReturn l | copy t other c | drop t c | queueUser t c | quit l | destroyServer =>
      exact .same fun _ => ne_run rfl

/-- Only `removeConnectionInLoop` of a stored name changes the map. -/
inductive MapChange (w : World) : Job → ConnectionMap → Prop where
  | same (job : Job) (absent : ∀ c, job = .task (.removeConnectionInLoop c) →
      w.server.connections.contains (w.conns c).conn.name = false) :
      MapChange w job w.server.connections
  | erased (c : ConnId)
      (stored : w.server.connections.contains (w.conns c).conn.name = true) :
      MapChange w (.task (.removeConnectionInLoop c))
        (w.server.connections.erase (w.conns c).conn.name)

/-- The connection that a job removes from the map. -/
def removes? : Job → Option ConnId
  | .task (.removeConnectionInLoop c) => some c
  | _ => none

theorem ne_removal {job : Job} (other : removes? job = none) {P : ConnId → Prop} :
    ∀ c, job = .task (.removeConnectionInLoop c) → P c := by
  rintro c rfl
  cases other

theorem perform_connections (w : World) (l : LoopId) (kernel : Kernel) (job : Job) :
    MapChange w job (w.perform l kernel job).connections := by
  cases job with
  | task task =>
      cases task with
      | removeConnectionInLoop c =>
          simp only [perform, runTask, removeConnectionInLoop]
          split
          · rename_i stored
            exact .erased c stored
          · rename_i absent
            refine .same _ ?_
            rintro _ ⟨⟩
            exact Bool.not_eq_true _ ▸ absent
      | _ => exact .same _ (ne_removal rfl)
  | callback callback c =>
      cases callback with
      | read =>
          simp only [perform, runCallback, handleRead]
          split
          · split <;> exact .same _ (ne_removal rfl)
          · exact .same _ (ne_removal rfl)
          · exact .same _ (ne_removal rfl)
      | _ => exact .same _ (ne_removal rfl)
  | closeCallback c =>
      simp only [perform, closeCallback]
      split <;> exact .same _ (ne_removal rfl)
  | releaseGuard c | removeChannel c => exact .same _ (ne_removal rfl)

/-! ### Names -/

/-- The name that the connection with number `id` gets. -/
def nameOf (w : World) (id : Nat) : String :=
  w.server.name ++ "-" ++ w.server.ipPort ++ "#" ++ toString id

/-- Two numbers make two names. -/
theorem nameOf_inj {w : World} {id id' : Nat} (same : w.nameOf id = w.nameOf id') : id = id' := by
  have printed : toString id = toString id' := (String.append_right_inj _).mp same
  have digits : Nat.toDigits 10 id = Nat.toDigits 10 id' := by
    simpa [toString, Nat.repr] using congrArg String.toList printed
  have read : ∀ n, (10).ofDigitChars (Nat.toDigits 10 n) 0 = n :=
    fun n => Nat.ofDigitChars_toDigits (by decide) (by decide)
  rw [← read id, digits, read]

/-- The connections are numbered in order of acceptance, and no two have one name. -/
structure Numbered (w : World) : Prop where
  nextConnId : w.server.nextConnId = (w.accepted + 1) % 2 ^ 32
  named : ∀ c < w.created, ∃ id ≤ w.accepted, (w.conns c).conn.name = w.nameOf id
  distinct : ∀ c < w.created, ∀ c' < w.created,
    (w.conns c).conn.name = (w.conns c').conn.name → c = c'

/-- The object that a step constructs. -/
theorem next_constructed {w : World} {a : Action} (grown : (w.next a).created ≠ w.created) :
    (w.next a).conns w.created =
      ⟨.construct w.created (getNextLoop w.server).1 (nextName w.server) w.server.callbacks,
        []⟩ := by
  rcases next_created w a with same | ⟨⟨l, rfl⟩, _⟩
  · exact absurd same grown
  · obtain ⟨next, same⟩ := getNextLoop_snd w.server
    have named : nextName (getNextLoop w.server).2 = nextName w.server := by
      rw [same]
      rfl
    rw [World.next] at grown ⊢
    split at grown
    · exact absurd rfl grown
    · rename_i active rest _
      cases active with
      | channel c revents => exact absurd rfl grown
      | acceptor =>
          rw [handleEvent] at grown ⊢
          split at grown
          · exact absurd rfl grown
          · rename_i running
            rw [if_neg running, ← named]
            exact newConnection_new _ l

/-- The server keeps its name. -/
theorem RegistryChange.names {w : World} {a : Action} {registry : Registry}
    (change : RegistryChange w a registry) :
    registry.name = w.server.name ∧ registry.ipPort = w.server.ipPort := by
  cases change <;> exact ⟨rfl, rfl⟩

theorem nameOf_next {w : World} {a : Action} (guard : w.Enabled a) (id : Nat) :
    (w.next a).nameOf id = w.nameOf id := by
  obtain ⟨name, ipPort⟩ := (next_registry guard).names
  rw [nameOf, nameOf]
  rw [show (w.next a).server.name = w.server.name from name,
    show (w.next a).server.ipPort = w.server.ipPort from ipPort]

/-- `nextConnId_` counts the accepted sockets, and every new connection is one of them. -/
theorem RegistryChange.counters {w : World} {a : Action} {registry : Registry}
    (change : RegistryChange w a registry)
    (before : w.server.nextConnId = (w.accepted + 1) % 2 ^ 32) :
    registry.nextConnId = (registry.accepted + 1) % 2 ^ 32 ∧ w.accepted ≤ registry.accepted ∧
      (registry.created = w.created ∨
        registry.created = w.created + 1 ∧ registry.accepted = w.accepted + 1) := by
  cases change with
  | same other => exact ⟨before, Nat.le_refl _, .inl rfl⟩
  | counted l running =>
      refine ⟨?_, Nat.le_succ _, .inl rfl⟩
      simp only [countedRegistry, before]
      omega
  | entered l running =>
      refine ⟨?_, Nat.le_succ _, .inr ⟨rfl, rfl⟩⟩
      simp only [countedRegistry, before]
      omega
  | ran l kernel job running current => exact ⟨before, Nat.le_refl _, .inl rfl⟩
  | erased c running => exact ⟨before, Nat.le_refl _, .inl rfl⟩

/-- No server is destroyed, and fewer than 2^32 sockets are accepted. -/
def Living (w : World) (a : Action) : Prop := a ≠ .destroyServer ∧ (w.next a).accepted < 2 ^ 32

instance (w : World) (a : Action) : Decidable (w.Living a) := inferInstanceAs (Decidable (_ ∧ _))

theorem Numbered.next {w : World} (numbered : w.Numbered) (placed : w.Placed) {a : Action}
    (guard : w.Enabled a) (few : (w.next a).accepted < 2 ^ 32) : (w.next a).Numbered := by
  have later := placed.next_extends guard
  obtain ⟨nextConnId, more, grown⟩ :=
    (next_registry guard).counters numbered.nextConnId
  change (w.next a).server.nextConnId = ((w.next a).accepted + 1) % 2 ^ 32 at nextConnId
  change w.accepted ≤ (w.next a).accepted at more
  change (w.next a).created = w.created ∨
    (w.next a).created = w.created + 1 ∧ (w.next a).accepted = w.accepted + 1 at grown
  -- a connection is old, or has the name with the next number
  have origin : ∀ c < (w.next a).created, c < w.created ∨
      c = w.created ∧ (w.next a).accepted = w.accepted + 1 ∧
        ((w.next a).conns c).conn.name = w.nameOf (w.accepted + 1) := by
    intro c known
    rcases grown with same | ⟨one, accepted⟩
    · exact .inl (same ▸ known)
    · rcases Nat.lt_succ_iff_lt_or_eq.mp (one ▸ known) with old | rfl
      · exact .inl old
      · refine .inr ⟨rfl, accepted, ?_⟩
        have inRange : (w.accepted + 1) % 2 ^ 32 = w.accepted + 1 :=
          Nat.mod_eq_of_lt (accepted ▸ few)
        rw [next_constructed (by omega)]
        change nextName w.server = _
        rw [nextName, numbered.nextConnId, inRange]
        rfl
  refine ⟨nextConnId, fun c known => ?_, fun c known c' known' same => ?_⟩
  · rcases origin c known with old | ⟨rfl, accepted, named⟩
    · obtain ⟨id, small, named⟩ := numbered.named c old
      exact ⟨id, Nat.le_trans small more, by rw [later.name c old, named, nameOf_next guard]⟩
    · exact ⟨w.accepted + 1, Nat.le_of_eq accepted.symm, by rw [named, nameOf_next guard]⟩
  · have fresh : ∀ c < w.created, (w.conns c).conn.name ≠ w.nameOf (w.accepted + 1) := by
      intro c old same
      obtain ⟨id, small, named⟩ := numbered.named c old
      have := nameOf_inj (named.symm.trans same)
      omega
    rcases origin c known with old | ⟨rfl, _, named⟩ <;>
      rcases origin c' known' with old' | ⟨rfl, _, named'⟩
    · rw [later.name c old, later.name c' old'] at same
      exact numbered.distinct c old c' old' same
    · rw [later.name c old, named'] at same
      exact absurd same (fresh c old)
    · rw [later.name c' old', named] at same
      exact absurd same.symm (fresh c' old')
    · rfl

end World

theorem numbered {w : World} (reachable : (server.restrict World.Living).Reachable w) :
    w.Numbered := by
  refine reachable.invariant (I := World.Numbered) ?_ ?_
  · rintro w ⟨name, ipPort, callbacks, ioLoops, users, rfl⟩
    exact ⟨rfl, nofun, nofun⟩
  · exact fun w a before numbered guard =>
      numbered.next (placed before.of_restrict) guard.1 guard.2.2

end EduMuduo
