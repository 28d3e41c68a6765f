/-
Module: EduMuduo.Proofs.Delivery
Layer: Proofs
Purpose: What the user hears of a connection after `closeCallback_`.  `handleEventWithGuard` goes on
  with the read callback of the mask without looking at the connection again, and `handleClose` and
  `handleRead` do not look at the state either; so a closed connection can deliver once more, in the
  same dispatch or in a later one that finds its channel registered again.  Where neither happens,
  nothing is delivered behind `closeCallback_`.
Imports: EduMuduo.Library.History, EduMuduo.Proofs.ClosedConnection, EduMuduo.Proofs.StackFlow
Trusted boundary: none
Main exports: closeToken, SilentWhenClosed, nothing_delivered_after_close,
  close_delivered_twice
-/
import EduMuduo.Library.History
import EduMuduo.Proofs.ClosedConnection
import EduMuduo.Proofs.StackFlow

namespace EduMuduo

open Library

namespace World

/-! ### One `closeCallback_` for each `handleClose` -/

/-- The calls of `closeCallback_` that loop `l` still owes for connection `c`. -/
def owedCloses (w : World) (l : LoopId) (c : ConnId) : Nat :=
  (w.loops l).stack.count (.job (.closeCallback c))

theorem handleClose_owes (w : World) (c c' : ConnId) (conn : TcpConnection) :
    (w.handleClose c conn).frames.count (.job (.closeCallback c')) =
      if c = c' then (w.handleClose c conn).events.count .handleClose else 0 := by
  simp only [handleClose]
  split <;> split <;> simp [*]

/-- A job leaves as many such calls as it writes `handleClose`. -/
theorem perform_owes (w : World) (l : LoopId) (kernel : Kernel) (job : Job) (c : ConnId) :
    (w.perform l kernel job).frames.count (.job (.closeCallback c)) =
      if job.conn = c then (w.perform l kernel job).events.count .handleClose else 0 := by
  cases job with
  | task task =>
      cases task with
      | connectEstablished c' =>
          simp only [perform, runTask, connectEstablished]
          split <;> simp
      | connectDestroyed c' =>
          simp only [perform, runTask, connectDestroyed]
          split <;> simp
      | removeConnectionInLoop c' =>
          simp only [perform, runTask, removeConnectionInLoop]
          split <;> simp [quiet]
      | sendInLoop c' data caller => simp [perform, runTask, sendInLoop, quiet]
      | shutdownInLoop c' => simp [perform, runTask, quiet]
      | writeCompleteCallback c' =>
          simp only [perform, runTask, notify]
          split <;> simp [quiet]
      | highWaterMarkCallback c' total =>
          simp only [perform, runTask, notify]
          split <;> simp [quiet]
      | user c' => simp [perform, runTask, quiet]
  | callback callback c' =>
      cases callback with
      | close => simpa [perform, runCallback, Job.conn] using w.handleClose_owes c' c _
      | error => simp [perform, runCallback, quiet]
      | read =>
          simp only [perform, runCallback, handleRead]
          split
          · split <;> simp [quiet]
          · simpa [Job.conn] using w.handleClose_owes c' c _
          · simp [quiet]
      | write => simp [perform, runCallback, handleWrite, quiet]
  | releaseGuard c' => simp [perform, quiet]
  | closeCallback c' =>
      simp only [perform, closeCallback]
      split <;> simp [quiet]
  | removeChannel c' => simp [perform, quiet]

/-- Fetching a job takes its call off the stack. -/
theorem owedCloses_fetch {w : World} {l : LoopId} {loop : Loop} {job : Job}
    (fetched : (w.loops l).fetch = some (job, loop)) (c : ConnId) :
    w.owedCloses l c =
      loop.stack.count (.job (.closeCallback c)) + if job = .closeCallback c then 1 else 0 := by
  rw [owedCloses]
  rcases Loop.fetch_stack fetched with top | ⟨bottom, after, task, rfl⟩
  · rw [top, List.count_cons]
    congr 1
    simp
  · rw [bottom, after]
    simp

/-- No other step adds such a call. -/
theorem owedCloses_next_le {w : World} {a : Action} (guard : w.Enabled a)
    (idle : ∀ l kernel, a ≠ .run l kernel) (l : LoopId) (c : ConnId) :
    (w.next a).owedCloses l c ≤ w.owedCloses l c := by
  have change := next_stack guard l
  rw [owedCloses, owedCloses]
  generalize ((w.next a).loops l).stack = stack at change ⊢
  cases change with
  | same => exact Nat.le_refl _
  | dispatched named c' revents running empty active =>
      have none : (w.dispatch c' revents).count (.job (.closeCallback c)) = 0 := by
        rw [List.count_eq_zero]
        exact fun member => nomatch w.dispatch_frames c' revents _ member
      rw [none]
      exact Nat.zero_le _
  | ran kernel job loop running fetched => exact absurd running (idle l kernel)
  | called task _ pushed => simp
  | submitted task rest running top => simp [top]
  | returned held rest running top => simp [top]
  | took t c' held rest running top => simp [top]
  | destroying running base => simp
  | member frame frames rest running top plain others =>
      have none : frames.count (.job (.closeCallback c)) = 0 := by
        rw [List.count_eq_zero]
        exact fun member => nomatch (others _ member).1
      rw [top, List.count_append, none, Nat.zero_add]
      exact List.count_le_count_cons

/-- The job that calls `closeCallback_` writes nothing else. -/
theorem Deed.closeCallback_alone {l : LoopId} {kernel : Kernel} {conn after : TcpConnection}
    {job : Job} {events : List Event} (deed : Deed l kernel conn job after events)
    (called : .closeCallback ∈ events) : events = [.closeCallback] := by
  cases deed.emits called with
  | closeCallback c =>
      cases deed with
      | closeCallback c => rfl
      | other job => exact absurd called List.not_mem_nil

/-- `closeCallback_` has been called and is owed at most once for each `handleClose`. -/
def CloseToken (w : World) (c : ConnId) : Prop :=
  w.owedCloses (w.conns c).conn.loop c + (w.conns c).history.count .closeCallback ≤
    (w.conns c).history.count .handleClose

theorem CloseToken.run {w : World} (placed : w.Placed) {l : LoopId} {kernel : Kernel}
    (guard : w.Enabled (.run l kernel)) {c : ConnId} (known : c < w.created)
    (token : w.CloseToken c) : (w.next (.run l kernel)).CloseToken c := by
  obtain ⟨job, loop, fetched, current, here, fits⟩ := enabled_run guard
  have sameLoop := (placed.next_extends guard).loop c known
  have stack := run_stack kernel fetched (w.conns c).conn.loop
  have owed := owedCloses_fetch fetched c
  have owes := w.perform_owes l kernel job c
  have deed := w.perform_deed l kernel job
  have once := deed.count_le_one .closeCallback
  rw [CloseToken] at token ⊢
  rw [sameLoop, owedCloses, stack, run_conns fetched, Function.update_apply]
  by_cases about : c = job.conn
  · rw [if_pos about, ← about, List.count_append, List.count_append]
    rw [if_pos about.symm] at owes
    by_cases called : job = .closeCallback c
    · -- the call that was owed
      have owned : (w.conns c).conn.loop = l := (called ▸ placed.current_ok current).2.1
      rw [if_pos owned, List.count_append, owes]
      rw [if_pos called] at owed
      rw [owned] at token
      omega
    · have silent : (w.perform l kernel job).events.count .closeCallback = 0 := by
        rw [List.count_eq_zero]
        intro member
        cases deed.emits member
        exact called (about ▸ rfl)
      split
      · rename_i owned
        rw [List.count_append, owes]
        rw [if_neg called] at owed
        rw [owned] at token
        omega
      · rw [← owedCloses]
        omega
  · rw [if_neg about]
    rw [if_neg (Ne.symm about)] at owes
    split
    · rename_i owned
      rw [List.count_append, owes]
      rw [owned] at token
      omega
    · exact token

/-- A connection without a history owes nothing. -/
theorem owedCloses_unknown {w : World} (placed : w.Placed) (l : LoopId) {c : ConnId}
    (blank : (w.conns c).history = []) : w.owedCloses l c = 0 := by
  rw [owedCloses, List.count_eq_zero]
  intro member
  have ok : w.JobOk l (.closeCallback c) := (placed.loops l).stack _ member
  have closed := ok.2.2
  rw [blank] at closed
  exact absurd closed List.not_mem_nil

theorem CloseToken.next {w : World} (placed : w.Placed) {a : Action} (guard : w.Enabled a)
    {c : ConnId} (token : w.CloseToken c) : (w.next a).CloseToken c := by
  rcases Nat.lt_or_ge c w.created with known | unknown
  · by_cases running : ∃ l kernel, a = .run l kernel
    · obtain ⟨l, kernel, rfl⟩ := running
      exact token.run placed guard known
    · have idle : ∀ l kernel, a ≠ .run l kernel := fun l kernel same => running ⟨l, kernel, same⟩
      have fewer := owedCloses_next_le guard idle (w.conns c).conn.loop c
      rw [CloseToken, next_history_of_ne guard idle known,
        (placed.next_extends guard).loop c known]
      rw [CloseToken] at token
      omega
  · have blank := placed.next_history_unknown guard unknown
    rw [CloseToken, owedCloses_unknown (placed.next guard) _ blank, blank]
    exact Nat.le_refl _

end World

theorem closeToken {w : World} (reachable : server.Reachable w) (c : ConnId) :
    w.CloseToken c := by
  refine reachable.invariant (I := fun w => w.CloseToken c) ?_ ?_
  · rintro w ⟨name, ipPort, callbacks, ioLoops, users, rfl⟩
    exact Nat.le_refl _
  · exact fun w a before token guard => token.next (placed before) guard

/-! ### When nothing is delivered -/

/-- The event is a call of `connectionCallback_`, `messageCallback_` or `closeCallback_`. -/
def Event.delivers : Event → Bool
  | .connectionCallback _ | .messageCallback | .closeCallback => true
  | .connectEstablished _ | .handler _ _ | .handleClose | .removeConnectionInLoop
  | .connectDestroyed _ | .connectDestroyedReturned => false

/-- The job reads bytes. -/
def Kernel.receives (kernel : Kernel) : Job → Bool
  | .callback .read _ =>
      match kernel.read with
      | .data bytes => bytes != []
      | .failed _ => false
  | _ => false

namespace World

/-- Besides, no read callback receives bytes for the message callback of a closed connection. -/
def SilentWhenClosed (w : World) (kernel : Kernel) (job : Job) : Prop :=
  w.KeepsOff kernel job ∧ (kernel.receives job = true →
    (w.conns job.conn).conn.callbacks.messageCallback = true → ¬ w.Closed job.conn)

instance (w : World) (kernel : Kernel) (job : Job) : Decidable (w.SilentWhenClosed kernel job) :=
  inferInstanceAs (Decidable (_ ∧ _))

/-- The events of `handleClose` are written by a job that closes. -/
theorem Deed.closes {l : LoopId} {kernel : Kernel} {conn after : TcpConnection} {job : Job}
    {events : List Event} (deed : Deed l kernel conn job after events)
    (closed : .handleClose ∈ events) : kernel.closes job = true := by
  cases deed.emits closed with
  | closed callback c kind =>
      cases deed with
      | close callback c input closing =>
          rcases closing with rfl | ⟨rfl, nothing⟩
          · rfl
          · exact decide_eq_true nothing
      | read c input events received =>
          rcases received with rfl | ⟨rfl, _⟩ <;> simp at closed
      | other job => exact absurd closed List.not_mem_nil
      | error c => simp at closed
      | write c => simp at closed

end World

/-- Where closed connections stay off, `handleClose` runs at most once for each. -/
theorem handleClose_once {w : World}
    (reachable : (server.restrict (World.OnJobs World.KeepsOff)).Reachable w) (c : ConnId) :
    (w.conns c).history.count .handleClose ≤ 1 := by
  refine reachable.invariant (I := fun w => (w.conns c).history.count .handleClose ≤ 1) ?_ ?_
  · rintro w ⟨name, ipPort, callbacks, ioLoops, users, rfl⟩
    exact Nat.zero_le _
  · intro w a before once guard
    have change := World.next_change guard.1 c
    change ((w.next a).conns c).history.count .handleClose ≤ 1
    generalize (w.next a).conns c = tracked at change ⊢
    cases change with
    | same => exact once
    | constructed new => exact Nat.zero_le _
    | performed l kernel job running current about here fits after events conn log deed =>
        subst about running
        have few := deed.count_le_one .handleClose
        rw [List.count_append]
        rcases Nat.eq_zero_or_pos (events.count .handleClose) with none | some
        · omega
        · have closes := deed.closes (List.count_pos_iff.mp some)
          have registered := (guard.2 job current).2 closes
          have first : (w.conns job.conn).history.count .handleClose = 0 := by
            rw [List.count_eq_zero]
            intro closed
            have off := (closed_off before closed).unregistered
            rw [registered] at off
            cases off
          omega
    | exchanged call => exact once
    | marked mark => exact once
    | retrieved len => exact once

/-- What a job writes behind `closeCallback`, where closed connections are silent. -/
theorem delivers_nothing {w : World} {l : LoopId} {kernel : Kernel} {job : Job}
    {after : TcpConnection} {events : List Event}
    (reachable : (server.restrict (World.OnJobs World.KeepsOff)).Reachable w)
    (current : w.current l = some job) (silent : w.SilentWhenClosed kernel job)
    (deed : World.Deed l kernel (w.conns job.conn).conn job after events)
    (called : .closeCallback ∈ (w.conns job.conn).history) :
    ∀ event ∈ events, event.delivers = false := by
  have token := closeToken reachable.of_restrict job.conn
  have once := handleClose_once reachable job.conn
  have already := List.count_pos_iff.mpr called
  rw [World.CloseToken] at token
  have closed : w.Closed job.conn := List.count_pos_iff.mp (by omega)
  have off := closed_off reachable closed
  cases deed with
  | establish c =>
      have down := (establishToken reachable.of_restrict).not_up_of_current current
      exact absurd (closed_up reachable.of_restrict closed) down
  | destroy c =>
      rw [TcpConnection.connectDestroyed_of_ne _ (closed_unconnected reachable.of_restrict closed)]
      simp [Event.delivers]
  | close callback c input closing =>
      have closes : kernel.closes (.callback callback c) = true := by
        rcases closing with rfl | ⟨rfl, nothing⟩
        · rfl
        · exact decide_eq_true nothing
      have registered := silent.1.2 closes
      rw [off.unregistered] at registered
      cases registered
  | read c input events received =>
      rcases received with rfl | ⟨rfl, wanted, bytes, some, result⟩
      · simp [Event.delivers]
      · have receives : kernel.receives (.callback .read c) = true := by
          simp [Kernel.receives, result, some]
        exact absurd closed (silent.2 receives wanted)
  | closeCallback c =>
      -- the one call was made already
      have owned := ((placed reachable.of_restrict).current_ok current).2.1
      obtain ⟨loop, fetched⟩ := World.exists_fetch current
      have owed := World.owedCloses_fetch fetched c
      rw [if_pos rfl] at owed
      rw [show (w.conns (Job.closeCallback c).conn).conn.loop = l from owned] at token
      change w.owedCloses l c + _ ≤ _ at token
      omega
  | remove c | send c data caller | shutdown c | other job | error c | write c
  | removeChannel c => simp [Event.delivers]

/-- Nothing is delivered behind `closeCallback_`, as long as no job asks for events on a closed
connection, `handleClose` finds it registered, and no read callback receives bytes for it. -/
theorem nothing_delivered_after_close {w : World}
    (reachable : (server.restrict (World.OnJobs World.SilentWhenClosed)).Reachable w)
    (c : ConnId) :
    EachAfter (fun past event => .closeCallback ∈ past → event.delivers = false)
      (w.conns c).history := by
  have keeps : ∀ (w : World) (a : Action), w.OnJobs World.SilentWhenClosed a →
      w.OnJobs World.KeepsOff a := by
    intro w a silent
    cases a with
    | run l kernel => exact fun job current => (silent job current).1
    | _ => trivial
  refine reachable.invariant (I := fun w => EachAfter
    (fun past event => .closeCallback ∈ past → event.delivers = false) (w.conns c).history) ?_ ?_
  · rintro w ⟨name, ipPort, callbacks, ioLoops, users, rfl⟩
    exact eachAfter_nil _
  · intro w a before ordered guard
    have change := World.next_change guard.1 c
    change EachAfter _ ((w.next a).conns c).history
    generalize (w.next a).conns c = tracked at change ⊢
    cases change with
    | same => exact ordered
    | constructed new => exact eachAfter_nil _
    | performed l kernel job running current about here fits after events conn log deed =>
        subst about running
        refine eachAfter_append.mpr ⟨ordered, fun front event rest split called => ?_⟩
        have silent := delivers_nothing (before.restrict_mono keeps) current (guard.2 job current)
          deed
        rcases List.mem_append.mp called with already | fresh
        · exact silent already event (by rw [split]; simp)
        · -- a job that calls `closeCallback_` writes nothing behind it
          have alone := deed.closeCallback_alone
            (by rw [split]; exact List.mem_append_left _ fresh)
          rw [alone] at split
          have length := congrArg List.length split
          have some := List.length_pos_of_mem fresh
          simp only [List.length_append, List.length_cons, List.length_nil] at length
          omega
    | exchanged call => exact ordered
    | marked mark => exact ordered
    | retrieved len => exact ordered

/-- The hypotheses are met by the run to the end of `handleClose`. -/
theorem nothing_delivered_after_close_demo :
    EachAfter (fun past event => .closeCallback ∈ past → event.delivers = false)
      ((server.exec (demoServer 1 1) (demoOpening ++ demoClosing ++
        [.userReturn 1, .run 1 demoKernel])).conns 0).history := by
  have admitted : (server.restrict (World.OnJobs World.SilentWhenClosed)).Admits (demoServer 1 1)
      (demoOpening ++ demoClosing ++ [.userReturn 1, .run 1 demoKernel]) := by decide +kernel
  have reachable := admitted.reachable (demoServer_initial 1 1)
  rw [Machine.restrict_exec] at reachable
  exact nothing_delivered_after_close reachable 0

/-- The mask has a hangup and urgent data: behind `handleClose` the read callback finds the end of
the stream and runs `handleClose` again. -/
theorem close_delivered_twice :
    ¬ ∀ (w : World) (c : ConnId), server.Reachable w →
      EachAfter (fun past event => .closeCallback ∈ past → event.delivers = false)
        (w.conns c).history := by
  intro claim
  have admitted : server.Admits (demoServer 1 1) (demoOpening ++
      [.poll 1 [.channel 0 (EPOLLHUP ||| EPOLLPRI)], .handleEvent 1 true, .run 1 demoKernel,
        .userReturn 1, .run 1 demoKernel]) := by decide +kernel
  have read := fun guard =>
    (admitted.reachable (demoServer_initial 1 1)).step (a := .run 1 demoKernel) guard
  have reachable := read
    ⟨by decide +kernel, .callback .read 0, by decide +kernel, trivial, Nat.zero_le _⟩
  have delivered := claim _ 0 reachable [.connectEstablished 1, .connectionCallback true,
    .handler 1 .close, .handleClose, .connectionCallback false, .closeCallback, .handler 1 .read,
    .handleClose] (.connectionCallback false) [] (by decide +kernel) (by decide)
  cases delivered

end EduMuduo
