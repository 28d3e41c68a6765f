/-
Module: EduMuduo.Proofs.CallbackNesting
Layer: Proofs
Purpose: User callbacks do not nest.  A loop thread that is in user code runs nothing of the library
  on top of it but the calls of `send` and `shutdown` that this code makes, and these invoke no
  callback: what they have to announce is queued.  Below the user code stand only the rests of the
  functions that called it.  The one exception is `~TcpServer`, called from a callback: it invokes
  the connection callbacks of its connections in place.
Imports: EduMuduo.Proofs.CallOrder, EduMuduo.Proofs.Destruction
Trusted boundary: none
Main exports: Frame.isUser, World.Unnested, unnested, callbacks_never_nest
-/
import EduMuduo.Proofs.CallOrder
import EduMuduo.Proofs.Destruction

namespace EduMuduo

open Library

/-- User code. -/
def Frame.isUser : Frame → Bool
  | .user _ => true
  | .job _ | .destroyServer | .quitThread _ | .joinThread _ | .destroyAcceptor => false

namespace World

/-- No user code. -/
def UserFree (frames : List Frame) : Prop := ∀ frame ∈ frames, frame.isUser = false

/-- At most one frame of user code, with nothing but calls of `sendInLoop` and `shutdownInLoop` on
top of it. -/
def Unnested : List Frame → Prop
  | [] => True
  | frame :: rest =>
      Unnested rest ∧ (frame.isUser = true → UserFree rest) ∧
        (frame.isCall = false → frame.isUser = false → UserFree rest)

/-! ### Stacks -/

theorem UserFree.unnested {frames : List Frame} (free : UserFree frames) : Unnested frames := by
  induction frames with
  | nil => trivial
  | cons frame rest inductionHypothesis =>
      have later : UserFree rest := fun other member => free other (List.mem_cons_of_mem _ member)
      exact ⟨inductionHypothesis later, fun _ => later, fun _ _ => later⟩

/-- Only behind a call can there be user code. -/
theorem Unnested.rest {frame : Frame} {rest : List Frame} (unnested : Unnested (frame :: rest))
    (plain : frame.isCall = false) : UserFree rest := by
  cases inUser : frame.isUser with
  | true => exact unnested.2.1 inUser
  | false => exact unnested.2.2 plain inUser

theorem Unnested.cons_call {frame : Frame} {rest : List Frame} (unnested : Unnested rest)
    (call : frame.isCall = true) : Unnested (frame :: rest) := by
  refine ⟨unnested, fun inUser => ?_, fun plain => ?_⟩
  · cases frame with
    | user held => cases call
    | _ => cases inUser
  · rw [call] at plain
    cases plain

/-- A frame on top of library code that is waiting. -/
theorem UserFree.cons {frame : Frame} {rest : List Frame} (free : UserFree rest) :
    Unnested (frame :: rest) := ⟨free.unnested, fun _ => free, fun _ _ => free⟩

theorem UserFree.append {frames rest : List Frame} (first : UserFree frames)
    (second : UserFree rest) : UserFree (frames ++ rest) :=
  fun frame member => (List.mem_append.mp member).elim (first frame) (second frame)

/-- One frame of user code at most. -/
theorem Unnested.countP_le {frames : List Frame} (unnested : Unnested frames) :
    frames.countP Frame.isUser ≤ 1 := by
  induction frames with
  | nil => exact Nat.zero_le _
  | cons frame rest inductionHypothesis =>
      cases inUser : frame.isUser with
      | false =>
          rw [List.countP_cons_of_neg (by rw [inUser]; exact Bool.false_ne_true)]
          exact inductionHypothesis unnested.1
      | true =>
          have none : rest.countP Frame.isUser = 0 := by
            apply List.countP_eq_zero.mpr
            intro other member
            rw [unnested.2.1 inUser other member]
            exact Bool.false_ne_true
          have one : (frame :: rest).countP Frame.isUser = 1 := by
            rw [List.countP_cons_of_pos inUser, none]
          exact Nat.le_of_eq one

/-- Above user code there are only calls. -/
theorem Unnested.above {front rest : List Frame} {held : List ConnId}
    (unnested : Unnested (front ++ .user held :: rest)) : ∀ frame ∈ front, frame.isCall = true := by
  induction front with
  | nil => exact List.forall_mem_nil _
  | cons first front inductionHypothesis =>
      refine List.forall_mem_cons.mpr ⟨?_, ?_⟩
      · by_contra plain
        have free := unnested.rest (Bool.not_eq_true _ ▸ plain)
        have inUser := free (.user held) (List.mem_append_right _ List.mem_cons_self)
        cases inUser
      · exact inductionHypothesis unnested.1

/-! ### Jobs -/

/-- What follows the announcement of a job. -/
theorem announced_unnested (c : ConnId) (announce : Bool) {rest : List Frame}
    (free : UserFree rest) : Unnested ((if announce then [.user [c]] else []) ++ rest) := by
  cases announce with
  | false => exact free.unnested
  | true => exact free.cons

theorem userFree_job (job : Job) : UserFree [.job job] := by
  intro frame member
  rw [List.mem_singleton.mp member]
  rfl

/-- A job invokes one callback at most, and first. -/
theorem perform_unnested (w : World) (l : LoopId) (kernel : Kernel) (job : Job)
    {rest : List Frame} (free : UserFree rest) :
    Unnested ((w.perform l kernel job).frames ++ rest) := by
  have handleClose : ∀ (c : ConnId) (conn : TcpConnection),
      Unnested ((w.handleClose c conn).frames ++ rest) := by
    intro c conn
    simp only [World.handleClose, List.append_assoc]
    exact announced_unnested c _ ((userFree_job _).append free)
  cases job with
  | task functor =>
      cases functor with
      | connectEstablished c => exact announced_unnested c _ free
      | connectDestroyed c =>
          simp only [perform, runTask, connectDestroyed, List.append_assoc]
          exact announced_unnested c _ ((userFree_job _).append free)
      | removeConnectionInLoop c =>
          simp only [perform, runTask, removeConnectionInLoop]
          split <;> exact free.unnested
      | sendInLoop c data caller => exact free.unnested
      | shutdownInLoop c => exact free.unnested
      | writeCompleteCallback c => exact announced_unnested c _ free
      | highWaterMarkCallback c total => exact announced_unnested c _ free
      | user c => exact free.cons
  | callback callback c =>
      cases callback with
      | close => exact handleClose c _
      | error => exact free.unnested
      | read =>
          simp only [perform, runCallback, handleRead]
          split
          · split
            · exact free.cons
            · exact free.unnested
          · exact handleClose c _
          · exact free.unnested
      | write => exact free.unnested
  | releaseGuard c => exact free.unnested
  | closeCallback c =>
      simp only [perform, closeCallback]
      split
      · exact free.cons
      · exact free.unnested
  | removeChannel c => exact free.unnested

/-- The calls of `sendInLoop` and `shutdownInLoop` leave nothing. -/
theorem call_frames (w : World) (l : LoopId) (kernel : Kernel) {job : Job}
    (call : (Frame.job job).isCall = true) : (w.perform l kernel job).frames = [] := by
  cases job with
  | task functor =>
      cases functor with
      | sendInLoop c data caller => rfl
      | shutdownInLoop c => rfl
      | _ => cases call
  | _ => cases call

theorem dispatch_userFree (w : World) (c : ConnId) (revents : EpollEvents) :
    UserFree (w.dispatch c revents) := by
  intro frame member
  cases w.dispatch_frames c revents frame member with
  | callback callback => rfl
  | releaseGuard => rfl

/-! ### Every step -/

/-- A loop thread is not in `~TcpServer`, and will not be with the next step. -/
structure Undisturbed (w : World) (a : Action) (l : LoopId) : Prop where
  before : ∀ frame ∈ (w.loops l).stack, frame.isDestructor = false
  after : a = .destroyServer → l ≠ 0

theorem unnested_next {w : World} {a : Action} (guard : w.Enabled a) {l : LoopId}
    (undisturbed : w.Undisturbed a l) (unnested : Unnested (w.loops l).stack) :
    Unnested ((w.next a).loops l).stack := by
  by_cases member : a = .destroyMember
  · subst member
    by_cases base : l = 0
    · subst base
      obtain ⟨destructor, onStack, is⟩ := memberReady_top guard
      rw [undisturbed.before destructor onStack] at is
      cases is
    · rw [destroyMember_stack w base]
      exact unnested
  have change := next_stack guard l
  generalize ((w.next a).loops l).stack = stack at change ⊢
  cases change with
  | same => exact unnested
  | dispatched named c revents running empty active => exact (w.dispatch_userFree c revents).unnested
  | ran kernel job loop running fetched =>
      rcases Loop.fetch_stack fetched with top | ⟨_, empty, _⟩
      · rw [top] at unnested
        cases call : (Frame.job job).isCall with
        | true =>
            rw [w.call_frames l kernel call]
            exact unnested.1
        | false => exact w.perform_unnested l kernel job (unnested.rest call)
      · rw [empty]
        exact w.perform_unnested l kernel job (List.forall_mem_nil _)
  | called task idle pushed =>
      cases pushed with
      | connectEstablished accepting =>
          subst accepting
          rw [show (w.loops l).stack = [] from guard.2.2.1]
          exact (userFree_job _).unnested
      | removeConnectionInLoop kernel c running current => exact absurd running (idle kernel)
      | sendInLoop c data running connected => exact unnested.cons_call rfl
      | shutdownInLoop c running connected => exact unnested.cons_call rfl
      | connectDestroyed c running base here =>
          subst running base
          have destructor := undisturbed.before _ (List.mem_of_mem_head? guard.1)
          cases destructor
  | submitted task rest running top | returned held rest running top =>
      rw [top] at unnested
      exact unnested.1
  | took t c held rest running top =>
      rw [top] at unnested
      exact (unnested.2.1 rfl).cons
  | destroying running base => exact absurd base (undisturbed.after running)
  | member first frames rest running top plain others => exact absurd running member

end World

/-- A loop thread that is not in `~TcpServer`: one of the pool's, or the server lives. -/
theorem undisturbed {w : World} (reachable : server.Reachable w) {l : LoopId}
    (serving : l ≠ 0 ∨ w.server.destroying = false) :
    ∀ frame ∈ (w.loops l).stack, frame.isDestructor = false := by
  intro frame member
  by_cases base : l = 0
  · subst base
    have living := serving.resolve_left fun pool => pool rfl
    have none := ((destruction reachable).of_running living).1
    rw [World.destructorFrames, List.filter_eq_nil_iff] at none
    exact Bool.not_eq_true _ ▸ none frame member
  · have ok := ((placed reachable).loops l).stack frame member
    cases frame with
    | job job => rfl
    | user held => rfl
    | _ => exact absurd ok base

theorem unnested {w : World} (reachable : server.Reachable w) {l : LoopId}
    (serving : l ≠ 0 ∨ w.server.destroying = false) : World.Unnested (w.loops l).stack := by
  refine reachable.invariant (I := fun w => (l ≠ 0 ∨ w.server.destroying = false) →
    World.Unnested (w.loops l).stack) ?_ ?_ serving
  · rintro w ⟨name, ipPort, callbacks, ioLoops, users, rfl⟩ _
    trivial
  · intro w a before inductionHypothesis guard serving
    have already : l ≠ 0 ∨ w.server.destroying = false := by
      apply serving.imp_right
      intro living
      by_contra begun
      have kept := World.destroying_kept (a := a) (Bool.not_eq_false _ ▸ begun)
      rw [show (w.next a).server.destroying = false from living] at kept
      cases kept
    refine World.unnested_next guard ⟨undisturbed before already, ?_⟩ (inductionHypothesis already)
    rintro rfl
    apply serving.resolve_right
    intro living
    cases living

/-- No loop thread of the pool is ever in two callbacks at a time, nor is the base loop's as long as
the server is not being destroyed.  All that a thread runs while it is in a callback are the calls
of `sendInLoop` and `shutdownInLoop` made there. -/
theorem callbacks_never_nest {w : World} (reachable : server.Reachable w) {l : LoopId}
    (serving : l ≠ 0 ∨ w.server.destroying = false) :
    (w.loops l).stack.countP Frame.isUser ≤ 1 ∧
      ∀ front held rest, (w.loops l).stack = front ++ .user held :: rest →
        ∀ frame ∈ front, frame.isCall = true := by
  have invariant := unnested reachable serving
  constructor
  · exact invariant.countP_le
  · intro front held rest split
    rw [split] at invariant
    exact invariant.above

/-- A callback on loop 1 has called `send`. -/
def demoInCallback : List Action :=
  demoOpening.take 9 ++ [.userSend 1 0 [104, 105]]

theorem callbacks_never_nest_demo :
    ((server.exec (demoServer 1 1) demoInCallback).loops 1).stack.countP Frame.isUser ≤ 1 ∧
      ∀ front held rest, ((server.exec (demoServer 1 1) demoInCallback).loops 1).stack =
        front ++ .user held :: rest → ∀ frame ∈ front, frame.isCall = true := by
  have admitted : server.Admits (demoServer 1 1) demoInCallback := by decide +kernel
  exact callbacks_never_nest (admitted.reachable (demoServer_initial 1 1)) (.inl (by decide))

end EduMuduo
