/-
Module: EduMuduo.Proofs.ActiveChannels
Layer: Proofs
Purpose: What `poll` reports and how far `events_` grows.  A poll never reads beyond the array or
  through a null pointer; it activates registered channels, each once, with the flags that the
  kernel has found.  The array falls short of what is pending logarithmically often in the life of
  the poller, and it never holds more than twice as many elements as there are channels.
Imports: EduMuduo.Core.EventList, EduMuduo.Library.Doubling, EduMuduo.Proofs.PollerAgreement,
  Mathlib.Data.List.FinRange
Trusted boundary: none
Main exports: PollingPoller.Sound, PollingPoller.poll_returned, polling_sound,
  poll_reports_registered, short_polls_few
-/
import EduMuduo.Core.EventList
import EduMuduo.Library.Doubling
import EduMuduo.Proofs.PollerAgreement
import Mathlib.Data.List.FinRange

namespace EduMuduo

open Library

/-! ### One entry for each descriptor -/

namespace EPollPoller

variable {Pointer : Type}

/-- Each entry of the interest list is registered under the descriptor of its channel. -/
def Keyed (self : EPollPoller Pointer) : Prop :=
  ∀ fd held, self.interestList fd = some held → self.fd held.1 = fd

/-- An entry is the one of a channel that is added. -/
theorem InStep.entry {self : EPollPoller Pointer} (inStep : self.InStep) (keyed : self.Keyed)
    {fd : Fd} {held : Pointer × EpollEvents} (entry : self.interestList fd = some held) :
    self.fd held.1 = fd ∧ (self.channel held.1).index = .kAdded ∧
      held.2 = (self.channel held.1).events := by
  have own := keyed fd held entry
  rw [← own, interestList_of_agree (inStep.agree held.1)] at entry
  split at entry
  · rename_i added
    have same := Option.some.inj entry
    exact ⟨own, added, (congrArg Prod.snd same).symm⟩
  · cases entry

variable [DecidableEq Pointer]

theorem Keyed.put {self : EPollPoller Pointer} (keyed : self.Keyed) (c : Pointer)
    (channel : Channel) : (self.put c channel).Keyed := by
  intro fd held entry
  by_cases same : fd = self.fd c
  · subst same
    simp only [EPollPoller.put, Function.update_self, Slot.expected] at entry
    split at entry
    · cases entry
      rfl
    · cases entry
  · simp only [EPollPoller.put, Function.update_of_ne same] at entry
    exact keyed fd held entry

theorem Keyed.next {self : EPollPoller Pointer} (keyed : self.Keyed) (inStep : self.InStep)
    (c : Pointer) (operation : Operation) : (self.next c operation).Keyed := by
  rw [next_eq (inStep.agree c)]
  exact keyed.put c _

end EPollPoller

namespace PollingPoller

variable {Pointer : Type}

/-! ### What the kernel reports -/

/-- The channels that the kernel reports, with their flags. -/
def reported (self : PollingPoller Pointer) (pending : List Pending) :
    List (Pointer × EpollEvents) :=
  (pending.take self.eventList.length).filterMap fun p =>
    (self.interestList p.fd).map fun held => (held.1, p.revents)

/-- The element of `events_` that tells of a channel. -/
def toEvent (report : Pointer × EpollEvents) : EpollEvent Pointer := ⟨report.2, some report.1⟩

/-- They are what the kernel writes into the array and, read back as descriptors, what was pending,
as far as it fits. -/
theorem reported_eq {self : PollingPoller Pointer} {pending : List Pending}
    (pends : self.Pends pending) (keyed : self.toEPollPoller.Keyed) :
    self.epollWait pending self.eventList.length = (self.reported pending).map toEvent ∧
      (self.reported pending).map (fun report => ⟨self.fd report.1, report.2⟩) =
        pending.take self.eventList.length := by
  have entries : ∀ p ∈ pending.take self.eventList.length,
      ∃ held, self.interestList p.fd = some held := by
    intro p member
    obtain ⟨held, found, _⟩ := pends.2 p (List.mem_of_mem_take member)
    exact ⟨held, found⟩
  rw [epollWait, reported]
  generalize pending.take self.eventList.length = front at entries
  induction front with
  | nil => exact ⟨rfl, rfl⟩
  | cons p rest inductionHypothesis =>
      obtain ⟨held, found⟩ := entries p List.mem_cons_self
      obtain ⟨written, readBack⟩ := inductionHypothesis fun p member =>
        entries p (List.mem_cons_of_mem _ member)
      rw [List.filterMap_cons_some (by rw [found]; rfl)]
      constructor
      · rw [List.map_cons, written, found, List.map_cons]
        rfl
      · rw [List.map_cons, readBack, keyed p.fd held found]

theorem reported_length {self : PollingPoller Pointer} {pending : List Pending}
    (pends : self.Pends pending) (keyed : self.toEPollPoller.Keyed) :
    (self.reported pending).length = min self.eventList.length pending.length := by
  rw [← List.length_take, ← (reported_eq pends keyed).2, List.length_map]

theorem mem_reported {self : PollingPoller Pointer} {pending : List Pending}
    (pends : self.Pends pending) (keyed : self.toEPollPoller.Keyed) {c : Pointer}
    {revents : EpollEvents} (member : (c, revents) ∈ self.reported pending) :
    ∃ held, self.interestList (self.fd c) = some held ∧
      held.1 = c ∧ revents &&& ~~~(held.2 ||| EPOLLERR ||| EPOLLHUP) = 0 := by
  obtain ⟨p, front, reports⟩ := List.mem_filterMap.mp member
  obtain ⟨held, found, asked⟩ := pends.2 p (List.mem_of_mem_take front)
  rw [show self.interestList p.fd = some held from found, Option.map_some] at reports
  cases reports
  exact ⟨held, (keyed p.fd held found).symm ▸ found, rfl, asked⟩

/-- The kernel has overwritten the front of the array. -/
theorem written_length {self : PollingPoller Pointer} {pending : List Pending}
    (pends : self.Pends pending) (keyed : self.toEPollPoller.Keyed) :
    ((self.reported pending).map toEvent ++
      self.eventList.drop (self.reported pending).length).length = self.eventList.length := by
  rw [List.length_append, List.length_map, List.length_drop, reported_length pends keyed]
  omega

/-- No channel is reported twice. -/
theorem reported_nodup {self : PollingPoller Pointer} {pending : List Pending}
    (pends : self.Pends pending) (keyed : self.toEPollPoller.Keyed) :
    ((self.reported pending).map Prod.fst).Nodup := by
  have distinct : ((pending.take self.eventList.length).map Pending.fd).Nodup :=
    pends.1.sublist ((List.take_sublist _ _).map _)
  rw [← (reported_eq pends keyed).2, List.map_map] at distinct
  apply List.Nodup.of_map self.fd
  rw [List.map_map]
  exact distinct

/-- The poller is in step, each entry has its descriptor, and the array is not empty. -/
structure Sound (poller : PollingPoller Pointer) : Prop where
  inStep : poller.toEPollPoller.InStep
  keyed : poller.toEPollPoller.Keyed
  room : 0 < poller.eventList.length

/-- No more descriptors are pending than channels are registered. -/
theorem Sound.pending_length {self : PollingPoller Pointer} (sound : self.Sound)
    {pending : List Pending} (pends : self.Pends pending) {registered : List Pointer}
    (all : ∀ c, (self.channel c).index = .kAdded → c ∈ registered) :
    pending.length ≤ registered.length := by
  have inside : pending.map Pending.fd ⊆ registered.map self.fd := by
    intro fd member
    obtain ⟨p, pendsHere, rfl⟩ := List.mem_map.mp member
    obtain ⟨held, found, _⟩ := pends.2 p pendsHere
    obtain ⟨own, added, _⟩ := sound.inStep.entry sound.keyed found
    exact List.mem_map.mpr ⟨held.1, all _ added, own⟩
  have length := List.Nodup.length_le_of_subset pends.1 inside
  rwa [List.length_map, List.length_map] at length

/-! ### The loop over the array -/

variable [DecidableEq Pointer]

/-- `revents_` of all channels behind the reports. -/
def reventsAfter (revents : Pointer → EpollEvents) (reports : List (Pointer × EpollEvents)) :
    Pointer → EpollEvents :=
  reports.foldl (fun revents report => Function.update revents report.1 report.2) revents

theorem reventsAfter_of_notMem {revents : Pointer → EpollEvents}
    {reports : List (Pointer × EpollEvents)} {c : Pointer} (silent : c ∉ reports.map Prod.fst) :
    reventsAfter revents reports c = revents c := by
  induction reports generalizing revents with
  | nil => rfl
  | cons first rest inductionHypothesis =>
      rw [List.map_cons, List.mem_cons, not_or] at silent
      change reventsAfter (Function.update revents first.1 first.2) rest c = revents c
      rw [inductionHypothesis silent.2, Function.update_of_ne silent.1]

theorem reventsAfter_of_mem {revents : Pointer → EpollEvents}
    {reports : List (Pointer × EpollEvents)} (distinct : (reports.map Prod.fst).Nodup)
    {c : Pointer} {flags : EpollEvents} (member : (c, flags) ∈ reports) :
    reventsAfter revents reports c = flags := by
  induction reports generalizing revents with
  | nil => cases member
  | cons first rest inductionHypothesis =>
      obtain ⟨once, others⟩ := List.nodup_cons.mp distinct
      change reventsAfter (Function.update revents first.1 first.2) rest c = flags
      rcases List.mem_cons.mp member with same | later
      · subst same
        rw [reventsAfter_of_notMem once, Function.update_self]
      · exact inductionHypothesis others later

/-- The loop reads back what the kernel has written. -/
theorem fillActiveChannels_eq {self : PollingPoller Pointer}
    {reports : List (Pointer × EpollEvents)} {rest : List (EpollEvent Pointer)}
    (written : self.eventList = reports.map toEvent ++ rest) (activeChannels : List Pointer) :
    self.fillActiveChannels reports.length activeChannels =
      some ({ self with revents := reventsAfter self.revents reports },
        activeChannels ++ reports.map Prod.fst) := by
  induction reports using List.reverseRecOn generalizing rest with
  | nil =>
      rw [List.map_nil, List.append_nil]
      rfl
  | append_singleton front last inductionHypothesis =>
      rw [List.map_append, List.append_assoc] at written
      have before := inductionHypothesis written
      rw [fillActiveChannels, List.length_append, List.length_singleton, List.range_succ,
        List.foldlM_append]
      rw [fillActiveChannels] at before
      rw [before]
      have element : self.eventList[front.length]? = some (toEvent last) := by
        rw [written, List.getElem?_append_right (by rw [List.length_map]), List.length_map,
          Nat.sub_self]
        rfl
      simp [activate, element, toEvent, reventsAfter]

/-! ### One poll -/

/-- What a poll leaves behind. -/
def polled (self : PollingPoller Pointer) (pending : List Pending) : PollingPoller Pointer :=
  let written := (self.reported pending).map toEvent ++
    self.eventList.drop (self.reported pending).length
  { self with
    revents := reventsAfter self.revents (self.reported pending)
    eventList :=
      if self.eventList.length ≤ pending.length then
        written ++ List.replicate self.eventList.length .zero
      else written }

/-- A poll gets through, and it appends the reported channels. -/
theorem poll_returned {self : PollingPoller Pointer} (sound : self.Sound) {pending : List Pending}
    (pends : self.Pends pending) (activeChannels : List Pointer) :
    self.poll activeChannels (.returned pending) =
      some (self.polled pending, activeChannels ++ (self.reported pending).map Prod.fst) := by
  have length := reported_length pends sound.keyed
  have total := written_length pends sound.keyed
  simp only [poll, (reported_eq pends sound.keyed).1, List.length_map]
  by_cases none : (self.reported pending).length = 0
  · have room := sound.room
    have few : ¬ self.eventList.length ≤ pending.length := by omega
    have empty := List.eq_nil_of_length_eq_zero none
    simp [polled, empty, reventsAfter, few]
  · rw [if_pos (Nat.pos_of_ne_zero none), fillActiveChannels_eq rfl]
    simp only [Option.bind_eq_bind, Option.bind_some, total]
    by_cases full : self.eventList.length ≤ pending.length
    · rw [if_pos (by omega)]
      simp [polled, full]
    · rw [if_neg (by omega)]
      simp [polled, full]

theorem polled_length {self : PollingPoller Pointer} (sound : self.Sound) {pending : List Pending}
    (pends : self.Pends pending) : (self.polled pending).eventList.length =
      if self.eventList.length ≤ pending.length then 2 * self.eventList.length
      else self.eventList.length := by
  have total := written_length pends sound.keyed
  rw [polled]
  simp only
  split
  · rw [List.length_append, total, List.length_replicate, Nat.two_mul]
  · exact total

/-! ### Runs -/

theorem Sound.next {self : PollingPoller Pointer} (sound : self.Sound) {a : Action Pointer}
    (guard : self.Enabled a) : (self.next a).Sound := by
  cases a with
  | operate c operation =>
      exact ⟨sound.inStep.next c operation, sound.keyed.next sound.inStep c operation, sound.room⟩
  | poll result =>
      cases result with
      | failed errno => exact sound
      | returned pending =>
          have length := polled_length sound guard.2
          rw [PollingPoller.next, poll_returned sound guard.2]
          refine ⟨sound.inStep, sound.keyed, ?_⟩
          have room := sound.room
          change 0 < (self.polled pending).eventList.length
          split at length <;> omega

end PollingPoller

section Runs

variable {Pointer : Type} [DecidableEq Pointer]

theorem polling_sound {self : PollingPoller Pointer}
    (reachable : (pollingPoller Pointer).Reachable self) : self.Sound := by
  refine reachable.invariant (I := PollingPoller.Sound) ?_
    fun self a _ sound guard => sound.next guard
  rintro _ ⟨fd, distinct, rfl⟩
  refine ⟨⟨distinct, fun _ => rfl, rfl, rfl⟩, fun fd held entry => ?_, Nat.zero_lt_succ 15⟩
  cases entry

/-- Every poll gets through, without an access beyond `events_` or through a null pointer.  It
appends the channels of the descriptors that the kernel reports, no channel twice and in their
order, and stores what the kernel has found for each in its `revents_`.  These channels are in the
map, added, and have asked for the events that they are told about, errors and hangups apart.  The
`revents_` of all other channels, the map, the masks and the interest list are left alone. -/
theorem poll_reports_registered {self : PollingPoller Pointer}
    (reachable : (pollingPoller Pointer).Reachable self) {pending : List Pending}
    (pends : self.Pends pending) (activeChannels : List Pointer) :
    ∃ after reported,
      self.poll activeChannels (.returned pending) = some (after, activeChannels ++ reported) ∧
        reported.Nodup ∧
        reported.map (fun c => ⟨self.fd c, after.revents c⟩) =
          pending.take self.eventList.length ∧
        (∀ c ∈ reported, self.hasChannel c = true ∧ (self.channel c).index = .kAdded ∧
          after.revents c &&& ~~~((self.channel c).events ||| EPOLLERR ||| EPOLLHUP) = 0) ∧
        (∀ c, c ∉ reported → after.revents c = self.revents c) ∧
        after.toEPollPoller = self.toEPollPoller := by
  have sound := polling_sound reachable
  have distinct := PollingPoller.reported_nodup pends sound.keyed
  have stored : ∀ report ∈ self.reported pending,
      (self.polled pending).revents report.1 = report.2 :=
    fun report member => PollingPoller.reventsAfter_of_mem distinct member
  refine ⟨self.polled pending, (self.reported pending).map Prod.fst,
    PollingPoller.poll_returned sound pends activeChannels, distinct, ?_, ?_,
    fun c silent => PollingPoller.reventsAfter_of_notMem silent, rfl⟩
  · rw [← (PollingPoller.reported_eq pends sound.keyed).2, List.map_map]
    apply List.map_congr_left
    intro report member
    change Pending.mk _ ((self.polled pending).revents report.1) = _
    rw [stored report member]
  · intro c member
    obtain ⟨report, reports, rfl⟩ := List.mem_map.mp member
    obtain ⟨held, found, same, asked⟩ := PollingPoller.mem_reported pends sound.keyed reports
    obtain ⟨_, added, events⟩ := sound.inStep.entry sound.keyed found
    rw [same] at added events
    refine ⟨((sound.inStep.agrees report.1).hasChannel_iff).mpr (.inl added), added, ?_⟩
    rw [stored report reports, ← events]
    exact asked

/-- Two channels are registered, one of them for writing too. -/
def demoPolling : List (PollingPoller.Action Bool) :=
  [.operate true (.change .enableReading), .operate false (.change .enableReading),
    .operate false (.change .enableWriting)]

def demoPoller : PollingPoller Bool :=
  (pollingPoller Bool).exec (.construct fun c => if c then 7 else 5) demoPolling

def demoPending : List Pending := [⟨5, EPOLLOUT⟩, ⟨7, EPOLLHUP⟩]

theorem demo_distinct : Function.Injective fun c : Bool => if c then 7 else 5 := by
  unfold Function.Injective
  decide

theorem poll_reports_registered_demo :
    ∃ after reported,
      demoPoller.poll [] (.returned demoPending) = some (after, [] ++ reported) ∧
        reported.Nodup ∧
        reported.map (fun c => ⟨demoPoller.fd c, after.revents c⟩) =
          demoPending.take demoPoller.eventList.length ∧
        (∀ c ∈ reported, demoPoller.hasChannel c = true ∧
          (demoPoller.channel c).index = .kAdded ∧
            after.revents c &&& ~~~((demoPoller.channel c).events ||| EPOLLERR ||| EPOLLHUP) = 0) ∧
        (∀ c, c ∉ reported → after.revents c = demoPoller.revents c) ∧
        after.toEPollPoller = demoPoller.toEPollPoller := by
  have admitted : (pollingPoller Bool).Admits (.construct fun c => if c then 7 else 5)
      demoPolling := by decide
  exact poll_reports_registered (admitted.reachable ⟨_, demo_distinct, rfl⟩) (by decide) []

/-! ### The growth of the array -/

/-- Polls meet at most `k` registered channels. -/
def PollingPoller.FewRegistered (k : Nat) (self : PollingPoller Pointer) :
    PollingPoller.Action Pointer → Prop
  | .operate _ _ => True
  | .poll _ => ∃ registered : List Pointer, registered.length ≤ k ∧
      ∀ c, (self.channel c).index = .kAdded → c ∈ registered

/-- How many pending descriptors a poll leaves to the next one for want of room in `events_`. -/
def PollingPoller.leftOver (self : PollingPoller Pointer) :
    PollingPoller.Action Pointer → List Nat
  | .poll (.returned pending) =>
      if self.eventList.length < pending.length then
        [pending.length - self.eventList.length]
      else []
  | _ => []

/-- A step leaves the array alone, or it is a poll that fills the array and doubles it. -/
theorem PollingPoller.Sound.next_length {self : PollingPoller Pointer} (sound : self.Sound)
    {a : PollingPoller.Action Pointer} (guard : self.Enabled a) :
    (self.next a).eventList.length = self.eventList.length ∧
        (∀ pending, a = .poll (.returned pending) → pending.length < self.eventList.length) ∨
      ∃ pending, a = .poll (.returned pending) ∧ self.eventList.length ≤ pending.length ∧
        (self.next a).eventList.length = 2 * self.eventList.length := by
  cases a with
  | operate c operation => exact .inl ⟨rfl, fun pending running => by cases running⟩
  | poll result =>
      cases result with
      | failed errno => exact .inl ⟨rfl, fun pending running => by cases running⟩
      | returned pending =>
          have length := PollingPoller.polled_length sound guard.2
          rw [PollingPoller.next, PollingPoller.poll_returned sound guard.2]
          by_cases full : self.eventList.length ≤ pending.length
          · rw [if_pos full] at length
            exact .inr ⟨pending, rfl, full, length⟩
          · rw [if_neg full] at length
            refine .inl ⟨length, fun other running => ?_⟩
            cases running
            exact Nat.lt_of_not_le full

omit [DecidableEq Pointer] in
/-- Descriptors are left over by a poll for which the array is too short. -/
theorem PollingPoller.leftOver_cases (self : PollingPoller Pointer)
    (a : PollingPoller.Action Pointer) :
    self.leftOver a = [] ∨ ∃ pending, a = .poll (.returned pending) ∧
      self.eventList.length < pending.length ∧
        self.leftOver a = [pending.length - self.eventList.length] := by
  cases a with
  | operate c operation => exact .inl rfl
  | poll result =>
      cases result with
      | failed errno => exact .inl rfl
      | returned pending =>
          rw [PollingPoller.leftOver]
          split
          · rename_i less
            exact .inr ⟨pending, rfl, less, rfl⟩
          · exact .inl rfl

section Growth

variable {k : Nat} {self : PollingPoller Pointer}

theorem pending_few (reachable : (pollingPoller Pointer).Reachable self) {pending : List Pending}
    (guard : ((pollingPoller Pointer).restrict (PollingPoller.FewRegistered k)).enabled self
      (.poll (.returned pending))) : pending.length ≤ k := by
  obtain ⟨⟨_, pends⟩, registered, few, all⟩ := guard
  exact Nat.le_trans ((polling_sound reachable).pending_length pends all) few

theorem polling_doubles (k : Nat) : ((pollingPoller Pointer).restrict
    (PollingPoller.FewRegistered k)).Doubles PollingPoller.leftOver (·.eventList.length) k := by
  constructor
  · intro self a reachable guard
    rcases (polling_sound reachable.of_restrict).next_length guard.1 with
      ⟨same, _⟩ | ⟨_, _, _, doubled⟩
    · exact Nat.le_of_eq same.symm
    · apply Nat.le_trans _ (Nat.le_of_eq doubled.symm)
      exact Nat.le_mul_of_pos_left _ Nat.two_pos
  · intro self a
    rcases self.leftOver_cases a with none | ⟨_, _, _, short⟩
    · rw [none]
      exact Nat.zero_le 1
    · rw [short]
      exact Nat.le_refl 1
  · intro self a reachable guard short
    rcases self.leftOver_cases a with none | ⟨pending, rfl, less, _⟩
    · exact absurd none short
    · have few := pending_few reachable.of_restrict guard
      have enabled : self.Enabled (.poll (.returned pending)) := guard.1
      rcases (polling_sound reachable.of_restrict).next_length enabled with
        ⟨_, fits⟩ | ⟨_, _, _, doubled⟩
      · exact absurd less (Nat.lt_asymm (fits pending rfl))
      · exact ⟨Nat.lt_of_lt_of_le less few, Nat.le_of_eq doubled.symm⟩

theorem eventList_short (reachable : ((pollingPoller Pointer).restrict
      (PollingPoller.FewRegistered k)).Reachable self) :
    self.eventList.length ≤ max 16 (2 * k) := by
  apply reachable.invariant (I := (·.eventList.length ≤ max 16 (2 * k)))
  · intro self initial
    obtain ⟨fd, _, same⟩ := initial
    subst same
    exact Nat.le_max_left 16 _
  · intro self a before short guard
    rcases (polling_sound before.of_restrict).next_length guard.1 with
      ⟨same, _⟩ | ⟨pending, rfl, full, doubled⟩
    · exact Nat.le_trans (Nat.le_of_eq same) short
    · have few := pending_few before.of_restrict guard
      apply Nat.le_trans (Nat.le_of_eq doubled)
      apply Nat.le_trans _ (Nat.le_max_right 16 _)
      exact Nat.mul_le_mul_left 2 (Nat.le_trans full few)

end Growth

/-- While at most `k` channels are registered, polls in which `events_` is too short for all that is
pending come at most `log₂ (k / 8)` times in a run of any length, and the array never has more than
`2 * k` elements, or the 16 that it begins with. -/
theorem short_polls_few (k : Nat) {fd : Pointer → Fd} (distinct : Function.Injective fd)
    {schedule : List (PollingPoller.Action Pointer)}
    (admitted : ((pollingPoller Pointer).restrict (PollingPoller.FewRegistered k)).Admits
      (.construct fd) schedule) :
    ((pollingPoller Pointer).outputs PollingPoller.leftOver (.construct fd) schedule).length ≤
        Nat.log 2 (k / 8) ∧
      ((pollingPoller Pointer).exec (.construct fd) schedule).eventList.length ≤
        max 16 (2 * k) := by
  have begins : ((pollingPoller Pointer).restrict (PollingPoller.FewRegistered k)).Reachable
      (.construct fd) := .start ⟨fd, distinct, rfl⟩
  have start : (PollingPoller.construct fd).eventList.length = 2 * 8 := rfl
  have few := (polling_doubles k).few begins admitted start (Nat.succ_pos 7)
  have short := eventList_short (begins.exec admitted)
  rw [Machine.restrict_outputs] at few
  rw [Machine.restrict_exec] at short
  exact ⟨few, short⟩

end Runs

/-- Seventeen channels are registered, and all of them have something pending. -/
def demoCrowd : List (PollingPoller.Action (Fin 17)) :=
  (List.finRange 17).map (.operate · (.change .enableReading)) ++
    [.poll (.returned ((List.finRange 17).map fun c => ⟨c, EPOLLIN⟩))]

theorem short_polls_few_demo :
    ((pollingPoller (Fin 17)).outputs PollingPoller.leftOver (.construct fun c => c)
        demoCrowd).length ≤ Nat.log 2 (17 / 8) ∧
      ((pollingPoller (Fin 17)).exec (.construct fun c => c) demoCrowd).eventList.length ≤
        max 16 (2 * 17) := by
  apply short_polls_few 17 (fun _ _ => Fin.ext)
  apply Machine.admits_restrict_iff.mpr
  constructor
  · decide +kernel
  · intro front a rest split
    cases a with
    | operate c operation => trivial
    | poll result =>
        exact ⟨List.finRange 17, by rw [List.length_finRange], fun c _ => List.mem_finRange c⟩

/-- The bound is reached: the first poll leaves one of them to the next one. -/
example : (pollingPoller (Fin 17)).outputs PollingPoller.leftOver (.construct fun c => c)
    demoCrowd = [1] := by decide +kernel

end EduMuduo
