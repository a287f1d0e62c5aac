import MiniMuduo.PollerCoherence
import MiniMuduo.Library.Triple

/-! A channel that has lost its fd. When an fd is closed the kernel forgets it and says
nothing; the fd comes back with a new channel, and the old one still thinks that it is
registered. `removeChannel` and the first branch of `updateChannel` ask `channels_`
whose fd it is. The second branch does not: it changes or deletes the owner's entry. -/
namespace MiniMuduo.StaleChannel
open EPollPoller
open PollerCoherence (freshPoller)

/-- A poller, and the fds that are open. -/
structure OpenFds where
  poller : EPollPoller
  isOpen : Fd → Bool

def ebadf : Errno := 9

/-- `epoll_ctl(2)`, which knows nothing of a closed fd. -/
def ctl (isOpen : Fd → Bool) : EpollCtl := fun set op fd event =>
  if isOpen fd then epollCtl set op fd event else .error ebadf

/-- What happens to a poller and its channels. -/
inductive PollerAction where
  /-- A `Channel` is constructed at this address. -/
  | create (channel : ChannelPtr) (fd : Fd)
  /-- A change of a channel's interest. -/
  | interest (channel : ChannelPtr) (events : Mask)
  | update (channel : ChannelPtr)
  | remove (channel : ChannelPtr)
  /-- A socket is opened, and gets this fd. -/
  | opens (fd : Fd)
  /-- `close(fd)`: the kernel drops its epoll entry. -/
  | close (fd : Fd)
  deriving DecidableEq, Repr

def perform (s : OpenFds) : PollerAction → Except Exit OpenFds
  | .create c fd => .ok { s with poller := s.poller.modify c fun _ => { fd := fd } }
  | .interest c events => .ok { s with
      poller := s.poller.modify c fun channel => { channel with events := events } }
  | .update c => do
    let poller ← s.poller.updateChannel c (ctl s.isOpen)
    return { s with poller := poller }
  | .remove c => do
    let poller ← s.poller.removeChannel c (ctl s.isOpen)
    return { s with poller := poller }
  | .opens fd => .ok { s with isOpen := Function.update s.isOpen fd true }
  | .close fd => .ok {
      poller := { s.poller with epoll := Function.update s.poller.epoll fd none }
      isOpen := Function.update s.isOpen fd false }

/-- A poller from its constructor on, under calls for channels of any fds, while fds are
closed and reused. -/
def reuseSystem : StepSystem OpenFds PollerAction where
  Start s := (∀ c, (s.poller.heap c).index = kNew) ∧ (∀ fd, s.poller.channels fd = none) ∧
    ∀ fd, s.poller.epoll fd = none
  Step s action next := perform s action = .ok next

/-- `updateChannel` or `removeChannel`. -/
inductive ChannelCall where
  | update
  | remove
  deriving DecidableEq, Repr

def ChannelCall.run (s : OpenFds) (c : ChannelPtr) : ChannelCall → Except Exit EPollPoller
  | .update => s.poller.updateChannel c (ctl s.isOpen)
  | .remove => s.poller.removeChannel c (ctl s.isOpen)

/-- `c` is not new, and its fd is in `channels_` as that of another channel `d`. -/
structure Stale (p : EPollPoller) (c d : ChannelPtr) : Prop where
  known : (p.heap c).index ≠ kNew
  owned : p.channels (p.heap c).fd = some d
  other : c ≠ d

/-- The call returns, and the owner's three records are as they were. -/
def Undisturbed (p : EPollPoller) (c d : ChannelPtr) (result : Except Exit EPollPoller) : Prop :=
  ∃ q, result = .ok q ∧ q.channels (p.heap c).fd = p.channels (p.heap c).fd ∧
    (q.heap d).index = (p.heap d).index ∧ q.epoll (p.heap c).fd = p.epoll (p.heap c).fd

/-- Calls of a stale channel that do no harm: a removal; any call of a parked channel; an
update without interest when the kernel has no entry to delete, or with interest when
the entry already is what would be written. -/
def Harmless (p : EPollPoller) (c : ChannelPtr) : ChannelCall → Prop
  | .remove => True
  | .update => (p.heap c).index = kDeleted ∨ (p.heap c).index = kAdded ∧
      if (p.heap c).isNoneEvent then p.epoll (p.heap c).fd = none
      else p.epoll (p.heap c).fd = some ⟨(p.heap c).events, c⟩

/-- A stale channel cannot disturb the owner of its fd. -/
def OwnersUndisturbed : Prop :=
  ∀ s c d call, reuseSystem.Reachable s → Stale s.poller c d →
    Undisturbed s.poller c d (ChannelCall.run s c call)

variable {s : OpenFds} {p q : EPollPoller} {c d : ChannelPtr} {op : EpollOp} {index : Int}
variable {isOpen : Fd → Bool}

/-- `index_` is one of the three constants, and a closed fd has no entry. -/
structure Kept (s : OpenFds) : Prop where
  indexed : ∀ c, (s.poller.heap c).index = kNew ∨ (s.poller.heap c).index = kAdded ∨
    (s.poller.heap c).index = kDeleted
  closed : ∀ fd, s.isOpen fd = false → s.poller.epoll fd = none

theorem modify_kept {change : Channel → Channel} (kept : Kept ⟨p, isOpen⟩)
    (valid : (change (p.heap c)).index = kNew ∨ (change (p.heap c)).index = kAdded ∨
      (change (p.heap c)).index = kDeleted) : Kept ⟨p.modify c change, isOpen⟩ where
  indexed d := by
    by_cases here : d = c
    · simpa [EPollPoller.modify, here] using valid
    · simpa [EPollPoller.modify, here] using kept.indexed d
  closed := kept.closed

/-- A call that succeeds is about an open fd, and changes its entry only. -/
theorem ctl_open {set after : EpollSet} {fd other : Fd} {event : EpollEvent}
    (ran : ctl isOpen set op fd event = .ok after) (closed : isOpen other = false) :
    after other = set other := by
  simp only [ctl] at ran
  split at ran
  · rename_i opened
    have apart : other ≠ fd := by
      rintro rfl
      cases closed.symm.trans opened
    unfold epollCtl at ran
    split at ran <;> cases ran
    all_goals exact Function.update_of_ne apart _ _
  · cases ran

/-- `update` writes to the kernel and the log only. -/
theorem update_kept (kept : Kept ⟨p, isOpen⟩) (ran : p.update op c (ctl isOpen) = .ok q) :
    Kept ⟨q, isOpen⟩ := by
  simp only [EPollPoller.update] at ran
  split at ran
  · rename_i epoll done
    obtain rfl := Except.ok.inj ran
    refine ⟨kept.indexed, fun fd closed => ?_⟩
    exact (ctl_open done closed).trans (kept.closed fd closed)
  · split at ran
    · obtain rfl := Except.ok.inj ran
      exact ⟨kept.indexed, kept.closed⟩
    · cases ran

/-- `update`, then `set_index`. -/
theorem update_setIndex_kept (kept : Kept ⟨p, isOpen⟩)
    (valid : index = kNew ∨ index = kAdded ∨ index = kDeleted)
    (ran : (do let p ← p.update op c (ctl isOpen); return p.setIndex c index) = .ok q) :
    Kept ⟨q, isOpen⟩ := by
  obtain ⟨after, updated, ran⟩ := Except.bind_eq_ok ran
  obtain rfl := Except.ok.inj ran
  exact modify_kept (update_kept kept updated) valid

theorem updateChannel_kept (kept : Kept ⟨p, isOpen⟩)
    (ran : p.updateChannel c (ctl isOpen) = .ok q) : Kept ⟨q, isOpen⟩ := by
  have added (p : EPollPoller) (kept : Kept ⟨p, isOpen⟩) : Kept ⟨p.setIndex c kAdded, isOpen⟩ :=
    modify_kept kept (Or.inr (Or.inl rfl))
  simp only [updateChannel] at ran
  split at ran
  · split at ran
    · refine update_kept (added _ ?_) ran
      exact ⟨kept.indexed, kept.closed⟩
    · split at ran
      · exact update_kept (added p kept) ran
      · obtain rfl := Except.ok.inj ran
        exact kept
  · split at ran
    · exact update_setIndex_kept kept (Or.inr (Or.inr rfl)) ran
    · exact update_kept kept ran

theorem removeChannel_kept (kept : Kept ⟨p, isOpen⟩)
    (ran : p.removeChannel c (ctl isOpen) = .ok q) : Kept ⟨q, isOpen⟩ := by
  simp only [removeChannel] at ran
  split at ran
  · obtain rfl := Except.ok.inj ran
    exact kept
  · split at ran
    · obtain rfl := Except.ok.inj ran
      exact kept
    · split at ran
      · split at ran
        · split at ran
          · refine update_setIndex_kept ?_ (Or.inl rfl) ran
            exact ⟨kept.indexed, kept.closed⟩
          · obtain rfl := Except.ok.inj ran
            refine modify_kept ?_ (Or.inl rfl)
            exact ⟨kept.indexed, kept.closed⟩
        · obtain rfl := Except.ok.inj ran
          exact kept
      · obtain rfl := Except.ok.inj ran
        exact kept

/-- Every index that a run gives a channel is one of the three, and only open fds have
entries. -/
theorem reachable_kept (reached : reuseSystem.Reachable s) : Kept s := by
  refine reached.invariant ?_ ?_
  · exact fun _ start => ⟨fun c => Or.inl (start.1 c), fun fd _ => start.2.2 fd⟩
  intro s action next kept ran
  cases action with
  | create c fd =>
    obtain rfl := Except.ok.inj ran
    exact modify_kept kept (Or.inl rfl)
  | interest c events =>
    obtain rfl := Except.ok.inj ran
    exact modify_kept kept (kept.indexed c)
  | update c =>
    obtain ⟨p, updated, ran⟩ := Except.bind_eq_ok ran
    obtain rfl := Except.ok.inj ran
    exact updateChannel_kept kept updated
  | remove c =>
    obtain ⟨p, removed, ran⟩ := Except.bind_eq_ok ran
    obtain rfl := Except.ok.inj ran
    exact removeChannel_kept kept removed
  | opens fd =>
    obtain rfl := Except.ok.inj ran
    refine ⟨kept.indexed, fun other closed => ?_⟩
    by_cases here : other = fd
    · simp [here] at closed
    · exact kept.closed other (by simpa [here] using closed)
  | close fd =>
    obtain rfl := Except.ok.inj ran
    refine ⟨kept.indexed, fun other closed => ?_⟩
    by_cases here : other = fd
    · simp [here]
    · simpa [here] using kept.closed other (by simpa [here] using closed)

/-- `removeChannel` asks whose the fd is. -/
theorem stale_remove (stale : Stale p c d) (ctl : EpollCtl) : p.removeChannel c ctl = .ok p := by
  have other : d ≠ c := fun same => stale.other same.symm
  simp only [removeChannel, stale.owned, if_pos other]
  rfl

/-- So does `updateChannel`, of a parked channel. -/
theorem stale_parked (stale : Stale p c d) (parked : (p.heap c).index = kDeleted)
    (ctl : EpollCtl) : p.updateChannel c ctl = .ok p := by
  have other : ¬ some d = some c := fun same => stale.other (Option.some.inj same).symm
  simp only [updateChannel, parked, or_true, if_true, stale.owned, if_neg other]
  rfl

theorem undisturbed_refl (p : EPollPoller) (c d : ChannelPtr) : Undisturbed p c d (.ok p) :=
  ⟨p, rfl, rfl, rfl, rfl⟩

/-- Without interest it deletes whatever entry there is. -/
theorem stale_deletes (kept : Kept ⟨p, isOpen⟩) (stale : Stale p c d)
    (added : (p.heap c).index = kAdded) (idle : (p.heap c).isNoneEvent = true) :
    Undisturbed p c d (p.updateChannel c (ctl isOpen)) ↔ p.epoll (p.heap c).fd = none := by
  have deletes : p.updateChannel c (ctl isOpen) =
      (p.update .del c (ctl isOpen)).bind fun p => .ok (p.setIndex c kDeleted) := by
    simp only [updateChannel, added, idle, if_true]
    rfl
  have other : d ≠ c := fun same => stale.other same.symm
  rw [deletes]
  cases opened : isOpen (p.heap c).fd with
  | false =>
    have entry : p.epoll (p.heap c).fd = none := kept.closed _ opened
    simp [EPollPoller.update, ctl, opened, entry, Except.bind, Undisturbed, setIndex,
      EPollPoller.modify, other]
  | true =>
    cases entry : p.epoll (p.heap c).fd with
    | none =>
      simp [EPollPoller.update, ctl, epollCtl, opened, entry, Except.bind, Undisturbed, setIndex,
        EPollPoller.modify, other]
    | some event =>
      simp [EPollPoller.update, ctl, epollCtl, opened, entry, Except.bind, Undisturbed, setIndex,
        EPollPoller.modify]

/-- With interest it overwrites the entry, and exits if there is none. -/
theorem stale_modifies (kept : Kept ⟨p, isOpen⟩) (added : (p.heap c).index = kAdded)
    (interested : (p.heap c).isNoneEvent = false) :
    Undisturbed p c d (p.updateChannel c (ctl isOpen)) ↔
      p.epoll (p.heap c).fd = some ⟨(p.heap c).events, c⟩ := by
  have modifies : p.updateChannel c (ctl isOpen) = p.update .mod c (ctl isOpen) := by
    simp only [updateChannel, added, interested]
    rfl
  rw [modifies]
  cases opened : isOpen (p.heap c).fd with
  | false =>
    have entry : p.epoll (p.heap c).fd = none := kept.closed _ opened
    simp [EPollPoller.update, ctl, opened, entry, Undisturbed]
  | true =>
    cases entry : p.epoll (p.heap c).fd with
    | none => simp [EPollPoller.update, ctl, epollCtl, opened, entry, Undisturbed]
    | some event =>
      simp [EPollPoller.update, ctl, epollCtl, opened, entry, Undisturbed, eq_comm]

/-- In every state of every run, a call of a stale channel leaves the owner of its fd
alone exactly if it is a harmless one. -/
theorem owner_undisturbed_iff (reached : reuseSystem.Reachable s) (stale : Stale s.poller c d)
    (call : ChannelCall) :
    Undisturbed s.poller c d (call.run s c) ↔ Harmless s.poller c call := by
  have kept := reachable_kept reached
  cases call with
  | remove =>
    simp only [ChannelCall.run, stale_remove stale, undisturbed_refl, Harmless]
  | update =>
    simp only [ChannelCall.run, Harmless]
    rcases kept.indexed c with unknown | added | parked
    · exact absurd unknown stale.known
    · have registered : ¬ kAdded = kDeleted := by decide
      simp only [added, registered, true_and, false_or]
      cases idle : (s.poller.heap c).isNoneEvent with
      | true =>
        rw [if_pos rfl]
        exact stale_deletes kept stale added idle
      | false =>
        rw [if_neg Bool.false_ne_true]
        exact stale_modifies kept added idle
    · simp only [stale_parked stale parked, undisturbed_refl, parked, true_or]

/-- Channel 1 registers fd 7, which is closed and comes back with channel 2. -/
def reuse : List PollerAction :=
  [.opens 7, .create 1 7, .interest 1 epollIn, .update 1, .close 7,
    .opens 7, .create 2 7, .interest 2 epollIn, .update 2]

/-- Nothing is open. -/
def noneOpen : OpenFds := ⟨freshPoller, fun _ => false⟩

def reused : OpenFds :=
  (StepSystem.play (fun s action => (perform s action).toOption) noneOpen reuse).getD noneOpen

theorem reused_reachable : reuseSystem.Reachable reused := by
  have played : StepSystem.play (fun s action => (perform s action).toOption) noneOpen reuse =
      some reused := rfl
  exact ⟨noneOpen, reuse, ⟨fun _ => rfl, fun _ => rfl, fun _ => rfl⟩,
    .of_play_ok (fun _ _ _ ran => ran) played⟩

theorem reused_stale : Stale reused.poller 1 2 := ⟨by decide, rfl, by decide⟩

/-- Removing channel 1 does nothing to channel 2. -/
theorem stale_removal_ignored :
    Undisturbed reused.poller 1 2 (reused.poller.removeChannel 1 (ctl reused.isOpen)) :=
  (owner_undisturbed_iff reused_reachable reused_stale .remove).mpr trivial

/-- Updating channel 1 makes the kernel's entry of fd 7 point to it. -/
theorem stale_update_steals : ¬ OwnersUndisturbed := by
  intro undisturbed
  obtain ⟨q, ran, _, _, kept⟩ := undisturbed _ _ _ .update reused_reachable reused_stale
  obtain rfl := Except.ok.inj ran
  have stolen : some (EpollEvent.mk epollIn 1) = some ⟨epollIn, 2⟩ := kept
  exact absurd stolen (by decide)

end MiniMuduo.StaleChannel
