import MiniMuduo.PollerCoherence
import Mathlib.Data.List.Nodup

/-! From the events of one `epoll_wait` to the list of active channels. The debug
build stops at a pointer that is not the map's for its fd; the release build trusts
every pointer. They agree because the kernel holds only pointers that the map holds. -/
namespace MiniMuduo.ActiveChannels
open EPollPoller PollerCoherence

/-- A batch that `epoll_wait` can report: each fd of the interest set at most once,
with whatever events, and the pointer registered for the fd. -/
def Reports (p : EPollPoller) (events : List EpollEvent) : Prop :=
  ∃ fds : List Fd, fds.Nodup ∧
    List.Forall₂ (fun fd event => ∃ mask, p.epoll fd = some ⟨mask, event.ptr⟩) fds events

/-- Whatever calls were made for the given channels: their fds are distinct, the three
records of each agree, and the kernel holds no pointer but theirs. -/
structure Placed (channels : Set ChannelPtr) (p : EPollPoller) : Prop where
  distinct : channels.InjOn (fun c => (p.heap c).fd)
  stands : ∀ c ∈ channels, ∃ now, Stands p c now
  owned : ∀ fd event, p.epoll fd = some event →
    event.ptr ∈ channels ∧ (p.heap event.ptr).fd = fd

variable {tracked : Set ChannelPtr} {p q : EPollPoller} {c : ChannelPtr} {now : Registration}
variable {call : PollerCall} {events : List EpollEvent}
variable {fds : List Fd} {activeChannels : List ChannelPtr} {ndebug : Bool}

/-- A call for one channel, however that then stands, keeps them all placed. -/
theorem placed_of_touches (placed : Placed tracked p) (member : c ∈ tracked)
    (touches : Touches p q c) (stands : Stands q c now) : Placed tracked q where
  distinct := by
    simpa only [Set.InjOn, touches.fd] using placed.distinct
  stands := by
    intro d known
    by_cases same : d = c
    · exact ⟨now, same ▸ stands⟩
    · obtain ⟨before, stood⟩ := placed.stands d known
      exact ⟨before, stands_of_touches touches same
        (fun equal => same (placed.distinct known member equal)) stood⟩
  owned := by
    intro fd event entered
    rw [touches.fd]
    by_cases same : fd = (p.heap c).fd
    · rw [same, ← touches.fd c] at entered
      cases now with
      | absent => simp [stands.2.2] at entered
      | parked => simp [stands.2.2] at entered
      | registered mask =>
        obtain rfl := Option.some.inj (stands.2.2.symm.trans entered)
        exact ⟨member, same.symm⟩
    · rw [touches.epoll fd same] at entered
      exact placed.owned fd event entered

theorem placed_step (placed : Placed tracked p) (step : (pollerSystem tracked).Step p call q) :
    Placed tracked q := by
  obtain ⟨member, ran⟩ := step
  obtain ⟨now, stands⟩ := placed.stands _ member
  cases call with
  | update c events =>
    obtain ⟨_, done, _, after, touches⟩ := perform_update_spec events stands
    obtain rfl := Except.ok.inj (done.symm.trans ran)
    exact placed_of_touches placed member touches after
  | remove c =>
    obtain ⟨_, done, _, after, touches⟩ := removeChannel_spec stands
    obtain rfl := Except.ok.inj (done.symm.trans ran)
    exact placed_of_touches placed member touches after

theorem start_placed (start : (pollerSystem tracked).Start p) : Placed tracked p where
  distinct := start.1
  stands := fun c member => ⟨.absent, start.2.1 c member, start.2.2.1 _, start.2.2.2 _⟩
  owned := fun fd event entered => by simp [start.2.2.2 fd] at entered

theorem reachable_placed (reached : (pollerSystem tracked).Reachable p) : Placed tracked p :=
  reached.invariant (fun _ start => start_placed start) fun _ _ _ => placed_step

/-- A pointer in the kernel is the map's for its fd. -/
theorem registered_known (placed : Placed tracked p) {fd : Fd} {mask : Mask}
    (entered : p.epoll fd = some ⟨mask, c⟩) : p.hasChannel c = true := by
  obtain ⟨member, same⟩ := placed.owned fd _ entered
  obtain ⟨now, stands⟩ := placed.stands c member
  rw [← same] at entered
  cases now with
  | absent => simp [stands.2.2] at entered
  | parked => simp [stands.2.2] at entered
  | registered => simp [hasChannel, stands.2.1]

theorem reported_registered (reports : Reports p events) :
    ∀ event ∈ events, ∃ fd mask, p.epoll fd = some ⟨mask, event.ptr⟩ := by
  obtain ⟨fds, _, entries⟩ := reports
  clear * - entries
  induction entries with
  | nil => nofun
  | cons entry _ ih =>
    rintro event (_ | ⟨_, later⟩)
    · exact ⟨_, entry⟩
    · exact ih event later

theorem reported_known (placed : Placed tracked p) (reports : Reports p events) :
    ∀ event ∈ events, p.hasChannel event.ptr = true := by
  intro event member
  obtain ⟨fd, mask, entered⟩ := reported_registered reports event member
  exact registered_known placed entered

/-- Distinct fds have distinct channels. -/
theorem reported_distinct (placed : Placed tracked p) (reports : Reports p events) :
    (events.map EpollEvent.ptr).Nodup := by
  obtain ⟨fds, distinct, entries⟩ := reports
  have same : (events.map EpollEvent.ptr).map (fun c => (p.heap c).fd) = fds := by
    clear distinct
    induction entries with
    | nil => rfl
    | cons entry _ ih =>
      obtain ⟨mask, entered⟩ := entry
      rw [List.map_cons, List.map_cons, ih, (placed.owned _ _ entered).2]
  exact List.Nodup.of_map (fun c => (p.heap c).fd) (same ▸ distinct)

theorem setRevents_hasChannel (p : EPollPoller) (c d : ChannelPtr) (revents : Mask) :
    (p.setRevents c revents).hasChannel d = p.hasChannel d := by
  have same : ((p.setRevents c revents).heap d).fd = (p.heap d).fd := by
    by_cases here : d = c
    · simp [setRevents, EPollPoller.modify, here]
    · simp [setRevents, EPollPoller.modify, here]
  simp only [hasChannel, same]
  rfl

/-- While every pointer is known, the check changes nothing. -/
theorem fill_checked (known : ∀ event ∈ events, p.hasChannel event.ptr = true) :
    p.fillActiveChannels ndebug events activeChannels =
      p.fillActiveChannels true events activeChannels := by
  induction events generalizing p activeChannels with
  | nil => rfl
  | cons event events ih =>
    rw [fillActiveChannels, fillActiveChannels, known event List.mem_cons_self, Bool.or_true,
      Bool.true_or]
    refine ih fun later member => ?_
    rw [setRevents_hasChannel]
    exact known later (List.mem_cons_of_mem _ member)

/-- The unchecked list has one entry for each event. -/
theorem fill_unchecked_list (p : EPollPoller) (events : List EpollEvent)
    (activeChannels : List ChannelPtr) :
    (p.fillActiveChannels true events activeChannels).2 =
      activeChannels ++ events.map EpollEvent.ptr := by
  induction events generalizing p activeChannels with
  | nil => simp [fillActiveChannels]
  | cons event events ih =>
    rw [fillActiveChannels, Bool.true_or, if_pos rfl, ih, List.map_cons, List.append_assoc]
    rfl

/-- A channel without an event keeps its `revents_`. -/
theorem fill_unchecked_other (p : EPollPoller) (events : List EpollEvent)
    (activeChannels : List ChannelPtr) (other : c ∉ events.map EpollEvent.ptr) :
    (p.fillActiveChannels true events activeChannels).1.heap c = p.heap c := by
  induction events generalizing p activeChannels with
  | nil => rfl
  | cons event events ih =>
    rw [List.map_cons, List.mem_cons, not_or] at other
    rw [fillActiveChannels, Bool.true_or, if_pos rfl, ih _ _ other.2]
    simp [setRevents, EPollPoller.modify, other.1]

/-- A channel with an event gets the mask of its last event as `revents_`. -/
theorem fill_unchecked_last (p : EPollPoller) (activeChannels : List ChannelPtr)
    (front : List EpollEvent) (event : EpollEvent) {back : List EpollEvent}
    (last : event.ptr ∉ back.map EpollEvent.ptr) :
    ((p.fillActiveChannels true (front ++ event :: back) activeChannels).1.heap
      event.ptr).revents = event.events := by
  induction front generalizing p activeChannels with
  | nil =>
    rw [List.nil_append, fillActiveChannels, Bool.true_or, if_pos rfl,
      fill_unchecked_other _ _ _ last]
    simp [setRevents, EPollPoller.modify]
  | cons first front ih =>
    rw [List.cons_append, fillActiveChannels, Bool.true_or, if_pos rfl]
    exact ih _ _

/-- If no channel has two events, each gets its own event's mask. -/
theorem fill_unchecked_revents (p : EPollPoller) (activeChannels : List ChannelPtr)
    (distinct : (events.map EpollEvent.ptr).Nodup) {event : EpollEvent} (member : event ∈ events) :
    ((p.fillActiveChannels true events activeChannels).1.heap event.ptr).revents =
      event.events := by
  obtain ⟨front, back, rfl⟩ := List.append_of_mem member
  rw [List.map_append, List.map_cons] at distinct
  have fresh := (List.nodup_cons.mp (List.nodup_append.mp distinct).2.1).1
  exact fill_unchecked_last p activeChannels front event fresh

theorem setRevents_placed (placed : Placed tracked p) (d : ChannelPtr) (revents : Mask) :
    Placed tracked (p.setRevents d revents) := by
  have heap (c : ChannelPtr) : ∃ seen, (p.setRevents d revents).heap c =
      { p.heap c with revents := seen } := by
    by_cases here : c = d
    · exact ⟨revents, by simp [setRevents, EPollPoller.modify, here]⟩
    · exact ⟨(p.heap c).revents, by simp [setRevents, EPollPoller.modify, here]⟩
  have fd (c : ChannelPtr) : ((p.setRevents d revents).heap c).fd = (p.heap c).fd := by
    obtain ⟨_, same⟩ := heap c
    rw [same]
  refine ⟨by simpa only [Set.InjOn, fd] using placed.distinct, fun c member => ?_, ?_⟩
  · obtain ⟨now, stands⟩ := placed.stands c member
    obtain ⟨_, same⟩ := heap c
    refine ⟨now, ?_⟩
    cases now with
    | absent | registered | parked =>
      simp only [Stands, same]
      exact stands
  · intro fd' event entered
    rw [fd]
    exact placed.owned fd' event entered

/-- What no assignment to a `revents_` changes, filling the list does not change. -/
theorem fill_invariant {Holds : EPollPoller → Prop}
    (preserved : ∀ p c revents, Holds p → Holds (p.setRevents c revents)) (holds : Holds p) :
    Holds (p.fillActiveChannels ndebug events activeChannels).1 := by
  induction events generalizing p activeChannels with
  | nil => exact holds
  | cons event events ih =>
    rw [fillActiveChannels]
    split
    · exact ih (preserved _ _ _ holds)
    · exact holds

theorem fill_hasChannel (p : EPollPoller) (c : ChannelPtr) :
    (p.fillActiveChannels ndebug events activeChannels).1.hasChannel c = p.hasChannel c :=
  fill_invariant (fun q d revents same => (setRevents_hasChannel q d c revents).trans same) rfl

/-- Every event of the batch becomes an active channel. -/
theorem fill_list (placed : Placed tracked p) (reports : Reports p events) :
    (p.fillActiveChannels ndebug events activeChannels).2 =
      activeChannels ++ events.map EpollEvent.ptr := by
  rw [fill_checked (reported_known placed reports), fill_unchecked_list]

/-- With and without the check, a batch that the kernel can report becomes one list:
one entry for each event, in order, each channel told the event's mask. -/
theorem builds_deliver_the_same (reached : (pollerSystem tracked).Reachable p)
    (reports : Reports p events) :
    p.fillActiveChannels false events activeChannels =
        p.fillActiveChannels true events activeChannels ∧
      (p.fillActiveChannels ndebug events activeChannels).2 =
        activeChannels ++ events.map EpollEvent.ptr ∧
      ∀ event ∈ events,
        ((p.fillActiveChannels ndebug events activeChannels).1.heap event.ptr).revents =
          event.events := by
  have placed := reachable_placed reached
  have known := reported_known placed reports
  refine ⟨fill_checked known, fill_list placed reports, fun event member => ?_⟩
  rw [fill_checked known,
    fill_unchecked_revents p activeChannels (reported_distinct placed reports) member]

/-- Two channels register, and both are reported. -/
theorem two_events_delivered : ∃ p q, perform freshPoller (.update 3 epollIn) = .ok p ∧
    perform p (.update 5 epollOut) = .ok q ∧
    (q.fillActiveChannels false [⟨epollHup, 5⟩, ⟨epollIn, 3⟩] []).2 = [5, 3] := by
  have first : ∃ p, perform freshPoller (.update 3 epollIn) = .ok p := ⟨_, rfl⟩
  obtain ⟨p, registered⟩ := first
  have second : ∃ q, perform p (.update 5 epollOut) = .ok q ∧ q.epoll 5 = some ⟨epollOut, 5⟩ ∧
      q.epoll 3 = some ⟨epollIn, 3⟩ := by
    obtain rfl := Except.ok.inj registered
    exact ⟨_, rfl, rfl, rfl⟩
  obtain ⟨q, added, five, three⟩ := second
  have reached : (pollerSystem Set.univ).Reachable q :=
    .step (.step (.start freshPoller_start) ⟨trivial, registered⟩) ⟨trivial, added⟩
  have reports : Reports q [⟨epollHup, 5⟩, ⟨epollIn, 3⟩] :=
    ⟨[5, 3], by decide, .cons ⟨_, five⟩ (.cons ⟨_, three⟩ .nil)⟩
  exact ⟨p, q, registered, added, (builds_deliver_the_same reached reports).2.1⟩

end MiniMuduo.ActiveChannels
