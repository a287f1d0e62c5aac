import MiniMuduo.EPollPoller
import MiniMuduo.Library.StepSystem
import Mathlib.Data.Set.Function

/-! Three records of one fact stay in step: a channel's `index_`, the map
`channels_` and the kernel's interest set. Each channel goes through a small
machine of its own, and the calls of the poller are the moves of these machines. -/
namespace MiniMuduo.PollerCoherence
open EPollPoller

/-- Where one channel stands with the poller: unknown to it, registered in the
kernel with a mask, or known and not in the kernel. -/
inductive Registration where
  | absent
  | registered (mask : Mask)
  | parked
  deriving DecidableEq, Repr

/-- The move of `updateChannel`, for a channel interested in `events`. -/
def Registration.update (events : Mask) : Registration → Registration
  | .absent | .parked => .registered events
  | .registered _ => if events = Channel.kNoneEvent then .parked else .registered events

/-- The move of `removeChannel`, which refuses while there is interest. -/
def Registration.remove (events : Mask) (now : Registration) : Registration :=
  if events = Channel.kNoneEvent then .absent else now

/-- The three records agree that the channel stands so. -/
def Stands (p : EPollPoller) (c : ChannelPtr) : Registration → Prop
  | .absent => (p.heap c).index = kNew ∧ p.channels (p.heap c).fd = none ∧
      p.epoll (p.heap c).fd = none
  | .registered mask => (p.heap c).index = kAdded ∧ p.channels (p.heap c).fd = some c ∧
      p.epoll (p.heap c).fd = some ⟨mask, c⟩
  | .parked => (p.heap c).index = kDeleted ∧ p.channels (p.heap c).fd = some c ∧
      p.epoll (p.heap c).fd = none

/-- All that a call for channel `c` can change: that channel's index and interest,
and the two entries for its fd. -/
structure Touches (p q : EPollPoller) (c : ChannelPtr) : Prop where
  channel : ∃ index events, q.heap c = { p.heap c with index := index, events := events }
  heap : ∀ other, other ≠ c → q.heap other = p.heap other
  channels : ∀ fd, fd ≠ (p.heap c).fd → q.channels fd = p.channels fd
  epoll : ∀ fd, fd ≠ (p.heap c).fd → q.epoll fd = p.epoll fd
  errors : q.errors = p.errors

variable {p q r : EPollPoller} {c d : ChannelPtr} {now : Registration}

/-- The poller after a call that leaves channel `c` and its fd with these records. -/
def record (p : EPollPoller) (c : ChannelPtr) (index : Int) (channel : Option ChannelPtr)
    (event : Option EpollEvent) : EPollPoller where
  heap := Function.update p.heap c { p.heap c with index := index }
  channels := Function.update p.channels (p.heap c).fd channel
  epoll := Function.update p.epoll (p.heap c).fd event
  errors := p.errors

theorem record_touches (p : EPollPoller) (c : ChannelPtr) (index : Int)
    (channel : Option ChannelPtr) (event : Option EpollEvent) :
    Touches p (record p c index channel event) c where
  channel := ⟨index, (p.heap c).events, by simp [record]⟩
  heap := fun other different => by simp [record, different]
  channels := fun fd different => by simp [record, different]
  epoll := fun fd different => by simp [record, different]
  errors := rfl

theorem modify_touches (p : EPollPoller) (c : ChannelPtr) (events : Mask) :
    Touches p (p.modify c (fun channel => { channel with events := events })) c where
  channel := ⟨(p.heap c).index, events, by simp [EPollPoller.modify]⟩
  heap := fun other different => by simp [EPollPoller.modify, different]
  channels := fun _ _ => rfl
  epoll := fun _ _ => rfl
  errors := rfl

theorem Touches.refl (p : EPollPoller) (c : ChannelPtr) : Touches p p c :=
  ⟨⟨_, _, rfl⟩, fun _ _ => rfl, fun _ _ => rfl, fun _ _ => rfl, rfl⟩

theorem Touches.fd (touches : Touches p q c) (d : ChannelPtr) :
    (q.heap d).fd = (p.heap d).fd := by
  by_cases same : d = c
  · obtain ⟨index, events, channel⟩ := touches.channel
    rw [same, channel]
  · rw [touches.heap d same]

theorem Touches.trans (first : Touches p q c) (second : Touches q r c) : Touches p r c where
  channel := by
    obtain ⟨_, _, before⟩ := first.channel
    obtain ⟨index, events, after⟩ := second.channel
    exact ⟨index, events, by rw [after, before]⟩
  heap := fun other different => (second.heap other different).trans (first.heap other different)
  channels := fun fd different =>
    (second.channels fd (by rwa [first.fd c])).trans (first.channels fd different)
  epoll := fun fd different =>
    (second.epoll fd (by rwa [first.fd c])).trans (first.epoll fd different)
  errors := second.errors.trans first.errors

private theorem channel_kept (found : p.channels (p.heap c).fd = some c) :
    Function.update p.channels (p.heap c).fd (some c) = p.channels := by
  rw [← found, Function.update_eq_self]

/-- Records that agree, for each way a channel can stand. -/
theorem record_registered (p : EPollPoller) (c : ChannelPtr) (events : Mask) :
    Stands (record p c kAdded (some c) (some ⟨events, c⟩)) c (.registered events) := by
  simp [Stands, record]

theorem record_parked (p : EPollPoller) (c : ChannelPtr) :
    Stands (record p c kDeleted (some c) none) c .parked := by
  simp [Stands, record]

theorem record_absent (p : EPollPoller) (c : ChannelPtr) :
    Stands (record p c kNew none none) c .absent := by
  simp [Stands, record]

/-- The call succeeds and leaves the channel standing so, its interest as it was
and all else untouched. -/
def Leaves (p : EPollPoller) (c : ChannelPtr) (result : Except Exit EPollPoller)
    (now : Registration) : Prop :=
  ∃ q, result = .ok q ∧ (q.heap c).events = (p.heap c).events ∧ Stands q c now ∧ Touches p q c

private theorem leaves_of_record {result : Except Exit EPollPoller} {index : Int}
    {channel : Option ChannelPtr} {event : Option EpollEvent}
    (stands : Stands (record p c index channel event) c now)
    (ran : result = .ok (record p c index channel event)) : Leaves p c result now :=
  ⟨_, ran, by simp [record], stands, record_touches ..⟩

private theorem leaves_unchanged {result : Except Exit EPollPoller} (stands : Stands p c now)
    (ran : result = .ok p) : Leaves p c result now :=
  ⟨p, ran, rfl, stands, Touches.refl p c⟩

/-- `updateChannel` succeeds, makes its move and touches nothing else. -/
theorem updateChannel_spec (stands : Stands p c now) :
    Leaves p c (p.updateChannel c) (now.update (p.heap c).events) := by
  cases now with
  | absent =>
    obtain ⟨index, channel, event⟩ := stands
    apply leaves_of_record (record_registered p c _)
    simp [updateChannel, index, setIndex, EPollPoller.modify, EPollPoller.update, epollCtl,
      event, record]
  | registered mask =>
    obtain ⟨index, channel, event⟩ := stands
    have kept := channel_kept channel
    by_cases idle : (p.heap c).events = Channel.kNoneEvent
    · rw [Registration.update, if_pos idle]
      apply leaves_of_record (record_parked p c)
      simp [updateChannel, index, kNew, kAdded, kDeleted, Channel.isNoneEvent, idle, setIndex,
        EPollPoller.modify, EPollPoller.update, epollCtl, event, record, kept, bind, Except.bind,
        pure, Except.pure]
    · rw [Registration.update, if_neg idle]
      apply leaves_of_record (record_registered p c _)
      simp [updateChannel, index, kNew, kAdded, kDeleted, Channel.isNoneEvent, idle,
        EPollPoller.update, epollCtl, event, record, kept]
      exact congrArg (fun index => { p.heap c with index := index }) index
  | parked =>
    obtain ⟨index, channel, event⟩ := stands
    have kept := channel_kept channel
    apply leaves_of_record (record_registered p c _)
    simp [updateChannel, index, kNew, kDeleted, channel, setIndex, EPollPoller.modify,
      EPollPoller.update, epollCtl, event, record, kept]

/-- `removeChannel` succeeds, makes its move and touches nothing else. -/
theorem removeChannel_spec (stands : Stands p c now) :
    Leaves p c (p.removeChannel c) (now.remove (p.heap c).events) := by
  unfold Registration.remove
  split
  · rename_i idle
    cases now with
    | absent =>
      apply leaves_unchanged stands
      simp [removeChannel, stands.2.1, pure, Except.pure]
    | registered mask =>
      obtain ⟨index, channel, event⟩ := stands
      apply leaves_of_record (record_absent p c)
      simp [removeChannel, channel, Channel.isNoneEvent, idle, index, EPollPoller.update,
        epollCtl, event, setIndex, EPollPoller.modify, record, bind, Except.bind, pure,
        Except.pure]
    | parked =>
      obtain ⟨index, channel, event⟩ := stands
      have unregistered : Function.update p.epoll (p.heap c).fd none = p.epoll := by
        rw [← event, Function.update_eq_self]
      apply leaves_of_record (record_absent p c)
      simp [removeChannel, channel, Channel.isNoneEvent, idle, index, kAdded, kDeleted,
        setIndex, EPollPoller.modify, record, unregistered, bind, Except.bind, pure,
        Except.pure]
  · rename_i interested
    apply leaves_unchanged stands
    have refused : (p.heap c).isNoneEvent = false := by simp [Channel.isNoneEvent, interested]
    simp only [removeChannel, refused]
    split
    · rfl
    · split <;> rfl

/-- What a call for one channel leaves of every other. -/
theorem stands_of_touches (touches : Touches p q c) (different : d ≠ c)
    (apart : (p.heap d).fd ≠ (p.heap c).fd) (stands : Stands p d now) : Stands q d now := by
  have heap := touches.heap d different
  cases now <;>
    simpa only [Stands, heap, touches.channels _ apart, touches.epoll _ apart] using stands

/-- One channel as the registry of all channels sees it. What is registered for
it is never out of date. -/
structure Standing where
  events : Mask
  registration : Registration
  current : ∀ mask, registration = .registered mask → mask = events

def Standing.update (events : Mask) (standing : Standing) : Standing where
  events := events
  registration := standing.registration.update events
  current := by
    intro mask registered
    cases now : standing.registration with
    | absent | parked => simpa [Registration.update, now] using registered.symm
    | registered =>
      rw [now, Registration.update] at registered
      split at registered
      · cases registered
      · exact (Registration.registered.inj registered).symm

def Standing.remove (standing : Standing) : Standing where
  events := standing.events
  registration := standing.registration.remove standing.events
  current := by
    intro mask registered
    unfold Registration.remove at registered
    split at registered
    · cases registered
    · exact standing.current mask registered

/-- A change of a channel's interest followed by `updateChannel`, or a call of
`removeChannel`. -/
inductive PollerCall where
  | update (channel : ChannelPtr) (events : Mask)
  | remove (channel : ChannelPtr)
  deriving DecidableEq, Repr

def PollerCall.channel : PollerCall → ChannelPtr
  | .update channel _ | .remove channel => channel

def perform (p : EPollPoller) : PollerCall → Except Exit EPollPoller
  | .update c events =>
    (p.modify c (fun channel => { channel with events := events })).updateChannel c
  | .remove c => p.removeChannel c

/-- A poller under calls for the given channels, from its constructor on. The
channels have distinct fds and are new. -/
def pollerSystem (channels : Set ChannelPtr) : StepSystem EPollPoller PollerCall where
  Start p := channels.InjOn (fun c => (p.heap c).fd) ∧
    (∀ c ∈ channels, (p.heap c).index = kNew) ∧
    (∀ fd, p.channels fd = none) ∧ ∀ fd, p.epoll fd = none
  Step p call q := call.channel ∈ channels ∧ perform p call = .ok q

/-- Where every channel stands: what the poller is for. -/
abbrev Registry := ChannelPtr → Standing

def Registry.after (registry : Registry) : PollerCall → Registry
  | .update c events => Function.update registry c ((registry c).update events)
  | .remove c => Function.update registry c (registry c).remove

def registrySystem : StepSystem Registry PollerCall where
  Start registry := ∀ c, (registry c).registration = .absent
  Step registry call next := next = registry.after call

/-- The poller holds exactly what the registry says of the given channels. -/
structure Tracks (channels : Set ChannelPtr) (p : EPollPoller) (registry : Registry) : Prop where
  distinct : channels.InjOn (fun c => (p.heap c).fd)
  events : ∀ c ∈ channels, (p.heap c).events = (registry c).events
  stands : ∀ c ∈ channels, Stands p c (registry c).registration

variable {tracked : Set ChannelPtr} {registry : Registry} {call : PollerCall}

/-- One call moves one channel's standing and none of the others'. -/
private theorem tracks_after_touch {standing : Standing} (tracks : Tracks tracked p registry)
    (member : c ∈ tracked) (touches : Touches p q c)
    (events : (q.heap c).events = standing.events) (stands : Stands q c standing.registration) :
    Tracks tracked q (Function.update registry c standing) where
  distinct := by
    simpa only [Set.InjOn, touches.fd] using tracks.distinct
  events := by
    intro d tracked
    by_cases same : d = c
    · subst same
      simpa using events
    · simpa [same, touches.heap d same] using tracks.events d tracked
  stands := by
    intro d tracked
    by_cases same : d = c
    · subst same
      simpa using stands
    · have apart : (p.heap d).fd ≠ (p.heap c).fd :=
        fun equal => same (tracks.distinct tracked member equal)
      simpa [same] using stands_of_touches touches same apart (tracks.stands d tracked)

/-- A change of interest followed by `updateChannel` registers the new interest. -/
theorem perform_update_spec (events : Mask) (stands : Stands p c now) :
    ∃ q, perform p (.update c events) = .ok q ∧ (q.heap c).events = events ∧
      Stands q c (now.update events) ∧ Touches p q c := by
  have modified := modify_touches p c events
  have before : Stands (p.modify c (fun channel => { channel with events := events })) c now := by
    cases now <;> simpa [Stands, EPollPoller.modify] using stands
  obtain ⟨q, ran, same, after, touched⟩ := updateChannel_spec before
  have wanted : ((p.modify c (fun channel => { channel with events := events })).heap c).events =
      events := by simp [EPollPoller.modify]
  rw [wanted] at same after
  exact ⟨q, ran, same, after, modified.trans touched⟩

/-- Every call succeeds without a failed `epoll_ctl`, and moves the registry. -/
theorem perform_tracks (tracks : Tracks tracked p registry) (member : call.channel ∈ tracked) :
    ∃ q, perform p call = .ok q ∧ q.errors = p.errors ∧
      Tracks tracked q (registry.after call) := by
  cases call with
  | update c events =>
    obtain ⟨q, ran, same, after, touches⟩ := perform_update_spec events (tracks.stands c member)
    exact ⟨q, ran, touches.errors, tracks_after_touch tracks member touches same after⟩
  | remove c =>
    obtain ⟨q, ran, same, after, touches⟩ := removeChannel_spec (tracks.stands c member)
    rw [tracks.events c member] at same after
    exact ⟨q, ran, touches.errors, tracks_after_touch tracks member touches same after⟩

/-- The poller's calls are the registry's moves. -/
theorem poller_simulates_registry (channels : Set ChannelPtr) :
    (pollerSystem channels).Simulates registrySystem (fun call => [call]) (Tracks channels) where
  step := by
    intro p call q registry tracks step
    obtain ⟨after, ran, _, next⟩ := perform_tracks tracks step.1
    obtain rfl : after = q := Except.ok.inj (ran.symm.trans step.2)
    exact ⟨registry.after call, .cons rfl .nil, next⟩

/-- A new poller is tracked by a registry that knows no channel. -/
theorem start_tracks (start : (pollerSystem tracked).Start p) :
    Tracks tracked p fun c => ⟨(p.heap c).events, .absent, fun _ other => nomatch other⟩ where
  distinct := start.1
  events := fun _ _ => rfl
  stands := fun c member => ⟨start.2.1 c member, start.2.2.1 _, start.2.2.2 _⟩

theorem reachable_tracks (reached : (pollerSystem tracked).Reachable p) :
    ∃ registry, Tracks tracked p registry := by
  obtain ⟨first, labels, start, run⟩ := reached
  obtain ⟨registry, _, tracks⟩ := (poller_simulates_registry tracked).run (start_tracks start) run
  exact ⟨registry, tracks⟩

/-- The three records of a channel tell the same story. -/
structure Coherent (p : EPollPoller) (c : ChannelPtr) : Prop where
  isNew : (p.heap c).index = kNew ↔
    p.channels (p.heap c).fd = none ∧ p.epoll (p.heap c).fd = none
  isAdded : (p.heap c).index = kAdded ↔
    p.channels (p.heap c).fd = some c ∧ p.epoll (p.heap c).fd = some ⟨(p.heap c).events, c⟩
  isDeleted : (p.heap c).index = kDeleted ↔
    p.channels (p.heap c).fd = some c ∧ p.epoll (p.heap c).fd = none
  known : p.hasChannel c = true ↔ (p.heap c).index ≠ kNew

/-- The call returns, and no `epoll_ctl` in it failed. -/
def Succeeds (p : EPollPoller) (call : PollerCall) : Prop :=
  ∃ q, perform p call = .ok q ∧ q.errors = p.errors

/-- Losing all interest and being removed leaves nothing of the channel. -/
def LeavesNoTrace (p : EPollPoller) (c : ChannelPtr) : Prop :=
  ∃ q r, perform p (.update c Channel.kNoneEvent) = .ok q ∧ perform q (.remove c) = .ok r ∧
    (r.heap c).index = kNew ∧ r.channels (r.heap c).fd = none ∧ r.epoll (r.heap c).fd = none

theorem tracks_coherent (tracks : Tracks tracked p registry) (member : c ∈ tracked) :
    Coherent p c := by
  have events := tracks.events c member
  have stands := tracks.stands c member
  cases now : (registry c).registration with
  | absent =>
    obtain ⟨index, channel, event⟩ := by simpa only [now, Stands] using stands
    constructor <;> simp [index, channel, event, hasChannel, kNew, kAdded, kDeleted]
  | registered mask =>
    obtain ⟨index, channel, event⟩ := by simpa only [now, Stands] using stands
    have mask := (registry c).current mask now
    constructor <;>
      simp [index, channel, event, events, mask, hasChannel, kNew, kAdded, kDeleted]
  | parked =>
    obtain ⟨index, channel, event⟩ := by simpa only [now, Stands] using stands
    constructor <;> simp [index, channel, event, hasChannel, kNew, kAdded, kDeleted]

theorem tracks_leaves_no_trace (tracks : Tracks tracked p registry) (member : c ∈ tracked) :
    LeavesNoTrace p c := by
  obtain ⟨q, updated, _, parked⟩ := perform_tracks tracks
    (show (PollerCall.update c Channel.kNoneEvent).channel ∈ tracked from member)
  obtain ⟨r, removed, _, gone⟩ :=
    perform_tracks parked (show (PollerCall.remove c).channel ∈ tracked from member)
  refine ⟨q, r, updated, removed, ?_⟩
  simpa [Registry.after, Standing.update, Standing.remove, Registration.remove, Stands] using
    gone.stands c member

/-- After any calls for channels with distinct fds, in any order, a channel's
index, the map and the kernel's set agree; no call fails, and a channel that is
no longer interested can always be removed without a trace. -/
theorem records_stay_coherent (reached : (pollerSystem tracked).Reachable p)
    (member : c ∈ tracked) :
    Coherent p c ∧ (∀ call, call.channel = c → Succeeds p call) ∧ LeavesNoTrace p c := by
  obtain ⟨registry, tracks⟩ := reachable_tracks reached
  refine ⟨tracks_coherent tracks member, ?_, tracks_leaves_no_trace tracks member⟩
  rintro call rfl
  obtain ⟨q, ran, errors, _⟩ := perform_tracks tracks member
  exact ⟨q, ran, errors⟩

/-- A poller none of whose channels, one for each fd, is known to it. -/
def freshPoller : EPollPoller where
  heap c := { fd := c }
  channels _ := none
  epoll _ := none
  errors := []

theorem freshPoller_start : (pollerSystem Set.univ).Start freshPoller :=
  ⟨fun _ _ _ _ equal => Int.ofNat.inj equal, fun _ _ => rfl, fun _ => rfl, fun _ => rfl⟩

theorem fresh_poller_coherent : ∃ p, perform freshPoller (.update 3 epollIn) = .ok p ∧
    Coherent p 3 ∧ (∀ call, call.channel = 3 → Succeeds p call) ∧ LeavesNoTrace p 3 := by
  have called : ∃ p, perform freshPoller (.update 3 epollIn) = .ok p := ⟨_, rfl⟩
  obtain ⟨p, ran⟩ := called
  exact ⟨p, ran, records_stay_coherent (.step (.start freshPoller_start) ⟨trivial, ran⟩) trivial⟩

end MiniMuduo.PollerCoherence
