import MiniMuduo.PollReports
import MiniMuduo.ActiveDispatch
import Mathlib.Algebra.Group.Nat.Defs
import Mathlib.Data.Finset.Card
import Mathlib.Data.Nat.Log

/-! The poller against the kernel, over whole runs. Descriptors become ready and cease to
be, callbacks change the interest between the polls and pass it on or do not, and
`epoll_wait` answers with what is pending, as far as `events_` has room. What does not fit
has to wait; `events_` doubles so that this happens only a few times in the life of a loop. -/
namespace MiniMuduo.PollDelivery
open EPollPoller PollerCoherence ActiveChannels ActiveDispatch

/-- The poller, and what every descriptor is ready for. -/
structure Watch where
  events : EventPoller
  ready : Fd → Mask

/-- Of what a descriptor is ready for, epoll reports what it was asked for, and errors and
hang-ups in any case. -/
def reported (interest ready : Mask) : Mask := ready &&& (interest ||| epollErr ||| epollHup)

theorem reported_has {interest ready bits : Mask}
    (has : (reported interest ready).has bits = true) : ready.has bits = true := by
  simp only [Mask.has, bne_iff_ne, ne_eq, reported] at has ⊢
  intro nothing
  rw [BitVec.and_assoc, BitVec.and_comm _ bits, ← BitVec.and_assoc, nothing] at has
  exact has BitVec.zero_and

/-- The event that the kernel has for a descriptor. -/
def pending (s : Watch) (fd : Fd) : Option EpollEvent :=
  match s.events.poller.epoll fd with
  | none => none
  | some entry =>
    if reported entry.events (s.ready fd) = 0 then none
    else some ⟨reported entry.events (s.ready fd), entry.ptr⟩

/-- `epoll_wait(2)`, level-triggered, on an array of `events_.size()`: it fails, or stores
the events of different descriptors, and leaves one out only for want of room. -/
inductive Answers (s : Watch) : WaitResult → Prop where
  | failed {errno : Errno} : Answers s (.failed errno)
  | ready {fds : List Fd} {events : List EpollEvent} {errno : Errno} : fds.Nodup →
      fds.map (pending s) = events.map some →
      events.length ≤ s.events.eventsSize →
      (events.length < s.events.eventsSize → ∀ fd event, pending s fd = some event → fd ∈ fds) →
      Answers s (.ready events errno)

/-- What happens to the poller: a call for a channel, a descriptor that becomes ready for
other things, or a poll, with whether it filled `events_`. -/
inductive WatchLabel where
  | call (call : LoopCall)
  | becomes (fd : Fd) (ready : Mask)
  | polled (result : WaitResult) (full : Bool)
  deriving DecidableEq, Repr

inductive WatchStep (ndebug : Bool) (channels : Finset ChannelPtr) :
    Watch → WatchLabel → Watch → Prop where
  | call {s : Watch} {call : LoopCall} {p : EPollPoller} : call.channel ∈ channels →
      call.perform s.events.poller = .ok p →
      WatchStep ndebug channels s (.call call) ⟨⟨p, s.events.eventsSize⟩, s.ready⟩
  | becomes {s : Watch} {fd : Fd} {ready : Mask} :
      WatchStep ndebug channels s (.becomes fd ready)
        { s with ready := Function.update s.ready fd ready }
  | poll {s : Watch} {result : WaitResult} : Answers s result →
      WatchStep ndebug channels s
        (.polled result (decide (result.numEvents = s.events.eventsSize)))
        { s with events := (poll ndebug s.events result []).1 }

/-- A poller for these channels, from its constructor on. -/
def watchSystem (ndebug : Bool) (channels : Finset ChannelPtr) : StepSystem Watch WatchLabel where
  Start s := (pollerSystem (channels : Set ChannelPtr)).Start s.events.poller ∧
    s.events.eventsSize = kInitEventListSize
  Step := WatchStep ndebug channels

variable {ndebug : Bool} {channels : Finset ChannelPtr} {s t : Watch} {result : WaitResult}
variable {p : EPollPoller} {c : ChannelPtr} {labels : List WatchLabel}
variable {activeChannels : List ChannelPtr} {label : WatchLabel}

theorem performed_call {call : LoopCall} {q : EPollPoller}
    (placed : Placed (channels : Set ChannelPtr) p) (member : call.channel ∈ channels)
    (ran : call.perform p = .ok q) : Performed (channels : Set ChannelPtr) p call q := by
  obtain ⟨_, done, performed⟩ := perform_spec placed member
  obtain rfl := Except.ok.inj (done.symm.trans ran)
  exact performed

/-- A poll assigns to `revents_` and logs, and does nothing else to the poller. -/
theorem poll_invariant {Holds : EPollPoller → Prop}
    (told : ∀ p c revents, Holds p → Holds (p.setRevents c revents))
    (logged : ∀ p errors, Holds p → Holds { p with errors := errors })
    (holds : Holds s.events.poller) :
    Holds (poll ndebug s.events result activeChannels).1.poller := by
  have filled : Holds (s.events.poller.fillActiveChannels ndebug result.events activeChannels).1 :=
    fill_invariant told holds
  unfold poll
  dsimp only
  split
  · split
    · exact filled
    · split
      · exact filled
      · split
        · exact logged _ _ filled
        · exact filled
  · exact holds

theorem poll_placed (placed : Placed (channels : Set ChannelPtr) s.events.poller) :
    Placed (channels : Set ChannelPtr)
      (poll ndebug s.events result activeChannels).1.poller := by
  refine poll_invariant (fun _ c revents held => setRevents_placed held c revents) ?_ placed
  rintro p errors ⟨distinct, stands, owned⟩
  exact ⟨distinct, stands, owned⟩

/-! ### What is pending -/

/-- What the kernel would report of a channel, by the interest that it was registered with
last. -/
def wanted (s : Watch) (c : ChannelPtr) : Mask :=
  match s.events.poller.epoll (s.events.poller.heap c).fd with
  | none => 0
  | some entry => reported entry.events (s.ready (s.events.poller.heap c).fd)

section
variable (placed : Placed (channels : Set ChannelPtr) s.events.poller)
include placed

/-- What the kernel reports of a descriptor is about the channel that is registered for it. -/
theorem pending_spec {fd : Fd} {event : EpollEvent} (pends : pending s fd = some event) :
    event.ptr ∈ channels ∧ (s.events.poller.heap event.ptr).fd = fd ∧
      (s.events.poller.heap event.ptr).index = kAdded ∧ event.events = wanted s event.ptr ∧
      event.events ≠ 0 := by
  unfold pending at pends
  split at pends
  · cases pends
  · rename_i entry entered
    split at pends
    · cases pends
    · rename_i some
      cases pends
      obtain ⟨member, rfl⟩ := placed.owned fd entry entered
      obtain ⟨now, stands⟩ := placed.stands entry.ptr member
      cases now with
      | absent => simp [stands.2.2] at entered
      | parked => simp [stands.2.2] at entered
      | registered => exact ⟨member, rfl, stands.1, by simp [wanted, entered], some⟩

/-- A channel for which there is something to report has its event. -/
theorem pending_of_wanted (member : c ∈ channels) (wants : wanted s c ≠ 0) :
    pending s (s.events.poller.heap c).fd = some ⟨wanted s c, c⟩ := by
  cases entered : s.events.poller.epoll (s.events.poller.heap c).fd with
  | none => simp [wanted, entered] at wants
  | some entry =>
    obtain ⟨owner, same⟩ := placed.owned _ entry entered
    obtain rfl : entry.ptr = c := placed.distinct owner member same
    simp only [wanted, entered] at wants
    simp only [pending, wanted, entered, if_neg wants]

end

/-- What the kernel has for a descriptor carries the pointer registered for it. -/
theorem pending_registered {fd : Fd} {event : EpollEvent} (pends : pending s fd = some event) :
    ∃ mask, s.events.poller.epoll fd = some ⟨mask, event.ptr⟩ := by
  unfold pending at pends
  split at pends
  · cases pends
  · rename_i entry entered
    split at pends
    · cases pends
    · cases pends
      exact ⟨_, entered⟩

/-- An answer is a batch that the kernel can report. -/
theorem answers_report (answers : Answers s result) :
    Reports s.events.poller result.events ∧
      ∀ event ∈ result.events, ∃ fd, pending s fd = some event := by
  cases answers with
  | failed => exact ⟨⟨[], .nil, .nil⟩, nofun⟩
  | @ready fds events errno distinct entries _ _ =>
    constructor
    · refine ⟨fds, distinct, ?_⟩
      have equal : List.Forall₂ (fun fd event => pending s fd = some event) fds events := by
        have whole : List.Forall₂ Eq (fds.map (pending s)) (events.map some) := by
          rw [List.forall₂_eq_eq_eq]
          exact entries
        exact List.forall₂_map_right_iff.mp (List.forall₂_map_left_iff.mp whole)
      exact equal.imp fun fd event pends => pending_registered pends
    · intro event member
      have listed : some event ∈ fds.map (pending s) := entries ▸ List.mem_map_of_mem member
      obtain ⟨fd, _, found⟩ := List.mem_map.mp listed
      exact ⟨fd, found⟩

/-- What `poll` leaves in the channels and on the list is what `fillActiveChannels` does. -/
theorem poll_fills (ndebug : Bool) (s : EventPoller) (result : WaitResult)
    (activeChannels : List ChannelPtr) :
    let filled := s.poller.fillActiveChannels ndebug result.events activeChannels
    (poll ndebug s result activeChannels).1.poller.heap = filled.1.heap ∧
      (poll ndebug s result activeChannels).2 = filled.2 := by
  by_cases some : 0 < result.numEvents
  · simp only [poll, if_pos some]
    split
    · exact ⟨rfl, rfl⟩
    · split
      · exact ⟨rfl, rfl⟩
      · split <;> exact ⟨rfl, rfl⟩
  · have none : result.events = [] := by
      cases result with
      | failed errno => rfl
      | ready events errno =>
        have empty : ¬ (0 : Int) < events.length := some
        have zero : events.length = 0 := by omega
        exact List.length_eq_zero_iff.mp zero
    simp only [poll, if_neg some, none, fillActiveChannels, and_self]

/-- What a poll owes to the channels, and after it the loop to their callbacks. -/
structure Delivers (channels : Finset ChannelPtr) (s : Watch) (result : WaitResult)
    (after : EventPoller × List ChannelPtr) : Prop where
  /-- No channel is told twice. -/
  once : after.2.Nodup
  /-- None is told that is not registered. -/
  registered : ∀ c ∈ after.2, c ∈ channels ∧ (s.events.poller.heap c).index = kAdded
  /-- Each is told what it is ready for, measured by its registration, and that is something. -/
  told : ∀ c ∈ after.2, (after.1.poller.heap c).revents = wanted s c ∧ wanted s c ≠ 0
  /-- While there is room, nobody is left out. -/
  all : (∀ errno, result ≠ .failed errno) → result.numEvents ≠ s.events.eventsSize →
    ∀ c ∈ channels, wanted s c ≠ 0 → c ∈ after.2

theorem poll_delivers (placed : Placed (channels : Set ChannelPtr) s.events.poller)
    (answers : Answers s result) :
    Delivers channels s result (poll ndebug s.events result []) := by
  obtain ⟨reports, pends⟩ := answers_report answers
  obtain ⟨heap, list⟩ := poll_fills ndebug s.events result []
  rw [fill_list placed reports, List.nil_append] at list
  have distinct := reported_distinct placed reports
  have each : ∀ c ∈ result.events.map EpollEvent.ptr, ∃ event ∈ result.events, event.ptr = c ∧
      c ∈ channels ∧ (s.events.poller.heap c).index = kAdded ∧ event.events = wanted s c ∧
      wanted s c ≠ 0 := by
    intro c listed
    obtain ⟨event, member, rfl⟩ := List.mem_map.mp listed
    obtain ⟨fd, found⟩ := pends event member
    obtain ⟨known, rfl, index, mask, some⟩ := pending_spec placed found
    exact ⟨event, member, rfl, known, index, mask, fun nothing => some (mask.trans nothing)⟩
  constructor
  · rw [list]
    exact distinct
  · intro c listed
    rw [list] at listed
    obtain ⟨_, _, _, known, index, _⟩ := each c listed
    exact ⟨known, index⟩
  · intro c listed
    rw [list] at listed
    obtain ⟨event, member, rfl, _, _, mask, some⟩ := each c listed
    rw [heap, fill_checked (reported_known placed reports),
      fill_unchecked_revents _ _ distinct member]
    exact ⟨mask, some⟩
  · intro returned room c known wants
    have found := pending_of_wanted placed known wants
    rw [list]
    cases answers with
    | failed => exact absurd rfl (returned _)
    | @ready fds events errno _ entries fits complete =>
      have unfilled : (events.length : Int) ≠ s.events.eventsSize := room
      have listed := List.mem_map_of_mem (f := pending s) (complete (by omega) _ _ found)
      rw [entries, found] at listed
      obtain ⟨event, member, same⟩ := List.mem_map.mp listed
      cases same
      exact List.mem_map.mpr ⟨_, member, rfl⟩

/-! ### Whole runs -/

/-- The records agree, and `events_` is no longer than it has to be. -/
structure Fitting (channels : Finset ChannelPtr) (s : Watch) : Prop where
  placed : Placed (channels : Set ChannelPtr) s.events.poller
  bounded : s.events.eventsSize ≤ max kInitEventListSize (2 * channels.card)

/-- No more events can come than there are channels. -/
theorem batch_le_card (placed : Placed (channels : Set ChannelPtr) s.events.poller)
    (answers : Answers s result) :
    result.events.length ≤ channels.card := by
  obtain ⟨reports, pends⟩ := answers_report answers
  have distinct := reported_distinct placed reports
  have known : (result.events.map EpollEvent.ptr).toFinset ⊆ channels := by
    intro c listed
    obtain ⟨event, member, rfl⟩ := List.mem_map.mp (List.mem_toFinset.mp listed)
    obtain ⟨fd, found⟩ := pends event member
    exact (pending_spec placed found).1
  calc result.events.length = (result.events.map EpollEvent.ptr).toFinset.card := by
        rw [List.toFinset_card_of_nodup distinct, List.length_map]
    _ ≤ channels.card := Finset.card_le_card known

theorem fitting_step (fitting : Fitting channels s) (step : WatchStep ndebug channels s label t) :
    Fitting channels t := by
  obtain ⟨placed, bounded⟩ := fitting
  cases step with
  | call member ran => exact ⟨(performed_call placed member ran).placed, bounded⟩
  | becomes => exact ⟨placed, bounded⟩
  | @poll result answers =>
    refine ⟨poll_placed placed, ?_⟩
    have few := batch_le_card placed answers
    rw [PollReports.poll_doubles]
    split
    · rename_i full
      have length : result.numEvents ≤ result.events.length := by
        cases result with
        | failed errno =>
          exact Int.le_trans (show (-1 : Int) ≤ 0 by decide) (Int.natCast_nonneg _)
        | ready events errno => exact Int.le_refl _
      omega
    · exact bounded

theorem reachable_fitting (reached : (watchSystem ndebug channels).Reachable s) :
    Fitting channels s := by
  refine reached.invariant ?_ fun _ _ _ => fitting_step
  rintro first ⟨start, size⟩
  exact ⟨start_placed start, size ▸ Nat.le_max_left _ _⟩

/-- Whatever was called and whatever became ready before, every poll tells exactly the
channels that are ready for something that they are registered for, each once and with
exactly that; one is left out only if `events_` is full or `epoll_wait` fails. -/
theorem every_poll_delivers (reached : (watchSystem ndebug channels).Reachable s)
    (answers : Answers s result) : Delivers channels s result (poll ndebug s.events result []) :=
  poll_delivers (reachable_fitting reached).placed answers

/-- A poller that knows none of its channels yet. -/
def freshWatch : Watch := ⟨⟨freshPoller, kInitEventListSize⟩, fun _ => 0⟩

theorem freshWatch_start (channels : Finset ChannelPtr) :
    (watchSystem false channels).Start freshWatch :=
  ⟨⟨fun _ _ _ _ equal => Int.ofNat.inj equal, fun _ _ => rfl, fun _ => rfl, fun _ => rfl⟩, rfl⟩

/-- Channel 3 is interested in reading. -/
def interested : EPollPoller :=
  freshPoller.modify 3 (fun channel => { channel with events := epollIn })

def registered : EPollPoller := (interested.updateChannel 3).toOption.getD freshPoller

/-- It registers, stops wanting to read without telling anybody, and data arrives together
with a hang-up. -/
def readable : Watch where
  events := ⟨registered.modify 3 (fun channel => { channel with events := 0 }), 16⟩
  ready := Function.update (fun _ => 0) 3 (epollIn ||| epollOut ||| epollHup)

def untilReadable : List WatchLabel :=
  [.call (.interest 3 epollIn), .call (.update 3), .call (.interest 3 0),
    .becomes 3 (epollIn ||| epollOut ||| epollHup)]

theorem readable_run : (watchSystem false {3}).Run freshWatch untilReadable readable := by
  have wants : WatchStep false {3} freshWatch (.call (.interest 3 epollIn)) _ :=
    .call (by decide) rfl
  have registers : WatchStep false {3} ⟨⟨interested, 16⟩, fun _ => 0⟩ (.call (.update 3)) _ :=
    .call (by decide) rfl
  have forgets : WatchStep false {3} ⟨⟨registered, 16⟩, fun _ => 0⟩ (.call (.interest 3 0)) _ :=
    .call (by decide) rfl
  exact .cons wants (.cons registers (.cons forgets (.cons .becomes .nil)))

theorem readable_answer : Answers readable (.ready [⟨epollIn ||| epollHup, 3⟩] 0) := by
  have found : pending readable 3 = some ⟨epollIn ||| epollHup, 3⟩ := by decide
  have entry : readable.events.poller.epoll =
      Function.update (fun _ => none) 3 (some ⟨epollIn, 3⟩) := rfl
  refine @Answers.ready _ [3] _ _ (by decide) (by simp [found]) (by decide) ?_
  intro _ fd event pends
  by_contra other
  have apart : fd ≠ 3 := fun equal => other (by simp [equal])
  simp [pending, entry, apart] at pends

/-- The channel is told what it has registered for, and the hang-up. -/
theorem read_and_hangup_told :
    3 ∈ (poll false readable.events (.ready [⟨epollIn ||| epollHup, 3⟩] 0) []).2 :=
  (every_poll_delivers ⟨_, _, freshWatch_start _, readable_run⟩ readable_answer).all nofun
    (by decide) 3 (by decide) (by decide)

/-! ### How often `events_` is full -/

/-- The poll filled `events_`. -/
def fills : WatchLabel → Bool
  | .polled _ full => full
  | .call _ | .becomes _ _ => false

theorem size_of_run (run : (watchSystem ndebug channels).Run s labels t) :
    t.events.eventsSize = s.events.eventsSize * 2 ^ labels.countP fills := by
  induction run with
  | nil => simp
  | @cons s u t label labels step _ ih =>
    have once : u.events.eventsSize = s.events.eventsSize * 2 ^ [label].countP fills := by
      cases step with
      | call _ _ => simp [fills]
      | becomes => simp [fills]
      | @poll result _ =>
        rw [PollReports.poll_doubles]
        by_cases full : result.numEvents = s.events.eventsSize <;> simp [fills, full]
    rw [ih, once, Nat.mul_assoc, ← Nat.pow_add, ← List.countP_append, List.singleton_append]

/-- Sixteen entries that are doubled so often are at most so many only if this is rare. -/
theorem doublings_le_log {count n : Nat}
    (bounded : kInitEventListSize * 2 ^ count ≤ max kInitEventListSize (2 * n)) :
    count ≤ Nat.log 2 n - 3 := by
  cases count with
  | zero => exact Nat.zero_le _
  | succ count =>
    have large : 2 ^ (count + 4) ≤ n := by
      have positive := Nat.two_pow_pos count
      simp only [kInitEventListSize, Nat.pow_succ] at bounded ⊢
      omega
    have log := Nat.le_log_of_pow_le (by decide) large
    omega

/-- In the whole life of a loop only a logarithmic number of polls fill `events_`, and so may
leave a ready channel out: each of them doubles it, nothing else changes its length, and it
never gets longer than twice the channels. -/
theorem few_polls_fill (start : (watchSystem ndebug channels).Start s)
    (run : (watchSystem ndebug channels).Run s labels t) :
    t.events.eventsSize = kInitEventListSize * 2 ^ labels.countP fills ∧
      t.events.eventsSize ≤ max kInitEventListSize (2 * channels.card) ∧
      labels.countP fills ≤ Nat.log 2 channels.card - 3 := by
  have size := size_of_run run
  rw [start.2] at size
  have bounded := (reachable_fitting ⟨s, labels, start, run⟩).bounded
  exact ⟨size, bounded, doublings_le_log (size ▸ bounded)⟩

/-- A call or a change of readiness, as a function. -/
def between (channels : Finset ChannelPtr) (s : Watch) : WatchLabel → Option Watch
  | .call call =>
    if call.channel ∈ channels then
      (call.perform s.events.poller).toOption.map fun p => ⟨⟨p, s.events.eventsSize⟩, s.ready⟩
    else none
  | .becomes fd ready => some { s with ready := Function.update s.ready fd ready }
  | .polled _ _ => none

theorem between_step (taken : between channels s label = some t) :
    WatchStep ndebug channels s label t := by
  cases label with
  | call call =>
    obtain ⟨member, taken⟩ := Option.ite_none_right_eq_some.mp taken
    obtain ⟨p, ran, rfl⟩ := Option.map_eq_some_iff.mp taken
    refine .call member ?_
    cases performed : call.perform s.events.poller with
    | error exit => simp [performed, Except.toOption] at ran
    | ok after =>
      rw [performed] at ran
      exact congrArg Except.ok (Option.some.inj ran)
  | becomes fd ready =>
    obtain rfl := Option.some.inj taken
    exact .becomes
  | polled => cases taken

/-- Sixteen channels register for reading, and there is something to read for each. -/
def flood : List WatchLabel :=
  (List.range 16).flatMap fun c =>
    [.call (.interest c epollIn), .call (.update c), .becomes c epollIn]

def flooded : Watch :=
  (StepSystem.play (between (Finset.range 16)) freshWatch flood).getD freshWatch

def floodEvents : List EpollEvent := (List.range 16).map fun c => ⟨epollIn, c⟩

theorem flooded_run : (watchSystem false (Finset.range 16)).Run freshWatch flood flooded := by
  have returns : (StepSystem.play (between (Finset.range 16)) freshWatch flood).isSome = true := by
    decide +kernel
  have played : StepSystem.play (between (Finset.range 16)) freshWatch flood = some flooded := by
    obtain ⟨last, played⟩ := Option.isSome_iff_exists.mp returns
    rw [flooded, played]
    rfl
  exact .of_play (fun _ _ _ => between_step) played

theorem flooded_answer : Answers flooded (.ready floodEvents 0) := by
  refine @Answers.ready _ ((List.range 16).map Int.ofNat) _ _ (by decide) ?_ ?_ ?_
  · decide +kernel
  · decide +kernel
  · intro room
    exact absurd room (by decide +kernel)

/-- The poll that tells them finds `events_` full. -/
def filled : List WatchLabel := flood ++ [.polled (.ready floodEvents 0) true]

theorem sixteen_fill : (poll false flooded.events (.ready floodEvents 0) []).1.eventsSize = 32 ∧
    filled.countP fills = 1 := by
  have full : decide ((WaitResult.ready floodEvents 0).numEvents = flooded.events.eventsSize) =
      true := by
    decide +kernel
  have polled : WatchStep false (Finset.range 16) flooded
      (.polled (.ready floodEvents 0) (decide _)) _ := .poll flooded_answer
  rw [full] at polled
  have once : filled.countP fills = 1 := by decide +kernel
  obtain ⟨size, -⟩ := few_polls_fill (freshWatch_start _) (flooded_run.snoc polled)
  rw [filled] at once
  rw [once] at size
  exact ⟨size, once⟩

end MiniMuduo.PollDelivery
