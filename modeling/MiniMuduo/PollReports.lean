import MiniMuduo.ActiveChannels

/-! `EPollPoller::poll`: which calls log an error, and which make `events_` longer. The branch
that reports a failed `epoll_wait` stands inside the one for a positive result: it never sees
a failure, and judges a partly filled array by an `errno` that says nothing about it. -/
namespace MiniMuduo
namespace EPollPoller

def eintr : Errno := 4

/-- The poller with `events_.size()`. -/
structure EventPoller where
  poller : EPollPoller
  eventsSize : Nat

def kInitEventListSize : Nat := 16

/-- What `epoll_wait` stores or fails with, and what `errno` holds when it has returned. -/
inductive WaitResult where
  | failed (errno : Errno)
  | ready (events : List EpollEvent) (errno : Errno)
  deriving DecidableEq, Repr

def WaitResult.numEvents : WaitResult → Int
  | .failed _ => -1
  | .ready events _ => events.length

def WaitResult.events : WaitResult → List EpollEvent
  | .failed _ => []
  | .ready events _ => events

def WaitResult.errno : WaitResult → Errno
  | .failed errno | .ready _ errno => errno

def pollError : String := "EPollPoller::poll() err!"

/-- `EPollPoller::poll`, but for the time that it returns and what is logged below ERROR
level. -/
def poll (ndebug : Bool) (s : EventPoller) (result : WaitResult)
    (activeChannels : List ChannelPtr) : EventPoller × List ChannelPtr :=
  let numEvents := result.numEvents
  let saveErrno := result.errno
  if 0 < numEvents then
    let filled := s.poller.fillActiveChannels ndebug result.events activeChannels
    if numEvents = s.eventsSize then (⟨filled.1, s.eventsSize * 2⟩, filled.2)
    else if numEvents = 0 then (⟨filled.1, s.eventsSize⟩, filled.2)
    else if saveErrno ≠ eintr then
      (⟨{ filled.1 with errors := filled.1.errors ++ [pollError] }, s.eventsSize⟩, filled.2)
    else (⟨filled.1, s.eventsSize⟩, filled.2)
  else (s, activeChannels)

end EPollPoller

namespace PollReports
open EPollPoller ActiveChannels

variable {ndebug : Bool} {s : EventPoller} {result : WaitResult} {events : List EpollEvent}
variable {activeChannels : List ChannelPtr}

/-- A failure that is none of a signal's. -/
def Fails : WaitResult → Prop
  | .failed errno => errno ≠ eintr
  | .ready _ _ => False

instance : DecidablePred Fails
  | .failed errno => inferInstanceAs (Decidable (errno ≠ eintr))
  | .ready _ _ => inferInstanceAs (Decidable False)

/-- The call logs the error exactly if `epoll_wait` has failed, and doubles `events_` exactly
if it was filled. -/
structure Honest (ndebug : Bool) (s : EventPoller) (result : WaitResult)
    (activeChannels : List ChannelPtr) : Prop where
  reports : (poll ndebug s result activeChannels).1.poller.errors =
    s.poller.errors ++ if Fails result then [pollError] else []
  doubles : (poll ndebug s result activeChannels).1.eventsSize =
    if result.numEvents = s.eventsSize then s.eventsSize * 2 else s.eventsSize

/-- Nothing is ready, or the array is full, or `errno` is EINTR. -/
def Handled (s : EventPoller) (result : WaitResult) : Prop :=
  result.numEvents = 0 ∨ result.numEvents = s.eventsSize ∨ result.errno = eintr

theorem fill_errors (p : EPollPoller) (events : List EpollEvent)
    (activeChannels : List ChannelPtr) :
    (p.fillActiveChannels ndebug events activeChannels).1.errors = p.errors := by
  have kept (q : EPollPoller) (c : ChannelPtr) (revents : Mask) (same : q.errors = p.errors) :
      (q.setRevents c revents).errors = p.errors := same
  exact fill_invariant kept rfl

/-- What a call logs: the error for a result that is positive and not full. -/
def Logs (s : EventPoller) (result : WaitResult) : Prop :=
  0 < result.numEvents ∧ result.numEvents ≠ s.eventsSize ∧ result.errno ≠ eintr

/-- The array is doubled where it should be, whatever is logged. -/
theorem poll_doubles : (poll ndebug s result activeChannels).1.eventsSize =
    if result.numEvents = s.eventsSize then s.eventsSize * 2 else s.eventsSize := by
  by_cases some : 0 < result.numEvents
  · by_cases full : result.numEvents = s.eventsSize
    · simp only [poll, if_pos some, if_pos full]
    · have positive : result.numEvents ≠ 0 := by omega
      simp only [poll, if_pos some, if_neg full, if_neg positive]
      split <;> rfl
  · simp only [poll, if_neg some]
    split
    · have none : s.eventsSize = 0 := by omega
      rw [none]
    · rfl

theorem poll_logs (logs : Logs s result) :
    (poll ndebug s result activeChannels).1.poller.errors = s.poller.errors ++ [pollError] := by
  obtain ⟨some, partly, strange⟩ := logs
  have positive : result.numEvents ≠ 0 := by omega
  simp only [poll, if_pos some, if_neg partly, if_neg positive, if_pos strange, fill_errors]

theorem poll_silent (silent : ¬ Logs s result) :
    (poll ndebug s result activeChannels).1.poller.errors = s.poller.errors := by
  simp only [poll]
  split
  · rename_i some
    split
    · exact fill_errors ..
    · rename_i partly
      split
      · exact fill_errors ..
      · split
        · rename_i strange
          exact absurd ⟨some, partly, strange⟩ silent
        · exact fill_errors ..
  · rfl

/-- Failures and what is logged are the same exactly if there is neither. -/
theorem fails_iff_logs_iff : (Fails result ↔ Logs s result) ↔ Handled s result := by
  cases result with
  | failed errno =>
    have nothing : ¬ Logs s (.failed errno) := fun logs => by
      have positive : (0 : Int) < -1 := logs.1
      omega
    have partly : (-1 : Int) ≠ s.eventsSize := by omega
    simp [nothing, Fails, Handled, WaitResult.numEvents, WaitResult.errno, partly]
  | ready events errno =>
    simp only [Fails, Logs, Handled, WaitResult.numEvents, WaitResult.errno, false_iff]
    by_cases signal : errno = eintr
    · simp [signal]
    · simp only [signal, ne_eq, not_false_eq_true, and_true, or_false]
      omega

/-- One call is honest exactly if nothing is ready, or the array is full, or `errno` is
EINTR. -/
theorem honest_iff : Honest ndebug s result activeChannels ↔ Handled s result := by
  rw [← fails_iff_logs_iff]
  constructor
  · rintro ⟨reports, -⟩
    by_cases logs : Logs s result
    · rw [poll_logs logs] at reports
      by_cases fails : Fails result
      · exact iff_of_true fails logs
      · simp [fails] at reports
    · rw [poll_silent logs] at reports
      by_cases fails : Fails result
      · simp [fails] at reports
      · exact iff_of_false fails logs
  · intro same
    refine ⟨?_, poll_doubles⟩
    by_cases fails : Fails result
    · rw [poll_logs (same.mp fails), if_pos fails]
    · rw [poll_silent fun logs => fails (same.mpr logs), if_neg fails, List.append_nil]

/-- What a call is given: what `epoll_wait` does in it, and the list to fill. -/
structure PollCall where
  result : WaitResult
  activeChannels : List ChannelPtr
  deriving DecidableEq, Repr

/-- The poller that a call leaves. -/
def afterPoll (ndebug : Bool) (s : EventPoller) (call : PollCall) : EventPoller :=
  (poll ndebug s call.result call.activeChannels).1

/-- Every call of a run is honest. -/
def HonestRun (ndebug : Bool) (s : EventPoller) : List PollCall → Prop
  | [] => True
  | call :: calls => Honest ndebug s call.result call.activeChannels ∧
      HonestRun ndebug (afterPoll ndebug s call) calls

/-- In every call nothing is ready, or the array, as long as it is by then, is full, or
`errno` is EINTR. -/
def HandledRun : Nat → List PollCall → Prop
  | _, [] => True
  | eventsSize, call :: calls =>
    (call.result.numEvents = 0 ∨ call.result.numEvents = eventsSize ∨
      call.result.errno = eintr) ∧
    HandledRun (if call.result.numEvents = eventsSize then eventsSize * 2 else eventsSize) calls

/-- A poller from its constructor on reports its failures and only those, and doubles its
array when it is full. -/
def PollHonest : Prop :=
  ∀ (ndebug : Bool) (poller : EPollPoller) (calls : List PollCall),
    HonestRun ndebug ⟨poller, kInitEventListSize⟩ calls

/-- All calls of a run are honest exactly if all find nothing, a full array, or EINTR. -/
theorem run_honest_iff (ndebug : Bool) (s : EventPoller) (calls : List PollCall) :
    HonestRun ndebug s calls ↔ HandledRun s.eventsSize calls := by
  induction calls generalizing s with
  | nil => exact Iff.rfl
  | cons call calls ih =>
    have size : (afterPoll ndebug s call).eventsSize = _ := poll_doubles
    rw [HonestRun, HandledRun, honest_iff, ih, size]
    rfl

/-- Channel 3 is registered for reading. -/
def watched : EPollPoller :=
  (PollerCoherence.perform PollerCoherence.freshPoller (.update 3 epollIn)).toOption.getD
    PollerCoherence.freshPoller

/-- Its event, and an `errno` left over from something else. -/
theorem one_event_reported : Reports watched [⟨epollIn, 3⟩] ∧ ¬ PollHonest := by
  refine ⟨⟨[3], by decide, .cons ⟨epollIn, rfl⟩ .nil⟩, fun honest => ?_⟩
  have reports := (honest false watched [⟨.ready [⟨epollIn, 3⟩] 11, []⟩]).1.reports
  have logged : (poll false ⟨watched, kInitEventListSize⟩
      (.ready [⟨epollIn, 3⟩] 11) []).1.poller.errors = [pollError] := rfl
  rw [logged] at reports
  cases reports

end PollReports
end MiniMuduo
