import MiniMuduo.ActiveChannels
import MiniMuduo.StaleChannel

/-! A batch with stale pointers in the default build, which compares every pointer with
`channels_`. The comparison is there to leave a stale pointer out. It leaves out all that
is behind it, too. -/
namespace MiniMuduo.StaleEvents
open EPollPoller ActiveChannels

variable {p : EPollPoller} {events : List EpollEvent} {activeChannels : List ChannelPtr}

/-- The events of the channels that are in the map under their fd. -/
def registered (p : EPollPoller) (events : List EpollEvent) : List EpollEvent :=
  events.filter fun event => p.hasChannel event.ptr

/-- The batch puts on the list one entry for each event of a registered channel, in the
order of the batch, and nothing else; what `revents_` holds is the channel's last mask. -/
structure Delivers (p : EPollPoller) (events : List EpollEvent)
    (activeChannels : List ChannelPtr) : Prop where
  list : (p.fillActiveChannels false events activeChannels).2 =
    activeChannels ++ (registered p events).map EpollEvent.ptr
  revents : ∀ front event back, events = front ++ event :: back → p.hasChannel event.ptr = true →
    event.ptr ∉ back.map EpollEvent.ptr →
    ((p.fillActiveChannels false events activeChannels).1.heap event.ptr).revents = event.events

/-- A stale event costs no other its delivery. -/
def StaleEventsHarmless : Prop :=
  ∀ p events activeChannels, Delivers p events activeChannels

/-- No event of a registered channel stands behind one of a channel that is not. -/
def NoneBehindStale (p : EPollPoller) (events : List EpollEvent) : Prop :=
  events.Pairwise fun first later =>
    p.hasChannel later.ptr = true → p.hasChannel first.ptr = true

theorem takeWhile_eq_filter_iff {Item : Type} (keep : Item → Bool) (items : List Item) :
    items.takeWhile keep = items.filter keep ↔
      items.Pairwise fun first later => keep later = true → keep first = true := by
  induction items with
  | nil => simp
  | cons item items ih =>
    rw [List.pairwise_cons]
    cases kept : keep item with
    | true => simp [kept, ih]
    | false =>
      rw [List.takeWhile_cons_of_neg (by simp [kept]), List.filter_cons_of_neg (by simp [kept]),
        eq_comm, List.filter_eq_nil_iff]
      constructor
      · intro none
        exact ⟨fun later member keeps => absurd keeps (none later member),
          List.pairwise_of_forall_mem_list fun _ _ later member keeps =>
            absurd keeps (none later member)⟩
      · intro behind later member keeps
        exact Bool.false_ne_true (behind.1 later member keeps)

theorem takeWhile_sublist_filter {Item : Type} (keep : Item → Bool) (items : List Item) :
    (items.takeWhile keep).Sublist (items.filter keep) := by
  have kept : (items.takeWhile keep).filter keep = items.takeWhile keep :=
    List.filter_eq_self.mpr (List.all_eq_true.mp List.all_takeWhile)
  rw [← kept]
  exact (List.takeWhile_sublist keep).filter keep

/-- The default build is the other build on the events in front of the first stale one. -/
theorem fill_default (p : EPollPoller) (events : List EpollEvent)
    (activeChannels : List ChannelPtr) :
    p.fillActiveChannels false events activeChannels =
      p.fillActiveChannels true (events.takeWhile fun event => p.hasChannel event.ptr)
        activeChannels := by
  induction events generalizing p activeChannels with
  | nil => rfl
  | cons event events ih =>
    rw [fillActiveChannels, Bool.false_or]
    cases known : p.hasChannel event.ptr with
    | true =>
      rw [if_pos rfl, ih, List.takeWhile_cons, if_pos known, fillActiveChannels, Bool.true_or,
        if_pos rfl]
      simp only [setRevents_hasChannel]
    | false =>
      rw [if_neg Bool.false_ne_true, List.takeWhile_cons, known, if_neg Bool.false_ne_true]
      rfl

/-- Every registered channel of a batch hears of its events exactly if none of them stands
behind a stale one. -/
theorem batch_delivered_iff (p : EPollPoller) (events : List EpollEvent)
    (activeChannels : List ChannelPtr) :
    Delivers p events activeChannels ↔ NoneBehindStale p events := by
  have front : NoneBehindStale p events ↔
      (events.takeWhile fun event => p.hasChannel event.ptr) = registered p events :=
    (takeWhile_eq_filter_iff _ _).symm
  have list : (p.fillActiveChannels false events activeChannels).2 = activeChannels ++
      (events.takeWhile fun event => p.hasChannel event.ptr).map EpollEvent.ptr := by
    rw [fill_default, fill_unchecked_list]
  rw [front]
  constructor
  · intro delivers
    have pointers := List.append_cancel_left (list.symm.trans delivers.list)
    have length : (events.takeWhile fun event => p.hasChannel event.ptr).length =
        (registered p events).length := by
      simpa using congrArg List.length pointers
    exact (takeWhile_sublist_filter _ _).eq_of_length length
  · intro all
    refine ⟨by rw [list, all], ?_⟩
    intro front event back split known last
    rw [fill_default, all, split, registered, List.filter_append, List.filter_cons, known,
      if_pos rfl]
    refine fill_unchecked_last _ _ _ _ fun later => last ?_
    exact List.map_subset _ List.filter_sublist.subset later

/-- Fd 7 has gone from channel 1 to channel 2, and a call of channel 1 has put its pointer
back into the kernel; channel 3 reads from fd 9. -/
def overtaking : List StaleChannel.PollerAction :=
  StaleChannel.reuse ++ [.update 1, .opens 9, .create 3 9, .interest 3 epollIn, .update 3]

def overtaken : StaleChannel.OpenFds :=
  (StepSystem.play (fun s action => (StaleChannel.perform s action).toOption)
    StaleChannel.noneOpen overtaking).getD StaleChannel.noneOpen

theorem overtaken_reachable : StaleChannel.reuseSystem.Reachable overtaken := by
  have played : StepSystem.play (fun s action => (StaleChannel.perform s action).toOption)
      StaleChannel.noneOpen overtaking = some overtaken := rfl
  exact ⟨StaleChannel.noneOpen, overtaking, ⟨fun _ => rfl, fun _ => rfl, fun _ => rfl⟩,
    .of_play_ok (fun _ _ _ ran => ran) played⟩

/-- What the kernel reports when both fds are ready. -/
def staleBatch : List EpollEvent := [⟨epollIn, 1⟩, ⟨epollIn, 3⟩]

/-- Channel 3 does not hear of its event. -/
theorem event_behind_stale_dropped : StaleChannel.reuseSystem.Reachable overtaken ∧
    Reports overtaken.poller staleBatch ∧ ¬ StaleEventsHarmless := by
  refine ⟨overtaken_reachable, ?_, fun harmless => ?_⟩
  · exact ⟨[7, 9], by decide, .cons ⟨epollIn, rfl⟩ (.cons ⟨epollIn, rfl⟩ .nil)⟩
  · have delivered := (harmless overtaken.poller staleBatch []).list
    have dropped : (overtaken.poller.fillActiveChannels false staleBatch []).2 = [] := rfl
    have due : (registered overtaken.poller staleBatch).map EpollEvent.ptr = [3] := rfl
    rw [dropped, due] at delivered
    cases delivered

end MiniMuduo.StaleEvents
