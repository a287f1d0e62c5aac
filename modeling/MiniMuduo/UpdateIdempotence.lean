import MiniMuduo.PollerCoherence

/-! Calling `updateChannel` again. A registered channel without interest is taken out of
the kernel, but a channel that is out of it is put in without a look at its interest. A
second call repeats the first exactly if the channel is interested in something. -/
namespace MiniMuduo.UpdateIdempotence
open EPollPoller PollerCoherence

variable {tracked : Set ChannelPtr} {p q r : EPollPoller} {c : ChannelPtr}
variable {now next : Registration} {events : Mask}

/-- The channel's index, the map and the kernel's set are as they were. -/
structure SameRecords (p q : EPollPoller) (c : ChannelPtr) : Prop where
  index : (q.heap c).index = (p.heap c).index
  channels : q.channels = p.channels
  epoll : q.epoll = p.epoll

/-- One more call returns and changes none of the records. -/
def Repeats (p : EPollPoller) (c : ChannelPtr) : Prop :=
  ∃ q, p.updateChannel c = .ok q ∧ SameRecords p q c

/-- Behind any calls, a second `updateChannel` leaves what the first one left. -/
def UpdateIdempotent : Prop :=
  ∀ (tracked : Set ChannelPtr) (p q : EPollPoller) (c : ChannelPtr) (events : Mask),
    (pollerSystem tracked).Reachable p → c ∈ tracked → perform p (.update c events) = .ok q →
    Repeats q c

/-- What the move writes into `index_`. -/
def indexOf : Registration → Int
  | .absent => kNew
  | .registered _ => kAdded
  | .parked => kDeleted

theorem stands_index (stands : Stands p c now) : (p.heap c).index = indexOf now := by
  cases now with
  | absent | registered | parked => exact stands.1

/-- A channel that stands the same has the same records. -/
theorem sameRecords_of_stands (before : Stands p c now) (after : Stands q c now)
    (touches : Touches p q c) : SameRecords p q c where
  index := by rw [stands_index before, stands_index after]
  channels := by
    funext fd
    by_cases own : fd = (p.heap c).fd
    · subst own
      have place := touches.fd c
      cases now with
      | absent | registered | parked => rw [before.2.1, ← place, after.2.1]
    · exact touches.channels fd own
  epoll := by
    funext fd
    by_cases own : fd = (p.heap c).fd
    · subst own
      have place := touches.fd c
      cases now with
      | absent | registered | parked => rw [before.2.2, ← place, after.2.2]
    · exact touches.epoll fd own

/-- The records tell how a channel stands. -/
theorem stands_of_sameRecords (before : Stands p c now) (after : Stands q c next)
    (same : SameRecords p q c) (place : (q.heap c).fd = (p.heap c).fd) : next = now := by
  have index : indexOf next = indexOf now := by
    rw [← stands_index after, ← stands_index before, same.index]
  cases now with
  | absent =>
    cases next with
    | absent => rfl
    | registered | parked => simp [indexOf, kNew, kAdded, kDeleted] at index
  | parked =>
    cases next with
    | parked => rfl
    | absent | registered => simp [indexOf, kNew, kAdded, kDeleted] at index
  | registered mask =>
    cases next with
    | absent | parked => simp [indexOf, kNew, kAdded, kDeleted] at index
    | registered mask' =>
      have event : some (EpollEvent.mk mask' c) = some ⟨mask, c⟩ := by
        rw [← after.2.2, ← before.2.2, place, same.epoll]
      cases event
      rfl

/-- A call changes none of the records exactly if its move leaves the channel standing. -/
theorem repeats_iff (stands : Stands p c now) :
    Repeats p c ↔ now.update (p.heap c).events = now := by
  obtain ⟨q, ran, -, after, touches⟩ := updateChannel_spec stands
  constructor
  · rintro ⟨again, ran', same⟩
    obtain rfl : q = again := Except.ok.inj (ran.symm.trans ran')
    exact stands_of_sameRecords stands after same (touches.fd c)
  · intro stays
    rw [stays] at after
    exact ⟨q, ran, sameRecords_of_stands stands after touches⟩

/-- The move is idempotent for an interest, and swings to and fro without one. -/
theorem registration_update_twice_iff (events : Mask) (now : Registration) :
    (now.update events).update events = now.update events ↔ events ≠ Channel.kNoneEvent := by
  by_cases idle : events = Channel.kNoneEvent
  · cases now with
    | absent | registered | parked => simp [Registration.update, idle]
  · cases now with
    | absent | registered | parked => simp [Registration.update, idle]

/-- Behind any calls, a second `updateChannel` leaves what the first one left exactly
if the channel is interested in something. -/
theorem update_twice_iff (reached : (pollerSystem tracked).Reachable p) (member : c ∈ tracked)
    (ran : perform p (.update c events) = .ok q) :
    Repeats q c ↔ events ≠ Channel.kNoneEvent := by
  obtain ⟨registry, tracks⟩ := reachable_tracks reached
  obtain ⟨after, ran', wanted, stands, -⟩ := perform_update_spec events (tracks.stands c member)
  obtain rfl : after = q := Except.ok.inj (ran'.symm.trans ran)
  rw [repeats_iff stands, wanted, registration_update_twice_iff]

/-- A channel that has just started to read. -/
theorem reading_repeats :
    ∃ p, perform freshPoller (.update 3 epollIn) = .ok p ∧ Repeats p 3 := by
  have called : ∃ p, perform freshPoller (.update 3 epollIn) = .ok p := ⟨_, rfl⟩
  obtain ⟨p, ran⟩ := called
  exact ⟨p, ran, (update_twice_iff (.start freshPoller_start) trivial ran).mpr (by decide)⟩

/-- Disabled twice, channel 3 is in the kernel again, with an empty mask. -/
theorem disabling_twice_registers : ¬ UpdateIdempotent := by
  intro idempotent
  have called : ∃ p, perform freshPoller (.update 3 epollIn) = .ok p ∧
      ∃ q, perform p (.update 3 Channel.kNoneEvent) = .ok q ∧ q.epoll 3 = none ∧
        ∃ r, q.updateChannel 3 = .ok r ∧ r.epoll 3 = some ⟨Channel.kNoneEvent, 3⟩ :=
    ⟨_, rfl, _, rfl, rfl, _, rfl, rfl⟩
  obtain ⟨p, reads, q, disabled, out, r, again, back⟩ := called
  have reached : (pollerSystem Set.univ).Reachable p :=
    .step (.start freshPoller_start) ⟨trivial, reads⟩
  obtain ⟨_, again', same⟩ := idempotent _ _ _ _ _ reached trivial disabled
  obtain rfl := Except.ok.inj (again.symm.trans again')
  rw [same.epoll, out] at back
  cases back

end MiniMuduo.UpdateIdempotence
