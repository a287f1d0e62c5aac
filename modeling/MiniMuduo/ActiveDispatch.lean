import MiniMuduo.ActiveChannels

/-! One dispatch pass of `EventLoop::loop`: the active channels of one poll, each told
to handle its saved events, while their callbacks call back into the loop. Nothing
asks whether a channel is still registered when its turn comes: a removed channel is
spared exactly if nobody removes the channel of a callback that is still to start. -/
namespace MiniMuduo.ActiveDispatch
open EPollPoller PollerCoherence ActiveChannels

/-- What a callback does with a channel of the loop. -/
inductive LoopCall where
  /-- A change of its interest. -/
  | interest (channel : ChannelPtr) (events : Mask)
  /-- `EventLoop::updateChannel`. -/
  | update (channel : ChannelPtr)
  /-- `disableAll()`, then `EventLoop::removeChannel`, which does nothing while there
  is interest. -/
  | remove (channel : ChannelPtr)
  deriving DecidableEq, Repr

def LoopCall.channel : LoopCall → ChannelPtr
  | .interest channel _ | .update channel | .remove channel => channel

def LoopCall.perform (p : EPollPoller) : LoopCall → Except Exit EPollPoller
  | .interest c events => .ok (p.modify c (fun channel => { channel with events := events }))
  | .update c => p.updateChannel c
  | .remove c => (p.modify c Channel.disableAll).removeChannel c

/-- A poller under such calls for the given channels, from its constructor on. -/
def callSystem (channels : Set ChannelPtr) : StepSystem EPollPoller LoopCall where
  Start := (pollerSystem channels).Start
  Step p call q := call.channel ∈ channels ∧ call.perform p = .ok q

/-- The four callbacks of a channel. -/
inductive CallbackKind where
  | close
  | error
  | read
  | write
  deriving DecidableEq, Repr

/-- One entry of `activeChannels_`, with what its turn will find: whether `tie_.lock()`
succeeds, and which of the channel's callbacks are set. -/
structure Active where
  channel : ChannelPtr
  lock : Bool
  isSet : CallbackKind → Bool

/-- A callback of a channel. -/
structure Invocation where
  channel : ChannelPtr
  kind : CallbackKind
  deriving DecidableEq, Repr

inductive PassEvent where
  | started (invocation : Invocation)
  | removed (channel : ChannelPtr)
  deriving DecidableEq, Repr

/-- A pass: the poller, what the callbacks still to be started will do, and what has
happened. -/
structure Pass where
  poller : EPollPoller
  behaviour : List (List LoopCall)
  trace : List PassEvent

/-- An action of the loop thread, which a `LOG_FATAL` ends. -/
abbrev PassM := EStateM Exit Pass

/-- What a call that went from `p` to `q` removed. -/
def removals (p q : EPollPoller) (c : ChannelPtr) : List PassEvent :=
  if p.hasChannel c && !q.hasChannel c then [.removed c] else []

def makeCall (call : LoopCall) : PassM Unit := do
  let s ← get
  match call.perform s.poller with
  | .error exit => throw exit
  | .ok q => set { s with
      poller := q
      trace := s.trace ++ removals s.poller q call.channel }

def makeCalls : List LoopCall → PassM Unit
  | [] => pure ()
  | call :: calls => do
    makeCall call
    makeCalls calls

/-- A callback is recorded, and does what it will. -/
def invoke (invocation : Invocation) : PassM Unit := do
  let s ← get
  set { s with behaviour := s.behaviour.tail, trace := s.trace ++ [PassEvent.started invocation] }
  makeCalls (s.behaviour.headD [])

def callback (active : Active) (kind : CallbackKind) : Option (PassM Unit) :=
  if active.isSet kind then some (invoke ⟨active.channel, kind⟩) else none

def callbacks (active : Active) : Channel.Callbacks PassM where
  readCallback := (callback active .read).map fun action _ => action
  writeCallback := callback active .write
  closeCallback := callback active .close
  errorCallback := callback active .error

/-- The channel object at an address. -/
def channelAt (c : ChannelPtr) : PassM Channel := return (← get).poller.heap c

/-- The loop over `activeChannels_` in `EventLoop::loop`. -/
def dispatch (pollReturnTime : Timestamp) : List Active → PassM Unit
  | [] => pure ()
  | active :: actives => do
    Channel.handleEvent (return (← channelAt active.channel).tied) active.lock
      (return (← channelAt active.channel).revents) (callbacks active) pollReturnTime
    dispatch pollReturnTime actives

/-- No callback of a channel starts after the channel was removed. -/
def SilentAfterRemoval (trace : List PassEvent) : Prop :=
  trace.Pairwise fun earlier later =>
    ∀ c kind, earlier = .removed c → later ≠ .started ⟨c, kind⟩

/-- The callback of this kind, if it is set and `revents_` asks for it. -/
def turn (active : Active) (kind : CallbackKind) (asked : Bool) : List Invocation :=
  if asked && active.isSet kind then [⟨active.channel, kind⟩] else []

/-- What `handleEventWithGuard` tests for each callback, in its order. -/
def tests : List (CallbackKind × (Mask → Bool)) :=
  [(.close, fun revents => revents.has epollHup && !revents.has epollIn),
    (.error, fun revents => revents.has epollErr),
    (.read, fun revents => revents.has (epollIn ||| epollPri)),
    (.write, fun revents => revents.has epollOut)]

/-- The callbacks that a channel starts in its turn, by its saved events. -/
def turns (active : Active) (channel : Channel) : List Invocation :=
  if channel.tied && !active.lock then []
  else tests.flatMap fun test => turn active test.1 (test.2 channel.revents)

/-- All callbacks of the pass, in order, by what was saved when it began. -/
def plan (heap : ChannelPtr → Channel) (actives : List Active) : List Invocation :=
  actives.flatMap fun active => turns active (heap active.channel)

/-- No callback removes the channel of a callback that comes later. -/
def Spares : List Invocation → List (List LoopCall) → Prop
  | [], _ => True
  | _ :: later, behaviour =>
    (∀ next ∈ later, .remove next.channel ∉ behaviour.headD []) ∧ Spares later behaviour.tail

variable {tracked : Set ChannelPtr} {p q : EPollPoller} {c d : ChannelPtr} {now : Registration}
variable {call : LoopCall} {script more : List LoopCall} {s t u : Pass}

/-! ### One call -/

/-- The map knows a channel that is registered or parked. -/
theorem stands_known (stands : Stands p c now) : p.hasChannel c = true ↔ now ≠ .absent := by
  cases now with
  | absent => simp [hasChannel, stands.2.1]
  | registered => simp [hasChannel, stands.2.1]
  | parked => simp [hasChannel, stands.2.1]

theorem stands_modify (events : Mask) (stands : Stands p c now) :
    Stands (p.modify c (fun channel => { channel with events := events })) c now := by
  cases now <;> simpa [Stands, EPollPoller.modify] using stands

/-- What a call that succeeded did: only a removal makes the map forget the channel. -/
structure Performed (channels : Set ChannelPtr) (p : EPollPoller) (call : LoopCall)
    (q : EPollPoller) : Prop where
  placed : Placed channels q
  touches : Touches p q call.channel
  others : ∀ d ∈ channels, d ≠ call.channel → q.hasChannel d = p.hasChannel d
  keeps : call ≠ .remove call.channel → p.hasChannel call.channel = true →
    q.hasChannel call.channel = true
  forgets : call = .remove call.channel → q.hasChannel call.channel = false

theorem performed_of_touches {next : Registration} (placed : Placed tracked p)
    (inside : call.channel ∈ tracked) (touches : Touches p q call.channel)
    (before : Stands p call.channel now) (after : Stands q call.channel next)
    (keeps : call ≠ .remove call.channel → now ≠ .absent → next ≠ .absent)
    (forgets : call = .remove call.channel → next = .absent) : Performed tracked p call q where
  placed := placed_of_touches placed inside touches after
  touches := touches
  others := by
    intro d member different
    have apart : (p.heap d).fd ≠ (p.heap call.channel).fd :=
      fun equal => different (placed.distinct member inside equal)
    simp only [hasChannel, touches.fd, touches.channels _ apart]
  keeps := fun other known =>
    (stands_known after).mpr (keeps other ((stands_known before).mp known))
  forgets := fun removes => by
    rw [← Bool.not_eq_true, stands_known after, not_not]
    exact forgets removes

/-- Every call for a placed channel succeeds. -/
theorem perform_spec (placed : Placed tracked p) (inside : call.channel ∈ tracked) :
    ∃ q, call.perform p = .ok q ∧ Performed tracked p call q := by
  obtain ⟨now, stands⟩ := placed.stands _ inside
  cases call with
  | interest c events =>
    exact ⟨_, rfl, performed_of_touches placed inside (modify_touches p c events) stands
      (stands_modify events stands) (fun _ => id) nofun⟩
  | update c =>
    obtain ⟨q, ran, _, after, touches⟩ := updateChannel_spec stands
    refine ⟨q, ran, performed_of_touches placed inside touches stands after ?_ nofun⟩
    intro _ _
    cases now with
    | absent | parked => exact nofun
    | registered mask =>
      rw [Registration.update]
      split <;> exact nofun
  | remove c =>
    obtain ⟨q, ran, _, after, touches⟩ :=
      removeChannel_spec (stands_modify Channel.kNoneEvent stands)
    refine ⟨q, ran, performed_of_touches placed inside ((modify_touches p c _).trans touches)
      stands after (fun other => absurd rfl other) fun _ => ?_⟩
    simp [Registration.remove, EPollPoller.modify]

/-- The pass has the channel in the map, or has seen it removed. -/
def Known (s : Pass) (c : ChannelPtr) : Prop :=
  s.poller.hasChannel c = true ∨ .removed c ∈ s.trace

/-- What calls do to a pass. They record the removals they make and nothing else, and
leave what the turns of the channels go by. -/
structure Ran (channels : Set ChannelPtr) (script : List LoopCall) (s t : Pass) : Prop where
  placed : Placed channels t.poller
  behaviour : t.behaviour = s.behaviour
  saved : ∀ c, (t.poller.heap c).revents = (s.poller.heap c).revents ∧
    (t.poller.heap c).tied = (s.poller.heap c).tied
  trace : ∃ removed : List ChannelPtr, t.trace = s.trace ++ removed.map .removed
  removed : ∀ c ∈ channels, Known s c → Known t c ∧
    (.removed c ∈ t.trace ↔ .removed c ∈ s.trace ∨ .remove c ∈ script)

theorem touches_saved (touches : Touches p q c) (d : ChannelPtr) :
    (q.heap d).revents = (p.heap d).revents ∧ (q.heap d).tied = (p.heap d).tied := by
  by_cases same : d = c
  · obtain ⟨index, events, channel⟩ := touches.channel
    rw [same, channel]
    exact ⟨rfl, rfl⟩
  · rw [touches.heap d same]
    exact ⟨rfl, rfl⟩

/-- The pass after a call that went well. -/
def after (s : Pass) (call : LoopCall) (q : EPollPoller) : Pass :=
  { s with poller := q, trace := s.trace ++ removals s.poller q call.channel }

theorem mem_removals : .removed d ∈ removals p q c ↔
    d = c ∧ p.hasChannel c = true ∧ q.hasChannel c = false := by
  unfold removals
  split
  · rename_i forgot
    obtain ⟨before, gone⟩ := Bool.and_eq_true _ _ ▸ forgot
    have gone : q.hasChannel c = false := by simpa using gone
    simp [before, gone]
  · rename_i kept
    simp only [List.not_mem_nil, false_iff]
    rintro ⟨_, before, gone⟩
    simp [before, gone] at kept

/-- A known channel is recorded as removed by the call that removes it. -/
theorem after_removed (performed : Performed tracked s.poller call q) (member : d ∈ tracked)
    (known : Known s d) : Known (after s call q) d ∧
      (.removed d ∈ (after s call q).trace ↔ .removed d ∈ s.trace ∨ .remove d ∈ [call]) := by
  simp only [Known, after, List.mem_append, List.mem_singleton, mem_removals] at known ⊢
  by_cases here : d = call.channel
  · subst here
    by_cases removes : call = .remove call.channel
    · simp only [performed.forgets removes, ← removes]
      simpa using known.symm
    · have keeps := performed.keeps removes
      have other : ¬ LoopCall.remove call.channel = call := fun equal => removes equal.symm
      simp only [other, or_false]
      rcases known with known | removed
      · simp [keeps known]
      · simp [removed]
  · have other : ¬ LoopCall.remove d = call := fun equal => here (by rw [← equal]; rfl)
    simp only [performed.others d member here, here, other, false_and, or_false, known]
    simp

theorem makeCall_ran (placed : Placed tracked s.poller) (inside : call.channel ∈ tracked) :
    ∃ t, makeCall call s = .ok () t ∧ Ran tracked [call] s t := by
  obtain ⟨q, ran, performed⟩ := perform_spec placed inside
  refine ⟨after s call q, ?_, performed.placed, rfl, touches_saved performed.touches, ?_,
    fun d member known => after_removed performed member known⟩
  · have read : (get : PassM Pass) s = .ok s s := rfl
    simp only [makeCall, bind, EStateM.bind, read, ran]
    rfl
  · simp only [after, removals]
    split
    · exact ⟨[call.channel], rfl⟩
    · exact ⟨[], rfl⟩

/-! ### One callback, and all of them -/

theorem Ran.nil (placed : Placed tracked s.poller) : Ran tracked [] s s where
  placed := placed
  behaviour := rfl
  saved := fun _ => ⟨rfl, rfl⟩
  trace := ⟨[], by simp⟩
  removed := fun c _ known => ⟨known, by simp⟩

theorem Ran.append (first : Ran tracked script s t) (second : Ran tracked more t u) :
    Ran tracked (script ++ more) s u where
  placed := second.placed
  behaviour := second.behaviour.trans first.behaviour
  saved := fun c => ⟨(second.saved c).1.trans (first.saved c).1,
    (second.saved c).2.trans (first.saved c).2⟩
  trace := by
    obtain ⟨removed, before⟩ := first.trace
    obtain ⟨later, after⟩ := second.trace
    exact ⟨removed ++ later, by rw [after, before, List.map_append, List.append_assoc]⟩
  removed := by
    intro c member known
    obtain ⟨known, before⟩ := first.removed c member known
    obtain ⟨known, after⟩ := second.removed c member known
    exact ⟨known, by rw [after, before, List.mem_append, or_assoc]⟩

/-- An action, after one that went well. -/
theorem then_ok {first next : PassM Unit} (ran : first s = .ok () t) :
    (first >>= fun _ => next) s = next t := by
  simp only [bind, EStateM.bind, ran]

theorem makeCalls_ran (placed : Placed tracked s.poller)
    (inside : ∀ call ∈ script, call.channel ∈ tracked) :
    ∃ t, makeCalls script s = .ok () t ∧ Ran tracked script s t := by
  induction script generalizing s with
  | nil => exact ⟨s, rfl, .nil placed⟩
  | cons call script ih =>
    obtain ⟨t, called, first⟩ := makeCall_ran placed (inside call List.mem_cons_self)
    obtain ⟨u, ran, rest⟩ :=
      ih first.placed fun later member => inside later (List.mem_cons_of_mem _ member)
    exact ⟨u, (then_ok called).trans ran, first.append rest⟩

/-- A pass whose channels, and all that its callbacks will name, are placed. -/
def Sound (channels : Set ChannelPtr) (s : Pass) : Prop :=
  Placed channels s.poller ∧ ∀ script ∈ s.behaviour, ∀ call ∈ script, call.channel ∈ channels

/-- The pass as a callback finds it. -/
def starting (s : Pass) (invocation : Invocation) : Pass :=
  { s with behaviour := s.behaviour.tail, trace := s.trace ++ [.started invocation] }

theorem sound_script (sound : Sound tracked s) :
    ∀ call ∈ s.behaviour.headD [], call.channel ∈ tracked := by
  obtain ⟨poller, behaviour, trace⟩ := s
  cases behaviour with
  | nil => nofun
  | cons script rest => exact sound.2 script List.mem_cons_self

/-- A callback starts, and does what it will. -/
theorem invoke_ran (sound : Sound tracked s) (invocation : Invocation) :
    ∃ t, invoke invocation s = .ok () t ∧
      Ran tracked (s.behaviour.headD []) (starting s invocation) t ∧ Sound tracked t := by
  obtain ⟨t, called, ran⟩ := makeCalls_ran (s := starting s invocation) sound.1
    (sound_script sound)
  refine ⟨t, called, ran, ran.placed, ?_⟩
  rw [ran.behaviour]
  exact fun script member => sound.2 script (List.mem_of_mem_tail member)

/-- All callbacks of a plan, one after the other. -/
def invokeAll : List Invocation → PassM Unit
  | [] => pure ()
  | invocation :: later => do
    invoke invocation
    invokeAll later

theorem silent_started {trace : List PassEvent} {invocation : Invocation} :
    SilentAfterRemoval (trace ++ [.started invocation]) ↔
      SilentAfterRemoval trace ∧ .removed invocation.channel ∉ trace := by
  simp only [SilentAfterRemoval, List.pairwise_append, List.pairwise_singleton, true_and,
    List.mem_singleton, forall_eq, and_congr_right_iff]
  refine fun _ => ⟨fun silent member => silent _ member _ invocation.kind rfl rfl, ?_⟩
  rintro fresh _ member c kind rfl equal
  obtain rfl := PassEvent.started.inj equal
  exact fresh member

theorem silent_removed {trace : List PassEvent} {removed : List ChannelPtr} :
    SilentAfterRemoval (trace ++ removed.map .removed) ↔ SilentAfterRemoval trace := by
  simp only [SilentAfterRemoval, List.pairwise_append, List.pairwise_map]
  constructor
  · exact And.left
  · refine fun silent => ⟨silent, ?_, ?_⟩
    · exact List.pairwise_of_forall fun _ _ => nofun
    · rintro _ _ _ member c kind _ rfl
      obtain ⟨d, _, equal⟩ := List.mem_map.mp member
      cases equal

variable {due later : List Invocation} {invocation : Invocation}

/-- What the turns of the channels go by is as it was. -/
def Saved (s t : Pass) : Prop :=
  ∀ c, (t.poller.heap c).revents = (s.poller.heap c).revents ∧
    (t.poller.heap c).tied = (s.poller.heap c).tied

theorem Saved.trans (first : Saved s t) (second : Saved t u) : Saved s u :=
  fun c => ⟨(second c).1.trans (first c).1, (second c).2.trans (first c).2⟩

/-- A channel is recorded as removed after a callback if it was before, or if the
callback removes it. -/
theorem invoke_removed (ran : Ran tracked script (starting s invocation) t) (member : c ∈ tracked)
    (known : Known s c) :
    Known t c ∧ (.removed c ∈ t.trace ↔ .removed c ∈ s.trace ∨ .remove c ∈ script) := by
  have started : Known (starting s invocation) c :=
    known.imp id (List.mem_append_left _)
  obtain ⟨known, removed⟩ := ran.removed c member started
  refine ⟨known, removed.trans ?_⟩
  simp [starting]

theorem invoke_silent (ran : Ran tracked script (starting s invocation) t) :
    SilentAfterRemoval t.trace ↔
      SilentAfterRemoval s.trace ∧ .removed invocation.channel ∉ s.trace := by
  obtain ⟨removed, trace⟩ := ran.trace
  rw [trace, silent_removed]
  exact silent_started

/-- What callbacks leave for those that come after them. -/
structure Went (channels : Set ChannelPtr) (s t : Pass) : Prop where
  sound : Sound channels t
  saved : Saved s t
  known : ∀ c ∈ channels, Known s c → Known t c

/-- The channels of these callbacks are known. -/
def AllKnown (channels : Set ChannelPtr) (s : Pass) (due : List Invocation) : Prop :=
  ∀ next ∈ due, next.channel ∈ channels ∧ Known s next.channel

/-- Callbacks of known channels, one after the other: a removed channel is spared
exactly if nobody removes the channel of one that comes later. -/
theorem invokeAll_silent (sound : Sound tracked s) (known : AllKnown tracked s due) :
    ∃ t, invokeAll due s = .ok () t ∧ Went tracked s t ∧
      (SilentAfterRemoval t.trace ↔ SilentAfterRemoval s.trace ∧
        (∀ next ∈ due, .removed next.channel ∉ s.trace) ∧ Spares due s.behaviour) := by
  induction due generalizing s with
  | nil => exact ⟨s, rfl, ⟨sound, fun _ => ⟨rfl, rfl⟩, fun _ _ => id⟩, by simp [Spares]⟩
  | cons invocation later ih =>
    obtain ⟨t, called, ran, sound⟩ := invoke_ran sound invocation
    have laterKnown : AllKnown tracked s later :=
      fun next member => known next (List.mem_cons_of_mem _ member)
    obtain ⟨u, rest, went, silent⟩ := ih sound fun next member =>
      ⟨(laterKnown next member).1,
        (invoke_removed ran (laterKnown next member).1 (laterKnown next member).2).1⟩
    have fresh : (∀ next ∈ later, .removed next.channel ∉ t.trace) ↔
        (∀ next ∈ later, .removed next.channel ∉ s.trace) ∧
          ∀ next ∈ later, .remove next.channel ∉ s.behaviour.headD [] := by
      rw [← forall₂_and]
      refine forall₂_congr fun next member => ?_
      obtain ⟨inside, known⟩ := laterKnown next member
      rw [(invoke_removed ran inside known).2, not_or]
    refine ⟨u, (then_ok called).trans rest, ⟨went.sound, .trans ran.saved went.saved,
      fun c member known => went.known c member (invoke_removed ran member known).1⟩, ?_⟩
    · rw [silent, fresh, invoke_silent ran, ran.behaviour, List.forall_mem_cons, Spares]
      simp only [starting]
      tauto

/-! ### The pass -/

theorem invokeAll_append (due later : List Invocation) (s : Pass) :
    invokeAll (due ++ later) s = (invokeAll due >>= fun _ => invokeAll later) s := by
  induction due generalizing s with
  | nil => rfl
  | cons invocation due ih =>
    simp only [List.cons_append, invokeAll, bind, EStateM.bind]
    cases invoke invocation s with
    | ok _ t => exact ih t
    | error _ _ => rfl

variable {active : Active} {actives : List Active} {time : Timestamp}

/-- One test of the guard, and the callback it decides on. -/
def attempt (active : Active) (test : CallbackKind × (Mask → Bool)) : PassM Unit := do
  if test.2 (← channelAt active.channel).revents then
    Channel.runCallback (callback active test.1)

def attempts (active : Active) : List (CallbackKind × (Mask → Bool)) → PassM Unit
  | [] => pure ()
  | test :: later => do
    attempt active test
    attempts active later

/-- The guard makes its tests one after the other. -/
theorem handleEventWithGuard_eq (active : Active) (time : Timestamp) :
    Channel.handleEventWithGuard (return (← channelAt active.channel).revents) (callbacks active)
      time = attempts active tests := by
  have reads : Channel.runCallback ((callbacks active).readCallback.map (· time)) =
      Channel.runCallback (callback active .read) := by
    simp only [callbacks, callback]
    split <;> rfl
  simp only [Channel.handleEventWithGuard, reads, attempts, tests, attempt, Channel.branch_then,
    bind_assoc, pure_bind, bind_pure_unit]
  rfl

/-- A test runs the callback that the saved events ask for, if that is set. -/
theorem attempt_eq (active : Active) (test : CallbackKind × (Mask → Bool)) (s : Pass) :
    attempt active test s = invokeAll
      (turn active test.1 (test.2 (s.poller.heap active.channel).revents)) s := by
  have found : attempt active test s =
      (if test.2 (s.poller.heap active.channel).revents then
        Channel.runCallback (callback active test.1) else pure ()) s := rfl
  rw [found]
  unfold turn callback
  cases test.2 (s.poller.heap active.channel).revents with
  | false => rfl
  | true =>
    cases active.isSet test.1 with
    | false => rfl
    | true =>
      show invoke ⟨active.channel, test.1⟩ s = (invoke ⟨active.channel, test.1⟩ >>= pure) s
      rw [bind_pure]

theorem turn_known {kind : CallbackKind} {asked : Bool} (member : active.channel ∈ tracked)
    (known : Known s active.channel) : AllKnown tracked s (turn active kind asked) := by
  intro next turned
  unfold turn at turned
  split at turned
  · obtain rfl := List.mem_singleton.mp turned
    exact ⟨member, known⟩
  · cases turned

/-- The tests run the callbacks that the saved events ask for. -/
theorem attempts_eq (sound : Sound tracked s) (member : active.channel ∈ tracked)
    (known : Known s active.channel) (list : List (CallbackKind × (Mask → Bool))) :
    attempts active list s = invokeAll (list.flatMap fun test =>
      turn active test.1 (test.2 (s.poller.heap active.channel).revents)) s := by
  induction list generalizing s with
  | nil => rfl
  | cons test later ih =>
    obtain ⟨t, ran, went, _⟩ := invokeAll_silent sound (turn_known member known)
    have first : attempt active test s = .ok () t := (attempt_eq active test s).trans ran
    rw [List.flatMap_cons, invokeAll_append, then_ok ran, attempts, then_ok first,
      ih went.sound (went.known _ member known), (went.saved _).1]

theorem turns_known (member : active.channel ∈ tracked) (known : Known s active.channel)
    (channel : Channel) : AllKnown tracked s (turns active channel) := by
  intro next turned
  unfold turns at turned
  split at turned
  · cases turned
  · obtain ⟨test, _, turned⟩ := List.mem_flatMap.mp turned
    exact turn_known member known next turned

/-- `handleEvent` runs the callbacks of the channel's turn. -/
theorem handleEvent_eq (sound : Sound tracked s) (member : active.channel ∈ tracked)
    (known : Known s active.channel) :
    Channel.handleEvent (return (← channelAt active.channel).tied) active.lock
        (return (← channelAt active.channel).revents) (callbacks active) time s =
      invokeAll (turns active (s.poller.heap active.channel)) s := by
  have found : Channel.handleEvent (return (← channelAt active.channel).tied) active.lock
        (return (← channelAt active.channel).revents) (callbacks active) time s =
      (if (s.poller.heap active.channel).tied then
        if active.lock then attempts active tests else pure ()
      else attempts active tests) s := by
    rw [← handleEventWithGuard_eq active time]
    rfl
  rw [found]
  unfold turns
  cases (s.poller.heap active.channel).tied <;> cases active.lock <;>
    first | rfl | exact attempts_eq sound member known tests

theorem plan_saved (saved : Saved s t) (actives : List Active) :
    plan t.poller.heap actives = plan s.poller.heap actives := by
  simp only [plan, turns, (saved _).1, (saved _).2]

/-- The pass runs the callbacks of its plan. -/
theorem dispatch_eq (sound : Sound tracked s)
    (known : ∀ active ∈ actives, active.channel ∈ tracked ∧ Known s active.channel) :
    dispatch time actives s = invokeAll (plan s.poller.heap actives) s := by
  induction actives generalizing s with
  | nil => rfl
  | cons active actives ih =>
    obtain ⟨member, first⟩ := known active List.mem_cons_self
    obtain ⟨t, ran, went, _⟩ := invokeAll_silent sound
      (turns_known member first (s.poller.heap active.channel))
    have later : ∀ active ∈ actives, active.channel ∈ tracked ∧ Known t active.channel :=
      fun next listed =>
        have inside := known next (List.mem_cons_of_mem _ listed)
        ⟨inside.1, went.known _ inside.1 inside.2⟩
    rw [plan, List.flatMap_cons, invokeAll_append, then_ok ran, dispatch,
      then_ok ((handleEvent_eq sound member first).trans ran), ih went.sound later,
      plan_saved went.saved, plan]

theorem callSystem_placed (reached : (callSystem tracked).Reachable p) : Placed tracked p := by
  refine reached.invariant ?_ ?_
  · exact fun _ start => start_placed start
  · rintro p call q placed ⟨inside, ran⟩
    obtain ⟨after, done, performed⟩ := perform_spec placed inside
    obtain rfl := Except.ok.inj (done.symm.trans ran)
    exact performed.placed

/-- The pass that follows a poll. -/
def polled (ndebug : Bool) (p : EPollPoller) (events : List EpollEvent)
    (behaviour : List (List LoopCall)) : Pass :=
  ⟨(p.fillActiveChannels ndebug events []).1, behaviour, []⟩

/-- What a pass is about: a poller after calls for the given channels, a batch that the
kernel can report, the active channels made of it, and callbacks that do anything with
the given channels. -/
structure Dispatchable (channels : Set ChannelPtr) (ndebug : Bool) (p : EPollPoller)
    (events : List EpollEvent) (actives : List Active) (behaviour : List (List LoopCall)) :
    Prop where
  reached : (callSystem channels).Reachable p
  reports : Reports p events
  filled : actives.map Active.channel = (p.fillActiveChannels ndebug events []).2
  inside : ∀ script ∈ behaviour, ∀ call ∈ script, call.channel ∈ channels

variable {ndebug : Bool} {events : List EpollEvent} {behaviour : List (List LoopCall)}

/-- Whatever the callbacks do, the pass comes to its end, and no callback of a removed
channel starts in it exactly if none removes the channel of a callback that is still
to come. -/
theorem removed_channels_silent_iff
    (pass : Dispatchable tracked ndebug p events actives behaviour) :
    ∃ final, dispatch time actives (polled ndebug p events behaviour) = .ok () final ∧
      (SilentAfterRemoval final.trace ↔
        Spares (plan (polled ndebug p events behaviour).poller.heap actives) behaviour) := by
  have placed := callSystem_placed pass.reached
  have sound : Sound tracked (polled ndebug p events behaviour) :=
    ⟨fill_invariant (fun _ c revents placed => setRevents_placed placed c revents) placed,
      pass.inside⟩
  have known : ∀ active ∈ actives, active.channel ∈ tracked ∧
      Known (polled ndebug p events behaviour) active.channel := by
    intro active member
    have listed : active.channel ∈ events.map EpollEvent.ptr := by
      have channel := List.mem_map_of_mem (f := Active.channel) member
      rwa [pass.filled, fill_list placed pass.reports] at channel
    obtain ⟨event, reported, same⟩ := List.mem_map.mp listed
    obtain ⟨fd, mask, entered⟩ := reported_registered pass.reports event reported
    rw [same] at entered
    refine ⟨(placed.owned _ _ entered).1, Or.inl ?_⟩
    rw [polled, fill_hasChannel, registered_known placed entered]
  have due : AllKnown tracked (polled ndebug p events behaviour)
      (plan (polled ndebug p events behaviour).poller.heap actives) := by
    intro next planned
    obtain ⟨active, member, turned⟩ := List.mem_flatMap.mp planned
    exact turns_known (known active member).1 (known active member).2 _ next turned
  obtain ⟨final, ran, _, silent⟩ := invokeAll_silent sound due
  refine ⟨final, (dispatch_eq sound known).trans ran, silent.trans ?_⟩
  simp [polled, SilentAfterRemoval]

/-- A removed channel is not dispatched. -/
def RemovedNotDispatched : Prop :=
  ∀ (channels : Set ChannelPtr) (ndebug : Bool) (p : EPollPoller) (events : List EpollEvent)
    (actives : List Active) (behaviour : List (List LoopCall)) (time : Timestamp) (final : Pass),
    Dispatchable channels ndebug p events actives behaviour →
    dispatch time actives (polled ndebug p events behaviour) = .ok () final →
    SilentAfterRemoval final.trace

/-- A poller none of whose channels is known to it, all of them tied. -/
def tiedPoller : EPollPoller where
  heap c := { fd := c, tied := true }
  channels _ := none
  epoll _ := none
  errors := []

def registering : List LoopCall :=
  [.interest 3 epollIn, .update 3, .interest 5 epollIn, .update 5]

/-- Channels 3 and 5 have registered for reading. -/
def twoRegistered : EPollPoller :=
  (StepSystem.play (fun p call => (LoopCall.perform p call).toOption) tiedPoller
    registering).getD tiedPoller

/-- Both are readable in the same poll, and what they are tied to is alive. -/
def bothReadable : List EpollEvent := [⟨epollIn, 3⟩, ⟨epollIn, 5⟩]

def bothActive : List Active := [⟨3, true, fun _ => true⟩, ⟨5, true, fun _ => true⟩]

theorem both_dispatchable (behaviour : List (List LoopCall)) :
    Dispatchable Set.univ true twoRegistered bothReadable bothActive behaviour where
  reached := by
    have played : StepSystem.play (fun p call => (LoopCall.perform p call).toOption) tiedPoller
        registering = some twoRegistered := rfl
    refine ⟨tiedPoller, registering, ?_, .of_play_ok (fun _ _ _ ran => ⟨trivial, ran⟩) played⟩
    exact ⟨fun _ _ _ _ equal => Int.ofNat.inj equal, fun _ _ => rfl, fun _ => rfl, fun _ => rfl⟩
  reports := ⟨[3, 5], by decide, .cons ⟨epollIn, rfl⟩ (.cons ⟨epollIn, rfl⟩ .nil)⟩
  filled := rfl
  inside := fun _ _ _ _ => trivial

/-- Channel 3 removes itself, and channel 5 is read. -/
theorem own_channel_removed : ∃ final,
    dispatch 0 bothActive (polled true twoRegistered bothReadable [[.remove 3]]) = .ok () final ∧
      SilentAfterRemoval final.trace := by
  obtain ⟨final, ran, silent⟩ := removed_channels_silent_iff (both_dispatchable [[.remove 3]])
  refine ⟨final, ran, silent.mpr ?_⟩
  show Spares [⟨3, .read⟩, ⟨5, .read⟩] [[.remove 3]]
  simp [Spares]

/-- Channel 3 removes channel 5, whose callback starts all the same. -/
theorem later_channel_removed : ¬ RemovedNotDispatched := by
  intro spared
  have silent := spared _ _ _ _ _ [[.remove 5]] 0 _ (both_dispatchable _) rfl
  have trace : SilentAfterRemoval
      [.started ⟨3, .read⟩, .removed 5, .started ⟨5, .read⟩] := silent
  simp [SilentAfterRemoval] at trace

end MiniMuduo.ActiveDispatch
