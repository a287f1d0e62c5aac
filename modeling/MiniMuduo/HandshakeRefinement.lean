import MiniMuduo.EventLoopThread
import MiniMuduo.StartLoop

/-! The two models of `EventLoopThread.cc` agree. As long as only its two threads call into
the loop, and `loop_` is not cleared between the destructor's test and its call of
`quit()`, an `EventLoopThread` whose locks and accesses are steps of their own does
nothing that it does not do with a section under `mutex_` as one step. -/
namespace MiniMuduo.HandshakeRefinement
open Handshake StartLoop
open EventLoop (calls_kept idle_of_isIdle step_transition)

variable {Functor : Type} {owner user t : Tid} {s next : Handshake Functor}
variable {action : HandshakeAction Functor} {request : LoopAction Functor}
variable {loop after : EventLoop Functor} {above : LoopThread Functor}

/-- The step is one of the two threads, and no `loop_ = nullptr` between the destructor's
test of `loop_` and its call of `quit()`. -/
structure Paired (owner user : Tid) (s : Handshake Functor) (action : HandshakeAction Functor) :
    Prop where
  callers : ∀ t call, action = .inLoop (.call t call) → t = owner ∨ t = user
  clear : action = .func → s.func = .clearing → s.user ≠ .callQuit

def pairedSystem (Functor : Type) (owner user : Tid) :
    StepSystem (Handshake Functor) (HandshakeAction Functor) :=
  (handshakeSystem Functor owner user).restrict (Paired owner user)

/-! ### Where the threads stand in the loop -/

theorem advance_busy (stepped : loop.step owner (.advance t) = some after) :
    loop.calls t ≠ .idle := by
  intro idle
  simp [EventLoop.step, EventLoop.advance, idle] at stepped

theorem call_idle {call : Request Functor}
    (stepped : loop.step owner (.call t call) = some after) : loop.calls t = .idle := by
  cases step_transition stepped with
  | call _ idle _ => exact idle

theorem quit_called (stepped : loop.step owner (.call t .quit) = some after) :
    (after.calls t).isIdle = false := by
  cases step_transition stepped with
  | call =>
    rw [EventLoop.beginCall, EventLoop.setCall_same]
    rfl

/-- Only a call makes an idle thread busy. -/
theorem idle_kept (stepped : loop.step owner request = some after) (idle : loop.calls t = .idle)
    (silent : ∀ call, request ≠ .call t call) : after.calls t = .idle := by
  have still : request ≠ .advance t := by
    rintro rfl
    exact advance_busy stepped idle
  rw [calls_kept (step_transition stepped) silent still, idle]

open EventLoop in
/-- `loop()` does not begin by itself. -/
theorem outside_kept (stepped : loop.step owner request = some after)
    (outside : loop.pc = .outside) (enters : request ≠ .enterLoop) : after.pc = .outside := by
  cases step_transition stepped with
  | call call _ _ =>
    obtain ⟨calls, begun⟩ := beginCall_eq owner loop _ call
    rw [begun]
    exact outside
  | push | queueTestWakes | queueTestSkips | storeQuit | quitTestWakes | quitTestSkips =>
    exact outside
  | wakeup =>
    obtain ⟨counter, errors, _, written⟩ := wakeup_eq loop
    rw [written]
    exact outside
  | enterLoop => exact absurd rfl enters
  | setLooping _ pc | resetQuit _ pc | stop _ pc _ | poll _ pc _ | pollReturns _ pc
  | dispatched _ pc | setCalling _ pc | swap _ pc | callFunctor _ pc | functorReturns _ pc
  | clearCalling _ pc | clearLooping _ pc | handleRead _ pc => cases outside.symm.trans pc

/-- The user's thread may be in a call of the loop. -/
def mayCall : UserPc → Bool
  | .returned | .quitting => true
  | _ => false

/-- `threadFunc` is between the callback and `loop_ = &loop`, or between `loop()` and
`loop_ = nullptr`. -/
def between : FuncPc → Bool
  | .lockingPublish | .publishing | .lockingClear | .clearing => true
  | _ => false

/-- `loop()` has returned, `loop_` is not null yet. -/
def leaving : FuncPc → Bool
  | .lockingClear | .clearing => true
  | _ => false

/-- Who is in no call, and what the destructor can rely on. -/
structure Quiet (owner user : Tid) (s : Handshake Functor) : Prop where
  others : ∀ t, t ≠ owner → t ≠ user → s.loop.calls t = .idle
  user : mayCall s.user = false → s.loop.calls user = .idle
  func : between s.func = true → s.loop.calls owner = .idle
  outside : leaving s.func = true → s.loop.pc = .outside
  quits : s.user = .callQuit → s.published = true

theorem quiet_start : Quiet owner user ({} : Handshake Functor) :=
  ⟨fun _ _ _ => rfl, fun _ => rfl, fun _ => rfl, fun _ => rfl, nofun⟩

theorem quiet_move (apart : owner ≠ user) (paired : Paired owner user s action)
    (quiet : Quiet owner user s) (move : Move owner user s action next) :
    Quiet owner user next := by
  obtain ⟨others, idle, func, outside, quits⟩ := quiet
  cases move with
  | start pc => exact ⟨others, fun _ => idle (by rw [pc]; rfl), nofun, nofun, nofun⟩
  | lock pc _ =>
    refine ⟨others, fun _ => idle ?_, func, outside, nofun⟩
    rcases pc with pc | pc <;> rw [pc] <;> rfl
  | sees pc _ | sleeps pc _ | assign pc | skipsJoin pc _ | joins pc _ | destroyMembers pc
  | wake pc =>
    exact ⟨others, fun _ => idle (by rw [pc]; rfl), func, outside, nofun⟩
  | unlock => exact ⟨others, nofun, func, outside, nofun⟩
  | destroy _ free | quitReturns _ free =>
    exact ⟨others, fun _ => idle_of_isIdle free, func, outside, nofun⟩
  | quits pc published =>
    exact ⟨others, fun _ => idle (by rw [pc]; rfl), func, outside, fun _ => published⟩
  | callQuit pc called =>
    have silent {t : Tid} (other : t ≠ user) (call : Request Functor) :
        LoopAction.call user .quit ≠ .call t call := by
      rintro ⟨⟩
      exact other rfl
    exact ⟨fun t first second => idle_kept called (others t first second) (silent second),
      nofun, fun inside => idle_kept called (func inside) (silent apart),
      fun leaves => outside_kept called (outside leaves) nofun, nofun⟩
  | construct | unlockPublish | unlockClear | destroyLoop =>
    exact ⟨others, idle, nofun, nofun, quits⟩
  | calledBack _ free =>
    exact ⟨others, idle, fun _ => idle_of_isIdle free, nofun, quits⟩
  | lockPublish pc _ => exact ⟨others, idle, fun _ => func (by rw [pc]; rfl), nofun, quits⟩
  | publish => exact ⟨others, idle, nofun, nofun, fun _ => rfl⟩
  | notify _ pc => exact ⟨others, fun _ => idle (by rw [pc]; rfl), nofun, nofun, nofun⟩
  | notifyNobody => exact ⟨others, idle, nofun, nofun, quits⟩
  | loopReturns _ left free =>
    exact ⟨others, idle, fun _ => idle_of_isIdle free, fun _ => left, quits⟩
  | lockClear pc _ =>
    exact ⟨others, idle, fun _ => func (by rw [pc]; rfl), fun _ => outside (by rw [pc]; rfl), quits⟩
  | clear pc =>
    exact ⟨others, idle, nofun, nofun, fun calls => absurd calls (paired.clear rfl pc)⟩
  | enterLoop _ entered =>
    exact ⟨fun t first second => idle_kept entered (others t first second) nofun,
      fun away => idle_kept entered (idle away) nofun, nofun, nofun, quits⟩
  | inLoop enters may stepped =>
    refine ⟨fun t first second => idle_kept stepped (others t first second) ?_,
      fun away => idle_kept stepped (idle away) ?_,
      fun inside => idle_kept stepped (func inside) ?_,
      fun leaves => outside_kept stepped (outside leaves) enters, quits⟩
    · rintro call rfl
      exact (paired.callers t call rfl).elim first second
    · rintro call rfl
      have returned : s.user = .returned := by simpa [mayStep, apart.symm] using may
      rw [returned] at away
      cases away
    · rintro call rfl
      have runs : s.func = .callback ∨ s.func = .looping := by simpa [mayStep] using may
      rcases runs with pc | pc <;> rw [pc] at inside <;> cases inside

/-! ### The coarse model answers -/

/-- The stage that `threadFunc` has reached, with a section under `mutex_` as one step. -/
def threadPc : FuncPc → ThreadPc
  | .notStarted => .notStarted
  | .constructing => .constructing
  | .callback | .lockingPublish | .publishing => .callback
  | .notifying | .unlockingPublish | .entering => .entering
  | .looping | .lockingClear | .clearing => .looping
  | .unlockingClear | .destroyingLoop | .returned => .finished

/-- The same for the user; the destructor's `quit()` is over when its call is. -/
def starterPc (idle : Bool) : UserPc → StarterPc
  | .fresh => .fresh
  | .locking | .testing | .asleep | .relocking => .waiting
  | .assigning | .unlocking | .returned => .returned
  | .destroying | .callQuit => .destroying
  | .quitting => if idle then .joining else .lastQuit
  | .joining => .joining
  | .members | .destroyed => .done

/-- One state of each model. Only the coarse one knows which call of the loop is a
`quit()` of the user. -/
structure Seen (user : Tid) (s : Handshake Functor) (above : LoopThread Functor) : Prop where
  loop : above.loop = s.loop
  published : above.published = s.published
  exiting : above.exiting = s.exiting
  thread : above.thread = threadPc s.func
  starter : above.starter = starterPc (s.loop.calls user).isIdle s.user ∨
    s.user = .returned ∧ above.starter = .quitting ∧ (s.loop.calls user).isIdle = false

/-- The coarse model can go on to a state that goes with `next`. -/
def Answers (owner user : Tid) (above : LoopThread Functor) (next : Handshake Functor) : Prop :=
  ∃ events later, (threadSystem Functor owner user).Run above events later ∧ Seen user next later

theorem Seen.answers (seen : Seen user next above) : Answers owner user above next :=
  ⟨[], above, .nil, seen⟩

theorem answers_by (event : ThreadAction Functor) {later : LoopThread Functor}
    (stepped : above.step owner user event = some later) (seen : Seen user next later) :
    Answers owner user above next :=
  ⟨[event], later, .cons stepped .nil, seen⟩

/-- A step of the loop that is no step of the user's. -/
theorem Seen.with_loop (seen : Seen user s above) (kept : loop.calls user = s.loop.calls user) :
    Seen user { s with loop := loop } { above with loop := loop } := by
  have starter := seen.starter
  rw [← kept] at starter
  exact ⟨rfl, seen.published, seen.exiting, seen.thread, starter⟩

theorem Seen.starter_eq (seen : Seen user s above) {pc : UserPc} (here : s.user = pc)
    (other : pc ≠ .returned) : above.starter = starterPc (s.loop.calls user).isIdle pc := by
  rw [← here] at other ⊢
  exact seen.starter.resolve_right fun quitting => other quitting.1

theorem Seen.thread_eq (seen : Seen user s above) {pc : FuncPc} (here : s.func = pc) :
    above.thread = threadPc pc := by
  rw [seen.thread, here]

/-- A user that has returned and is in no call. -/
theorem Seen.returned (seen : Seen user s above) (here : s.user = .returned)
    (idle : s.loop.calls user = .idle) : above.starter = .returned := by
  rcases seen.starter with starter | ⟨_, _, busy⟩
  · rw [starter, here]
    rfl
  · rw [idle] at busy
    cases busy

private theorem answers_call (apart : owner ≠ user) (seen : Seen user s above)
    {call : Request Functor} (caller : t = owner ∨ t = user)
    (may : s.mayStep owner user (.call t call) = true)
    (stepped : s.loop.step owner (.call t call) = some loop) :
    Answers owner user above { s with loop := loop } := by
  have above_stepped : above.loop.step owner (.call t call) = some loop := by
    rw [seen.loop, stepped]
  rcases caller with rfl | rfl
  · have runs : above.thread = .callback ∨ above.thread = .looping := by
      have runs : s.func = .callback ∨ s.func = .looping := by simpa [mayStep] using may
      rw [seen.thread]
      rcases runs with pc | pc <;> simp [pc, threadPc]
    have kept : loop.calls user = s.loop.calls user :=
      calls_kept (step_transition stepped) (fun other equal => apart (LoopAction.call.inj equal).1) nofun
    refine answers_by (.inLoop (.call t call)) ?_ (seen.with_loop kept)
    cases call <;>
      simp [LoopThread.step, LoopThread.mayStep, LoopThread.inLoop, runs, above_stepped]
  · have returned : s.user = .returned := by simpa [mayStep, apart.symm] using may
    have starter := seen.returned returned (call_idle stepped)
    have same : Seen t { s with loop := loop } { above with loop := loop } :=
      ⟨rfl, seen.published, seen.exiting, seen.thread, Or.inl (by rw [starter, returned]; rfl)⟩
    cases call with
    | quit =>
      have quits : above.step owner t .quit =
          some { above with starter := .quitting, loop := loop } := by
        simp [LoopThread.step, starter, above_stepped]
      exact answers_by .quit quits ⟨rfl, seen.published, seen.exiting, seen.thread,
        Or.inr ⟨returned, rfl, quit_called stepped⟩⟩
    | queueInLoop functor =>
      refine answers_by (.inLoop (.call t (.queueInLoop functor))) ?_ same
      simp [LoopThread.step, LoopThread.mayStep, LoopThread.inLoop, starter, above_stepped]
    | runInLoop functor =>
      refine answers_by (.inLoop (.call t (.runInLoop functor))) ?_ same
      simp [LoopThread.step, LoopThread.mayStep, LoopThread.inLoop, starter, above_stepped]

/-- A step of the user's call, which may end a `quit()`. -/
theorem Seen.quitReturns (seen : Seen user s above) (busy : (s.loop.calls user).isIdle = false)
    (calling : s.user = .returned ∨ s.user = .quitting) :
    Seen user { s with loop := loop }
      (LoopThread.quitReturns user { above with loop := loop }) := by
  obtain ⟨_, published, exiting, thread, starter⟩ := seen
  have was : above.starter = starterPc false s.user ∨
      s.user = .returned ∧ above.starter = .quitting := by
    rw [← busy]
    exact starter.imp_right fun quitting => ⟨quitting.1, quitting.2.1⟩
  cases idle : (loop.calls user).isIdle with
  | false =>
    have goes : LoopThread.quitReturns user { above with loop := loop } =
        { above with loop := loop } := by
      simp [LoopThread.quitReturns, idle]
    rw [goes]
    refine ⟨rfl, published, exiting, thread, ?_⟩
    show above.starter = starterPc (loop.calls user).isIdle s.user ∨
      s.user = .returned ∧ above.starter = .quitting ∧ (loop.calls user).isIdle = false
    rw [idle]
    exact was.imp_right fun quitting => ⟨quitting.1, quitting.2, rfl⟩
  | true =>
    rcases was with was | ⟨pc, was⟩
    · rcases calling with pc | pc
      · have goes : LoopThread.quitReturns user { above with loop := loop } =
            { above with loop := loop } := by
          simp [LoopThread.quitReturns, was, pc, starterPc]
        rw [goes]
        exact ⟨rfl, published, exiting, thread, Or.inl (by rw [was, pc]; rfl)⟩
      · have goes : LoopThread.quitReturns user { above with loop := loop } =
            { above with loop := loop, starter := .joining, quitDone := true } := by
          simp [LoopThread.quitReturns, idle, was, pc, starterPc]
        rw [goes]
        exact ⟨rfl, published, exiting, thread, Or.inl (by rw [idle, pc]; rfl)⟩
    · have goes : LoopThread.quitReturns user { above with loop := loop } =
          { above with loop := loop, starter := .returned, quitDone := true } := by
        simp [LoopThread.quitReturns, idle, was]
      rw [goes]
      exact ⟨rfl, published, exiting, thread, Or.inl (by rw [pc]; rfl)⟩

/-- The user's call goes on, and a `quit()` may be over. -/
private theorem answers_advance (quiet : Quiet owner user s) (seen : Seen user s above)
    (stepped : s.loop.step owner (.advance user) = some loop) :
    Answers owner user above { s with loop := loop } := by
  have above_stepped : above.loop.step owner (.advance user) = some loop := by
    rw [seen.loop, stepped]
  have busy := advance_busy stepped
  have calling : s.user = .returned ∨ s.user = .quitting := by
    cases pc : s.user with
    | returned | quitting => simp
    | _ => exact absurd (quiet.user (by rw [pc]; rfl)) busy
  have unfinished : (s.loop.calls user).isIdle = false :=
    Bool.not_eq_true _ ▸ fun idle => busy (idle_of_isIdle idle)
  refine answers_by (.inLoop (.advance user)) ?_ (seen.quitReturns unfinished calling)
  simp [LoopThread.step, LoopThread.mayStep, LoopThread.inLoop, above_stepped]

private theorem answers_inLoop (apart : owner ≠ user) (quiet : Quiet owner user s)
    (seen : Seen user s above) (callers : ∀ t call, request = .call t call → t = owner ∨ t = user)
    (enters : request ≠ .enterLoop) (may : s.mayStep owner user request = true)
    (stepped : s.loop.step owner request = some loop) :
    Answers owner user above { s with loop := loop } := by
  have above_stepped : above.loop.step owner request = some loop := by rw [seen.loop, stepped]
  cases request with
  | call t call => exact answers_call apart seen (callers t call rfl) may stepped
  | advance t =>
    by_cases own : t = user
    · subst own
      exact answers_advance quiet seen stepped
    · obtain rfl : t = owner := by
        by_contra other
        exact advance_busy stepped (quiet.others t other own)
      have kept : loop.calls user = s.loop.calls user :=
        calls_kept (step_transition stepped) nofun fun equal => own (LoopAction.advance.inj equal)
      refine answers_by (.inLoop (.advance t)) ?_ (seen.with_loop kept)
      simp [LoopThread.step, LoopThread.mayStep, LoopThread.inLoop, above_stepped, own]
  | enterLoop => exact absurd rfl enters
  | loop =>
    have thread := seen.thread_eq (beq_iff_eq.mp may)
    have kept : loop.calls user = s.loop.calls user :=
      calls_kept (step_transition stepped) nofun nofun
    refine answers_by (.inLoop .loop) ?_ (seen.with_loop kept)
    simp [LoopThread.step, LoopThread.mayStep, LoopThread.inLoop, above_stepped, thread, threadPc]
  | handleRead =>
    have thread := seen.thread_eq (beq_iff_eq.mp may)
    have kept : loop.calls user = s.loop.calls user :=
      calls_kept (step_transition stepped) nofun nofun
    refine answers_by (.inLoop .handleRead) ?_ (seen.with_loop kept)
    simp [LoopThread.step, LoopThread.mayStep, LoopThread.inLoop, above_stepped, thread, threadPc]

theorem answers_move (apart : owner ≠ user) (announced : Announced s)
    (quiet : Quiet owner user s) (paired : Paired owner user s action)
    (seen : Seen user s above) (move : Move owner user s action next) :
    Answers owner user above next := by
  have at_user {pc : UserPc} (here : s.user = pc) (other : pc ≠ .returned) :
      above.starter = starterPc (s.loop.calls user).isIdle pc := seen.starter_eq here other
  have at_func {pc : FuncPc} (here : s.func = pc) : above.thread = threadPc pc :=
    seen.thread_eq here
  have seen_again := seen
  obtain ⟨loop, published, exiting, thread, starter⟩ := seen_again
  have owner_idle (inside : between s.func = true) : (above.loop.calls owner).isIdle = true := by
    rw [loop, quiet.func inside]
    rfl
  cases move with
  | start pc =>
    exact answers_by .start (if_pos ⟨at_user pc nofun, at_func (announced.fresh pc)⟩)
      ⟨loop, published, exiting, rfl, Or.inl rfl⟩
  | lock pc _ =>
    have waits : above.starter = .waiting := pc.elim (at_user · nofun) (at_user · nofun)
    exact Seen.answers ⟨loop, published, exiting, thread, Or.inl waits⟩
  | sees pc announces =>
    refine answers_by .startLoopReturns (if_pos ⟨at_user pc nofun, ?_⟩)
      ⟨loop, published, exiting, thread, Or.inl rfl⟩
    rw [published, announces]
  | sleeps pc _ | assign pc | unlock pc | quits pc _ | destroyMembers pc | wake pc =>
    have stays := at_user pc nofun
    exact Seen.answers ⟨loop, published, exiting, thread, Or.inl stays⟩
  | destroy pc free =>
    have idle := idle_of_isIdle free
    refine answers_by .destroy (if_pos ⟨seen.returned pc idle, ?_⟩)
      ⟨loop, published, rfl, thread, Or.inl rfl⟩
    rw [loop, free]
  | skipsJoin pc unpublished =>
    refine answers_by .testLoop ((if_pos (at_user pc nofun)).trans (if_neg ?_))
      ⟨loop, published, exiting, thread, Or.inl rfl⟩
    simp [published, unpublished]
  | @callQuit after pc called =>
    have destroying : above.starter = .destroying := at_user pc nofun
    have tests : above.step owner user .testLoop =
        some { above with starter := .lastQuit, loop := after } := by
      simp [LoopThread.step, destroying, published, quiet.quits pc, loop, called]
    refine answers_by .testLoop tests ⟨rfl, published, exiting, thread, Or.inl ?_⟩
    show StarterPc.lastQuit = starterPc (after.calls user).isIdle .quitting
    rw [quit_called called]
    rfl
  | quitReturns pc free =>
    refine Seen.answers ⟨loop, published, exiting, thread, Or.inl ?_⟩
    rw [at_user pc nofun, free]
    rfl
  | joins pc returned =>
    exact answers_by .join (if_pos ⟨at_user pc nofun, at_func returned⟩)
      ⟨loop, published, exiting, thread, Or.inl rfl⟩
  | construct pc =>
    exact answers_by .construct (if_pos (at_func pc)) ⟨loop, published, exiting, rfl, starter⟩
  | calledBack pc _ | lockPublish pc _ | notifyNobody pc _ | unlockPublish pc
  | loopReturns pc _ _ | lockClear pc _ | unlockClear pc | destroyLoop pc =>
    have stays := at_func pc
    exact Seen.answers ⟨loop, published, exiting, stays, starter⟩
  | publish pc =>
    exact answers_by .publish (if_pos ⟨at_func pc, owner_idle (by rw [pc]; rfl)⟩)
      ⟨loop, rfl, exiting, rfl, starter⟩
  | notify pc asleep =>
    have stays := at_func pc
    have waits := at_user asleep nofun
    exact Seen.answers ⟨loop, published, exiting, stays, Or.inl waits⟩
  | clear pc =>
    refine answers_by .clear (if_pos ⟨at_func pc, ?_, owner_idle (by rw [pc]; rfl)⟩)
      ⟨loop, rfl, exiting, rfl, starter⟩
    rw [loop, quiet.outside (by rw [pc]; rfl)]
    rfl
  | @enterLoop after pc entered =>
    have entering := at_func pc
    have enters : above.step owner user (.inLoop .enterLoop) =
        some { above with loop := after, thread := .looping } := by
      simp [LoopThread.step, LoopThread.mayStep, LoopThread.inLoop, entering, threadPc, loop,
        entered]
    refine answers_by (.inLoop .enterLoop) enters ⟨rfl, published, exiting, rfl, ?_⟩
    show above.starter = starterPc (after.calls user).isIdle s.user ∨
      s.user = .returned ∧ above.starter = .quitting ∧ (after.calls user).isIdle = false
    rwa [calls_kept (step_transition entered) nofun nofun]
  | inLoop enters may stepped =>
    refine answers_inLoop apart quiet seen ?_ enters may stepped
    rintro t call rfl
    exact paired.callers t call rfl

/-- Every state that the fine model reaches with its two threads goes with one that the
coarse model reaches. -/
theorem handshake_refines (apart : owner ≠ user)
    (reached : (pairedSystem Functor owner user).Reachable s) :
    ∃ above, (threadSystem Functor owner user).Reachable above ∧ Seen user s above := by
  have agreed {s : Handshake Functor} (reached : (pairedSystem Functor owner user).Reachable s) :
      Agreed s := by
    obtain ⟨first, actions, start, run⟩ := reached
    exact reachable_agreed ⟨first, actions, start, run.unrestricted⟩
  have quiet {s : Handshake Functor} (reached : (pairedSystem Functor owner user).Reachable s) :
      Quiet owner user s := by
    refine reached.invariant ?_ ?_
    · rintro _ rfl
      exact quiet_start
    · exact fun _ _ _ quiet step => quiet_move apart step.1 quiet (step_move step.2)
  refine reached.simulated ?_ ?_
  · rintro _ rfl
    exact ⟨{}, rfl, rfl, rfl, rfl, rfl, Or.inl rfl⟩
  · intro s action next above here seen step
    exact answers_move apart (agreed here).announced (quiet here) step.1 seen (step_move step.2)

end MiniMuduo.HandshakeRefinement
