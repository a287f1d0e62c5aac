import MiniMuduo.LoopExit

/-! Each thread's functors run in the order in which the thread has queued them, whatever the
other threads do in between. Functors carry the thread that queues them. -/
namespace MiniMuduo.LoopOrder
open EventLoop LoopFunctors LoopExit

variable {Work : Type}

/-- A loop, with what every thread has asked it to queue, in order. -/
structure OrderedLoop (Work : Type) where
  loop : EventLoop (Tid × Work) := {}
  requested : Tid → List (Tid × Work) := fun _ => []

/-- The functor goes to the queue: on the loop thread `runInLoop` calls it instead. -/
def queues (owner : Tid) : LoopAction (Tid × Work) → Option (Tid × Tid × Work)
  | .call t (.queueInLoop functor) => some (t, functor)
  | .call t (.runInLoop functor) => if t = owner then none else some (t, functor)
  | _ => none

/-- What the record gains from a step. -/
def record (owner : Tid) (requested : Tid → List (Tid × Work))
    (action : LoopAction (Tid × Work)) : Tid → List (Tid × Work) :=
  match queues owner action with
  | some (t, functor) => Function.update requested t (requested t ++ [functor])
  | none => requested

/-- A thread queues functors that carry its own mark. -/
def Marked : LoopAction (Tid × Work) → Prop
  | .call t (.queueInLoop functor) | .call t (.runInLoop functor) => functor.1 = t
  | _ => True

def OrderedLoop.step (owner : Tid) (s : OrderedLoop Work) (action : LoopAction (Tid × Work)) :
    Option (OrderedLoop Work) :=
  (s.loop.step owner action).map fun loop => ⟨loop, record owner s.requested action⟩

/-- A loop owned by one thread and used by all, with the record of what they ask for. -/
def orderedSystem (Work : Type) (owner : Tid) :
    StepSystem (OrderedLoop Work) (LoopAction (Tid × Work)) where
  Start s := s = {}
  Step s action next := Marked action ∧ s.step owner action = some next

/-- The functors of a thread. -/
def of (t : Tid) (functors : List (Tid × Work)) : List (Tid × Work) :=
  functors.filter (·.1 = t)

/-- What a thread is about to push. -/
def inFlight : CallPc (Tid × Work) → List (Tid × Work)
  | .push functor => [functor]
  | _ => []

variable {owner t u : Tid} {s next : OrderedLoop Work} {loop after : EventLoop (Tid × Work)}
variable {action : LoopAction (Tid × Work)} {actions : List (LoopAction (Tid × Work))}
variable {requested : Tid → List (Tid × Work)}

/-- What a thread has asked for is what it has pushed, and at last what it is about to push. -/
structure Recorded (s : OrderedLoop Work) : Prop where
  own : ∀ t functor, s.loop.calls t = .push functor → functor.1 = t
  order : ∀ t, s.requested t = of t s.loop.pushed ++ inFlight (s.loop.calls t)

@[simp] theorem of_append (t : Tid) (functors more : List (Tid × Work)) :
    of t (functors ++ more) = of t functors ++ of t more := by
  simp [of]

theorem of_own {functor : Tid × Work} (own : functor.1 = t) : of t [functor] = [functor] := by
  simp [of, own]

theorem of_other {functor : Tid × Work} (other : functor.1 ≠ t) : of t [functor] = [] := by
  simp [of, other]

/-- A call that goes on without a push. -/
theorem recorded_setCall {pc : CallPc (Tid × Work)} (recorded : Recorded ⟨loop, requested⟩)
    (before : inFlight (loop.calls t) = []) (quiet : inFlight pc = []) :
    Recorded ⟨loop.setCall t pc, requested⟩ := by
  constructor
  · intro u functor pushes
    by_cases here : t = u
    · subst here
      rw [setCall_same] at pushes
      simp [pushes, inFlight] at quiet
    · rw [setCall_other here] at pushes
      exact recorded.own u functor pushes
  · intro u
    rw [recorded.order u]
    by_cases here : t = u
    · subst here
      rw [setCall_same, before, quiet]
      rfl
    · rw [setCall_other here]
      rfl

/-- A thread begins to queue a functor. -/
theorem recorded_queues {functor : Tid × Work} (recorded : Recorded ⟨loop, requested⟩)
    (idle : loop.calls t = .idle) (own : functor.1 = t) :
    Recorded ⟨loop.setCall t (.push functor),
      Function.update requested t (requested t ++ [functor])⟩ := by
  constructor
  · intro u other pushes
    by_cases here : t = u
    · subst here
      rw [setCall_same] at pushes
      cases pushes
      exact own
    · rw [setCall_other here] at pushes
      exact recorded.own u other pushes
  · intro u
    have order := recorded.order u
    by_cases here : t = u
    · subst here
      simpa [inFlight, setCall, idle] using order
    · simp only [setCall_other here, Function.update_of_ne (Ne.symm here)]
      exact order

/-- The push itself. -/
theorem recorded_push {functor : Tid × Work} (recorded : Recorded ⟨loop, requested⟩)
    (pushes : loop.calls t = .push functor) :
    Recorded ⟨{ loop with
      pendingFunctors := loop.pendingFunctors ++ [functor]
      pushed := loop.pushed ++ [functor] }.setCall t .queueTest, requested⟩ := by
  have own := recorded.own t functor pushes
  constructor
  · intro u other pushing
    by_cases here : t = u
    · subst here
      rw [setCall_same] at pushing
      cases pushing
    · rw [setCall_other here] at pushing
      exact recorded.own u other pushing
  · intro u
    rw [recorded.order u]
    by_cases here : t = u
    · subst here
      rw [setCall_same, pushes]
      simp [setCall, inFlight, of_own own]
    · rw [setCall_other here]
      simp [setCall, of_other (own ▸ here)]

theorem recorded_step (recorded : Recorded ⟨loop, requested⟩) (marked : Marked action)
    (transition : Transition owner loop action after) :
    Recorded ⟨after, record owner requested action⟩ := by
  cases transition with
  | @call t request idle _ =>
    cases request with
    | queueInLoop functor => exact recorded_queues recorded idle marked
    | runInLoop functor =>
      by_cases here : t = owner
      · simpa [record, queues, beginCall, here] using recorded
      · simpa [record, queues, beginCall, here] using recorded_queues recorded idle marked
    | quit => exact recorded_setCall recorded (by rw [idle]; rfl) rfl
  | push pc => exact recorded_push recorded pc
  | queueTestWakes pc _ | queueTestSkips pc _ | quitTestWakes pc _ | quitTestSkips pc =>
    exact recorded_setCall recorded (by rw [pc]; rfl) rfl
  | storeQuit pc =>
    have kept : Recorded ⟨{ loop with quit := true }, requested⟩ := ⟨recorded.own, recorded.order⟩
    exact recorded_setCall kept (by rw [pc]; rfl) rfl
  | wakeup pc =>
    obtain ⟨counter, errors, _, written⟩ := wakeup_eq loop
    rw [written]
    have kept : Recorded ⟨{ loop with counter := counter, errors := errors }, requested⟩ :=
      ⟨recorded.own, recorded.order⟩
    exact recorded_setCall kept (by rw [pc]; rfl) rfl
  | handleRead _ _ =>
    obtain ⟨errors, drained⟩ := handleRead_eq loop
    rw [drained]
    exact ⟨recorded.own, recorded.order⟩
  | _ => exact ⟨recorded.own, recorded.order⟩

theorem reachable_recorded (reached : (orderedSystem Work owner).Reachable s) :
    Recorded s := by
  refine reached.invariant ?_ ?_
  · rintro _ rfl
    exact ⟨nofun, fun _ => rfl⟩
  · rintro s action next recorded ⟨marked, step⟩
    obtain ⟨loop, stepped, rfl⟩ := Option.map_eq_some_iff.mp step
    exact recorded_step recorded marked (step_transition stepped)

/-- The loop under the record is the loop. -/
theorem ordered_simulates_loop (Work : Type) (owner : Tid) :
    (orderedSystem Work owner).Simulates (loopSystem (Tid × Work) owner) (fun action => [action])
      (fun s loop => s.loop = loop) where
  step := by
    rintro s action next _ rfl ⟨_, step⟩
    obtain ⟨loop, stepped, rfl⟩ := Option.map_eq_some_iff.mp step
    exact ⟨loop, .cons stepped .nil, rfl⟩

theorem reachable_loop (reached : (orderedSystem Work owner).Reachable s) :
    (loopSystem (Tid × Work) owner).Reachable s.loop := by
  obtain ⟨_, actions, rfl, run⟩ := reached
  obtain ⟨_, above, rfl⟩ := (ordered_simulates_loop Work owner).run rfl run
  exact ⟨{}, _, rfl, above⟩

/-- At every point of every run, what a thread has asked the loop to queue is, in this order,
what of it has been called, is in the current batch, waits in the queue, or is about to be
pushed. -/
theorem program_order (reached : (orderedSystem Work owner).Reachable s) (t : Tid) :
    s.requested t = of t s.loop.executed ++ of t s.loop.batch ++ of t s.loop.pendingFunctors ++
      inFlight (s.loop.calls t) := by
  have order : InOrder s.loop := reachable_inOrder (reachable_loop reached)
  rw [(reachable_recorded reached).order t, ← order, of_append, of_append]

/-- The loop thread runs a functor of its own at once; thread 2 has queued two in between. -/
def interleaved : List (LoopAction (Tid × Nat)) :=
  [.call 2 (.queueInLoop (2, 7)), .advance 2, .advance 2, .advance 2,
    .call 1 (.runInLoop (1, 9)), .call 3 (.queueInLoop (3, 8)), .advance 3,
    .call 2 (.queueInLoop (2, 5))]

theorem second_request_behind_first : ∃ s, (orderedSystem Nat 1).Run {} interleaved s ∧
    s.loop.pushed = [(2, 7), (3, 8)] ∧ s.requested 2 = of 2 s.loop.executed ++
      of 2 s.loop.batch ++ of 2 s.loop.pendingFunctors ++ [(2, 5)] := by
  have run : (orderedSystem Nat 1).Run {} interleaved _ :=
    .cons ⟨rfl, rfl⟩ <| .cons ⟨trivial, rfl⟩ <| .cons ⟨trivial, rfl⟩ <|
      .cons ⟨trivial, rfl⟩ <| .cons ⟨rfl, rfl⟩ <| .cons ⟨rfl, rfl⟩ <| .cons ⟨trivial, rfl⟩ <|
      .cons ⟨rfl, rfl⟩ .nil
  exact ⟨_, run, rfl, program_order ⟨_, _, rfl, run⟩ 2⟩

end MiniMuduo.LoopOrder
