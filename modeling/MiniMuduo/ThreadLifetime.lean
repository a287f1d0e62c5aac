import MiniMuduo.Thread

/-! When a `Thread` may be joined, started again and destroyed, with its threads running
meanwhile in any order. `start()` holds the object and its own frame until the new thread has
left both but for `func_`; that one the thread uses to its end. -/
namespace MiniMuduo.ThreadLifetime
open Thread

variable {ids : Nat → Tid} {s t next : Thread} {action : ThreadEvent}

/-- The thread has not posted the semaphore yet. -/
def early : BodyPc → Bool
  | .created | .numbered => true
  | _ => false

/-- The owner waits for the post, or is about to. -/
def awaits : OwnerPc → Bool
  | .assigning | .waiting => true
  | _ => false

/-- The count that `start()` finds: none outside, and a post once its thread has come so far. -/
def semaphore (s : Thread) : Option Nat :=
  match s.owner with
  | .creating => some 0
  | .assigning | .waiting => some (if early (s.body (s.created - 1)) then 0 else 1)
  | .outside | .joining => none

theorem early_iff {pc : BodyPc} : early pc = true ↔ pc = .created ∨ pc = .numbered := by
  cases pc <;> simp [early]

theorem awaits_iff {pc : OwnerPc} : awaits pc = true ↔ pc = .assigning ∨ pc = .waiting := by
  cases pc <;> simp [awaits]

/-! ### The handover in `start()` -/

structure Handover (ids : Nat → Tid) (s : Thread) : Prop where
  absent : ∀ k, s.body k = .absent ↔ s.created ≤ k
  early : ∀ k, early (s.body k) = true → awaits s.owner = true ∧ k + 1 = s.created
  sem : s.sem = semaphore s
  tid : ∀ k, k + 1 = s.created → s.body k ≠ .created → s.tid = ids k
  awaited : awaits s.owner = true → 0 < s.created

theorem handover_start (ids : Nat → Tid) : Handover ids {} := by
  constructor <;> simp [early, awaits, semaphore]

theorem handover_step (handover : Handover ids s) (move : Move ids s action next) :
    Handover ids next := by
  obtain ⟨absent, before, sem, tid, awaited⟩ := handover
  simp only [early_iff, awaits_iff] at before awaited
  cases move with
  | useFunc _ _ =>
    exact ⟨absent, by simpa only [early_iff, awaits_iff], sem, tid, by simpa only [awaits_iff]⟩
  | _ => constructor <;> grind [semaphore, early_iff, awaits_iff]

/-! ### Who still runs -/

/-- How the members of the object and the owner's place go together. -/
structure Flags (s : Thread) : Prop where
  awaited : awaits s.owner = true → 0 < s.created
  dead : s.alive = false → s.owner = .outside
  started : s.thread ≠ none ∨ s.owner = .creating ∨ awaits s.owner = true → s.started = true
  within : ∀ k, s.thread = some k → k < s.created
  handle : s.joinable = true → s.thread ≠ none
  joining : s.owner = .joining → s.joined = true
  joined : s.joined = true → s.owner ≠ .joining → s.thread ≠ none
  detached : s.alive = true → s.thread ≠ none → s.joinable = false → s.joined = true

theorem flags_step (flags : Flags s) (move : Move ids s action next) : Flags next := by
  obtain ⟨awaited, dead, started, within, handle, joining, joined, detached⟩ := flags
  cases move with
  | number _ _ | semPost _ _ | enter _ _ | useFunc _ _ | leave _ =>
    exact ⟨awaited, dead, started, within, handle, joining, joined, detached⟩
  | create creating =>
    refine ⟨by simp, ?_, ?_, fun k here => Nat.lt_succ_of_lt (within k here), ?_, ?_, ?_, ?_⟩ <;>
      simp_all [awaits]
  | assign assigning _ =>
    have positive : 0 < s.created := awaited (by simp [awaits, assigning])
    have last : s.created - 1 < s.created := Nat.sub_one_lt_of_lt positive
    constructor <;> simp_all [awaits]
  | start outside _ | join outside _ | detach outside _ _ _ _ _ | destroy outside _ _ _
  | createThrows outside | semWait outside _ | joinReturns outside _ _ _
  | joinThrows outside _ _ => constructor <;> simp_all [awaits]

theorem flags_start : Flags {} := by
  constructor <;> simp [awaits]

/-- The threads that may be at work: the one that `thread_` stands for, and the one that
`start()` is about to put there. -/
def Current (s : Thread) (k : Nat) : Prop :=
  s.thread = some k ∧ s.joinable = true ∨ s.owner = .assigning ∧ k + 1 = s.created

/-- As long as there is the object, the others have ended. -/
def Past (s : Thread) : Prop :=
  s.alive = true → ∀ k < s.created, ¬ Current s k → s.body k = .ended

theorem past_step (past : Past s) (move : Move ids s action next) :
    Past next := by
  intro alive k among other
  cases move with
  | number here _ | semPost here _ | enter here _ =>
    have ended := past alive k among other
    rw [setBody_body]
    split
    · rename_i same
      rw [← same, ended] at here
      cases here
    · exact ended
  | leave _ =>
    rw [setBody_body]
    split
    · rfl
    · exact past alive k among other
  | useFunc _ _ => exact past alive k among other
  | create creating =>
    have last : k ≠ s.created := fun last => other (Or.inr ⟨rfl, by rw [last]; rfl⟩)
    rw [setBody_body, if_neg last]
    refine past alive k (by simp at among; omega) ?_
    rintro (handled | ⟨assigning, _⟩)
    · exact other (Or.inl handled)
    · rw [creating] at assigning
      cases assigning
  | assign assigning joinable =>
    refine past alive k among ?_
    rintro (⟨_, running⟩ | ⟨_, last⟩)
    · rw [joinable] at running
      cases running
    · exact other (Or.inl ⟨by simp [← last], rfl⟩)
  | joinReturns joining thread _ ended =>
    by_cases joined : s.thread = some k
    · rw [thread] at joined
      cases joined
      exact ended
    · refine past alive k among ?_
      rintro (⟨handled, _⟩ | ⟨assigning, _⟩)
      · exact joined handled
      · rw [joining] at assigning
        cases assigning
  | detach _ _ _ _ _ _ | destroy _ _ _ _ => cases alive
  | start outside _ | join outside _ | createThrows outside | semWait outside _
  | joinThrows outside _ _ =>
    refine past alive k among ?_
    rintro (handled | ⟨assigning, _⟩)
    · exact other (Or.inl handled)
    · rw [outside] at assigning
      cases assigning

structure Ownership (s : Thread) : Prop extends Flags s where
  past : Past s

theorem ownership_start : Ownership {} where
  toFlags := flags_start
  past := by simp [Past]

theorem ownership_step (ownership : Ownership s) (move : Move ids s action next) :
    Ownership next :=
  ⟨flags_step ownership.toFlags move, past_step ownership.past move⟩

theorem reachable_handover (reached : (system ids).Reachable s) : Handover ids s := by
  refine reached.invariant ?_ fun _ _ _ handover step => handover_step handover (step_move step)
  rintro _ rfl
  exact handover_start ids

theorem reachable_ownership (reached : (system ids).Reachable s) : Ownership s := by
  refine reached.invariant ?_ fun _ _ _ ownership step => ownership_step ownership (step_move step)
  rintro _ rfl
  exact ownership_start

/-- Left to itself, the call returns: in at most three steps, of its owner and of one thread,
none of which begins another call. -/
def Returns (ids : Nat → Tid) (s : Thread) : Prop :=
  ∃ actions next, (system ids).Run s actions next ∧ actions.length ≤ 3 ∧
    (∀ action ∈ actions, ∀ call, action ≠ .call call) ∧ next.owner = .outside

theorem posted_returns (waiting : s.owner = .waiting) (posted : s.sem = some 1) :
    (system ids).Step s (.owner true) { s with sem := none, owner := .outside } := by
  simp [system, step, ownerStep, waiting, posted]

theorem numbered_posts (ids : Nat → Tid) {k : Nat} (numbered : s.body k = .numbered)
    (none : s.sem = some 0) :
    (system ids).Step s (.body k) ({ s with sem := some 1 }.setBody k .posted) := by
  simp [system, step, bodyStep, numbered, none]

theorem created_numbers (ids : Nat → Tid) {k : Nat} (created : s.body k = .created)
    (alive : s.alive = true) :
    (system ids).Step s (.body k) ({ s with tid := ids k }.setBody k .numbered) := by
  simp [system, step, bodyStep, created, alive]

theorem waiting_returns (handover : Handover ids s) (ownership : Ownership s)
    (waiting : s.owner = .waiting) : Returns ids s := by
  have awaits : awaits s.owner = true := by simp [awaits_iff, waiting]
  have some_thread := handover.awaited awaits
  have sem := handover.sem
  simp only [semaphore, waiting] at sem
  have alive : s.alive = true := by
    rw [← Bool.not_eq_false]
    intro dead
    rw [ownership.dead dead] at waiting
    cases waiting
  cases last : s.body (s.created - 1) with
  | absent =>
    have none := (handover.absent _).mp last
    omega
  | created =>
    rw [last] at sem
    have first := created_numbers ids last alive
    have second := numbered_posts ids (k := s.created - 1)
      (s := { s with tid := ids (s.created - 1) }.setBody (s.created - 1) .numbered) (by simp) sem
    exact ⟨_, _, .cons first (.cons second (.cons (posted_returns waiting rfl) .nil)), by simp,
      by simp, rfl⟩
  | numbered =>
    rw [last] at sem
    have first := numbered_posts ids last sem
    exact ⟨_, _, .cons first (.cons (posted_returns waiting rfl) .nil), by simp, by simp, rfl⟩
  | posted | running | ended =>
    rw [last] at sem
    exact ⟨_, _, .cons (posted_returns waiting sem) .nil, by simp, by simp, rfl⟩

/-- When no call is open, `tid_` is the number of the last thread that `start()` made; no thread
comes to the semaphore after its frame has gone; and `start()` does not wait for ever. -/
theorem start_hands_over (reached : (system ids).Reachable s) :
    (s.owner = .outside → ∀ k, k + 1 = s.created → s.tid = ids k) ∧
      (∀ k, s.step ids (.body k) ≠ some (.error .frameGone)) ∧
      (s.owner = .waiting → Returns ids s) := by
  have handover := reachable_handover reached
  refine ⟨fun outside k last => handover.tid k last fun created => ?_, fun k => ?_,
    waiting_returns handover (reachable_ownership reached)⟩
  · have waits := (handover.early k (by simp [early_iff, created])).1
    rw [outside] at waits
    cases waits
  · intro gone
    have := handover.early k
    have sem := handover.sem
    grind [step, bodyStep, early_iff, awaits_iff, semaphore]

/-! ### Calls -/

/-- What a call asks for. `start()` wants nothing left to join, `join()` a thread that was
created at some time; the destructor wants one if `start()` was ever called, and that it has
been joined, or that there was no `join()` at all and the thread has ended by itself. -/
def Allowed (s : Thread) : ThreadCall → Prop
  | .start => s.joinable = false
  | .join => s.thread ≠ none
  | .destroy => (s.started = true → s.thread ≠ none) ∧
      (s.joinable = true → s.joined = false ∧ ∀ k, s.thread = some k → s.body k = .ended)

/-- The owner keeps to that. -/
def Careful (s : Thread) : ThreadEvent → Prop
  | .call call => Allowed s call
  | _ => True

/-- Before the owner makes another call, something can go wrong. -/
def Dooms (ids : Nat → Tid) (s : Thread) : Prop :=
  ∃ actions last action fault, (system ids).Run s actions last ∧
    last.step ids action = some (.error fault) ∧
    ∀ other ∈ actions ++ [action], other.isCall = false

/-- The call can go wrong, or leave a thread to something that does. -/
def Endangers (ids : Nat → Tid) (s : Thread) (call : ThreadCall) : Prop :=
  (∃ fault, s.step ids (.call call) = some (.error fault)) ∨
    ∃ next, (system ids).Step s (.call call) next ∧ Dooms ids next

/-- What careful calls keep. -/
structure Kept (s : Thread) : Prop extends Ownership s where
  quiet : s.alive = false → ∀ k < s.created, s.body k = .ended
  fresh : s.owner = .creating ∨ s.owner = .assigning → s.joinable = false
  pointed : s.owner = .joining → s.thread ≠ none

theorem kept_start : Kept {} where
  toOwnership := ownership_start
  quiet := nofun
  fresh := by simp
  pointed := nofun

theorem quiet_step (kept : Kept s) (careful : Careful s action)
    (move : Move ids s action next) (dead : next.alive = false) :
    ∀ k < next.created, next.body k = .ended := by
  intro k among
  cases move with
  | detach outside alive _ _ _ joinable =>
    by_cases last : s.thread = some k
    · exact (careful.2 joinable).2 k last
    · refine kept.past alive k among ?_
      rintro (⟨handled, _⟩ | ⟨assigning, _⟩)
      · exact last handled
      · rw [outside] at assigning
        cases assigning
  | destroy outside alive _ joinable =>
    refine kept.past alive k among ?_
    rintro (⟨_, running⟩ | ⟨assigning, _⟩)
    · rw [joinable] at running
      cases running
    · rw [outside] at assigning
      cases assigning
  | start _ alive | join _ alive =>
    rw [show s.alive = false from dead] at alive
    cases alive
  | create inside | createThrows inside | assign inside _ | semWait inside _
  | joinReturns inside _ _ _ | joinThrows inside _ _ =>
    rw [kept.dead dead] at inside
    cases inside
  | number here _ | semPost here _ | enter here _ =>
    have ended := kept.quiet dead k among
    rw [setBody_body]
    split
    · rename_i same
      rw [← same, ended] at here
      cases here
    · exact ended
  | leave _ =>
    rw [setBody_body]
    split
    · rfl
    · exact kept.quiet dead k among
  | useFunc _ _ => exact kept.quiet dead k among

theorem kept_step (kept : Kept s) (careful : Careful s action) (move : Move ids s action next) :
    Kept next where
  toOwnership := ownership_step kept.toOwnership move
  quiet := quiet_step kept careful move
  fresh := by
    have fresh := kept.fresh
    cases move with
    | start _ _ => exact fun _ => careful
    | create creating => exact fun _ => fresh (Or.inl creating)
    | number _ _ | semPost _ _ | enter _ _ | useFunc _ _ | leave _ => exact fresh
    | detach outside _ _ _ _ _ | destroy outside _ _ _ => simp [outside]
    | join _ _ | createThrows _ | assign _ _ | semWait _ _ | joinReturns _ _ _ _
    | joinThrows _ _ _ => simp
  pointed := by
    have pointed := kept.pointed
    cases move with
    | join _ _ => exact fun _ => careful
    | number _ _ | semPost _ _ | enter _ _ | useFunc _ _ | leave _ => exact pointed
    | detach outside _ _ _ _ _ | destroy outside _ _ _ => simp [outside]
    | start _ _ | create _ | createThrows _ | assign _ _ | semWait _ _ | joinReturns _ _ _ _
    | joinThrows _ _ _ => simp

/-- A step that fails is a call that was not allowed. -/
theorem fault_is_call {fault : ThreadFault} (handover : Handover ids s) (kept : Kept s)
    (fails : s.step ids action = some (.error fault)) :
    ∃ call, action = .call call ∧ ¬ Allowed s call := by
  obtain ⟨⟨⟨_, dead, _, _, _, _, joined, detached⟩, _⟩, quiet, fresh, pointed⟩ := kept
  obtain ⟨_, before, sem, _, _⟩ := handover
  cases action with
  | call call =>
    refine ⟨call, rfl, fun allowed => ?_⟩
    cases call <;> grind [step, beginCall, destroy, Allowed]
  | owner created => grind [step, ownerStep]
  | body k => grind [step, bodyStep, early_iff, awaits_iff, semaphore]
  | useFunc k => grind [step]

/-- The runs of an owner that makes no other calls. -/
def carefulSystem (ids : Nat → Tid) : StepSystem Thread ThreadEvent :=
  (system ids).restrict Careful

theorem careful_reachable (reached : (carefulSystem ids).Reachable s) :
    (system ids).Reachable s := by
  obtain ⟨first, actions, start, run⟩ := reached
  exact ⟨first, actions, start, run.unrestricted⟩

theorem careful_kept (reached : (carefulSystem ids).Reachable s) : Kept s := by
  refine reached.invariant ?_ ?_
  · rintro _ rfl
    exact kept_start
  · rintro _ _ _ kept ⟨careful, step⟩
    exact kept_step kept careful (step_move step)

theorem careful_faults {fault : ThreadFault} (reached : (carefulSystem ids).Reachable s)
    (fails : s.step ids action = some (.error fault)) :
    ∃ call, action = .call call ∧ ¬ Allowed s call :=
  fault_is_call (reachable_handover (careful_reachable reached)) (careful_kept reached) fails

/-- What begins no call is careful. -/
theorem quiet_careful {actions : List ThreadEvent} (run : (system ids).Run s actions next)
    (quiet : ∀ action ∈ actions, action.isCall = false) :
    (carefulSystem ids).Run s actions next := by
  induction run with
  | nil => exact .nil
  | @cons s t r action actions step _ ih =>
    refine .cons ⟨?_, step⟩ (ih fun other member => quiet other (by simp [member]))
    have begins := quiet action (by simp)
    cases action with
    | call call => cases begins
    | _ => trivial

theorem allowed_safe {call : ThreadCall} (reached : (carefulSystem ids).Reachable s)
    (allowed : Allowed s call) : ¬ Endangers ids s call := by
  rintro (⟨fault, fails⟩ | ⟨next, step, actions, last, action, fault, run, fails, quiet⟩)
  · obtain ⟨_, ⟨⟩, refused⟩ := careful_faults reached fails
    exact refused allowed
  · have careful : (carefulSystem ids).Step s (.call call) next := ⟨allowed, step⟩
    have begun := reached.step careful
    have after := begun.run (quiet_careful run fun other member => quiet other (by simp [member]))
    obtain ⟨other, rfl, _⟩ := careful_faults after fails
    cases quiet (.call other) (by simp)

/-! ### And if they are not allowed -/

theorem Dooms.fault (action : ThreadEvent) (fault : ThreadFault) (quiet : action.isCall = false)
    (fails : s.step ids action = some (.error fault)) : Dooms ids s :=
  ⟨[], s, action, fault, .nil, fails, by simpa using quiet⟩

theorem Dooms.step (action : ThreadEvent) (quiet : action.isCall = false)
    (step : (system ids).Step s action next) (dooms : Dooms ids next) : Dooms ids s := by
  obtain ⟨actions, last, final, fault, run, fails, rest⟩ := dooms
  refine ⟨action :: actions, last, final, fault, .cons step run, fails, ?_⟩
  rintro other (_ | ⟨_, member⟩)
  · exact quiet
  · exact rest other member

section
variable (outside : s.owner = .outside) (alive : s.alive = true)
include outside alive

theorem call_step {call : ThreadCall} (begun : s.beginCall call = .ok next) :
    (system ids).Step s (.call call) next := by
  simp [system, step, outside, alive, begun]

/-- The assignment of `thread_` destroys the `std::thread` that it had. -/
theorem start_endangers (joinable : s.joinable = true) : Endangers ids s .start := by
  refine Or.inr ⟨_, call_step outside alive rfl, .step (.owner true) rfl rfl ?_⟩
  refine .fault (.owner true) .terminate rfl ?_
  simp [step, ownerStep, joinable]

theorem join_endangers (null : s.thread = none) : Endangers ids s .join := by
  refine Or.inr ⟨_, call_step outside alive rfl, ?_⟩
  refine .fault (.owner true) .nullThread rfl ?_
  simp [step, ownerStep, null]

theorem destroy_endangers {fault : ThreadFault} (fails : s.destroy = .error fault) :
    Endangers ids s .destroy :=
  Or.inl ⟨fault, by simp [step, beginCall, outside, alive, fails]⟩

/-- A thread that is left behind comes to `func_`, or uses what it holds. -/
theorem detached_endangers {k : Nat} (destroyed : s.destroy = .ok next)
    (gone : next.alive = false) (uses : next.body k = .posted ∨ next.body k = .running) :
    Endangers ids s .destroy := by
  refine Or.inr ⟨next, call_step outside alive destroyed, ?_⟩
  rcases uses with posted | running
  · refine .fault (.body k) .destroyed rfl ?_
    simp [step, bodyStep, posted, gone]
  · refine .fault (.useFunc k) .destroyed rfl ?_
    simp [step, running, gone]

theorem refused_endangers {call : ThreadCall} (handover : Handover ids s) (ownership : Ownership s)
    (refused : ¬ Allowed s call) : Endangers ids s call := by
  cases call with
  | start => exact start_endangers outside alive (by simpa [Allowed] using refused)
  | join => exact join_endangers outside alive (by simpa [Allowed] using refused)
  | destroy =>
    cases ran : s.destroy with
    | error fault => exact destroy_endangers outside alive ran
    | ok next =>
      obtain ⟨⟨_, _, _, within, handle, _, _, _⟩, _⟩ := ownership
      have absent := handover.absent
      have before := handover.early
      have left : ∃ k, s.thread = some k ∧ s.body k ≠ .ended ∧ next.alive = false ∧
          next.body = s.body := by
        grind [Allowed, destroy]
      obtain ⟨k, thread, still, gone, same⟩ := left
      refine detached_endangers outside alive ran gone (k := k) ?_
      rw [same]
      have exists_k := within k thread
      cases pc : s.body k <;> grind [early_iff, awaits_iff]

end

/-- As long as the calls are allowed nothing goes wrong, whatever the threads do; and a call
that is not allowed can go wrong before the next. -/
theorem calls_safe_iff (reached : (carefulSystem ids).Reachable s) :
    (∀ action fault, action.isCall = false → s.step ids action ≠ some (.error fault)) ∧
      (s.owner = .outside → s.alive = true → ∀ call,
        Endangers ids s call ↔ ¬ Allowed s call) := by
  refine ⟨fun action fault quiet fails => ?_, fun outside alive call => ⟨?_, ?_⟩⟩
  · obtain ⟨call, rfl, _⟩ := careful_faults reached fails
    cases quiet
  · exact fun endangers allowed => allowed_safe reached allowed endangers
  · have before := careful_reachable reached
    exact refused_endangers outside alive (reachable_handover before) (reachable_ownership before)

/-- `start()` returns, and its thread is in front of `func_()`. -/
def startReturns : List ThreadEvent :=
  [.call .start, .owner true, .owner true, .body 0, .body 0, .owner true]

/-- Then `tid_` is there. -/
theorem tid_handed_over : ∃ s, (system (· + 7)).Run {} startReturns s ∧ s.tid = 7 := by
  have run : (system (· + 7)).Run {} startReturns _ :=
    .cons rfl (.cons rfl (.cons rfl (.cons rfl (.cons rfl (.cons rfl .nil)))))
  exact ⟨_, run, (start_hands_over ⟨_, _, rfl, run⟩).1 rfl 0 rfl⟩

/-- It may be joined, and not be destroyed yet. -/
theorem destroyed_too_early : ∃ s, (carefulSystem (· + 7)).Run {} startReturns s ∧
    ¬ Endangers (· + 7) s .join ∧ Endangers (· + 7) s .destroy := by
  have run : (carefulSystem (· + 7)).Run {} startReturns _ :=
    .cons ⟨rfl, rfl⟩ (.cons ⟨trivial, rfl⟩ (.cons ⟨trivial, rfl⟩
      (.cons ⟨trivial, rfl⟩ (.cons ⟨trivial, rfl⟩ (.cons ⟨trivial, rfl⟩ .nil)))))
  have calls := (calls_safe_iff ⟨_, _, rfl, run⟩).2 rfl rfl
  refine ⟨_, run, fun endangers => (calls .join).mp endangers nofun, (calls .destroy).mpr ?_⟩
  rintro ⟨_, finished⟩
  cases (finished rfl).2 0 rfl

end MiniMuduo.ThreadLifetime
