import MiniMuduo.BufferProofs
import MiniMuduo.TcpConnection
import MiniMuduo.Library.StepSystem
import MiniMuduo.Library.Triple

/-! A connection should be closed once and be silent afterwards. One dispatch may
call up to four handlers on one mask, and two of them close the connection; this
module says in which dispatches the second of them still speaks. -/
namespace MiniMuduo.ConnectionClose
open TcpConnection

def isCallback : Effect → Bool
  | .messageCallback _ | .connectionCallback | .closeCallback => true
  | .queueWriteComplete | .shutdownInLoop | .logError _ => false

def isMessage : Effect → Bool
  | .messageCallback _ => true
  | _ => false

/-- The callbacks of a trace, from the first that is not a message callback on. -/
def closing (trace : List Effect) : List Effect :=
  (trace.filter isCallback).dropWhile isMessage

/-- Any number of message callbacks, then at most one pair of the connection and
the close callback, then nothing. -/
def ClosedOnce (trace : List Effect) : Prop :=
  closing trace = [] ∨ closing trace = [.connectionCallback, .closeCallback]

/-- What the poller reports to the channel, and what the system calls will answer. -/
structure Dispatch where
  revents : Mask
  lock : Bool
  receiveTime : Timestamp
  calls : Syscalls
  deriving DecidableEq, Repr

/-- A connection under dispatches, and what the last of them threw. -/
structure ConnectionRun where
  handling : Handling
  thrown : Option Fault
  deriving DecidableEq, Repr

def outcome : EStateM.Result Fault Handling Unit → ConnectionRun
  | .ok _ handling => ⟨handling, none⟩
  | .error fault handling => ⟨handling, some fault⟩

/-- `set_revents`, then `handleEvent`. -/
def dispatch (outside : Outside) (s : Handling) (d : Dispatch) : ConnectionRun :=
  outcome (handleEvent outside d.calls d.lock d.receiveTime { s with connection :=
    { s.connection with channel := { s.connection.channel with revents := d.revents } } })

/-- Dispatches on any connection, one after the other, as long as the channel has
interest and nothing was thrown. -/
def dispatches (outside : Outside) : StepSystem ConnectionRun Dispatch where
  Start s := s.thrown = none ∧ s.handling.trace = []
  Step s d t := s.thrown = none ∧
    s.handling.connection.channel.events ≠ Channel.kNoneEvent ∧ t = dispatch outside s.handling d

/-- The first branch of the guard. -/
def hangsUp (mask : Mask) : Bool := mask.has epollHup && !mask.has epollIn

/-- The guard runs both its first and its third branch, and `readv` returns data or
end of file, which the input buffer takes without throwing. -/
def ReadsAfterHangup (s : ConnectionRun) (d : Dispatch) : Prop :=
  (s.handling.connection.channel.tied = true → d.lock = true) ∧
    hangsUp d.revents = true ∧ d.revents.has (epollIn ||| epollPri) = true ∧
    (∃ bytes, d.calls.readv.result = .delivered bytes) ∧
    ∃ taken, s.handling.connection.inputBuffer.readFd d.calls.readv = .ok taken

/-- The runs in which no dispatch reads after a hang-up. -/
def quietDispatches (outside : Outside) : StepSystem ConnectionRun Dispatch :=
  (dispatches outside).restrict fun s d => ¬ ReadsAfterHangup s d

variable {trace : List Effect} {effect : Effect} {time : Timestamp}

theorem closing_quiet (quiet : isCallback effect = false) :
    closing (trace ++ [effect]) = closing trace := by
  simp [closing, List.filter_append, quiet]

/-- A callback after the message callbacks is one more in `closing`. -/
theorem closing_callback (callback : isCallback effect = true)
    (closes : isMessage effect = false ∨ closing trace ≠ []) :
    closing (trace ++ [effect]) = closing trace ++ [effect] := by
  unfold closing at *
  rw [List.filter_append, List.filter_cons_of_pos callback, List.filter_nil, List.dropWhile_append]
  by_cases none : (trace.filter isCallback).dropWhile isMessage = []
  · have other : isMessage effect = false := closes.resolve_right (not_not.mpr none)
    simp [none, other]
  · simp [none]

theorem closing_message_open (open' : closing trace = []) :
    closing (trace ++ [.messageCallback time]) = [] := by
  have callback : isCallback (.messageCallback time) = true := rfl
  have message : isMessage (.messageCallback time) = true := rfl
  unfold closing at *
  simp [List.filter_append, List.dropWhile_append, open', callback, message]

/-! ### The handlers -/

/-- Nothing but message callbacks so far. -/
def Opened (s : Handling) : Prop := closing s.trace = []

/-- Closed once, and without interest since. -/
def Closed (s : Handling) : Prop :=
  closing s.trace = [.connectionCallback, .closeCallback] ∧
    s.connection.channel.events = Channel.kNoneEvent

/-- Some callback came after the pair. -/
def Spoiled (s : Handling) : Prop := 2 < (closing s.trace).length

/-- What the later branches of the guard still find as it was. -/
def Unread (mask : Mask) (b : Buffer) (s : Handling) : Prop :=
  s.connection.channel.revents = mask ∧ s.connection.inputBuffer = b

variable {outside : Outside} {s t : Handling} {threw : Handling → Prop}
variable {mask : Mask} {b : Buffer} {readv : Readv} {sockopt : Getsockopt} {result : WriteResult}

theorem closing_log (trace : List Effect) (text : String) :
    closing (trace ++ [.logError text]) = closing trace :=
  closing_quiet rfl

/-- `handleClose` adds the pair, whatever was called before. -/
theorem handleClose_closing (s : Handling) : ∃ t, handleClose s = .ok () t ∧
    closing t.trace = closing s.trace ++ [.connectionCallback, .closeCallback] ∧
    t.connection.channel.events = Channel.kNoneEvent ∧
    Unread s.connection.channel.revents s.connection.inputBuffer t := by
  refine ⟨_, handleClose_run s, ?_, rfl, rfl, rfl⟩
  rw [closing_callback rfl (Or.inl rfl), closing_callback rfl (Or.inl rfl), List.append_assoc]
  rfl

theorem handleClose_closes : Triple (fun s => Opened s ∧ Unread mask b s) handleClose
    (fun _ s => Closed s ∧ Unread mask b s) threw := by
  rintro s ⟨opened, rfl, rfl⟩
  obtain ⟨t, ran, closed, silent, unread⟩ := handleClose_closing s
  rw [opened] at closed
  rw [ran]
  exact ⟨⟨closed, silent⟩, unread⟩

/-- `handleError` only logs. -/
theorem handleError_keeps (P : TcpConnection → List Effect → Prop) :
    Triple (fun s => P s.connection (closing s.trace)) (handleError sockopt)
      (fun _ s => P s.connection (closing s.trace)) threw := by
  intro s holds
  obtain ⟨text, ran⟩ := handleError_run sockopt s
  rw [ran]
  simpa only [closing_log] using holds

/-- `handleWrite` calls none of the three callbacks. -/
theorem handleWrite_keeps_closing (P : List Effect → Prop) :
    Triple (fun s => P (closing s.trace)) (handleWrite outside result)
      (fun _ s => P (closing s.trace)) threw := by
  intro s holds
  obtain ⟨t, ran, wrote⟩ := handleWrite_outcome outside result s
  rw [ran]
  cases wrote with
  | down _ => simpa only [closing_log] using holds
  | failed _ _ => simpa only [closing_log] using holds
  | unsent _ _ _ _ => exact holds
  | drained _ _ _ _ =>
    have quiet : closing (s.trace ++ s.connection.completion) = closing s.trace := by
      unfold completion
      split <;> split <;> simp [closing, isCallback]
    simpa only [quiet] using holds

/-- Without interest `handleWrite` only logs. -/
theorem handleWrite_keeps_closed :
    Triple Closed (handleWrite outside result) (fun _ => Closed) threw := by
  intro s closed
  have silent : s.connection.channel.isWriting = false := by
    rw [Channel.isWriting, closed.2]
    rfl
  obtain ⟨t, ran, wrote⟩ := handleWrite_outcome outside result s
  rw [ran]
  cases wrote with
  | down _ => exact ⟨(closing_log _ _).trans closed.1, closed.2⟩
  | failed writing _ => simp [silent] at writing
  | unsent writing _ _ _ => simp [silent] at writing
  | drained writing _ _ _ => simp [silent] at writing

/-- On an open connection `handleRead` delivers, closes, or logs. -/
theorem handleRead_opened : Triple Opened (handleRead outside readv sockopt time)
    (fun _ s => Opened s ∨ Closed s) Opened := by
  intro s opened
  obtain ⟨_, ran, outcome⟩ := handleRead_outcome outside readv sockopt time s
  rw [ran]
  cases outcome with
  | throws _ => exact opened
  | message _ _ => exact Or.inl (closing_message_open opened)
  | closes _ =>
    obtain ⟨t, closed, twice, silent, _⟩ := handleClose_closing
      { s with connection := { s.connection with inputBuffer := _ } }
    rw [closed]
    exact Or.inr ⟨twice.trans (by rw [opened]; rfl), silent⟩
  | fails _ _ => exact Or.inl (by simpa only [Opened, closing_log] using opened)

/-- On a closed connection `handleRead` is silent if the read fails. -/
theorem handleRead_closed
    (fails : ∀ n saved rest, b.readFd readv = .ok (n, saved, rest) → n < 0) :
    Triple (fun s => Closed s ∧ Unread mask b s) (handleRead outside readv sockopt time)
      (fun _ => Closed) Closed := by
  rintro s ⟨closed, _, rfl⟩
  obtain ⟨_, ran, outcome⟩ := handleRead_outcome outside readv sockopt time s
  rw [ran]
  cases outcome with
  | throws _ => exact closed
  | message read positive =>
    exact absurd positive (Int.not_lt.mpr (Int.le_of_lt (fails _ _ _ read)))
  | closes read => exact absurd (fails _ _ _ read) (Int.lt_irrefl 0)
  | fails _ _ => exact ⟨by simpa only [closing_log] using closed.1, closed.2⟩

/-- On a closed connection a read of data or of end of file calls back again. -/
theorem handleRead_spoils {n : Int} {saved : Option Int} {rest : Buffer}
    (read : b.readFd readv = .ok (n, saved, rest)) (answered : 0 ≤ n) :
    Triple (fun s => Closed s ∧ Unread mask b s) (handleRead outside readv sockopt time)
      (fun _ => Spoiled) threw := by
  rintro s ⟨⟨closed, _⟩, _, rfl⟩
  rcases Int.lt_or_eq_of_le answered with positive | rfl
  · rw [handleRead_message read positive]
    show 2 < (closing (s.trace ++ [.messageCallback time])).length
    rw [closing_callback rfl (Or.inr (by simp [closed])), closed]
    exact Nat.lt_succ_self 2
  · obtain ⟨t, ran, again, _⟩ := handleClose_closing
      { s with connection := { s.connection with inputBuffer := rest } }
    rw [handleRead_closes read, ran]
    show 2 < (closing t.trace).length
    rw [again, closed]
    decide

/-! ### The guard -/

/-- A branch of the guard. -/
def onRevents (fires : Mask → Bool) (handler : Handler Unit) : Handler Unit := do
  if fires (← connection).channel.revents then handler

/-- The guard of the connection's channel, branch by branch. -/
def guardBranches (outside : Outside) (calls : Syscalls) (time : Timestamp) : Handler Unit := do
  onRevents hangsUp handleClose
  onRevents (·.has epollErr) (handleError calls.errorSockopt)
  onRevents (·.has (epollIn ||| epollPri)) (handleRead outside calls.readv calls.readSockopt time)
  onRevents (·.has epollOut) (handleWrite outside calls.write)

theorem handleEventWithGuard_eq (outside : Outside) (calls : Syscalls) (time : Timestamp) :
    Channel.handleEventWithGuard (return (← connection).channel.revents) (callbacks outside calls)
      time = guardBranches outside calls time := by
  simp only [Channel.handleEventWithGuard, guardBranches, callbacks, Channel.runCallback,
    Option.map_some, onRevents, Channel.branch_then, hangsUp, bind_assoc, pure_bind]
  rfl

theorem handleEvent_eq (outside : Outside) (calls : Syscalls) (lock : Bool) (time : Timestamp)
    (s : Handling) : handleEvent outside calls lock time s =
      if s.connection.channel.tied = true → lock = true then guardBranches outside calls time s
      else .ok () s := by
  simp only [handleEvent, Channel.handleEvent, handleEventWithGuard_eq, bind_assoc, pure_bind,
    connection_bind]
  cases s.connection.channel.tied <;> cases lock <;> rfl

/-- A branch runs its handler when the mask it finds says so. -/
theorem onRevents_triple {pre post : Handling → Prop} {fires : Mask → Bool}
    {handler : Handler Unit}
    (yes : Triple (fun s => pre s ∧ fires s.connection.channel.revents = true) handler
      (fun _ => post) threw)
    (no : ∀ s, pre s → fires s.connection.channel.revents = false → post s) :
    Triple pre (onRevents fires handler) (fun _ => post) threw := by
  intro s holds
  rw [onRevents, connection_bind]
  cases fired : fires s.connection.channel.revents with
  | false => exact no s holds fired
  | true => exact yes s ⟨holds, fired⟩

variable {calls : Syscalls}

private theorem branch_keeps {kept : Handling → Prop} {fires : Mask → Bool}
    {handler : Handler Unit} (keeps : Triple kept handler (fun _ => kept) threw) :
    Triple kept (onRevents fires handler) (fun _ => kept) threw :=
  onRevents_triple (keeps.strengthen fun _ holds => holds.1) fun _ holds _ => holds

/-- After a hang-up the connection is closed when the guard comes to the read. -/
private theorem hangup_branches (hangup : hangsUp mask = true) {final : Handling → Prop}
    {rest : Handler Unit} (reads : Triple (fun s => Closed s ∧ Unread mask b s) rest
      (fun _ => final) threw) :
    Triple (fun s => Opened s ∧ Unread mask b s) (do
      onRevents hangsUp handleClose
      onRevents (·.has epollErr) (handleError sockopt)
      rest) (fun _ => final) threw := by
  have closes : Triple (fun s => Opened s ∧ Unread mask b s) (onRevents hangsUp handleClose)
      (fun _ s => Closed s ∧ Unread mask b s) threw := by
    refine onRevents_triple (handleClose_closes.strengthen fun _ holds => holds.1) ?_
    rintro s ⟨_, same, _⟩ calm
    simp [same, hangup] at calm
  have logs : Triple (fun s => Closed s ∧ Unread mask b s)
      (onRevents (·.has epollErr) (handleError sockopt))
      (fun _ s => Closed s ∧ Unread mask b s) threw :=
    branch_keeps (handleError_keeps fun c trace =>
      (trace = [.connectionCallback, .closeCallback] ∧ c.channel.events = Channel.kNoneEvent) ∧
        c.channel.revents = mask ∧ c.inputBuffer = b)
  exact closes.seq fun _ => logs.seq fun _ => reads

/-- Unless it reads after a hang-up, the guard closes at most once. -/
theorem guard_quiet (quiet : hangsUp mask = true → mask.has (epollIn ||| epollPri) = true →
    ∀ n saved rest, b.readFd calls.readv = .ok (n, saved, rest) → n < 0) :
    Triple (fun s => Opened s ∧ Unread mask b s) (guardBranches outside calls time)
      (fun _ s => Opened s ∨ Closed s) (fun s => Opened s ∨ Closed s) := by
  have closedWrites : Triple Closed (onRevents (·.has epollOut) (handleWrite outside calls.write))
      (fun _ s => Opened s ∨ Closed s) (fun s => Opened s ∨ Closed s) :=
    (branch_keeps handleWrite_keeps_closed).conseq (fun _ closed => closed)
      (fun _ _ => Or.inr) fun _ thrown => thrown
  by_cases hangup : hangsUp mask = true
  · have reads : Triple (fun s => Closed s ∧ Unread mask b s) (onRevents
        (·.has (epollIn ||| epollPri)) (handleRead outside calls.readv calls.readSockopt time))
        (fun _ => Closed) (fun s => Opened s ∨ Closed s) := by
      refine onRevents_triple ?_ fun _ holds _ => holds.1
      intro s ⟨⟨closed, same, unread⟩, fires⟩
      have fails := quiet hangup (same ▸ fires)
      exact (handleRead_closed fails).conseq (fun _ holds => holds) (fun _ _ closed => closed)
        (fun _ => Or.inr) s ⟨closed, same, unread⟩
    exact hangup_branches hangup (reads.seq fun _ => closedWrites)
  · have calm : Triple (fun s => Opened s ∧ Unread mask b s) (onRevents hangsUp handleClose)
        (fun _ => Opened) (fun s => Opened s ∨ Closed s) := by
      refine onRevents_triple ?_ fun _ holds _ => holds.1
      rintro s ⟨⟨_, same, _⟩, fires⟩
      exact absurd (same ▸ fires) hangup
    have logs : Triple Opened (onRevents (·.has epollErr) (handleError calls.errorSockopt))
        (fun _ => Opened) (fun s => Opened s ∨ Closed s) :=
      branch_keeps (handleError_keeps fun _ trace => trace = [])
    have reads : Triple Opened (onRevents (·.has (epollIn ||| epollPri))
        (handleRead outside calls.readv calls.readSockopt time))
        (fun _ s => Opened s ∨ Closed s) (fun s => Opened s ∨ Closed s) :=
      onRevents_triple (handleRead_opened.conseq (fun _ holds => holds.1)
        (fun _ _ holds => holds) fun _ => Or.inl) fun _ opened _ => Or.inl opened
    have openedWrites : Triple Opened (onRevents (·.has epollOut)
        (handleWrite outside calls.write))
        (fun _ s => Opened s ∨ Closed s) (fun s => Opened s ∨ Closed s) :=
      (branch_keeps (handleWrite_keeps_closing (· = []))).conseq (fun _ opened => opened)
        (fun _ _ => Or.inl) fun _ thrown => thrown
    exact calm.seq fun _ => logs.seq fun _ => reads.seq fun _ => openedWrites.either closedWrites

/-- A guard that reads after a hang-up calls back once too often. -/
theorem guard_spoils {n : Int} {saved : Option Int} {rest : Buffer} (hangup : hangsUp mask = true)
    (reads : mask.has (epollIn ||| epollPri) = true)
    (read : b.readFd calls.readv = .ok (n, saved, rest)) (answered : 0 ≤ n) :
    Triple (fun s => Opened s ∧ Unread mask b s) (guardBranches outside calls time)
      (fun _ => Spoiled) Spoiled := by
  have spoils : Triple (fun s => Closed s ∧ Unread mask b s) (onRevents
      (·.has (epollIn ||| epollPri)) (handleRead outside calls.readv calls.readSockopt time))
      (fun _ => Spoiled) Spoiled := by
    refine onRevents_triple ((handleRead_spoils read answered).strengthen fun _ holds => holds.1) ?_
    rintro s ⟨_, same, _⟩ calm
    simp [same, reads] at calm
  exact hangup_branches hangup (spoils.seq fun _ =>
    branch_keeps (handleWrite_keeps_closing (2 < ·.length)))

/-- No handler takes a callback back. -/
theorem guard_stays_spoiled : Triple Spoiled (guardBranches outside calls time)
    (fun _ => Spoiled) Spoiled := by
  have closes : Triple Spoiled handleClose (fun _ => Spoiled) Spoiled := by
    intro s spoiled
    obtain ⟨t, ran, closed, _⟩ := handleClose_closing s
    rw [ran]
    show 2 < (closing t.trace).length
    rw [closed, List.length_append]
    exact Nat.lt_add_right _ spoiled
  have reads : Triple Spoiled (handleRead outside calls.readv calls.readSockopt time)
      (fun _ => Spoiled) Spoiled := by
    intro s spoiled
    obtain ⟨_, ran, outcome⟩ := handleRead_outcome outside calls.readv calls.readSockopt time s
    rw [ran]
    cases outcome with
    | throws _ => exact spoiled
    | message _ _ =>
      have some : closing s.trace ≠ [] := List.ne_nil_of_length_pos (Nat.zero_lt_of_lt spoiled)
      show 2 < (closing (s.trace ++ [.messageCallback time])).length
      rw [closing_callback rfl (Or.inr some), List.length_append]
      exact Nat.lt_add_right _ spoiled
    | closes _ => exact closes _ spoiled
    | fails _ _ => simpa only [Spoiled, closing_log] using spoiled
  have logs : Triple Spoiled (handleError calls.errorSockopt) (fun _ => Spoiled) Spoiled :=
    handleError_keeps fun _ trace => 2 < trace.length
  have writes : Triple Spoiled (handleWrite outside calls.write) (fun _ => Spoiled) Spoiled :=
    handleWrite_keeps_closing (2 < ·.length)
  exact (branch_keeps closes).seq fun _ => (branch_keeps logs).seq fun _ =>
    (branch_keeps reads).seq fun _ => branch_keeps writes

/-! ### Dispatches -/

variable {r next : ConnectionRun} {d : Dispatch} {ds : List Dispatch}

/-- A dispatch inherits what holds of the guard, and of not running it. -/
theorem dispatch_of_guard (pre post : Handling → Prop) (s : Handling) (d : Dispatch)
    (holds : pre { s with connection := { s.connection with
      channel := { s.connection.channel with revents := d.revents } } })
    (runs : (s.connection.channel.tied = true → d.lock = true) →
      Triple pre (guardBranches outside d.calls d.receiveTime) (fun _ => post) post)
    (skips : ¬ (s.connection.channel.tied = true → d.lock = true) → ∀ s, pre s → post s) :
    post (dispatch outside s d).handling := by
  rw [dispatch, handleEvent_eq]
  by_cases locked : s.connection.channel.tied = true → d.lock = true
  · rw [if_pos locked]
    have reached := runs locked _ holds
    split at reached
    · rename_i ran
      rw [ran]
      exact reached
    · rename_i ran
      rw [ran]
      exact reached
  · rw [if_neg locked]
    exact skips locked _ holds

theorem dispatch_quiet (opened : Opened r.handling) (quiet : ¬ ReadsAfterHangup r d) :
    Opened (dispatch outside r.handling d).handling ∨
      Closed (dispatch outside r.handling d).handling := by
  refine dispatch_of_guard
    (fun s => Opened s ∧ Unread d.revents r.handling.connection.inputBuffer s)
    (fun s => Opened s ∨ Closed s) r.handling d ⟨opened, rfl, rfl⟩ ?_
    fun _ _ holds => Or.inl holds.1
  intro locked
  apply guard_quiet
  intro hangup reads n saved rest read
  rcases Buffer.readFd_returns read with ⟨errno, _, rfl⟩ | ⟨bytes, delivered, _⟩
  · exact Int.negSucc_lt_zero 0
  · exact absurd ⟨locked, hangup, reads, ⟨bytes, delivered⟩, _, read⟩ quiet

theorem dispatch_spoils (opened : Opened r.handling) (spoils : ReadsAfterHangup r d) :
    Spoiled (dispatch outside r.handling d).handling := by
  obtain ⟨locked, hangup, reads, ⟨bytes, delivered⟩, ⟨n, saved, rest⟩, read⟩ := spoils
  have answered : 0 ≤ n := by
    rcases Buffer.readFd_returns read with ⟨errno, failed, _⟩ | ⟨_, _, rfl⟩
    · simp [delivered] at failed
    · exact Int.natCast_nonneg _
  exact dispatch_of_guard
    (fun s => Opened s ∧ Unread d.revents r.handling.connection.inputBuffer s) Spoiled r.handling d
    ⟨opened, rfl, rfl⟩ (fun _ => guard_spoils hangup reads read answered)
    fun skipped => absurd locked skipped

theorem run_stays_spoiled (run : (dispatches outside).Run r ds next)
    (spoiled : Spoiled r.handling) : Spoiled next.handling := by
  induction run with
  | nil => exact spoiled
  | cons step _ ih =>
    apply ih
    rw [step.2.2]
    exact dispatch_of_guard Spoiled Spoiled _ _ spoiled
      (fun _ => guard_stays_spoiled) fun _ _ spoiled => spoiled

/-- A run is quiet and closes at most once, or it reads after a hang-up and is
spoiled. -/
theorem run_quiet_or_spoiled (run : (dispatches outside).Run r ds next)
    (start : Opened r.handling ∨ Closed r.handling) :
    ((quietDispatches outside).Run r ds next ∧ (Opened next.handling ∨ Closed next.handling)) ∨
      (¬ (quietDispatches outside).Run r ds next ∧ Spoiled next.handling) := by
  induction run with
  | nil => exact Or.inl ⟨.nil, start⟩
  | @cons r middle next d ds step rest ih =>
    obtain ⟨thrown, interest, reached⟩ := step
    have opened : Opened r.handling := start.resolve_right fun closed => interest closed.2
    by_cases spoils : ReadsAfterHangup r d
    · refine Or.inr ⟨?_, run_stays_spoiled rest (reached ▸ dispatch_spoils opened spoils)⟩
      intro quiet
      cases quiet with
      | cons first _ => exact first.1 spoils
    · rcases ih (reached ▸ dispatch_quiet opened spoils) with ⟨quiet, once⟩ | ⟨loud, spoiled⟩
      · exact Or.inl ⟨.cons ⟨spoils, thrown, interest, reached⟩ quiet, once⟩
      · refine Or.inr ⟨?_, spoiled⟩
        intro quiet
        cases quiet with
        | cons first others =>
          rw [first.2.2.2, ← reached] at others
          exact loud others

/-- A connection is closed once and silent afterwards exactly in the runs in which
no dispatch closes it for a hang-up and then reads data or end of file. -/
theorem closed_once_iff (start : (dispatches outside).Start r)
    (run : (dispatches outside).Run r ds next) :
    ClosedOnce next.handling.trace ↔ (quietDispatches outside).Run r ds next := by
  have opened : Opened r.handling := by rw [Opened, start.2]; rfl
  rcases run_quiet_or_spoiled run (Or.inl opened) with ⟨quiet, once⟩ | ⟨loud, spoiled⟩
  · exact iff_of_true (once.imp id And.left) quiet
  · refine iff_of_false ?_ loud
    rintro (calm | pair)
    · simp [Spoiled, calm] at spoiled
    · simp [Spoiled, pair] at spoiled

/-! ### A hang-up with priority data pending -/

/-- An established connection that is read from. -/
def established : ConnectionRun where
  handling :=
    { connection :=
        { name := "server-127.0.0.1:8000#1"
          state := .kConnected
          channel := { fd := 9, events := Channel.kReadEvent, tied := true }
          writeCompleteCallback := false
          inputBuffer := ⟨List.replicate 1032 0, 8, 8⟩
          outputBuffer := ⟨List.replicate 1032 0, 8, 8⟩ }
      trace := [] }
  thrown := none

/-- The peer is gone: every call answers end of file or nothing. -/
def gone : Syscalls :=
  ⟨⟨List.replicate 65536 0, .delivered []⟩, .value 0, .value 0, .accepted 0⟩

def idle : Outside := ⟨fun _ c => c, fun c => c⟩

/-- `EPOLLIN` and end of file close the connection once. -/
theorem end_of_file_closes_once :
    (quietDispatches idle).Run established [⟨epollIn, true, 0, gone⟩]
      (dispatch idle established.handling ⟨epollIn, true, 0, gone⟩) := by
  have run : (dispatches idle).Run established [⟨epollIn, true, 0, gone⟩] _ :=
    .cons ⟨rfl, by decide, rfl⟩ .nil
  exact (closed_once_iff ⟨rfl, rfl⟩ run).mp (Or.inr (by decide +kernel))

/-- `EPOLLHUP` with `EPOLLPRI` and end of file close it twice. -/
theorem hangup_with_priority_closes_twice : ¬ ∀ outside r ds next,
    (dispatches outside).Start r → (dispatches outside).Run r ds next →
      ClosedOnce next.handling.trace := by
  intro closedOnce
  have run : (dispatches idle).Run established [⟨epollHup ||| epollPri, true, 0, gone⟩] _ :=
    .cons ⟨rfl, by decide, rfl⟩ .nil
  have twice : closing (dispatch idle established.handling
      ⟨epollHup ||| epollPri, true, 0, gone⟩).handling.trace =
      [.connectionCallback, .closeCallback, .connectionCallback, .closeCallback] := by
    decide +kernel
  rcases closedOnce idle established _ _ ⟨rfl, rfl⟩ run with calm | pair
  · simp [twice] at calm
  · simp [twice] at pair

end MiniMuduo.ConnectionClose
