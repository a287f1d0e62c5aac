import MiniMuduo.ConnectionStreams
import MiniMuduo.Library.Pipeline

/-! Two connections that talk to each other. Each has its own loop, so their handlers
run in any order; what a socket accepts waits in the kernel until the other side
reads it. A byte goes through three queues, and none is lost or overtaken on the way. -/
namespace MiniMuduo.ConnectionLink
open ConnectionStreams ConnectionOutput

/-- The two connections, and what is on its way to either. -/
structure Link where
  client : Handling
  server : Handling
  toServer : List Byte
  toClient : List Byte
  deriving DecidableEq, Repr

/-- A step of one of the connections. -/
inductive LinkLabel where
  | client (flow : Flow)
  | server (flow : Flow)
  deriving DecidableEq, Repr

/-- What a connection reads was in front of all that is on its way to it, and what its
socket accepts goes behind all that is on its way from it. -/
inductive LinkStep : Link → LinkLabel → Link → Prop where
  | client {s : Link} {flow : Flow} {t : Handling} {rest : List Byte} :
      StreamStep s.client flow t → s.toClient = flow.received ++ rest →
      LinkStep s (.client flow) ⟨t, s.server, s.toServer ++ flow.accepted, rest⟩
  | server {s : Link} {flow : Flow} {t : Handling} {rest : List Byte} :
      StreamStep s.server flow t → s.toServer = flow.received ++ rest →
      LinkStep s (.server flow) ⟨s.client, t, rest, s.toClient ++ flow.accepted⟩

/-- Two fresh connections and nothing on its way. -/
def linkSystem : StepSystem Link LinkLabel where
  Start s := streamSystem.Start s.client ∧ streamSystem.Start s.server ∧
    s.toServer = [] ∧ s.toClient = []
  Step := LinkStep

/-- The same link seen from its other end. -/
def Link.swap (s : Link) : Link := ⟨s.server, s.client, s.toClient, s.toServer⟩

def LinkLabel.swap : LinkLabel → LinkLabel
  | .client flow => .server flow
  | .server flow => .client flow

/-- The flows of the client's steps. -/
def clientFlow : LinkLabel → Option Flow
  | .client flow => some flow
  | .server _ => none

def serverFlow : LinkLabel → Option Flow
  | .server flow => some flow
  | .client _ => none

def appendedByClient (label : LinkLabel) : List Byte :=
  ((clientFlow label).map Flow.appended).getD []

def consumedByServer (label : LinkLabel) : List Byte :=
  ((serverFlow label).map Flow.consumed).getD []

variable {s t : Link} {label : LinkLabel} {labels : List LinkLabel}

theorem swap_step (step : LinkStep s label t) : LinkStep s.swap label.swap t.swap := by
  cases step with
  | client step arrived => exact .server step arrived
  | server step arrived => exact .client step arrived

theorem swap_run (run : linkSystem.Run s labels t) :
    linkSystem.Run s.swap (labels.map LinkLabel.swap) t.swap := by
  induction run with
  | nil => exact .nil
  | cons step _ ih => exact .cons (swap_step step) ih

/-- A step towards the server, seen as queues in a row: the client's output buffer, the
kernel, the server's input buffer. -/
def towardsServer : LinkLabel → List (Pipeline.Event Byte)
  | .client flow => [.put flow.appended, .pass flow.accepted]
  | .server flow => [.pass flow.received, .take flow.consumed]

def queues (s : Link) : List (List Byte) := [unsent s.client, s.toServer, unread s.server]

/-- The way to the server is three queues in a row. -/
theorem link_simulates_pipeline : linkSystem.Simulates (Pipeline.system Byte 3) towardsServer
    (fun s above => Sound s.client ∧ Sound s.server ∧ queues s = above) where
  step := by
    rintro s label t _ ⟨client, server, rfl⟩ step
    cases step with
    | @client flow t rest step _ =>
      obtain ⟨kept, _, moved⟩ := streamStep_spec client step
      refine ⟨_, .cons .put (.cons ?_ .nil), kept, server, rfl⟩
      rw [moved]
      exact @Pipeline.Step.pass _ (unsent t) s.toServer flow.accepted [] [unread s.server]
    | @server flow t rest step arrived =>
      obtain ⟨kept, moved, _⟩ := streamStep_spec server step
      have passes : Pipeline.Step [unsent s.client, flow.received ++ rest, unread s.server]
          (.pass flow.received) [unsent s.client, rest, unread s.server ++ flow.received] :=
        @Pipeline.Step.pass _ rest (unread s.server) flow.received [unsent s.client] []
      have takes : Pipeline.Step [unsent s.client, rest, flow.consumed ++ unread t]
          (.take flow.consumed) [unsent s.client, rest, unread t] :=
        @Pipeline.Step.take _ (unread t) flow.consumed [unsent s.client, rest]
      rw [← arrived] at passes
      rw [← moved] at takes
      exact ⟨_, .cons passes (.cons takes .nil), client, kept, rfl⟩

private theorem towardsServer_putIn (label : LinkLabel) :
    (towardsServer label).flatMap Pipeline.Event.putIn = appendedByClient label := by
  cases label <;> simp [towardsServer, appendedByClient, clientFlow, Pipeline.Event.putIn]

private theorem towardsServer_takenOut (label : LinkLabel) :
    (towardsServer label).flatMap Pipeline.Event.takenOut = consumedByServer label := by
  cases label <;> simp [towardsServer, consumedByServer, serverFlow, Pipeline.Event.takenOut]

/-- What the server's callbacks have taken, what waits in its input buffer, what is on its
way, and what the client has not sent are all that was appended at the client. -/
theorem way_to_server (start : linkSystem.Start s) (run : linkSystem.Run s labels t) :
    labels.flatMap consumedByServer ++ unread t.server ++ t.toServer ++ unsent t.client =
      labels.flatMap appendedByClient := by
  obtain ⟨client, server, noneToServer, _⟩ := start
  obtain ⟨soundClient, _, noOutput⟩ := start_sound client
  obtain ⟨soundServer, noInput, _⟩ := start_sound server
  obtain ⟨_, above, _, _, rfl⟩ := link_simulates_pipeline.run ⟨soundClient, soundServer, rfl⟩ run
  have conserved := Pipeline.observed_run_conserves towardsServer_putIn towardsServer_takenOut above
  simpa [queues, Pipeline.contents, noOutput, noneToServer, noInput] using conserved

/-- The same of the way back. -/
def appendedByServer (label : LinkLabel) : List Byte := appendedByClient label.swap

def consumedByClient (label : LinkLabel) : List Byte := consumedByServer label.swap

/-- At every point of every interleaving of the two connections' handlers, and for either
direction, what one side's callbacks have taken, what waits in its input buffer, what is on
its way and what the other side has not sent are exactly what was appended there, in order. -/
theorem link_conserves (start : linkSystem.Start s) (run : linkSystem.Run s labels t) :
    (labels.flatMap consumedByServer ++ unread t.server ++ t.toServer ++ unsent t.client =
        labels.flatMap appendedByClient) ∧
      labels.flatMap consumedByClient ++ unread t.client ++ t.toClient ++ unsent t.server =
        labels.flatMap appendedByServer := by
  have back := way_to_server ⟨start.2.1, start.1, start.2.2.2, start.2.2.1⟩ (swap_run run)
  rw [List.flatMap_map, List.flatMap_map] at back
  exact ⟨way_to_server start run, back⟩

/-- The fresh connection with this interest and with three bytes to send. -/
def holdingThree (events : Mask) : Handling :=
  { freshConnection with connection := { freshConnection.connection with
      channel := { fd := 9, events := events }
      outputBuffer := ⟨threeBytes, 8, 11⟩ } }

/-- The client appends three bytes and sends them all; the server's message callback takes
the first two. -/
def threeAcross : List LinkLabel :=
  [.client { appended := [97, 98, 99] }, .client {},
    .client { handler := some .write, accepted := [97, 98, 99] },
    .server { handler := some .read, received := [97, 98, 99], consumed := [97, 98] }]

theorem third_byte_across : ∃ t,
    linkSystem.Run ⟨freshConnection, freshConnection, [], []⟩ threeAcross t ∧
      [97, 98] ++ unread t.server ++ t.toServer ++ unsent t.client = [97, 98, 99] := by
  have start := freshConnection_start
  have puts : StreamStep freshConnection { appended := [97, 98, 99].take (3 : UInt64).toNat }
      (holdingThree Channel.kNoneEvent) :=
    .append (by decide) (by decide) (by decide +kernel)
  have enables : StreamStep (holdingThree Channel.kNoneEvent) {}
      (holdingThree Channel.kWriteEvent) := .elsewhere rfl rfl
  have within : WithinReadable (holdingThree Channel.kWriteEvent) (.accepted 3) := by
    rintro count ⟨⟩
    decide +kernel
  have accepted : acceptedBy (holdingThree Channel.kWriteEvent) (.accepted 3) = [97, 98, 99] := by
    decide +kernel
  obtain ⟨client, wrote, -⟩ := TcpConnection.handleWrite_outcome pairs.outside (.accepted 3)
    (holdingThree Channel.kWriteEvent)
  have sends : StreamStep (holdingThree Channel.kWriteEvent)
      { handler := some .write, accepted := [97, 98, 99] } client :=
    accepted ▸ .handleWrite within wrote
  obtain ⟨server, takes⟩ := three_bytes_read
  have run : linkSystem.Run ⟨freshConnection, freshConnection, [], []⟩ threeAcross
      ⟨client, server, [], []⟩ :=
    .cons (.client puts rfl) <|
    .cons (.client enables rfl) <|
    .cons (.client sends rfl) <|
    .cons (.server takes rfl) .nil
  exact ⟨_, run, (link_conserves ⟨start, start, rfl, rfl⟩ run).1⟩

end MiniMuduo.ConnectionLink
