import LocalSend.Client.Send
import LocalSend.Server.System

/-!
# Senders and a receiver

Any number of the programs of `Send.lean` against the receiver of `System.lean`, whose other clients
remain free to do anything. A request of a program makes a handler of the receiver, which the program
awaits. HTTP is what both ends rely on: the body arrives in pieces of what was read, its end only after
as many bytes as `Content-Length` announced, and a response is the one of the handler, or none.

The identifiers of an upload are taken from its URL as they were put into it, as those that this
implementation draws are (`QueryRoundTrip.lean`).
-/

namespace LocalSend

/-- A program that sends to the receiver. -/
structure Sender where
  program : SendProgram
  device : DeviceInfo
  /-- The address that the receiver sees. -/
  peer : IpAddr
  phase : SendPhase
  /-- The handler of its offer. -/
  handler : Option TaskId

/-- The offer that a sender posts. -/
def Sender.request (s : Sender) : PrepareUploadRequest := ⟨s.device, s.program.files⟩

/-- The body of an upload on its way. -/
structure Connection where
  sender : Nat
  fileId : FileId
  /-- The `Content-Length`. -/
  announced : Nat
  /-- What the sender's stream yields. -/
  source : List UInt8
  /-- What the receiver has been given of it. -/
  delivered : List UInt8
deriving DecidableEq

/-- What goes over the connection: no more than was announced. -/
def Connection.wire (c : Connection) : List UInt8 := c.source.take c.announced

structure Network where
  world : World
  senders : Nat → Option Sender
  connections : TaskId → Option Connection
  /-- The upload handlers that there have been. -/
  begun : List TaskId

inductive NetworkAction where
  | start (c : Nat) (program : SendProgram) (device : DeviceInfo) (peer : IpAddr)
  /-- A sender posts its offer; `pin` is what the receiver reads of its URL. -/
  | prepare (c : Nat) (h : TaskId) (pin : Option String)
  /-- It has the answer, and goes through the tokens in some order. -/
  | prepared (c : Nat) (order : List (FileId × Token))
  /-- It opens the next file and posts it. -/
  | upload (c : Nat) (u : TaskId) (opened : Nat × List UInt8)
  | uploaded (c : Nat)
  /-- No answer comes, or a file cannot be read. -/
  | fail (c : Nat) (e : ClientError)
  /-- A step of the receiver, on a request of another client, by itself, or on a body that a sender
      has posted. -/
  | receiver (a : Action)

/-- The status of the answer to an upload. -/
def World.uploadAnswer (w : World) (u : TaskId) : Option StatusCode :=
  w.log.findSome? fun e =>
    match e.2 with
    | .uploadAnswered v status => if v = u then some status else none
    | _ => none

/-- The answer to a prepare, until its handler is dropped. -/
def PrepareTask.reply? (t : PrepareTask) : Option (Reply PrepareUploadResponse) :=
  match t.phase with
  | .answered status body => if t.dropped then none else some (.response status.asU16 body)
  | _ => none

/-- Whether an action draws an id that is no uuid. -/
def Action.drawsEmpty : Action → Bool
  | .prepare _ (.reserve id _) | .prepare _ (.clearAwaiting id _) => id.val = ""
  | _ => false

/-- What an action of the receiver needs of the connections. -/
def Network.allows (n : Network) : Action → Bool
  | .upload u (.begin_ ..) => u ∉ n.begun
  | .upload u (.chunk bytes) =>
    (n.connections u).all fun c => (c.delivered ++ bytes).isPrefixOf c.wire
  | .upload u .streamEnd =>
    (n.connections u).all fun c => c.delivered = c.wire && c.wire.length = c.announced
  | a => !a.drawsEmpty

/-- What an action of the receiver does to the connections. -/
def Network.delivers (n : Network) : Action → TaskId → Option Connection
  | .upload u (.chunk bytes) =>
    match n.connections u with
    | some c => Function.update n.connections u (some { c with delivered := c.delivered ++ bytes })
    | none => n.connections
  | _ => n.connections

/-- The upload that an action of the receiver begins. -/
def Action.begins : Action → List TaskId
  | .upload u (.begin_ ..) => [u]
  | _ => []

namespace Network

def setSender (n : Network) (c : Nat) (s : Sender) : Network :=
  { n with senders := Function.update n.senders c (some s) }

/-- The end of a sender. -/
def finish (n : Network) (c : Nat) (s : Sender) (result : Except SendError Unit) : Network :=
  n.setSender c { s with phase := .finished result }

/-- A sender uploads the next file. -/
def upload (sha256 : List UInt8 → String) (n : Network) (c : Nat) (s : Sender) (session : SessionId)
    (file : FileId) (token : Token) (rest : List (FileId × Token)) (u : TaskId)
    (opened : Nat × List UInt8) : Option Network :=
  match s.program.sources.get? file with
  | none => some (n.finish c s (.error (.message ("File not found for ID: " ++ file.val))))
  | some source =>
    if u ∈ n.begun then none
    else
      (n.world.step sha256 (.upload u (.begin_ session file token))).map fun world =>
        let read := source.read opened
        { n.setSender c { s with phase := .streaming session file u rest } with
          world := world
          connections := Function.update n.connections u (some ⟨c, file, read.1, read.2, []⟩)
          begun := u :: n.begun }

def step (sha256 : List UInt8 → String) (n : Network) : NetworkAction → Option Network
  | .start c program device peer =>
    if (n.senders c).isNone ∧ program.files.isEmpty = false then
      some (n.setSender c ⟨program, device, peer, .offering, none⟩)
    else none
  | .prepare c h pin =>
    match n.senders c with
    | some s =>
      match s.phase with
      | .offering =>
        (n.world.step sha256 (.prepare h (.checkPin s.peer pin s.request))).map fun world =>
          { n.setSender c { s with phase := .preparing h, handler := some h } with world := world }
      | _ => none
    | none => none
  | .prepared c order =>
    match n.senders c with
    | some s =>
      match s.phase with
      | .preparing h =>
        ((n.world.prepares h).bind PrepareTask.reply?).bind fun reply =>
          let answer := LocalSendClient.prepareUpload reply
          if answer.toOption.all fun response => order.Perm response.files.entries then
            some (n.setSender c { s with phase := s.program.prepared order answer })
          else none
      | _ => none
    | none => none
  | .upload c u opened =>
    match n.senders c with
    | some s =>
      match s.phase with
      | .sending session ((file, token) :: rest) =>
        n.upload sha256 c s session file token rest u opened
      | _ => none
    | none => none
  | .uploaded c =>
    match n.senders c with
    | some s =>
      match s.phase with
      | .streaming session _ u rest =>
        (n.world.uploadAnswer u).map fun status =>
          n.setSender c { s with
            phase := .uploaded session rest
              (LocalSendClient.uploadFile (.response status.asU16 none)) }
      | _ => none
    | none => none
  | .fail c e =>
    match n.senders c with
    | some s =>
      match s.phase with
      | .finished _ => none
      | _ => if e = .io ∨ e = .reqwest then some (n.finish c s (.error (.client e))) else none
    | none => none
  | .receiver a =>
    if n.allows a then
      (n.world.step sha256 a).map fun world =>
        { n with world := world, connections := n.delivers a, begun := a.begins ++ n.begun }
    else none

end Network

/-- The senders and the receiver, in any interleaving. -/
def network (sha256 : List UInt8 → String) : TransitionSystem Network NetworkAction where
  Init n := ∃ c, n = ⟨World.start c, fun _ => none, fun _ => none, []⟩
  step := Network.step sha256

end LocalSend
