import LocalSend.Server.System
import LocalSend.Tui.Run

/-!
# The application and its server

`App::start_server` (`src/tui/app.rs`) gives the loop of `Run.lean` the consumer's end of the event
channel of a receiver, which runs beside it. The loop takes the events that the receiver has put
into the channel, the channel of a request carries the answer of its dialog back to the handler that
waits for it, and the settings screen switches `auto_accept` of the running server.

The application builds its server without a gate for protected offers, and never calls `stop`.
-/

namespace LocalSend

structure Terminal (I : Type) where
  world : World
  tui : TuiWorld I
  /-- The handlers that have put a request into the event channel, in that order. -/
  askers : List TaskId

inductive TerminalAction where
  /-- A step of the server. -/
  | server (a : Action)
  | app (a : TuiAction)

/-- What an effect sets `auto_accept` to. -/
def AppEffect.autoAccept? : AppEffect → Option Bool
  | .setAutoAccept on => some on
  | _ => none

variable {I : Type}

namespace Terminal

def start (lib : TuiLibrary I) (c : ServerConfig) (deviceInfo : DeviceInfo) : Terminal I where
  world := .start c
  tui := .start lib deviceInfo c.autoAccept
  askers := []

/-- What the channel of a handler's request holds. -/
def answerTo (t : Terminal I) (h : TaskId) : Option TransferDecision :=
  (t.tui.decisions.find? fun e => t.askers[e.1]? = some h).map Prod.snd

/-- What an action of the server needs of the application. -/
def allows (t : Terminal I) : Action → Bool
  | .prepare h (.decide answer) => answer = t.answerTo h
  -- the consumer's end of the channel is the application's, and goes with it
  | .env .receiveEvent | .env (.setAutoAccept _) => false
  | .env .closeEvents => t.tui.app.shouldQuit
  | .stop | .installCrosscopy _ | .finishCrosscopy _ => false
  | _ => true

/-- The handler that an action of the server puts a request of into the channel. -/
def asks (t : Terminal I) : Action → List TaskId
  | .prepare h .sendRequest => if t.world.channel.closed then [] else [h]
  | _ => []

/-- What `auto_accept` is set to by an action of the application. -/
def switches (lib : TuiLibrary I) (t : Terminal I) : TuiAction → Option Bool
  | .key (some key) env => (t.tui.app.handleKey lib key env).2.findSome? AppEffect.autoAccept?
  | _ => none

/-- What an action of the application does to the server. -/
def serve (lib : TuiLibrary I) (t : Terminal I) (a : TuiAction) : World :=
  match a with
  | .serverEvent _ => t.world.envStep .receiveEvent
  | a =>
    match t.switches lib a with
    | some yes => t.world.envStep (.setAutoAccept yes)
    | none => t.world

def step (sha256 : List UInt8 → String) (lib : TuiLibrary I) (t : Terminal I) :
    TerminalAction → Option (Terminal I)
  | .server a =>
    if t.allows a then
      (t.world.step sha256 a).map fun world =>
        { world := world
          tui := { t.tui with events := world.channel.queue }
          askers := t.askers ++ t.asks a }
    else none
  -- the events of the loop are those of the server
  | .app (.event _) => none
  | .app a => (tuiStep lib t.tui a).map fun tui => { t with tui := tui, world := t.serve lib a }

end Terminal

/-- The application and its server, in any interleaving. -/
def terminal (sha256 : List UInt8 → String) (lib : TuiLibrary I) :
    TransitionSystem (Terminal I) TerminalAction where
  Init t := ∃ c deviceInfo, t = .start lib c deviceInfo
  step := Terminal.step sha256 lib

end LocalSend
