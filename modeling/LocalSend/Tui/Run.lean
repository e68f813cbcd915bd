import LocalSend.ForStd.TransitionSystem
import LocalSend.Tui.App

/-!
# The event loop

`App::run` (`src/tui/app.rs`) with what goes on beside it: the server, which puts its events into a
channel, the discovery callback, and the tasks that send. An iteration of the loop draws if
something has changed, takes the events and then the updates that it finds, waits for at most one
key, and opens the PIN prompt; the others may act at any time in between.
-/

namespace LocalSend

/-- Where the loop is: what it does next. -/
inductive LoopPhase where
  | draw
  | serverEvents
  | sendUpdates
  | key
deriving DecidableEq, Repr

/-- The application, its channels and its tasks, and the history of what was asked and answered. -/
structure TuiWorld (I : Type) where
  app : App I
  phase : LoopPhase
  events : List ServerEvent
  /-- The updates in the channel, each with the task that sent it. -/
  updates : List (SendTask × SendUpdate)
  /-- The tasks that have not sent their last update. -/
  tasks : List SendTask
  /-- How many transfer requests have been taken from the channel; they are numbered in that
      order. -/
  taken : Nat
  decisions : List (Nat × TransferDecision)
  /-- The requests whose dialog has been drawn. -/
  shown : List Nat
  /-- Whether this iteration has opened a dialog. -/
  opened : Bool
  /-- The task that a PIN was last asked for. -/
  refused : Option SendTask

inductive TuiAction where
  /-- The server puts an event into the channel. -/
  | event (ev : ServerEvent)
  /-- The discovery callback gets the lock of the device list. -/
  | sighting (device : DeviceInfo)
  | progress (task : SendTask) (sent total : Nat)
  /-- A task sends its last update. -/
  | finish (task : SendTask) (result : SendResult)
  | draw (env : AppEnv)
  | serverEvent (env : AppEnv)
  | serverEventsDone
  | sendUpdate
  /-- No update is left; `refresh_device_count` may ask for a repaint. -/
  | sendUpdatesDone (repaint : Bool)
  | key (key : Option KeyCode) (env : AppEnv)

/-- The answer that an effect gives. -/
def AppEffect.decision? : AppEffect → Option (Nat × TransferDecision)
  | .decide responder decision => some (responder, decision)
  | _ => none

/-- The task that an effect spawns. -/
def AppEffect.task? : AppEffect → Option SendTask
  | .spawn task => some task
  | _ => none

/-- Whether an event asks for a decision. -/
def ServerEvent.isRequest : ServerEvent → Bool
  | .transferRequest .. => true
  | _ => false

/-- Whether an update asks for a PIN for the send of the current generation. -/
def SendUpdate.asksPin (current : UInt64) : SendUpdate → Bool
  | .needsPin generation _ => generation = current
  | _ => false

variable {I : Type}

/-- The request of the dialog on the screen. -/
def App.dialog? (app : App I) : Option ConfirmState :=
  match app.popup with
  | some (.transferConfirm state) => some state
  | _ => none

namespace TuiWorld

def start (lib : TuiLibrary I) (deviceInfo : DeviceInfo) (autoAccept : Bool) : TuiWorld I where
  app := .new lib deviceInfo autoAccept
  phase := .draw
  events := []
  updates := []
  tasks := []
  taken := 0
  decisions := []
  shown := []
  opened := false
  refused := none

/-- What a handler leaves, and what it sets off. -/
def apply (s : TuiWorld I) (r : App I × List AppEffect) : TuiWorld I :=
  { s with
    app := r.1
    tasks := s.tasks ++ r.2.filterMap AppEffect.task?
    decisions := s.decisions ++ r.2.filterMap AppEffect.decision? }

/-- The head of the loop. -/
def draw (lib : TuiLibrary I) (s : TuiWorld I) (env : AppEnv) : TuiWorld I :=
  let s := { s with phase := .serverEvents, opened := false }
  if s.app.dirty then
    { s with
      app := { s.app.render lib env with dirty := false }
      shown := s.shown ++ (s.app.dialog?.map fun state => state.request.responder).toList }
  else s

/-- `poll_server_events` takes one event. -/
def serverEvent (s : TuiWorld I) (env : AppEnv) : Option (TuiWorld I) :=
  match s.events with
  | [] => none
  | ev :: events =>
    let r := s.app.pollServerEvent s.taken env ev
    some { ({ s with events := events }).apply r with
      taken := if ev.isRequest then s.taken + 1 else s.taken
      opened := s.opened ||
        (ev.isRequest && r.1.dialog?.any fun state => state.request.responder = s.taken) }

/-- `poll_send_updates` takes one update. -/
def sendUpdate (lib : TuiLibrary I) (s : TuiWorld I) : Option (TuiWorld I) :=
  match s.updates with
  | [] => none
  | (task, update) :: updates =>
    some { s with
      app := s.app.pollSendUpdate lib update
      updates := updates
      refused := if update.asksPin s.app.sendGeneration then some task else s.refused }

/-- The key of an iteration, and the PIN prompt. -/
def handleKey (lib : TuiLibrary I) (s : TuiWorld I) (key : Option KeyCode) (env : AppEnv) : TuiWorld I :=
  let s' := match key with
    | none => s
    | some key =>
      let r := s.app.handleKey lib key env
      s.apply ({ r.1 with dirty := true }, r.2)
  { s' with app := s'.app.maybeOpenPinPrompt lib, phase := .draw }

end TuiWorld

def tuiStep (lib : TuiLibrary I) (s : TuiWorld I) (a : TuiAction) : Option (TuiWorld I) :=
  match a with
  | .event ev => some { s with events := s.events ++ [ev] }
  | .sighting device =>
    some { s with
      app := { s.app with
        devices := (rememberDevice s.app.devices s.app.deviceInfo.fingerprint device).2 } }
  | .progress task sent total =>
    if task ∈ s.tasks ∧ task.kind = .file then
      some { s with updates := s.updates ++ [(task, .progress task.generation sent total)] }
    else none
  | .finish task result =>
    if task ∈ s.tasks then
      some { s with
        tasks := s.tasks.erase task
        updates := s.updates ++ [(task, sendUpdateFromResult task.generation task.kind result)] }
    else none
  | .draw env => if s.phase = .draw ∧ s.app.shouldQuit = false then some (s.draw lib env) else none
  | .serverEvent env => if s.phase = .serverEvents then s.serverEvent env else none
  | .serverEventsDone =>
    if s.phase = .serverEvents ∧ s.events = [] then some { s with phase := .sendUpdates } else none
  | .sendUpdate => if s.phase = .sendUpdates then s.sendUpdate lib else none
  | .sendUpdatesDone repaint =>
    if s.phase = .sendUpdates ∧ s.updates = [] then
      some { s with phase := .key, app := { s.app with dirty := s.app.dirty || repaint } }
    else none
  | .key key env => if s.phase = .key then some (s.handleKey lib key env) else none

/-- The application on a device, from its start. -/
def tui (lib : TuiLibrary I) : TransitionSystem (TuiWorld I) TuiAction where
  Init s := ∃ deviceInfo autoAccept, s = .start lib deviceInfo autoAccept
  step := tuiStep lib

end LocalSend
