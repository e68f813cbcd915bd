import LocalSend.Tui.Screens

/-!
# The terminal application

The state of `App` and the handlers of `src/tui/app.rs`. What is only drawn is left out: the status
message, the gauge of a file that is sent, and the list of received files.
-/

namespace LocalSend

/-! ## The device list -/

/-- `remember_device`: the list after a sighting, and whether the sighting was news. -/
def rememberDevice (devices : List DeviceInfo) (selfFingerprint : String) (device : DeviceInfo) :
    Bool × List DeviceInfo :=
  if device.fingerprint = selfFingerprint then (false, devices)
  else if devices.any fun d =>
      d.fingerprint = device.fingerprint || (d.ip = device.ip && d.port = device.port) then
    (false, devices)
  else (true, devices ++ [device])

/-! ## The state -/

/-- Available screens in the TUI. -/
inductive Screen where
  | sendText
  | sendFile
  | receive
  | settings
deriving DecidableEq, Repr

def Screen.next : Screen → Screen
  | .sendText => .sendFile
  | .sendFile => .receive
  | .receive => .settings
  | .settings => .sendText

def Screen.previous : Screen → Screen
  | .sendText => .settings
  | .sendFile => .sendText
  | .receive => .sendFile
  | .settings => .receive

/-- Which send flow a background task belongs to. -/
inductive SendKind where
  | file
  | text
deriving DecidableEq, Repr

/-- A background task that sends a message, or the file of a path. -/
structure SendTask where
  generation : UInt64
  kind : SendKind
  target : DeviceInfo
  payload : String
  pin : Option String
deriving DecidableEq, Repr

/-- What a send comes to. -/
inductive SendResult where
  | ok
  | invalidPin
  | failed
deriving DecidableEq, Repr

/-- Progress and completion reported by a spawned send task back to the UI loop. -/
inductive SendUpdate where
  | progress (generation : UInt64) (sent total : Nat)
  | finished (generation : UInt64) (kind : SendKind)
  | needsPin (generation : UInt64) (kind : SendKind)
deriving DecidableEq, Repr

def sendUpdateFromResult (generation : UInt64) (kind : SendKind) : SendResult → SendUpdate
  | .ok | .failed => .finished generation kind
  | .invalidPin => .needsPin generation kind

structure App (I : Type) where
  shouldQuit : Bool
  screen : Screen
  deviceInfo : DeviceInfo
  devices : List DeviceInfo
  popup : Option (Popup I)
  sendText : SendScreen I
  sendFile : SendScreen I
  autoAccept : Bool
  sendGeneration : UInt64
  dirty : Bool
  pendingPinKind : Option SendKind
deriving DecidableEq

/-- What a handler sets off outside of the state. -/
inductive AppEffect where
  /-- A request is answered. -/
  | decide (responder : Nat) (decision : TransferDecision)
  | spawn (task : SendTask)
  | announcePresence
  | setAutoAccept (on : Bool)
deriving DecidableEq

/-- What a handler sees outside of the state. -/
structure AppEnv where
  /-- Whether another task holds the lock of the device list. -/
  devicesLocked : Bool
  fileExists : String → Bool

namespace App

variable {I : Type}

def new (lib : TuiLibrary I) (deviceInfo : DeviceInfo) (autoAccept : Bool) : App I where
  shouldQuit := false
  screen := .sendText
  deviceInfo := deviceInfo
  devices := []
  popup := none
  sendText := .new lib
  sendFile := .new lib
  autoAccept := autoAccept
  sendGeneration := 0
  dirty := true
  pendingPinKind := none

/-- The devices that `try_read` gives. -/
def tryRead (app : App I) (env : AppEnv) : Option (List DeviceInfo) :=
  if env.devicesLocked then none else some app.devices

/-! ## Drawing -/

/-- What drawing a frame changes. -/
def render (lib : TuiLibrary I) (app : App I) (env : AppEnv) : App I :=
  match app.screen with
  | .sendText => { app with sendText := app.sendText.render lib (app.tryRead env) }
  | .sendFile => { app with sendFile := app.sendFile.render lib (app.tryRead env) }
  | .receive | .settings => app

/-- Show the PIN entry popup when a send is waiting on a PIN and no other popup is displayed. -/
def maybeOpenPinPrompt (lib : TuiLibrary I) (app : App I) : App I :=
  if app.pendingPinKind.isSome && app.popup.isNone then
    { app with popup := some (.pinEntry lib.defaultInput), dirty := true }
  else app

/-! ## Events -/

/-- The body of `poll_server_events` for one event; `responder` is the channel of a new request. -/
def pollServerEvent (app : App I) (responder : Nat) (env : AppEnv) (ev : ServerEvent) :
    App I × List AppEffect :=
  let app := { app with dirty := true }
  match ev with
  | .peerRegistered device =>
    if env.devicesLocked then (app, [])
    else
      ({ app with devices := (rememberDevice app.devices app.deviceInfo.fingerprint device).2 }, [])
  | .transferRequest sender files =>
    match app.popup with
    | none | some (.pinEntry _) =>
      ({ app with popup := some (.confirm ⟨responder, sender, files⟩) }, [])
    | some _ => (app, [.decide responder .decline])
  | .textReceived .. | .fileReceiveProgress .. | .fileReceived .. | .sessionDone _
  | .webShare => (app, [])

/-- The body of `poll_send_updates` for one update. -/
def pollSendUpdate (lib : TuiLibrary I) (app : App I) (update : SendUpdate) : App I :=
  let app := { app with dirty := true }
  match update with
  | .progress .. => app
  | .finished generation kind =>
    if generation ≠ app.sendGeneration then app
    else
      match kind with
      | .file => { app with sendFile := app.sendFile.clear lib }
      | .text => { app with sendText := app.sendText.clear lib }
  | .needsPin generation kind =>
    if generation ≠ app.sendGeneration then app
    else
      match kind with
      | .file =>
        { app with sendFile := { app.sendFile with isSending := false }, pendingPinKind := some .file }
      | .text =>
        { app with sendText := { app.sendText with isSending := false }, pendingPinKind := some .text }

/-! ## Sends -/

def spawnTextSend (lib : TuiLibrary I) (app : App I) (pin : Option String) :
    App I × List AppEffect :=
  match app.sendText.selectedDevice with
  | none => (app, [])
  | some target =>
    let message := app.sendText.payload lib
    if message = "" then (app, [])
    else
      let generation := app.sendGeneration + 1
      ({ app with sendGeneration := generation, sendText := { app.sendText with isSending := true } },
        [.spawn ⟨generation, .text, target, message, pin⟩])

def spawnFileSend (lib : TuiLibrary I) (app : App I) (pin : Option String) (env : AppEnv) :
    App I × List AppEffect :=
  match app.sendFile.selectedDevice with
  | none => (app, [])
  | some target =>
    let filePath := app.sendFile.payload lib
    if filePath = "" then (app, [])
    else if !env.fileExists filePath then (app, [])
    else
      let generation := app.sendGeneration + 1
      ({ app with sendGeneration := generation, sendFile := { app.sendFile with isSending := true } },
        [.spawn ⟨generation, .file, target, filePath, pin⟩])

def retryPendingSendWithPin (lib : TuiLibrary I) (app : App I) (pin : String) (env : AppEnv) :
    App I × List AppEffect :=
  match app.pendingPinKind with
  | some .file => spawnFileSend lib { app with pendingPinKind := none } (some pin) env
  | some .text => spawnTextSend lib { app with pendingPinKind := none } (some pin)
  | none => (app, [])

/-! ## Keys -/

def handlePopupKey (lib : TuiLibrary I) (app : App I) (key : KeyCode) (env : AppEnv) :
    App I × List AppEffect :=
  match app.popup with
  | some (.transferConfirm state) =>
    match key with
    | .up | .char 'k' => ({ app with popup := some (.transferConfirm state.moveUp) }, [])
    | .down | .char 'j' => ({ app with popup := some (.transferConfirm state.moveDown) }, [])
    | .char ' ' => ({ app with popup := some (.transferConfirm state.toggle) }, [])
    | .char 'a' | .char 'A' => ({ app with popup := some (.transferConfirm state.toggleAll) }, [])
    | .enter =>
      let ids := state.selectedIds
      let decision : TransferDecision :=
        if ids.isEmpty then .decline
        else if ids.length = state.files.length then .accept
        else .acceptFiles ids
      ({ app with popup := none }, [.decide state.request.responder decision])
    | .char 'y' | .char 'Y' =>
      ({ app with popup := none }, [.decide state.request.responder .accept])
    | .char 'n' | .char 'N' | .esc =>
      ({ app with popup := none }, [.decide state.request.responder .decline])
    | _ => (app, [])
  | some (.pinEntry input) =>
    match key with
    | .enter =>
      let pin := lib.value input
      if pin = "" then ({ app with popup := none, pendingPinKind := none }, [])
      else retryPendingSendWithPin lib { app with popup := none } pin env
    | .esc =>
      ({ app with popup := none, pendingPinKind := none, sendGeneration := app.sendGeneration + 1 }, [])
    | _ => ({ app with popup := some (.pinEntry (lib.handleEvent input key)) }, [])
  | some (.message ..) =>
    match key with
    | .enter | .esc => ({ app with popup := none }, [])
    | _ => (app, [])
  | some (.transferProgress ..) | none => (app, [])

def handleSendTextKey (lib : TuiLibrary I) (app : App I) (key : KeyCode) (env : AppEnv) :
    App I × List AppEffect :=
  match app.sendText.stage with
  | .selectDevice =>
    match key with
    | .up | .char 'k' => ({ app with sendText := app.sendText.previousDevice (app.tryRead env) }, [])
    | .down | .char 'j' => ({ app with sendText := app.sendText.nextDevice (app.tryRead env) }, [])
    | .enter => ({ app with sendText := app.sendText.selectCurrentDevice (app.tryRead env) }, [])
    | .char 'r' | .char 'R' => ({ app with sendText := app.sendText.requestRefresh }, [])
    | _ => (app, [])
  | .enterPayload =>
    match key with
    | .esc =>
      -- leaving cancels a send that is in flight
      ({ app with
          sendGeneration :=
            if app.sendText.isSending then app.sendGeneration + 1 else app.sendGeneration
          sendText := { app.sendText with isSending := false, stage := .selectDevice } }, [])
    | .enter => if app.sendText.isSending then (app, []) else spawnTextSend lib app none
    | _ =>
      ({ app with sendText := { app.sendText with input := lib.handleEvent app.sendText.input key } }, [])

def handleSendFileKey (lib : TuiLibrary I) (app : App I) (key : KeyCode) (env : AppEnv) :
    App I × List AppEffect :=
  match app.sendFile.stage with
  | .selectDevice =>
    match key with
    | .up | .char 'k' => ({ app with sendFile := app.sendFile.previousDevice (app.tryRead env) }, [])
    | .down | .char 'j' => ({ app with sendFile := app.sendFile.nextDevice (app.tryRead env) }, [])
    | .enter => ({ app with sendFile := app.sendFile.selectCurrentDevice (app.tryRead env) }, [])
    | .char 'r' | .char 'R' => ({ app with sendFile := app.sendFile.requestRefresh }, [])
    | _ => (app, [])
  | .enterPayload =>
    match key with
    | .esc =>
      ({ app with
          sendGeneration :=
            if app.sendFile.isSending then app.sendGeneration + 1 else app.sendGeneration
          sendFile := app.sendFile.clear lib }, [])
    | .enter => if app.sendFile.isSending then (app, []) else spawnFileSend lib app none env
    | _ =>
      -- unlike a message, a path is not edited while it is sent
      if app.sendFile.isSending then (app, [])
      else
        ({ app with
            sendFile := { app.sendFile with input := lib.handleEvent app.sendFile.input key } }, [])

def handleSettingsKey (app : App I) (key : KeyCode) : App I × List AppEffect :=
  match key with
  | .char ' ' | .enter | .char 'a' | .char 'A' =>
    ({ app with autoAccept := !app.autoAccept }, [.setAutoAccept (!app.autoAccept)])
  | _ => (app, [])

/-- The screen's part of `handle_key`. -/
def handleScreenKey (lib : TuiLibrary I) (app : App I) (key : KeyCode) (env : AppEnv) :
    App I × List AppEffect :=
  match app.screen with
  | .sendText => handleSendTextKey lib app key env
  | .sendFile => handleSendFileKey lib app key env
  | .receive => (app, [])
  | .settings => handleSettingsKey app key

/-- The end of `handle_key`: the refresh that a screen has requested. -/
def checkRefresh (app : App I) (env : AppEnv) : App I × List AppEffect :=
  let refresh := app.sendText.needsRefresh || app.sendFile.needsRefresh
  let app := { app with
    sendText := app.sendText.consumeRefresh
    sendFile := app.sendFile.consumeRefresh }
  if refresh then
    ({ app with devices := if env.devicesLocked then app.devices else [] }, [.announcePresence])
  else (app, [])

/-- Whether the screen is not in input mode. -/
def canSwitch (app : App I) : Bool :=
  match app.screen with
  | .sendText => app.sendText.stage = .selectDevice
  | .sendFile => app.sendFile.stage = .selectDevice
  | .receive | .settings => true

def handleKey (lib : TuiLibrary I) (app : App I) (key : KeyCode) (env : AppEnv) :
    App I × List AppEffect :=
  if app.popup.isSome then handlePopupKey lib app key env
  else if key = .char 'q' then ({ app with shouldQuit := true }, [])
  else if (key = .right ∨ key = .tab) ∧ app.canSwitch = true then
    ({ app with screen := app.screen.next }, [])
  else if key = .left ∧ app.canSwitch = true then ({ app with screen := app.screen.previous }, [])
  else
    let (app, effects) := handleScreenKey lib app key env
    let (app, refreshed) := checkRefresh app env
    (app, effects ++ refreshed)

end App

end LocalSend
