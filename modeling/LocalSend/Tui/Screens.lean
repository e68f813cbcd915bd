import LocalSend.Tui.Popup

/-!
# The two screens that send

`SendTextScreen` (`src/tui/screens/send_text.rs`) and `SendFileScreen`
(`src/tui/screens/send_file.rs`), which have the same fields and the same functions but for the
gauge of the second. The devices are those that `try_read` sees; where another task writes them, the
screens see none.
-/

namespace LocalSend

/-- What the screens take from `tui_input` and `ratatui`, over the type of inputs. -/
structure TuiLibrary (I : Type) where
  /-- `Input::default`, and what `Input::reset` leaves. -/
  defaultInput : I
  value : I → String
  handleEvent : I → KeyCode → I
  /-- What drawing a table with so many rows makes of its selection. -/
  renderTable : Nat → Option Nat → Option Nat

/-- A library with the inputs that are edited at their end only. -/
def TuiLibrary.plain : TuiLibrary String where
  defaultInput := ""
  value := id
  handleEvent input key :=
    match key with
    | .char c => input.push c
    | _ => input
  renderTable rows selected := selected.map fun i => min i (rows - 1)

/-- Stage in a send flow: select a device, then enter a message or a file path. -/
inductive SendStage where
  | selectDevice
  | enterPayload
deriving DecidableEq, Repr

structure SendScreen (I : Type) where
  stage : SendStage
  /-- The row that is selected in the table. -/
  tableState : Option Nat
  selectedDevice : Option DeviceInfo
  input : I
  isSending : Bool
  needsRefresh : Bool
deriving DecidableEq

namespace SendScreen

variable {I : Type}

def new (lib : TuiLibrary I) : SendScreen I where
  stage := .selectDevice
  tableState := none
  selectedDevice := none
  input := lib.defaultInput
  isSending := false
  needsRefresh := false

def clear (lib : TuiLibrary I) (screen : SendScreen I) : SendScreen I :=
  { screen with
    stage := .selectDevice
    selectedDevice := none
    input := lib.defaultInput
    isSending := false
    tableState := none }

/-- `message` and `file_path`. -/
def payload (lib : TuiLibrary I) (screen : SendScreen I) : String := lib.value screen.input

def nextDevice (devices : Option (List DeviceInfo)) (screen : SendScreen I) : SendScreen I :=
  match devices with
  | none | some [] => screen
  | some devices =>
    { screen with
      tableState := some (match screen.tableState with
        | some i => (i + 1) % devices.length
        | none => 0) }

def previousDevice (devices : Option (List DeviceInfo)) (screen : SendScreen I) : SendScreen I :=
  match devices with
  | none | some [] => screen
  | some devices =>
    { screen with
      tableState := some (match screen.tableState with
        | some i => if i = 0 then devices.length - 1 else i - 1
        | none => 0) }

def selectCurrentDevice (devices : Option (List DeviceInfo)) (screen : SendScreen I) :
    SendScreen I :=
  match devices.bind fun devices => screen.tableState.bind fun i => devices[i]? with
  | some device => { screen with selectedDevice := some device, stage := .enterPayload }
  | none => screen

def requestRefresh (screen : SendScreen I) : SendScreen I := { screen with needsRefresh := true }

/-- The screen after `consume_refresh`, which tells whether a refresh was wanted. -/
def consumeRefresh (screen : SendScreen I) : SendScreen I := { screen with needsRefresh := false }

/-- What drawing a screen changes in it. -/
def render (lib : TuiLibrary I) (devices : Option (List DeviceInfo)) (screen : SendScreen I) :
    SendScreen I :=
  match screen.stage, devices with
  | .selectDevice, some (device :: rest) =>
    { screen with
      tableState := lib.renderTable (device :: rest).length (some (screen.tableState.getD 0)) }
  | _, _ => screen

end SendScreen

end LocalSend
