import LocalSend.Server.Events
import Mathlib.Data.List.Sort

/-!
# Popups

`src/tui/popup.rs`: what a popup holds, without how it is drawn.
-/

namespace LocalSend

/-- A key press, as `crossterm` reports it; `other` stands for the keys that only edit a text. -/
inductive KeyCode where
  | enter
  | esc
  | up
  | down
  | left
  | right
  | tab
  | char (c : Char)
  | other (code : Nat)
deriving DecidableEq, Repr

/-- Handle to answer an incoming `prepare-upload`. -/
structure PendingRequest where
  /-- The channel that the answer goes to. -/
  responder : Nat
  sender : DeviceInfo
  files : AssocMap FileId FileMetadata
deriving DecidableEq

/-- One offered file in the confirm dialog, with its per-file accept toggle. -/
structure ConfirmFile where
  id : FileId
  name : String
  size : Nat
  selected : Bool
deriving DecidableEq, Repr

structure ConfirmState where
  request : PendingRequest
  files : List ConfirmFile
  cursor : Nat
deriving DecidableEq

namespace ConfirmState

def moveUp (state : ConfirmState) : ConfirmState :=
  if state.files.isEmpty then state
  else { state with cursor := if state.cursor = 0 then state.files.length - 1 else state.cursor - 1 }

def moveDown (state : ConfirmState) : ConfirmState :=
  if state.files.isEmpty then state
  else { state with cursor := (state.cursor + 1) % state.files.length }

/-- Flip the file under the cursor. -/
def toggle (state : ConfirmState) : ConfirmState :=
  { state with files := state.files.modify state.cursor fun f => { f with selected := !f.selected } }

/-- If everything is selected, clear all; otherwise select all. -/
def toggleAll (state : ConfirmState) : ConfirmState :=
  let all := state.files.all ConfirmFile.selected
  { state with files := state.files.map fun f => { f with selected := !all } }

def selectedIds (state : ConfirmState) : List FileId :=
  (state.files.filter ConfirmFile.selected).map ConfirmFile.id

end ConfirmState

inductive MessageLevel where
  | success
  | error
  | info
deriving DecidableEq, Repr

/-- Types of popup overlays, over the inputs of a library. -/
inductive Popup (I : Type) where
  | transferConfirm (state : ConfirmState)
  | transferProgress (fileName : String) (received total : Nat)
  | message (text : String) (level : MessageLevel)
  | pinEntry (input : I)
deriving DecidableEq

/-- The order of the files of a dialog: by name, then by id. -/
def ConfirmFile.le (a b : ConfirmFile) : Bool :=
  ((compare a.name b.name).then (compare a.id.val b.id.val)).isLE

/-- `Popup::confirm`. -/
def Popup.confirm {I : Type} (request : PendingRequest) : Popup I :=
  .transferConfirm {
    request := request
    files := (request.files.entries.map fun e =>
      { id := e.1, name := e.2.fileName, size := e.2.size, selected := true }).insertionSort
        fun a b => ConfirmFile.le a b
    cursor := 0 }

end LocalSend
