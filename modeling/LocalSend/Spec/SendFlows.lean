import LocalSend.Tui.Run

/-!
# The two send flows

A send takes its target and its payload from the screen of its flow. Here is what the handlers of
keys, events and updates do to the screens, to the generation and to the flow that waits for a PIN,
and which tasks they spawn. What a key is going to do can be told from the state before it.

## Key results

- `spawnSend_cases`: a flow sends what is on its screen, or does nothing
- `handleKey_moves`, `handlePopupKey_moves`: what a key does, without a popup and with one
- `pollSendUpdate_finished`, `pollSendUpdate_needsPin`: what an update of the current send does
-/

namespace LocalSend

variable {I : Type} {lib : TuiLibrary I}

/-! ## Flows -/

/-- The screen of a flow. -/
def App.flow (app : App I) (kind : SendKind) : SendScreen I :=
  match kind with
  | .file => app.sendFile
  | .text => app.sendText

/-- What a send of a flow would take from its screen. -/
def App.sends (lib : TuiLibrary I) (app : App I) (kind : SendKind) : Option DeviceInfo × String :=
  ((app.flow kind).selectedDevice, (app.flow kind).payload lib)

/-- `spawn_file_send` and `spawn_text_send`. -/
def App.spawnSend (lib : TuiLibrary I) (app : App I) (kind : SendKind) (pin : Option String)
    (env : AppEnv) :
    App I × List AppEffect :=
  match kind with
  | .file => app.spawnFileSend lib pin env
  | .text => app.spawnTextSend lib pin

/-- The tasks among the effects of a handler. -/
def spawned (effects : List AppEffect) : List SendTask := effects.filterMap AppEffect.task?

/-- Whether a payload can be sent: a path has to exist. -/
def sendable (env : AppEnv) (kind : SendKind) (payload : String) : Bool :=
  kind = .text || env.fileExists payload

/-- What a flow sends, if it sends. -/
structure Spawns (lib : TuiLibrary I) (app : App I) (kind : SendKind) (pin : Option String)
    (target : DeviceInfo) (payload : String) (r : App I × List AppEffect) : Prop where
  sends : app.sends lib kind = (some target, payload)
  nonempty : payload ≠ ""
  task : spawned r.2 = [⟨app.sendGeneration + 1, kind, target, payload, pin⟩]
  generation : r.1.sendGeneration = app.sendGeneration + 1
  pending : r.1.pendingPinKind = app.pendingPinKind
  keeps : ∀ k, r.1.sends lib k = app.sends lib k

/-- A send is spawned with the target and the payload of its screen, or nothing happens, and then
    there was nothing to send. -/
theorem spawnSend_cases (lib : TuiLibrary I) (app : App I) (kind : SendKind) (pin : Option String)
    (env : AppEnv) :
    (app.spawnSend lib kind pin env = (app, []) ∧ ∀ target payload, payload ≠ "" →
        app.sends lib kind = (some target, payload) → sendable env kind payload = false) ∨
      ∃ target payload, sendable env kind payload = true ∧
        Spawns lib app kind pin target payload (app.spawnSend lib kind pin env) := by
  -- no target, nothing to send, no such path, or the send
  cases kind with
  | file =>
    unfold App.spawnSend App.spawnFileSend
    dsimp only
    split
    · rename_i hnone
      refine .inl ⟨rfl, fun target payload _ hsends => ?_⟩
      cases hnone.symm.trans (congrArg Prod.fst hsends)
    · rename_i target htarget
      split
      · rename_i hempty
        refine .inl ⟨rfl, fun target payload hpayload hsends => ?_⟩
        exact absurd ((congrArg Prod.snd hsends).symm.trans hempty) hpayload
      · rename_i hpayload
        split
        · -- no such path
          rename_i hmissing
          refine .inl ⟨rfl, fun target payload _ hsends => ?_⟩
          rw [← show app.sendFile.payload lib = payload from congrArg Prod.snd hsends]
          simpa [sendable] using hmissing
        · rename_i hexists
          refine .inr ⟨target, app.sendFile.payload lib, by simpa [sendable] using hexists, ?_⟩
          exact ⟨Prod.ext htarget rfl, hpayload, rfl, rfl, rfl, fun k => by cases k <;> rfl⟩
  -- a text needs no path
  | text =>
    unfold App.spawnSend App.spawnTextSend
    dsimp only
    split
    · rename_i hnone
      refine .inl ⟨rfl, fun target payload _ hsends => ?_⟩
      cases hnone.symm.trans (congrArg Prod.fst hsends)
    · rename_i target htarget
      split
      · rename_i hempty
        refine .inl ⟨rfl, fun target payload hpayload hsends => ?_⟩
        exact absurd ((congrArg Prod.snd hsends).symm.trans hempty) hpayload
      · rename_i hpayload
        refine .inr ⟨target, app.sendText.payload lib, rfl, ?_⟩
        exact ⟨Prod.ext htarget rfl, hpayload, rfl, rfl, rfl, fun k => by cases k <;> rfl⟩

/-! ## What a key asks for -/

/-- The flow of a screen that sends. -/
def Screen.flow : Screen → Option SendKind
  | .sendText => some .text
  | .sendFile => some .file
  | .receive | .settings => none

/-- The flow whose screen a key goes to. -/
def App.keyFlow (app : App I) (key : KeyCode) : Option SendKind :=
  if app.popup.isSome || key = .char 'q' ||
      (key = .right || key = .tab || key = .left) && app.canSwitch then none
  else app.screen.flow

/-- Whether a flow has what it takes to send. -/
def App.ready (lib : TuiLibrary I) (app : App I) (kind : SendKind) (env : AppEnv) : Bool :=
  (app.flow kind).selectedDevice.isSome && (app.flow kind).payload lib ≠ "" &&
    sendable env kind ((app.flow kind).payload lib)

/-- Whether a key sends what is on the screen of a flow. -/
def App.startsSend (lib : TuiLibrary I) (app : App I) (kind : SendKind) (key : KeyCode)
    (env : AppEnv) : Bool :=
  app.keyFlow key = some kind && key = .enter && (app.flow kind).stage = .enterPayload &&
    !(app.flow kind).isSending && app.ready lib kind env

/-- Whether a key leaves a flow while it sends. -/
def App.cancelsSend (app : App I) (kind : SendKind) (key : KeyCode) : Bool :=
  app.keyFlow key = some kind && key = .esc && (app.flow kind).stage = .enterPayload &&
    (app.flow kind).isSending

/-- The device of the selected row. -/
def SendScreen.highlighted (devices : Option (List DeviceInfo)) (screen : SendScreen I) :
    Option DeviceInfo :=
  devices.bind fun devices => screen.tableState.bind fun i => devices[i]?

/-- Whether a key changes the device or the text on the screen of a flow. Leaving the file screen
    clears it, and its path is not edited while it is sent. -/
def App.changesSend (lib : TuiLibrary I) (app : App I) (kind : SendKind) (key : KeyCode)
    (env : AppEnv) :
    Bool :=
  app.keyFlow key = some kind &&
    match (app.flow kind).stage, key with
    | .selectDevice, .enter =>
      ((app.flow kind).highlighted (app.tryRead env)).any fun device =>
        (app.flow kind).selectedDevice ≠ some device
    | .selectDevice, _ | .enterPayload, .enter => false
    | .enterPayload, .esc => kind = .file
    | .enterPayload, key =>
      !(kind = .file && (app.flow kind).isSending) &&
        lib.value (lib.handleEvent (app.flow kind).input key) ≠ lib.value (app.flow kind).input

/-- Whether a key starts or cancels a send, from a screen or from the PIN prompt. -/
def App.takesGeneration (lib : TuiLibrary I) (app : App I) (key : KeyCode) (env : AppEnv) : Bool :=
  match app.popup with
  | some (.pinEntry input) =>
    key = .esc || key = .enter && lib.value input ≠ "" &&
      app.pendingPinKind.any fun kind => app.ready lib kind env
  | some _ => false
  | none =>
    [SendKind.file, .text].any fun kind => app.startsSend lib kind key env ||
      app.cancelsSend kind key

/-! ## Keys on a screen -/

/-- A key on a screen edits it, cancels a send, or starts one. -/
inductive ScreenMoves (lib : TuiLibrary I) (app : App I) (key : KeyCode) (env : AppEnv)
    (r : App I × List AppEffect) : Prop
  | edits : (∀ kind, app.cancelsSend kind key = false) →
    (∀ kind, app.changesSend lib kind key env = false → r.1.sends lib kind = app.sends lib kind) →
    spawned r.2 = [] → r.1.pendingPinKind = app.pendingPinKind →
      r.1.sendGeneration = app.sendGeneration →
    ScreenMoves lib app key env r
  | cancels {kind : SendKind} : app.cancelsSend kind key = true →
    (∀ k, app.changesSend lib k key env = false → r.1.sends lib k = app.sends lib k) →
    spawned r.2 = [] → r.1.pendingPinKind = app.pendingPinKind →
      r.1.sendGeneration = app.sendGeneration + 1 →
    ScreenMoves lib app key env r
  | starts {kind : SendKind} {target : DeviceInfo} {payload : String} :
  app.startsSend lib kind key env = true →
    Spawns lib app kind none target payload r → ScreenMoves lib app key env r

/-- A key cancels no send unless it is Escape while one is under way. -/
theorem cancelsSend_eq_false {app : App I} {key : KeyCode} {k : SendKind}
    (hflow : app.keyFlow key = some k)
    (h : ¬(key = .esc ∧ (app.flow k).stage = .enterPayload ∧ (app.flow k).isSending = true))
    (kind : SendKind) :
    app.cancelsSend kind key = false := by
  rw [← Bool.not_eq_true]
  intro hcancels
  unfold App.cancelsSend at hcancels
  simp only [hflow, Bool.and_eq_true, decide_eq_true_eq, Option.some.injEq] at hcancels
  obtain ⟨⟨⟨rfl, hkey⟩, hstage⟩, hsending⟩ := hcancels
  exact h ⟨hkey, hstage, hsending⟩

/-- A flow sends, or has not what it takes. -/
theorem Spawns.ready {app : App I} {kind : SendKind} {pin : Option String} {target : DeviceInfo}
    {payload : String} {env : AppEnv} {r : App I × List AppEffect}
    (h : Spawns lib app kind pin target payload r) (hsendable : sendable env kind payload = true) :
    app.ready lib kind env = true := by
  have hdevice : (app.flow kind).selectedDevice = some target := congrArg Prod.fst h.sends
  have hpayload : (app.flow kind).payload lib = payload := congrArg Prod.snd h.sends
  unfold App.ready
  rw [hdevice, hpayload, hsendable]
  simpa using h.nonempty

/-- Going to the next device keeps what was selected and typed. -/
theorem nextDevice_kept (devices : Option (List DeviceInfo)) (screen : SendScreen I) :
    (screen.nextDevice devices).selectedDevice = screen.selectedDevice ∧
      (screen.nextDevice devices).input = screen.input := by
  unfold SendScreen.nextDevice
  split
  all_goals exact ⟨rfl, rfl⟩

/-- Going to the previous one does so too. -/
theorem previousDevice_kept (devices : Option (List DeviceInfo)) (screen : SendScreen I) :
    (screen.previousDevice devices).selectedDevice = screen.selectedDevice ∧
      (screen.previousDevice devices).input = screen.input := by
  unfold SendScreen.previousDevice
  split
  all_goals exact ⟨rfl, rfl⟩

/-- The device that is selected may be the one that was. -/
theorem selectCurrentDevice_kept (devices : Option (List DeviceInfo)) (screen : SendScreen I) :
    (screen.selectCurrentDevice devices).input = screen.input ∧
      (((screen.highlighted devices).any fun device => screen.selectedDevice ≠ some device) = false →
        (screen.selectCurrentDevice devices).selectedDevice = screen.selectedDevice) := by
  unfold SendScreen.selectCurrentDevice
  split
  · rename_i device hrow
    refine ⟨rfl, fun hsame => ?_⟩
    rw [show screen.highlighted devices = some device from hrow] at hsame
    rw [Option.any_some, decide_eq_false_iff_not, not_not] at hsame
    exact hsame.symm
  · exact ⟨rfl, fun _ => rfl⟩

/-- Enter on the list of devices changes the target if it selects another one. -/
theorem changesSend_enter {app : App I} {kind : SendKind} (hflow : app.keyFlow .enter = some kind)
    (hstage : (app.flow kind).stage = .selectDevice) (env : AppEnv) :
    app.changesSend lib kind .enter env =
      ((app.flow kind).highlighted (app.tryRead env)).any fun device =>
        (app.flow kind).selectedDevice ≠ some device := by
  unfold App.changesSend
  rw [hflow, hstage, decide_eq_true rfl, Bool.true_and]

/-- Escape from the payload changes what the file screen would send, and never what the text screen
    would. -/
theorem changesSend_esc {app : App I} {kind : SendKind} (hflow : app.keyFlow .esc = some kind)
    (hstage : (app.flow kind).stage = .enterPayload) (env : AppEnv) :
    app.changesSend lib kind .esc env = decide (kind = .file) := by
  unfold App.changesSend
  rw [hflow, hstage, decide_eq_true rfl, Bool.true_and]

/-- A key that types changes a send if it changes the text, and the screen takes it. -/
theorem changesSend_typed {app : App I} {kind : SendKind} {key : KeyCode}
    (hflow : app.keyFlow key = some kind) (hstage : (app.flow kind).stage = .enterPayload)
    (henter : key ≠ .enter) (hesc : key ≠ .esc) (env : AppEnv) :
    app.changesSend lib kind key env = (!(kind = .file && (app.flow kind).isSending) &&
      lib.value (lib.handleEvent (app.flow kind).input key) ≠ lib.value (app.flow kind).input) := by
  unfold App.changesSend
  rw [hflow, hstage, decide_eq_true rfl, Bool.true_and]
  cases key with
  | enter => exact absurd rfl henter
  | esc => exact absurd rfl hesc
  | up | down | left | right | tab | char | other => rfl

/-- A handler that changes the screen of one flow and leaves the sends alone. -/
theorem ScreenMoves.of_edit {app app' : App I} (kind : SendKind) {key : KeyCode} {env : AppEnv}
    (hno : ∀ kind, app.cancelsSend kind key = false)
    (hother : ∀ k ≠ kind, app'.flow k = app.flow k)
    (hsends : app.changesSend lib kind key env = false →
      (app'.flow kind).selectedDevice = (app.flow kind).selectedDevice ∧
        lib.value (app'.flow kind).input = lib.value (app.flow kind).input)
    (hpending : app'.pendingPinKind = app.pendingPinKind)
    (hgeneration : app'.sendGeneration = app.sendGeneration) :
    ScreenMoves lib app key env (app', []) := by
  refine .edits hno (fun k hk => ?_) rfl hpending hgeneration
  by_cases hkind : k = kind
  · subst hkind
    obtain ⟨hdevice, hvalue⟩ := hsends hk
    exact Prod.ext hdevice hvalue
  · unfold App.sends
    rw [hother k hkind]

/-- A new text screen that keeps the target and the payload, or a key that is known to change
    them. -/
theorem ScreenMoves.of_text {app : App I} {key : KeyCode} {env : AppEnv} {screen : SendScreen I}
    (hno : ∀ kind, app.cancelsSend kind key = false)
    (hsends : app.changesSend lib .text key env = false →
      screen.selectedDevice = app.sendText.selectedDevice ∧
        lib.value screen.input = lib.value app.sendText.input) :
    ScreenMoves lib app key env ({ app with sendText := screen }, []) := by
  refine .of_edit .text hno (fun k hk => ?_) hsends rfl rfl
  cases k with
  | file => rfl
  | text => exact absurd rfl hk

/-- The same of the file screen. -/
theorem ScreenMoves.of_file {app : App I} {key : KeyCode} {env : AppEnv} {screen : SendScreen I}
    (hno : ∀ kind, app.cancelsSend kind key = false)
    (hsends : app.changesSend lib .file key env = false →
      screen.selectedDevice = app.sendFile.selectedDevice ∧
        lib.value screen.input = lib.value app.sendFile.input) :
    ScreenMoves lib app key env ({ app with sendFile := screen }, []) := by
  refine .of_edit .file hno (fun k hk => ?_) hsends rfl rfl
  cases k with
  | file => exact absurd rfl hk
  | text => rfl

/-- A key that nothing listens to. -/
theorem ScreenMoves.ignored {app : App I} {key : KeyCode} {env : AppEnv}
    (hno : ∀ kind, app.cancelsSend kind key = false) : ScreenMoves lib app key env (app, []) :=
  .edits hno (fun _ _ => rfl) rfl rfl rfl

/-- Enter sends what is on the screen, unless it is being sent. -/
theorem ScreenMoves.of_spawnSend {app : App I} {kind : SendKind}
    (hflow : app.keyFlow .enter = some kind) (hstage : (app.flow kind).stage = .enterPayload)
    (hidle : (app.flow kind).isSending = false) (env : AppEnv) :
    ScreenMoves lib app .enter env (app.spawnSend lib kind none env) := by
  obtain ⟨heq, -⟩ | ⟨target, payload, hsendable, hspawns⟩ := spawnSend_cases lib app kind none env
  · rw [heq]
    exact .ignored (cancelsSend_eq_false hflow (by simp))
  · refine .starts ?_ hspawns
    unfold App.startsSend
    rw [hflow, hstage, hidle, hspawns.ready hsendable]
    simp

/-- The keys of the text screen. -/
theorem handleSendTextKey_moves {app : App I} {key : KeyCode} (hflow : app.keyFlow key = some .text)
    (env : AppEnv) : ScreenMoves lib app key env (app.handleSendTextKey lib key env) := by
  unfold App.handleSendTextKey
  -- the stage of the device, then the stage of the text
  split
  · rename_i hstage
    have hno := cancelsSend_eq_false hflow fun h => SendStage.noConfusion (hstage.symm.trans h.2.1)
    -- a move in the table leaves the device that was selected
    have hmove : ∀ screen : SendScreen I, screen.selectedDevice = app.sendText.selectedDevice ∧
        screen.input = app.sendText.input →
          ScreenMoves lib app key env ({ app with sendText := screen }, []) :=
      fun screen h => .of_text hno fun _ => ⟨h.1, congrArg lib.value h.2⟩
    split
    · exact hmove _ (previousDevice_kept ..)
    · exact hmove _ (previousDevice_kept ..)
    · exact hmove _ (nextDevice_kept ..)
    · exact hmove _ (nextDevice_kept ..)
    -- Enter takes the device at the cursor
    · obtain ⟨hinput, hdevice⟩ := selectCurrentDevice_kept (app.tryRead env) app.sendText
      refine .of_text hno fun hsame => ⟨hdevice ?_, congrArg lib.value hinput⟩
      rw [changesSend_enter hflow hstage] at hsame
      exact hsame
    · exact hmove _ ⟨rfl, rfl⟩
    · exact hmove _ ⟨rfl, rfl⟩
    · exact .ignored hno
  · rename_i hstage
    -- Escape while sending cancels the send and keeps the text
    split
    · cases hsending : app.sendText.isSending with
      | true =>
        refine .cancels (?_ : app.cancelsSend .text .esc = true)
          (fun k _ => by cases k <;> rfl) rfl rfl rfl
        unfold App.cancelsSend
        rw [hflow, show (app.flow .text).stage = _ from hstage,
          show (app.flow .text).isSending = _ from hsending]
        rfl
      | false =>
        refine .of_edit .text (cancelsSend_eq_false hflow ?_) (fun k hk => ?_)
          (fun _ => ⟨rfl, rfl⟩) rfl rfl
        · exact fun h => Bool.noConfusion (hsending.symm.trans h.2.2)
        · cases k with
          | file => rfl
          | text => exact absurd rfl hk
    -- Enter sends, unless a send is under way
    · split
      · exact .ignored (cancelsSend_eq_false hflow (by simp))
      · rename_i hidle
        exact ScreenMoves.of_spawnSend hflow hstage (Bool.eq_false_iff.mpr hidle) env
    -- any other key edits the text
    · rename_i hesc henter
      refine .of_text (cancelsSend_eq_false hflow fun h => hesc h.1) fun hsame => ⟨rfl, ?_⟩
      rw [changesSend_typed hflow hstage henter hesc] at hsame
      have hvalue : lib.value (lib.handleEvent (app.flow .text).input key) =
          lib.value (app.flow .text).input := by simpa using hsame
      exact hvalue

/-- The keys of the file screen. -/
theorem handleSendFileKey_moves {app : App I} {key : KeyCode} (hflow : app.keyFlow key = some .file)
    (env : AppEnv) : ScreenMoves lib app key env (app.handleSendFileKey lib key env) := by
  unfold App.handleSendFileKey
  split
  · rename_i hstage
    have hno := cancelsSend_eq_false hflow fun h => SendStage.noConfusion (hstage.symm.trans h.2.1)
    have hmove : ∀ screen : SendScreen I, screen.selectedDevice = app.sendFile.selectedDevice ∧
        screen.input = app.sendFile.input →
          ScreenMoves lib app key env ({ app with sendFile := screen }, []) :=
      fun screen h => .of_file hno fun _ => ⟨h.1, congrArg lib.value h.2⟩
    split
    · exact hmove _ (previousDevice_kept ..)
    · exact hmove _ (previousDevice_kept ..)
    · exact hmove _ (nextDevice_kept ..)
    · exact hmove _ (nextDevice_kept ..)
    -- Enter takes the device at the cursor
    · obtain ⟨hinput, hdevice⟩ := selectCurrentDevice_kept (app.tryRead env) app.sendFile
      refine .of_file hno fun hsame => ⟨hdevice ?_, congrArg lib.value hinput⟩
      rw [changesSend_enter hflow hstage] at hsame
      exact hsame
    · exact hmove _ ⟨rfl, rfl⟩
    · exact hmove _ ⟨rfl, rfl⟩
    · exact .ignored hno
  · rename_i hstage
    -- the three keys of the payload: Escape, Enter, and the rest
    split
    · have hclears : app.changesSend lib .file .esc env = true := changesSend_esc hflow hstage env
      -- leaving clears the screen of the file, and no other
      have hkept : ∀ k, app.changesSend lib k .esc env = false → k ≠ .file := by
        rintro k hk rfl
        rw [hclears] at hk
        cases hk
      cases hsending : app.sendFile.isSending with
      | true =>
        refine .cancels (?_ : app.cancelsSend .file .esc = true) (fun k hk => ?_) rfl rfl rfl
        · unfold App.cancelsSend
          rw [hflow, show (app.flow .file).stage = _ from hstage,
            show (app.flow .file).isSending = _ from hsending]
          rfl
        · cases k with
          | file => exact absurd rfl (hkept _ hk)
          | text => rfl
      | false =>
        refine .of_edit .file (cancelsSend_eq_false hflow ?_) (fun k hk => ?_)
          (fun hsame => absurd rfl (hkept _ hsame)) rfl rfl
        · exact fun h => Bool.noConfusion (hsending.symm.trans h.2.2)
        · cases k with
          | file => exact absurd rfl hk
          | text => rfl
    -- Enter sends, unless a send is under way
    · split
      · exact .ignored (cancelsSend_eq_false hflow (by simp))
      · rename_i hidle
        exact ScreenMoves.of_spawnSend hflow hstage (Bool.eq_false_iff.mpr hidle) env
    -- the path can only be edited while nothing is sent
    · rename_i hesc henter
      have hno := cancelsSend_eq_false hflow fun h => hesc h.1
      split
      · exact .ignored hno
      · rename_i hidle
        refine .of_file hno fun hsame => ⟨rfl, ?_⟩
        rw [changesSend_typed hflow hstage henter hesc,
          show (app.flow .file).isSending = false from Bool.eq_false_iff.mpr hidle] at hsame
        have hvalue : lib.value (lib.handleEvent (app.flow .file).input key) =
            lib.value (app.flow .file).input := by simpa using hsame
        exact hvalue

/-- A handler that leaves what the flows would send, and the generation. -/
structure FlowsKept (lib : TuiLibrary I) (app app' : App I) : Prop where
  sends : ∀ kind, app'.sends lib kind = app.sends lib kind
  generation : app'.sendGeneration = app.sendGeneration

/-- The flows are kept with their screens. -/
theorem FlowsKept.of_screens {app app' : App I} (htext : app'.sendText = app.sendText)
    (hfile : app'.sendFile = app.sendFile)
    (hgeneration : app'.sendGeneration = app.sendGeneration) :
    FlowsKept lib app app' := by
  have hflow : ∀ kind, app'.flow kind = app.flow kind := by
    intro kind
    cases kind with
    | file => exact hfile
    | text => exact htext
  constructor
  · intro kind
    unfold App.sends
    rw [hflow]
  · exact hgeneration

/-- Looking for devices spawns no send and keeps the flows. -/
theorem checkRefresh_kept (lib : TuiLibrary I) (app : App I) (env : AppEnv) :
    spawned (app.checkRefresh env).2 = [] ∧
      (app.checkRefresh env).1.pendingPinKind = app.pendingPinKind ∧
      FlowsKept lib app (app.checkRefresh env).1 := by
  have hkept : ∀ app' : App I, app'.sendText = app.sendText.consumeRefresh →
      app'.sendFile = app.sendFile.consumeRefresh → app'.sendGeneration = app.sendGeneration →
      FlowsKept lib app app' := by
    intro app' htext hfile hgeneration
    constructor
    · intro kind
      unfold App.sends App.flow
      cases kind with
      | file => rw [hfile]; rfl
      | text => rw [htext]; rfl
    · exact hgeneration
  -- only the flags of the refresh are taken
  unfold App.checkRefresh
  dsimp only
  split
  · exact ⟨rfl, rfl, hkept _ rfl rfl rfl⟩
  · exact ⟨rfl, rfl, hkept _ rfl rfl rfl⟩

/-- The sends that two lists of effects spawn. -/
theorem spawned_append (effects effects' : List AppEffect) :
    spawned (effects ++ effects') = spawned effects ++ spawned effects' := List.filterMap_append

/-- A key that goes to no screen of a flow. -/
theorem ScreenMoves.of_elsewhere {app app' : App I} {key : KeyCode} {env : AppEnv}
    {effects : List AppEffect} (hflow : app.keyFlow key = none) (hspawned : spawned effects = [])
    (htext : app'.sendText = app.sendText) (hfile : app'.sendFile = app.sendFile)
    (hpending : app'.pendingPinKind = app.pendingPinKind)
    (hgeneration : app'.sendGeneration = app.sendGeneration) :
    ScreenMoves lib app key env (app', effects) := by
  have hkept : FlowsKept lib app app' := .of_screens htext hfile hgeneration
  refine .edits (fun kind => ?_) (fun kind _ => hkept.sends kind) hspawned hpending hgeneration
  unfold App.cancelsSend
  rw [hflow]
  rfl

/-- What a refresh does after a key changes no flow. -/
theorem ScreenMoves.checkRefresh {app : App I} {key : KeyCode} {env : AppEnv}
    {r : App I × List AppEffect} (h : ScreenMoves lib app key env r) :
    ScreenMoves lib app key env ((r.1.checkRefresh env).1, r.2 ++ (r.1.checkRefresh env).2) := by
  obtain ⟨hspawned, hpending, hkept⟩ := checkRefresh_kept lib r.1 env
  have hboth : spawned (r.2 ++ (r.1.checkRefresh env).2) = spawned r.2 := by
    rw [spawned_append, hspawned, List.append_nil]
  cases h with
  | edits hno hsends hnone hsame hgeneration =>
    exact .edits hno (fun kind hkind => (hkept.sends kind).trans (hsends kind hkind))
      (hboth.trans hnone)
      (hpending.trans hsame) (hkept.generation.trans hgeneration)
  | cancels hcancels hsends hnone hsame hgeneration =>
    exact .cancels hcancels (fun kind hkind => (hkept.sends kind).trans (hsends kind hkind))
      (hboth.trans hnone)
      (hpending.trans hsame) (hkept.generation.trans hgeneration)
  | starts hstarts h =>
    exact .starts hstarts ⟨h.sends, h.nonempty, hboth.trans h.task,
      hkept.generation.trans h.generation,
      hpending.trans h.pending, fun k => (hkept.sends k).trans (h.keeps k)⟩

/-- The keys of whatever screen is shown. -/
theorem handleScreenKey_moves {app : App I} {key : KeyCode}
    (hflow : app.keyFlow key = app.screen.flow) (env : AppEnv) :
    ScreenMoves lib app key env (app.handleScreenKey lib key env) := by
  unfold App.handleScreenKey
  split
  · rename_i hscreen
    exact handleSendTextKey_moves (by rw [hflow, hscreen]; rfl) env
  · rename_i hscreen
    exact handleSendFileKey_moves (by rw [hflow, hscreen]; rfl) env
  · rename_i hscreen
    exact .of_elsewhere (by rw [hflow, hscreen]; rfl) rfl rfl rfl rfl rfl
  · rename_i hscreen
    unfold App.handleSettingsKey
    split
    all_goals exact .of_elsewhere (by rw [hflow, hscreen]; rfl) rfl rfl rfl rfl rfl

/-- A key without a popup edits a screen, cancels a send, or starts one. -/
theorem handleKey_moves (lib : TuiLibrary I) {app : App I} (hpopup : app.popup = none)
    (key : KeyCode) (env : AppEnv) : ScreenMoves lib app key env (app.handleKey lib key env) := by
  -- a key is of a flow unless it leaves the screen
  have hflow : app.keyFlow key =
      if key = .char 'q' ∨ (key = .right ∨ key = .tab ∨ key = .left) ∧
        app.canSwitch = true then none
      else app.screen.flow := by
    unfold App.keyFlow
    rw [hpopup]
    simp only [Option.isSome_none, Bool.false_or, Bool.or_eq_true, Bool.and_eq_true,
      decide_eq_true_eq, or_assoc]
  unfold App.handleKey
  rw [if_neg (by rw [hpopup]; exact Bool.false_ne_true)]
  -- quit, next, previous, or a key for the screen
  split
  · rename_i hq
    exact .of_elsewhere (hflow.trans (if_pos (.inl hq))) rfl rfl rfl rfl rfl
  · rename_i hq
    split
    · rename_i hnext
      exact .of_elsewhere (hflow.trans (if_pos (by tauto))) rfl rfl rfl rfl rfl
    · rename_i hnext
      split
      · rename_i hprevious
        exact .of_elsewhere (hflow.trans (if_pos (by tauto))) rfl rfl rfl rfl rfl
      · rename_i hprevious
        exact (handleScreenKey_moves (hflow.trans (if_neg (by tauto))) env).checkRefresh

/-! ## Keys on a popup -/

/-- A key on a popup leaves the flows alone, cancels the send that waits for a PIN, or retries
    it. -/
inductive PopupMoves (lib : TuiLibrary I) (app : App I) (key : KeyCode) (env : AppEnv)
    (r : App I × List AppEffect) : Prop
  | keeps : spawned r.2 = [] → FlowsKept lib app r.1 →
    r.1.pendingPinKind = app.pendingPinKind ∨ r.1.pendingPinKind = none →
      PopupMoves lib app key env r
  | cancels {input : I} : key = .esc → app.popup = some (.pinEntry input) → spawned r.2 = [] →
    r.1.pendingPinKind = none → r.1.sendGeneration = app.sendGeneration + 1 →
      PopupMoves lib app key env r
  | retries {input : I} {kind : SendKind} : key = .enter → app.popup = some (.pinEntry input) →
    lib.value input ≠ "" → app.pendingPinKind = some kind →
    r = App.spawnSend lib { app with popup := none, pendingPinKind := none } kind
      (some (lib.value input)) env →
    PopupMoves lib app key env r

/-- The keys of whatever popup is open. -/
theorem handlePopupKey_moves (lib : TuiLibrary I) (app : App I) (key : KeyCode) (env : AppEnv) :
    PopupMoves lib app key env (app.handlePopupKey lib key env) := by
  -- only the popup changes
  have hpopup : ∀ r : App I × List AppEffect, spawned r.2 = [] → r.1.sendText = app.sendText →
      r.1.sendFile = app.sendFile → r.1.sendGeneration = app.sendGeneration →
      r.1.pendingPinKind = app.pendingPinKind → PopupMoves lib app key env r :=
    fun r hnone htext hfile hgeneration hpending =>
      .keeps hnone (.of_screens htext hfile hgeneration) (.inl hpending)
  unfold App.handlePopupKey
  -- a dialog, the prompt for a PIN, a message, and what takes no key
  split
  · split
    all_goals exact hpopup _ rfl rfl rfl rfl rfl
  · rename_i input hinput
    -- Enter with a value retries, Escape cancels
    split
    · dsimp only
      split
      · exact .keeps rfl (.of_screens rfl rfl rfl) (.inr rfl)
      · rename_i hvalue
        -- of the two kinds, the one that waits for a PIN
        unfold App.retryPendingSendWithPin
        split
        · rename_i hpending
          exact .retries rfl hinput hvalue hpending rfl
        · rename_i hpending
          exact .retries rfl hinput hvalue hpending rfl
        · exact hpopup _ rfl rfl rfl rfl rfl
    · exact .cancels rfl hinput rfl rfl rfl
    · exact hpopup _ rfl rfl rfl rfl rfl
  · split
    all_goals exact hpopup _ rfl rfl rfl rfl rfl
  · exact hpopup _ rfl rfl rfl rfl rfl
  · exact hpopup _ rfl rfl rfl rfl rfl

/-- While a popup is open, the keys are its own. -/
theorem handleKey_popup {app : App I} (hpopup : app.popup.isSome = true) (key : KeyCode)
    (env : AppEnv) :
    app.handleKey lib key env = app.handlePopupKey lib key env := by
  unfold App.handleKey
  rw [if_pos hpopup]

/-! ## The rest of the loop -/

/-- An event spawns no send and keeps the flows. -/
theorem pollServerEvent_kept (lib : TuiLibrary I) (app : App I) (responder : Nat) (env : AppEnv)
    (ev : ServerEvent) :
    spawned (app.pollServerEvent responder env ev).2 = [] ∧
      (app.pollServerEvent responder env ev).1.pendingPinKind = app.pendingPinKind ∧
      FlowsKept lib app (app.pollServerEvent responder env ev).1 := by
  unfold App.pollServerEvent
  dsimp only
  split
  · split
    all_goals exact ⟨rfl, rfl, .of_screens rfl rfl rfl⟩
  · split
    all_goals exact ⟨rfl, rfl, .of_screens rfl rfl rfl⟩
  all_goals exact ⟨rfl, rfl, .of_screens rfl rfl rfl⟩

/-- Drawing a screen keeps what was selected and typed. -/
theorem screen_render_kept (lib : TuiLibrary I) (devices : Option (List DeviceInfo))
    (screen : SendScreen I) :
    (screen.render lib devices).selectedDevice = screen.selectedDevice ∧
      (screen.render lib devices).input = screen.input := by
  unfold SendScreen.render
  split
  · exact ⟨rfl, rfl⟩
  · exact ⟨rfl, rfl⟩

/-- Drawing the application keeps the flows. -/
theorem render_kept (lib : TuiLibrary I) (app : App I) (env : AppEnv) :
    (app.render lib env).pendingPinKind = app.pendingPinKind ∧
      FlowsKept lib app (app.render lib env) := by
  unfold App.render
  split
  · obtain ⟨hdevice, hinput⟩ := screen_render_kept lib (app.tryRead env) app.sendText
    refine ⟨rfl, fun kind => ?_, rfl⟩
    cases kind with
    | file => rfl
    | text => exact Prod.ext hdevice (congrArg lib.value hinput)
  · obtain ⟨hdevice, hinput⟩ := screen_render_kept lib (app.tryRead env) app.sendFile
    refine ⟨rfl, fun kind => ?_, rfl⟩
    cases kind with
    | file => exact Prod.ext hdevice (congrArg lib.value hinput)
    | text => rfl
  · exact ⟨rfl, .of_screens rfl rfl rfl⟩
  · exact ⟨rfl, .of_screens rfl rfl rfl⟩

/-- So does the prompt for a PIN. -/
theorem maybeOpenPinPrompt_kept (lib : TuiLibrary I) (app : App I) :
    (app.maybeOpenPinPrompt lib).pendingPinKind = app.pendingPinKind ∧
      FlowsKept lib app (app.maybeOpenPinPrompt lib) := by
  unfold App.maybeOpenPinPrompt
  split
  · exact ⟨rfl, .of_screens rfl rfl rfl⟩
  · exact ⟨rfl, .of_screens rfl rfl rfl⟩

/-! ## Updates of a send -/

/-- Progress, and what is of an earlier generation, changes no flow. -/
theorem pollSendUpdate_other (lib : TuiLibrary I) (app : App I) {update : SendUpdate}
    (h : (∃ generation sent total, update = .progress generation sent total) ∨
      ∃ generation kind result, generation ≠ app.sendGeneration ∧
        update = sendUpdateFromResult generation kind result) :
    (app.pollSendUpdate lib update).pendingPinKind = app.pendingPinKind ∧
      FlowsKept lib app (app.pollSendUpdate lib update) := by
  obtain ⟨generation, sent, total, rfl⟩ | ⟨generation, kind, result, hstale, rfl⟩ := h
  · exact ⟨rfl, .of_screens rfl rfl rfl⟩
  · have hsame : app.pollSendUpdate lib (sendUpdateFromResult generation kind result) =
        { app with dirty := true } := by
      cases result with
      | ok => exact if_pos hstale
      | invalidPin => exact if_pos hstale
      | failed => exact if_pos hstale
    rw [hsame]
    exact ⟨rfl, .of_screens rfl rfl rfl⟩

/-- The end of the current send clears its flow. -/
theorem pollSendUpdate_finished (lib : TuiLibrary I) (app : App I) (kind : SendKind) :
    (∀ k ≠ kind, (app.pollSendUpdate lib (.finished app.sendGeneration kind)).sends lib k =
      app.sends lib k) ∧
      (app.pollSendUpdate lib (.finished app.sendGeneration kind)).sendGeneration = app.sendGeneration ∧
      (app.pollSendUpdate lib (.finished app.sendGeneration kind)).pendingPinKind =
        app.pendingPinKind := by
  unfold App.pollSendUpdate
  dsimp only
  -- the update is of the current generation
  rw [if_neg (not_not_intro rfl)]
  cases kind with
  | file =>
    refine ⟨fun k hk => ?_, rfl, rfl⟩
    cases k with
    | file => exact absurd rfl hk
    | text => rfl
  | text =>
    refine ⟨fun k hk => ?_, rfl, rfl⟩
    cases k with
    | file => rfl
    | text => exact absurd rfl hk

/-- A refusal of the current send leaves it on the screen of its flow. -/
theorem pollSendUpdate_needsPin (lib : TuiLibrary I) (app : App I) (kind : SendKind) :
    (∀ k, (app.pollSendUpdate lib (.needsPin app.sendGeneration kind)).sends lib k = app.sends lib k) ∧
      (app.pollSendUpdate lib (.needsPin app.sendGeneration kind)).sendGeneration = app.sendGeneration ∧
      (app.pollSendUpdate lib (.needsPin app.sendGeneration kind)).pendingPinKind = some kind := by
  unfold App.pollSendUpdate
  dsimp only
  rw [if_neg (not_not_intro rfl)]
  cases kind with
  | file => exact ⟨fun k => by cases k <;> rfl, rfl, rfl⟩
  | text => exact ⟨fun k => by cases k <;> rfl, rfl, rfl⟩

end LocalSend
