import LocalSend.Tui.Run

/-!
# Who is asked before a transfer is accepted

Every request that is taken from the channel is answered once, or its dialog is open. A
frame is drawn before the events are taken, and the key is read after that, so a dialog that an
iteration opens gets the key of that iteration without having been seen.

## Key results

- `handleKey_asked lib`, `pollServerEvent_asked`: what the handlers do to the requests
- `ConsentInv.step`: the invariant of the requests
- `tui_consent_iff`: when every acceptance follows a frame with the dialog
-/

namespace LocalSend

variable {I : Type} {lib : TuiLibrary I}

/-! ## The dialog and the answers -/

/-- The number of the request whose dialog is open. -/
def App.asked (app : App I) : Option Nat := app.dialog?.map fun state => state.request.responder

/-- The answers among the effects of a handler. -/
def answers (effects : List AppEffect) : List (Nat × TransferDecision) :=
  effects.filterMap AppEffect.decision?

/-- The question on the screen is that of the popup. -/
theorem asked_of_popup {app app' : App I} (h : app'.popup = app.popup) :
    app'.asked = app.asked := by
  unfold App.asked App.dialog?
  rw [h]

/-- A popup of another kind asks nothing. -/
theorem asked_of_not_confirm {app : App I}
    (h : ∀ state, app.popup ≠ some (.transferConfirm state)) :
    app.asked = none := by
  unfold App.asked App.dialog?
  split
  · rename_i state hpopup
    exact absurd hpopup (h state)
  · rfl

/-- An answer that lets something through. -/
def TransferDecision.accepts : TransferDecision → Bool
  | .accept | .acceptFiles _ => true
  | .decline | .refuse _ => false

/-- Whether a key accepts the open dialog. -/
def App.acceptsWith (app : App I) (key : KeyCode) : Bool :=
  match app.dialog? with
  | none => false
  | some state =>
    key = .char 'y' || key = .char 'Y' || (key = .enter && !state.selectedIds.isEmpty)

/-- A handler that has nothing to do with requests. -/
def LeavesDialogs (app : App I) (r : App I × List AppEffect) : Prop :=
  r.1.popup = app.popup ∧ answers r.2 = []

/-- What leaves the dialogs alone leaves the question open. -/
theorem LeavesDialogs.asked {app : App I} {r : App I × List AppEffect} (h : LeavesDialogs app r) :
    r.1.asked = app.asked :=
  asked_of_popup h.1

/-! ## Sends and screens -/

/-- Sending a text leaves the dialogs alone. -/
theorem spawnTextSend_leavesDialogs (lib : TuiLibrary I) (app : App I) (pin : Option String) :
    LeavesDialogs app (app.spawnTextSend lib pin) := by
  unfold App.spawnTextSend
  split
  · exact ⟨rfl, rfl⟩
  · dsimp only
    split
    · exact ⟨rfl, rfl⟩
    · exact ⟨rfl, rfl⟩

/-- Sending a file leaves the dialogs alone. -/
theorem spawnFileSend_leavesDialogs (lib : TuiLibrary I) (app : App I) (pin : Option String)
    (env : AppEnv) :
    LeavesDialogs app (app.spawnFileSend lib pin env) := by
  unfold App.spawnFileSend
  split
  · exact ⟨rfl, rfl⟩
  · dsimp only
    split
    · exact ⟨rfl, rfl⟩
    · split
      · exact ⟨rfl, rfl⟩
      · exact ⟨rfl, rfl⟩

/-- Sending again with a PIN leaves the dialogs alone. -/
theorem retryPendingSendWithPin_leavesDialogs (lib : TuiLibrary I) (app : App I) (pin : String)
    (env : AppEnv) :
    LeavesDialogs app (app.retryPendingSendWithPin lib pin env) := by
  unfold App.retryPendingSendWithPin
  split
  · exact spawnFileSend_leavesDialogs lib { app with pendingPinKind := none } (some pin) env
  · exact spawnTextSend_leavesDialogs lib { app with pendingPinKind := none } (some pin)
  · exact ⟨rfl, rfl⟩

/-- The keys of the text screen leave the dialogs alone. -/
theorem handleSendTextKey_leavesDialogs (app : App I) (key : KeyCode) (env : AppEnv) :
    LeavesDialogs app (app.handleSendTextKey lib key env) := by
  unfold App.handleSendTextKey
  split
  · split <;> exact ⟨rfl, rfl⟩
  · split
    · exact ⟨rfl, rfl⟩
    · split
      · exact ⟨rfl, rfl⟩
      · exact spawnTextSend_leavesDialogs lib app none
    · exact ⟨rfl, rfl⟩

/-- The keys of the file screen leave the dialogs alone. -/
theorem handleSendFileKey_leavesDialogs (app : App I) (key : KeyCode) (env : AppEnv) :
    LeavesDialogs app (app.handleSendFileKey lib key env) := by
  unfold App.handleSendFileKey
  split
  · split <;> exact ⟨rfl, rfl⟩
  · split
    · exact ⟨rfl, rfl⟩
    · split
      · exact ⟨rfl, rfl⟩
      · exact spawnFileSend_leavesDialogs lib app none env
    · split
      · exact ⟨rfl, rfl⟩
      · exact ⟨rfl, rfl⟩

/-- No key of a screen opens or answers a dialog. -/
theorem handleScreenKey_leavesDialogs (lib : TuiLibrary I) (app : App I) (key : KeyCode)
    (env : AppEnv) :
    LeavesDialogs app (app.handleScreenKey lib key env) := by
  unfold App.handleScreenKey
  split
  · exact handleSendTextKey_leavesDialogs app key env
  · exact handleSendFileKey_leavesDialogs app key env
  · exact ⟨rfl, rfl⟩
  · unfold App.handleSettingsKey
    split <;> exact ⟨rfl, rfl⟩

/-- Looking for devices leaves the dialogs alone. -/
theorem checkRefresh_leavesDialogs (app : App I) (env : AppEnv) :
    LeavesDialogs app (app.checkRefresh env) := by
  unfold App.checkRefresh
  dsimp only
  split
  · exact ⟨rfl, rfl⟩
  · exact ⟨rfl, rfl⟩

/-! ## Keys -/

namespace ConfirmState

/-- The cursor moves up in the same request. -/
@[simp] theorem moveUp_request (state : ConfirmState) : state.moveUp.request = state.request := by
  unfold moveUp
  split <;> rfl

/-- The cursor moves down in the same request. -/
@[simp] theorem moveDown_request (state : ConfirmState) :
    state.moveDown.request = state.request := by
  unfold moveDown
  split <;> rfl

end ConfirmState

/-- A key answers the request of the open dialog, or it leaves the requests alone. -/
inductive KeyAsked (app : App I) (key : KeyCode) (r : App I × List AppEffect) : Prop
  | keeps : r.1.asked = app.asked → answers r.2 = [] → app.acceptsWith key = false →
    KeyAsked app key r
  | answers {id : Nat} {decision : TransferDecision} : app.asked = some id → r.1.asked = none →
    answers r.2 = [(id, decision)] → decision.accepts = app.acceptsWith key → KeyAsked app key r

/-- A key answers the request of the dialog, or leaves it open. -/
theorem handlePopupKey_confirm {app : App I} {state : ConfirmState}
    (hpopup : app.popup = some (.transferConfirm state)) (key : KeyCode) (env : AppEnv) :
    KeyAsked app key (app.handlePopupKey lib key env) := by
  have hasked : app.asked = some state.request.responder := by
    unfold App.asked App.dialog?
    rw [hpopup]
    rfl
  have haccepts : app.acceptsWith key =
      (key = .char 'y' || key = .char 'Y' || (key = .enter && !state.selectedIds.isEmpty)) := by
    unfold App.acceptsWith App.dialog?
    rw [hpopup]
  -- a key that moves in the dialog keeps its request
  have hmoves : ∀ state' : ConfirmState, state'.request = state.request →
      app.acceptsWith key = false →
      KeyAsked app key ({ app with popup := some (.transferConfirm state') }, []) := by
    intro state' hrequest hkey
    refine .keeps ?_ rfl hkey
    rw [hasked]
    exact congrArg (fun request : PendingRequest => some request.responder) hrequest
  unfold App.handlePopupKey
  rw [hpopup]
  dsimp only
  -- the keys in the order of the source's match
  split
  · exact hmoves _ (ConfirmState.moveUp_request state) (by rw [haccepts]; rfl)
  · exact hmoves _ (ConfirmState.moveUp_request state) (by rw [haccepts]; rfl)
  · exact hmoves _ (ConfirmState.moveDown_request state) (by rw [haccepts]; rfl)
  · exact hmoves _ (ConfirmState.moveDown_request state) (by rw [haccepts]; rfl)
  · exact hmoves _ rfl (by rw [haccepts]; rfl)
  · exact hmoves _ rfl (by rw [haccepts]; rfl)
  · exact hmoves _ rfl (by rw [haccepts]; rfl)
  · -- what is selected decides what enter does
    refine .answers hasked rfl rfl ?_
    rw [haccepts]
    cases hids : state.selectedIds.isEmpty with
    | true => simp [TransferDecision.accepts]
    | false =>
      simp only [Bool.false_eq_true, if_false]
      split <;> rfl
  -- an answer by key: everything, or nothing
  · exact .answers hasked rfl rfl (by rw [haccepts]; rfl)
  · exact .answers hasked rfl rfl (by rw [haccepts]; rfl)
  · exact .answers hasked rfl rfl (by rw [haccepts]; rfl)
  · exact .answers hasked rfl rfl (by rw [haccepts]; rfl)
  · exact .answers hasked rfl rfl (by rw [haccepts]; rfl)
  -- any other key leaves the dialog as it is
  · refine .keeps rfl rfl ?_
    rw [haccepts]
    simp_all

/-- Without a question, no key accepts anything. -/
theorem acceptsWith_of_asked {app : App I} (h : app.asked = none) (key : KeyCode) :
    app.acceptsWith key = false := by
  unfold App.acceptsWith
  rw [Option.map_eq_none_iff.mp h]

/-- Without a dialog, a handler that opens none leaves the requests alone. -/
theorem KeyAsked.of_none {app : App I} {r : App I × List AppEffect} (key : KeyCode)
    (h : app.asked = none) (hr : r.1.asked = none) (hanswers : LocalSend.answers r.2 = []) :
    KeyAsked app key r :=
  .keeps (hr.trans h.symm) hanswers (acceptsWith_of_asked h key)

/-- A key in any popup answers the question that is asked, or leaves it open. -/
theorem handlePopupKey_asked (app : App I) (key : KeyCode) (env : AppEnv) :
    KeyAsked app key (app.handlePopupKey lib key env) := by
  -- only a confirmation asks something
  cases hpopup : app.popup with
  | none =>
    have hasked : app.asked = none :=
      asked_of_not_confirm fun state h => by rw [hpopup] at h; cases h
    unfold App.handlePopupKey
    rw [hpopup]
    exact .of_none _ hasked hasked rfl
  | some popup =>
    cases popup with
    | transferConfirm state => exact handlePopupKey_confirm hpopup key env
    | transferProgress fileName received total =>
      have hasked : app.asked = none :=
        asked_of_not_confirm fun state h => by rw [hpopup] at h; cases h
      unfold App.handlePopupKey
      rw [hpopup]
      exact .of_none _ hasked hasked rfl
    | message text level =>
      have hasked : app.asked = none :=
        asked_of_not_confirm fun state h => by rw [hpopup] at h; cases h
      unfold App.handlePopupKey
      rw [hpopup]
      dsimp only
      split
      · exact .of_none _ hasked rfl rfl
      · exact .of_none _ hasked rfl rfl
      · exact .of_none _ hasked hasked rfl
    -- the PIN entry: enter, Esc, then what edits it
    | pinEntry input =>
      have hasked : app.asked = none :=
        asked_of_not_confirm fun state h => by rw [hpopup] at h; cases h
      unfold App.handlePopupKey
      rw [hpopup]
      dsimp only
      split
      · -- a PIN that is entered starts a send, and opens no dialog
        split
        · exact .of_none _ hasked rfl rfl
        · have hquiet := retryPendingSendWithPin_leavesDialogs lib { app with popup := none }
            (lib.value input) env
          exact .of_none _ hasked (hquiet.asked.trans rfl) hquiet.2
      · exact .of_none _ hasked rfl rfl
      · exact .of_none _ hasked rfl rfl

/-- A key answers the request of the open dialog, or it leaves the requests alone. -/
theorem handleKey_asked (lib : TuiLibrary I) (app : App I) (key : KeyCode) (env : AppEnv) :
    KeyAsked app key (app.handleKey lib key env) := by
  unfold App.handleKey
  split
  · exact handlePopupKey_asked app key env
  · rename_i hpopup
    have hnone : app.popup = none := Option.not_isSome_iff_eq_none.mp hpopup
    have hasked : app.asked = none :=
      asked_of_not_confirm fun state h => by rw [hnone] at h; cases h
    -- no popup: the keys of the whole screen come first
    split
    · exact .of_none _ hasked hasked rfl
    · split
      · exact .of_none _ hasked hasked rfl
      · split
        · exact .of_none _ hasked hasked rfl
        · -- no popup, so nothing is asked; neither a screen nor the refresh opens a dialog
          have hscreen := handleScreenKey_leavesDialogs lib app key env
          have hrefresh := checkRefresh_leavesDialogs (app.handleScreenKey lib key env).1 env
          refine .of_none _ hasked ?_ ?_
          · exact hrefresh.asked.trans (hscreen.asked.trans hasked)
          · show answers (_ ++ _) = []
            unfold answers
            rw [List.filterMap_append]
            exact List.append_eq_nil_iff.mpr ⟨hscreen.2, hrefresh.2⟩

/-! ## Events, updates and frames -/

/-- An event is no request, or a request that gets a dialog, or one that is declined. -/
inductive EventAsked (app : App I) (responder : Nat) (r : App I × List AppEffect) : Bool → Prop
  | other : r.1.asked = app.asked → answers r.2 = [] → EventAsked app responder r false
  | opens : app.asked = none → r.1.asked = some responder → answers r.2 = [] →
    EventAsked app responder r true
  | declines : r.1.asked = app.asked → answers r.2 = [(responder, .decline)] →
    EventAsked app responder r true

/-- A request opens a dialog under its number, or is declined where another popup is in its way;
    other events ask nothing. -/
theorem pollServerEvent_asked (app : App I) (responder : Nat) (env : AppEnv) (ev : ServerEvent) :
    EventAsked app responder (app.pollServerEvent responder env ev) ev.isRequest := by
  -- only a request opens a dialog
  cases ev with
  | transferRequest sender files =>
    unfold App.pollServerEvent
    dsimp only
    split
    · rename_i hpopup
      have hasked : app.asked = none :=
        asked_of_not_confirm fun state h => by rw [hpopup] at h; cases h
      exact .opens hasked rfl rfl
    · rename_i input hpopup
      have hasked : app.asked = none :=
        asked_of_not_confirm fun state h => by rw [hpopup] at h; cases h
      exact .opens hasked rfl rfl
    -- another dialog is open: the request is declined at once
    · exact .declines rfl rfl
  | peerRegistered device =>
    -- a device is added or known
    unfold App.pollServerEvent
    dsimp only
    split
    · exact .other rfl rfl
    · exact .other rfl rfl
  | textReceived sessionId text senderAlias => exact .other rfl rfl
  | fileReceiveProgress sessionId fileId fileName senderAlias received total count =>
    exact .other rfl rfl
  | fileReceived sessionId fileId fileName path size senderAlias text => exact .other rfl rfl
  | sessionDone sessionId => exact .other rfl rfl
  | webShare => exact .other rfl rfl

/-- After an event, the screen has to be drawn. -/
theorem pollServerEvent_dirty (app : App I) (responder : Nat) (env : AppEnv) (ev : ServerEvent) :
    (app.pollServerEvent responder env ev).1.dirty = true := by
  unfold App.pollServerEvent
  dsimp only
  split
  · split <;> rfl
  · split <;> rfl
  all_goals rfl

/-- An update changes the screens, not the popup. -/
theorem pollSendUpdate_frame (lib : TuiLibrary I) (app : App I) (update : SendUpdate) :
    (app.pollSendUpdate lib update).popup = app.popup ∧
      (app.pollSendUpdate lib update).dirty = true := by
  unfold App.pollSendUpdate
  dsimp only
  split
  · exact ⟨rfl, rfl⟩
  · split
    · exact ⟨rfl, rfl⟩
    · split <;> exact ⟨rfl, rfl⟩
  · split
    · exact ⟨rfl, rfl⟩
    · split <;> exact ⟨rfl, rfl⟩

/-- Drawing the screen leaves the popup. -/
theorem render_popup (app : App I) (env : AppEnv) : (app.render lib env).popup = app.popup := by
  unfold App.render
  split <;> rfl

/-- The prompt for a PIN waits until no question is asked. -/
theorem maybeOpenPinPrompt_asked (lib : TuiLibrary I) (app : App I) :
    (app.maybeOpenPinPrompt lib).asked = app.asked := by
  unfold App.maybeOpenPinPrompt
  split
  · rename_i hfree
    have hnone : app.popup = none := Option.isNone_iff_eq_none.mp (Bool.and_eq_true _ _ ▸ hfree).2
    exact (asked_of_not_confirm fun state h => by rw [hnone] at h; cases h).symm
  · rfl

/-- What has to be drawn still has to, after the prompt. -/
theorem maybeOpenPinPrompt_dirty {app : App I} (h : app.dirty = true) :
    (app.maybeOpenPinPrompt lib).dirty = true := by
  unfold App.maybeOpenPinPrompt
  split
  · rfl
  · exact h

/-! ## The invariant -/

/-- Every request that was taken has been answered once, or has its dialog open, and that
    dialog has been drawn unless this iteration has opened it. -/
structure ConsentInv (s : TuiWorld I) : Prop where
  distinct : (s.decisions.map Prod.fst).Nodup
  decided : ∀ id ∈ s.decisions.map Prod.fst, id < s.taken
  undecided : ∀ id, s.app.asked = some id → id < s.taken ∧ id ∉ s.decisions.map Prod.fst
  answered : ∀ id < s.taken, id ∈ s.decisions.map Prod.fst ∨ s.app.asked = some id
  drawn : ∀ id ∈ s.shown, id < s.taken
  waiting : ∀ id, s.app.asked = some id → s.phase = .draw → s.app.dirty = true ∨ id ∈ s.shown
  fresh : ∀ id, s.app.asked = some id → s.phase ≠ .draw → s.opened = true →
    s.app.dirty = true ∧ id ∉ s.shown
  seen : ∀ id, s.app.asked = some id → s.phase ≠ .draw → s.opened = false → id ∈ s.shown

/-- At the start, nothing has been asked. -/
theorem ConsentInv.start (lib : TuiLibrary I) (deviceInfo : DeviceInfo) (autoAccept : Bool) :
    ConsentInv (.start lib deviceInfo autoAccept) := by
  constructor
  · exact List.nodup_nil
  · intro id h
    cases h
  · intro id h
    cases h
  · intro id h
    cases h
  · intro id h
    cases h
  · intro id h
    cases h
  · intro id h
    cases h
  · intro id h
    cases h

/-- A step that has nothing to do with requests. -/
theorem ConsentInv.frame {s s' : TuiWorld I} (h : ConsentInv s)
    (hdecisions : s'.decisions = s.decisions) (htaken : s'.taken = s.taken)
    (hshown : s'.shown = s.shown) (hopened : s'.opened = s.opened)
    (hasked : s'.app.asked = s.app.asked) (hdirty : s.app.dirty = true → s'.app.dirty = true)
    (hphase : s'.phase = .draw ↔ s.phase = .draw) : ConsentInv s' := by
  -- in the order of the invariant's fields
  constructor
  · rw [hdecisions]
    exact h.distinct
  · rw [hdecisions, htaken]
    exact h.decided
  · rw [hdecisions, htaken, hasked]
    exact h.undecided
  · rw [hdecisions, htaken, hasked]
    exact h.answered
  · rw [hshown, htaken]
    exact h.drawn
  · rw [hasked, hshown]
    intro id hid hdraw
    exact (h.waiting id hid (hphase.mp hdraw)).imp_left hdirty
  · rw [hasked, hshown, hopened]
    intro id hid hdraw hopen
    have hfresh := h.fresh id hid (fun hd => hdraw (hphase.mpr hd)) hopen
    exact ⟨hdirty hfresh.1, hfresh.2⟩
  · rw [hasked, hshown, hopened]
    intro id hid hdraw hopen
    exact h.seen id hid (fun hd => hdraw (hphase.mpr hd)) hopen

/-- The end of an iteration: a dialog that it has opened makes the next one draw. -/
theorem ConsentInv.next {s s' : TuiWorld I} (h : ConsentInv s)
    (hdecisions : s'.decisions = s.decisions) (htaken : s'.taken = s.taken)
    (hshown : s'.shown = s.shown) (hasked : s'.app.asked = s.app.asked)
    (hdirty : s.app.dirty = true → s'.app.dirty = true) (hphase : s.phase ≠ .draw)
    (hphase' : s'.phase = .draw) : ConsentInv s' := by
  -- the first fields do not know of the phase
  constructor
  · rw [hdecisions]
    exact h.distinct
  · rw [hdecisions, htaken]
    exact h.decided
  · rw [hdecisions, htaken, hasked]
    exact h.undecided
  · rw [hdecisions, htaken, hasked]
    exact h.answered
  · rw [hshown, htaken]
    exact h.drawn
  · rw [hasked, hshown]
    intro id hid _
    -- opened in this iteration it is still to be drawn, and otherwise it has been
    cases hopened : s.opened with
    | true => exact .inl (hdirty (h.fresh id hid hphase hopened).1)
    | false => exact .inr (h.seen id hid hphase hopened)
  -- the next phase is the drawing, which the last fields exclude
  · exact fun id _ hdraw => absurd hphase' hdraw
  · exact fun id _ hdraw => absurd hphase' hdraw

/-- A request is taken, and its dialog is opened. -/
theorem ConsentInv.opens {s s' : TuiWorld I} (h : ConsentInv s)
    (hdecisions : s'.decisions = s.decisions) (htaken : s'.taken = s.taken + 1)
    (hshown : s'.shown = s.shown) (hopened : s'.opened = true) (hnone : s.app.asked = none)
    (hasked : s'.app.asked = some s.taken) (hdirty : s'.app.dirty = true)
    (hphase : s'.phase ≠ .draw) : ConsentInv s' := by
  have hopen : ∀ id, s'.app.asked = some id → id = s.taken :=
    fun id hid => Option.some.inj (hid.symm.trans hasked)
  -- the number that is taken is new: it was neither decided nor drawn
  constructor
  · rw [hdecisions]
    exact h.distinct
  · rw [hdecisions, htaken]
    exact fun id hid => Nat.lt_succ_of_lt (h.decided id hid)
  · rw [hdecisions, htaken]
    intro id hid
    rw [hopen id hid]
    exact ⟨Nat.lt_succ_self _, fun hmem => Nat.lt_irrefl _ (h.decided _ hmem)⟩
  · rw [hdecisions, htaken]
    intro id hid
    by_cases hidt : id = s.taken
    · exact .inr (hidt ▸ hasked)
    · -- no dialog was open, so what was taken before has been answered
      refine .inl ((h.answered id (by omega)).resolve_right ?_)
      rw [hnone]
      intro hid
      cases hid
  -- nor is it among the drawn ones
  · rw [hshown, htaken]
    exact fun id hid => Nat.lt_succ_of_lt (h.drawn id hid)
  · exact fun id _ hdraw => absurd hdraw hphase
  · intro id hid _ _
    rw [hopen id hid, hshown]
    exact ⟨hdirty, fun hmem => Nat.lt_irrefl _ (h.drawn _ hmem)⟩
  · intro id _ _ hclosed
    rw [hopened] at hclosed
    cases hclosed

/-- A request is taken, and declined behind another popup. -/
theorem ConsentInv.declines {s s' : TuiWorld I} (h : ConsentInv s) {decision : TransferDecision}
    (hdecisions : s'.decisions = s.decisions ++ [(s.taken, decision)])
    (htaken : s'.taken = s.taken + 1) (hshown : s'.shown = s.shown) (hopened : s'.opened = s.opened)
    (hasked : s'.app.asked = s.app.asked) (hdirty : s'.app.dirty = true) (hphase : s.phase ≠ .draw)
    (hphase' : s'.phase ≠ .draw) :
    ConsentInv s' := by
  -- it is decided as it is taken, so that its number is new among the decisions
  have hmap : s'.decisions.map Prod.fst = s.decisions.map Prod.fst ++ [s.taken] := by
    rw [hdecisions, List.map_append]
    rfl
  constructor
  · rw [hmap]
    refine List.nodup_append.mpr ⟨h.distinct, List.nodup_singleton _, ?_⟩
    intro id hid id' hid' heq
    rw [List.mem_singleton.mp hid'] at heq
    exact Nat.lt_irrefl _ (heq ▸ h.decided id hid)
  · rw [hmap, htaken]
    intro id hid
    cases List.mem_append.mp hid with
    | inl hid => exact Nat.lt_succ_of_lt (h.decided id hid)
    | inr hid => exact List.mem_singleton.mp hid ▸ Nat.lt_succ_self _
  · rw [hmap, htaken, hasked]
    intro id hid
    obtain ⟨hlt, hnot⟩ := h.undecided id hid
    refine ⟨Nat.lt_succ_of_lt hlt, ?_⟩
    intro hmem
    cases List.mem_append.mp hmem with
    | inl hmem => exact hnot hmem
    | inr hmem => exact Nat.lt_irrefl _ (List.mem_singleton.mp hmem ▸ hlt)
  · rw [hmap, htaken, hasked]
    intro id hid
    by_cases hidt : id = s.taken
    · exact .inl (List.mem_append_right _ (List.mem_singleton.mpr hidt))
    · exact (h.answered id (by omega)).imp_left (List.mem_append_left _)
  · rw [hshown, htaken]
    exact fun id hid => Nat.lt_succ_of_lt (h.drawn id hid)
  -- the next phase is not the drawing
  · exact fun id _ hdraw => absurd hdraw hphase'
  · rw [hasked, hshown, hopened]
    exact fun id hid _ hopen => ⟨hdirty, (h.fresh id hid hphase hopen).2⟩
  · rw [hasked, hshown, hopened]
    exact fun id hid _ hopen => h.seen id hid hphase hopen

/-- The request of the dialog is answered, and the dialog is closed. -/
theorem ConsentInv.answers {s s' : TuiWorld I} (h : ConsentInv s) {id : Nat}
    {decision : TransferDecision} (hopen : s.app.asked = some id)
    (hdecisions : s'.decisions = s.decisions ++ [(id, decision)]) (htaken : s'.taken = s.taken)
    (hshown : s'.shown = s.shown) (hasked : s'.app.asked = none) :
    ConsentInv s' := by
  have hmap : s'.decisions.map Prod.fst = s.decisions.map Prod.fst ++ [id] := by
    rw [hdecisions, List.map_append]
    rfl
  obtain ⟨hlt, hnot⟩ := h.undecided id hopen
  -- no dialog is left, and most of the invariant is about one
  have hclosed : ∀ i, s'.app.asked ≠ some i := by
    intro i hi
    rw [hasked] at hi
    cases hi
  constructor
  · rw [hmap]
    refine List.nodup_append.mpr ⟨h.distinct, List.nodup_singleton _, ?_⟩
    intro i hi j hj heq
    rw [List.mem_singleton.mp hj] at heq
    exact hnot (heq ▸ hi)
  -- the decided number was taken before
  · rw [hmap, htaken]
    intro i hi
    cases List.mem_append.mp hi with
    | inl hi => exact h.decided i hi
    | inr hi => exact List.mem_singleton.mp hi ▸ hlt
  · exact fun i hi => absurd hi (hclosed i)
  -- what was answered stays so, and the open one now is
  · rw [hmap, htaken]
    intro i hi
    left
    cases h.answered i hi with
    | inl hmem => exact List.mem_append_left _ hmem
    | inr hi =>
      rw [Option.some.inj (hi.symm.trans hopen)]
      exact List.mem_append_right _ (List.mem_singleton_self id)
  · rw [hshown, htaken]
    exact h.drawn
  · exact fun i hi => absurd hi (hclosed i)
  · exact fun i hi => absurd hi (hclosed i)
  · exact fun i hi => absurd hi (hclosed i)

/-! ## The steps of the loop -/

/-- The head of the loop draws the open dialog. -/
theorem ConsentInv.draw {s : TuiWorld I} (h : ConsentInv s) (hphase : s.phase = .draw)
    (env : AppEnv) :
    ConsentInv (s.draw lib env) := by
  unfold TuiWorld.draw
  dsimp only
  split
  · rename_i hdirty
    have hasked : ({ s.app.render lib env with dirty := false } : App I).asked = s.app.asked :=
      asked_of_popup (render_popup s.app env)
    constructor
    · exact h.distinct
    · exact h.decided
    · intro id hid
      exact h.undecided id (hasked ▸ hid)
    · intro id hid
      exact (h.answered id hid).imp_right fun h => hasked.trans h
    · intro id hid
      cases List.mem_append.mp hid with
      | inl hid => exact h.drawn id hid
      | inr hid => exact (h.undecided id (Option.mem_toList.mp hid)).1
    · intro id hid hdraw
      cases hdraw
    · intro id hid hdraw hopen
      cases hopen
    · intro id hid hdraw hopen
      -- the frame shows the dialog
      exact List.mem_append_right _ (Option.mem_toList.mpr (hasked.symm.trans hid))
  · rename_i hclean
    constructor
    · exact h.distinct
    · exact h.decided
    · exact h.undecided
    · exact h.answered
    · exact h.drawn
    · intro id hid hdraw
      cases hdraw
    · intro id hid hdraw hopen
      cases hopen
    · intro id hid hdraw hopen
      -- nothing has changed since the last frame, which shows the dialog
      exact (h.waiting id hid hphase).resolve_left hclean

/-- The loop takes the first event of the channel and hands it to the application. -/
theorem serverEvent_eq_some {s s' : TuiWorld I} {env : AppEnv} (h : s.serverEvent env = some s') :
    ∃ ev events, s.events = ev :: events ∧ s' = { s with
      app := (s.app.pollServerEvent s.taken env ev).1
      events := events
      tasks := s.tasks ++ (s.app.pollServerEvent s.taken env ev).2.filterMap AppEffect.task?
      decisions := s.decisions ++ answers (s.app.pollServerEvent s.taken env ev).2
      taken := if ev.isRequest then s.taken + 1 else s.taken
      opened := s.opened || (ev.isRequest &&
        (s.app.pollServerEvent s.taken env ev).1.dialog?.any fun state =>
          state.request.responder = s.taken) } := by
  unfold TuiWorld.serverEvent at h
  split at h
  · cases h
  · rename_i ev events hevents
    exact ⟨ev, events, hevents, (Option.some.inj h).symm⟩

/-- Whether the dialog is that of a request. -/
theorem any_responder_iff {app : App I} {id : Nat} :
    (app.dialog?.any fun state => state.request.responder = id) = true ↔ app.asked = some id := by
  unfold App.asked
  cases app.dialog? with
  | none => simp
  | some state => simp

/-- An event opens a dialog that has not been drawn, or leaves the dialog as it is. -/
theorem ConsentInv.serverEvent {s s' : TuiWorld I} (h : ConsentInv s)
    (hphase : s.phase = .serverEvents) {env : AppEnv} (hs : s.serverEvent env = some s') :
    ConsentInv s' ∧ ∀ e ∈ s'.decisions, e ∈ s.decisions ∨ e.2 = .decline := by
  obtain ⟨ev, events, -, rfl⟩ := serverEvent_eq_some hs
  have hdirty := pollServerEvent_dirty s.app s.taken env ev
  have hcases := pollServerEvent_asked s.app s.taken env ev
  -- events are taken before the drawing
  have hdraw : s.phase ≠ .draw := by
    rw [hphase]
    decide
  generalize s.app.pollServerEvent s.taken env ev = r at hdirty hcases
  generalize ev.isRequest = request at hcases
  -- by what the event does to what is asked
  cases hcases with
  | other hasked hanswers =>
    have hdecisions : s.decisions ++ LocalSend.answers r.2 = s.decisions := by
      rw [hanswers, List.append_nil]
    refine ⟨h.frame hdecisions rfl rfl ?_ hasked (fun _ => hdirty) Iff.rfl, ?_⟩
    · show (s.opened || (false && _)) = s.opened
      rw [Bool.false_and, Bool.or_false]
    · exact fun e he => .inl (hdecisions ▸ he)
  -- the new dialog is opened in this iteration
  | opens hnone hasked hanswers =>
    have hdecisions : s.decisions ++ LocalSend.answers r.2 = s.decisions := by
      rw [hanswers, List.append_nil]
    refine ⟨h.opens hdecisions rfl rfl ?_ hnone hasked hdirty hdraw, ?_⟩
    · show (s.opened || (true && _)) = true
      rw [any_responder_iff.mpr hasked, Bool.true_and, Bool.or_true]
    · exact fun e he => .inl (hdecisions ▸ he)
  | declines hasked hanswers =>
    have hdecisions : s.decisions ++ LocalSend.answers r.2 = s.decisions ++
        [(s.taken, .decline)] := by
      rw [hanswers]
    refine ⟨h.declines hdecisions rfl rfl ?_ hasked hdirty hdraw hdraw, ?_⟩
    · -- the dialog that is open is of an earlier request
      show (s.opened || (true && _)) = s.opened
      have hother : (r.1.dialog?.any fun state => state.request.responder = s.taken) = false := by
        rw [← Bool.not_eq_true, any_responder_iff, hasked]
        exact fun hid => Nat.lt_irrefl _ (h.undecided _ hid).1
      rw [hother, Bool.true_and, Bool.or_false]
    -- the only new decision is a decline
    · intro e he
      cases List.mem_append.mp (hdecisions ▸ he) with
      | inl he => exact .inl he
      | inr he => exact .inr (List.mem_singleton.mp he ▸ rfl)

/-- What a key accepts has been seen, unless this iteration has opened it. -/
theorem ConsentInv.handleKey {s : TuiWorld I} (h : ConsentInv s) (hphase : s.phase = .key)
    (key : Option KeyCode) (env : AppEnv) :
    ConsentInv (s.handleKey lib key env) ∧
      ((∀ e ∈ (s.handleKey lib key env).decisions, e.2.accepts = true → e ∉ s.decisions →
        e.1 ∈ s.shown) ↔
        ∀ k, key = some k → s.opened = true → s.app.acceptsWith k = false) := by
  have hdraw : s.phase ≠ .draw := by
    rw [hphase]
    decide
  -- without a key only the prompt for a PIN may open, and that asks nothing
  cases key with
  | none =>
    refine ⟨h.next rfl rfl rfl (maybeOpenPinPrompt_asked lib s.app)
      (fun hd => maybeOpenPinPrompt_dirty hd)
      hdraw rfl, ?_⟩
    constructor
    · intro _ k hk
      cases hk
    · intro _ e he _ hnew
      exact absurd he hnew
  -- a key: it leaves what is asked, or answers it
  | some k =>
    have hprompt := maybeOpenPinPrompt_asked lib
      { (s.app.handleKey lib k env).1 with dirty := true }
    have hdecisions : (s.handleKey lib (some k) env).decisions =
        s.decisions ++ LocalSend.answers (s.app.handleKey lib k env).2 := rfl
    cases handleKey_asked lib s.app k env with
    | keeps hasked hanswers haccepts =>
      have hsame : (s.handleKey lib (some k) env).decisions = s.decisions := by
        rw [hdecisions, hanswers, List.append_nil]
      refine ⟨h.next hsame rfl rfl (hprompt.trans hasked) (fun _ => maybeOpenPinPrompt_dirty rfl)
        hdraw rfl, ?_⟩
      constructor
      · intro _ k' hk' _
        cases hk'
        exact haccepts
      · intro _ e he _ hnew
        exact absurd (hsame ▸ he) hnew
    | @answers id decision hopen hasked hanswers haccepts =>
      have happend : (s.handleKey lib (some k) env).decisions =
          s.decisions ++ [(id, decision)] := by
        rw [hdecisions, hanswers]
      refine ⟨h.answers hopen happend rfl rfl (hprompt.trans hasked), ?_⟩
      rw [happend]
      constructor
      · intro hseen k' hk' hopened
        cases hk'
        rw [← haccepts]
        -- the answer is new, so its dialog would have been drawn
        refine Bool.eq_false_of_not_eq_true fun haccept => ?_
        refine (h.fresh id hopen hdraw hopened).2 (hseen (id, decision) ?_ haccept ?_)
        · exact List.mem_append_right _ (List.mem_singleton_self _)
        · intro hmem
          exact (h.undecided id hopen).2 (List.mem_map.mpr ⟨_, hmem, rfl⟩)
      -- the condition excludes a key in the iteration that opened the dialog
      · intro hkey e he haccept hnew
        have heq := List.mem_singleton.mp ((List.mem_append.mp he).resolve_left hnew)
        rw [heq] at haccept ⊢
        refine h.seen id hopen hdraw (Bool.eq_false_of_not_eq_true fun hopened => ?_)
        rw [show decision.accepts = _ from haccepts, hkey k rfl hopened] at haccept
        cases haccept

/-! ## All runs -/

/-- A step accepts only what a frame has shown. -/
def AcceptsShown (s : TuiWorld I) (_ : TuiAction) (s' : TuiWorld I) : Prop :=
  ∀ e ∈ s'.decisions, e.2.accepts = true → e ∉ s.decisions → e.1 ∈ s.shown

/-- An iteration that has opened a dialog does not read a key that accepts it. -/
def KeyAfterFrame (s : TuiWorld I) (a : TuiAction) (_ : TuiWorld I) : Prop :=
  ∀ k env, a = .key (some k) env → s.opened = true → s.app.acceptsWith k = false

/-- A step that answers nothing but with a refusal. -/
theorem acceptsShown_of_declines {s s' : TuiWorld I} {a : TuiAction}
    (h : ∀ e ∈ s'.decisions, e ∈ s.decisions ∨ e.2 = .decline) : AcceptsShown s a s' := by
  intro e he haccept hnew
  have hdecline := (h e he).resolve_left hnew
  rw [hdecline] at haccept
  cases haccept

/-- Every step keeps the books of the dialogs, and accepts only what was drawn exactly if its key
    came after a frame. -/
theorem ConsentInv.step {s s' : TuiWorld I} {a : TuiAction} (h : ConsentInv s)
    (hs : (tui lib).step s a = some s') :
    ConsentInv s' ∧ (KeyAfterFrame s a s' ↔ AcceptsShown s a s') := by
  -- but for a key, the condition is empty
  have hother : (∀ k env, a ≠ .key (some k) env) →
      (∀ e ∈ s'.decisions, e ∈ s.decisions ∨ e.2 = .decline) →
      (KeyAfterFrame s a s' ↔ AcceptsShown s a s') := by
    intro hkey hdeclines
    exact ⟨fun _ => acceptsShown_of_declines hdeclines, fun _ k env ha => absurd ha (hkey k env)⟩
  change tuiStep lib s a = some s' at hs
  -- only a key can decide; the rest keeps the invariant's fields or is the loop's next phase
  cases a with
  | event ev =>
    cases hs
    exact ⟨h.frame rfl rfl rfl rfl rfl id Iff.rfl, hother (fun _ _ ha => by cases ha) fun e he => .inl he⟩
  | sighting device =>
    cases hs
    exact ⟨h.frame rfl rfl rfl rfl rfl id Iff.rfl, hother (fun _ _ ha => by cases ha) fun e he => .inl he⟩
  | progress task sent total =>
    obtain ⟨-, heq⟩ := Option.ite_none_right_eq_some.mp hs
    cases heq
    exact ⟨h.frame rfl rfl rfl rfl rfl id Iff.rfl, hother (fun _ _ ha => by cases ha) fun e he => .inl he⟩
  | finish task result =>
    obtain ⟨-, heq⟩ := Option.ite_none_right_eq_some.mp hs
    cases heq
    exact ⟨h.frame rfl rfl rfl rfl rfl id Iff.rfl, hother (fun _ _ ha => by cases ha) fun e he => .inl he⟩
  | draw env =>
    obtain ⟨hphase, heq⟩ := Option.ite_none_right_eq_some.mp hs
    have hsame : (s.draw lib env).decisions = s.decisions := by
      unfold TuiWorld.draw
      dsimp only
      split <;> rfl
    cases heq
    exact ⟨h.draw hphase.1 env, hother (fun _ _ ha => by cases ha) fun e he => .inl (hsame ▸ he)⟩
  | serverEvent env =>
    obtain ⟨hphase, heq⟩ := Option.ite_none_right_eq_some.mp hs
    obtain ⟨hinv, hdeclines⟩ := h.serverEvent hphase heq
    exact ⟨hinv, hother (fun _ _ ha => by cases ha) hdeclines⟩
  | serverEventsDone =>
    obtain ⟨hphase, heq⟩ := Option.ite_none_right_eq_some.mp hs
    cases heq
    refine ⟨h.frame rfl rfl rfl rfl rfl id ?_, hother (fun _ _ ha => by cases ha) fun e he => .inl he⟩
    show LoopPhase.sendUpdates = .draw ↔ s.phase = .draw
    rw [hphase.1]
    decide
  | sendUpdate =>
    obtain ⟨hphase, heq⟩ := Option.ite_none_right_eq_some.mp hs
    unfold TuiWorld.sendUpdate at heq
    split at heq
    · cases heq
    · rename_i task update updates hupdates
      have hframe := pollSendUpdate_frame lib s.app update
      cases heq
      exact ⟨h.frame rfl rfl rfl rfl (asked_of_popup hframe.1) (fun _ => hframe.2) Iff.rfl,
        hother (fun _ _ ha => by cases ha) fun e he => .inl he⟩
  | sendUpdatesDone repaint =>
    obtain ⟨hphase, heq⟩ := Option.ite_none_right_eq_some.mp hs
    cases heq
    refine ⟨h.frame rfl rfl rfl rfl rfl ?_ ?_, hother (fun _ _ ha => by cases ha) fun e he => .inl he⟩
    · intro hdirty
      show (s.app.dirty || repaint) = true
      rw [hdirty, Bool.true_or]
    · show LoopPhase.key = .draw ↔ s.phase = .draw
      rw [hphase.1]
      decide
  | key key env =>
    obtain ⟨hphase, heq⟩ := Option.ite_none_right_eq_some.mp hs
    cases heq
    obtain ⟨hinv, hiff⟩ := h.handleKey hphase key env
    refine ⟨hinv, ?_, ?_⟩
    · intro hkey
      exact hiff.mpr fun k hk => hkey k env (by rw [hk])
    · intro hshown k env' ha
      cases ha
      exact hiff.mp hshown k rfl

/-- In every run, what is taken is answered once or in an open dialog, and what is accepted has been
    drawn exactly if no iteration that opens a dialog reads a key that accepts it. -/
theorem tui_consent_iff (lib : TuiLibrary I) (deviceInfo : DeviceInfo) (autoAccept : Bool)
    (as : List TuiAction) :
    (∀ s, (tui lib).exec (.start lib deviceInfo autoAccept) as = some s →
      (s.decisions.map Prod.fst).Nodup ∧
        ∀ id < s.taken, id ∈ s.decisions.map Prod.fst ∨ s.app.asked = some id) ∧
      ((tui lib).Always AcceptsShown (.start lib deviceInfo autoAccept) as ↔
        (tui lib).Always KeyAfterFrame (.start lib deviceInfo autoAccept) as) := by
  constructor
  · intro s hrun
    have hinv := (tui lib).exec_induction ConsentInv (fun _ _ _ h hs => (h.step hs).1)
      (ConsentInv.start lib deviceInfo autoAccept) hrun
    exact ⟨hinv.distinct, hinv.answered⟩
  · refine ((tui lib).always_iff_of_invariant ConsentInv ?_
      (ConsentInv.start lib deviceInfo autoAccept)).symm
    intro s a s' h hs
    exact ⟨(h.step hs).2, fun _ => (h.step hs).1⟩

/-! ## A key that comes too early -/

/-- A device. -/
def plainDevice (fingerprint : String) : DeviceInfo where
  deviceAlias := fingerprint
  version := "2.1"
  deviceModel := none
  deviceType := none
  fingerprint := fingerprint
  port := 53317
  protocol := .http
  download := false
  ip := some "192.168.6.172"

/-- Nobody else has the device list, and every file exists. -/
def plainEnv : AppEnv where
  devicesLocked := false
  fileExists _ := true

/-- A file that is offered. -/
def plainFile : FileMetadata where
  id := ⟨"f"⟩
  fileName := "notes.txt"
  size := 1
  fileType := "text/plain"
  sha256 := none
  preview := none
  metadata := none

/-- An iteration that opens a dialog and reads a `y`, which was typed before. -/
def earlyKey : List TuiAction :=
  [.draw plainEnv, .event (.transferRequest (plainDevice "peer") (.singleton ⟨"f"⟩ plainFile)),
    .serverEvent plainEnv, .serverEventsDone, .sendUpdatesDone false]

/-- The transfer is accepted without a frame that shows it. -/
theorem early_key_accepts : ¬(tui TuiLibrary.plain).Always AcceptsShown
    (.start TuiLibrary.plain (plainDevice "self") false)
    (earlyKey ++ [.key (some (.char 'y')) plainEnv]) := by
  refine (tui TuiLibrary.plain).not_always_of_test _ earlyKey _
    (fun s s' => s'.decisions = [(0, .accept)] ∧ s.decisions = [] ∧ s.shown = []) (by decide) ?_
  intro s s' _ htest hshown
  simp only [Bool.decide_and, Bool.and_eq_true, decide_eq_true_eq] at htest
  have hmem := hshown (0, .accept) (by rw [htest.1]; exact List.mem_singleton_self _) rfl
    (by rw [htest.2.1]; exact List.not_mem_nil)
  rw [htest.2.2] at hmem
  cases hmem

end LocalSend
