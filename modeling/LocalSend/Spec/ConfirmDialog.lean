import LocalSend.Spec.TuiConsent
import LocalSend.Server.Handlers

/-!
# What the confirm dialog lists and answers

A dialog has a row for each offered file, in the order of `Popup::confirm`, and no key changes more
of the rows than which of them are selected. Its answer accepts the files that are selected, or all.

## Key results

- `ConfirmState.Lists.confirm`, `ConfirmState.Lists.of_sameRows`: the rows of a dialog
- `ConfirmState.Lists.mem_acceptedIds_iff`: what an answer accepts
- `dialogMove_of_step`: what a step of the loop does to the dialog, the requests and the answers
- `dialog_answers_ticks`: the rows of every dialog of a run, and what its answer accepts
-/

namespace LocalSend

/-! ## The rows -/

/-- What a row says of a file. -/
def ConfirmFile.row (f : ConfirmFile) : FileId × String × Nat := (f.id, f.name, f.size)

/-- The order of the rows: by name, then by id. -/
def rowCmp : FileId × String × Nat → FileId × String × Nat → Ordering :=
  compareLex (compareOn fun row => row.2.1) (compareOn fun row => row.1.val)

def rowLe (a b : FileId × String × Nat) : Bool := (rowCmp a b).isLE

/-- The order of the rows looks at what they show only. -/
theorem ConfirmFile.le_eq (a b : ConfirmFile) : a.le b = rowLe a.row b.row := rfl

instance : Std.TransCmp rowCmp :=
  inferInstanceAs (Std.TransCmp (compareLex (compareOn fun row : FileId × String × Nat => row.2.1)
    (compareOn fun row => row.1.val)))

/-- Of any two rows, one goes before the other. -/
theorem rowLe_total (a b : FileId × String × Nat) : rowLe a b = true ∨ rowLe b a = true := by
  have hswap : rowCmp b a = (rowCmp a b).swap := Std.OrientedCmp.eq_swap
  unfold rowLe
  rw [hswap]
  cases rowCmp a b with
  | lt | eq => exact .inl rfl
  | gt => exact .inr rfl

/-- The order of the rows is transitive. -/
theorem rowLe_trans {a b c : FileId × String × Nat} (hab : rowLe a b = true)
    (hbc : rowLe b c = true) :
    rowLe a c = true :=
  Std.TransCmp.isLE_trans hab hbc

instance : Std.Total fun a b : ConfirmFile => a.le b = true where
  total a b := by
    rw [ConfirmFile.le_eq, ConfirmFile.le_eq]
    exact rowLe_total a.row b.row

instance : IsTrans ConfirmFile fun a b => a.le b = true where
  trans a b c hab hbc := by
    rw [ConfirmFile.le_eq] at hab hbc ⊢
    exact rowLe_trans hab hbc

namespace ConfirmState

def rows (state : ConfirmState) : List (FileId × String × Nat) := state.files.map ConfirmFile.row

/-- A dialog with the same request and the same rows, whatever is selected. -/
def SameRows (state state' : ConfirmState) : Prop :=
  state'.request = state.request ∧ state'.rows = state.rows

/-- A row for each offered file, in order, and a cursor on one of them. -/
structure Lists (state : ConfirmState) : Prop where
  rows : state.rows.Perm (state.request.files.entries.map fun e => (e.1, e.2.fileName, e.2.size))
  sorted : state.rows.Pairwise fun a b => rowLe a b = true
  cursor : state.files ≠ [] → state.cursor < state.files.length

/-- A dialog has the rows of itself. -/
theorem SameRows.refl (state : ConfirmState) : state.SameRows state := ⟨rfl, rfl⟩

/-- Dialogs of the same rows are of one length. -/
theorem SameRows.length {state state' : ConfirmState} (h : state.SameRows state') :
    state'.files.length = state.files.length := by
  have hrows := congrArg List.length h.2
  simpa only [ConfirmState.rows, List.length_map] using hrows

/-- A dialog lists its offer as long as it keeps the rows, and the cursor in them. -/
theorem Lists.of_sameRows {state state' : ConfirmState} (h : state.Lists)
    (hsame : state.SameRows state')
    (hcursor : state'.files ≠ [] → state'.cursor < state'.files.length) : state'.Lists where
  rows := by
    rw [hsame.1, hsame.2]
    exact h.rows
  sorted := by
    rw [hsame.2]
    exact h.sorted
  cursor := hcursor

/-- The dialog of a request. -/
theorem Lists.confirm (request : PendingRequest) {I : Type} {state : ConfirmState}
    (h : (Popup.confirm request : Popup I) = .transferConfirm state) :
    state.Lists ∧ state.request = request := by
  unfold Popup.confirm at h
  injection h with h
  subst h
  refine ⟨⟨?_, ?_, fun hne => List.length_pos_iff.mpr hne⟩, rfl⟩
  · have hperm := (List.perm_insertionSort (fun a b : ConfirmFile => a.le b = true)
      (request.files.entries.map fun e => ⟨e.1, e.2.fileName, e.2.size, true⟩)).map ConfirmFile.row
    rw [List.map_map] at hperm
    exact hperm
  · unfold ConfirmState.rows
    rw [List.pairwise_map]
    simp only [← ConfirmFile.le_eq]
    exact List.pairwise_insertionSort _ _

/-! ### Keys of a dialog -/

/-- The cursor moves up over the same rows. -/
theorem moveUp_sameRows (state : ConfirmState) : state.SameRows state.moveUp := by
  unfold moveUp
  split <;> exact ⟨rfl, rfl⟩

/-- The cursor moves down over the same rows. -/
theorem moveDown_sameRows (state : ConfirmState) : state.SameRows state.moveDown := by
  unfold moveDown
  split <;> exact ⟨rfl, rfl⟩

/-- A row is the same, ticked or not. -/
theorem toggle_sameRows (state : ConfirmState) : state.SameRows state.toggle := by
  refine ⟨rfl, ?_⟩
  unfold rows toggle
  apply List.ext_getElem
  · rw [List.length_map, List.length_map, List.length_modify]
  · intro i _ _
    rw [List.getElem_map, List.getElem_map, List.getElem_modify]
    split <;> rfl

/-- All of them are, too. -/
theorem toggleAll_sameRows (state : ConfirmState) : state.SameRows state.toggleAll := by
  refine ⟨rfl, ?_⟩
  unfold rows toggleAll
  rw [List.map_map]
  rfl

/-- Moving up, the cursor stays in the rows. -/
theorem Lists.moveUp {state : ConfirmState} (h : state.Lists) : state.moveUp.Lists := by
  refine h.of_sameRows state.moveUp_sameRows fun hne => ?_
  rw [state.moveUp_sameRows.length]
  unfold ConfirmState.moveUp at hne ⊢
  split at hne
  · rename_i hempty
    exact absurd (List.isEmpty_iff.mp hempty) hne
  · rename_i hempty
    have hcursor := h.cursor hne
    rw [if_neg hempty]
    dsimp only
    split
    · omega
    · omega

/-- Moving down, the cursor stays in the rows. -/
theorem Lists.moveDown {state : ConfirmState} (h : state.Lists) : state.moveDown.Lists := by
  refine h.of_sameRows state.moveDown_sameRows fun hne => ?_
  rw [state.moveDown_sameRows.length]
  unfold ConfirmState.moveDown at hne ⊢
  split at hne
  · rename_i hempty
    exact absurd (List.isEmpty_iff.mp hempty) hne
  · rename_i hempty
    have hcursor := h.cursor hne
    rw [if_neg hempty]
    exact Nat.mod_lt _ (by omega)

/-- With one row toggled, the dialog lists its offer. -/
theorem Lists.toggle {state : ConfirmState} (h : state.Lists) : state.toggle.Lists := by
  refine h.of_sameRows state.toggle_sameRows fun hne => ?_
  rw [state.toggle_sameRows.length]
  refine h.cursor fun hempty => hne ?_
  rw [← List.length_eq_zero_iff, state.toggle_sameRows.length, hempty, List.length_nil]

/-- With all rows toggled, it does so too. -/
theorem Lists.toggleAll {state : ConfirmState} (h : state.Lists) : state.toggleAll.Lists := by
  refine h.of_sameRows state.toggleAll_sameRows fun hne => ?_
  rw [state.toggleAll_sameRows.length]
  refine h.cursor fun hempty => hne ?_
  rw [← List.length_eq_zero_iff, state.toggleAll_sameRows.length, hempty, List.length_nil]

/-! ### The answer -/

/-- The answer that a key gives. -/
def answer? (state : ConfirmState) (key : KeyCode) : Option TransferDecision :=
  match key with
  | .enter =>
    if state.selectedIds.isEmpty then some .decline
    else if state.selectedIds.length = state.files.length then some .accept
    else some (.acceptFiles state.selectedIds)
  | .char 'y' | .char 'Y' => some .accept
  | .char 'n' | .char 'N' | .esc => some .decline
  | _ => none

/-- The key accepts the file: enter, where its row is selected; y, whatever is selected. -/
def AcceptedBy (state : ConfirmState) (key : KeyCode) (f : FileId) : Prop :=
  ∃ file ∈ state.files, file.id = f ∧
    (key = .char 'y' ∨ key = .char 'Y' ∨ (key = .enter ∧ file.selected = true))

/-- The selected ids are those of the ticked rows. -/
theorem mem_selectedIds_iff {state : ConfirmState} {f : FileId} :
    f ∈ state.selectedIds ↔ ∃ file ∈ state.files, file.id = f ∧ file.selected = true := by
  unfold selectedIds
  rw [List.mem_map]
  constructor
  · intro h
    obtain ⟨file, hfile, hid⟩ := h
    rw [List.mem_filter] at hfile
    exact ⟨file, hfile.1, hid, hfile.2⟩
  · intro h
    obtain ⟨file, hfile, hid, hselected⟩ := h
    exact ⟨file, List.mem_filter.mpr ⟨hfile, hselected⟩, hid⟩

/-- The ids of the rows are those of the offer. -/
theorem Lists.mem_keys_iff {state : ConfirmState} (h : state.Lists) {f : FileId} :
    f ∈ state.request.files.keys ↔ ∃ file ∈ state.files, file.id = f := by
  have hids : (state.files.map ConfirmFile.id).Perm state.request.files.keys := by
    have hperm := h.rows.map Prod.fst
    unfold ConfirmState.rows at hperm
    rw [List.map_map, List.map_map] at hperm
    exact hperm
  rw [← hids.mem_iff, List.mem_map]

/-- When as many ids are selected as there are rows, all are. -/
theorem selected_of_length {state : ConfirmState}
    (h : state.selectedIds.length = state.files.length) {file : ConfirmFile}
    (hfile : file ∈ state.files) : file.selected = true := by
  unfold selectedIds at h
  rw [List.length_map, List.length_filter_eq_length_iff] at h
  exact h file hfile

/-- An answer accepts the offered files that its key accepts. -/
theorem Lists.mem_acceptedIds_iff {state : ConfirmState} (h : state.Lists) {key : KeyCode}
    {decision : TransferDecision} (hanswer : state.answer? key = some decision)
    {request : PrepareUploadRequest} (hfiles : request.files = state.request.files) (f : FileId) :
    f ∈ request.acceptedIds decision ↔ state.AcceptedBy key f := by
  -- a key that accepts all, or Enter where all rows are selected
  have hall : (∀ file ∈ state.files, key = .char 'y' ∨ key = .char 'Y' ∨
      (key = .enter ∧ file.selected = true)) →
      (f ∈ request.files.keys ↔ state.AcceptedBy key f) := by
    intro hkey
    rw [hfiles, h.mem_keys_iff]
    constructor
    · intro hrow
      obtain ⟨file, hfile, hid⟩ := hrow
      exact ⟨file, hfile, hid, hkey file hfile⟩
    · intro haccepted
      obtain ⟨file, hfile, hid, _⟩ := haccepted
      exact ⟨file, hfile, hid⟩
  -- a decline accepts nothing, so it is enough that the key accepts nothing
  have hrefuses : ¬state.AcceptedBy key f →
      (f ∈ request.acceptedIds .decline ↔ state.AcceptedBy key f) :=
    fun hnot => ⟨fun hmem => (List.not_mem_nil hmem).elim, fun haccepted => (hnot haccepted).elim⟩
  unfold answer? at hanswer
  split at hanswer
  · split at hanswer
    · -- nothing is selected
      rename_i hempty
      cases hanswer
      refine hrefuses fun haccepted => ?_
      obtain ⟨file, hfile, hid, hkey⟩ := haccepted
      have hselected : file.selected = true := by simpa using hkey
      have hmem : f ∈ state.selectedIds := mem_selectedIds_iff.mpr ⟨file, hfile, hid, hselected⟩
      rw [List.isEmpty_iff.mp hempty] at hmem
      cases hmem
    -- the length alone tells whether all are selected
    · split at hanswer
      · rename_i hlength
        cases hanswer
        exact hall fun file hfile => .inr (.inr ⟨rfl, selected_of_length hlength hfile⟩)
      -- some are selected: their ids, as far as the offer has them
      · cases hanswer
        show f ∈ state.selectedIds.filter request.files.contains ↔ _
        rw [List.mem_filter, mem_selectedIds_iff]
        constructor
        · intro hsel
          obtain ⟨file, hfile, hid, hselected⟩ := hsel.1
          exact ⟨file, hfile, hid, .inr (.inr ⟨rfl, hselected⟩)⟩
        · intro haccepted
          obtain ⟨file, hfile, hid, hkey⟩ := haccepted
          have hselected : file.selected = true := by simpa using hkey
          refine ⟨⟨file, hfile, hid, hselected⟩, AssocMap.contains_iff_mem_keys.mpr ?_⟩
          rw [hfiles]
          exact h.mem_keys_iff.mpr ⟨file, hfile, hid⟩
  -- y and Y
  · cases hanswer
    exact hall fun file hfile => .inl rfl
  · cases hanswer
    exact hall fun file hfile => .inr (.inl rfl)
  -- n, N and Escape
  · cases hanswer
    exact hrefuses (by simp [AcceptedBy])
  · cases hanswer
    exact hrefuses (by simp [AcceptedBy])
  · cases hanswer
    exact hrefuses (by simp [AcceptedBy])
  · cases hanswer

end ConfirmState

/-! ## The dialog of the application -/

variable {I : Type} {lib : TuiLibrary I}

/-- A dialog that lists the files of its request as long as the other one does. -/
def KeepsLists (state state' : ConfirmState) : Prop :=
  state'.request = state.request ∧ (state.Lists → state'.Lists)

/-- A dialog that is left alone keeps its lists. -/
theorem KeepsLists.refl (state : ConfirmState) : KeepsLists state state := ⟨rfl, id⟩

/-- The dialog is that of the popup. -/
theorem dialog_of_popup {app app' : App I} (h : app'.popup = app.popup) :
    app'.dialog? = app.dialog? := by
  unfold App.dialog?
  rw [h]

/-- An open dialog is the popup. -/
theorem popup_of_dialog {app : App I} {state : ConfirmState} (h : app.dialog? = some state) :
    app.popup = some (.transferConfirm state) := by
  unfold App.dialog? at h
  split at h
  · rename_i hpopup
    cases h
    exact hpopup
  · cases h

/-- Without a question, no dialog is open. -/
theorem dialog_of_asked {app : App I} (h : app.asked = none) : app.dialog? = none :=
  Option.map_eq_none_iff.mp h

/-- A key answers the request of the open dialog, or keeps its request and its rows. -/
inductive KeyDialog (app : App I) (key : KeyCode) (r : App I × List AppEffect) : Prop
  | keeps : (∀ state', r.1.dialog? = some state' → ∃ state, app.dialog? = some state ∧
    KeepsLists state state') →
    answers r.2 = [] → KeyDialog app key r
  | answers {state : ConfirmState} {decision : TransferDecision} : app.dialog? = some state →
    state.answer? key = some decision → r.1.dialog? = none →
    answers r.2 = [(state.request.responder, decision)] → KeyDialog app key r

/-- What a key does to the dialog that is open, key by key. -/
theorem handlePopupKey_dialog {app : App I} {state : ConfirmState}
    (hpopup : app.popup = some (.transferConfirm state)) (key : KeyCode) (env : AppEnv) :
    KeyDialog app key (app.handlePopupKey lib key env) := by
  -- there is a dialog, so this is a key for it
  have hdialog : app.dialog? = some state := by
    unfold App.dialog?
    rw [hpopup]
  have hmoves : ∀ state' : ConfirmState, KeepsLists state state' →
      KeyDialog app key ({ app with popup := some (.transferConfirm state') }, []) := by
    intro state' hkeeps
    refine .keeps (fun state'' h => ?_) rfl
    obtain rfl : state' = state'' := Option.some.inj h
    exact ⟨state, hdialog, hkeeps⟩
  unfold App.handlePopupKey
  rw [hpopup]
  dsimp only
  -- the cursor up and down, the space, all of them
  split
  · exact hmoves _ ⟨ConfirmState.moveUp_request state, fun h => h.moveUp⟩
  · exact hmoves _ ⟨ConfirmState.moveUp_request state, fun h => h.moveUp⟩
  · exact hmoves _ ⟨ConfirmState.moveDown_request state, fun h => h.moveDown⟩
  · exact hmoves _ ⟨ConfirmState.moveDown_request state, fun h => h.moveDown⟩
  · exact hmoves _ ⟨rfl, fun h => h.toggle⟩
  · exact hmoves _ ⟨rfl, fun h => h.toggleAll⟩
  · exact hmoves _ ⟨rfl, fun h => h.toggleAll⟩
  -- Enter answers by the selection, the letters and Escape outright
  · refine .answers hdialog ?_ rfl rfl
    unfold ConfirmState.answer?
    dsimp only
    split
    · rfl
    · split <;> rfl
  · exact .answers hdialog rfl rfl rfl
  · exact .answers hdialog rfl rfl rfl
  · exact .answers hdialog rfl rfl rfl
  · exact .answers hdialog rfl rfl rfl
  · exact .answers hdialog rfl rfl rfl
  -- any other key leaves the dialog open
  · exact .keeps (fun state' h => ⟨state', h, .refl state'⟩) rfl

/-- What any key does to the dialog, if one is open. -/
theorem handleKey_dialog (lib : TuiLibrary I) (app : App I) (key : KeyCode) (env : AppEnv) :
    KeyDialog app key (app.handleKey lib key env) := by
  cases hdialog : app.dialog? with
  | some state =>
    have hpopup := popup_of_dialog hdialog
    unfold App.handleKey
    rw [if_pos (by rw [hpopup]; rfl)]
    exact handlePopupKey_dialog hpopup key env
  | none =>
    -- no key opens a dialog
    have hasked : app.asked = none := by
      unfold App.asked
      rw [hdialog]
      rfl
    cases handleKey_asked lib app key env with
    | keeps hafter hanswers _ =>
      refine .keeps (fun state' h => ?_) hanswers
      rw [dialog_of_asked (hafter.trans hasked)] at h
      cases h
    | answers hsome => cases hasked.symm.trans hsome

/-- The prompt for a PIN does not take the place of a dialog. -/
theorem maybeOpenPinPrompt_dialog (lib : TuiLibrary I) (app : App I) :
    (app.maybeOpenPinPrompt lib).dialog? = app.dialog? := by
  unfold App.maybeOpenPinPrompt
  split
  · rename_i hopen
    rw [Bool.and_eq_true, Option.isNone_iff_eq_none] at hopen
    unfold App.dialog?
    rw [hopen.2]
  · rfl

/-- The offer that an event carries. -/
def ServerEvent.offer? : ServerEvent → Option PrepareUploadRequest
  | .transferRequest sender files => some ⟨sender, files⟩
  | _ => none

/-- The requests are the events with an offer. -/
theorem ServerEvent.isRequest_eq (ev : ServerEvent) : ev.isRequest = ev.offer?.isSome := by
  cases ev <;> rfl

/-- An event is no request, or a request that gets a dialog, or one that is declined. -/
inductive EventDialog (app : App I) (responder : Nat) (ev : ServerEvent)
    (r : App I × List AppEffect) : Prop
  | other : ev.offer? = none → r.1.dialog? = app.dialog? → answers r.2 = [] →
    EventDialog app responder ev r
  | opens {offer : PrepareUploadRequest} {state : ConfirmState} : ev.offer? = some offer →
    r.1.dialog? = some state → state.Lists → state.request = ⟨responder, offer.info, offer.files⟩ →
    answers r.2 = [] → EventDialog app responder ev r
  | declines {offer : PrepareUploadRequest} : ev.offer? = some offer → r.1.dialog? = app.dialog? →
    answers r.2 = [(responder, .decline)] → EventDialog app responder ev r

/-- An event opens a dialog if it is a request, and leaves the one that is open alone if not. -/
theorem pollServerEvent_dialog (app : App I) (responder : Nat) (env : AppEnv) (ev : ServerEvent) :
    EventDialog app responder ev (app.pollServerEvent responder env ev) := by
  cases ev with
  | transferRequest sender files =>
    have hlists := ConfirmState.Lists.confirm ⟨responder, sender, files⟩ (I := I) rfl
    unfold App.pollServerEvent
    dsimp only
    -- without a popup, with one that gives way, and with one that stays open
    split
    · exact .opens rfl rfl hlists.1 hlists.2 rfl
    · exact .opens rfl rfl hlists.1 hlists.2 rfl
    · exact .declines rfl rfl rfl
  -- a peer may be new in the list or known
  | peerRegistered device =>
    unfold App.pollServerEvent
    dsimp only
    split
    · exact .other rfl rfl rfl
    · exact .other rfl rfl rfl
  | textReceived sessionId text senderAlias => exact .other rfl rfl rfl
  | fileReceiveProgress sessionId fileId fileName senderAlias received total count =>
    exact .other rfl rfl rfl
  | fileReceived sessionId fileId fileName path size senderAlias text => exact .other rfl rfl rfl
  | sessionDone sessionId => exact .other rfl rfl rfl
  | webShare => exact .other rfl rfl rfl

/-! ## The loop -/

/-- The offer that an action puts into the channel. -/
def TuiAction.offers : TuiAction → List PrepareUploadRequest
  | .event ev => ev.offer?.toList
  | _ => []

/-- The offers in the channel. -/
def TuiWorld.offers (s : TuiWorld I) : List PrepareUploadRequest :=
  s.events.filterMap ServerEvent.offer?

/-- What a step of the loop does to the requests, the dialog and the answers. -/
inductive DialogMove (s : TuiWorld I) (a : TuiAction) (s' : TuiWorld I) : Prop
  /-- It takes no request and answers none. -/
  | keeps (dialog : ∀ state', s'.app.dialog? = some state' →
      ∃ state, s.app.dialog? = some state ∧ KeepsLists state state')
    (decisions : s'.decisions = s.decisions) (taken : s'.taken = s.taken)
    (offers : s'.offers = s.offers ++ a.offers)
  | opens {offer : PrepareUploadRequest} {rest : List PrepareUploadRequest} {state : ConfirmState}
    (offers : s.offers = offer :: rest) (offers' : s'.offers = rest)
    (taken : s'.taken = s.taken + 1) (decisions : s'.decisions = s.decisions)
    (dialog : s'.app.dialog? = some state) (lists : state.Lists)
    (request : state.request = ⟨s.taken, offer.info, offer.files⟩)
  | declines {offer : PrepareUploadRequest} {rest : List PrepareUploadRequest}
    (offers : s.offers = offer :: rest) (offers' : s'.offers = rest)
    (taken : s'.taken = s.taken + 1)
    (decisions : s'.decisions = s.decisions ++ [(s.taken, .decline)])
    (dialog : s'.app.dialog? = s.app.dialog?)
  | answers {key : KeyCode} {env : AppEnv} {state : ConfirmState} {decision : TransferDecision}
    (action : a = .key (some key) env) (dialog : s.app.dialog? = some state)
    (answer : state.answer? key = some decision) (dialog' : s'.app.dialog? = none)
    (decisions : s'.decisions = s.decisions ++ [(state.request.responder, decision)])
    (taken : s'.taken = s.taken) (offers : s'.offers = s.offers)

/-- A step that touches neither the dialog, nor the decisions, nor the channel but for new offers. -/
theorem DialogMove.quiet {s s' : TuiWorld I} {a : TuiAction} (hdialog : s'.app.dialog? = s.app.dialog?)
    (hdecisions : s'.decisions = s.decisions) (htaken : s'.taken = s.taken)
    (hoffers : s'.offers = s.offers ++ a.offers) : DialogMove s a s' := by
  refine .keeps (fun state h => ⟨state, ?_, .refl state⟩) hdecisions htaken hoffers
  rw [← hdialog]
  exact h

/-- What the next event does to the dialog. -/
theorem dialogMove_serverEvent {s s' : TuiWorld I} {env : AppEnv}
    (h : s.serverEvent env = some s') :
    DialogMove s (.serverEvent env) s' := by
  obtain ⟨ev, rest, hevents, rfl⟩ := serverEvent_eq_some h
  have hpoll := pollServerEvent_dialog s.app s.taken env ev
  have hrequest := ev.isRequest_eq
  -- the event is taken from the front, with the offer it may carry
  have hcons : s.offers = ev.offer?.toList ++ rest.filterMap ServerEvent.offer? := by
    unfold TuiWorld.offers
    rw [hevents, List.filterMap_cons]
    cases ev.offer? <;> rfl
  generalize s.app.pollServerEvent s.taken env ev = r at hpoll ⊢
  cases hpoll with
  -- no offer: the dialog stays
  | other hoffer hdialog hanswers =>
    rw [hoffer] at hcons hrequest
    refine .quiet hdialog ?_ ?_ ?_
    · show s.decisions ++ answers r.2 = s.decisions
      rw [hanswers, List.append_nil]
    · show (if ev.isRequest then s.taken + 1 else s.taken) = s.taken
      rw [hrequest]
      rfl
    · show rest.filterMap ServerEvent.offer? = s.offers ++ []
      rw [hcons]
      exact (List.append_nil _).symm
  -- the offer opens a dialog under the next number
  | opens hoffer hdialog hlists hstate hanswers =>
    rw [hoffer] at hcons hrequest
    refine .opens hcons rfl ?_ ?_ hdialog hlists hstate
    · show (if ev.isRequest then s.taken + 1 else s.taken) = s.taken + 1
      rw [hrequest]
      rfl
    · show s.decisions ++ answers r.2 = s.decisions
      rw [hanswers, List.append_nil]
  -- the offer is declined because of another popup
  | declines hoffer hdialog hanswers =>
    rw [hoffer] at hcons hrequest
    refine .declines hcons rfl ?_ ?_ hdialog
    · show (if ev.isRequest then s.taken + 1 else s.taken) = s.taken + 1
      rw [hrequest]
      rfl
    · show s.decisions ++ answers r.2 = s.decisions ++ [(s.taken, .decline)]
      rw [hanswers]

/-- What a key does to the dialog, and which decision it makes. -/
theorem dialogMove_key (s : TuiWorld I) (key : Option KeyCode) (env : AppEnv) :
    DialogMove s (.key key env) (s.handleKey lib key env) := by
  cases key with
  -- a key that is none only opens the prompt
  | none => exact .quiet (maybeOpenPinPrompt_dialog lib s.app) rfl rfl (List.append_nil _).symm
  | some key =>
    have hkey := handleKey_dialog lib s.app key env
    unfold TuiWorld.handleKey TuiWorld.apply
    dsimp only
    generalize s.app.handleKey lib key env = r at hkey ⊢
    -- the prompt for a PIN opens over no dialog
    have hprompt := maybeOpenPinPrompt_dialog lib { r.1 with dirty := true }
    have hafter : (({ r.1 with dirty := true } : App I).maybeOpenPinPrompt lib).dialog? =
        r.1.dialog? :=
      hprompt.trans (dialog_of_popup rfl)
    cases hkey with
    | keeps hdialog hanswers =>
      refine .keeps (fun state h => hdialog state (hafter ▸ h)) ?_ rfl (List.append_nil _).symm
      show s.decisions ++ answers r.2 = s.decisions
      rw [hanswers, List.append_nil]
    | answers hdialog hanswer hnone hanswers =>
      refine .answers rfl hdialog hanswer (hafter.trans hnone) ?_ rfl rfl
      show s.decisions ++ answers r.2 = _
      rw [hanswers]

/-- A step of the loop takes a request, or answers one, or does neither. -/
theorem dialogMove_of_step {s s' : TuiWorld I} {a : TuiAction} (h : tuiStep lib s a = some s') :
    DialogMove s a s' := by
  cases a with
  -- the event waits in the channel
  | event ev =>
    cases h
    refine .quiet rfl rfl rfl ?_
    show (s.events ++ [ev]).filterMap ServerEvent.offer? = _
    rw [List.filterMap_append]
    show _ ++ [ev].filterMap ServerEvent.offer? = s.offers ++ ev.offer?.toList
    rw [List.filterMap_cons]
    cases ev.offer? <;> rfl
  -- sightings and the progress of sends are none of the dialog's
  | sighting device =>
    cases h
    exact .quiet rfl rfl rfl (List.append_nil _).symm
  | progress task sent total =>
    obtain ⟨-, heq⟩ := Option.ite_none_right_eq_some.mp h
    cases heq
    exact .quiet rfl rfl rfl (List.append_nil _).symm
  | finish task result =>
    obtain ⟨-, heq⟩ := Option.ite_none_right_eq_some.mp h
    cases heq
    exact .quiet rfl rfl rfl (List.append_nil _).symm
  -- drawing changes what the screen shows, not the popup
  | draw env =>
    obtain ⟨-, heq⟩ := Option.ite_none_right_eq_some.mp h
    cases heq
    unfold TuiWorld.draw
    dsimp only
    split
    · exact .quiet (dialog_of_popup (render_popup s.app env)) rfl rfl (List.append_nil _).symm
    · exact .quiet rfl rfl rfl (List.append_nil _).symm
  | serverEvent env =>
    obtain ⟨-, heq⟩ := Option.ite_none_right_eq_some.mp h
    exact dialogMove_serverEvent heq
  | serverEventsDone =>
    obtain ⟨-, heq⟩ := Option.ite_none_right_eq_some.mp h
    cases heq
    exact .quiet rfl rfl rfl (List.append_nil _).symm
  -- an update of a send leaves the dialog alone
  | sendUpdate =>
    obtain ⟨-, heq⟩ := Option.ite_none_right_eq_some.mp h
    unfold TuiWorld.sendUpdate at heq
    split at heq
    · cases heq
    · rename_i task update updates _
      cases heq
      exact .quiet (dialog_of_popup (pollSendUpdate_frame lib s.app update).1) rfl rfl
        (List.append_nil _).symm
  | sendUpdatesDone repaint =>
    obtain ⟨-, heq⟩ := Option.ite_none_right_eq_some.mp h
    cases heq
    exact .quiet rfl rfl rfl (List.append_nil _).symm
  | key key env =>
    obtain ⟨-, heq⟩ := Option.ite_none_right_eq_some.mp h
    cases heq
    exact dialogMove_key s key env

/-- In every run, a dialog has a row for each offered file, in order, and the cursor on one of
    them. -/
theorem dialog_lists {s : TuiWorld I} (h : (tui lib).Reachable s) {state : ConfirmState}
    (hdialog : s.app.dialog? = some state) : state.Lists := by
  revert state
  -- by induction on the run: the rows are made when the dialog opens and kept by every key
  refine (tui lib).reachable_induction (fun s => ∀ {state}, s.app.dialog? = some state → state.Lists)
    ?_ ?_ h
  · intro s hinit state hdialog
    obtain ⟨deviceInfo, autoAccept, rfl⟩ := hinit
    cases hdialog
  · intro s a s' ih hstep state hdialog
    cases dialogMove_of_step hstep with
    | keeps hkeeps =>
      obtain ⟨state₀, hdialog₀, -, hlists⟩ := hkeeps state hdialog
      exact hlists (ih hdialog₀)
    | opens _ _ _ _ hopened hlists =>
      cases hopened.symm.trans hdialog
      exact hlists
    | declines _ _ _ _ hsame => exact ih (hsame ▸ hdialog)
    | answers _ _ _ hnone => cases hnone.symm.trans hdialog

/-- In every run, whatever keys a dialog has been given: it lists the offered files, and the next
    answer is for its request and accepts the files that the key accepts, and no others. -/
theorem dialog_answers_ticks {s : TuiWorld I} (h : (tui lib).Reachable s) {state : ConfirmState}
    (hdialog : s.app.dialog? = some state) :
    state.Lists ∧ ∀ key env, ∀ e ∈ answers (s.app.handleKey lib key env).2,
      e.1 = state.request.responder ∧ ∀ request :
      PrepareUploadRequest, request.files = state.request.files →
        ∀ f, f ∈ request.acceptedIds e.2 ↔ state.AcceptedBy key f := by
  have hlists := dialog_lists h hdialog
  refine ⟨hlists, fun key env e he => ?_⟩
  cases handleKey_dialog lib s.app key env with
  | keeps _ hanswers =>
    rw [hanswers] at he
    cases he
  | answers hdialog' hanswer _ hanswers =>
    cases hdialog.symm.trans hdialog'
    rw [hanswers] at he
    cases List.mem_singleton.mp he
    exact ⟨rfl, fun request hfiles f => hlists.mem_acceptedIds_iff hanswer hfiles f⟩

/-- A dialog after a `down`, in a run that has opened it. -/
theorem dialog_answers_ticks_opened :
    ∃ (s : TuiWorld String) (state : ConfirmState),
      s.app.dialog? = some state ∧ state.files ≠ [] ∧ state.Lists ∧
      ∀ key env, ∀ e ∈ answers (s.app.handleKey TuiLibrary.plain key env).2,
        e.1 = state.request.responder ∧ ∀ request :
        PrepareUploadRequest, request.files = state.request.files →
          ∀ f, f ∈ request.acceptedIds e.2 ↔ state.AcceptedBy key f := by
  have hrun : ((tui TuiLibrary.plain).exec (.start TuiLibrary.plain (plainDevice "self") false)
      (earlyKey ++ [.key (some .down) plainEnv])).any
        (fun s => s.app.dialog?.any fun state => state.files ≠ []) = true := by decide
  obtain ⟨s, hs, htest⟩ := (Option.any_eq_true ..).mp hrun
  obtain ⟨state, hdialog, hfiles⟩ := (Option.any_eq_true ..).mp htest
  have hinit : (tui TuiLibrary.plain).Reachable
      (.start TuiLibrary.plain (plainDevice "self") false) :=
    .init ⟨_, _, rfl⟩
  have hanswers := dialog_answers_ticks (hinit.exec hs) hdialog
  exact ⟨s, state, hdialog, of_decide_eq_true hfiles, hanswers.1, hanswers.2⟩

end LocalSend
