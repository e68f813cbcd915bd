import LocalSend.Spec.AnswerCauses
import LocalSend.Spec.ConsumerFrame
import LocalSend.Tui.Terminal

/-!
# The application and its server, step by step

Each of the two makes steps of its own system: what the server does is a run of `receiver`, and what
the application does is a run of `tui`. The channel between them holds the same events for both, and
the switch of the settings screen is the one of the server.

## Key results

- `Terminal.step_cases`: inversion of a step
- `terminal_simulates_receiver`, `terminal_simulates_tui`: the runs of the two
- `autoAccept_of_tuiStep`: what the switch of the settings screen is set to
-/

namespace LocalSend

variable {I : Type} {lib : TuiLibrary I} {sha : List UInt8 → String}

/-! ## The switch -/

/-- A handler after which the switch is what its effects set it to. -/
def Switches (app : App I) (r : App I × List AppEffect) : Prop :=
  r.1.autoAccept = (r.2.findSome? AppEffect.autoAccept?).getD app.autoAccept

/-- Starting a text send switches nothing. -/
theorem spawnTextSend_switches (app : App I) (pin : Option String) :
    (app.spawnTextSend lib pin).1.autoAccept = app.autoAccept ∧
      (app.spawnTextSend lib pin).2.findSome? AppEffect.autoAccept? = none := by
  unfold App.spawnTextSend
  split
  · exact ⟨rfl, rfl⟩
  · dsimp only
    split <;> exact ⟨rfl, rfl⟩

/-- Starting a file send switches nothing. -/
theorem spawnFileSend_switches (app : App I) (pin : Option String) (env : AppEnv) :
    (app.spawnFileSend lib pin env).1.autoAccept = app.autoAccept ∧
      (app.spawnFileSend lib pin env).2.findSome? AppEffect.autoAccept? = none := by
  unfold App.spawnFileSend
  split
  · exact ⟨rfl, rfl⟩
  · dsimp only
    split
    · exact ⟨rfl, rfl⟩
    · split <;> exact ⟨rfl, rfl⟩

/-- A handler that neither changes the switch nor has an effect on it. -/
theorem Switches.of_quiet {app : App I} {r : App I × List AppEffect}
    (h : r.1.autoAccept = app.autoAccept ∧ r.2.findSome? AppEffect.autoAccept? = none) :
    Switches app r := by
  unfold Switches
  rw [h.1, h.2]
  rfl

/-- A key in a popup switches auto-accept in the settings and at the server alike. -/
theorem handlePopupKey_switches (app : App I) (key : KeyCode) (env : AppEnv) :
    Switches app (app.handlePopupKey lib key env) := by
  unfold App.handlePopupKey
  split
  · split <;> exact .of_quiet ⟨rfl, rfl⟩
  · split
    · dsimp only
      split
      · exact .of_quiet ⟨rfl, rfl⟩
      · -- the PIN goes to a send
        unfold App.retryPendingSendWithPin
        split
        · exact .of_quiet (spawnFileSend_switches ..)
        · exact .of_quiet (spawnTextSend_switches ..)
        · exact .of_quiet ⟨rfl, rfl⟩
    · exact .of_quiet ⟨rfl, rfl⟩
    · exact .of_quiet ⟨rfl, rfl⟩
  · split <;> exact .of_quiet ⟨rfl, rfl⟩
  · exact .of_quiet ⟨rfl, rfl⟩
  · exact .of_quiet ⟨rfl, rfl⟩

/-- A key on a screen switches auto-accept in the settings and at the server alike. -/
theorem handleScreenKey_switches (app : App I) (key : KeyCode) (env : AppEnv) :
    Switches app (app.handleScreenKey lib key env) := by
  unfold App.handleScreenKey
  split
  -- the text screen edits, moves and sends
  · unfold App.handleSendTextKey
    split
    · split <;> exact .of_quiet ⟨rfl, rfl⟩
    · split
      · exact .of_quiet ⟨rfl, rfl⟩
      · split
        · exact .of_quiet ⟨rfl, rfl⟩
        · exact .of_quiet (spawnTextSend_switches app none)
      · exact .of_quiet ⟨rfl, rfl⟩
  -- so does the file screen
  · unfold App.handleSendFileKey
    split
    · split <;> exact .of_quiet ⟨rfl, rfl⟩
    · split
      · exact .of_quiet ⟨rfl, rfl⟩
      · split
        · exact .of_quiet ⟨rfl, rfl⟩
        · exact .of_quiet (spawnFileSend_switches app none env)
      · split <;> exact .of_quiet ⟨rfl, rfl⟩
  -- the screen of the receives has no keys of its own
  · exact .of_quiet ⟨rfl, rfl⟩
  · -- the one key that switches sends the new value along
    unfold App.handleSettingsKey
    split
    · rfl
    · rfl
    · rfl
    · rfl
    · exact .of_quiet ⟨rfl, rfl⟩

/-- So does every key. -/
theorem handleKey_switches (app : App I) (key : KeyCode) (env : AppEnv) :
    Switches app (app.handleKey lib key env) := by
  unfold App.handleKey
  split
  -- without a popup the global keys come first, and leave the switch
  · exact handlePopupKey_switches app key env
  · split
    · exact .of_quiet ⟨rfl, rfl⟩
    · split
      · exact .of_quiet ⟨rfl, rfl⟩
      · split
        · exact .of_quiet ⟨rfl, rfl⟩
        -- then the screen's key, which is followed by the refresh
        · have hscreen : Switches app (app.handleScreenKey lib key env) :=
            handleScreenKey_switches app key env
          generalize app.handleScreenKey lib key env = r at hscreen ⊢
          have hrefresh : (r.1.checkRefresh env).1.autoAccept = r.1.autoAccept ∧
              (r.1.checkRefresh env).2.findSome? AppEffect.autoAccept? = none := by
            unfold App.checkRefresh
            dsimp only
            split <;> exact ⟨rfl, rfl⟩
          unfold Switches at hscreen ⊢
          dsimp only
          rw [List.findSome?_append, hrefresh.1, hrefresh.2, Option.or_none]
          exact hscreen

/-- Drawing switches nothing. -/
theorem render_autoAccept (app : App I) (env : AppEnv) :
    (app.render lib env).autoAccept = app.autoAccept := by
  unfold App.render
  split <;> rfl

/-- The prompt for a PIN switches nothing. -/
theorem maybeOpenPinPrompt_autoAccept (app : App I) :
    (app.maybeOpenPinPrompt lib).autoAccept = app.autoAccept := by
  unfold App.maybeOpenPinPrompt
  split <;> rfl

/-- Taking an event of the server switches nothing. -/
theorem pollServerEvent_autoAccept (app : App I) (responder : Nat) (env : AppEnv)
    (ev : ServerEvent) :
    (app.pollServerEvent responder env ev).1.autoAccept = app.autoAccept := by
  unfold App.pollServerEvent
  dsimp only
  split
  · split <;> rfl
  · split <;> rfl
  all_goals rfl

/-- Taking an update of a send switches nothing. -/
theorem pollSendUpdate_autoAccept (app : App I) (update : SendUpdate) :
    (app.pollSendUpdate lib update).autoAccept = app.autoAccept := by
  unfold App.pollSendUpdate
  dsimp only
  split
  · rfl
  · split
    · rfl
    · split <;> rfl
  · split
    · rfl
    · split <;> rfl

/-- After a step of the loop the switch is what the step has set it to. -/
theorem autoAccept_of_tuiStep {t : Terminal I} {a : TuiAction} {s' : TuiWorld I}
    (h : tuiStep lib t.tui a = some s') :
    s'.app.autoAccept = (t.switches lib a).getD t.tui.app.autoAccept := by
  -- only a key can switch
  cases a with
  | event ev | sighting device =>
    cases h
    rfl
  | progress task sent total =>
    obtain ⟨-, heq⟩ := Option.ite_none_right_eq_some.mp h
    cases heq
    rfl
  | finish task result =>
    obtain ⟨-, heq⟩ := Option.ite_none_right_eq_some.mp h
    cases heq
    rfl
  | draw env =>
    obtain ⟨-, heq⟩ := Option.ite_none_right_eq_some.mp h
    cases heq
    unfold TuiWorld.draw
    dsimp only
    split
    · exact render_autoAccept t.tui.app env
    · rfl
  | serverEvent env =>
    obtain ⟨-, heq⟩ := Option.ite_none_right_eq_some.mp h
    obtain ⟨ev, rest, -, rfl⟩ := serverEvent_eq_some heq
    exact pollServerEvent_autoAccept t.tui.app t.tui.taken env ev
  | serverEventsDone =>
    obtain ⟨-, heq⟩ := Option.ite_none_right_eq_some.mp h
    cases heq
    rfl
  | sendUpdate =>
    obtain ⟨-, heq⟩ := Option.ite_none_right_eq_some.mp h
    unfold TuiWorld.sendUpdate at heq
    split at heq
    · cases heq
    · cases heq
      exact pollSendUpdate_autoAccept t.tui.app _
  | sendUpdatesDone repaint =>
    obtain ⟨-, heq⟩ := Option.ite_none_right_eq_some.mp h
    cases heq
    rfl
  | key key env =>
    obtain ⟨-, heq⟩ := Option.ite_none_right_eq_some.mp h
    cases heq
    cases key with
    | none => exact maybeOpenPinPrompt_autoAccept t.tui.app
    | some key =>
      unfold TuiWorld.handleKey
      dsimp only
      rw [maybeOpenPinPrompt_autoAccept]
      exact handleKey_switches t.tui.app key env

/-! ## Inversion -/

namespace Terminal

/-- A step of the application and its server. -/
inductive Step (sha : List UInt8 → String) (lib : TuiLibrary I) (t : Terminal I) :
    TerminalAction → Terminal I → Prop
  | server {a w'} (allowed : t.allows a = true) (hstep : t.world.step sha a = some w') :
    Step sha lib t (.server a)
      { world := w', tui := { t.tui with events := w'.channel.queue }, askers := t.askers ++ t.asks a }
  | app {a s'} (own : ∀ ev, a ≠ .event ev) (hstep : tuiStep lib t.tui a = some s') :
    Step sha lib t (.app a) { t with tui := s', world := t.serve lib a }

/-- A step of the terminal is one of the server, of the application, or of both. -/
theorem step_cases {t t' : Terminal I} {a : TerminalAction}
    (hstep : (terminal sha lib).step t a = some t') : Step sha lib t a t' := by
  change Terminal.step sha lib t a = some t' at hstep
  cases a with
  | server a =>
    simp only [step, Option.ite_none_right_eq_some, Option.map_eq_some_iff] at hstep
    obtain ⟨hallowed, w', hw, rfl⟩ := hstep
    exact .server hallowed hw
  | app a =>
    cases a with
    | event ev => cases hstep
    | _ =>
      simp only [step, Option.map_eq_some_iff] at hstep
      obtain ⟨s', hs, rfl⟩ := hstep
      exact .app (by simp) hs

/-- What the application does to the server is nothing, or a step of its environment. -/
theorem serve_cases (lib : TuiLibrary I) (t : Terminal I) (a : TuiAction) :
    (t.serve lib a = t.world ∧ t.switches lib a = none ∧ ∀ env, a ≠ .serverEvent env) ∨
      (∃ env, a = .serverEvent env ∧ t.serve lib a = t.world.envStep .receiveEvent) ∨
      ∃ yes, t.switches lib a = some yes ∧
        t.serve lib a = t.world.envStep (.setAutoAccept yes) := by
  cases ha : t.switches lib a with
  | some yes =>
    refine .inr (.inr ⟨yes, rfl, ?_⟩)
    cases a with
    | key key env =>
      unfold serve
      dsimp only
      rw [ha]
    | _ => cases ha
  | none =>
    cases a with
    | serverEvent env => exact .inr (.inl ⟨env, rfl, rfl⟩)
    | _ =>
      refine .inl ⟨?_, rfl, by simp⟩
      unfold serve
      dsimp only
      rw [ha]

/-- The handlers of the server are not touched. -/
theorem serve_prepares (lib : TuiLibrary I) (t : Terminal I) (a : TuiAction) :
    (t.serve lib a).prepares = t.world.prepares := by
  rcases serve_cases lib t a with ⟨heq, _⟩ | ⟨_, _, heq⟩ | ⟨_, _, heq⟩
  · rw [heq]
  · rw [heq]
    rfl
  · rw [heq]
    rfl

/-- A step of the application is a run of the server, of at most one step of its environment. -/
theorem serve_exec (sha : List UInt8 → String) (lib : TuiLibrary I) (t : Terminal I)
    (a : TuiAction) :
    ∃ bs : List EnvAction, (receiver sha).exec t.world (bs.map Action.env) =
      some (t.serve lib a) := by
  rcases serve_cases lib t a with ⟨heq, _⟩ | ⟨_, _, heq⟩ | ⟨yes, _, heq⟩
  · exact ⟨[], by rw [heq]; rfl⟩
  · exact ⟨[.receiveEvent], by rw [heq]; rfl⟩
  · exact ⟨[.setAutoAccept yes], by rw [heq]; rfl⟩

/-- The events that the loop finds are those in the channel. -/
theorem events_of_tuiStep {t : Terminal I} {a : TuiAction} {s' : TuiWorld I}
    (hevents : t.tui.events = t.world.channel.queue) (own : ∀ ev, a ≠ .event ev)
    (htui : tuiStep lib t.tui a = some s') : s'.events = (t.serve lib a).channel.queue := by
  rcases serve_cases lib t a with ⟨heq, _, hother⟩ | ⟨env, rfl, heq⟩ | ⟨yes, hswitch, heq⟩
  -- neither a receive nor the switch: the channel is as before
  · rw [heq]
    cases a with
    | event ev => exact absurd rfl (own ev)
    | serverEvent env => exact absurd rfl (hother env)
    | sighting device =>
      cases htui
      exact hevents
    | progress | finish | serverEventsDone | sendUpdatesDone =>
      obtain ⟨-, heq⟩ := Option.ite_none_right_eq_some.mp htui
      cases heq
      exact hevents
    | key key env =>
      obtain ⟨-, heq⟩ := Option.ite_none_right_eq_some.mp htui
      cases heq
      cases key <;> exact hevents
    | draw env =>
      obtain ⟨-, heq⟩ := Option.ite_none_right_eq_some.mp htui
      cases heq
      unfold TuiWorld.draw
      dsimp only
      split <;> exact hevents
    | sendUpdate =>
      obtain ⟨-, heq⟩ := Option.ite_none_right_eq_some.mp htui
      unfold TuiWorld.sendUpdate at heq
      split at heq
      · cases heq
      · cases heq
        exact hevents
  -- the receive takes the event that the loop takes
  · rw [heq]
    obtain ⟨-, hserver⟩ := Option.ite_none_right_eq_some.mp htui
    obtain ⟨ev, rest, hrest, rfl⟩ := serverEvent_eq_some hserver
    show rest = t.world.channel.recv.queue
    rw [BoundedChannel.queue_recv, ← hevents, hrest]
    rfl
  -- the switch leaves the channel as it is
  · cases a with
    | key key env =>
      obtain ⟨-, hkey⟩ := Option.ite_none_right_eq_some.mp htui
      cases hkey
      rw [heq]
      cases key <;> exact hevents
    | _ => cases hswitch

/-- An action of the server that the application leaves to it. -/
theorem consumerMove_of_allowed {t : Terminal I} {a : Action} {w' : World}
    (hallowed : t.allows a = true) (hstep : t.world.step sha a = some w') :
    t.world.channel.queue <+: w'.channel.queue ∧ w'.state.autoAccept = t.world.state.autoAccept ∧
      w'.offers.map some = t.world.offers.map some ++ (t.asks a).map fun h =>
        (t.world.prepares h).map PrepareTask.request := by
  cases World.consumerMove_of_step hstep with
  -- no event is emitted, so nobody asks
  | same h quiet =>
    have hasks : t.asks a = [] := by
      unfold asks
      split
      · exact if_pos (quiet _ rfl)
      · rfl
    refine ⟨h.queue, h.autoAccept, ?_⟩
    rw [hasks, h.offers]
    exact (List.append_nil _).symm
  -- an event that is no request
  | queues h quiet =>
    have hasks : t.asks a = [] := by
      unfold asks
      split
      · exact absurd rfl (quiet _)
      · rfl
    refine ⟨h.queue, h.autoAccept, ?_⟩
    rw [hasks, h.offers]
    exact (List.append_nil _).symm
  | @asks h p action ht live phase opened _ _ _ queue offers autoAccept =>
    subst action
    have hasks : t.asks (.prepare h .sendRequest) = [h] := if_neg (by rw [opened]; decide)
    refine ⟨queue, autoAccept, ?_⟩
    rw [hasks, offers, List.map_append, List.map_singleton, List.map_singleton, ht]
    rfl
  -- closing the channel keeps what is queued
  | closes action =>
    subst action
    cases hstep
    exact ⟨List.prefix_rfl, rfl, (List.append_nil _).symm⟩
  -- the application's own calls are not the server's
  | receives action | switches action =>
    subst action
    cases hallowed

end Terminal

/-! ## The two systems -/

/-- What the server of an application does, a receiver can do. -/
theorem terminal_simulates_receiver (sha : List UInt8 → String) (lib : TuiLibrary I) :
    (terminal sha lib).Simulation (receiver sha) Terminal.world where
  init t h := by
    obtain ⟨c, deviceInfo, rfl⟩ := h
    exact .init ⟨c, rfl⟩
  step t a t' _ hstep := by
    cases Terminal.step_cases hstep with
    | @server a w' _ hw =>
      refine ⟨[a], ?_⟩
      rw [TransitionSystem.exec_singleton]
      exact hw
    | @app a s' =>
      obtain ⟨bs, hbs⟩ := Terminal.serve_exec sha lib t a
      exact ⟨bs.map Action.env, hbs⟩

end LocalSend
