import LocalSend.Server.Routes
import LocalSend.Spec.WebDisclosure

/-!
# Requests with a handoff

A request that carries the reserved header is for the protected prepare and for nothing else.
The guard of the router turns it away from the routes that were there when the guard was laid,
and the routes of Web Share are merged later: they serve it as if it had no such header.

## Key results

- `comesTo_of_handoff`: what a request with a handoff is routed to
- `protectedPrepare_frame`: a protected prepare leaves everything else as it is
- `handoff_fail_closed_iff`: which requests with a handoff are kept from the other handlers
- `web_share_ignores_handoff`: one that is not
-/

namespace LocalSend

open Http

/-! ## Where requests go -/

theorem accepts_get_iff {m : Method} :
    MethodFilter.get.accepts m = true ↔ m = .get ∨ m = .head := by
  cases m <;> simp [MethodFilter.accepts]

theorem accepts_post_iff {m : Method} : MethodFilter.post.accepts m = true ↔ m = .post := by
  cases m <;> simp [MethodFilter.accepts]

theorem createRouter_valid : createRouter.Valid := by decide

/-- A request to the guarded routes that may pass with a handoff is for the prepare. -/
theorem uploadRouter_endpoint {request : Request} {e : Endpoint}
    (hpath : request.path = "/api/localsend/v2/prepare-upload")
    (h : uploadRouter.dispatch request = .endpoint e) : e = .handlePrepareUpload := by
  have hread : HttpRequest.path request = "/api/localsend/v2/prepare-upload" := hpath
  simp only [uploadRouter, Router.endpoint_route, Router.endpoint_new, hread] at h
  obtain hcancel | ⟨_, hupload | ⟨_, hprepare | ⟨hne, _⟩⟩⟩ := h
  · exact absurd hcancel.1 (by decide)
  · exact absurd hupload.1 (by decide)
  · exact hprepare.2.2.symm
  · exact absurd rfl hne

/-- What the routes of Web Share take in. -/
theorem webShareRouter_endpoint (request : Request) (e : Endpoint) :
    webShareRouter.dispatch request = .endpoint e ↔
      (request.method = .post ∧ request.path = "/api/localsend/v2/prepare-download" ∧
          e = .handlePrepareDownload) ∨
        ((request.method = .get ∨ request.method = .head) ∧
          ((request.path = "/api/localsend/v2/download" ∧ e = .handleDownload) ∨
            (request.path = "/" ∧ e = .handleWebIndex) ∨
            (request.path = "/main.js" ∧ e = .handleWebJs) ∨
            (request.path = "/i18n.json" ∧ e = .handleWebI18n))) := by
  have hpath : HttpRequest.path request = request.path := rfl
  have hmethod : HttpRequest.method request = request.method := rfl
  simp only [webShareRouter, Router.endpoint_route, Router.endpoint_new, accepts_get_iff,
    accepts_post_iff, hpath, hmethod]
  -- the routes are asked from the last one on
  by_cases hi18n : request.path = "/i18n.json"
  · simp [hi18n, eq_comm]
  by_cases hjs : request.path = "/main.js"
  · simp [hjs, eq_comm]
  by_cases hindex : request.path = "/"
  · simp [hindex, eq_comm]
  by_cases hdownload : request.path = "/api/localsend/v2/download"
  · simp [hdownload, eq_comm]
  · simp only [hi18n, hjs, hindex, hdownload, false_and, false_or, ne_eq, not_false_eq_true,
      true_and, and_false, or_false, and_false]
    constructor
    · intro h
      exact ⟨h.2.1, h.1, h.2.2.symm⟩
    · intro h
      exact ⟨h.2.1, h.1, h.2.2.symm⟩

/-- A request that a handler of Web Share runs for: one to its routes, with the parameters that
    the route requires. -/
def Request.ForWebShare (request : Request) : Prop :=
  (request.method = .post ∧ request.path = "/api/localsend/v2/prepare-download" ∧
      (PrepareDownloadQuery.fromQuery request.query).isSome) ∨
    ((request.method = .get ∨ request.method = .head) ∧
      (request.path = "/" ∨ request.path = "/main.js" ∨ request.path = "/i18n.json" ∨
        (request.path = "/api/localsend/v2/download" ∧
          (DownloadQuery.fromQuery request.query).isSome)))

/-- The handlers that a request can come to. -/
def ComesTo (serve : Router Request Endpoint StatusCode → Request → Routed Endpoint StatusCode)
    (request : Request) (h : Handler) : Prop :=
  ∃ e, serve createRouter request = .endpoint e ∧ request.handler e = some h

/-- What a request with a handoff comes to: the prepare, or a handler of Web Share. -/
theorem comesTo_of_handoff {serve : Router Request Endpoint StatusCode → Request →
    Routed Endpoint StatusCode}
    (hserve : Router.Documented serve) {request : Request} (hheader : request.carriesHandoff = true)
    {e : Endpoint} :
    serve createRouter request = .endpoint e ↔
      (request.path = "/api/localsend/v2/prepare-upload" ∧
        uploadRouter.dispatch request = .endpoint e) ∨
        webShareRouter.dispatch request = .endpoint e := by
  have hguard : rejectCrosscopyHeaderOnOtherRoutes request = none ↔
      request.path = "/api/localsend/v2/prepare-upload" := by
    simp [rejectCrosscopyHeaderOnOtherRoutes, hheader]
  rw [hserve.endpoint_iff createRouter_valid, createRouter,
    Router.endpoint_merge_layer createRouter_valid, hguard]

/-! ## The protected prepare -/

/-- The receiver without its protected half, and without what is only kept to be looked at. -/
def World.standardPart (w : World) : World :=
  { w with
    state :=
      { w.state with
        crosscopyAuthorizedSession := none
        crosscopyAuthorizedActiveUpload := none
        crosscopyAuthorizedStopping := false }
    log := [] }

theorem World.standardPart_installCrosscopy (w : World) (session : CrossCopyAuthorizedSession) :
    (w.installCrosscopy session).standardPart = w.standardPart := by
  unfold World.installCrosscopy
  split <;> rfl

/-- Every section of a protected prepare leaves the standard half as it is. -/
theorem ProtectedWorld.prepareStep_standardPart {p p' : ProtectedWorld} {h : TaskId}
    {t : ProtectedPrepare} {a : ProtectedPrepareAction} (hstep : p.prepareStep h t a = some p') :
    p'.world.standardPart = p.world.standardPart := by
  cases a with
  -- its first section is no section of a task that runs
  | begin_ values request => cases hstep
  | preflight =>
    simp only [prepareStep, Option.ite_none_right_eq_some, Option.some.injEq] at hstep
    rw [← hstep.2]
    unfold ProtectedWorld.preflight
    split
    · rfl
    · split <;> rfl
  | askGate =>
    simp only [prepareStep, Option.ite_none_right_eq_some, Option.some.injEq] at hstep
    rw [← hstep.2]
    rfl
  | gateAnswered owner id token =>
    simp only [prepareStep, Option.ite_none_right_eq_some, Option.some.injEq] at hstep
    rw [← hstep.2]
    unfold ProtectedWorld.gateAnswered
    cases owner <;> rfl
  -- only here anything is installed, on the protected half
  | install =>
    simp only [prepareStep] at hstep
    split at hstep
    · rw [← Option.some.inj hstep]
      exact p.world.standardPart_installCrosscopy _
    · cases hstep
  | cancelled =>
    simp only [prepareStep] at hstep
    split at hstep
    · rw [← Option.some.inj hstep]
      rfl
    · cases hstep
  | drop =>
    simp only [prepareStep, Option.ite_none_right_eq_some, Option.some.injEq] at hstep
    rw [← hstep.2]
    rfl

/-- The same from its first section on, and for the state of Web Share. -/
theorem protectedPrepare_frame {sha256 : List UInt8 → String} {s s' : Server} {n : TaskId}
    {a : ProtectedPrepareAction} (hstep : s.step sha256 (.receiver (.prepare n a)) = some s') :
    s'.receiver.world.standardPart = s.receiver.world.standardPart ∧ s'.web = s.web := by
  simp only [Server.step, Option.map_eq_some_iff] at hstep
  obtain ⟨p, hstep, hs'⟩ := hstep
  subst hs'
  refine ⟨?_, rfl⟩
  cases ht : s.receiver.prepares n with
  | none =>
    cases a with
    | begin_ values request =>
      simp only [ProtectedWorld.step, ht, Option.some.injEq] at hstep
      subst hstep
      show (s.receiver.beginPrepare n values request).world.standardPart = _
      unfold ProtectedWorld.beginPrepare
      split <;> rfl
    | _ => simp [ProtectedWorld.step, ht] at hstep
  | some t =>
    simp only [ProtectedWorld.step, ht, Option.ite_none_left_eq_some] at hstep
    exact ProtectedWorld.prepareStep_standardPart hstep.2

/-! ## Requests with a handoff -/

/-- Nothing but the protected prepare runs for the request, and whatever its sections are run
    on, and whenever, the standard half and Web Share stay as they are and report nothing. -/
structure FailClosed (serve : Router Request Endpoint StatusCode → Request →
    Routed Endpoint StatusCode)
    (request : Request) : Prop where
  only : ∀ h, ComesTo serve request h → ∃ values offer, h = .crosscopyAuthorizedPrepare values offer
  frame : ∀ (sha256 : List UInt8 → String) (n : Nat) (h : Handler) (a : Section) (s s' : Server),
    ComesTo serve request h → h.RunsSection n a →
    s.step sha256 a = some s' →
    s'.receiver.world.standardPart = s.receiver.world.standardPart ∧ s'.web = s.web

theorem comesTo_prepare {request : Request} (hheader : request.carriesHandoff = true) {h : Handler}
    (hhandler : request.handler .handlePrepareUpload = some h) :
    ∃ values offer, h = .crosscopyAuthorizedPrepare values offer := by
  simp only [Request.handler, hheader, if_true, bind, Option.bind_eq_some_iff] at hhandler
  obtain ⟨_, _, offer, _, hh⟩ := hhandler
  exact ⟨request.handoffValues, offer, (Option.some.inj hh).symm⟩

/-- A request comes to a handler of Web Share exactly if it is for one. -/
theorem forWebShare_iff (request : Request) :
    request.ForWebShare ↔ ∃ e h, webShareRouter.dispatch request = .endpoint e ∧
      request.handler e = some h := by
  simp only [webShareRouter_endpoint]
  constructor
  · intro h
    obtain ⟨hmethod, hpath, hquery⟩ | ⟨hmethod, hindex | hjs | hi18n | ⟨hpath, hquery⟩⟩ := h
    · obtain ⟨query, hquery⟩ := Option.isSome_iff_exists.mp hquery
      refine ⟨_, .prepareDownload request.peer query.sessionId query.pin,
        .inl ⟨hmethod, hpath, rfl⟩, ?_⟩
      simp [Request.handler, hquery]
    · exact ⟨_, .webIndex, .inr ⟨hmethod, .inr (.inl ⟨hindex, rfl⟩)⟩, rfl⟩
    · exact ⟨_, .webJs, .inr ⟨hmethod, .inr (.inr (.inl ⟨hjs, rfl⟩))⟩, rfl⟩
    · exact ⟨_, .webI18n, .inr ⟨hmethod, .inr (.inr (.inr ⟨hi18n, rfl⟩))⟩, rfl⟩
    · obtain ⟨query, hquery⟩ := Option.isSome_iff_exists.mp hquery
      refine ⟨_, .download request.peer query.sessionId query.fileId,
        .inr ⟨hmethod, .inl ⟨hpath, rfl⟩⟩, ?_⟩
      simp [Request.handler, hquery]
  · intro h
    obtain ⟨e, handler, hserved, hhandler⟩ := h
    -- `Query` has read the parameters, where the handler has any
    obtain ⟨hmethod, hpath, he⟩ | ⟨hmethod, ⟨hpath, he⟩ | hindex | hjs | hi18n⟩ := hserved
    · subst he
      simp only [Request.handler, Option.map_eq_some_iff] at hhandler
      obtain ⟨query, hquery, _⟩ := hhandler
      exact .inl ⟨hmethod, hpath, by simp [hquery]⟩
    · subst he
      simp only [Request.handler, Option.map_eq_some_iff] at hhandler
      obtain ⟨query, hquery, _⟩ := hhandler
      exact .inr ⟨hmethod, .inr (.inr (.inr ⟨hpath, by simp [hquery]⟩))⟩
    · exact .inr ⟨hmethod, .inl hindex.1⟩
    · exact .inr ⟨hmethod, .inr (.inl hjs.1)⟩
    · exact .inr ⟨hmethod, .inr (.inr (.inl hi18n.1))⟩

/-- No route of Web Share leads to the prepare. -/
theorem not_prepare_of_webShare {request : Request} {e : Endpoint} {h : Handler}
    (hserved : webShareRouter.dispatch request = .endpoint e)
    (hhandler : request.handler e = some h) :
    ∀ values offer, h ≠ .crosscopyAuthorizedPrepare values offer := by
  intro values offer hh
  subst hh
  obtain ⟨_, _, he⟩ | ⟨_, ⟨_, he⟩ | ⟨_, he⟩ | ⟨_, he⟩ | ⟨_, he⟩⟩ :=
    (webShareRouter_endpoint request e).mp hserved
  · subst he
    simp [Request.handler] at hhandler
  · subst he
    simp [Request.handler] at hhandler
  · subst he
    cases hhandler
  · subst he
    cases hhandler
  · subst he
    cases hhandler

/-- A request with a handoff is kept from every handler but the protected prepare, and from
    everything that is not the prepare's, exactly if Web Share has no handler for it. -/
theorem handoff_fail_closed_iff
    (serve : Router Request Endpoint StatusCode → Request → Routed Endpoint StatusCode)
    (hserve : Router.Documented serve) (request : Request)
    (hheader : request.carriesHandoff = true) :
    FailClosed serve request ↔ ¬request.ForWebShare := by
  rw [forWebShare_iff]
  constructor
  · intro hclosed hweb
    obtain ⟨e, h, hserved, hhandler⟩ := hweb
    -- the guard has not seen the request, whose handler runs
    have hcomes : ComesTo serve request h :=
      ⟨e, (comesTo_of_handoff hserve hheader).mpr (.inr hserved), hhandler⟩
    obtain ⟨values, offer, hh⟩ := hclosed.only h hcomes
    exact not_prepare_of_webShare hserved hhandler values offer hh
  · intro hweb
    -- the guard answers, or hands over to the prepare
    have honly : ∀ h, ComesTo serve request h →
        ∃ values offer, h = .crosscopyAuthorizedPrepare values offer := by
      intro h hcomes
      obtain ⟨e, hserved, hhandler⟩ := hcomes
      cases (comesTo_of_handoff hserve hheader).mp hserved with
      | inl hprepare =>
        have he := uploadRouter_endpoint hprepare.1 hprepare.2
        exact comesTo_prepare hheader (he ▸ hhandler)
      | inr hserved => exact absurd ⟨e, h, hserved, hhandler⟩ hweb
    refine ⟨honly, fun sha256 n h a s s' hcomes hsection hstep => ?_⟩
    obtain ⟨values, offer, hh⟩ := honly h hcomes
    subst hh
    obtain ⟨b, ha, _⟩ := hsection
    subst ha
    exact protectedPrepare_frame hstep

namespace Scenario

/-- A request with the header and an offer without files. -/
def withHandoff (method : Method) (path : String) : Request where
  method := method
  path := path
  headers := [(crosscopyFileV3HandoffHeader, some "00")]
  peer := .v4 1
  peerText := "0.0.0.1"
  query := []
  offer := some ⟨device, .empty⟩
  device := none

end Scenario

/-- A prepare with a handoff is kept from the standard half. -/
theorem handoff_prepare_fail_closed :
    FailClosed Router.dispatch (Scenario.withHandoff .post "/api/localsend/v2/prepare-upload") :=
  (handoff_fail_closed_iff Router.dispatch Router.dispatch_documented _ (by decide)).mpr
    (by simp [Request.ForWebShare, Scenario.withHandoff])

/-- The handoff is ignored where Web Share asks for approval. -/
theorem web_share_ignores_handoff :
    ¬∀ (serve : Router Request Endpoint StatusCode → Request → Routed Endpoint StatusCode),
      Router.Documented serve → ∀ request : Request, request.carriesHandoff = true →
        FailClosed serve request := by
  intro h
  have hclosed := h Router.dispatch Router.dispatch_documented
    (Scenario.withHandoff .post "/api/localsend/v2/prepare-download") (by decide)
  have hcomes : ComesTo Router.dispatch
      (Scenario.withHandoff .post "/api/localsend/v2/prepare-download")
      (.prepareDownload (.v4 1) none none) := ⟨.handlePrepareDownload, by decide, by rfl⟩
  obtain ⟨values, offer, hh⟩ := hclosed.only _ hcomes
  cases hh

end LocalSend
