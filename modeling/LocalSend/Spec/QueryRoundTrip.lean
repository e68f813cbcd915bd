import LocalSend.Client.Urls

/-!
# Query parameters from the client to the server

The client puts the values of its query parameters into its URLs as they are. So a value comes out
at the server as it went in exactly when nothing in it means anything to a URL or a form: no
separator, no plus, no escape, no tab or newline, and no space or control character at the end of
the URL.

## Key results

- `find?_of_queryField`: what an extracted field says of the form
- `roundTrips_iff`: for the text of a form, whatever the URL before it
- `query_round_trip`: for every call of the client
-/

namespace LocalSend

open FormUrlEncoded IpText

/-- A call of the client with query parameters. -/
inductive ClientCall where
  | prepareUpload (pin : Option String)
  | upload (sessionId : SessionId) (fileId : FileId) (token : Token)
  | cancel (sessionId : SessionId)

namespace ClientCall

/-- The URL of the call. -/
def url (target : DeviceInfo) : ClientCall → Except LocalSendError String
  | prepareUpload pin => LocalSendClient.prepareUploadUrl target pin
  | upload sessionId fileId token => LocalSendClient.uploadUrl target sessionId fileId token
  | cancel sessionId => LocalSendClient.cancelUrl target sessionId

/-- The parameters that the call passes. -/
def params : ClientCall → List (String × String)
  | prepareUpload pin => pin.toList.map fun pin => ("pin", pin)
  | upload sessionId fileId token =>
    [("sessionId", sessionId.val), ("fileId", fileId.val), ("token", token.val)]
  | cancel sessionId => [("sessionId", sessionId.val)]

/-- The handler of the call extracts the values that were passed. -/
def Extracts (pairs : List (String × String)) : ClientCall → Prop
  | prepareUpload pin => PrepareUploadParams.fromQuery pairs = some ⟨pin⟩
  | upload sessionId fileId token =>
    UploadParams.fromQuery pairs = some ⟨sessionId, fileId, token⟩
  | cancel sessionId => CancelParams.fromQuery pairs = some ⟨some sessionId⟩

/-- The handler gets the values that were passed, and the query has the parameters that were passed
    and no others. -/
structure RoundTrips (call : ClientCall) (query : Option (List UInt8)) : Prop where
  extracted : call.Extracts (queryPairs query)
  exact : queryPairs query = call.params

/-- The parameters as characters. -/
def texts (call : ClientCall) : List (List Char × List Char) :=
  call.params.map fun p => (p.1.toList, p.2.toList)

end ClientCall

/-! ## What is extracted -/

/-- A field that was extracted is the first of its name. -/
theorem find?_of_queryField {query : Option (List UInt8)} {name value : String}
    (h : queryField (queryPairs query) name = some (some value)) :
    (formParse (query.getD [])).find? (fun q => q.1 = name.toList) =
      some (name.toList, value.toList) := by
  -- the names are compared as strings by the handler, as characters here
  have hfilter : (queryPairs query).filter (fun p => p.1 = name) =
      ((formParse (query.getD [])).filter fun q => q.1 = name.toList).map
        fun p => (String.ofList p.1, String.ofList p.2) := by
    unfold queryPairs
    rw [List.filter_map]
    congr 1
    apply List.filter_congr
    intro q _
    have hiff : String.ofList q.1 = name ↔ q.1 = name.toList := by
      rw [← String.toList_inj, String.toList_ofList]
    simp [hiff]
  unfold queryField at h
  rw [hfilter] at h
  rw [← List.head?_filter]
  cases hfound : (formParse (query.getD [])).filter fun q => q.1 = name.toList with
  | nil =>
    rw [hfound] at h
    simp at h
  | cons q rest =>
    rw [hfound] at h
    cases rest with
    -- a field that is given twice is rejected
    | cons => simp at h
    | nil =>
      have hvalue : String.ofList q.2 = value := Option.some.inj (Option.some.inj h)
      have hname : q.1 = name.toList := by
        have hmem : q ∈ (formParse (query.getD [])).filter fun q => q.1 = name.toList := by
          rw [hfound]
          exact List.mem_singleton_self q
        exact of_decide_eq_true (List.mem_filter.mp hmem).2
      rw [← hvalue, String.toList_ofList, ← hname]
      rfl

namespace ClientCall

/-- Every parameter is the first of its name in the form, once the handler has extracted it. -/
theorem Extracts.find? {call : ClientCall} {query : Option (List UInt8)}
    (h : call.Extracts (queryPairs query)) :
    ∀ p ∈ call.texts, (formParse (query.getD [])).find? (fun q => q.1 = p.1) = some p := by
  intro p hp
  obtain ⟨⟨name, value⟩, hparam, rfl⟩ := List.mem_map.mp hp
  apply find?_of_queryField
  cases call with
  | prepareUpload pin =>
    obtain ⟨field, hfield, heq⟩ := Option.map_eq_some_iff.mp h
    cases heq
    cases pin with
    | none => cases hparam
    | some pin =>
      cases List.mem_singleton.mp hparam
      exact hfield
  | upload sessionId fileId token =>
    -- all three are required
    simp only [Extracts, UploadParams.fromQuery, Option.bind_eq_bind, Option.bind_eq_some_iff,
      Option.join_eq_some_iff] at h
    obtain ⟨s, hs, f, hf, t, ht, heq⟩ := h
    cases heq
    simp only [params, List.mem_cons, List.not_mem_nil, or_false] at hparam
    rcases hparam with hparam | hparam | hparam <;> cases hparam
    · exact hs
    · exact hf
    · exact ht
  | cancel sessionId =>
    obtain ⟨field, hfield, heq⟩ := Option.map_eq_some_iff.mp h
    cases List.mem_singleton.mp hparam
    cases field with
    | none => simp at heq
    | some value =>
      cases heq
      exact hfield

/-- From the parameters that were passed, and no others, the handler extracts the values. -/
theorem roundTrips_of_exact {call : ClientCall} {query : Option (List UInt8)}
    (h : queryPairs query = call.params) : call.RoundTrips query := by
  refine ⟨?_, h⟩
  rw [h]
  cases call with
  | prepareUpload pin => cases pin <;> rfl
  | upload | cancel => rfl

theorem isName_of_mem_texts {call : ClientCall} {p : List Char × List Char} (h : p ∈ call.texts) :
    IsName p.1 := by
  have hnames : ∀ n ∈ ["pin".toList, "sessionId".toList, "fileId".toList, "token".toList],
      isName n = true := by decide
  have hmem : p.1 ∈ ["pin".toList, "sessionId".toList, "fileId".toList, "token".toList] := by
    obtain ⟨param, hparam, rfl⟩ := List.mem_map.mp h
    cases call with
    | prepareUpload pin =>
      cases pin with
      | none => cases hparam
      | some pin =>
        cases List.mem_singleton.mp hparam
        simp
    | upload sessionId fileId token =>
      simp only [params, List.mem_cons, List.not_mem_nil, or_false] at hparam
      rcases hparam with rfl | rfl | rfl <;> simp
    | cancel sessionId =>
      cases List.mem_singleton.mp hparam
      simp
  exact .of_isName (hnames _ hmem)

theorem nodup_texts (call : ClientCall) : (call.texts.map Prod.fst).Nodup := by
  cases call with
  | prepareUpload pin => cases pin <;> simp [texts, params]
  | upload =>
    simp only [texts, params, List.map_cons, List.map_nil]
    decide
  | cancel => simp [texts, params]

/-- The values come out as they went in exactly when they are literal. -/
theorem roundTrips_iff (call : ClientCall) :
    call.RoundTrips (some (encodeQuery (cleanText (formText call.texts)))) ↔
      AllLiteral call.texts := by
  have hparse : formParse (encodeQuery (cleanText (formText call.texts))) =
      formOfText (cleanText (formText call.texts)) := formParse_encodeQuery _
  constructor
  · intro h
    have hfind := h.extracted.find?
    rw [Option.getD_some, hparse] at hfind
    -- the names are known and distinct, so each value is found under its own
    exact literal_of_find (fun p hp => isName_of_mem_texts hp) call.nodup_texts hfind
  · intro h
    apply roundTrips_of_exact
    unfold queryPairs
    rw [Option.getD_some, hparse, formOfText_of_literal (fun p hp => isName_of_mem_texts hp) h,
      texts, List.map_map]
    exact List.map_id'' (fun p => by simp) _

/-! ## The URLs -/

/-- The URL of a call is a URL of the protocol, with the form of the parameters after it. -/
theorem toList_url {call : ClientCall} {target : DeviceInfo} {text : String}
    (h : call.url target = .ok text) : ∃ ip path, target.ip = some ip ∧
      (∃ rest, path.toList = '/' :: rest) ∧ ('?' ∉ path.toList ∧ '#' ∉ path.toList) ∧
      text.toList = (endpointUrl target.protocol ip target.port path).toList ++
        (if call.texts = [] then [] else '?' :: formText call.texts) := by
  have hip : ∃ ip, target.ip = some ip := by
    cases hip : target.ip with
    | some ip => exact ⟨ip, rfl⟩
    | none =>
      cases call <;>
        simp [url, LocalSendClient.prepareUploadUrl, LocalSendClient.uploadUrl,
          LocalSendClient.cancelUrl, LocalSendClient.targetIp, hip, bind, Except.bind] at h
  obtain ⟨ip, hip⟩ := hip
  have htarget : LocalSendClient.targetIp target = .ok ip := by
    unfold LocalSendClient.targetIp
    rw [hip]
  refine ⟨ip, ?_⟩
  cases call with
  | prepareUpload pin =>
    refine ⟨"/api/localsend/v2/prepare-upload", hip, ⟨_, rfl⟩, by decide, ?_⟩
    simp only [url, LocalSendClient.prepareUploadUrl, htarget] at h
    -- without a PIN there is no query
    cases pin with
    | none =>
      cases h
      exact (List.append_nil _).symm
    | some pin =>
      cases h
      simp [texts, params, formText]
  | upload sessionId fileId token =>
    refine ⟨"/api/localsend/v2/upload", hip, ⟨_, rfl⟩, by decide, ?_⟩
    simp only [url, LocalSendClient.uploadUrl, htarget] at h
    cases h
    simp [texts, params, formText]
  | cancel sessionId =>
    refine ⟨"/api/localsend/v2/cancel", hip, ⟨_, rfl⟩, by decide, ?_⟩
    simp only [url, LocalSendClient.cancelUrl, htarget] at h
    cases h
    simp [texts, params, formText]

end ClientCall

/-- A URL of the protocol starts with its scheme, and has neither a query nor a fragment where its
    host has none. -/
theorem endpointUrl_plain (protocol : Protocol) (port : UInt16) {ip path : String}
    (hip : '?' ∉ ip.toList ∧ '#' ∉ ip.toList) (hpath : '?' ∉ path.toList ∧ '#' ∉ path.toList) :
    ∃ base, (endpointUrl protocol ip port path).toList = 'h' :: base ∧
      '?' ∉ 'h' :: base ∧ '#' ∉ 'h' :: base := by
  -- a port is digits, and a scheme letters
  have hport : ∀ c, c.isDigit = false → c ∉ decimal port.toNat := by
    intro c hc hmem
    cases hc.symm.trans (isDigit_of_mem_decimal hmem)
  have hscheme : '?' ∉ protocol.scheme.text ∧ '#' ∉ protocol.scheme.text := by
    cases protocol <;> decide
  have hnone : '?' ∉ (endpointUrl protocol ip port path).toList ∧
      '#' ∉ (endpointUrl protocol ip port path).toList := by
    rw [endpointUrl_toList]
    simp [Url.urlText, hip, hpath, hscheme, hport]
  have hhead : ∃ base, (endpointUrl protocol ip port path).toList = 'h' :: base := by
    rw [endpointUrl_toList]
    cases protocol <;> exact ⟨_, rfl⟩
  obtain ⟨base, hbase⟩ := hhead
  exact ⟨base, hbase, hbase ▸ hnone⟩

/-- The parameters of a call come out at the server as they went in exactly when no value has
    anything in it that a URL or a form gives a meaning. -/
theorem query_round_trip (url : Url.UrlParser) (hurl : url.Standard) (call : ClientCall)
    (target : DeviceInfo) (text : String) (htext : call.url target = .ok text)
    (hip : ∀ ip, target.ip = some ip → '?' ∉ ip.toList ∧ '#' ∉ ip.toList)
    (u : Url.ParsedUrl) (hparse : url.parse text.toList = some u) :
    call.RoundTrips u.query ↔ AllLiteral call.texts := by
  obtain ⟨ip, path, hsome, _, hpath, hsplit⟩ := ClientCall.toList_url htext
  obtain ⟨base, hbase, hquestion, hhash⟩ :=
    endpointUrl_plain target.protocol target.port (hip ip hsome) hpath
  have hscheme : ∃ rest, text.toList = Url.urlText target.protocol.scheme rest := by
    rw [hsplit, endpointUrl_toList]
    exact ⟨_, List.append_assoc ..⟩
  obtain ⟨rest, hrest⟩ := hscheme
  have hquery : u.query = queryOf text.toList := by
    rw [hrest] at hparse ⊢
    exact hurl.query target.protocol.scheme rest u hparse
  rw [hbase] at hsplit
  -- a call without parameters has no query, and gives none
  by_cases hnil : call.texts = []
  · rw [if_pos hnil, List.append_nil] at hsplit
    have hparams : call.params = [] := List.map_eq_nil_iff.mp hnil
    have hnone : u.query = none := by
      rw [hquery, hsplit, queryOf_of_not_mem hquestion]
    have hround : call.RoundTrips u.query := by
      apply ClientCall.roundTrips_of_exact
      rw [hnone, hparams]
      rfl
    rw [hnil]
    exact iff_of_true hround trivial
  · rw [if_neg hnil] at hsplit
    rw [hquery, hsplit, queryOf_append (by decide) hquestion hhash]
    exact call.roundTrips_iff

/-- A receiver on this machine. -/
def localReceiver : DeviceInfo :=
  ⟨"receiver", "2.1", none, none, "fp", 53317, .https, false, some "127.0.0.1"⟩

/-- An upload to a receiver on this machine, with identifiers as receivers make them. -/
theorem query_round_trip_upload :
    ∃ u, Url.UrlParser.reference.parse
        "https://127.0.0.1:53317/api/localsend/v2/upload?sessionId=s1&fileId=f1&token=t1".toList =
          some u ∧
      ((ClientCall.upload ⟨"s1"⟩ ⟨"f1"⟩ ⟨"t1"⟩).RoundTrips u.query ↔
        AllLiteral (ClientCall.upload ⟨"s1"⟩ ⟨"f1"⟩ ⟨"t1"⟩).texts) := by
  obtain ⟨u, hu⟩ : ∃ u, Url.UrlParser.reference.parse
      "https://127.0.0.1:53317/api/localsend/v2/upload?sessionId=s1&fileId=f1&token=t1".toList =
        some u := by
    apply Option.isSome_iff_exists.mp
    decide +kernel
  refine ⟨u, hu, query_round_trip .reference Url.UrlParser.reference_standard
    (.upload ⟨"s1"⟩ ⟨"f1"⟩ ⟨"t1"⟩) localReceiver _ rfl ?_ u hu⟩
  intro ip hip
  cases hip
  decide

/-- A PIN with a plus in it comes out with a space: `1+1` as `1 1`. -/
theorem query_round_trip_plus :
    (ClientCall.prepareUpload (some "1+1")).url localReceiver =
        .ok "https://127.0.0.1:53317/api/localsend/v2/prepare-upload?pin=1+1" ∧
      ∃ u, Url.UrlParser.reference.parse
          "https://127.0.0.1:53317/api/localsend/v2/prepare-upload?pin=1+1".toList = some u ∧
        PrepareUploadParams.fromQuery (queryPairs u.query) = some ⟨some "1 1"⟩ ∧
        ¬(ClientCall.prepareUpload (some "1+1")).RoundTrips u.query := by
  have hpin : ((Url.UrlParser.reference.parse
      "https://127.0.0.1:53317/api/localsend/v2/prepare-upload?pin=1+1".toList).map fun u =>
        PrepareUploadParams.fromQuery (queryPairs u.query)) = some (some ⟨some "1 1"⟩) := by
    decide +kernel
  obtain ⟨u, hu, hread⟩ := Option.map_eq_some_iff.mp hpin
  refine ⟨rfl, u, hu, hread, ?_⟩
  intro h
  exact absurd (hread.symm.trans h.extracted) (by decide)

end LocalSend
