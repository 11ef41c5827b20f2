import Mathlib.Data.Finset.Dedup
import AitpVerifier.Harness

/-!
# The conformance adapter

A runner's requests, one at a time: control messages, message ids seen before, the steps
of a challenge sequence, and the operations of the registry. What one fixture's steps carry
from one to the next is dropped when the next fixture begins.
-/
namespace AitpVerifier

open PyText Checked

variable (P : Platform)

/-- What the adapter finds around it: the known-answer keys it can load, and the version
the package was installed as. -/
structure Deployment where
  loadKeys : PyM KatKeys
  packageVersion : Text

structure AdapterState where
  keys : Option KatKeys
  clock : Int
  features : Finset Text
  seenMessageIds : Finset Text
  challenges : List JsonValue
  popPresenter : Option Text
  popChallengeIssued : Bool

/-- Drop what a fixture's steps carry. -/
def AdapterState.beginFixture (s : AdapterState) : AdapterState :=
  { s with seenMessageIds := ∅, challenges := [], popPresenter := none, popChallengeIssued := false }

/-- An adapter given its keys, or left to load them. -/
def AdapterState.start (keys : Option KatKeys) : AdapterState := ⟨keys, referenceClock, ∅, ∅, [], none, false⟩

/-- The keys, loaded when first asked for. -/
def AdapterState.katKeys (D : Deployment) (s : AdapterState) : PyM KatKeys :=
  match s.keys with
  | some keys => .ok keys
  | none => D.loadKeys

inductive Response where
  | ok : (id : Text) → (result : Members) → Response
  | err : (id : Text) → (code : String) → (message : Text) → Response
  deriving DecidableEq

def Response.isOk : Response → Bool
  | .ok .. => true
  | .err .. => false

/-- The answer an operation's report makes. -/
def respond (rid : Text) (report : Report) : Response :=
  match report.1 with
  | none => .ok rid report.2
  | some code => .err rid code (match report.2.get? (txt "message") with
    | some message => message.text
    | none => txt code)

/-! ### Challenge sequences -/

def popChallengeTtlSecs : Int := 300

inductive SessionOp where
  | issuePopChallenge | producePopResponse | verifyPopResponse | authorizeCapabilityInvocation
  | expectPopChallengeIssued | withholdPopResponse
  deriving DecidableEq

def sessionOps : List (Text × SessionOp) :=
  [(txt "issue_pop_challenge", .issuePopChallenge), (txt "produce_pop_response", .producePopResponse),
    (txt "verify_pop_response", .verifyPopResponse), (txt "authorize_capability_invocation", .authorizeCapabilityInvocation),
    (txt "expect_pop_challenge_issued", .expectPopChallengeIssued), (txt "withhold_pop_response", .withholdPopResponse)]

/-- The claims of the token a step is about. -/
def claimsOf (params : Members) : PyM Members := unverifiedClaims P (params.get (txt "tct_token"))

/-- The verifier challenges the presenter of the token's `jti`. The fixture's own challenge
envelope fixes the nonce. -/
def issuePopChallenge (s : AdapterState) (random : Bytes) (params : Members) : PyM (Report × AdapterState) := do
  let envelope := (params.get? (txt "envelope")).getD (.dict [])
  let payload ← envelope.attrGet (txt "payload") (.dict [])
  let nonce := match ← payload.attrGet (txt "nonce") .null with
    | .str nonce => nonce
    | _ => b64urlEncode random
  let claims ← claimsOf P params
  let challenge := JsonValue.dict [(txt "tct_jti", claims.get (txt "jti")), (txt "nonce", .str nonce),
    (txt "expires_at", .int (s.clock + popChallengeTtlSecs))]
  .ok ((none, [(txt "pop_nonce", .str nonce)]),
    { s with challenges := s.challenges ++ [challenge], popChallengeIssued := true })

/-- A response, and the challenges it may answer. -/
def popInput (s : AdapterState) (params : Members) : Members :=
  [(txt "envelope", params.get (txt "envelope")), (txt "outstanding_pop_challenges", .list s.challenges)]

/-- The presenter's response, checked as the verifier receiving it. -/
def producePopResponse (s : AdapterState) (params : Members) : PyM (Report × AdapterState) := do
  let claims ← claimsOf P params
  onAitpError (do
    let presenter ← presenterFromPop P (popInput s params) claims s.clock
    .ok ((none, []), { s with popPresenter := some presenter })) fun code message =>
      (reportError code message, { s with popPresenter := none })

def verifyPopResponse (s : AdapterState) : Report :=
  match s.popPresenter with
  | none => reportError "POP_RESPONSE_INVALID" (txt "no valid pop_response for an outstanding challenge")
  | some presenter => (none, [(txt "presenter_aid", .str presenter)])

def sideEffect (name : Text) (value : Bool) : Report := (none, [(txt "side_effects", .dict [(name, .bool value)])])

/-- Accepting an invocation for processing is not authorizing it. -/
def authorizeCapabilityInvocation (s : AdapterState) (params : Members) : PyM (Report × AdapterState) := do
  let claims ← claimsOf P params
  let required ← popRequired params claims
  .ok (if required then (sideEffect (txt "pop_challenge_issued") true, { s with popChallengeIssued := true })
    else (sideEffect (txt "capability_authorized") true, s))

def expectPopChallengeIssued (s : AdapterState) : Report := sideEffect (txt "pop_challenge_issued") s.popChallengeIssued

/-- No response arrives within the challenge window. -/
def withholdPopResponse (s : AdapterState) : Report :=
  if s.popChallengeIssued then
    reportError "POP_RESPONSE_INVALID" (txt "challenge unanswered; capability not authorized")
  else sideEffect (txt "capability_authorized") true

/-- A step changes the state last: what raises leaves it as it was. -/
def SessionOp.run (s : AdapterState) (random : Bytes) (params : Members) : SessionOp → PyM (Report × AdapterState)
  | .issuePopChallenge => AitpVerifier.issuePopChallenge P s random params
  | .producePopResponse => AitpVerifier.producePopResponse P s params
  | .verifyPopResponse => .ok (AitpVerifier.verifyPopResponse s, s)
  | .authorizeCapabilityInvocation => AitpVerifier.authorizeCapabilityInvocation P s params
  | .expectPopChallengeIssued => .ok (AitpVerifier.expectPopChallengeIssued s, s)
  | .withholdPopResponse => .ok (AitpVerifier.withholdPopResponse s, s)

/-! ### Requests -/

variable (D : Deployment)

def supportedOps : List Text :=
  [txt "init", txt "shutdown", txt "set_clock", txt "set_features", txt "begin_fixture", txt "process_handshake_message"] ++
    (operations P).map Prod.fst ++ sessionOps.map Prod.fst

/-- What `init` declares. -/
def initResult : Members :=
  [(txt "implementation", .str (txt "aitp-verifier-py")), (txt "version", .str D.packageVersion),
    (txt "repository", .str (txt "https://github.com/agentidentitytrustprotocol/aitp-verifier-py")),
    (txt "supported_ops", .list ((supportedOps P).map .str)), (txt "supported_features", .list [])]

def malformedRequest (rid message : Text) : Response := .err rid "MALFORMED_REQUEST" message

def init (s : AdapterState) (rid : Text) (params : Members) : PyM Response × AdapterState :=
  if !(params.get (txt "version")).eq (.str (txt "1")) then
    (do .ok (malformedRequest rid (txt "unsupported adapter protocol version " ++ (← P.repr (params.get (txt "version"))))), s)
  else match s.katKeys D with
    | .ok keys => (.ok (.ok rid (initResult P D)), { s with keys := some keys })
    | .error e => (if e.isKind .katKeys then .ok (.err rid "ADAPTER_INTERNAL_ERROR" e.text) else .error e, s)

def setClock (s : AdapterState) (rid : Text) (params : Members) : Response × AdapterState :=
  match (params.get? (txt "now_unix_secs")).getD (params.get (txt "now")) with
  | .int now => (.ok rid [], { s with clock := now })
  | _ => (malformedRequest rid (txt "set_clock needs an integer now_unix_secs"), s)

def setFeatures (s : AdapterState) (rid : Text) (params : Members) : Response × AdapterState :=
  let malformed := (malformedRequest rid (txt "set_features needs a list of strings"), s)
  match (params.get? (txt "features")).getD (.list []) with
  | .list features =>
    if features.all JsonValue.isStr then (.ok rid [], { s with features := (features.map JsonValue.text).toFinset })
    else malformed
  | _ => malformed

/-- A step that names only a message id exercises the replay check. -/
def namedMessage (op : Text) (params : Members) : Option Text :=
  if (op = txt "verify_envelope" ∨ op = txt "process_handshake_message") ∧ !params.has (txt "envelope") then
    match params.get (txt "message_id") with
    | .str mid => some mid
    | _ => none
  else none

def replayCheck (s : AdapterState) (rid mid : Text) : Response × AdapterState :=
  if mid ∈ s.seenMessageIds then (.err rid "REPLAY_DETECTED" (txt "message_id " ++ mid ++ txt " already seen"), s)
  else (.ok rid [], { s with seenMessageIds := insert mid s.seenMessageIds })

/-- The feature an operation reads from its input. -/
def featureGatedOps : List (Text × Text) :=
  [(txt "verify_delegation_token", multihopFeature), (txt "verify_handshake_payload", Spiffe.spiffeFeature)]

/-- The input of an operation: the request's, under the adapter's clock and features. -/
def operationInput (s : AdapterState) (op : Text) (params : Members) : Members :=
  let inp : Members := (txt "now", (params.get? (txt "now")).getD (.int s.clock)) :: params.without (txt "now")
  match featureGatedOps.lookup op with
  | some feature => inp.insert (txt "_feature") (if feature ∈ s.features then .str feature else .null)
  | none => inp

/-- Run an operation of the registry. The keys stay loaded whatever it raises. -/
def verifyOperation (s : AdapterState) (rid op : Text) (verifier : Verifier) (params : Members) : PyM Response × AdapterState :=
  match missingArgument op params, invalidArgument P op params with
  | some missing, _ => (.ok (malformedRequest rid (op ++ txt ": missing required argument " ++ P.reprStr missing)), s)
  | none, some invalid => (.ok (malformedRequest rid (op ++ txt ": " ++ invalid)), s)
  | none, none =>
    match s.katKeys D with
    | .error e => (.error e, s)
    | .ok keys =>
      (match runOperation P op verifier (operationInput s op params) keys true with
        | .ok report => .ok (respond rid report)
        | .error e => if e.isKind .fixture then .ok (.err rid "MALFORMED_FIXTURE" e.text) else .error e,
        { s with keys := some keys })

/-- What a step of a sequence answers and leaves. -/
def runSession (s : AdapterState) (random : Bytes) (rid : Text) (sessionOp : SessionOp) (params : Members) :
    PyM Response × AdapterState :=
  match sessionOp.run P s random params with
  | .ok (report, s') => (.ok (respond rid report), s')
  | .error e => (.error e, s)

/-- An answer that raises nothing. -/
def answered (x : Response × AdapterState) : PyM Response × AdapterState := (.ok x.1, x.2)

def dispatch (s : AdapterState) (random : Bytes) (rid op : Text) (params : Members) : PyM Response × AdapterState :=
  if op = txt "init" then init P D s rid params
  else if op = txt "shutdown" then answered (.ok rid [], s)
  else if op = txt "set_clock" then answered (setClock s rid params)
  else if op = txt "set_features" then answered (setFeatures s rid params)
  else if op = txt "begin_fixture" then answered (.ok rid [], s.beginFixture)
  else match namedMessage op params with
  | some mid => answered (replayCheck s rid mid)
  | none => match sessionOps.lookup op with
    | some sessionOp => runSession P s random rid sessionOp params
    | none => match (operations P).lookup op with
      | some verifier => verifyOperation P D s rid op verifier params
      | none => answered (.err rid "OP_NOT_SUPPORTED" (txt "op " ++ op ++ txt " not implemented"), s)

/-- `type(exc).__name__`. -/
def PyErr.typeName : PyErr → Text
  | .aitp .. => txt "AitpError"
  | .raised kind _ => Spiffe.kindName kind

def requestId (request : Members) : Text :=
  match request.get (txt "id") with
  | .str rid => rid
  | _ => txt "unknown"

/-- What a request carries for its operation. -/
def requestParams (request : Members) : JsonValue := (request.get? (txt "params")).getD (.dict [])

/-- An exception inside an operation is an answer too: the adapter goes on. -/
def caught (rid op : Text) (handled : PyM Response × AdapterState) : Response × AdapterState :=
  match handled with
  | (.ok response, s) => (response, s)
  | (.error e, s) => (.err rid "ADAPTER_INTERNAL_ERROR" (op ++ txt " raised " ++ e.typeName ++ txt ": " ++ e.text), s)

/-- Answer one request. `random` is what `os.urandom` returns while it is handled. -/
def handle (s : AdapterState) (random : Bytes) (request : Members) : Response × AdapterState :=
  let rid := requestId request
  match request.get (txt "op"), requestParams request with
  | .str op, .dict params => caught rid op (dispatch P D s random rid op params)
  | _, _ => (malformedRequest rid (txt "request needs a string op and object params"), s)

/-! ### Histories -/

/-- A request, and the octets drawn while it is handled. -/
abbrev Arrival := Members × Bytes

/-- A request handled: the state it met, the answer, the state it left. -/
structure Exchange where
  before : AdapterState
  request : Members
  response : Response
  after : AdapterState

/-- The request names an operation, with parameters of any kind. -/
def Exchange.Requests (e : Exchange) (op : Text) : Prop := e.request.get (txt "op") = .str op

/-- A fixture begins. -/
def Exchange.Begins (e : Exchange) : Prop := e.Requests (txt "begin_fixture") ∧ e.response.isOk = true

def exchange (s : AdapterState) (arrival : Arrival) : Exchange :=
  let handled := handle P D s arrival.2 arrival.1
  ⟨s, arrival.1, handled.1, handled.2⟩

/-- What one adapter does with a sequence of requests. -/
def exchanges (s : AdapterState) : List Arrival → List Exchange
  | [] => []
  | arrival :: rest => exchange P D s arrival :: exchanges (exchange P D s arrival).after rest

/-- The state a sequence of requests leaves. -/
def afterAll (s : AdapterState) : List Arrival → AdapterState
  | [] => s
  | arrival :: rest => afterAll (exchange P D s arrival).after rest

def responses (s : AdapterState) (arrivals : List Arrival) : List Response := (exchanges P D s arrivals).map Exchange.response

theorem afterAll_append (s : AdapterState) (first rest : List Arrival) :
    afterAll P D s (first ++ rest) = afterAll P D (afterAll P D s first) rest := by
  induction first generalizing s with
  | nil => rfl
  | cons arrival first ih => exact ih _

theorem exchanges_append (s : AdapterState) (first rest : List Arrival) :
    exchanges P D s (first ++ rest) = exchanges P D s first ++ exchanges P D (afterAll P D s first) rest := by
  induction first generalizing s with
  | nil => rfl
  | cons arrival first ih => rw [List.cons_append, exchanges, exchanges, List.cons_append, ih, afterAll]

/-- An exchange of a run is one request handled where the earlier ones left the adapter. -/
theorem exchanges_split {s : AdapterState} {arrivals : List Arrival} {earlier later : List Exchange} {e : Exchange}
    (h : exchanges P D s arrivals = earlier ++ e :: later) : ∃ first arrival rest, arrivals = first ++ arrival :: rest ∧
      earlier = exchanges P D s first ∧ e = exchange P D (afterAll P D s first) arrival := by
  induction arrivals generalizing s earlier with
  | nil => cases earlier <;> cases h
  | cons arrival rest ih =>
    cases earlier with
    | nil => exact ⟨[], arrival, rest, rfl, rfl, (List.cons.inj h).1.symm⟩
    | cons other earlier =>
      obtain ⟨hother, hrest⟩ := List.cons.inj h
      obtain ⟨first, found, last, rfl, rfl, he⟩ := ih hrest
      refine ⟨arrival :: first, found, last, rfl, ?_, he⟩
      rw [exchanges, hother]

/-- An installation without keys. -/
def installed : Deployment := ⟨.ok [], txt "0.1.0"⟩

/-- A request for an operation, with no octets to draw. -/
def asks (op : Text) (params : Members) : Arrival :=
  ([(txt "id", .str (txt "1")), (txt "op", .str op), (txt "params", .dict params)], [])

/-! ### Which request does what -/

variable {D}

theorem caught_snd {rid op : Text} {handled : PyM Response × AdapterState} : (caught rid op handled).2 = handled.2 := by
  obtain ⟨answer, s⟩ := handled
  cases answer <;> rfl

theorem handle_dispatches {s : AdapterState} {random : Bytes} {request params : Members} {op : Text}
    (hop : request.get (txt "op") = .str op) (hparams : requestParams request = .dict params) :
    handle P D s random request = caught (requestId request) op (dispatch P D s random (requestId request) op params) := by
  rw [handle, hop, hparams]

/-- Without a string `op` and an object `params` nothing runs. -/
theorem handle_malformed {s : AdapterState} {random : Bytes} {request : Members}
    (h : ∀ op params, request.get (txt "op") = .str op → requestParams request ≠ .dict params) :
    handle P D s random request =
      (malformedRequest (requestId request) (txt "request needs a string op and object params"), s) := by
  rw [handle]
  split
  · rename_i op params hop hparams
    exact absurd hparams (h op params hop)
  · rfl

/-- A request is dispatched, or it is refused unread. -/
theorem handle_cases (s : AdapterState) (random : Bytes) (request : Members) :
    (∃ op params, request.get (txt "op") = .str op ∧ requestParams request = .dict params ∧
      handle P D s random request = caught (requestId request) op (dispatch P D s random (requestId request) op params)) ∨
    handle P D s random request =
      (malformedRequest (requestId request) (txt "request needs a string op and object params"), s) := by
  by_cases hread : ∃ op params, request.get (txt "op") = .str op ∧ requestParams request = .dict params
  · obtain ⟨op, params, hop, hparams⟩ := hread
    exact .inl ⟨op, params, hop, hparams, handle_dispatches P hop hparams⟩
  · exact .inr (handle_malformed P fun op params hop hparams => hread ⟨op, params, hop, hparams⟩)

theorem dispatch_begin {s : AdapterState} {random : Bytes} {rid : Text} {params : Members} :
    dispatch P D s random rid (txt "begin_fixture") params = (.ok (.ok rid []), s.beginFixture) := by
  rw [dispatch, if_neg (by decide), if_neg (by decide), if_neg (by decide), if_neg (by decide), if_pos rfl, answered]

/-- What the adapter answers before it looks for a step or an operation. -/
def reservedOps : List Text :=
  [txt "init", txt "shutdown", txt "set_clock", txt "set_features", txt "begin_fixture", txt "verify_envelope",
    txt "process_handshake_message"]

theorem mem_sessionOps {op : Text} {sessionOp : SessionOp} (h : sessionOps.lookup op = some sessionOp) :
    (op, sessionOp) ∈ sessionOps := by
  obtain ⟨first, rest, hsplit, _⟩ := List.lookup_eq_some_iff.mp h
  exact hsplit ▸ List.mem_append_right first List.mem_cons_self

theorem dispatch_session {s : AdapterState} {random : Bytes} {rid op : Text} {params : Members} {sessionOp : SessionOp}
    (h : sessionOps.lookup op = some sessionOp) :
    dispatch P D s random rid op params = runSession P s random rid sessionOp params := by
  have hall : ∀ entry ∈ sessionOps, entry.1 ∉ reservedOps := by decide
  have hfree : op ∉ reservedOps := hall _ (mem_sessionOps h)
  simp only [reservedOps, List.mem_cons, List.not_mem_nil, or_false, not_or] at hfree
  obtain ⟨hinit, hshutdown, hclock, hfeatures, hbegin, hverify, hhandshake⟩ := hfree
  have hunnamed : namedMessage op params = none := by
    rw [namedMessage, if_neg]
    rintro ⟨hop | hop, _⟩
    · exact hverify hop
    · exact hhandshake hop
  rw [dispatch, if_neg hinit, if_neg hshutdown, if_neg hclock, if_neg hfeatures, if_neg hbegin, hunnamed, h]

theorem dispatch_named {s : AdapterState} {random : Bytes} {rid op mid : Text} {params : Members}
    (h : namedMessage op params = some mid) : dispatch P D s random rid op params = answered (replayCheck s rid mid) := by
  have hop : op = txt "verify_envelope" ∨ op = txt "process_handshake_message" := by
    by_cases hnamed : (op = txt "verify_envelope" ∨ op = txt "process_handshake_message") ∧ !params.has (txt "envelope")
    · exact hnamed.1
    · rw [namedMessage, if_neg hnamed] at h
      cases h
  rcases hop with rfl | rfl <;>
    rw [dispatch, if_neg (by decide), if_neg (by decide), if_neg (by decide), if_neg (by decide), if_neg (by decide), h]

/-- A fixture that begins drops what the earlier ones carried. -/
theorem exchange_begins {s : AdapterState} {arrival : Arrival} (h : (exchange P D s arrival).Begins) :
    (exchange P D s arrival).after = s.beginFixture := by
  obtain ⟨hop, hok⟩ := h
  have hnames : arrival.1.get (txt "op") = .str (txt "begin_fixture") := hop
  rcases exists_or_forall_not fun params => requestParams arrival.1 = .dict params with ⟨params, hparams⟩ | hunread
  · rw [exchange, handle_dispatches P hnames hparams, caught_snd, dispatch_begin]
  · rw [exchange, handle_malformed P fun _ params _ => hunread params] at hok
    cases hok

variable (D)

/-! ### What a request leaves alone -/

/-- The keys the adapter uses, the message ids seen and the presenter established stand. -/
structure Kept (s s' : AdapterState) : Prop where
  keys : s'.katKeys D = s.katKeys D
  seen : s'.seenMessageIds = s.seenMessageIds
  presenter : s'.popPresenter = s.popPresenter

theorem kept_refl (s : AdapterState) : Kept D s s := ⟨rfl, rfl, rfl⟩

/-- Keys that were loaded are the keys that load. -/
theorem kept_loaded {s : AdapterState} {keys : KatKeys} (h : s.katKeys D = .ok keys) : Kept D s { s with keys := some keys } :=
  ⟨h.symm, rfl, rfl⟩

theorem init_kept (s : AdapterState) (rid : Text) (params : Members) : Kept D s (init P D s rid params).2 := by
  rw [init]
  split
  · exact kept_refl D s
  · cases hkeys : s.katKeys D with
    | ok keys => exact kept_loaded D hkeys
    | error e => exact kept_refl D s

theorem setClock_kept (s : AdapterState) (rid : Text) (params : Members) : Kept D s (setClock s rid params).2 := by
  rw [setClock]
  split <;> exact ⟨rfl, rfl, rfl⟩

theorem setFeatures_kept (s : AdapterState) (rid : Text) (params : Members) : Kept D s (setFeatures s rid params).2 := by
  rw [setFeatures]
  split
  · split <;> exact ⟨rfl, rfl, rfl⟩
  · exact kept_refl D s

theorem verifyOperation_kept (s : AdapterState) (rid op : Text) (verifier : Verifier) (params : Members) :
    Kept D s (verifyOperation P D s rid op verifier params).2 := by
  rw [verifyOperation]
  cases missingArgument op params with
  | some missing => exact kept_refl D s
  | none =>
    cases invalidArgument P op params with
    | some invalid => exact kept_refl D s
    | none =>
      cases hkeys : s.katKeys D with
      | ok keys => exact kept_loaded D hkeys
      | error e => exact kept_refl D s

theorem issuePopChallenge_kept {s s' : AdapterState} {random : Bytes} {params : Members} {report : Report}
    (h : issuePopChallenge P s random params = .ok (report, s')) : Kept D s s' := by
  simp only [issuePopChallenge, bind_eq_ok, Except.ok.injEq, Prod.mk.injEq] at h
  obtain ⟨_, _, _, _, _, _, _, rfl⟩ := h
  exact ⟨rfl, rfl, rfl⟩

theorem authorizeCapabilityInvocation_kept {s s' : AdapterState} {params : Members} {report : Report}
    (h : authorizeCapabilityInvocation P s params = .ok (report, s')) : Kept D s s' := by
  obtain ⟨_, _, h⟩ := bind_eq_ok.mp h
  obtain ⟨required, _, h⟩ := bind_eq_ok.mp h
  cases required <;> cases h <;> exact ⟨rfl, rfl, rfl⟩

/-- What a step leaves as it was, and when. -/
structure StepKeeps (named produces : Prop) (s s' : AdapterState) : Prop where
  keys : s'.katKeys D = s.katKeys D
  seen : ¬ named → s'.seenMessageIds = s.seenMessageIds
  presenter : ¬ produces → s'.popPresenter = s.popPresenter

theorem Kept.keeps {named produces : Prop} {s s' : AdapterState} (h : Kept D s s') : StepKeeps D named produces s s' :=
  ⟨h.keys, fun _ => h.seen, fun _ => h.presenter⟩

theorem replayCheck_keeps {named produces : Prop} (s : AdapterState) (rid mid : Text) (h : named) :
    StepKeeps D named produces s (replayCheck s rid mid).2 := by
  rw [replayCheck]
  split <;> exact ⟨rfl, fun hn => absurd h hn, fun _ => rfl⟩

theorem producePopResponse_keeps {named produces : Prop} {s s' : AdapterState} {params : Members} {report : Report}
    (hp : produces) (h : producePopResponse P s params = .ok (report, s')) : StepKeeps D named produces s s' := by
  obtain ⟨claims, _, h⟩ := bind_eq_ok.mp h
  cases hpresenter : presenterFromPop P (popInput s params) claims s.clock with
  | ok presenter =>
    rw [hpresenter] at h
    cases h
    exact ⟨rfl, fun _ => rfl, fun hn => absurd hp hn⟩
  | error e =>
    rw [hpresenter] at h
    cases e with
    | aitp code message =>
      cases h
      exact ⟨rfl, fun _ => rfl, fun hn => absurd hp hn⟩
    | raised kind text => cases h

theorem SessionOp.run_keeps {named : Prop} {s s' : AdapterState} {random : Bytes} {params : Members} {report : Report}
    {sessionOp : SessionOp} (h : sessionOp.run P s random params = .ok (report, s')) :
    StepKeeps D named (sessionOp = .producePopResponse) s s' := by
  cases sessionOp with
  | issuePopChallenge => exact (issuePopChallenge_kept P D h).keeps
  | producePopResponse => exact producePopResponse_keeps P D rfl h
  | authorizeCapabilityInvocation => exact (authorizeCapabilityInvocation_kept P D h).keeps
  | _ =>
    cases h
    exact (kept_refl D _).keeps

theorem sessionOps_produce {op : Text} {sessionOp : SessionOp} (h : sessionOps.lookup op = some sessionOp) :
    sessionOp = .producePopResponse → op = txt "produce_pop_response" := by
  have hall : ∀ entry ∈ sessionOps, entry.2 = .producePopResponse → entry.1 = txt "produce_pop_response" := by decide
  exact hall _ (mem_sessionOps h)

/-- Apart from a new fixture, only a step that names a message changes the message ids
seen, and only a response to a challenge the presenter. -/
theorem dispatch_keeps {s : AdapterState} {random : Bytes} {rid op : Text} {params : Members} (hbegin : op ≠ txt "begin_fixture") :
    StepKeeps D (∃ mid, namedMessage op params = some mid) (op = txt "produce_pop_response") s
      (dispatch P D s random rid op params).2 := by
  rw [dispatch]
  split
  · exact (init_kept P D s rid params).keeps
  split
  · exact (kept_refl D s).keeps
  split
  · exact (setClock_kept D s rid params).keeps
  split
  · exact (setFeatures_kept D s rid params).keeps
  cases namedMessage op params with
  | some mid => exact replayCheck_keeps D s rid mid ⟨mid, rfl⟩
  | none =>
    dsimp only
    cases hop : sessionOps.lookup op with
    | some sessionOp =>
      dsimp only
      rw [runSession]
      cases hrun : sessionOp.run P s random params with
      | ok reported =>
        have hkeeps := @SessionOp.run_keeps P D False s reported.2 random params reported.1 sessionOp hrun
        exact ⟨hkeeps.keys, fun _ => hkeeps.seen not_false, fun hn => hkeeps.presenter fun h => hn (sessionOps_produce hop h)⟩
      | error e => exact (kept_refl D s).keeps
    | none =>
      cases (operations P).lookup op with
      | some verifier => exact (verifyOperation_kept P D s rid op verifier params).keeps
      | none => exact (kept_refl D s).keeps

/-- A step that names only a message id. -/
def Exchange.Names (e : Exchange) (mid : Text) : Prop :=
  ∃ op params, e.request.get (txt "op") = .str op ∧ requestParams e.request = .dict params ∧ namedMessage op params = some mid

/-- The same of a whole step, which may also be refused unread. -/
theorem exchange_keeps {s : AdapterState} {arrival : Arrival} (hbegin : ¬ (exchange P D s arrival).Begins) :
    StepKeeps D (∃ mid, (exchange P D s arrival).Names mid) ((exchange P D s arrival).Requests (txt "produce_pop_response")) s
      (exchange P D s arrival).after := by
  have hafter : (exchange P D s arrival).after = (handle P D s arrival.2 arrival.1).2 := rfl
  rw [hafter]
  rcases handle_cases P s arrival.2 arrival.1 with ⟨op, params, hop, hparams, hhandle⟩ | hrefused
  · have hgoes : op ≠ txt "begin_fixture" := by
      rintro rfl
      refine hbegin ⟨hop, ?_⟩
      rw [exchange, hhandle, dispatch_begin]
      rfl
    have hkeeps := @dispatch_keeps P D s arrival.2 (requestId arrival.1) op params hgoes
    rw [hhandle, caught_snd]
    constructor
    · exact hkeeps.keys
    · exact fun hunnamed => hkeeps.seen fun hnamed => hunnamed (hnamed.imp fun mid hmid => ⟨op, params, hop, hparams, hmid⟩)
    · exact fun hother => hkeeps.presenter fun hproduce => hother (hproduce ▸ hop)
  · rw [hrefused]
    exact (kept_refl D s).keeps

/-- A step never changes the keys the adapter uses. -/
theorem exchange_katKeys (s : AdapterState) (arrival : Arrival) : (exchange P D s arrival).after.katKeys D = s.katKeys D := by
  by_cases hbegin : (exchange P D s arrival).Begins
  · rw [exchange_begins P hbegin]
    rfl
  · exact (exchange_keeps P D hbegin).keys

theorem afterAll_katKeys (s : AdapterState) (arrivals : List Arrival) : (afterAll P D s arrivals).katKeys D = s.katKeys D := by
  induction arrivals generalizing s with
  | nil => rfl
  | cons arrival rest ih => rw [afterAll, ih, exchange_katKeys]

end AitpVerifier
