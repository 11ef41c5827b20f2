import AitpVerifier.Adapter
import AitpVerifier.Minted
import AitpVerifier.Runner
import AitpVerifier.ValueEquality

/-!
# The two front ends

The runner steps through a sequence with the claims of a token, the adapter with the token
minted from them. They report the same at every step but three: a response withheld with
no challenge out, a marked grant that cannot be told, and a `jti` that has no octets.
-/
namespace AitpVerifier

open PyText Checked

variable (P : Platform)

/-! ### One fixture, two front ends -/

/-- What every step of a sequence is about: the claims of a token, the token minted from
them, and the receiver's side. -/
structure FixtureContext where
  claims : Members
  token : JsonValue
  issuerPolicy : Option JsonValue
  selfAid : Option JsonValue
  /-- The claims are a `dict`. -/
  distinct : (JsonValue.dict claims).Distinct
  /-- The token reads back to equal claims. -/
  minted : ∃ read, unverifiedClaims P token = .ok read ∧ (JsonValue.dict claims).eq (.dict read) = true

variable {P}

/-- The receiver's side of a fixture. -/
def FixtureContext.receiver (ctx : FixtureContext P) : Members :=
  (ctx.issuerPolicy.toList.map fun policy => (txt "issuer_policy", policy)) ++
    ctx.selfAid.toList.map fun aid => (txt "self_aid", aid)

/-- The input the runner holds. -/
def FixtureContext.input (ctx : FixtureContext P) : Members := (txt "tct_token_claims", .dict ctx.claims) :: ctx.receiver

/-- The input the adapter is sent. -/
def FixtureContext.params (ctx : FixtureContext P) : Members := (txt "tct_token", ctx.token) :: ctx.receiver

inductive SequenceStep where
  | processHandshakeMessage (messageId : Text)
  | issuePopChallenge | authorizeCapabilityInvocation | expectPopChallengeIssued | withholdPopResponse
  deriving DecidableEq

def SequenceStep.operation : SequenceStep → Text
  | .processHandshakeMessage _ => txt "process_handshake_message"
  | .issuePopChallenge => txt "issue_pop_challenge"
  | .authorizeCapabilityInvocation => txt "authorize_capability_invocation"
  | .expectPopChallengeIssued => txt "expect_pop_challenge_issued"
  | .withholdPopResponse => txt "withhold_pop_response"

def SequenceStep.arguments : SequenceStep → Members
  | .processHandshakeMessage messageId => [(txt "message_id", .str messageId)]
  | _ => []

/-- A step as the runner reads it. -/
def SequenceStep.members (step : SequenceStep) : Members := (txt "operation", .str step.operation) :: step.arguments

/-- A step taken by both: the id of the adapter's request and the octets drawn for it. -/
structure Turn where
  step : SequenceStep
  id : Text
  random : Bytes

/-- A step as the adapter is sent it. -/
def FixtureContext.arrival (ctx : FixtureContext P) (turn : Turn) : Arrival :=
  ([(txt "id", .str turn.id), (txt "op", .str turn.step.operation), (txt "params", .dict (turn.step.arguments ++ ctx.params))],
    turn.random)

/-- The outcome and the code an adapter's answer stands for. -/
def Response.verdict : Response → Outcome × Option String
  | .ok .. => (.success, none)
  | .err _ code _ => (.failure, some code)

/-- The runner returned what the adapter's answer stands for. -/
def ReportsAlike (stepped : PyM (Option StepResult)) (response : Response) : Prop :=
  ∃ result, stepped = .ok (some result) ∧ (result.outcome, result.code) = response.verdict

variable (D : Deployment)

/-- From a fresh state on, both front ends report the same at every step. -/
def StepAlike (ctx : FixtureContext P) (keys : KatKeys) (s : AdapterState) (turns : List Turn) : Prop :=
  List.Forall₂ ReportsAlike (runSteps P ctx.input keys SeqState.fresh (turns.map fun turn => turn.step.members))
    (responses P D s.beginFixture (turns.map ctx.arrival))

/-! ### Whether a proof is required -/

theorem distinct_of_get? {obj : Members} {key : Text} {value : JsonValue} (hd : (JsonValue.dict obj).Distinct)
    (h : obj.get? key = some value) : value.Distinct := by
  cases hd with
  | dict _ hvalues => exact hvalues _ (Members.mem_of_get? h)

theorem names_nodup {obj : Members} (hd : (JsonValue.dict obj).Distinct) : obj.names.Nodup := by
  cases hd
  assumption

theorem distinct_get {obj : Members} (hd : (JsonValue.dict obj).Distinct) (key : Text) : (obj.get key).Distinct := by
  rw [Members.get]
  cases hv : obj.get? key with
  | none => exact .null
  | some value => exact distinct_of_get? hd hv

/-- The grants of equal claims are the same set, or neither is one. -/
theorem grants_of_eq {claims read : Members} (hd : (JsonValue.dict claims).Distinct)
    (heq : (JsonValue.dict claims).eq (.dict read) = true) (key : Text) :
    (∃ xs ys, ((claims.get? key).getD (.list [])).set = .ok xs ∧ ((read.get? key).getD (.list [])).set = .ok ys ∧
        ∀ value, JsonValue.isIn value xs = JsonValue.isIn value ys) ∨
      (∀ xs, ((claims.get? key).getD (.list [])).set ≠ .ok xs) ∧ ∀ ys, ((read.get? key).getD (.list [])).set ≠ .ok ys := by
  rcases JsonValue.get?_of_eq (names_nodup hd) heq key with ⟨hv, hw⟩ | ⟨v, w, hv, hw, hvalues⟩
  · rw [hv, hw]
    exact .inl ⟨[], [], rfl, rfl, fun _ => rfl⟩
  · rw [hv, hw]
    exact JsonValue.set_of_eq (distinct_of_get? hd hv) hvalues

/-- The runner and the adapter ask the same question of equal claims. -/
theorem popRequired_congr {inp inp' claims read : Members} (hpolicy : inp.get? (txt "issuer_policy") = inp'.get? (txt "issuer_policy"))
    (hself : inp.get? (txt "self_aid") = inp'.get? (txt "self_aid")) (hd : (JsonValue.dict claims).Distinct)
    (heq : (JsonValue.dict claims).eq (.dict read) = true) (required : Bool) :
    popRequired inp claims = .ok required ↔ popRequired inp' read = .ok required := by
  have hiss : (inp'.get (txt "self_aid")).eq (claims.get (txt "iss")) = (inp'.get (txt "self_aid")).eq (read.get (txt "iss")) :=
    JsonValue.eq_congr_right (distinct_get hd _) (JsonValue.get_of_eq (names_nodup hd) heq _)
  have hself' : inp.get (txt "self_aid") = inp'.get (txt "self_aid") := by rw [Members.get, Members.get, hself]
  simp only [popRequired, hpolicy, hself', hiss]
  cases ((inp'.get? (txt "issuer_policy")).getD (.dict [])).attrGet (txt "pop_posture") .null with
  | error e => exact Iff.rfl
  | ok posture =>
    rw [ok_bind, ok_bind]
    split
    · exact Iff.rfl
    · cases ((inp'.get? (txt "issuer_policy")).getD (.dict [])).attrGet (txt "pop_required_grants") (.list []) with
      | error e => exact Iff.rfl
      | ok grants =>
        rw [ok_bind, ok_bind]
        cases grants.set with
        | error e => exact Iff.rfl
        | ok marked =>
          rw [ok_bind, ok_bind]
          rcases grants_of_eq hd heq (txt "grants") with ⟨xs, ys, hxs, hys, hsame⟩ | ⟨hxs, hys⟩
          · rw [hxs, hys, ok_bind, ok_bind]
            simp only [hsame]
          · refine iff_of_false ?_ ?_
            · intro h
              obtain ⟨found, hfound, _⟩ := bind_eq_ok.mp h
              exact hxs found hfound
            · intro h
              obtain ⟨found, hfound, _⟩ := bind_eq_ok.mp h
              exact hys found hfound

/-! ### One step of the runner -/

variable {ctx : FixtureContext P} {keys : KatKeys} {state : SeqState}

theorem runStep_handshake {mid : Text} : runStep P state (SequenceStep.processHandshakeMessage mid).members ctx.input keys =
    .ok (if mid ∈ state.seen then stepFails "REPLAY_DETECTED" [] state
      else stepSucceeds [] { state with seen := insert mid state.seen }) := by
  rw [runStep]
  rfl

theorem runStep_issue : runStep P state SequenceStep.issuePopChallenge.members ctx.input keys =
    (challengeOf P (.dict ctx.claims) >>= fun nonce =>
      .ok (stepSucceeds [] { state with nonce := some nonce, popChallengeIssued := true })) := by
  rw [runStep]
  rfl

theorem runStep_authorize : runStep P state SequenceStep.authorizeCapabilityInvocation.members ctx.input keys =
    (popRequired ctx.input ctx.claims >>= fun required =>
      .ok (stepSucceeds [] (if required then { state with popChallengeIssued := true } else state))) := by
  rw [runStep]
  rfl

theorem runStep_expect : runStep P state SequenceStep.expectPopChallengeIssued.members ctx.input keys =
    .ok (stepSucceeds [(txt "pop_challenge_issued", .bool state.popChallengeIssued)] state) := by
  rw [runStep]
  rfl

theorem runStep_withhold : runStep P state SequenceStep.withholdPopResponse.members ctx.input keys =
    .ok (stepFails "POP_RESPONSE_INVALID" [(txt "capability_authorized", .bool false)]
      { state with capabilityAuthorized := false }) := by
  rw [runStep]
  rfl

/-! ### One step of the adapter -/

variable {D} {s : AdapterState} {random : Bytes} {rid : Text}

theorem popRequired_params {read : Members} (heq : (JsonValue.dict ctx.claims).eq (.dict read) = true) (required : Bool) :
    popRequired ctx.input ctx.claims = .ok required ↔ popRequired ctx.params read = .ok required :=
  popRequired_congr rfl rfl ctx.distinct heq required

theorem claimsOf_params (ctx : FixtureContext P) : ∃ read, claimsOf P ctx.params = .ok read ∧ (JsonValue.dict ctx.claims).eq (.dict read) = true := ctx.minted

theorem dispatch_handshake {mid : Text} :
    dispatch P D s random rid (txt "process_handshake_message") ((txt "message_id", .str mid) :: ctx.params) =
      answered (replayCheck s rid mid) := by
  refine dispatch_named P ?_
  obtain ⟨claims, token, policy, self, hd, hm⟩ := ctx
  cases policy <;> cases self <;> rfl

theorem params_envelope : ctx.params.get? (txt "envelope") = none := by
  obtain ⟨claims, token, policy, self, hd, hm⟩ := ctx
  cases policy <;> cases self <;> rfl

theorem dispatch_issue (D : Deployment) (ctx : FixtureContext P) (s : AdapterState) (random : Bytes) (rid : Text) :
    ∃ challenges, dispatch P D s random rid (txt "issue_pop_challenge") ctx.params =
    (.ok (.ok rid [(txt "pop_nonce", .str (b64urlEncode random))]),
      { s with challenges := challenges, popChallengeIssued := true }) := by
  have hstep : sessionOps.lookup (txt "issue_pop_challenge") = some .issuePopChallenge := rfl
  obtain ⟨read, hread, _⟩ := claimsOf_params ctx
  rw [dispatch_session P hstep, runSession, SessionOp.run, issuePopChallenge, params_envelope, hread]
  exact ⟨_, rfl⟩

theorem dispatch_authorize {required : Bool} (h : popRequired ctx.input ctx.claims = .ok required) :
    dispatch P D s random rid (txt "authorize_capability_invocation") ctx.params =
      (.ok (.ok rid [(txt "side_effects", .dict [(if required then txt "pop_challenge_issued" else txt "capability_authorized", .bool true)])]),
        if required then { s with popChallengeIssued := true } else s) := by
  have hstep : sessionOps.lookup (txt "authorize_capability_invocation") = some .authorizeCapabilityInvocation := rfl
  obtain ⟨read, hread, heq⟩ := claimsOf_params ctx
  rw [popRequired_params heq] at h
  rw [dispatch_session P hstep, runSession, SessionOp.run, authorizeCapabilityInvocation, hread, ok_bind, h, ok_bind]
  cases required <;> rfl

/-- A posture or a set of grants that cannot be read is an answer of the adapter's. -/
theorem dispatch_authorize_error (D : Deployment) (s : AdapterState) (random : Bytes) (rid : Text)
    (h : ∀ required, popRequired ctx.input ctx.claims ≠ .ok required) :
    ∃ e, dispatch P D s random rid (txt "authorize_capability_invocation") ctx.params = (.error e, s) := by
  have hstep : sessionOps.lookup (txt "authorize_capability_invocation") = some .authorizeCapabilityInvocation := rfl
  obtain ⟨read, hread, heq⟩ := claimsOf_params ctx
  rw [dispatch_session P hstep, runSession, SessionOp.run, authorizeCapabilityInvocation, hread, ok_bind]
  cases hrequired : popRequired ctx.params read with
  | ok required => exact absurd ((popRequired_params heq required).mpr hrequired) (h required)
  | error e => exact ⟨e, rfl⟩

theorem dispatch_expect : dispatch P D s random rid (txt "expect_pop_challenge_issued") ctx.params =
    (.ok (.ok rid [(txt "side_effects", .dict [(txt "pop_challenge_issued", .bool s.popChallengeIssued)])]), s) := by
  have hstep : sessionOps.lookup (txt "expect_pop_challenge_issued") = some .expectPopChallengeIssued := rfl
  rw [dispatch_session P hstep, runSession, SessionOp.run]
  rfl

/-- The adapter authorizes where no challenge is out. -/
theorem dispatch_withhold : dispatch P D s random rid (txt "withhold_pop_response") ctx.params =
    (.ok (if s.popChallengeIssued then .err rid "POP_RESPONSE_INVALID" (txt "challenge unanswered; capability not authorized")
      else .ok rid [(txt "side_effects", .dict [(txt "capability_authorized", .bool true)])]), s) := by
  have hstep : sessionOps.lookup (txt "withhold_pop_response") = some .withholdPopResponse := rfl
  rw [dispatch_session P hstep, runSession, SessionOp.run, withholdPopResponse]
  cases s.popChallengeIssued <;> rfl

/-! ### Step by step -/

/-- A challenge is out: one was issued, or an invocation needed one. -/
def Challenged (ctx : FixtureContext P) (earlier : List SequenceStep) : Prop :=
  .issuePopChallenge ∈ earlier ∨ .authorizeCapabilityInvocation ∈ earlier ∧ popRequired ctx.input ctx.claims = .ok true

/-- A step the two front ends report alike after the `earlier` ones. -/
inductive InStep (ctx : FixtureContext P) (earlier : List SequenceStep) : SequenceStep → Prop
  | processHandshakeMessage (messageId : Text) : InStep ctx earlier (.processHandshakeMessage messageId)
  /-- The `jti` has octets to derive a nonce from. -/
  | issuePopChallenge {text : Text} {octets : Bytes} : P.toStr (ctx.claims.get (txt "jti")) = .ok text →
      utf8? text = some octets → InStep ctx earlier .issuePopChallenge
  /-- It can be told whether a proof is required. -/
  | authorizeCapabilityInvocation {required : Bool} : popRequired ctx.input ctx.claims = .ok required →
      InStep ctx earlier .authorizeCapabilityInvocation
  | expectPopChallengeIssued : InStep ctx earlier .expectPopChallengeIssued
  /-- There is a challenge to leave unanswered. -/
  | withholdPopResponse : Challenged ctx earlier → InStep ctx earlier .withholdPopResponse

/-- What the two states have in common after the same steps. -/
structure Matched (ctx : FixtureContext P) (earlier : List SequenceStep) (state : SeqState) (s : AdapterState) : Prop where
  seen : state.seen = s.seenMessageIds
  challenged : s.popChallengeIssued = true ↔ Challenged ctx earlier

theorem matched_fresh (s : AdapterState) : Matched ctx [] SeqState.fresh s.beginFixture := by
  refine ⟨rfl, iff_of_false Bool.false_ne_true ?_⟩
  rintro (h | ⟨h, _⟩) <;> cases h

theorem challenged_append {earlier : List SequenceStep} {step : SequenceStep} : Challenged ctx (earlier ++ [step]) ↔
    Challenged ctx earlier ∨ step = .issuePopChallenge ∨
      step = .authorizeCapabilityInvocation ∧ popRequired ctx.input ctx.claims = .ok true := by
  simp only [Challenged, List.mem_append, List.mem_singleton, or_and_right, @eq_comm _ _ step]
  tauto

theorem exchange_turn {turn : Turn} : exchange P D s (ctx.arrival turn) =
    ⟨s, (ctx.arrival turn).1,
      (caught turn.id turn.step.operation (dispatch P D s turn.random turn.id turn.step.operation (turn.step.arguments ++ ctx.params))).1,
      (dispatch P D s turn.random turn.id turn.step.operation (turn.step.arguments ++ ctx.params)).2⟩ := by
  have hop : (ctx.arrival turn).1.get (txt "op") = .str turn.step.operation := rfl
  have hparams : requestParams (ctx.arrival turn).1 = .dict (turn.step.arguments ++ ctx.params) := rfl
  have hid : requestId (ctx.arrival turn).1 = turn.id := rfl
  have hrandom : (ctx.arrival turn).2 = turn.random := rfl
  rw [exchange, handle_dispatches P hop hparams, hid, hrandom, caught_snd]

/-- The reports of one step are alike, or not, and the states match after it. -/
def TurnAlike (D : Deployment) (ctx : FixtureContext P) (keys : KatKeys) (earlier : List SequenceStep) (state : SeqState)
    (s : AdapterState) (turn : Turn) : Prop :=
  (ReportsAlike (taken state (runStep P state turn.step.members ctx.input keys)).1 (exchange P D s (ctx.arrival turn)).response ↔
      InStep ctx earlier turn.step) ∧
    Matched ctx (earlier ++ [turn.step]) (taken state (runStep P state turn.step.members ctx.input keys)).2
      (exchange P D s (ctx.arrival turn)).after

variable {earlier : List SequenceStep}

theorem turn_handshake (h : Matched ctx earlier state s) (mid : Text) :
    TurnAlike D ctx keys earlier state s ⟨.processHandshakeMessage mid, rid, random⟩ := by
  have hchallenged : Challenged ctx (earlier ++ [.processHandshakeMessage mid]) ↔ Challenged ctx earlier := by
    rw [challenged_append]
    simp
  rw [TurnAlike, exchange_turn]
  simp only [SequenceStep.operation, SequenceStep.arguments, List.cons_append, List.nil_append, runStep_handshake, dispatch_handshake]
  rw [h.seen, replayCheck]
  split
  · exact ⟨iff_of_true ⟨_, rfl, rfl⟩ (.processHandshakeMessage mid), h.seen, h.challenged.trans hchallenged.symm⟩
  · exact ⟨iff_of_true ⟨_, rfl, rfl⟩ (.processHandshakeMessage mid), rfl, h.challenged.trans hchallenged.symm⟩

/-- The runner derives its challenge exactly where the `jti` has octets. -/
theorem challengeOf_isOk {claims : Members} : (∃ nonce, challengeOf P (.dict claims) = .ok nonce) ↔
    ∃ text octets, P.toStr (claims.get (txt "jti")) = .ok text ∧ utf8? text = some octets := by
  have hjti : (JsonValue.dict claims).attrGet (txt "jti") .null = .ok (claims.get (txt "jti")) := rfl
  rw [challengeOf, hjti, ok_bind]
  cases P.toStr (claims.get (txt "jti")) with
  | error e => simp [error_bind]
  | ok text =>
    rw [ok_bind, encodeText]
    cases hoctets : utf8? text with
    | none => simp [error_bind, hoctets]
    | some octets => simp [ok_bind, hoctets]

theorem turn_issue (h : Matched ctx earlier state s) : TurnAlike D ctx keys earlier state s ⟨.issuePopChallenge, rid, random⟩ := by
  have hchallenged : Challenged ctx (earlier ++ [.issuePopChallenge]) := challenged_append.mpr (.inr (.inl rfl))
  have hsound : InStep ctx earlier .issuePopChallenge ↔ ∃ nonce, challengeOf P (.dict ctx.claims) = .ok nonce := by
    rw [challengeOf_isOk]
    constructor
    · intro hin
      cases hin with
      | issuePopChallenge htext hoctets => exact ⟨_, _, htext, hoctets⟩
    · rintro ⟨text, octets, htext, hoctets⟩
      exact .issuePopChallenge htext hoctets
  obtain ⟨challenges, hdispatch⟩ := dispatch_issue D ctx s random rid
  rw [TurnAlike, exchange_turn, hsound]
  simp only [SequenceStep.operation, SequenceStep.arguments, List.nil_append, runStep_issue, hdispatch]
  cases challengeOf P (.dict ctx.claims) with
  | ok nonce => exact ⟨iff_of_true ⟨_, rfl, rfl⟩ ⟨nonce, rfl⟩, h.seen, iff_of_true rfl hchallenged⟩
  | error e =>
    refine ⟨iff_of_false ?_ ?_, h.seen, iff_of_true rfl hchallenged⟩
    · rintro ⟨result, hresult, _⟩
      cases hresult
    · rintro ⟨nonce, hnonce⟩
      cases hnonce

theorem turn_authorize (h : Matched ctx earlier state s) :
    TurnAlike D ctx keys earlier state s ⟨.authorizeCapabilityInvocation, rid, random⟩ := by
  have hchallenged : Challenged ctx (earlier ++ [.authorizeCapabilityInvocation]) ↔
      Challenged ctx earlier ∨ popRequired ctx.input ctx.claims = .ok true := by
    rw [challenged_append]
    simp
  rw [TurnAlike, exchange_turn]
  simp only [SequenceStep.operation, SequenceStep.arguments, List.nil_append, runStep_authorize]
  cases hrequired : popRequired ctx.input ctx.claims with
  | ok required =>
    rw [dispatch_authorize hrequired]
    rw [hrequired] at hchallenged
    refine ⟨iff_of_true ⟨_, rfl, rfl⟩ (.authorizeCapabilityInvocation hrequired), ?_, ?_⟩
    · cases required <;> exact h.seen
    · rw [hchallenged]
      cases required with
      | false =>
        rw [or_iff_left (by simp)]
        exact h.challenged
      | true => exact iff_of_true rfl (.inr rfl)
  | error e =>
    have hnone : ∀ required, popRequired ctx.input ctx.claims ≠ .ok required := by
      rw [hrequired]
      exact fun _ => error_ne_ok
    obtain ⟨raised, hdispatch⟩ := dispatch_authorize_error D s random rid hnone
    rw [hdispatch]
    rw [hrequired, or_iff_left error_ne_ok] at hchallenged
    refine ⟨iff_of_false ?_ ?_, h.seen, h.challenged.trans hchallenged.symm⟩
    · rintro ⟨result, hresult, _⟩
      cases hresult
    · intro hin
      cases hin with
      | authorizeCapabilityInvocation hfound => exact hnone _ hfound

theorem turn_expect (h : Matched ctx earlier state s) :
    TurnAlike D ctx keys earlier state s ⟨.expectPopChallengeIssued, rid, random⟩ := by
  have hchallenged : Challenged ctx (earlier ++ [.expectPopChallengeIssued]) ↔ Challenged ctx earlier := by
    rw [challenged_append]
    simp
  rw [TurnAlike, exchange_turn]
  simp only [SequenceStep.operation, SequenceStep.arguments, List.nil_append, runStep_expect, dispatch_expect]
  exact ⟨iff_of_true ⟨_, rfl, rfl⟩ .expectPopChallengeIssued, h.seen, h.challenged.trans hchallenged.symm⟩

/-- The runner refuses whatever was challenged, the adapter only an unanswered challenge. -/
theorem turn_withhold (h : Matched ctx earlier state s) :
    TurnAlike D ctx keys earlier state s ⟨.withholdPopResponse, rid, random⟩ := by
  have hchallenged : Challenged ctx (earlier ++ [.withholdPopResponse]) ↔ Challenged ctx earlier := by
    rw [challenged_append]
    simp
  have hsound : InStep ctx earlier .withholdPopResponse ↔ s.popChallengeIssued = true := by
    rw [h.challenged]
    constructor
    · intro hin
      cases hin with
      | withholdPopResponse hout => exact hout
    · exact .withholdPopResponse
  rw [TurnAlike, exchange_turn, hsound]
  simp only [SequenceStep.operation, SequenceStep.arguments, List.nil_append, runStep_withhold, dispatch_withhold]
  refine ⟨?_, h.seen, h.challenged.trans hchallenged.symm⟩
  cases s.popChallengeIssued with
  | true => exact iff_of_true ⟨_, rfl, rfl⟩ rfl
  | false =>
    refine iff_of_false ?_ Bool.false_ne_true
    rintro ⟨result, hresult, hverdict⟩
    cases hresult
    cases hverdict

theorem turn_alike (h : Matched ctx earlier state s) (turn : Turn) : TurnAlike D ctx keys earlier state s turn := by
  obtain ⟨step, rid, random⟩ := turn
  cases step with
  | processHandshakeMessage mid => exact turn_handshake h mid
  | issuePopChallenge => exact turn_issue h
  | authorizeCapabilityInvocation => exact turn_authorize h
  | expectPopChallengeIssued => exact turn_expect h
  | withholdPopResponse => exact turn_withhold h

theorem turns_alike (h : Matched ctx earlier state s) (turns : List Turn) :
    List.Forall₂ ReportsAlike (runSteps P ctx.input keys state (turns.map fun turn => turn.step.members))
        (responses P D s (turns.map ctx.arrival)) ↔
      ∀ before turn after, turns = before ++ turn :: after → InStep ctx (earlier ++ before.map Turn.step) turn.step := by
  induction turns generalizing earlier state s with
  | nil =>
    refine iff_of_true .nil ?_
    intro before turn after hsplit
    cases before <;> cases hsplit
  | cons turn rest ih =>
    have hturn : TurnAlike D ctx keys earlier state s turn := turn_alike h turn
    obtain ⟨hreports, hmatched⟩ := hturn
    rw [List.map_cons, List.map_cons, runSteps, responses, exchanges, List.map_cons, List.forall₂_cons, hreports]
    have hrest := ih hmatched
    rw [responses] at hrest
    rw [hrest]
    constructor
    · rintro ⟨hfirst, hlater⟩ before found after hsplit
      cases before with
      | nil =>
        obtain ⟨rfl, rfl⟩ := List.cons.inj hsplit
        rw [List.map_nil, List.append_nil]
        exact hfirst
      | cons first before =>
        obtain ⟨rfl, htail⟩ := List.cons.inj hsplit
        have hin := hlater before found after htail
        rwa [List.append_assoc, List.singleton_append] at hin
    · intro hall
      refine ⟨?_, ?_⟩
      · have hin := hall [] turn rest rfl
        rwa [List.map_nil, List.append_nil] at hin
      · intro before found after hsplit
        have hin := hall (turn :: before) found after (by rw [hsplit, List.cons_append])
        rwa [List.map_cons, ← List.singleton_append, ← List.append_assoc] at hin

/-- The two front ends step a sequence alike exactly when no response is withheld before a
challenge is out, and neither the `jti` nor the policy is unreadable where it is asked. -/
theorem stepAlike_iff (ctx : FixtureContext P) (keys : KatKeys) (s : AdapterState) (turns : List Turn) :
    StepAlike D ctx keys s turns ↔
      ∀ before turn after, turns = before ++ turn :: after → InStep ctx (before.map Turn.step) turn.step :=
  turns_alike (matched_fresh s) turns

/-! ### A minted token -/

theorem encodeJws_reads {key : PrivateKey} {claims : Members} (hsigns : key.Signs) (hdepth : Jcs.maxDepth < P.parseDepth)
    (hclaims : Jcs.Canonicalizable (.dict claims)) {typ alg token : Text} (htoken : encodeJws typ claims key alg = .ok token) :
    ∃ read, unverifiedClaims P (.str token) = .ok read ∧ (JsonValue.dict claims).eq (.dict read) = true := by
  obtain ⟨signed, signature, members, hencode, _, _, _, hsame, hparse⟩ := encodeJws_parses hsigns hdepth hclaims typ alg
  obtain rfl := Except.ok.inj (htoken.symm.trans hencode)
  exact ⟨members, unverifiedClaims_eq_ok P (hparse _), JsonValue.eq_of_same hclaims.exact hsame⟩

/-- The context of claims and the token a key signs over them. -/
def FixtureContext.signed {key : PrivateKey} {claims : Members} (hsigns : key.Signs) (hdepth : Jcs.maxDepth < P.parseDepth)
    (hclaims : Jcs.Canonicalizable (.dict claims)) {typ alg token : Text} (htoken : encodeJws typ claims key alg = .ok token)
    (issuerPolicy selfAid : Option JsonValue) : FixtureContext P where
  claims := claims
  token := .str token
  issuerPolicy := issuerPolicy
  selfAid := selfAid
  distinct := hclaims.exact.distinct
  minted := encodeJws_reads hsigns hdepth hclaims htoken

/-! ### An invocation that needs no proof -/

/-- Agent A's grant, presented to agent B. -/
def grantContext : FixtureContext signingPlatform :=
  FixtureContext.signed agentA_keyPair.signs (by decide) grantClaims_canonicalizable
    (show encodeJws tctTyp grantClaims agentAKey agentAid.joseAlg = .ok grantToken.text by decide +kernel) none
    (some (.str (aidOf agentB)))

/-- The invocation is accepted, and then no response arrives. -/
def unansweredInvocation : List Turn := [⟨.authorizeCapabilityInvocation, txt "1", []⟩, ⟨.withholdPopResponse, txt "2", []⟩]

/-- What the runner returned, when it returned. -/
def returned (stepped : PyM (Option StepResult)) : Option (Outcome × Option String) :=
  stepped.toOption.join.map fun result => (result.outcome, result.code)

/-- No grant is marked, so no challenge goes out: the adapter authorizes, the runner refuses. -/
theorem unansweredInvocation_diverges :
    (runSteps signingPlatform grantContext.input [] SeqState.fresh (unansweredInvocation.map fun turn => turn.step.members)).map
        returned = [some (.success, none), some (.failure, some "POP_RESPONSE_INVALID")] ∧
      (responses signingPlatform installed (AdapterState.start (some [])).beginFixture
        (unansweredInvocation.map grantContext.arrival)).map Response.verdict = [(.success, none), (.success, none)] ∧
      ¬ StepAlike installed grantContext [] (AdapterState.start (some [])) unansweredInvocation := by
  have hrequired : popRequired grantContext.input grantContext.claims = .ok false := by decide +kernel
  refine ⟨by decide +kernel, by decide +kernel, ?_⟩
  intro h
  have hin := (turns_alike (matched_fresh _) unansweredInvocation).mp h [⟨.authorizeCapabilityInvocation, txt "1", []⟩]
    ⟨.withholdPopResponse, txt "2", []⟩ [] rfl
  cases hin with
  | withholdPopResponse hout =>
    rcases hout with hissued | ⟨_, htrue⟩
    · exact absurd hissued (by decide)
    · rw [hrequired] at htrue
      cases htrue

end AitpVerifier
