import AitpVerifier.Harness

/-!
# The runner's sequences

What the conformance runner does with the steps of a sequence: it answers its own
challenges with the subject's key instead of reading signed envelopes, and it keeps its
own record of what was seen, challenged and answered.
-/
namespace AitpVerifier

open PyText Checked

variable (P : Platform)

/-- State carried across the steps of a sequence. -/
structure SeqState where
  seen : Finset Text
  nonce : Option Text
  popResponse : Option (Text × Text)
  popChallengeIssued : Bool
  capabilityAuthorized : Bool

def SeqState.fresh : SeqState := ⟨∅, none, none, false, false⟩

inductive Outcome where
  | success | failure
  deriving DecidableEq

/-- What a step comes to: the outcome, the code, and the side effects. -/
structure StepResult where
  outcome : Outcome
  code : Option String
  sideEffects : Members

/-- What a supported step returns and leaves. -/
abbrev Stepped := Option (StepResult × SeqState)

def stepSucceeds (sideEffects : Members) (state : SeqState) : Stepped := some (⟨.success, none, sideEffects⟩, state)

def stepFails (code : String) (sideEffects : Members) (state : SeqState) : Stepped :=
  some (⟨.failure, some code, sideEffects⟩, state)

/-- `s.encode()`. -/
def encodeText (s : Text) : PyM Bytes :=
  match utf8? s with
  | some octets => .ok octets
  | none => .error (.raised .unicode (txt "'utf-8' codec can't encode: surrogates not allowed"))

/-- `keys[value]`. -/
def KatKeys.item (keys : KatKeys) (value : JsonValue) : PyM PrivateKey := do
  raiseIf (!value.hashable) (JsonValue.unhashable value)
  match value with
  | .str key => keys.index P key
  | other => do .error (.raised .key (← P.repr other))

/-- `assert value is not None`. -/
def assertSome {α : Type} (value : Option α) : PyM α :=
  match value with
  | some found => .ok found
  | none => .error (.raised .assertion [])

/-- The message-id dedup engine. -/
def processHandshakeMessage (state : SeqState) (step : Members) : PyM Stepped := do
  let mid ← P.toStr (step.get (txt "message_id"))
  .ok (if mid ∈ state.seen then stepFails "REPLAY_DETECTED" [] state
    else stepSucceeds [] { state with seen := insert mid state.seen })

/-- The challenge of a token, from its `jti`. -/
def challengeOf (claims : JsonValue) : PyM Text := do
  let jti ← claims.attrGet (txt "jti") .null
  let octets ← encodeText (← P.toStr jti)
  .ok (b64urlEncode ((P.sha256 (asciiOctets (txt "aitp-pop:") ++ octets)).take 16))

/-- The holder signs the decoded nonce's digest with the subject's key. -/
def produceResponse (state : SeqState) (keys : KatKeys) (sub : JsonValue) : PyM Stepped := do
  let nonce ← assertSome state.nonce
  let key ← keys.item P sub
  let sig ← signDigest key (P.sha256 (← b64urlDecode nonce))
  .ok (stepSucceeds [] { state with popResponse := some (nonce, b64urlEncode sig) })

/-- The echo and the signature under the subject's key. -/
def verifyResponse (state : SeqState) (sub : JsonValue) : PyM Stepped := do
  let nonce ← assertSome state.nonce
  let response ← assertSome state.popResponse
  let subject ← parseAid P (← P.toStr sub)
  let verified ← if response.1 = nonce then do
      let digest := P.sha256 (← b64urlDecode nonce)
      .ok (verifyDigest P subject.publicKey digest (← b64urlDecode response.2))
    else .ok false
  .ok (if verified then stepSucceeds [] state else stepFails "POP_RESPONSE_INVALID" [] state)

/-- Execute one step, or return nothing for a step that is not supported. A step changes
the state last: what raises leaves it as it was. -/
def runStep (state : SeqState) (step inp : Members) (keys : KatKeys) : PyM Stepped := do
  let op := step.get (txt "operation")
  if op = .null ∨ op = .str (txt "process_handshake_message") then processHandshakeMessage P state step
  else
    let claims := (inp.get? (txt "tct_token_claims")).getD (.dict [])
    let sub ← claims.attrGet (txt "sub") .null
    if op = .str (txt "issue_pop_challenge") then do
      let nonce ← challengeOf P claims
      .ok (stepSucceeds [] { state with nonce := some nonce, popChallengeIssued := true })
    else if op = .str (txt "produce_pop_response") then produceResponse P state keys sub
    else if op = .str (txt "verify_pop_response") then verifyResponse P state sub
    else if op = .str (txt "authorize_capability_invocation") then do
      let required ← popRequired inp claims.members
      .ok (stepSucceeds [] (if required then { state with popChallengeIssued := true } else state))
    else if op = .str (txt "expect_pop_challenge_issued") then
      .ok (stepSucceeds [(txt "pop_challenge_issued", .bool state.popChallengeIssued)] state)
    else if op = .str (txt "withhold_pop_response") then
      .ok (stepFails "POP_RESPONSE_INVALID" [(txt "capability_authorized", .bool false)]
        { state with capabilityAuthorized := false })
    else .ok none

/-- What a step returned, and the state the next one meets. -/
def taken (state : SeqState) : PyM Stepped → PyM (Option StepResult) × SeqState
  | .ok (some (result, state')) => (.ok (some result), state')
  | .ok none => (.ok none, state)
  | .error e => (.error e, state)

/-- What the steps of a sequence return, one after the other, whatever becomes of one. -/
def runSteps (inp : Members) (keys : KatKeys) (state : SeqState) : List Members → List (PyM (Option StepResult))
  | [] => []
  | step :: rest =>
    let stepped := taken state (runStep P state step inp keys)
    stepped.1 :: runSteps inp keys stepped.2 rest

end AitpVerifier
