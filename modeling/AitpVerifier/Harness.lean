import Mathlib.Data.List.MinMax
import Mathlib.Data.Prod.Lex
import AitpVerifier.Handshake
import AitpVerifier.SessionBundle

/-!
# The fixture conventions and the operation registry

A minted fixture input is mapped onto the verifier's inputs, and the operation it names is
run on them. None of it is protocol behaviour.
-/
namespace AitpVerifier

open PyText Checked

variable (P : Platform)

/-! ### The registry -/

abbrev Verifier := Members → Int → PyM Members

def operations : List (Text × Verifier) :=
  [(txt "verify_envelope", verifyEnvelope P), (txt "verify_manifest", verifyManifest P), (txt "verify_tct", verifyTct P),
    (txt "verify_tct_as_issuer", verifyTctAsIssuer P), (txt "verify_attestation", verifyAttestation P),
    (txt "verify_grant_voucher", verifyGrantVoucher P), (txt "verify_delegation_token", verifyDelegationToken P),
    (txt "verify_revocation_snapshot", fun inp now => verifyRevocationSnapshot P inp (some now)),
    (txt "verify_handshake_payload", verifyHandshakePayload P),
    (txt "verify_session_bundle", fun inp now => verifySessionBundle P inp (some now))]

/-- The alternative argument sets of an operation: each argument's name and its JSON type,
none where the operation has a verdict of its own for it. -/
def requiredArguments : List (Text × List (List (Text × Option Text))) :=
  let object := some (txt "object")
  let string := some (txt "string")
  [(txt "verify_envelope", [[(txt "envelope", object)], [(txt "active_tct", string), (txt "requested_capability", string)],
      [(txt "manifest_fetch", object)], [(txt "needed_key_for", string)]]),
    (txt "verify_manifest", [[(txt "manifest", object)]]),
    (txt "verify_tct", [[(txt "tct_token", string)]]),
    (txt "verify_tct_as_issuer", [[(txt "tct_token", string), (txt "self_aid", string)]]),
    (txt "verify_attestation", [[(txt "tct_token", string), (txt "expected_ext_key", string)]]),
    (txt "verify_grant_voucher", [[(txt "voucher_token", string)]]),
    (txt "verify_delegation_token", [[(txt "delegation_token", none)], [(txt "delegation", object)]]),
    (txt "verify_revocation_snapshot", [[(txt "snapshot", object)]]),
    (txt "verify_handshake_payload", [[(txt "envelope", object)], [(txt "peer_a", object), (txt "peer_b", object)]]),
    (txt "verify_session_bundle", [[(txt "self_aid", string), (txt "session_bundle", object)]])]

def argumentSets (operation : Text) : List (List (Text × Option Text)) := (requiredArguments.lookup operation).getD []

/-- The first argument the request lacks, none when one set is complete. Of several
incomplete sets the one it has begun counts: most present, then fewest missing, then first. -/
def missingArgument (operation : Text) (params : Members) : Option Text :=
  let missing := fun names : List (Text × Option Text) => (names.map Prod.fst).filter fun a => !params.has a
  let sets := argumentSets operation
  if sets.any fun names => (missing names).isEmpty then none
  else
    (sets.argmax fun names => toLex (names.length - (missing names).length, OrderDual.toDual (missing names).length)).bind
      fun best => (missing best).head?

def jsonType : JsonValue → Text
  | .dict _ => txt "object"
  | .list _ => txt "array"
  | .str _ => txt "string"
  | .bool _ => txt "boolean"
  | .int _ | .float _ => txt "number"
  | .null => txt "null"

/-- The first required argument present with another type, of any set. -/
def invalidArgument (operation : Text) (params : Members) : Option Text :=
  (argumentSets operation).flatten.findSome? fun argument =>
    match params.get? argument.1, argument.2 with
    | some value, some expected =>
      if jsonType value = expected then none
      else some (txt "argument " ++ P.reprStr argument.1 ++ txt " must be " ++
        (if expected = txt "object" ∨ expected = txt "array" then txt "an" else txt "a") ++ txt " " ++ expected ++
        txt ", got " ++ jsonType value)
    | _, _ => none

/-! ### Reading a fixture -/

/-- `obj.setdefault(key, value)`. -/
def Members.setDefault (obj : Members) (key : Text) (value : JsonValue) : Members :=
  if obj.has key then obj else obj ++ [(key, value)]

/-- An `except AitpError` clause that answers with the code and the message. -/
def onAitpError {α : Type} (x : PyM α) (handler : String → Text → α) : PyM α :=
  match x with
  | .error (.aitp code message _) => .ok (handler code message)
  | x => x

/-- What a token claims, unverified, or nothing. -/
def unverifiedClaims (token : JsonValue) : PyM Members :=
  onAitpError (do
    let parsed ← parseCompact P token "INVALID_TOKEN"
    .ok parsed.claims) fun _ _ => []

theorem unverifiedClaims_eq_ok {token : JsonValue} {parsed : ParsedJws} (h : parseCompact P token "INVALID_TOKEN" = .ok parsed) :
    unverifiedClaims P token = .ok parsed.claims := by
  rw [unverifiedClaims, h]
  rfl

def fixtureError (message : Text) : PyErr := .raised .fixture message

def notTested : JsonValue := .dict [(txt "fail_mode", .str (txt "fail_open"))]

def runnerOidcIssuer : Text := txt "https://auth.openai.com"

/-- The known-answer keys, by identifier or vector id. -/
abbrev KatKeys := List (Text × PrivateKey)

def oidcIssuerKeyIds : List (Text × Text) := [(runnerOidcIssuer, txt "kat-oidc-issuer-001")]

/-- `keys[key]`. -/
def KatKeys.index (keys : KatKeys) (key : Text) : PyM PrivateKey :=
  match keys.lookup key with
  | some found => .ok found
  | none => .error (.raised .key (P.reprStr key))

/-! ### Minting the snapshots a fixture leaves out -/

/-- `__NOW__`, `__NOW_MINUS_n__` and `__NOW_PLUS_n__`, before one final newline at most. -/
def resolveTime (now : Int) (s : Text) : PyM JsonValue :=
  let body := if s.getLast? = some 0x0A then s.dropLast else s
  let offset := fun start : Text =>
    if start.isPrefixOf body ∧ (txt "__").isSuffixOf body then
      let digits := (body.drop start.length).dropLast.dropLast
      if !digits.isEmpty && digits.all fun c => (P.digitValue c).isSome then some digits else none
    else none
  if body = txt "__NOW__" then .ok (.int now)
  else match offset (txt "__NOW_MINUS_"), offset (txt "__NOW_PLUS_") with
    | some digits, _ => do .ok (.int (now - (← P.toInt (.str digits))))
    | none, some digits => do .ok (.int (now + (← P.toInt (.str digits))))
    | none, none => .ok (.str s)

/-- A signature field, tagged unless the key is an Ed25519 one. -/
def envWireSig (key : PrivateKey) (digest : Bytes) : PyM Text := do
  let sig ← signDigest key digest
  .ok ((if key.alg = .p256 then txt "p256." else []) ++ b64urlEncode sig)

/-- A fresh, empty snapshot signed with its issuer's key. -/
def emptySnapshot (keys : KatKeys) (now : Int) (issuer : JsonValue) : PyM JsonValue := do
  let body : Members := [(txt "version", .str protocolVersion), (txt "issuer", issuer), (txt "published_at", .int now),
    (txt "expires_at", .int (now + 3600)), (txt "entries", .list [])]
  let key ← match issuer with
    | .str aid => keys.index P aid
    | other => do .error (.raised .key (← P.repr other))
  let sig ← envWireSig key (P.sha256 (← Jcs.canonicalize (.dict body)))
  .ok (.dict [(txt "issuer_aid", issuer),
    (txt "snapshot", .dict [(txt "revocation_list", .dict body), (txt "signature", .str sig)])])

/-- Every issuer of a delegation input with no entry in `revocation_snapshots` gets an
empty one: it is not under test and reads "not revoked". -/
def coverUnsuppliedIssuers (inp : Members) (keys : KatKeys) : PyM Members :=
  match inp.get (txt "revocation_snapshots") with
  | .list snaps => do
    let claims ← unverifiedClaims P (inp.get (txt "delegation_token"))
    let hopIssuers ← collect (fun hop => do
      let hopClaims ← unverifiedClaims P hop
      .ok (hopClaims.get (txt "iss"))) (claims.get (txt "chain")).items
    let covered := (snaps.filter JsonValue.isDict).map fun r => r.members.get (txt "issuer_aid")
    forEach (fun value => raiseIf (!value.hashable) (JsonValue.unhashable value)) covered
    let now ← P.toInt ((inp.get? (txt "now")).getD (.int referenceClock))
    let issuers := inp.get (txt "self_aid") :: claims.get (txt "iss") :: hopIssuers
    forEach (fun value => raiseIf (!value.hashable) (JsonValue.unhashable value)) issuers
    let added := ((issuers.filter JsonValue.isStr).map JsonValue.text).eraseDups.filter fun aid =>
      !(JsonValue.str aid).isIn covered
    if added.isEmpty then .ok inp
    else do
      let resolved ← collect (resolveTime P now) added
      let signed ← collect (emptySnapshot P keys now) resolved
      .ok (inp.insert (txt "revocation_snapshots") (.list (snaps ++ signed)))
  | _ => .ok inp

/-! ### The conventions -/

/-- A fixture's revocation inputs as the verifier's. A fixture's own `policy` always wins. -/
def revocationConventions (op : Text) (inp : Members) : PyM Members :=
  if op = txt "verify_delegation_token" then
    .ok (if inp.has (txt "revocation_snapshots") then inp else inp.setDefault (txt "policy") notTested)
  else if op ∉ [txt "verify_tct", txt "verify_attestation", txt "verify_tct_as_issuer"] then .ok inp
  else match inp.get (txt "issuer_revocation_list") with
    | .null => .ok (inp.setDefault (txt "policy") notTested)
    | .dict revlist => do
      let mode := Members.get revlist (txt "fail_mode")
      let available := (Members.get? revlist (txt "available")).getD (.bool true)
      let rest := (Members.without revlist (txt "fail_mode")).without (txt "available")
      let out ← match available with
        | .bool true => .ok (inp.insert (txt "issuer_revocation_list") (.dict rest))
        | .bool false => do
          raiseIf (rest.has (txt "snapshot"))
            (fixtureError (txt "issuer_revocation_list has available: false beside a snapshot"))
          .ok (inp.without (txt "issuer_revocation_list"))
        | other => do
          .error (fixtureError (txt "issuer_revocation_list.available is " ++ (← P.repr other) ++ txt ", not a boolean"))
      .ok (if mode.isNull then out else out.setDefault (txt "policy") (.dict [(txt "fail_mode", mode)]))
    | _ => .ok inp

/-- The receiver's policy for a handshake fixture. -/
def receiverPolicy (inp : Members) (acceptPresentedType : Bool) : PyM Members := do
  let inp := inp.setDefault (txt "self_trust_anchors") (.list [.str runnerOidcIssuer])
  let envelope := (inp.get? (txt "envelope")).getD (.dict [])
  let payload ← envelope.attrGet (txt "payload") (.dict [])
  let identity ← payload.attrGet (txt "identity") .null
  .ok (if acceptPresentedType && identity.isDict then
      inp.setDefault (txt "self_accepted_identity_types") (.list [identity.members.get (txt "type")])
    else inp)

/-- Each pinned test issuer's public key, and nothing for any other issuer. -/
def issuerResolver (keys : KatKeys) : PyM JsonValue := do
  let resolved ← collect (fun entry => do
    let key ← keys.index P entry.2
    .ok (entry.1, .str (b64urlEncode key.rawPublic))) oidcIssuerKeyIds
  .ok (.dict resolved)

/-- Whether an invocation needs a proof of possession: for every one, for a marked grant,
or for a token that comes back to its own issuer. -/
def popRequired (inp claims : Members) : PyM Bool := do
  let policy := (inp.get? (txt "issuer_policy")).getD (.dict [])
  let posture ← policy.attrGet (txt "pop_posture") .null
  if posture.eq (.str (txt "enforce-for-all")) || (inp.get (txt "self_aid")).eq (claims.get (txt "iss")) then .ok true
  else do
    let marked ← (← policy.attrGet (txt "pop_required_grants") (.list [])).set
    let granted ← ((claims.get? (txt "grants")).getD (.list [])).set
    .ok (marked.any fun grant => grant.isIn granted)

/-- What an operation reports: a code, or none, and its result. -/
abbrev Report := Option String × Members

/-- What an `except AitpError` clause reports. -/
def reportError (code : String) (message : Text) : Report := (some code, [(txt "message", .str message)])

/-- Run one minted input through an operation of the registry under the conventions. -/
def runOperation (op : Text) (verifier : Verifier) (inp : Members) (keys : KatKeys) (acceptPresentedType : Bool) :
    PyM Report := do
  let inp ← if op = txt "verify_delegation_token" then coverUnsuppliedIssuers P inp keys else .ok inp
  let inp ← revocationConventions P op inp
  let inp ← if op = txt "verify_handshake_payload" then do
      let inp ← receiverPolicy inp acceptPresentedType
      let resolved ← issuerResolver P keys
      .ok (inp.setDefault (txt "resolved_issuer_keys") resolved)
    else .ok inp
  let now ← P.toInt ((inp.get? (txt "now")).getD (.int referenceClock))
  onAitpError (do
    let result ← verifier inp now
    .ok (none, result)) reportError

end AitpVerifier
