import AitpVerifier.Spiffe

/-!
# Identity binding

An OIDC token, a pinned key or a SPIFFE identity, tied to the envelope's sender.
-/
namespace AitpVerifier

open PyText Checked

def identityFailed (message : Text) : PyErr := AitpError "IDENTITY_FAILED" message

def allowedOidcAlgs : List Text := [txt "EdDSA", txt "ES256", txt "RS256"]

def forbiddenHeaderParams : List Text := [txt "jwk", txt "jku", txt "x5u", txt "x5c", txt "crit"]

def identityFields : List Text :=
  [txt "type", txt "issuer", txt "subject", txt "proof", txt "public_key", txt "svid_type", txt "x5c",
    txt "extensions"]

def spiffeOnlyFields : List Text := [txt "svid_type", txt "x5c"]

variable (P : Platform)

/-! ### OIDC -/

/-- The one candidate a header's `kid` names, or the sole one. -/
def selectIssuerKey (candidates : List IssuerKey) (kid : JsonValue) : PyM IssuerKey :=
  if kid.isNull then
    match candidates with
    | [key] => .ok key
    | _ => .error (identityFailed
        (txt "OIDC JWT header has no kid and multiple issuer key candidates exist (ambiguous)"))
  else
    match candidates.filter (fun c => (c.kid.map JsonValue.str).any (fun k => k.eq kid)) with
    | [key] => .ok key
    | _ => do
      let shown ← describeValue P kid
      .error (identityFailed (txt "no issuer key candidate matches kid " ++ shown))

/-- The candidates for an issuer; every way resolution fails has one retryable code. -/
def resolveIssuerKeys (issuerKeys : JsonValue) (issuer : Text) : PyM (List IssuerKey) := do
  let candidates ← rescue (issuerKeysFrom P (issuerKeys.members.get issuer)) (fun e =>
    if e.isKind .recursion then
      some (keyResolutionFailed (txt "issuer key value is too deeply nested to resolve"))
    else if e.isValueError then
      some (keyResolutionFailed (txt "issuer key value for " ++ P.reprStr issuer ++ txt " is malformed: " ++ e.text))
    else none)
  raiseIf candidates.isEmpty (keyResolutionFailed (txt "no issuer key resolvable for " ++ P.reprStr issuer))
  .ok candidates

/-- The header's parameters and algorithm. -/
def checkOidcHeader (header : Members) : PyM Text := do
  let forbidden := forbiddenHeaderParams.filter (fun k => header.has k)
  raiseIf (!forbidden.isEmpty) (identityFailed
    (txt "OIDC JWT header carries forbidden parameter(s): " ++ reprSorted P forbidden))
  let alg := header.get (txt "alg")
  raiseWith (!alg.isStr || !allowedOidcAlgs.contains alg.text) (do
    .ok (identityFailed (txt "OIDC JWT alg " ++ (← describeValue P alg) ++ txt " is not one of " ++
      reprSorted P allowedOidcAlgs)))
  .ok alg.text

/-- The claims of a token whose signature has verified. -/
def checkOidcClaims (claims identity env : Members) (issuer : Text) (selfAid : JsonValue) (now : Int) : PyM Unit := do
  raiseIf (!(claims.get (txt "iss")).eq (.str issuer)) (identityFailed (txt "JWT iss != identity issuer"))
  raiseIf (!(claims.get (txt "sub")).eq (identity.get (txt "subject"))) (identityFailed (txt "JWT sub != identity subject"))
  raiseIf (!Spiffe.futureExp (claims.get (txt "exp")) now)
    (identityFailed (txt "JWT exp missing, not an integer, or not strictly in the future"))
  raiseIf (!Spiffe.freshIat (claims.get (txt "iat")) now)
    (identityFailed (txt "JWT iat missing, not an integer, or outside the timestamp tolerance"))
  let aud := claims.get (txt "aud")
  raiseIf aud.isNull (identityFailed (txt "JWT missing aud claim"))
  raiseIf (selfAid.truthy && !aud.eq selfAid) (identityFailed (txt "JWT aud != verifier AID"))
  raiseIf (!Spiffe.nonceMatches (claims.get (txt "nonce")) ((env.get (txt "payload")).members.get (txt "pop_nonce")))
    (identityFailed (txt "JWT nonce != message pop_nonce"))
  let sender ← parseAid P (senderAgentId env).text
  raiseIf (!((claims.get (txt "cnf")).members.get (txt "jkt")).eq (.str (thumbprint P sender)))
    (identityFailed (txt "JWT cnf.jkt does not bind the sender key"))

/-- The key and the signature: no claim is read before this succeeds. -/
def verifyOidcSignature (identity : Members) (issuerKeys : JsonValue) (issuer : Text) : PyM ParsedJws := do
  let parsed ← parseCompact P ((identity.get? (txt "proof")).getD (.str [])) "IDENTITY_FAILED"
  let alg ← checkOidcHeader P parsed.header
  let candidates ← resolveIssuerKeys P issuerKeys issuer
  let resolved ← selectIssuerKey P candidates (parsed.header.get (txt "kid"))
  raiseIf (resolved.joseAlg != alg) (identityFailed (txt "OIDC JWT alg " ++ P.reprStr alg ++
    txt " != resolved key alg " ++ P.reprStr resolved.joseAlg))
  raiseIf (!verifyJose P resolved.publicKey parsed.signingInput parsed.signature true)
    (identityFailed (txt "OIDC JWT signature invalid"))
  .ok parsed

def verifyOidc (identity env : Members) (selfAid : JsonValue) (trustAnchors : List Text) (issuerKeys : JsonValue)
    (now : Int) : PyM Unit := do
  raiseIf (!(identity.get (txt "public_key")).isNull)
    (identityFailed (txt "OIDC identity descriptor MUST NOT carry public_key"))
  match identity.get (txt "issuer") with
  | .str issuer => do
    raiseIf (!trustAnchors.contains issuer)
      (AitpError "INCOMPATIBLE_TRUST_ANCHORS" (txt "OIDC issuer not a trusted anchor"))
    let parsed ← verifyOidcSignature P identity issuerKeys issuer
    checkOidcClaims P parsed.claims identity env issuer selfAid now
  | _ => .error (identityFailed (txt "OIDC identity missing string issuer"))

/-! ### Pinned keys -/

/-- A trust-store entry as its algorithm and raw key; unparseable entries never match. -/
def trustStoreEntry (entry : JsonValue) : Option (KeyAlg × Bytes) :=
  match entry with
  | .str s =>
    let aid := if (txt "aid:").isPrefixOf s then s
      else if s.length = 44 then txt "aid:pubkey:p256:" ++ s else txt "aid:pubkey:" ++ s
    match parseAid P aid with
    | .ok a => some (a.alg, a.rawKey)
    | .error _ => none
  | _ => none

/-- The five-field pinned-key proof input of an envelope. -/
def pinnedKeyProofInput (env : Members) (selfAid : JsonValue) : PyM Bytes := do
  let timestamp ← P.toInt (env.get (txt "timestamp"))
  handshakeProofInput pinnedKeyDomain (senderAgentId env) selfAid (env.get (txt "message_id")) timestamp
    (← (env.get (txt "payload")).item (txt "pop_nonce"))

/-- The steps before the signature: the key is the sender's and is trusted, and the
proof input and proof field decode. -/
def pinnedKeyProof (identity env : Members) (selfAid trustStore : JsonValue) : PyM (Aid × Bytes × Bytes) := do
  match identity.get (txt "public_key") with
  | .str pub => do
    let sender ← parseAid P (senderAgentId env).text
    let matching ← if pub.length ≠ identLength sender.alg then .ok false else do
      let raw ← b64urlDecode pub
      .ok (raw == sender.rawKey)
    raiseIf (!matching) (identityFailed (txt "pinned_key public_key is not the sender AID's " ++
      sender.alg.text ++ txt " key"))
    raiseIf (!(trustStore.items.filterMap (trustStoreEntry P)).contains (sender.alg, sender.rawKey))
      (identityFailed (txt "pinned key not in trust store"))
    let proofInput ← pinnedKeyProofInput P env selfAid
    let sig ← decodeTaggedSignature P (identity.get (txt "proof")) sender "IDENTITY_FAILED"
    .ok (sender, proofInput, sig)
  | _ => .error (identityFailed (txt "pinned_key descriptor has no string public_key"))

/-- The exceptions a malformed descriptor may cause. -/
def pinnedKeyMalformed : PyErr → Option PyErr
  | .raised kind message =>
    if kind.isValueError || [.type, .attribute, .overflow, .key].contains kind then
      some (identityFailed (txt "pinned-key identity is malformed: " ++ message))
    else none
  | .aitp .. => none

def verifyPinnedKey (identity env : Members) (selfAid trustStore : JsonValue) : PyM Unit := do
  raiseIf (identity.has (txt "issuer"))
    (identityFailed (txt "pinned_key descriptor MUST NOT carry `issuer` (RFC-AITP-0002 §1)"))
  let (sender, proofInput, sig) ← rescue (pinnedKeyProof P identity env selfAid trustStore) pinnedKeyMalformed
  raiseIf (!verifyDigest P sender.publicKey (P.sha256 proofInput) sig)
    (identityFailed (txt "pinned-key proof does not verify (five-field input)"))

/-! ### Dispatch -/

/-- What the receiver configures for identity verification. `spiffeBundles` is null
when the `spiffe` type is not enabled. -/
structure IdentityConfig where
  trustAnchors : List Text
  trustStore : JsonValue
  issuerKeys : JsonValue
  spiffeBundles : JsonValue

/-- Verify the identity binding in a handshake payload. -/
def verifyIdentity (identity env : Members) (selfAid : JsonValue) (config : IdentityConfig) (now : Int) : PyM Unit := do
  rejectUnknownFields P (.dict identity) identityFields "IDENTITY_FAILED" (txt "identity descriptor")
  let itype := identity.get (txt "type")
  if itype.eq (.str (txt "spiffe")) && !config.spiffeBundles.isNull then
    verifySpiffe P identity env selfAid config.spiffeBundles now
  else do
    let carried := spiffeOnlyFields.filter (fun k => identity.has k)
    raiseIf (itype.isIn [.str (txt "oidc"), .str (txt "pinned_key")] && !carried.isEmpty)
      (identityFailed (itype.text ++ txt " descriptor MUST NOT carry " ++ reprSorted P carried))
    if itype.eq (.str (txt "oidc")) then
      verifyOidc P identity env selfAid config.trustAnchors config.issuerKeys now
    else if itype.eq (.str (txt "pinned_key")) then
      verifyPinnedKey P identity env selfAid config.trustStore
    else do
      let shown ← describeValue P itype
      .error (identityFailed (txt "unknown identity type " ++ shown))

end AitpVerifier
