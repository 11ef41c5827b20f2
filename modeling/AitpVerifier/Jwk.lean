import AitpVerifier.Sigfield

/-!
# JWK thumbprints and issuer keys

A thumbprint is the SHA-256 of the canonical JWK of an agent's key. In the other
direction a resolver's value is flattened into candidate keys, each read from
its structure and never from its own `alg`, under caps on list depth, nodes
visited and candidates.
-/
namespace AitpVerifier

open PyText Checked

variable (P : Platform)

/-! ### Thumbprints -/

def canonicalJwk (aid : Aid) : Bytes :=
  match aid.publicKey with
  | .ed25519 _ => asciiOctets (txt "\x7b\"crv\":\"Ed25519\",\"kty\":\"OKP\",\"x\":\"" ++
      b64urlEncode aid.rawKey ++ txt "\"\x7d")
  | .p256 x y => asciiOctets (txt "\x7b\"crv\":\"P-256\",\"kty\":\"EC\",\"x\":\"" ++
      b64urlEncode (intToBytes 32 x) ++ txt "\",\"y\":\"" ++ b64urlEncode (intToBytes 32 y) ++ txt "\"\x7d")

/-- The `jkt` of an agent's key. -/
def thumbprint (aid : Aid) : Text := b64urlEncode (P.sha256 (canonicalJwk aid))

/-! ### Issuer keys -/

/-- A candidate verification key; `joseAlg` follows from its structure. -/
structure IssuerKey where
  kid : Option Text
  joseAlg : Text
  publicKey : PublicKey
  deriving DecidableEq, Repr

def maxB64MemberChars : Nat := 8192

def decodeJwkMember (value : Members) (member : Text) : PyM Bytes :=
  match value.get member with
  | .str text => do
    raiseIf (decide (maxB64MemberChars < text.length)) (valueError (txt "JWK member " ++ P.reprStr member ++
      txt " exceeds the maximum encoded length (8192 base64url characters), got " ++ decimal text.length))
    b64urlDecode text
  | _ => .error (valueError (txt "JWK member " ++ P.reprStr member ++ txt " must be a string"))

def okpKey (value : Members) (kid : Option Text) : PyM IssuerKey := do
  let crv := value.get (txt "crv")
  raiseWith (!crv.eq (.str (txt "Ed25519"))) (do
    .ok (valueError (txt "unsupported OKP curve: " ++ (← describeValue P crv))))
  let x ← decodeJwkMember P value (txt "x")
  raiseIf (x.length != 32)
    (valueError (txt "Ed25519 JWK 'x' must decode to 32 bytes, got " ++ decimal x.length))
  let key ← fromRaw P .ed25519 x
  .ok ⟨kid, txt "EdDSA", .agent key⟩

def ecKey (value : Members) (kid : Option Text) : PyM IssuerKey := do
  let crv := value.get (txt "crv")
  raiseWith (!crv.eq (.str (txt "P-256"))) (do
    .ok (valueError (txt "unsupported EC curve: " ++ (← describeValue P crv))))
  let x ← decodeJwkMember P value (txt "x")
  let y ← decodeJwkMember P value (txt "y")
  raiseIf (x.length != 32 || y.length != 32)
    (valueError (txt "P-256 JWK 'x'/'y' must each decode to 32 bytes, got " ++ decimal x.length ++ txt "/" ++
      decimal y.length))
  raiseIf (!P.publicNumbers? .p256 (intFromBytes x) (intFromBytes y)) (valueError (txt "Invalid EC key."))
  .ok ⟨kid, txt "ES256", .agent (.p256 (intFromBytes x) (intFromBytes y))⟩

def rsaKey (value : Members) (kid : Option Text) : PyM IssuerKey := do
  let n ← decodeJwkMember P value (txt "n")
  let e ← decodeJwkMember P value (txt "e")
  let key ← fromRsaNumbers P n e
  .ok ⟨kid, txt "RS256", key⟩

def jwkKid (value : Members) : PyM (Option Text) :=
  match value.get (txt "kid") with
  | .null => .ok none
  | .str kid => .ok (some kid)
  | _ => .error (valueError (txt "JWK 'kid' must be a string when present"))

/-- One JWK: `kty` and `crv` determine the algorithm. -/
def issuerKeyFromJwk (value : JsonValue) : PyM IssuerKey :=
  match value with
  | .dict jwk => do
    let kty := Members.get jwk (txt "kty")
    let kid ← jwkKid jwk
    if kty.eq (.str (txt "OKP")) then okpKey P jwk kid
    else if kty.eq (.str (txt "EC")) then ecKey P jwk kid
    else if kty.eq (.str (txt "RSA")) then rsaKey P jwk kid
    else do
      let shown ← describeValue P kty
      .error (valueError (txt "unsupported or missing JWK 'kty': " ++ shown))
  | _ => .error (valueError (txt "JWK must be a JSON object"))

/-- The static-config form: a bare identifier, its algorithm read off its length. -/
def issuerKeyFromConfig (text : Text) : PyM IssuerKey :=
  if text.length = 43 then do
    let raw ← b64urlDecode text
    let key ← fromRaw P .ed25519 raw
    .ok ⟨none, txt "EdDSA", .agent key⟩
  else if text.length = 44 then do
    let raw ← b64urlDecode text
    let key ← fromRaw P .p256 raw
    .ok ⟨none, txt "ES256", .agent key⟩
  else .error (valueError (txt "issuer key config string must be 43 (Ed25519) or 44 (P-256) chars, got " ++
    decimal text.length))

def maxListDepth : Nat := 16
def maxCandidates : Nat := 64
def maxWalkNodes : Nat := 4096

/-- The walk's accumulator: candidates so far, and nodes visited. -/
abbrev Walk := List IssuerKey × Nat

/-- Room for one more candidate, then the candidate itself. -/
def appendCandidate (out : List IssuerKey) (parse : PyM IssuerKey) : PyM (List IssuerKey) := do
  raiseIf (decide (maxCandidates ≤ out.length))
    (valueError (txt "issuer key value carries more than 64 candidate keys"))
  let key ← parse
  .ok (out ++ [key])

/-- A step over a list, in order, threading the accumulator. -/
def walkItems {α β : Type} (step : α → β → PyM β) : List α → β → PyM β
  | [], acc => .ok acc
  | item :: rest, acc => do
    let acc ← step item acc
    walkItems step rest acc

/-- Count the node, then test the depth: both ahead of any other work. -/
def walkVisit (visits : Nat) : PyM Nat := do
  raiseIf (decide (maxWalkNodes < visits + 1))
    (valueError (txt "issuer key value visits more than 4096 nodes while resolving"))
  .ok (visits + 1)

/-- `_issuer_keys_from`, with `room` list levels left. -/
def issuerKeysWalk : Nat → JsonValue → Walk → PyM Walk
  | 0, _, (_, visits) => do
    let _ ← walkVisit visits
    .error (valueError (txt "issuer key value nesting exceeds the maximum depth (16)"))
  | room + 1, value, (out, visits) => do
    let visits ← walkVisit visits
    match value with
    | .null => .ok (out, visits)
    | .str text => do
      let out ← appendCandidate out (issuerKeyFromConfig P text)
      .ok (out, visits)
    | .dict members =>
      match Members.get? members (txt "keys") with
      | some (.list keys) => do
        let out ← walkItems (fun key out => appendCandidate out (issuerKeyFromJwk P key)) keys out
        .ok (out, visits)
      | some _ => .error (valueError (txt "JWKS 'keys' must be a list"))
      | none => do
        let out ← appendCandidate out (issuerKeyFromJwk P value)
        .ok (out, visits)
    | .list items => walkItems (issuerKeysWalk room) items (out, visits)
    | _ => .error (valueError (txt "unsupported issuer key value shape: " ++ value.typeName))

/-- Normalize a resolver's value into a flat list of candidates. -/
def issuerKeysFrom (value : JsonValue) : PyM (List IssuerKey) := do
  let (out, _) ← issuerKeysWalk P (maxListDepth + 1) value ([], 0)
  .ok out

end AitpVerifier
