import AitpVerifier.Manifest

/-!
# The `spiffe` identity binding

A SPIFFE ID is proven by an SVID that chains to the local bundle of its trust
domain: a JWT signed by a bundle key, or a certificate path to a bundle CA with
a proof under the leaf key.
-/
namespace AitpVerifier

open PyText Checked

namespace Spiffe

def fail (reason : Text) : PyErr := AitpError "IDENTITY_FAILED" reason

def spiffeFeature : Text := txt "experimental-spiffe-identity"

def svidTypes : List Text := [txt "jwt-svid", txt "x509-svid"]

def trustDomainPattern : Pattern :=
  .plus (.oneOf [(0x61, 0x7A), (0x30, 0x39), (0x2E, 0x2E), (0x5F, 0x5F), (0x2D, 0x2D)])

def pathSegmentPattern : Pattern := .plus segmentClass

variable (P : Platform)

/-- Trust domain and path of a canonical SPIFFE ID with a non-empty path. -/
def parseSpiffeId (value : JsonValue) : PyM (Text × Text) :=
  match value with
  | .str s => do
    let octets ← encodeUtf8 s
    raiseIf (decide (2048 < octets.length)) (fail (txt "SPIFFE ID is longer than 2048 bytes"))
    raiseIf (!(txt "spiffe://").isPrefixOf s)
      (fail (txt "SPIFFE ID does not start with the lowercase scheme spiffe://"))
    let (trustDomain, slash, path) := partition 0x2F (s.drop 9)
    raiseIf (decide (255 < trustDomain.length) || !trustDomainPattern.fullMatch trustDomain)
      (fail (txt "SPIFFE trust domain is empty, too long, or not lowercase letters, digits, '.', '-', '_'"))
    raiseIf (!slash) (fail (txt "SPIFFE ID names a trust domain, not a workload: its path is empty"))
    forEach (fun segment =>
      raiseIf ([[], txt ".", txt ".."].contains segment || !pathSegmentPattern.fullMatch segment)
        (fail (txt "SPIFFE ID path has an empty, '.', '..' or non-[A-Za-z0-9._-] segment")))
      (splitOn 0x2F path)
    .ok (trustDomain, txt "/" ++ path)
  | _ => do
    let shown ← describeValue P value
    .error (fail (txt "SPIFFE ID is " ++ shown ++ txt ", not a string"))

/-! ### The bundle of a trust domain -/

/-- Scan the store: every entry names a trust domain, none twice. -/
def scanStore (trustDomain : Text) : List Text → JsonValue → List JsonValue → PyM JsonValue
  | _, found, [] => .ok found
  | seen, found, entry :: rest =>
    match entry.members.get (txt "trust_domain") with
    | .str td => do
      raiseIf (seen.contains td) (fail (txt "spiffe_bundles lists trust domain " ++ td ++ txt " twice"))
      scanStore trustDomain (td :: seen)
        (if td = trustDomain then entry.members.get (txt "bundle") else found) rest
    | _ => .error (fail (txt "a spiffe_bundles entry has no string trust_domain"))

def bundleFor (store : JsonValue) (trustDomain : Text) : PyM JsonValue :=
  match store with
  | .list entries => do
    let found ← scanStore trustDomain [] .null entries
    raiseIf found.isNull (fail (txt "no SPIFFE bundle for trust domain " ++ trustDomain))
    .ok found
  | _ => .error (fail (txt "spiffe_bundles is not a list"))

/-! ### JWT-SVID -/

/-- The hash an algorithm name's last three characters select. -/
def jwtSvidHash (alg : Text) : HashAlgorithm :=
  if alg.drop 2 = txt "256" then .sha256 else if alg.drop 2 = txt "384" then .sha384 else .sha512

def jwtSvidAlgs : List Text :=
  [txt "RS256", txt "RS384", txt "RS512", txt "PS256", txt "PS384", txt "PS512", txt "ES256", txt "ES384",
    txt "ES512"]

/-- The curve and coordinate size each `ES*` algorithm requires. -/
def esCurve (alg : Text) : Text × Curve × Nat :=
  if alg = txt "ES256" then (txt "P-256", .p256, 32)
  else if alg = txt "ES384" then (txt "P-384", .p384, 48)
  else (txt "P-521", .p521, 66)

def jwtSvidHeader : List Text := [txt "alg", txt "kid", txt "typ"]

/-- An elliptic-curve verification under a bundle key. -/
def verifyEsSignature (jwk : Members) (alg : Text) (signingInput sig : Bytes) : PyM Bool := do
  let (crvName, curve, size) := esCurve alg
  raiseWith (!(jwk.get (txt "kty")).eq (.str (txt "EC")) || !(jwk.get (txt "crv")).eq (.str crvName)) (do
    .ok (fail (txt "JWT-SVID alg " ++ alg ++ txt " needs an EC " ++ crvName ++ txt " key; the bundle key is " ++
      (← describeValue P (jwk.get (txt "kty"))) ++ txt " " ++ (← describeValue P (jwk.get (txt "crv"))))))
  let x ← decodeJwkMember P jwk (txt "x")
  let y ← decodeJwkMember P jwk (txt "y")
  raiseIf (x.length != size || y.length != size)
    (fail (crvName ++ txt " JWK x/y must each decode to " ++ decimal size ++ txt " bytes"))
  raiseIf (!P.publicNumbers? curve (intFromBytes x) (intFromBytes y)) (valueError (txt "Invalid EC key."))
  if sig.length ≠ 2 * size then .ok false
  else .ok (P.ecdsaVerify curve (intFromBytes x) (intFromBytes y) (jwtSvidHash alg) false
    (P.encodeDssSignature (intFromBytes (sig.take size)) (intFromBytes (sig.drop size))) signingInput)

/-- An RSA verification under a bundle key: `RS*` or `PS*`. -/
def verifyRsaSignature (jwk : Members) (alg : Text) (signingInput sig : Bytes) : PyM Bool := do
  raiseWith (!(jwk.get (txt "kty")).eq (.str (txt "RSA"))) (do
    .ok (fail (txt "JWT-SVID alg " ++ alg ++ txt " needs an RSA key; the bundle key is " ++
      (← describeValue P (jwk.get (txt "kty"))))))
  let n ← decodeJwkMember P jwk (txt "n")
  let e ← decodeJwkMember P jwk (txt "e")
  let _ ← fromRsaNumbers P n e
  let padding := if (txt "RS").isPrefixOf alg then RsaPadding.pkcs1v15 else RsaPadding.pss
  .ok (P.rsaVerify (intFromBytes n) (intFromBytes e) padding (jwtSvidHash alg) sig signingInput)

/-- Verify under the bundle key, whose structure and `alg` must admit `alg`. -/
def verifyJwtSvidSignature (jwk : Members) (alg : Text) (signingInput sig : Bytes) : PyM Bool := do
  raiseWith (jwk.has (txt "alg") && !(jwk.get (txt "alg")).eq (.str alg)) (do
    .ok (fail (txt "JWT-SVID alg " ++ alg ++ txt " != bundle key alg " ++
      (← describeValue P (jwk.get (txt "alg"))))))
  if (txt "ES").isPrefixOf alg then verifyEsSignature P jwk alg signingInput sig
  else verifyRsaSignature P jwk alg signingInput sig

/-- An audience: one string, possibly in a list of one. -/
def soleAudience (aud : JsonValue) : JsonValue :=
  match aud with
  | .list [aud] => aud
  | _ => aud

/-- An integer claim inside the timestamp tolerance. -/
def freshIat (iat : JsonValue) (now : Int) : Bool :=
  match iat with
  | .int i => decide (|now - i| ≤ 300)
  | _ => false

/-- An integer claim strictly in the future. -/
def futureExp (exp : JsonValue) (now : Int) : Bool :=
  match exp with
  | .int e => decide (now < e)
  | _ => false

theorem futureExp_eq_true {exp : JsonValue} {now : Int} :
    futureExp exp now = true ↔ ∃ expiry, exp = .int expiry ∧ now < expiry := by
  cases exp <;> simp [futureExp]

/-- Two nonces that are present and equal. -/
def nonceMatches (nonce popNonce : JsonValue) : Bool := !nonce.isNull && !popNonce.isNull && nonce.eq popNonce

/-- The header checks of a JWT-SVID, and the bundle key it names. -/
def selectJwtSvidKey (header : Members) (candidates : List Members) : PyM (Members × Text) := do
  let extra := header.names.filter (fun k => !jwtSvidHeader.contains k)
  raiseIf (!extra.isEmpty) (fail (txt "JWT-SVID header carries " ++ reprSorted P extra ++
    txt "; only alg, kid, typ are allowed"))
  let alg := header.get (txt "alg")
  raiseIf (!alg.hashable) (JsonValue.unhashable alg)
  raiseWith (!jwtSvidAlgs.contains alg.text || !alg.isStr) (do
    .ok (fail (txt "JWT-SVID alg " ++ (← describeValue P alg) ++ txt " is not a JWT-SVID algorithm")))
  let typ := header.get (txt "typ")
  raiseWith (header.has (txt "typ") && !typ.isIn [.str (txt "JWT"), .str (txt "JOSE")]) (do
    .ok (fail (txt "JWT-SVID typ " ++ (← describeValue P typ) ++ txt " is not JWT or JOSE")))
  match header.get (txt "kid") with
  | .str kid =>
    match candidates.filter (fun jwk => (jwk.get (txt "kid")).eq (.str kid)) with
    | [jwk] => .ok (jwk, alg.text)
    | found => .error (fail (decimal found.length ++ txt " jwt-svid bundle keys carry kid " ++ P.reprStr kid ++
        txt "; exactly one must"))
  | _ => .error (fail (txt "JWT-SVID header has no string kid"))

/-- The claims of a JWT-SVID whose signature has verified. -/
def checkJwtSvidClaims (claims identity env : Members) (selfAid : JsonValue) (now : Int) : PyM Unit := do
  raiseIf (!(claims.get (txt "sub")).eq (identity.get (txt "subject"))) (fail (txt "JWT-SVID sub != identity subject"))
  let aud := soleAudience (claims.get (txt "aud"))
  raiseIf (!aud.isStr) (fail (txt "JWT-SVID aud is absent or does not hold exactly one value"))
  raiseIf (!selfAid.truthy || !aud.eq selfAid) (fail (txt "JWT-SVID aud != verifier AID"))
  raiseIf (!futureExp (claims.get (txt "exp")) now)
    (fail (txt "JWT-SVID exp missing, not an integer, or not strictly in the future"))
  raiseIf (!freshIat (claims.get (txt "iat")) now)
    (fail (txt "JWT-SVID iat missing, not an integer, or outside the timestamp tolerance"))
  raiseIf (!nonceMatches (claims.get (txt "nonce")) ((env.get (txt "payload")).members.get (txt "pop_nonce")))
    (fail (txt "JWT-SVID nonce != message pop_nonce"))
  let sender ← parseAid P (senderAgentId env).text
  raiseIf (!((claims.get (txt "cnf")).members.get (txt "jkt")).eq (.str (thumbprint P sender)))
    (fail (txt "JWT-SVID cnf.jkt does not bind the sender key"))

def verifyJwtSvid (identity env : Members) (selfAid : JsonValue) (candidates : List Members) (now : Int) :
    PyM Unit := do
  let parsed ← parseCompact P ((identity.get? (txt "proof")).getD (.str [])) "IDENTITY_FAILED"
  let (jwk, alg) ← selectJwtSvidKey P parsed.header candidates
  let valid ← verifyJwtSvidSignature P jwk alg parsed.signingInput parsed.signature
  raiseIf (!valid) (fail (txt "JWT-SVID signature invalid"))
  checkJwtSvidClaims P parsed.claims identity env selfAid now

/-! ### X509-SVID -/

/-- One character of the standard base64 alphabet as its base64url counterpart. -/
def toUrlChar (c : CodePoint) : CodePoint := if c = 0x2B then 0x2D else if c = 0x2F then 0x5F else c

def stdB64Pattern : Pattern :=
  .seq (.star (.oneOf [(0x41, 0x5A), (0x61, 0x7A), (0x30, 0x39), (0x2B, 0x2B), (0x2F, 0x2F)]))
    (.between 0 2 (.literal (txt "=")))

/-- `base64.b64decode(text, validate=True)`, for whole padded groups. -/
def stdB64decode? (text : Text) : Option Bytes :=
  unpackSextets (((text.filter (· != 0x3D)).map toUrlChar).filterMap sextet?)

/-- One `x5c` entry: standard padded base64 of a DER certificate. -/
def der (entry : JsonValue) (what : Text) : PyM Certificate :=
  match entry with
  | .str s => do
    raiseIf (!stdB64Pattern.fullMatch s || s.length % 4 != 0) (fail (what ++ txt " is not standard padded base64"))
    match stdB64decode? s with
    | some data => onValueError (P.loadDerCertificate data) "IDENTITY_FAILED" (fun _ => what ++ txt " is not a DER certificate")
    | none => .error (fail (what ++ txt " is not standard padded base64"))
  | _ => .error (fail (what ++ txt " is not standard padded base64"))

/-- The bundle's CA certificates: each key carries exactly one. -/
def anchors (candidates : List Members) : PyM (List Certificate) :=
  collect (fun jwk =>
    match jwk.get (txt "x5c") with
    | .list [entry] => der P entry (txt "an x509-svid bundle certificate")
    | _ => .error (fail (txt "an x509-svid bundle key does not carry exactly one x5c certificate"))) candidates

def basicConstraintsOid : Text := txt "2.5.29.19"
def keyUsageOid : Text := txt "2.5.29.15"
def subjectAlternativeNameOid : Text := txt "2.5.29.17"
def extendedKeyUsageOid : Text := txt "2.5.29.37"
def nameConstraintsOid : Text := txt "2.5.29.30"

def processedCritical : List Text :=
  [basicConstraintsOid, keyUsageOid, subjectAlternativeNameOid, extendedKeyUsageOid, nameConstraintsOid]

/-- The value of the extension with the given OID, if any. Reading the extensions is
inside the handler for the one that is not found. -/
def ext? (cert : Certificate) (oid : Text) : PyM (Option ExtensionValue) :=
  match cert.extensions with
  | .ok extensions => .ok ((extensions.find? (fun e => e.oid == oid)).map Extension.value)
  | .error e => if e.isKind .extensionNotFound then .ok none else .error e

def checkValidity (cert : Certificate) (atTime : Int) (what : Text) : PyM Unit := do
  let notBefore ← cert.notValidBefore
  let inTime ← if notBefore ≤ atTime then do
      let notAfter ← cert.notValidAfter
      .ok (decide (atTime ≤ notAfter))
    else .ok false
  raiseIf (!inTime) (fail (what ++ txt " is outside its validity period"))

def checkCritical (cert : Certificate) (what : Text) : PyM Unit := do
  let extensions ← cert.extensions
  forEach (fun e => raiseIf (e.critical && !processedCritical.contains e.oid)
    (fail (what ++ txt " carries an unprocessed critical extension " ++ e.oid))) extensions

/-- The certificate may issue, with `below` CA certificates under it. -/
def checkCa (cert : Certificate) (below : Nat) (what : Text) : PyM Unit := do
  let bc ← ext? cert basicConstraintsOid
  match bc with
  | some (.basicConstraints true pathLength) =>
    raiseIf (pathLength.any (fun bound => decide (bound < below)))
      (fail (what ++ txt " pathLenConstraint " ++ decimal (pathLength.getD 0) ++ txt " is exceeded"))
  | _ => .error (fail (what ++ txt " is not a CA certificate"))
  let ku ← ext? cert keyUsageOid
  match ku with
  | some (.keyUsage _ true _) => .ok ()
  | _ => .error (fail (what ++ txt " key usage does not include keyCertSign"))

/-- A constraint that starts with a point admits any subdomain, another only itself. -/
def uriHostMatches (host constraint : Text) : Bool :=
  if constraint.head? = some 0x2E then constraint.isSuffixOf host else host == constraint

def uriValue? : GeneralName → Option Text
  | .uri value => some value
  | .other => none

def checkNameConstraints (cert : Certificate) (trustDomain : Text) (what : Text) : PyM Unit := do
  let nc ← ext? cert nameConstraintsOid
  match nc with
  | some (.nameConstraints permitted excluded) => do
    raiseIf ((permitted.getD [] ++ excluded.getD []).any (fun name => (uriValue? name).isNone))
      (fail (what ++ txt " has a name constraint on a name form other than URI, which is not processed"))
    raiseIf (permitted.isSome && !((permitted.getD []).filterMap uriValue?).any (uriHostMatches trustDomain))
      (fail (what ++ txt " name constraints do not permit trust domain " ++ trustDomain))
    raiseIf (((excluded.getD []).filterMap uriValue?).any (uriHostMatches trustDomain))
      (fail (what ++ txt " name constraints exclude trust domain " ++ trustDomain))
  | _ => .ok ()

/-- Issued by name and signature; the library's refusals count as no. -/
def issuedBy (cert issuer : Certificate) : PyM Bool :=
  match P.verifyDirectlyIssuedBy cert issuer with
  | .ok () => .ok true
  | .error e =>
    if e.isValueError || e.isKind .type || e.isKind .invalidSignature || e.isKind .unsupportedAlgorithm then .ok false
    else .error e

def leafKey (leaf : Certificate) : PyM AgentKey := do
  let key ← leaf.publicKey
  match key with
  | .ed25519 raw => .ok (.ed25519 raw)
  | .ec .p256 x y => .ok (.p256 x y)
  | _ => .error (fail (txt "X509-SVID leaf key is neither Ed25519 nor P-256"))

/-- Exactly one URI name, the subject; not a CA; signs and does not certify. -/
def checkLeaf (leaf : Certificate) (subject : JsonValue) : PyM Unit := do
  let san ← ext? leaf subjectAlternativeNameOid
  let uris := match san with
    | some (.subjectAlternativeName names) => names.filterMap uriValue?
    | _ => []
  match uris with
  | [uri] => raiseIf (!subject.eq (.str uri)) (fail (txt "X509-SVID URI SAN != identity subject"))
  | _ => .error (fail (txt "X509-SVID leaf carries " ++ decimal uris.length ++ txt " URI SANs; exactly one is required"))
  let bc ← ext? leaf basicConstraintsOid
  match bc with
  | some (.basicConstraints false _) => .ok ()
  | _ => .error (fail (txt "X509-SVID leaf basic constraints are absent or cA is true"))
  let ku ← ext? leaf keyUsageOid
  match ku with
  | some (.keyUsage true false false) => .ok ()
  | _ => .error (fail (txt "X509-SVID leaf key usage must include digitalSignature and exclude keyCertSign and cRLSign"))

/-- One certificate of the path, with its issuer when the path carries it. -/
def checkPathEntry (trustDomain : Text) (atTime : Int) (i : Nat) (cert : Certificate) (issuer? : Option Certificate) :
    PyM Unit := do
  let what := if i = 0 then txt "X509-SVID leaf" else txt "x5c[" ++ decimal i ++ txt "]"
  let v3 ← cert.isV3
  raiseIf (!v3) (fail (what ++ txt " is not an X.509 v3 certificate"))
  checkValidity cert atTime what
  checkCritical cert what
  if i = 0 then .ok () else do
    checkCa cert (i - 1) what
    checkNameConstraints cert trustDomain what
  match issuer? with
  | none => .ok ()
  | some issuer => do
    let issued ← issuedBy P cert issuer
    raiseIf (!issued) (fail (what ++ txt " is not issued by x5c[" ++ decimal (i + 1) ++ txt "]"))

/-- The certification path from position `i` on. -/
def checkPath (trustDomain : Text) (atTime : Int) : Nat → List Certificate → PyM Unit
  | _, [] => .ok ()
  | i, cert :: rest => do
    checkPathEntry P trustDomain atTime i cert rest.head?
    checkPath trustDomain atTime (i + 1) rest

/-- The first anchor that issued `last`. -/
def findAnchor (last : Certificate) : List Certificate → PyM (Option Certificate)
  | [] => .ok none
  | anchor :: rest => do
    let issued ← issuedBy P last anchor
    if issued then .ok (some anchor) else findAnchor last rest

def maxChain : Nat := 8

/-- The decoded chain of an `x5c` member. -/
def chainOf (x5c : JsonValue) : PyM (Certificate × List Certificate) :=
  match x5c with
  | .list (first :: rest) => do
    raiseIf (decide (maxChain < rest.length + 1)) (fail (txt "x5c carries more than 8 certificates"))
    let leaf ← der P first (txt "x5c[0]")
    let issuers ← collect (fun entry => der P entry.1 (txt "x5c[" ++ decimal entry.2 ++ txt "]")) (rest.zipIdx 1)
    .ok (leaf, issuers)
  | _ => .error (fail (txt "x5c is not a non-empty array"))

/-- The path from the leaf to an anchor of the bundle, and the anchor's own checks. -/
def checkChain (leaf : Certificate) (issuers anchors : List Certificate) (trustDomain : Text) (atTime : Int) :
    PyM Unit := do
  checkPath P trustDomain atTime 0 (leaf :: issuers)
  match ← findAnchor P (issuers.getLastD leaf) anchors with
  | none => .error (fail (txt "x5c does not chain to an x509-svid CA of the " ++ trustDomain ++ txt " bundle"))
  | some anchor => do
    checkValidity anchor atTime (txt "the bundle CA")
    checkCa anchor issuers.length (txt "the bundle CA")
    checkNameConstraints anchor trustDomain (txt "the bundle CA")

/-- The X509-SVID proof input of an envelope. -/
def spiffeX509ProofInput (env : Members) (selfAid : JsonValue) : PyM Bytes := do
  let timestamp ← P.toInt (env.get (txt "timestamp"))
  handshakeProofInput spiffeX509Domain (senderAgentId env) selfAid (env.get (txt "message_id")) timestamp
    (← (env.get (txt "payload")).item (txt "pop_nonce"))

def verifyX509Svid (identity env : Members) (selfAid : JsonValue) (candidates : List Members) (now : Int) :
    PyM Unit := do
  let (leaf, issuers) ← chainOf P (identity.get (txt "x5c"))
  let anchors ← anchors P candidates
  let subject := identity.get (txt "subject")
  let (trustDomain, _) ← parseSpiffeId P subject
  let atTime ← P.fromTimestamp now
  checkLeaf leaf subject
  let key ← leafKey leaf
  checkChain P leaf issuers anchors trustDomain atTime
  let proofInput ← spiffeX509ProofInput P env selfAid
  let sig ← decodeTaggedSignatureFor P (identity.get (txt "proof")) key.alg "IDENTITY_FAILED"
  raiseIf (!verifyDigest P key (P.sha256 proofInput) sig) (fail (txt "X509-SVID proof does not verify under the leaf key"))

/-! ### The descriptor -/

/-- The candidate keys of the bundle: objects of the given use. -/
def candidateKeys (bundle : JsonValue) (use trustDomain : Text) : PyM (List Members) :=
  match bundle.members.get (txt "keys") with
  | .list keys => do
    let candidates := (keys.filter (fun k => k.isDict && (k.members.get (txt "use")).eq (.str use))).map JsonValue.members
    raiseIf candidates.isEmpty (fail (txt "the " ++ trustDomain ++ txt " bundle has no " ++ use ++ txt " keys"))
    .ok candidates
  | _ => .error (fail (txt "the " ++ trustDomain ++ txt " bundle has no keys array"))

def verifyDescriptor (identity env : Members) (selfAid store : JsonValue) (now : Int) : PyM Unit := do
  forEach (fun member => raiseIf (identity.has member)
    (fail (txt "spiffe descriptor MUST NOT carry " ++ P.reprStr member))) [txt "issuer", txt "public_key"]
  let svidType := identity.get (txt "svid_type")
  raiseIf (!svidType.hashable) (JsonValue.unhashable svidType)
  raiseWith (!svidType.isStr || !svidTypes.contains svidType.text) (do
    .ok (fail (txt "svid_type is " ++ (← describeValue P svidType) ++ txt ", not jwt-svid or x509-svid")))
  raiseIf ((svidType.text == txt "x509-svid") != identity.has (txt "x5c"))
    (fail (txt "x5c is required for an x509-svid and forbidden for a jwt-svid"))
  let (trustDomain, _) ← parseSpiffeId P (identity.get (txt "subject"))
  let bundle ← bundleFor store trustDomain
  let candidates ← candidateKeys bundle svidType.text trustDomain
  if svidType.text = txt "jwt-svid" then verifyJwtSvid P identity env selfAid candidates now
  else verifyX509Svid P identity env selfAid candidates now

/-- The name Python reports for an exception's class. -/
def kindName : ErrorKind → Text
  | .jcs => txt "JcsError"
  | .jsonDecode => txt "JSONDecodeError"
  | .unicode => txt "UnicodeEncodeError"
  | .value => txt "ValueError"
  | .type => txt "TypeError"
  | .key => txt "KeyError"
  | .attribute => txt "AttributeError"
  | .overflow => txt "OverflowError"
  | .recursion => txt "RecursionError"
  | .assertion => txt "AssertionError"
  | .os => txt "OSError"
  | .unsupportedAlgorithm => txt "UnsupportedAlgorithm"
  | .invalidSignature => txt "InvalidSignature"
  | .extensionNotFound => txt "ExtensionNotFound"
  | .invalidVersion => txt "InvalidVersion"
  | .duplicateExtension => txt "DuplicateExtension"
  | .unsupportedGeneralName => txt "UnsupportedGeneralNameType"
  | .malformedRequest => txt "MalformedRequest"
  | .katKeys => txt "KatKeysError"
  | .fixture => txt "FixtureError"

/-- The exceptions `verifySpiffe` reports as a malformed identity. -/
def malformed (kind : ErrorKind) : Bool :=
  kind.isValueError || [.type, .key, .attribute, .overflow, .unsupportedAlgorithm].contains kind

end Spiffe

variable (P : Platform)

/-- Verify a `spiffe` identity binding against the verifier's bundle store. -/
def verifySpiffe (identity env : Members) (selfAid store : JsonValue) (now : Int) : PyM Unit :=
  rescue (Spiffe.verifyDescriptor P identity env selfAid store now) (fun
    | .raised kind message =>
      if Spiffe.malformed kind then
        some (Spiffe.fail (txt "spiffe identity is malformed: " ++ Spiffe.kindName kind ++ txt ": " ++ message))
      else none
    | .aitp .. => none)

end AitpVerifier
