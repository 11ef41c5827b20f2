import AitpVerifier.Envelope

/-!
# Agent Manifest verification

Presence and types, version, grammar, member set, expiry, proof of possession,
signature. The key is the one in the Manifest's own `aid`.
-/
namespace AitpVerifier

open PyText Checked

def manifestFields : List Text :=
  [txt "version", txt "aid", txt "display_name", txt "identity_hint", txt "handshake_endpoint",
    txt "accepted_trust_anchors", txt "offered_capabilities", txt "required_peer_capabilities",
    txt "accepted_identity_types", txt "accepted_signature_algorithms", txt "proof_of_possession",
    txt "published_at", txt "expires_at", txt "extensions", txt "signature"]

def popFields : List Text := [txt "challenge", txt "signature"]

def identityHintFields : List Text := [txt "type", txt "issuer", txt "subject", txt "public_key"]

def manifestTypes : List (Text × PyType) :=
  [(txt "version", .str), (txt "aid", .str), (txt "display_name", .str), (txt "identity_hint", .dict),
    (txt "handshake_endpoint", .str), (txt "accepted_trust_anchors", .list),
    (txt "offered_capabilities", .list), (txt "required_peer_capabilities", .list),
    (txt "accepted_identity_types", .list), (txt "accepted_signature_algorithms", .list),
    (txt "proof_of_possession", .dict), (txt "published_at", .int), (txt "expires_at", .int),
    (txt "extensions", .dict), (txt "signature", .str)]

def popTypes : List (Text × PyType) := [(txt "challenge", .str), (txt "signature", .str)]

def identityHintTypes : List (Text × PyType) :=
  [(txt "type", .str), (txt "issuer", .str), (txt "subject", .str), (txt "public_key", .str)]

def requiredManifestFields : List Text :=
  [txt "version", txt "aid", txt "identity_hint", txt "handshake_endpoint", txt "accepted_trust_anchors",
    txt "offered_capabilities", txt "proof_of_possession", txt "published_at", txt "expires_at", txt "signature"]

def requiredPopFields : List Text := [txt "challenge", txt "signature"]

def requiredIdentityHintFields : List Text := [txt "type", txt "subject"]

def identityHintTypeValues : List Text := [txt "oidc", txt "pinned_key", txt "spiffe"]

def signatureAlgorithms : List Text := [txt "ed25519", txt "p256"]

/-! ### Grammars -/

/-- `[A-Za-z0-9_-]{43,44}`. -/
def publicKeyPattern : Pattern := .between 43 44 base64urlClass

/-- `[A-Za-z0-9._-]`. -/
def segmentClass : Pattern :=
  .oneOf [(0x41, 0x5A), (0x61, 0x7A), (0x30, 0x39), (0x2E, 0x2E), (0x5F, 0x5F), (0x2D, 0x2D)]

/-- `spiffe://[a-z0-9._-]{1,255}(/(…[A-Za-z0-9_-]…|\.{3,}))+`. -/
def spiffeHintSubject : Pattern :=
  .sequence [.literal (txt "spiffe://"),
    .between 1 255 (.oneOf [(0x61, 0x7A), (0x30, 0x39), (0x2E, 0x2E), (0x5F, 0x5F), (0x2D, 0x2D)]),
    .plus (.seq (.literal (txt "/")) (.alt
      (.sequence [.star segmentClass, base64urlClass, .star segmentClass])
      (.seq (.times 3 (.literal (txt "."))) (.star (.literal (txt "."))))))]

def aidPattern : Pattern :=
  .seq (.literal (txt "aid:pubkey:")) (.choice
    [.times 43 base64urlClass, .seq (.literal (txt "ed25519:")) (.times 43 base64urlClass),
      .seq (.literal (txt "p256:")) (.times 44 base64urlClass)])

def challengePattern : Pattern := .times 22 base64urlClass

/-- One or more characters outside ECMAScript white space. -/
def capabilityPattern : Pattern :=
  .plus (.noneOf [(0x09, 0x0D), (0x20, 0x20), (0xA0, 0xA0), (0x1680, 0x1680), (0x2000, 0x200A),
    (0x2028, 0x2029), (0x202F, 0x202F), (0x205F, 0x205F), (0x3000, 0x3000), (0xFEFF, 0xFEFF)])

def uriPct : Pattern :=
  .seq (.literal (txt "%")) (.times 2 (.oneOf [(0x30, 0x39), (0x41, 0x46), (0x61, 0x66)]))

/-- `A-Za-z0-9\-._~!$&'()*+,;=`, as ranges. -/
def uriSafe : List (Nat × Nat) :=
  [(0x41, 0x5A), (0x61, 0x7A), (0x30, 0x39), (0x2D, 0x2E), (0x5F, 0x5F), (0x7E, 0x7E), (0x21, 0x21),
    (0x24, 0x24), (0x26, 0x2C), (0x3B, 0x3B), (0x3D, 0x3D)]

def uriPchar : Pattern := .alt (.oneOf (uriSafe ++ [(0x3A, 0x3A), (0x40, 0x40)])) uriPct

def uriPathRest : Pattern := .star (.seq (.literal (txt "/")) (.star uriPchar))

/-- The authority form: userinfo, host, port, path. -/
def uriAuthority : Pattern :=
  .sequence [.literal (txt "//"),
    .opt (.seq (.star (.alt (.oneOf (uriSafe ++ [(0x3A, 0x3A)])) uriPct)) (.literal (txt "@"))),
    .alt
      (.sequence [.literal (txt "["),
        .group "ip_literal" (.star (.noneOf [(0x5D, 0x5D), (0x2F, 0x2F), (0x3F, 0x3F), (0x23, 0x23)])),
        .literal (txt "]")])
      (.star (.alt (.oneOf uriSafe) uriPct)),
    .opt (.seq (.literal (txt ":")) (.star (.oneOf [(0x30, 0x39)]))),
    uriPathRest]

/-- A query's or fragment's characters. -/
def uriTail : Pattern := .star (.alt uriPchar (.oneOf [(0x2F, 0x2F), (0x3F, 0x3F)]))

def uriPattern : Pattern :=
  .sequence [.oneOf [(0x41, 0x5A), (0x61, 0x7A)],
    .star (.oneOf [(0x41, 0x5A), (0x61, 0x7A), (0x30, 0x39), (0x2B, 0x2B), (0x2E, 0x2E), (0x2D, 0x2D)]),
    .literal (txt ":"),
    .choice [uriAuthority,
      .seq (.literal (txt "/")) (.opt (.seq (.plus uriPchar) uriPathRest)),
      .seq (.plus uriPchar) uriPathRest,
      .empty],
    .opt (.seq (.literal (txt "?")) uriTail),
    .opt (.seq (.literal (txt "#")) uriTail)]

def uriIpFuture : Pattern :=
  .sequence [.oneOf [(0x76, 0x76), (0x56, 0x56)], .plus (.oneOf [(0x30, 0x39), (0x41, 0x46), (0x61, 0x66)]),
    .literal (txt "."), .plus (.oneOf (uriSafe ++ [(0x3A, 0x3A)]))]

/-- One octet of a dotted quad: no leading zero, at most 255. -/
def ipv4Octet (octet : Text) : Bool :=
  !octet.isEmpty && octet.all Json.isDigit && octet.length ≤ 3 &&
    (octet == txt "0" || octet.head? != some 0x30) && Json.digitsValue octet ≤ 255

/-- `ipaddress.IPv4Address(text)` succeeds. -/
def isIpv4Address (text : Text) : Bool :=
  let octets := splitOn 0x2E text
  octets.length == 4 && octets.all ipv4Octet

def ipv6Hextet (part : Text) : Bool := part.all (fun c => (Json.hexValue? c).isSome) && part.length ≤ 4

/-- The colon-separated parts, a dotted quad at the end standing for two. -/
def ipv6Parts (text : Text) : Option (List Text) :=
  let parts := splitOn 0x3A text
  match parts.getLast? with
  | some last =>
    if last.contains 0x2E then
      if isIpv4Address last then some (parts.dropLast ++ [txt "0", txt "0"]) else none
    else some parts
  | none => none

/-- The inner positions of an empty part, where `::` stands. -/
def ipv6Skips (parts : List Text) : List Nat :=
  (List.range (parts.length - 2)).filterMap (fun i => if parts.getD (i + 1) [] = [] then some (i + 1) else none)

/-- `ipaddress.IPv6Address(text)` succeeds, for a text without `%` or `/`. -/
def isIpv6Address (text : Text) : Bool :=
  match ipv6Parts text with
  | none => false
  | some parts =>
    (splitOn 0x3A text).length ≥ 3 && parts.length ≤ 9 &&
      match ipv6Skips parts with
      | [] => parts.length == 8 && parts.all (fun part => !part.isEmpty && ipv6Hextet part)
      | [skip] =>
        let high := parts.take skip
        let low := parts.drop (skip + 1)
        -- an empty part at either end needs the `::` right beside it
        (high.head? != some [] || high.length == 1) && (low.getLast? != some [] || low.length == 1) &&
          (high.filter (· != [])).length + (low.filter (· != [])).length < 8 &&
          high.all ipv6Hextet && low.all ipv6Hextet
      | _ => false

/-- RFC 3986's `URI` rule; the pattern matches an IP literal loosely. -/
def isUri (value : Text) : Bool :=
  match uriPattern.fullMatch? value with
  | none => false
  | some groups =>
    match Pattern.captured? groups "ip_literal" with
    | none => true
    | some literal => uriIpFuture.fullMatch literal || !literal.contains 0x25 && isIpv6Address literal

/-- Each array member's item rule. -/
def arrayItemRules : List (Text × (Text → Bool)) :=
  [(txt "accepted_trust_anchors", isUri),
    (txt "offered_capabilities", capabilityPattern.fullMatch),
    (txt "required_peer_capabilities", capabilityPattern.fullMatch),
    (txt "accepted_identity_types", fun item => identityHintTypeValues.contains item),
    (txt "accepted_signature_algorithms", fun item => signatureAlgorithms.contains item)]

def manifestInvalid (message : Text) : PyErr := AitpError "MANIFEST_INVALID" (txt "manifest" ++ message)

variable (P : Platform)

/-- Presence and types for one object of a Manifest. -/
def shape (obj : JsonValue) (required : List Text) (types : List (Text × PyType)) (what : Text) : PyM Unit :=
  match obj with
  | .dict members => do
    requireMembers P members required "MANIFEST_INVALID" what
    checkTypes members types "MANIFEST_INVALID" what
  | _ => .error (AitpError "MANIFEST_INVALID" (what ++ txt " is " ++ obj.typeName ++ txt ", not an object"))

/-- One item of an array member: a string inside the member's grammar. -/
def checkArrayItem (member : Text) (valid : Text → Bool) (item : JsonValue) : PyM Unit :=
  match item with
  | .str s => raiseWith (!valid s) (do
      .ok (manifestInvalid (txt "." ++ member ++ txt " has an item outside its grammar: " ++
        (← describeValue P item))))
  | _ => .error (manifestInvalid (txt "." ++ member ++ txt " has an item of type " ++ item.typeName ++
      txt ", not str"))

/-- One array member: its items, then their uniqueness. -/
def checkArray (man : Members) (rule : Text × (Text → Bool)) : PyM Unit := do
  let items := (man.get rule.1).items
  forEach (checkArrayItem P rule.1 rule.2) items
  raiseIf (!decide (items.map JsonValue.text).Nodup) (manifestInvalid (txt "." ++ rule.1 ++ txt " has duplicate items"))

/-- Each body member's pattern, format, bound and uniqueness. -/
def validateGrammar (man : Members) : PyM Unit := do
  raiseIf (!aidPattern.fullMatch (man.get (txt "aid")).text)
    (manifestInvalid (txt ".aid does not match the required pattern"))
  raiseIf (decide (128 < (man.get (txt "display_name")).text.length))
    (manifestInvalid (txt ".display_name exceeds 128 characters"))
  let endpoint := (man.get (txt "handshake_endpoint")).text
  raiseIf (!(txt "https://").isPrefixOf endpoint || !isUri endpoint)
    (manifestInvalid (txt ".handshake_endpoint is not an https:// URI"))
  forEach (checkArray P man) arrayItemRules
  raiseIf ((man.get (txt "published_at")).ltInt 0) (manifestInvalid (txt ".published_at is below its minimum of 0"))
  raiseIf ((man.get (txt "expires_at")).ltInt 1) (manifestInvalid (txt ".expires_at is below its minimum of 1"))
  let pop := (man.get (txt "proof_of_possession")).members
  raiseIf (!challengePattern.fullMatch (pop.get (txt "challenge")).text)
    (manifestInvalid (txt ".proof_of_possession.challenge is not 22 base64url characters"))
  raiseIf (!signaturePattern.fullMatch (pop.get (txt "signature")).text)
    (manifestInvalid (txt ".proof_of_possession.signature does not match the required pattern"))
  raiseIf (!signaturePattern.fullMatch (man.get (txt "signature")).text)
    (manifestInvalid (txt ".signature does not match the required pattern"))

/-- The members a hint of the given type must and must not carry. -/
def checkHintMembers (hint : Members) : PyM Unit :=
  let hintType := (hint.get (txt "type")).text
  let subject := (hint.get (txt "subject")).text
  if hintType = txt "oidc" then do
    raiseIf (!hint.has (txt "issuer")) (manifestInvalid
      (txt ".identity_hint is missing required member(s) ['issuer'] (required when type is 'oidc')"))
    raiseIf (hint.has (txt "public_key"))
      (manifestInvalid (txt ".identity_hint.public_key is forbidden when type is 'oidc'"))
  else if hintType = txt "spiffe" then do
    forEach (fun member => raiseIf (hint.has member)
      (manifestInvalid (txt ".identity_hint." ++ member ++ txt " is forbidden when type is 'spiffe'")))
      [txt "issuer", txt "public_key"]
    raiseIf (decide (2048 < subject.length) || !spiffeHintSubject.fullMatch subject)
      (manifestInvalid (txt ".identity_hint.subject is not a SPIFFE ID"))
  else raiseIf (!hint.has (txt "public_key")) (manifestInvalid
    (txt ".identity_hint is missing required member(s) ['public_key'] (required when type is 'pinned_key')"))

/-- The hint's enum, pattern and conditional requirements. -/
def validateIdentityHint (hint : Members) : PyM Unit := do
  let hintType := (hint.get (txt "type")).text
  raiseIf (!identityHintTypeValues.contains hintType) (manifestInvalid (txt ".identity_hint.type is " ++
    P.reprStr hintType ++ txt ", not one of " ++ reprSorted P identityHintTypeValues))
  raiseIf (hint.get (txt "subject")).text.isEmpty (manifestInvalid (txt ".identity_hint.subject is empty"))
  raiseIf (hint.has (txt "issuer") && !isUri (hint.get (txt "issuer")).text)
    (manifestInvalid (txt ".identity_hint.issuer is not a URI"))
  checkHintMembers hint
  raiseIf (hint.has (txt "public_key") && !publicKeyPattern.fullMatch (hint.get (txt "public_key")).text)
    (manifestInvalid (txt ".identity_hint.public_key does not match the required pattern"))

/-- The structural steps: presence, types, version, grammar, member set. -/
def checkManifestStructure (man : JsonValue) (supported : JsonValue) : PyM Unit := do
  let body := man.members
  let known ← (body.get (txt "version")).inContainer supported
  raiseWith (!known) (do
    .ok (AitpError "MANIFEST_VERSION_UNKNOWN" (txt "unsupported version " ++ (← P.repr (body.get (txt "version"))))))
  validateGrammar P body
  validateIdentityHint P (body.get (txt "identity_hint")).members
  rejectUnknownFields P man manifestFields "MANIFEST_INVALID" (txt "manifest")
  rejectUnknownFields P (body.get (txt "proof_of_possession")) popFields "MANIFEST_INVALID"
    (txt "manifest.proof_of_possession")
  rejectUnknownFields P (body.get (txt "identity_hint")) identityHintFields "MANIFEST_INVALID"
    (txt "manifest.identity_hint")

/-- The cryptographic steps: proof of possession, then the body's signature. -/
def checkManifestSignatures (body : Members) (aid : Aid) : PyM Unit := do
  let pop := (body.get (txt "proof_of_possession")).members
  let popSig ← decodeTaggedSignature P (pop.get (txt "signature")) aid "MANIFEST_POP_FAILED"
  let challenge ← b64urlDecode (pop.get (txt "challenge")).text
  raiseIf (!verifyDigest P aid.publicKey (P.sha256 challenge) popSig)
    (AitpError "MANIFEST_POP_FAILED" (txt "proof-of-possession signature invalid"))
  let manSig ← decodeTaggedSignature P (body.get (txt "signature")) aid "MANIFEST_SIGNATURE_INVALID"
  let bytes ← canonicalBytes (.dict (body.without (txt "signature"))) "MANIFEST_INVALID" (txt "manifest")
  raiseIf (!verifyDigest P aid.publicKey (P.sha256 bytes) manSig)
    (AitpError "MANIFEST_SIGNATURE_INVALID" (txt "manifest signature invalid"))

def verifyManifest (inp : Members) (now : Int) : PyM Members := do
  let man ← inp.index (txt "manifest")
  let body := man.members
  shape P man requiredManifestFields manifestTypes (txt "manifest")
  shape P (body.get (txt "proof_of_possession")) requiredPopFields popTypes (txt "manifest.proof_of_possession")
  shape P (body.get (txt "identity_hint")) requiredIdentityHintFields identityHintTypes (txt "manifest.identity_hint")
  let now ← P.toInt ((inp.get? (txt "now")).getD (.int now))
  let supported := (inp.get? (txt "supported_versions")).getD (.list [.str protocolVersion])
  checkManifestStructure P man supported
  let expiresAt ← P.toInt (body.get (txt "expires_at"))
  raiseIf (decide (expiresAt ≤ now)) (AitpError "MANIFEST_EXPIRED" (txt "manifest expires_at is in the past"))
  let aid ← onValueError (parseAid P (body.get (txt "aid")).text) "MANIFEST_INVALID"
    (txt "manifest aid is not a valid AID: " ++ ·)
  checkManifestSignatures P body aid
  .ok [(txt "aid", body.get (txt "aid"))]

/-! ### Resolving a key from the caller's Manifests -/

def keyResolutionFailed (message : Text) : PyErr := .aitp "KEY_RESOLUTION_FAILED" message true

/-- The candidate Manifests: a lone value is a list of one. -/
def manifestCandidates (manifests : JsonValue) : List JsonValue :=
  match manifests with
  | .list items => items
  | _ => [manifests]

/-- Whether a candidate is an object that names `aid`. -/
def namesAid (aid : Text) (man : JsonValue) : Bool :=
  match man with
  | .dict members => (Members.get members (txt "aid")).eq (.str aid)
  | _ => false

/-- The first Manifest that names `aid`, which must itself verify. -/
def resolveManifest (aid : Text) (manifests : JsonValue) (now : Int) : PyM (Aid × Members) :=
  match (manifestCandidates manifests).find? (namesAid aid) with
  | none => .error (keyResolutionFailed (txt "no supplied Manifest designates a key for " ++ aid))
  | some man =>
    rescue (do
      let _ ← verifyManifest P [(txt "manifest", man), (txt "now", .int now)] now
      let key ← parseAid P aid
      .ok (key, man.members))
      (fun e =>
        if e.code?.isSome || e.isValueError then
          some (keyResolutionFailed (txt "Manifest for " ++ aid ++ txt " does not verify: " ++ e.text))
        else none)

/-- `resolveManifest` for a caller that needs only the key. -/
def resolveKeyFromManifests (aid : Text) (manifests : JsonValue) (now : Int) : PyM Aid := do
  let (key, _) ← resolveManifest P aid manifests now
  .ok key

/-! ### What acceptance establishes -/

/-- Membership in a list of one string. -/
theorem inContainer_singleton {value : JsonValue} {s : Text} :
    value.inContainer (.list [.str s]) = .ok true ↔ value = .str s := by
  simp [JsonValue.inContainer, JsonValue.isIn]

/-- Under the default versions an accepted Manifest declares the protocol's. -/
theorem verifyManifest_version {inp : Members} {m : JsonValue} {now : Int} {r : Members}
    (hman : inp.get? (txt "manifest") = some m) (hdefault : inp.get? (txt "supported_versions") = none)
    (h : verifyManifest P inp now = .ok r) : m.members.get (txt "version") = .str protocolVersion := by
  simp only [verifyManifest, checkManifestStructure, bind_eq_ok, exists_unit, Members.index_eq_ok, hman,
    Option.some.injEq, exists_eq_left', hdefault, Option.getD_none, raiseWith_eq_ok, Bool.not_eq_false'] at h
  obtain ⟨_, _, _, _, _, ⟨known, hknown, rfl, _⟩, _⟩ := h
  exact inContainer_singleton.mp hknown

theorem shape_eq_ok {obj : JsonValue} {required : List Text} {types : List (Text × PyType)} {what : Text} :
    shape P obj required types what = .ok () ↔ ∃ members : Members, obj = .dict members ∧ Shaped members required types := by
  cases obj with
  | dict members =>
    simp only [shape, bind_eq_ok, exists_unit, requireMembers_eq_ok, checkTypes_eq_ok, JsonValue.dict.injEq,
      exists_eq_left']
    exact ⟨fun h => ⟨h.1, h.2⟩, fun h => ⟨h.1, h.2⟩⟩
  | _ => simp [shape]

/-- The challenge of a Manifest is signed by the key its `aid` designates. -/
def PossessionProven (body : Members) (aid : Aid) : Prop :=
  ∃ challenge, b64urlDecode ((body.get (txt "proof_of_possession")).members.get (txt "challenge")).text = .ok challenge ∧
    FieldVerifies P aid ((body.get (txt "proof_of_possession")).members.get (txt "signature")) (P.sha256 challenge)

theorem checkManifestSignatures_eq_ok {body : Members} {aid : Aid} :
    checkManifestSignatures P body aid = .ok () ↔ PossessionProven P body aid ∧ BodySigned P body aid := by
  simp only [checkManifestSignatures, decodeTaggedSignature, bind_eq_ok, exists_unit, decodeTaggedSignatureFor_eq_ok,
    canonicalBytes_eq_ok, raiseIf_eq_ok, Bool.not_eq_false', PossessionProven, BodySigned, FieldVerifies]
  constructor
  · rintro ⟨popRaw, hp, challenge, hc, hpv, raw, hr, octets, ho, hv⟩
    exact ⟨⟨challenge, hc, popRaw, hp, hpv⟩, octets, ho, raw, hr, hv⟩
  · rintro ⟨⟨challenge, hc, popRaw, hp, hpv⟩, octets, ho, raw, hr, hv⟩
    exact ⟨popRaw, hp, challenge, hc, hpv, raw, hr, octets, ho, hv⟩

/-- What an accepted Manifest satisfies, in the order of the checks. -/
structure ManifestAccepted (inp : Members) (now : Int) (body : Members) (aid : Aid) : Prop where
  shaped : Shaped body requiredManifestFields manifestTypes
  popShaped : Shaped (body.get (txt "proof_of_possession")).members requiredPopFields popTypes
  hintShaped : Shaped (body.get (txt "identity_hint")).members requiredIdentityHintFields identityHintTypes
  version : (body.get (txt "version")).inContainer
    ((inp.get? (txt "supported_versions")).getD (.list [.str protocolVersion])) = .ok true
  grammar : validateGrammar P body = .ok ()
  hint : validateIdentityHint P (body.get (txt "identity_hint")).members = .ok ()
  known : ∀ key ∈ body.names, key ∈ manifestFields
  popKnown : ∀ key ∈ (body.get (txt "proof_of_possession")).members.names, key ∈ popFields
  hintKnown : ∀ key ∈ (body.get (txt "identity_hint")).members.names, key ∈ identityHintFields
  live : ∃ clock, P.toInt ((inp.get? (txt "now")).getD (.int now)) = .ok clock ∧
    clock < (body.get (txt "expires_at")).intValue
  key : parseAid P (body.get (txt "aid")).text = .ok aid
  possession : PossessionProven P body aid
  signed : BodySigned P body aid

theorem ManifestAccepted.expiresAt {inp : Members} {now : Int} {body : Members} {aid : Aid}
    (h : ManifestAccepted P inp now body aid) : (body.get (txt "expires_at")).admits .int :=
  h.shaped.admits (by simp [requiredManifestFields]) (by simp [manifestTypes])

theorem verifyManifest_eq_ok {inp : Members} {now : Int} {r : Members} :
    verifyManifest P inp now = .ok r ↔
      ∃ (body : Members) (aid : Aid), inp.get? (txt "manifest") = some (.dict body) ∧
        ManifestAccepted P inp now body aid ∧ [(txt "aid", body.get (txt "aid"))] = r := by
  have hmember (body : Members) (hs : Shaped body requiredManifestFields manifestTypes) {key : Text}
      (hr : key ∈ requiredManifestFields) (ht : (key, .dict) ∈ manifestTypes) :
      ∃ members : Members, body.get key = .dict members := hs.dict hr ht
  simp only [verifyManifest, checkManifestStructure, bind_eq_ok, exists_unit, Members.index_eq_ok, shape_eq_ok,
    rejectUnknownFields_eq_ok, raiseWith_eq_ok, raiseIf_eq_ok, onValueError_eq_ok, checkManifestSignatures_eq_ok,
    Bool.not_eq_false', decide_eq_false_iff_not, not_le, Except.ok.injEq]
  constructor
  · rintro ⟨_, hman, ⟨body, rfl, hs⟩, ⟨pop, hpop, hps⟩, ⟨hint, hhint, hhs⟩, clock, hclock,
      ⟨known, hv, rfl, hg, hi, ⟨_, hbody, hk⟩, ⟨_, hpop', hpk⟩, ⟨_, hhint', hhk⟩⟩, exp, hexp, hlive, aid, ha,
      ⟨hpossession, hsigned⟩, rfl⟩
    simp only [JsonValue.members] at hpop hpop' hhint hhint' hv hg hi ha hpossession hsigned hexp
    obtain rfl := JsonValue.dict.inj hbody
    obtain rfl := JsonValue.dict.inj (hpop.symm.trans hpop')
    obtain rfl := JsonValue.dict.inj (hhint.symm.trans hhint')
    rw [toInt_of_admits P (hs.admits (by simp [requiredManifestFields]) (by simp [manifestTypes])),
      Except.ok.injEq] at hexp
    subst hexp
    exact ⟨body, aid, hman, ⟨hs, by rwa [hpop], by rwa [hhint], hv, hg, hi, hk, by rwa [hpop], by rwa [hhint],
      ⟨clock, hclock, hlive⟩, ha, hpossession, hsigned⟩, rfl⟩
  · rintro ⟨body, aid, hman, ⟨hs, hps, hhs, hv, hg, hi, hk, hpk, hhk, ⟨clock, hclock, hlive⟩, ha, hpossession, hsigned⟩,
      rfl⟩
    obtain ⟨pop, hpop⟩ := hmember body hs
      (by simp [requiredManifestFields] : txt "proof_of_possession" ∈ requiredManifestFields) (by simp [manifestTypes])
    obtain ⟨hint, hhint⟩ := hmember body hs
      (by simp [requiredManifestFields] : txt "identity_hint" ∈ requiredManifestFields) (by simp [manifestTypes])
    have hexp := toInt_of_admits P (hs.admits (k := txt "expires_at") (by simp [requiredManifestFields])
      (by simp [manifestTypes]))
    rw [hpop] at hps hpk
    rw [hhint] at hhs hhk
    exact ⟨.dict body, hman, ⟨body, rfl, hs⟩, ⟨pop, hpop, hps⟩, ⟨hint, hhint, hhs⟩, clock, hclock,
      ⟨true, hv, rfl, hg, hi, ⟨body, rfl, hk⟩, ⟨pop, hpop, hpk⟩, ⟨hint, hhint, hhk⟩⟩, _, hexp, hlive, aid, ha,
      ⟨hpossession, hsigned⟩, rfl⟩

/-- A key resolved from the caller's Manifests came with one that verified. -/
theorem resolveManifest_eq_ok {aid : Text} {manifests : JsonValue} {now : Int} {key : Aid} {man : Members}
    (h : resolveManifest P aid manifests now = .ok (key, man)) :
    (manifestCandidates manifests).find? (namesAid aid) = some (.dict man) ∧
      (∃ r, verifyManifest P [(txt "manifest", .dict man), (txt "now", .int now)] now = .ok r) ∧
      parseAid P aid = .ok key := by
  unfold resolveManifest at h
  cases hf : (manifestCandidates manifests).find? (namesAid aid) with
  | none => simp [hf] at h
  | some found =>
    simp only [hf, rescue_eq_ok, bind_eq_ok, Except.ok.injEq, Prod.mk.injEq] at h
    obtain ⟨r, hv, parsed, hk, rfl, rfl⟩ := h
    have hnames : namesAid aid found = true := List.find?_some hf
    cases found with
    | dict members => exact ⟨rfl, ⟨r, hv⟩, hk⟩
    | _ => simp [namesAid] at hnames

/-- A resolved Manifest is one that was accepted, under the key it was resolved for. -/
theorem resolveManifest_accepted {aid : Text} {manifests : JsonValue} {now : Int} {key : Aid} {man : Members}
    (h : resolveManifest P aid manifests now = .ok (key, man)) :
    man.get (txt "aid") = .str aid ∧
      ManifestAccepted P [(txt "manifest", .dict man), (txt "now", .int now)] now man key := by
  obtain ⟨hfind, ⟨r, hv⟩, hkey⟩ := resolveManifest_eq_ok P h
  have hnames : namesAid aid (.dict man) = true := List.find?_some hfind
  simp only [namesAid, JsonValue.eq_str] at hnames
  obtain ⟨body, own, hman, ha, _⟩ := (verifyManifest_eq_ok P).mp hv
  obtain rfl : man = body := JsonValue.dict.inj (Option.some.inj hman)
  have hown := ha.key
  rw [hnames, JsonValue.text, hkey] at hown
  obtain rfl := Except.ok.inj hown
  exact ⟨hnames, ha⟩

/-- A resolved Manifest has an expiry. -/
theorem resolveManifest_cap {aid : Text} {manifests : JsonValue} {now : Int} {key : Aid} {man : Members}
    (h : resolveManifest P aid manifests now = .ok (key, man)) :
    ∃ value, man.get? (txt "expires_at") = some value ∧ value.admits .int := by
  obtain ⟨_, ha⟩ := resolveManifest_accepted P h
  exact ⟨_, Members.get?_of_has (ha.shaped.present (txt "expires_at") (by simp [requiredManifestFields])), ha.expiresAt⟩

end AitpVerifier
