import AitpVerifier.Identity
import AitpVerifier.Revocation

/-!
# Trust Context Tokens

Parse, `typ`, claims shape, pinned `alg`, signature, semantic claims, Manifest
cap, and revocation strictly last. The issuer side and the self-attestation
share the token checks and differ in what `sub` and `aud` must be.
-/
namespace AitpVerifier

open PyText Checked

def tctClaimFields : List Text :=
  [txt "ver", txt "jti", txt "iss", txt "sub", txt "aud", txt "iat", txt "exp", txt "grants", txt "cnf", txt "ext"]

def tctCnfFields : List Text := [txt "jkt"]

def tctRequiredClaims : List Text :=
  [txt "ver", txt "jti", txt "iss", txt "sub", txt "aud", txt "iat", txt "exp", txt "grants", txt "cnf"]

def tctClaimTypes : List (Text × PyType) :=
  [(txt "ver", .str), (txt "jti", .str), (txt "iss", .str), (txt "sub", .str), (txt "aud", .str),
    (txt "iat", .int), (txt "exp", .int), (txt "grants", .list), (txt "cnf", .dict)]

def lowerHex : Pattern := .oneOf [(0x30, 0x39), (0x61, 0x66)]

/-- Lowercase, hyphenated, version nibble 4, variant 10. -/
def jtiV4 : Pattern :=
  .sequence [.times 8 lowerHex, .literal (txt "-"), .times 4 lowerHex, .literal (txt "-4"), .times 3 lowerHex,
    .literal (txt "-"), .oneOf [(0x38, 0x39), (0x61, 0x62)], .times 3 lowerHex, .literal (txt "-"),
    .times 12 lowerHex]

def attestationMarker : Text := txt "aitp.attestation"

def tctErrors : JwsErrors := ⟨"TOKEN_TYP_MISMATCH", "TOKEN_ALG_MISMATCH", "TCT_SIGNATURE_INVALID"⟩

def tctTyp : Text := txt "aitp-tct+jwt"

def tctInvalid (message : Text) : PyErr := AitpError "TCT_SIGNATURE_INVALID" message

variable (P : Platform)

/-- The claims-membership check of a token, in the caller's structural code. -/
def checkTctClaimsShape (claims : Members) (shapeCode : String) : PyM Unit := do
  requireMembers P claims tctRequiredClaims shapeCode (txt "TCT claims")
  checkTypes claims tctClaimTypes shapeCode (txt "TCT claims")
  raiseIf (!(claims.get (txt "grants")).items.all JsonValue.isStr)
    (AitpError shapeCode (txt "TCT claims.grants must be an array of strings"))
  rejectUnknownFields P (.dict claims) tctClaimFields shapeCode (txt "TCT claims")
  rejectUnknownFields P (claims.get (txt "cnf")) tctCnfFields shapeCode (txt "TCT claims.cnf")
  raiseIf (!jtiV4.fullMatch (claims.get (txt "jti")).text)
    (AitpError shapeCode (txt "TCT claims.jti is not a lowercase UUID v4 (RFC-AITP-0005 §2.2)"))

/-- A capability grant is not self-issued and carries no attestation marker. -/
def checkGrantContext (claims : Members) : PyM Unit := do
  raiseIf ((claims.get (txt "iss")).eq (claims.get (txt "sub")))
    (tctInvalid (txt "self-issued TCT (iss == sub) in a grant context"))
  raiseIf ((JsonValue.str attestationMarker).isIn (claims.get (txt "grants")).items)
    (tctInvalid (txt "TCT carries the aitp.attestation marker in a grant context"))

/-- A token whose issuer is `iss`, through shape, `alg` and signature. -/
def verifyTctJws (token : JsonValue) (iss : Text) (afterTypCheck : Members → PyM Unit) : PyM Members :=
  verifyJws P token iss tctTyp tctErrors afterTypCheck

def checkVer (claims : Members) : PyM Unit :=
  raiseWith (!(claims.get (txt "ver")).eq (.str protocolVersion)) (do
    .ok (AitpError "UNKNOWN_VERSION" (txt "unknown ver " ++ (← P.repr (claims.get (txt "ver"))))))

/-- `int(claims["exp"])` lies ahead of the clock. -/
def checkExp (claims : Members) (now : Int) (expired : PyErr) : PyM Unit := do
  let exp ← P.toInt (claims.get (txt "exp"))
  raiseIf (decide (exp ≤ now)) expired

/-- `cnf.jkt` is the thumbprint of the key in `sub`. -/
def checkCnf (claims : Members) (sub : Aid) (mismatch : PyErr) : PyM Unit :=
  raiseIf (!((claims.get (txt "cnf")).members.get (txt "jkt")).eq (.str (thumbprint P sub))) mismatch

/-- The key in `sub`, whose grammar defect is the token's. -/
def parseSub (claims : Members) : PyM Aid :=
  onValueError (parseAid P (claims.get (txt "sub")).text) "TCT_SIGNATURE_INVALID"
    (txt "TCT claims.sub is not a valid AID: " ++ ·)

/-- A token must not outlive its issuer's Manifest; equal is within the bound. -/
def outlivesManifest (claims : Members) (manifest : JsonValue) : PyM Bool := do
  let exp ← P.toInt (claims.get (txt "exp"))
  let expiresAt ← P.toInt (← manifest.item (txt "expires_at"))
  .ok (decide (expiresAt < exp))

/-- The Manifest cap, when a Manifest is supplied. -/
def checkManifestCap (claims inp : Members) (what : Text) : PyM Unit :=
  match inp.get (txt "issuer_manifest") with
  | .null => .ok ()
  | manifest => do
    let outlives ← outlivesManifest P claims manifest
    raiseIf outlives (AitpError "TCT_EXPIRES_AFTER_MANIFEST" (what ++ txt " outlives the issuer Manifest"))

/-! ### Revocation -/

def tctAbsence (mode : FailMode) (detail : Text) : PyM Unit :=
  raiseIf (mode == .failClosed) (AitpError "TCT_REVOKED"
    (txt "no trusted, applicable revocation snapshot for this TCT (" ++ detail ++
      txt "); fail_closed treats unknown revocation status as revoked"))

/-- A trusted snapshot against a token: its issuer, its freshness, its entries. -/
def checkTrustedSnapshot (claims inp body : Members) (now : Int) : PyM Unit :=
  if !(body.get (txt "issuer")).eq (claims.get (txt "iss")) then
    tctAbsence (policyFailMode inp) (txt "the supplied snapshot is signed by a different issuer")
  else do
    let stale ← snapshotIsStale P body (policyOf inp) now
    if stale then tctAbsence (policyFailMode inp) (txt "the supplied snapshot is expired or stale")
    else
      raiseIf (lists body (claims.get (txt "jti")))
        (AitpError "TCT_REVOKED" (txt "TCT jti is on the issuer revocation snapshot"))

/-- A discarded snapshot is an absent one. -/
def checkRevocation (claims inp : Members) (now : Int) : PyM Unit :=
  match inp.get (txt "issuer_revocation_list") with
  | .dict revlist =>
    match verifySnapshotTrust P (Members.get revlist (txt "snapshot")) with
    | .ok body => checkTrustedSnapshot P claims inp body now
    | .error (.aitp code _ _) =>
      tctAbsence (policyFailMode inp) (txt "the supplied snapshot was discarded (" ++ txt code ++ txt ")")
    | .error e => .error e
  | _ => tctAbsence (policyFailMode inp) (txt "no revocation source for the issuer")

/-! ### The relying party -/

/-- The semantic claims of a capability token, up to the audience's own check. -/
def checkGrantClaims (claims : Members) (now : Int) : PyM Unit := do
  checkExp P claims now (AitpError "TCT_EXPIRED" (txt "TCT exp is in the past"))
  checkGrantContext claims
  let sub ← parseSub P claims
  checkCnf P claims sub (AitpError "TCT_CNF_MISMATCH" (txt "cnf.jkt does not bind the subject key"))

def verifyTct (inp : Members) (now : Int) : PyM Members := do
  let token ← inp.index (txt "tct_token")
  let peeked ← peekClaims P token "TCT_SIGNATURE_INVALID"
  let iss ← P.toStr (peeked.get (txt "iss"))
  let claims ← verifyTctJws P token iss (fun c => checkTctClaimsShape P c "TCT_SIGNATURE_INVALID")
  checkVer P claims
  let expectedAud := inp.get (txt "expected_audience")
  raiseIf (!expectedAud.isNull && !(claims.get (txt "aud")).eq expectedAud)
    (AitpError "AUDIENCE_MISMATCH" (txt "TCT aud does not match verifier AID"))
  checkGrantClaims P claims now
  checkManifestCap P claims inp (txt "TCT")
  checkRevocation P claims inp now
  .ok [(txt "grants", claims.get (txt "grants"))]

/-! ### The issuer side -/

def popInvalid (message : Text) : PyErr := AitpError "POP_RESPONSE_INVALID" message

/-- The outstanding challenges a response may answer. -/
def matchingChallenges (challenges : List JsonValue) (jti nonce : JsonValue) : List JsonValue :=
  challenges.filter (fun c => c.isDict && (c.members.get (txt "tct_jti")).eq jti && (c.members.get (txt "nonce")).eq nonce)

/-- The response envelope and its sender. -/
def popEnvelope (inp : Members) : PyM (Members × Aid) :=
  rescue (do
    let env ← validateEnvelopeShape P (inp.get (txt "envelope"))
    let sender ← parseAid P (senderAgentId env).text
    .ok (env, sender))
    (fun e => if e.code?.isSome || e.isValueError then
        some (popInvalid (txt "pop_response envelope is malformed: " ++ e.text)) else none)

/-- The challenge's nonce, from the first match, while it is live. -/
def challengeNonce (inp payload : Members) (jti : JsonValue) (now : Int) : PyM Bytes := do
  let outstanding := inp.get (txt "outstanding_pop_challenges")
  let challenges ← if outstanding.truthy then outstanding.elements else .ok []
  match matchingChallenges challenges jti (payload.get (txt "nonce_echo")) with
  | [] => .error (popInvalid (txt "nonce_echo matches no outstanding challenge for this jti"))
  | challenge :: _ => do
    raiseIf (!Spiffe.futureExp (challenge.members.get (txt "expires_at")) now)
      (AitpError "POP_CHALLENGE_INVALID" (txt "the challenge is expired or malformed"))
    onValueError (challenge.members.get (txt "nonce")).b64urlDecode "POP_CHALLENGE_INVALID"
      (txt "challenge nonce is not base64url: " ++ ·)

/-- The presenter a `pop_response` establishes: only `sub` can answer. A caller may
hand over claims nothing has checked. -/
def presenterFromPop (inp claims : Members) (now : Int) : PyM Text := do
  let (env, sender) ← popEnvelope P inp
  let payload := (env.get (txt "payload")).members
  raiseIf (!(env.get (txt "message_type")).eq (.str (txt "pop_response")) ||
      !([txt "tct_jti", txt "nonce_echo", txt "pop_signature"].all (fun k => (payload.get k).isStr)))
    (popInvalid (txt "not a pop_response with tct_jti, nonce_echo and pop_signature"))
  verifyEnvelopeSignature P env sender "POP_RESPONSE_INVALID" (txt "pop_response envelope signature invalid")
  let jti ← claims.index (txt "jti")
  raiseIf (!(payload.get (txt "tct_jti")).eq jti) (popInvalid (txt "pop_response names a different tct_jti"))
  let nonce ← challengeNonce inp payload jti now
  let sub ← claims.index (txt "sub")
  let subAid ← parseAid P (← sub.asText (txt "startswith"))
  let sig ← decodeTaggedSignature P (payload.get (txt "pop_signature")) subAid "POP_RESPONSE_INVALID"
  raiseIf (!verifyDigest P subAid.publicKey (P.sha256 nonce) sig)
    (popInvalid (txt "pop_signature does not verify under the sub key"))
  P.toStr sub

/-- The presenter's authenticated source: proof of possession or a channel binding. -/
def presenterOf (inp claims : Members) (now : Int) : PyM JsonValue :=
  if !(inp.get (txt "envelope")).isNull then do
    let presenter ← presenterFromPop P inp claims now
    .ok (.str presenter)
  else if !(inp.get (txt "channel_bound_aid")).isNull then .ok (inp.get (txt "channel_bound_aid"))
  else .error (popInvalid (txt "no downstream PoP and no channel binding for the presenter"))

/-- A token presented back to the peer that issued it. -/
def verifyTctAsIssuer (inp : Members) (now : Int) : PyM Members := do
  let token ← inp.index (txt "tct_token")
  let selfAid ← inp.index (txt "self_aid")
  let peeked ← peekClaims P token "TCT_SIGNATURE_INVALID"
  raiseIf (!(peeked.get (txt "iss")).eq selfAid)
    (tctInvalid (txt "issuer-side verification of a TCT this verifier did not issue"))
  let iss ← P.toStr selfAid
  let claims ← verifyTctJws P token iss (fun c => checkTctClaimsShape P c "TCT_SIGNATURE_INVALID")
  checkVer P claims
  raiseIf (!(claims.get (txt "aud")).eq (claims.get (txt "sub"))) (tctInvalid (txt "issuer-side TCT whose aud != sub"))
  checkGrantClaims P claims now
  let presenter ← presenterOf P inp claims now
  raiseIf (!presenter.eq (claims.get (txt "sub"))) (popInvalid (txt "presenter AID is not the TCT sub"))
  checkRevocation P claims inp now
  .ok [(txt "presenter_aid", presenter), (txt "grants", claims.get (txt "grants"))]

/-! ### Self-attestation -/

/-- Shape, then an issuer key the relying party records as trusted. -/
def attestationPreSignature (trustStore : JsonValue) (claims : Members) : PyM Unit := do
  checkTctClaimsShape P claims "TCT_SIGNATURE_INVALID"
  let entries ← if trustStore.truthy then trustStore.elements else .ok []
  let trusted := entries.filterMap (trustStoreEntry P)
  let issuer := trustStoreEntry P (claims.get (txt "iss"))
  raiseIf (!(issuer.any (fun key => trusted.contains key))) (tctInvalid (txt "attestation issuer is not in trust_store"))

/-- The shape of a self-attestation's claims. -/
def checkAttestationClaims (claims : Members) : PyM Unit := do
  raiseIf (!((claims.get (txt "iss")).eq (claims.get (txt "sub")) && (claims.get (txt "sub")).eq (claims.get (txt "aud"))))
    (tctInvalid (txt "attestation is not iss == sub == aud"))
  raiseIf (!(claims.get (txt "grants")).eq (.list [.str attestationMarker]))
    (tctInvalid (txt "attestation grants must be exactly ['aitp.attestation']"))
  let sub ← parseAid P (claims.get (txt "sub")).text
  checkCnf P claims sub (tctInvalid (txt "attestation cnf.jkt does not bind the issuer key"))

/-- The statement under the expected extension key. -/
def attestationStatement (claims : Members) (statementKey : JsonValue) : PyM JsonValue := do
  let ext := claims.get (txt "ext")
  let present ← if ext.isDict then statementKey.inContainer ext else .ok false
  raiseWith (!present) (do
    .ok (tctInvalid (txt "attestation ext lacks " ++ (← P.repr statementKey))))
  .ok (ext.members.get statementKey.text)

def verifyAttestation (inp : Members) (now : Int) : PyM Members := do
  let token ← inp.index (txt "tct_token")
  let statementKey ← inp.index (txt "expected_ext_key")
  let waived := match inp.get (txt "waive_manifest_cap") with
    | .bool true => true
    | _ => false
  raiseIf ((inp.get (txt "issuer_manifest")).isNull && !waived) (valueError
    (txt "verify_attestation: pass issuer_manifest or waive_manifest_cap; the Manifest-cap decision is mandatory"))
  let peeked ← peekClaims P token "TCT_SIGNATURE_INVALID"
  let iss ← P.toStr (peeked.get (txt "iss"))
  let claims ← verifyTctJws P token iss (attestationPreSignature P (inp.get (txt "trust_store")))
  checkVer P claims
  checkExp P claims now (AitpError "TCT_EXPIRED" (txt "attestation exp is in the past"))
  checkAttestationClaims P claims
  let statement ← attestationStatement P claims statementKey
  checkManifestCap P claims inp (txt "attestation")
  checkRevocation P claims inp now
  .ok [(txt "statement", statement)]

/-! ### What acceptance establishes -/

/-- The structural rules of a token's claims. -/
structure TctShape (claims : Members) : Prop where
  shaped : Shaped claims tctRequiredClaims tctClaimTypes
  grants : (claims.get (txt "grants")).items.all JsonValue.isStr
  known : ∀ key ∈ claims.names, key ∈ tctClaimFields
  cnfKnown : ∀ key ∈ (claims.get (txt "cnf")).members.names, key ∈ tctCnfFields
  jti : jtiV4.fullMatch (claims.get (txt "jti")).text

theorem checkTctClaimsShape_eq_ok {claims : Members} {shapeCode : String} :
    checkTctClaimsShape P claims shapeCode = .ok () ↔ TctShape claims := by
  simp only [checkTctClaimsShape, bind_eq_ok, exists_unit, raiseIf_eq_ok, requireMembers_eq_ok, checkTypes_eq_ok,
    rejectUnknownFields_eq_ok, JsonValue.dict.injEq, exists_eq_left', Bool.not_eq_false']
  constructor
  · rintro ⟨hr, ht, hg, hk, ⟨cnf, hc, hck⟩, hj⟩
    exact ⟨⟨hr, ht⟩, hg, hk, by simpa only [hc, JsonValue.members] using hck, hj⟩
  · rintro ⟨⟨hr, ht⟩, hg, hk, hck, hj⟩
    obtain ⟨cnf, hc⟩ := Shaped.dict ⟨hr, ht⟩ (k := txt "cnf") (by simp [tctRequiredClaims]) (by simp [tctClaimTypes])
    exact ⟨hr, ht, hg, hk, ⟨cnf, hc, by simpa only [hc, JsonValue.members] using hck⟩, hj⟩

namespace TctShape

variable {claims : Members} (h : TctShape claims)

include h

theorem iss : ∃ s, claims.get (txt "iss") = .str s :=
  h.shaped.str (by simp [tctRequiredClaims]) (by simp [tctClaimTypes])

theorem sub : ∃ s, claims.get (txt "sub") = .str s :=
  h.shaped.str (by simp [tctRequiredClaims]) (by simp [tctClaimTypes])

theorem aud : ∃ s, claims.get (txt "aud") = .str s :=
  h.shaped.str (by simp [tctRequiredClaims]) (by simp [tctClaimTypes])

theorem jtiText : ∃ s, claims.get (txt "jti") = .str s :=
  h.shaped.str (by simp [tctRequiredClaims]) (by simp [tctClaimTypes])

theorem toInt_exp : P.toInt (claims.get (txt "exp")) = .ok (claims.get (txt "exp")).intValue :=
  toInt_of_admits P (h.shaped.admits (by simp [tctRequiredClaims]) (by simp [tctClaimTypes]))

end TctShape

theorem checkExp_eq_ok {claims : Members} {now : Int} {expired : PyErr}
    (h : P.toInt (claims.get (txt "exp")) = .ok (claims.get (txt "exp")).intValue) :
    checkExp P claims now expired = .ok () ↔ now < (claims.get (txt "exp")).intValue := by
  simp [checkExp, h, bind_eq_ok, raiseIf_eq_ok]

/-- The semantic claims of a capability grant. -/
structure GrantClaims (claims : Members) (now : Int) : Prop where
  live : now < (claims.get (txt "exp")).intValue
  notSelf : claims.get (txt "iss") ≠ claims.get (txt "sub")
  unmarked : JsonValue.str attestationMarker ∉ (claims.get (txt "grants")).items
  bound : ∃ sub, parseAid P (claims.get (txt "sub")).text = .ok sub ∧
    (claims.get (txt "cnf")).members.get (txt "jkt") = .str (thumbprint P sub)

theorem checkGrantContext_eq_ok {claims : Members} (h : TctShape claims) :
    checkGrantContext claims = .ok () ↔
      claims.get (txt "iss") ≠ claims.get (txt "sub") ∧
        JsonValue.str attestationMarker ∉ (claims.get (txt "grants")).items := by
  obtain ⟨sub, hs⟩ := h.sub
  have hmark : (JsonValue.str attestationMarker).isIn (claims.get (txt "grants")).items = true ↔
      JsonValue.str attestationMarker ∈ (claims.get (txt "grants")).items := by
    simp [JsonValue.isIn]
  simp only [checkGrantContext, bind_eq_ok, exists_unit, raiseIf_eq_ok, hs, ← Bool.not_eq_true, JsonValue.eq_str, hmark]

theorem checkGrantClaims_eq_ok {claims : Members} {now : Int} (h : TctShape claims) :
    checkGrantClaims P claims now = .ok () ↔ GrantClaims P claims now := by
  simp only [checkGrantClaims, bind_eq_ok, exists_unit, checkExp_eq_ok P (h.toInt_exp P), checkGrantContext_eq_ok h,
    parseSub, onValueError_eq_ok, checkCnf, raiseIf_eq_ok, Bool.not_eq_false', JsonValue.eq_str]
  constructor
  · rintro ⟨hl, ⟨hn, hm⟩, hb⟩
    exact ⟨hl, hn, hm, hb⟩
  · rintro ⟨hl, hn, hm, hb⟩
    exact ⟨hl, ⟨hn, hm⟩, hb⟩

theorem checkVer_eq_ok {claims : Members} :
    checkVer P claims = .ok () ↔ claims.get (txt "ver") = .str protocolVersion := by
  simp [checkVer, raiseWith_eq_ok]

/-- What `verifyTct` accepts: its claims, checked in order. -/
structure TctAccepted (inp : Members) (now : Int) (claims : Members) : Prop where
  signed : ∃ token, inp.get? (txt "tct_token") = some token ∧ IssuedToken P token tctTyp claims
  shape : TctShape claims
  ver : claims.get (txt "ver") = .str protocolVersion
  aud : inp.get (txt "expected_audience") = .null ∨ claims.get (txt "aud") = inp.get (txt "expected_audience")
  grant : GrantClaims P claims now
  cap : checkManifestCap P claims inp (txt "TCT") = .ok ()
  revocation : checkRevocation P claims inp now = .ok ()

/-- The audience is judged only when the caller expects one. -/
theorem audience_eq_ok {claims : Members} {expected : JsonValue} (h : TctShape claims) :
    (!expected.isNull && !(claims.get (txt "aud")).eq expected) = false ↔
      expected = .null ∨ claims.get (txt "aud") = expected := by
  obtain ⟨aud, ha⟩ := h.aud
  rw [ha, Bool.and_eq_false_iff, Bool.not_eq_false', Bool.not_eq_false', JsonValue.str_eq]
  cases expected <;> simp [JsonValue.isNull, eq_comm]

theorem verifyTct_eq_ok {inp : Members} {now : Int} {r : Members} :
    verifyTct P inp now = .ok r ↔
      ∃ claims, TctAccepted P inp now claims ∧ [(txt "grants", claims.get (txt "grants"))] = r := by
  simp only [verifyTct, verifyTctJws, bind_eq_ok, exists_unit, Members.index_eq_ok, peekClaims_eq_ok, verifyJws_eq_ok,
    checkTctClaimsShape_eq_ok, checkVer_eq_ok, raiseIf_eq_ok, Except.ok.injEq]
  constructor
  · rintro ⟨token, ht, peeked, hp, iss, hs, claims, ⟨hc, hsh⟩, hv, ha, hg, hcap, hrev, rfl⟩
    exact ⟨claims, ⟨⟨token, ht, (issuedToken_iff P hsh.iss).mpr ⟨peeked, hp, iss, hs, hc⟩⟩, hsh, hv,
      (audience_eq_ok hsh).mp ha, (checkGrantClaims_eq_ok P hsh).mp hg, hcap, hrev⟩, rfl⟩
  · rintro ⟨claims, ⟨⟨token, ht, hi⟩, hsh, hv, ha, hg, hcap, hrev⟩, rfl⟩
    obtain ⟨peeked, hp, iss, hs, hc⟩ := (issuedToken_iff P hsh.iss).mp hi
    exact ⟨token, ht, peeked, hp, iss, hs, claims, ⟨hc, hsh⟩, hv, (audience_eq_ok hsh).mpr ha,
      (checkGrantClaims_eq_ok P hsh).mpr hg, hcap, hrev, rfl⟩

/-- What the issuer itself accepts back. -/
structure IssuerTctAccepted (inp : Members) (now : Int) (claims : Members) : Prop where
  signed : ∃ token, inp.get? (txt "tct_token") = some token ∧ IssuedToken P token tctTyp claims
  issuer : inp.get? (txt "self_aid") = some (claims.get (txt "iss"))
  shape : TctShape claims
  ver : claims.get (txt "ver") = .str protocolVersion
  aud : claims.get (txt "aud") = claims.get (txt "sub")
  grant : GrantClaims P claims now
  presenter : presenterOf P inp claims now = .ok (claims.get (txt "sub"))
  revocation : checkRevocation P claims inp now = .ok ()

theorem verifyTctAsIssuer_eq_ok {inp : Members} {now : Int} {r : Members} :
    verifyTctAsIssuer P inp now = .ok r ↔
      ∃ claims, IssuerTctAccepted P inp now claims ∧
        [(txt "presenter_aid", claims.get (txt "sub")), (txt "grants", claims.get (txt "grants"))] = r := by
  simp only [verifyTctAsIssuer, verifyTctJws, bind_eq_ok, exists_unit, Members.index_eq_ok, peekClaims_eq_ok,
    verifyJws_eq_ok, checkTctClaimsShape_eq_ok, checkVer_eq_ok, raiseIf_eq_ok, Except.ok.injEq, Bool.not_eq_false']
  constructor
  · rintro ⟨token, ht, self, hself, peeked, hp, heq, iss, hs, claims, ⟨hc, hsh⟩, hv, ha, hg, presenter, hpr, hps, hrev,
      rfl⟩
    obtain rfl := hc.claims_unique P hp
    obtain ⟨s, hi⟩ := hsh.iss
    obtain ⟨sub, hsub⟩ := hsh.sub
    rw [hi, JsonValue.str_eq] at heq
    subst heq
    obtain rfl : s = iss := by simpa [Interpreter.toStr] using hs
    rw [hsub, JsonValue.eq_str] at ha hps
    subst hps
    exact ⟨peeked, ⟨⟨token, ht, s, hi, hc⟩, by rw [hi, hself], hsh, hv, by rw [ha, hsub],
      (checkGrantClaims_eq_ok P hsh).mp hg, by rw [hpr, hsub], hrev⟩, by rw [hsub]⟩
  · rintro ⟨claims, ⟨⟨token, ht, iss, hi, hc⟩, hself, hsh, hv, ha, hg, hpr, hrev⟩, rfl⟩
    obtain ⟨sub, hsub⟩ := hsh.sub
    refine ⟨token, ht, _, hself, claims, hc.parses, ?_, iss, ?_, claims, ⟨hc, hsh⟩, hv, ?_,
      (checkGrantClaims_eq_ok P hsh).mpr hg, _, hpr, ?_, hrev, rfl⟩
    · rw [hi, JsonValue.str_eq]
    · rw [hi, Interpreter.toStr]
    · rw [ha, hsub, JsonValue.str_eq]
    · rw [hsub, JsonValue.str_eq]

/-- What a relying party accepts of a self-attestation. -/
structure AttestationAccepted (inp : Members) (now : Int) (claims : Members) : Prop where
  signed : ∃ token, inp.get? (txt "tct_token") = some token ∧ IssuedToken P token tctTyp claims
  shape : TctShape claims
  ver : claims.get (txt "ver") = .str protocolVersion
  live : now < (claims.get (txt "exp")).intValue
  attested : checkAttestationClaims P claims = .ok ()
  cap : checkManifestCap P claims inp (txt "attestation") = .ok ()
  revocation : checkRevocation P claims inp now = .ok ()

theorem verifyAttestation_accepted {inp : Members} {now : Int} {r : Members} (h : verifyAttestation P inp now = .ok r) :
    ∃ claims, AttestationAccepted P inp now claims := by
  simp only [verifyAttestation, verifyTctJws, attestationPreSignature, bind_eq_ok, exists_unit, Members.index_eq_ok,
    peekClaims_eq_ok, verifyJws_eq_ok, checkTctClaimsShape_eq_ok, checkVer_eq_ok] at h
  obtain ⟨token, ht, _, _, _, peeked, hp, iss, hs, claims, ⟨hc, hsh, _⟩, hv, hl, ha, _, _, hcap, hrev, _⟩ := h
  exact ⟨claims, ⟨token, ht, (issuedToken_iff P hsh.iss).mpr ⟨peeked, hp, iss, hs, hc⟩⟩, hsh, hv,
    (checkExp_eq_ok P (hsh.toInt_exp P)).mp hl, ha, hcap, hrev⟩

end AitpVerifier
