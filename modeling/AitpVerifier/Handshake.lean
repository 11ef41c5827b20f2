import AitpVerifier.SessionBundle

/-!
# Mutual-handshake payloads

The bootstrap messages carry a Manifest and an identity; the commit messages a
proof of possession and the token the peer issues.
-/
namespace AitpVerifier

open PyText Checked

def bootstrapTypes : List Text := [txt "mutual_hello", txt "mutual_hello_ack"]

def commitTypes : List Text := [txt "mutual_commit", txt "mutual_commit_ack"]

def helloPayloadFields : List Text :=
  [txt "identity", txt "manifest", txt "requested_grants", txt "pop_nonce", txt "extensions"]

def helloAckPayloadFields : List Text := helloPayloadFields ++ [txt "pop_nonce_echo"]

def commitPayloadFields : List Text :=
  [txt "tct", txt "grant_voucher", txt "pop_signature", txt "pop_nonce_echo", txt "extensions"]

def helloRequiredPayloadFields : List Text :=
  [txt "identity", txt "manifest", txt "requested_grants", txt "pop_nonce"]

def invalidEnvelope (message : Text) : PyErr := AitpError "INVALID_ENVELOPE" message

def popFailed (message : Text) : PyErr := AitpError "POP_VERIFICATION_FAILED" message

/-- A configured list of strings; anything else configures nothing. -/
def stringList (value : JsonValue) : List Text := (value.items.filter JsonValue.isStr).map JsonValue.text

/-- The bundle store when the draft `spiffe` type is enabled, else null. -/
def spiffeBundles (inp : Members) : JsonValue :=
  if (inp.get (txt "_feature")).eq (.str Spiffe.spiffeFeature) then
    match inp.get (txt "trust_anchors_config") with
    | .dict config => (Members.get? config (txt "spiffe_bundles")).getD (.list [])
    | _ => .list []
  else .null

/-- The receiver's own configuration for identity verification. -/
def identityConfig (inp : Members) : IdentityConfig where
  trustAnchors := stringList (inp.get (txt "self_trust_anchors"))
  trustStore := inp.get (txt "trust_store")
  issuerKeys := (inp.get? (txt "resolved_issuer_keys")).getD (.dict [])
  spiffeBundles := spiffeBundles inp

variable (P : Platform)

/-! ### Bootstrap -/

def messageType (env : Members) : Text := (env.get (txt "message_type")).text

/-- The payload's member set and required members. -/
def checkHelloPayload (env : Members) : PyM Unit := do
  let payload := env.get (txt "payload")
  let allowed := if messageType env = txt "mutual_hello_ack" then helloAckPayloadFields else helloPayloadFields
  rejectUnknownFields P payload allowed "INVALID_ENVELOPE" (messageType env ++ txt " payload")
  requireMembers P payload.members helloRequiredPayloadFields "INVALID_ENVELOPE" (messageType env ++ txt " payload")

/-- An acknowledgement comes from the peer that was addressed. -/
def checkPeer (inp env : Members) : PyM Unit :=
  raiseIf (decide (messageType env = txt "mutual_hello_ack") && inp.has (txt "peer_aid") &&
      !(senderAgentId env).eq (inp.get (txt "peer_aid")))
    (AitpError "PEER_MISMATCH" (txt "MUTUAL_HELLO_ACK sender is not the peer the initiator addressed"))

/-- The Manifest, then the identity it announces. -/
def checkHelloIdentity (inp env : Members) (now : Int) : PyM Members := do
  let payload := (env.get (txt "payload")).members
  let man := payload.get (txt "manifest")
  let _ ← verifyManifest P [(txt "manifest", man), (txt "now", .int now)] now
  raiseIf (!(man.members.get (txt "aid")).eq (senderAgentId env)) (invalidEnvelope (txt "manifest.aid != envelope sender"))
  match payload.get (txt "identity") with
  | .dict identity => do
    raiseIf (!((man.members.get (txt "identity_hint")).members.get (txt "type")).eq (Members.get identity (txt "type")))
      (identityFailed (txt "identity_hint.type != identity.type"))
    verifyIdentity P identity env ((inp.get? (txt "self_aid")).getD (.str [])) (identityConfig inp) now
    .ok identity
  | other => .error (identityFailed (txt "identity is " ++ other.typeName ++ txt ", not an object"))

/-- The receiver's accepted identity types. -/
def acceptedIdentityTypes (inp : Members) : List Text :=
  match inp.get? (txt "self_accepted_identity_types") with
  | none => [txt "oidc"]
  | some value => stringList value

/-- The acknowledgement echoes the nonce that was sent. -/
def checkNonceEcho (inp env : Members) : PyM Unit :=
  raiseIf (decide (messageType env = txt "mutual_hello_ack") && inp.has (txt "sent_pop_nonce") &&
      !((env.get (txt "payload")).members.get (txt "pop_nonce_echo")).eq (inp.get (txt "sent_pop_nonce")))
    (AitpError "NONCE_MISMATCH" (txt "pop_nonce_echo != nonce sent"))

def verifyBootstrap (inp env : Members) (now : Int) : PyM Members := do
  checkHelloPayload P env
  checkPeer inp env
  let identity ← checkHelloIdentity P inp env now
  let aid ← parseAid P (senderAgentId env).text
  verifyEnvelopeSignature P env aid "INVALID_SIGNATURE" (txt "envelope signature invalid")
  let itype := identity.get (txt "type")
  raiseWith (!(acceptedIdentityTypes inp).any (fun t => itype.eq (.str t))) (do
    .ok (AitpError "INCOMPATIBLE_IDENTITY_TYPE" (txt "identity type " ++ (← P.repr itype) ++
      txt " is not one this receiver accepts")))
  checkNonceEcho inp env
  .ok okResult

/-! ### Commit -/

/-- `env.get("sender", {}).get("agent_id")` of the input's envelope. -/
def commitSender (inp : Members) : PyM JsonValue := do
  let envelope := (inp.get? (txt "envelope")).getD (.dict [])
  let sender ← envelope.attrGet (txt "sender") (.dict [])
  sender.attrGet (txt "agent_id") .null

/-- The nonce this verifier sent: the first of three that is set. -/
def selfNonce (inp : Members) : JsonValue :=
  let first := inp.get (txt "self_pop_nonce_sent_in_hello_ack")
  let second := inp.get (txt "self_pop_nonce_sent_in_hello")
  if first.truthy then first else if second.truthy then second else inp.get (txt "self_pop_nonce")

/-- The body of a tagged proof: what follows its last point. -/
def popBody (signature : Text) : Text := (splitOn 0x2E signature).getLastD []

/-- The proof of possession over the verifier's own nonce. -/
def verifyCommitPop (sender : JsonValue) (nonce : JsonValue) (signature : Text) : PyM Unit := do
  let key ← parseAid P (← P.toStr sender)
  let sig ← onValueError (b64urlDecode (popBody signature)) "POP_VERIFICATION_FAILED"
    (txt "pop_signature not base64url: " ++ ·)
  let challenge ← nonce.b64urlDecode
  raiseIf (!verifyDigest P key.publicKey (P.sha256 challenge) sig) (popFailed (txt "round-2 PoP signature invalid"))

/-- The proof is checked when the payload carries a string and a nonce was sent. -/
def checkCommitPop (inp payload : Members) (sender : JsonValue) : PyM Unit :=
  match payload.get (txt "pop_signature") with
  | .str signature => if (selfNonce inp).truthy then verifyCommitPop P sender (selfNonce inp) signature else .ok ()
  | _ => .ok ()

/-- The token's grants against what its issuer offered, when that is known. -/
def checkOffered (inp claims : Members) : PyM Unit :=
  match inp.get (txt "issuer_offered_capabilities") with
  | .null => .ok ()
  | offered => do
    let offered ← offered.set
    raiseIf (!JsonValue.subset (claims.get (txt "grants")).items offered)
      (AitpError "GRANT_OVERFLOW" (txt "TCT grants exceed the issuer's offered capabilities"))

/-- The embedded token the peer issues. -/
def verifyCommitTct (inp : Members) (tct selfAid : JsonValue) (now : Int) : PyM Members := do
  let peeked ← peekClaims P tct "TCT_SIGNATURE_INVALID"
  let iss ← P.toStr (peeked.get (txt "iss"))
  let claims ← verifyTctJws P tct iss (fun c => checkTctClaimsShape P c "TCT_SIGNATURE_INVALID")
  checkVer P claims
  raiseIf (!selfAid.isNull && !(claims.get (txt "aud")).eq selfAid)
    (AitpError "AUDIENCE_MISMATCH" (txt "TCT aud != self AID"))
  checkExp P claims now (AitpError "TCT_EXPIRED" (txt "TCT expired"))
  checkGrantContext claims
  let sub ← parseSub P claims
  checkCnf P claims sub (AitpError "TCT_CNF_MISMATCH" (txt "cnf.jkt does not bind the subject key"))
  checkOffered inp claims
  .ok claims

/-- Without an envelope the sender is the token's issuer. -/
def resolveSender (inp : Members) (tct : JsonValue) : PyM JsonValue := do
  let named ← commitSender inp
  if named.isNull then do
    let peeked ← peekClaims P tct "TCT_SIGNATURE_INVALID"
    .ok (peeked.get (txt "iss"))
  else .ok named

def verifyCommit (inp : Members) (payload selfAid : JsonValue) (now : Int) : PyM JsonValue := do
  rejectUnknownFields P payload commitPayloadFields "INVALID_ENVELOPE" (txt "mutual_commit(_ack) payload")
  let payload := payload.members
  raiseIf (!payload.has (txt "tct")) (invalidEnvelope (txt "mutual_commit(_ack) payload missing tct"))
  let tct := payload.get (txt "tct")
  let sender ← resolveSender P inp tct
  checkCommitPop P inp payload sender
  let claims ← verifyCommitTct P inp tct selfAid now
  .ok (claims.get (txt "grants"))

/-- One side of a simulated commit exchange. -/
def verifyCommitSide (inp : Members) (side : Text) (now : Int) : PyM JsonValue := do
  let peer ← inp.index side
  let payload ← peer.attrGet (txt "received_payload") (.dict [])
  let selfAid ← peer.item (txt "self_aid")
  verifyCommit P peer.members payload selfAid now

/-- The branch of an envelope's message type. -/
def verifyMessage (inp env : Members) (now : Int) : PyM Members :=
  if bootstrapTypes.contains (messageType env) then verifyBootstrap P inp env now
  else if commitTypes.contains (messageType env) then do
    let grants ← verifyCommit P inp (env.get (txt "payload")) (inp.get (txt "self_aid")) now
    .ok [(txt "grants", grants)]
  else .error (invalidEnvelope (txt "unsupported handshake message_type " ++ P.reprStr (messageType env)))

def verifyHandshakePayload (inp : Members) (now : Int) : PyM Members :=
  if inp.has (txt "peer_a") && inp.has (txt "peer_b") then do
    let _ ← verifyCommitSide P inp (txt "peer_a") now
    let grants ← verifyCommitSide P inp (txt "peer_b") now
    .ok [(txt "grants", grants)]
  else do
    let env ← validateEnvelopeShape P (inp.get (txt "envelope"))
    verifyMessage P inp env now

/-! ### What acceptance establishes -/

theorem EnvelopeShape.sender {env : Members} (h : EnvelopeShape env) : ∃ s, senderAgentId env = .str s :=
  h.senderShaped.str (by simp [requiredSenderFields]) (by simp [senderTypes])

/-- An accepted bootstrap message verified its envelope's signature. -/
theorem verifyBootstrap_authentic {inp env : Members} {now : Int} {r : Members}
    (h : verifyBootstrap P inp env now = .ok r) : EnvelopeAuthentic P env := by
  simp only [verifyBootstrap, bind_eq_ok, exists_unit, verifyEnvelopeSignature_eq_ok] at h
  obtain ⟨_, _, identity, _, aid, ha, hs, _⟩ := h
  exact ⟨aid, ha, hs⟩

/-- A string `pop_signature` that verifies under the sender's key over the nonce. -/
def CommitPop (sender : JsonValue) (nonce : JsonValue) (signature : JsonValue) : Prop :=
  ∃ s senderText key sig challenge, signature = .str s ∧ P.toStr sender = .ok senderText ∧
    parseAid P senderText = .ok key ∧ b64urlDecode (popBody s) = .ok sig ∧ nonce.b64urlDecode = .ok challenge ∧
    verifyDigest P key.publicKey (P.sha256 challenge) sig

theorem verifyCommitPop_eq_ok {sender nonce : JsonValue} {s : Text} :
    verifyCommitPop P sender nonce s = .ok () ↔ CommitPop P sender nonce (.str s) := by
  simp only [verifyCommitPop, CommitPop, bind_eq_ok, onValueError_eq_ok, raiseIf_eq_ok, Bool.not_eq_false',
    JsonValue.str.injEq]
  constructor
  · rintro ⟨senderText, hs, key, hk, sig, hd, challenge, hc, hv⟩
    exact ⟨s, senderText, key, sig, challenge, rfl, hs, hk, hd, hc, hv⟩
  · rintro ⟨_, senderText, key, sig, challenge, rfl, hs, hk, hd, hc, hv⟩
    exact ⟨senderText, hs, key, hk, sig, hd, challenge, hc, hv⟩

instance (sender nonce : JsonValue) : (signature : JsonValue) → Decidable (CommitPop P sender nonce signature)
  | .str _ => decidable_of_iff _ (verifyCommitPop_eq_ok P)
  | .null | .bool _ | .int _ | .float _ | .list _ | .dict _ => isFalse (fun ⟨_, _, _, _, _, h, _⟩ => nomatch h)

/-- The proof is judged only when it is a string and a nonce was sent. -/
theorem checkCommitPop_eq_ok {inp payload : Members} {sender : JsonValue} :
    checkCommitPop P inp payload sender = .ok () ↔
      ((payload.get (txt "pop_signature")).isStr → (selfNonce inp).truthy →
        CommitPop P sender (selfNonce inp) (payload.get (txt "pop_signature"))) := by
  unfold checkCommitPop
  cases payload.get (txt "pop_signature") with
  | str s =>
    by_cases hn : (selfNonce inp).truthy
    · simp [hn, JsonValue.isStr, verifyCommitPop_eq_ok]
    · simp [hn]
  | _ => simp [JsonValue.isStr]

/-- What the embedded token must satisfy. -/
structure CommitToken (inp : Members) (tct selfAid : JsonValue) (now : Int) (claims : Members) : Prop where
  signed : IssuedToken P tct tctTyp claims
  shape : TctShape claims
  ver : claims.get (txt "ver") = .str protocolVersion
  aud : selfAid = .null ∨ claims.get (txt "aud") = selfAid
  grant : GrantClaims P claims now
  offered : checkOffered inp claims = .ok ()

theorem verifyCommitTct_eq_ok {inp : Members} {tct selfAid : JsonValue} {now : Int} {claims : Members} :
    verifyCommitTct P inp tct selfAid now = .ok claims ↔ CommitToken P inp tct selfAid now claims := by
  have hgrant {c : Members} (hs : TctShape c) :
      (checkExp P c now (AitpError "TCT_EXPIRED" (txt "TCT expired")) = .ok () ∧ checkGrantContext c = .ok () ∧
        ∃ sub, parseSub P c = .ok sub ∧
          checkCnf P c sub (AitpError "TCT_CNF_MISMATCH" (txt "cnf.jkt does not bind the subject key")) = .ok ()) ↔
        GrantClaims P c now := by
    rw [checkExp_eq_ok P (hs.toInt_exp P), checkGrantContext_eq_ok hs]
    simp only [parseSub, onValueError_eq_ok, checkCnf, raiseIf_eq_ok, Bool.not_eq_false', JsonValue.eq_str]
    constructor
    · rintro ⟨hl, ⟨hn, hm⟩, hb⟩
      exact ⟨hl, hn, hm, hb⟩
    · rintro ⟨hl, hn, hm, hb⟩
      exact ⟨hl, ⟨hn, hm⟩, hb⟩
  simp only [verifyCommitTct, verifyTctJws, bind_eq_ok, exists_unit, peekClaims_eq_ok, verifyJws_eq_ok,
    checkTctClaimsShape_eq_ok, checkVer_eq_ok, raiseIf_eq_ok, Except.ok.injEq]
  constructor
  · rintro ⟨peeked, hp, iss, hs, c, ⟨hc, hsh⟩, hv, ha, hl, hx, sub, hsub, hcnf, ho, rfl⟩
    exact ⟨(issuedToken_iff P hsh.iss).mpr ⟨peeked, hp, iss, hs, hc⟩, hsh, hv, (audience_eq_ok hsh).mp ha,
      (hgrant hsh).mp ⟨hl, hx, sub, hsub, hcnf⟩, ho⟩
  · rintro ⟨hi, hsh, hv, ha, hg, ho⟩
    obtain ⟨peeked, hp, iss, hs, hc⟩ := (issuedToken_iff P hsh.iss).mp hi
    obtain ⟨hl, hx, sub, hsub, hcnf⟩ := (hgrant hsh).mpr hg
    exact ⟨peeked, hp, iss, hs, claims, ⟨hc, hsh⟩, hv, (audience_eq_ok hsh).mpr ha, hl, hx, sub, hsub, hcnf, ho, rfl⟩

/-- Every accepting commit, with an envelope or without, has its token. -/
theorem verifyCommit_token {inp : Members} {payload selfAid grants : JsonValue} {now : Int}
    (h : verifyCommit P inp payload selfAid now = .ok grants) :
    ∃ claims, CommitToken P inp (payload.members.get (txt "tct")) selfAid now claims ∧
      claims.get (txt "grants") = grants := by
  simp only [verifyCommit, bind_eq_ok, exists_unit, verifyCommitTct_eq_ok, Except.ok.injEq] at h
  obtain ⟨_, _, _, _, _, claims, hc, hg⟩ := h
  exact ⟨claims, hc, hg⟩

/-- The token one side of a simulated exchange accepted. -/
def SideToken (inp : Members) (side : Text) (now : Int) (claims : Members) : Prop :=
  ∃ peer payload selfAid, inp.get? side = some peer ∧
    CommitToken P peer.members (payload.members.get (txt "tct")) selfAid now claims ∧
    peer.attrGet (txt "received_payload") (.dict []) = .ok payload

theorem verifyCommitSide_token {inp : Members} {side : Text} {now : Int} {grants : JsonValue}
    (h : verifyCommitSide P inp side now = .ok grants) : ∃ claims, SideToken P inp side now claims := by
  simp only [verifyCommitSide, bind_eq_ok, Members.index_eq_ok] at h
  obtain ⟨peer, hp, payload, hpay, selfAid, _, hv⟩ := h
  obtain ⟨claims, hc, _⟩ := verifyCommit_token P hv
  exact ⟨claims, peer, payload, selfAid, hp, hc, hpay⟩

/-- An accepted exchange accepted the token of either side. -/
theorem verifyHandshakePayload_side {inp : Members} {side : Text} {now : Int} {r : Members}
    (hpair : (inp.has (txt "peer_a") && inp.has (txt "peer_b")) = true) (hside : side ∈ [txt "peer_a", txt "peer_b"])
    (h : verifyHandshakePayload P inp now = .ok r) : ∃ claims, SideToken P inp side now claims := by
  simp only [verifyHandshakePayload, hpair, if_true, bind_eq_ok] at h
  obtain ⟨_, ha, _, hb, _⟩ := h
  rcases List.mem_cons.mp hside with rfl | hside
  · exact verifyCommitSide_token P ha
  · rw [List.mem_singleton.mp hside]
    exact verifyCommitSide_token P hb

end AitpVerifier
