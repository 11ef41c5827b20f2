import AitpVerifier.ExtensionMessages

/-!
# Handshake payloads with other extensions

An identity descriptor is proven by its own members and by the sender, the time and the
nonce of the envelope around it; none of them lies in a reserved slot.
-/
namespace AitpVerifier

open PyText Checked

variable (P : Platform)

/-! ### Identities -/

/-- Two descriptors and their envelopes, alike in whatever a proof is about. -/
structure IdentityAlike (identity identity' env env' : Members) : Prop where
  rest : SameBut [txt "extensions"] identity identity'
  sender : senderAgentId env' = senderAgentId env
  timestamp : env'.get (txt "timestamp") = env.get (txt "timestamp")
  messageId : env'.get (txt "message_id") = env.get (txt "message_id")
  popNonce : (env'.get (txt "payload")).item (txt "pop_nonce") = (env.get (txt "payload")).item (txt "pop_nonce")
  readNonce : (env'.get (txt "payload")).members.get (txt "pop_nonce") =
    (env.get (txt "payload")).members.get (txt "pop_nonce")

variable {R : Members → Members → Prop} {identity identity' env env' : Members}

namespace IdentityAlike

variable (h : IdentityAlike identity identity' env env')

include h

theorem get {key : Text} (hk : key ≠ txt "extensions") : identity'.get key = identity.get key :=
  h.rest.get (by simpa using hk)

theorem has {key : Text} (hk : key ≠ txt "extensions") : identity'.has key = identity.has key :=
  h.rest.has (by simpa using hk)

theorem proof : identity'.get? (txt "proof") = identity.get? (txt "proof") := h.rest _ (by decide)

theorem verifyOidc (selfAid : JsonValue) (trustAnchors : List Text) (issuerKeys : JsonValue) (now : Int) :
    AitpVerifier.verifyOidc P identity' env' selfAid trustAnchors issuerKeys now =
      AitpVerifier.verifyOidc P identity env selfAid trustAnchors issuerKeys now := by
  have hsignature (issuer : Text) :
      verifyOidcSignature P identity' issuerKeys issuer = verifyOidcSignature P identity issuerKeys issuer := by
    rw [verifyOidcSignature, h.proof, verifyOidcSignature]
  have hclaims (claims : Members) (issuer : Text) : checkOidcClaims P claims identity' env' issuer selfAid now =
      checkOidcClaims P claims identity env issuer selfAid now := by
    rw [checkOidcClaims, h.get (by decide), h.readNonce, h.sender, checkOidcClaims]
  rw [AitpVerifier.verifyOidc, h.get (by decide), h.get (by decide), AitpVerifier.verifyOidc]
  simp only [hsignature, hclaims]

theorem verifyPinnedKey (selfAid trustStore : JsonValue) :
    AitpVerifier.verifyPinnedKey P identity' env' selfAid trustStore =
      AitpVerifier.verifyPinnedKey P identity env selfAid trustStore := by
  have hinput : pinnedKeyProofInput P env' selfAid = pinnedKeyProofInput P env selfAid := by
    rw [pinnedKeyProofInput, h.timestamp, h.sender, h.messageId, h.popNonce, pinnedKeyProofInput]
  have hproof : pinnedKeyProof P identity' env' selfAid trustStore = pinnedKeyProof P identity env selfAid trustStore := by
    rw [pinnedKeyProof, h.get (by decide), h.sender, hinput, h.get (by decide), pinnedKeyProof]
  rw [AitpVerifier.verifyPinnedKey, h.has (by decide), hproof, AitpVerifier.verifyPinnedKey]

theorem verifySpiffe (selfAid store : JsonValue) (now : Int) :
    AitpVerifier.verifySpiffe P identity' env' selfAid store now =
      AitpVerifier.verifySpiffe P identity env selfAid store now := by
  have hinput : Spiffe.spiffeX509ProofInput P env' selfAid = Spiffe.spiffeX509ProofInput P env selfAid := by
    rw [Spiffe.spiffeX509ProofInput, h.timestamp, h.sender, h.messageId, h.popNonce, Spiffe.spiffeX509ProofInput]
  have hclaims (claims : Members) : Spiffe.checkJwtSvidClaims P claims identity' env' selfAid now =
      Spiffe.checkJwtSvidClaims P claims identity env selfAid now := by
    rw [Spiffe.checkJwtSvidClaims, h.get (by decide), h.readNonce, h.sender, Spiffe.checkJwtSvidClaims]
  have hjwt (candidates : List Members) : Spiffe.verifyJwtSvid P identity' env' selfAid candidates now =
      Spiffe.verifyJwtSvid P identity env selfAid candidates now := by
    rw [Spiffe.verifyJwtSvid, h.proof, Spiffe.verifyJwtSvid]
    simp only [hclaims]
  have hx509 (candidates : List Members) : Spiffe.verifyX509Svid P identity' env' selfAid candidates now =
      Spiffe.verifyX509Svid P identity env selfAid candidates now := by
    rw [Spiffe.verifyX509Svid, h.get (by decide), h.get (by decide), hinput, h.get (by decide), Spiffe.verifyX509Svid]
  have hforbidden : forEach (fun member => raiseIf (identity'.has member)
        (Spiffe.fail (txt "spiffe descriptor MUST NOT carry " ++ P.reprStr member))) [txt "issuer", txt "public_key"] =
      forEach (fun member => raiseIf (identity.has member)
        (Spiffe.fail (txt "spiffe descriptor MUST NOT carry " ++ P.reprStr member))) [txt "issuer", txt "public_key"] := by
    apply forEach_congr
    intro member hm
    have hne : member ≠ txt "extensions" := by
      have hall : ∀ member ∈ [txt "issuer", txt "public_key"], member ≠ txt "extensions" := by decide
      exact hall member hm
    rw [h.has hne]
  have hdescriptor : Spiffe.verifyDescriptor P identity' env' selfAid store now =
      Spiffe.verifyDescriptor P identity env selfAid store now := by
    rw [Spiffe.verifyDescriptor, hforbidden, h.get (by decide), h.has (by decide), h.get (by decide),
      Spiffe.verifyDescriptor]
    simp only [hjwt, hx509]
  rw [AitpVerifier.verifySpiffe, hdescriptor, AitpVerifier.verifySpiffe]

/-- A proven identity stays proven. -/
theorem verifyIdentity {selfAid : JsonValue} {config : IdentityConfig} {now : Int}
    (hr : AitpVerifier.verifyIdentity P identity env selfAid config now = .ok ()) :
    AitpVerifier.verifyIdentity P identity' env' selfAid config now = .ok () := by
  have hcarried : spiffeOnlyFields.filter (fun k => identity'.has k) = spiffeOnlyFields.filter (fun k => identity.has k) := by
    apply List.filter_congr
    intro key hk
    have hall : ∀ key ∈ spiffeOnlyFields, key ≠ txt "extensions" := by decide
    exact h.has (hall key hk)
  rw [AitpVerifier.verifyIdentity] at hr ⊢
  simp only [h.get (by decide : txt "type" ≠ _), h.verifySpiffe P, h.verifyOidc P, h.verifyPinnedKey P, hcarried,
    bind_eq_ok, exists_unit, rejectUnknownFields_eq_ok, JsonValue.dict.injEq, exists_eq_left'] at hr ⊢
  exact ⟨h.rest.known hr.1 (by decide), hr.2⟩

end IdentityAlike

/-! ### Bootstrap messages -/

/-- Payloads of bootstrap messages, alike in whatever is checked of them. -/
structure HelloAlike (payload payload' : Members) : Prop where
  rest : SameBut [txt "identity", txt "manifest", txt "extensions"] payload payload'
  manifest : ∃ man man', payload.get? (txt "manifest") = some man ∧ payload'.get? (txt "manifest") = some man' ∧
    ManifestAlike P man man'
  identity : ∃ identity identity' : Members, payload.get? (txt "identity") = some (.dict identity) ∧
    payload'.get? (txt "identity") = some (.dict identity') ∧ SameBut [txt "extensions"] identity identity'

variable {inp inp' : Members}

theorem checkHelloPayload_alike (h : MessageResigned P (HelloAlike P) env env')
    (hr : checkHelloPayload P env = .ok ()) : checkHelloPayload P env' = .ok () := by
  obtain ⟨payload, payload', hpayload, hpayload', halike⟩ := h.payload
  obtain ⟨_, man', _, hman', _⟩ := halike.manifest
  obtain ⟨_, identity', _, hidentity', _⟩ := halike.identity
  simp only [checkHelloPayload, h.messageType P, hpayload, Members.get_of_get? hpayload', bind_eq_ok, exists_unit,
    rejectUnknownFields_eq_ok, requireMembers_eq_ok, JsonValue.dict.injEq, exists_eq_left', JsonValue.members] at hr ⊢
  constructor
  · apply halike.rest.known hr.1
    split <;> decide
  · intro key hk
    by_cases hin : key ∈ [txt "identity", txt "manifest", txt "extensions"]
    · simp only [List.mem_cons, List.not_mem_nil, or_false] at hin
      rcases hin with rfl | rfl | rfl
      · rw [Members.has, hidentity']
        rfl
      · rw [Members.has, hman']
        rfl
      · exact absurd hk (by decide)
    · rw [halike.rest.has hin]
      exact hr.2 key hk

theorem checkPeer_alike (hrest : SameBut [txt "envelope"] inp inp') (h : MessageResigned P R env env') :
    checkPeer inp' env' = checkPeer inp env := by
  rw [checkPeer, h.messageType P, h.sender P, hrest.has (by decide), hrest.get (by decide), checkPeer]

theorem identityConfig_alike (hrest : SameBut [txt "envelope"] inp inp') : identityConfig inp' = identityConfig inp := by
  rw [identityConfig, spiffeBundles, hrest.get (by decide), hrest.get (by decide), hrest _ (by decide),
    hrest.get (by decide), hrest.get (by decide), identityConfig, spiffeBundles]

/-- The Manifest and the identity of an accepted message pass again. -/
theorem checkHelloIdentity_alike {now : Int} {identity : Members} (hrest : SameBut [txt "envelope"] inp inp')
    (h : MessageResigned P (HelloAlike P) env env') (hr : checkHelloIdentity P inp env now = .ok identity) :
    ∃ identity', checkHelloIdentity P inp' env' now = .ok identity' ∧ SameBut [txt "extensions"] identity identity' := by
  obtain ⟨payload, payload', hpayload, hpayload', halike⟩ := h.payload
  obtain ⟨man, man', hman, hman', hmanifest⟩ := halike.manifest
  obtain ⟨first, identity', hidentity, hidentity', hsame⟩ := halike.identity
  have hget' : env'.get (txt "payload") = .dict payload' := Members.get_of_get? hpayload'
  have hproof : IdentityAlike first identity' env env' := by
    constructor
    · exact hsame
    · exact h.sender P
    · exact h.get P (by decide)
    · exact h.get P (by decide)
    · rw [hpayload, hget', JsonValue.item, JsonValue.item, halike.rest.index (by decide)]
    · rw [hpayload, hget', JsonValue.members, JsonValue.members, halike.rest.get (by decide)]
  have hmember {key : Text} (hk : key ∉ [txt "extensions", txt "signature"]) :
      man'.members.get key = man.members.get key := by
    cases hmanifest with
    | inl heq => rw [heq]
    | inr hresigned =>
      obtain ⟨body, body', rfl, rfl, hresigned⟩ := hresigned
      exact hresigned.resigned.get hk
  have hread' : (JsonValue.dict payload').members = payload' := rfl
  have hread : (JsonValue.dict payload).members = payload := rfl
  simp only [checkHelloIdentity, hpayload, hget', hread, hread', Members.get_of_get? hman, Members.get_of_get? hman',
    Members.get_of_get? hidentity, Members.get_of_get? hidentity', bind_eq_ok, exists_unit, Except.ok.injEq] at hr ⊢
  obtain ⟨result, hverified, haid, htype, hproven, rfl⟩ := hr
  refine ⟨identity', ⟨result, ?_, ?_, ?_, ?_, rfl⟩, hsame⟩
  · exact verifyManifest_resigned P rfl rfl (.head _ _ _ _) hmanifest hverified
  · rw [h.sender P]
    rw [← hmember (by decide)] at haid
    exact haid
  · rw [hsame.get (by decide)]
    rw [← hmember (by decide)] at htype
    exact htype
  · rw [hrest _ (by decide), identityConfig_alike hrest]
    exact hproof.verifyIdentity P hproven

theorem checkNonceEcho_alike (hrest : SameBut [txt "envelope"] inp inp') (h : MessageResigned P (HelloAlike P) env env') :
    checkNonceEcho inp' env' = checkNonceEcho inp env := by
  have hpayload : (env'.get (txt "payload")).members.get (txt "pop_nonce_echo") =
      (env.get (txt "payload")).members.get (txt "pop_nonce_echo") := (h.payloads P).rest.get (by decide)
  rw [checkNonceEcho, h.messageType P, hrest.has (by decide), hpayload, hrest.get (by decide), checkNonceEcho]

/-- A bootstrap message accepted stays accepted. -/
theorem verifyBootstrap_alike {now : Int} {r : Members} (hrest : SameBut [txt "envelope"] inp inp')
    (h : MessageResigned P (HelloAlike P) env env') (hr : verifyBootstrap P inp env now = .ok r) :
    verifyBootstrap P inp' env' now = .ok r := by
  have htypes : acceptedIdentityTypes inp' = acceptedIdentityTypes inp := by
    rw [acceptedIdentityTypes, hrest _ (by decide), acceptedIdentityTypes]
  simp only [verifyBootstrap, checkPeer_alike P hrest h, checkNonceEcho_alike P hrest h, htypes, bind_eq_ok, exists_unit,
    verifyEnvelopeSignature_eq_ok] at hr ⊢
  obtain ⟨hpayload, hpeer, identity, hidentity, _, _, _, hresult⟩ := hr
  obtain ⟨identity', hidentity', hsame⟩ := checkHelloIdentity_alike P hrest h hidentity
  obtain ⟨aid, haid, hsigned⟩ := h.signed
  refine ⟨checkHelloPayload_alike P h hpayload, hpeer, identity', hidentity', aid, haid, hsigned, ?_⟩
  rw [hsame.get (by decide)]
  exact hresult

/-! ### Commit messages -/

/-- Payloads of commit messages, alike in whatever is checked of them. -/
structure CommitAlike (payload payload' : Members) : Prop where
  rest : SameBut [txt "tct", txt "grant_voucher", txt "extensions"] payload payload'
  token : ∃ token token', payload.get? (txt "tct") = some token ∧ payload'.get? (txt "tct") = some token' ∧
    TokenAlike P ExtRefilled token token'

/-- What the commit checks read of the verifier's own input. -/
structure CommitContext (inp inp' : Members) : Prop where
  sender : commitSender inp' = commitSender inp
  nonce : selfNonce inp' = selfNonce inp
  offered : inp'.get (txt "issuer_offered_capabilities") = inp.get (txt "issuer_offered_capabilities")

variable {claims claims' : Members}

theorem resolveSender_issued {token : JsonValue} {typ : Text} (h : IssuedToken P token typ claims) :
    resolveSender P inp token = (do
      let named ← commitSender inp
      if named.isNull then .ok (claims.get (txt "iss")) else .ok named) := by
  obtain ⟨_, _, hsigned⟩ := h
  have hpeek : peekClaims P token "TCT_SIGNATURE_INVALID" = .ok claims := (peekClaims_eq_ok P).mpr hsigned.parses
  rw [resolveSender, hpeek]
  rfl

theorem CommitToken.refilled {token token' selfAid : JsonValue} {now : Int} (h : CommitToken P inp token selfAid now claims)
    (hcontext : CommitContext inp inp') (hclaims : ExtRefilled claims claims') (hissued : IssuedToken P token' tctTyp claims') :
    CommitToken P inp' token' selfAid now claims' := by
  constructor
  · exact hissued
  · exact h.shape.refilled hclaims
  · rw [hclaims.get (by decide)]
    exact h.ver
  · rw [hclaims.get (by decide)]
    exact h.aud
  · exact h.grant.refilled P hclaims
  · rw [checkOffered, hcontext.offered, hclaims.get (by decide)]
    exact h.offered

/-- A commit payload accepted stays accepted, for the same grants. -/
theorem verifyCommit_alike {payload payload' : Members} {selfAid grants : JsonValue} {now : Int}
    (hcontext : CommitContext inp inp') (h : CommitAlike P payload payload')
    (hr : verifyCommit P inp (.dict payload) selfAid now = .ok grants) :
    verifyCommit P inp' (.dict payload') selfAid now = .ok grants := by
  obtain ⟨token, token', htoken, htoken', halike⟩ := h.token
  have hread : (JsonValue.dict payload).members = payload := rfl
  have hread' : (JsonValue.dict payload').members = payload' := rfl
  simp only [verifyCommit, bind_eq_ok, exists_unit, rejectUnknownFields_eq_ok, JsonValue.dict.injEq, exists_eq_left',
    hread, hread', Members.get_of_get? htoken, Members.get_of_get? htoken', verifyCommitTct_eq_ok, raiseIf_eq_ok,
    Bool.not_eq_false', Except.ok.injEq] at hr ⊢
  obtain ⟨hknown, _, sender, hsender, hpop, claims, htct, hresult⟩ := hr
  obtain ⟨claims', hclaims, hissued'⟩ := halike.refilled P htct.signed
  refine ⟨h.rest.known hknown (by decide), ?_, sender, ?_, ?_, claims', htct.refilled P hcontext hclaims hissued', ?_⟩
  · rw [Members.has, htoken']
    rfl
  · rw [resolveSender_issued P htct.signed] at hsender
    rw [resolveSender_issued P hissued', hcontext.sender, hclaims.get (by decide)]
    exact hsender
  · rw [checkCommitPop, h.rest.get (by decide), hcontext.nonce]
    exact hpop
  · rw [hclaims.get (by decide)]
    exact hresult

/-! ### The whole message -/

theorem commitContext_envelope (hrest : SameBut [txt "envelope"] inp inp')
    (henv : inp.get? (txt "envelope") = some (.dict env)) (henv' : inp'.get? (txt "envelope") = some (.dict env'))
    (h : MessageResigned P R env env') : CommitContext inp inp' := by
  have hsender : env'.get? (txt "sender") = env.get? (txt "sender") := h.rest _ (by decide)
  constructor
  · rw [commitSender, commitSender, henv, henv']
    simp only [Option.getD_some, JsonValue.attrGet, hsender]
  · rw [selfNonce, hrest.get (by decide), hrest.get (by decide), hrest.get (by decide), selfNonce]
  · exact hrest.get (by decide)

/-- A payload of either kind of message, alike in what the message's kind checks. -/
def PayloadAlike (env : Members) (payload payload' : Members) : Prop :=
  (messageType env ∈ bootstrapTypes → HelloAlike P payload payload') ∧
    (messageType env ∈ commitTypes → CommitAlike P payload payload')

theorem MessageResigned.mono {R' : Members → Members → Prop} (h : MessageResigned P R env env')
    (hsub : ∀ payload payload', R payload payload' → R' payload payload') : MessageResigned P R' env env' := by
  obtain ⟨payload, payload', hpayload, hpayload', halike⟩ := h.payload
  exact ⟨h.rest, h.extensions, ⟨payload, payload', hpayload, hpayload', hsub _ _ halike⟩, h.signed⟩

/-- A handshake message accepted stays accepted, with the same result. -/
theorem verifyMessage_alike {now : Int} {r : Members} (hrest : SameBut [txt "envelope"] inp inp')
    (henv : inp.get? (txt "envelope") = some (.dict env)) (henv' : inp'.get? (txt "envelope") = some (.dict env'))
    (h : MessageResigned P (PayloadAlike P env) env env') (hr : verifyMessage P inp env now = .ok r) :
    verifyMessage P inp' env' now = .ok r := by
  rw [verifyMessage] at hr ⊢
  rw [h.messageType P]
  split at hr
  · rename_i hbootstrap
    rw [if_pos hbootstrap]
    rw [List.contains_iff_mem] at hbootstrap
    exact verifyBootstrap_alike P hrest (h.mono P fun _ _ halike => halike.1 hbootstrap) hr
  · rename_i hbootstrap
    rw [if_neg hbootstrap]
    split at hr
    · rename_i hcommit
      rw [if_pos hcommit]
      rw [List.contains_iff_mem] at hcommit
      obtain ⟨payload, payload', hpayload, hpayload', halike⟩ := h.payload
      obtain ⟨grants, hgrants, hresult⟩ := bind_eq_ok.mp hr
      rw [hpayload] at hgrants
      rw [Members.get_of_get? hpayload', hrest.get (by decide)]
      have hcontext := commitContext_envelope P hrest henv henv' h
      exact bind_eq_ok.mpr ⟨grants, verifyCommit_alike P hcontext (halike.2 hcommit) hgrants, hresult⟩
    · cases hr

/-- One side of a simulated exchange, with an alike payload. -/
def SideAlike (peer peer' : JsonValue) : Prop :=
  peer' = peer ∨ ∃ side side' payload payload' : Members, peer = .dict side ∧ peer' = .dict side' ∧
    SameBut [txt "received_payload"] side side' ∧ side.get? (txt "received_payload") = some (.dict payload) ∧
    side'.get? (txt "received_payload") = some (.dict payload') ∧ CommitAlike P payload payload'

theorem verifyCommitSide_alike {key : Text} {peer peer' grants : JsonValue} {now : Int} (hpeer : inp.get? key = some peer)
    (hpeer' : inp'.get? key = some peer') (h : SideAlike P peer peer') (hr : verifyCommitSide P inp key now = .ok grants) :
    verifyCommitSide P inp' key now = .ok grants := by
  have hindex : inp.index key = .ok peer := Members.index_eq_ok.mpr hpeer
  have hindex' : inp'.index key = .ok peer' := Members.index_eq_ok.mpr hpeer'
  rw [verifyCommitSide, hindex] at hr
  rw [verifyCommitSide, hindex']
  cases h with
  | inl heq =>
    rw [heq]
    exact hr
  | inr hsides =>
    obtain ⟨side, side', payload, payload', rfl, rfl, hrest, hpayload, hpayload', halike⟩ := hsides
    have hcontext : CommitContext side side' := by
      constructor
      · rw [commitSender, hrest _ (by decide), commitSender]
      · rw [selfNonce, hrest.get (by decide), hrest.get (by decide), hrest.get (by decide), selfNonce]
      · exact hrest.get (by decide)
    simp only [ok_bind, JsonValue.attrGet, JsonValue.item, hpayload, hpayload', Option.getD_some] at hr ⊢
    obtain ⟨selfAid, hself, hr⟩ := bind_eq_ok.mp hr
    rw [hrest.index (by decide), hself, ok_bind]
    exact verifyCommit_alike P hcontext halike hr

/-- Inputs of the handshake verifier: a simulated exchange with alike sides, or a
message with other extensions. -/
inductive HandshakeAlike (inp inp' : Members) : Prop where
  | exchange (rest : SameBut [txt "peer_a", txt "peer_b"] inp inp') (a a' b b' : JsonValue)
    (hasA : inp.get? (txt "peer_a") = some a) (hasA' : inp'.get? (txt "peer_a") = some a') (alikeA : SideAlike P a a')
    (hasB : inp.get? (txt "peer_b") = some b) (hasB' : inp'.get? (txt "peer_b") = some b') (alikeB : SideAlike P b b')
  | message (rest : SameBut [txt "envelope"] inp inp') (env env' : Members)
    (hasEnvelope : inp.get? (txt "envelope") = some (.dict env))
    (hasEnvelope' : inp'.get? (txt "envelope") = some (.dict env'))
    (resigned : MessageResigned P (PayloadAlike P env) env env')

theorem verifyHandshakePayload_alike {now : Int} {r : Members} (h : HandshakeAlike P inp inp')
    (hr : verifyHandshakePayload P inp now = .ok r) : verifyHandshakePayload P inp' now = .ok r := by
  cases h with
  | exchange hrest a a' b b' ha ha' halikeA hb hb' halikeB =>
    have hpair : (inp.has (txt "peer_a") && inp.has (txt "peer_b")) = true := by
      rw [Members.has, ha, Members.has, hb]
      rfl
    have hpair' : (inp'.has (txt "peer_a") && inp'.has (txt "peer_b")) = true := by
      rw [Members.has, ha', Members.has, hb']
      rfl
    rw [verifyHandshakePayload, if_pos hpair] at hr
    rw [verifyHandshakePayload, if_pos hpair']
    obtain ⟨first, hfirst, hr⟩ := bind_eq_ok.mp hr
    obtain ⟨grants, hgrants, hresult⟩ := bind_eq_ok.mp hr
    rw [verifyCommitSide_alike P ha ha' halikeA hfirst, ok_bind, verifyCommitSide_alike P hb hb' halikeB hgrants]
    exact hresult
  | message hrest env env' henv henv' hresigned =>
    rw [verifyHandshakePayload] at hr ⊢
    rw [hrest.has (by decide), hrest.has (by decide)]
    split at hr
    · rename_i hpair
      rw [if_pos hpair]
      have hside {key : Text} (hk : key ∉ [txt "envelope"]) :
          verifyCommitSide P inp' key now = verifyCommitSide P inp key now := by
        rw [verifyCommitSide, hrest.index hk, verifyCommitSide]
      rw [hside (by decide), hside (by decide)]
      exact hr
    · rename_i hpair
      rw [if_neg hpair]
      simp only [Members.get_of_get? henv, Members.get_of_get? henv', bind_eq_ok, validateEnvelopeShape_eq_ok,
        JsonValue.dict.injEq] at hr ⊢
      obtain ⟨_, ⟨rfl, hs⟩, hr⟩ := hr
      exact ⟨env', ⟨rfl, hresigned.shape P hs⟩, verifyMessage_alike P hrest henv henv' hresigned hr⟩

end AitpVerifier
