import AitpVerifier.Commit
import AitpVerifier.Extensions

/-!
# Messages with other extensions

An envelope, with other objects in its own slot and in those of its payload, signed
again by its sender. What a message's checks read of its payload is the same.
-/
namespace AitpVerifier

open PyText Checked

variable (P : Platform)

/-- An envelope with other extensions and another payload, signed again by its sender. -/
structure MessageResigned (R : Members → Members → Prop) (env env' : Members) : Prop where
  rest : SameBut [txt "extensions", txt "payload", txt "signature"] env env'
  extensions : env'.get? (txt "extensions") = env.get? (txt "extensions") ∨
    ∃ contents : Members, env'.get? (txt "extensions") = some (.dict contents)
  payload : ∃ payload payload' : Members, env.get (txt "payload") = .dict payload ∧
    env'.get? (txt "payload") = some (.dict payload') ∧ R payload payload'
  signed : EnvelopeAuthentic P env'

variable {R : Members → Members → Prop} {env env' : Members}

theorem EnvelopeSigned.signature {aid : Aid} (h : EnvelopeSigned P env aid) :
    ∃ text, env.get (txt "signature") = .str text ∧ signaturePattern.fullMatch text = true := by
  obtain ⟨_, _, _, htagged, _⟩ := h
  have hpattern := htagged.pattern
  obtain ⟨text, htext, _⟩ := htagged
  rw [htext] at hpattern
  exact ⟨text, htext, hpattern⟩

theorem EnvelopeAuthentic.signature (h : EnvelopeAuthentic P env) :
    ∃ text, env.get (txt "signature") = .str text ∧ signaturePattern.fullMatch text = true := by
  obtain ⟨_, _, hsigned⟩ := h
  exact hsigned.signature P

namespace MessageResigned

variable (h : MessageResigned P R env env')

include h

theorem get {key : Text} (hk : key ∉ [txt "extensions", txt "payload", txt "signature"]) :
    env'.get key = env.get key := h.rest.get hk

theorem sender : senderAgentId env' = senderAgentId env := by
  rw [senderAgentId, h.get P (by decide), senderAgentId]

theorem messageType : AitpVerifier.messageType env' = AitpVerifier.messageType env := by
  rw [AitpVerifier.messageType, h.get P (by decide), AitpVerifier.messageType]

theorem payloads : R (payloadOf env) (payloadOf env') := by
  obtain ⟨payload, payload', hget, hget', halike⟩ := h.payload
  rw [payloadOf, payloadOf, hget, Members.get_of_get? hget']
  exact halike

/-- The rules of an envelope hold again. -/
theorem shape (hs : EnvelopeShape env) : EnvelopeShape env' := by
  obtain ⟨payload, payload', _, hpayload', _⟩ := h.payload
  obtain ⟨text, htext, hpattern⟩ := h.signed.signature P
  constructor
  · rw [h.get P (by decide)]
    exact hs.version
  · apply h.rest.shaped hs.shaped
    · intro key hk hrequired
      simp only [List.mem_cons, List.not_mem_nil, or_false] at hk
      rcases hk with rfl | rfl | rfl
      · exact absurd hrequired (by decide)
      · rw [Members.has, hpayload']
        rfl
      · exact Members.has_of_get_str htext
    · intro entry he hin value hv
      simp only [List.mem_cons, List.not_mem_nil, or_false] at hin
      have htypes : ∀ entry ∈ envelopeTypes, (entry.1 = txt "extensions" → entry.2 = .dict) ∧
          (entry.1 = txt "payload" → entry.2 = .dict) ∧ (entry.1 = txt "signature" → entry.2 = .str) := by decide
      obtain ⟨hextensions, hpayload, hsignature⟩ := htypes entry he
      rcases hin with hslot | hslot | hslot
      · cases h.extensions with
        | inl hsame =>
          rw [hslot, hsame, ← hslot] at hv
          exact hs.shaped.typed entry he value hv
        | inr hcontents =>
          obtain ⟨contents, hcontents⟩ := hcontents
          rw [hslot, hcontents] at hv
          rw [← Option.some.inj hv, hextensions hslot]
          rfl
      · rw [hslot, hpayload'] at hv
        rw [← Option.some.inj hv, hpayload hslot]
        rfl
      · rw [hslot] at hv
        rw [Members.get_of_get? hv] at htext
        rw [htext, hsignature hslot]
        rfl
  · exact h.rest.known hs.known (by decide)
  · rw [h.get P (by decide)]
    exact hs.timestamp
  · rw [htext]
    exact hpattern
  · rw [h.get P (by decide)]
    exact hs.senderShaped
  · rw [h.get P (by decide)]
    exact hs.senderKnown

end MessageResigned

variable {inp inp' : Members}

/-! ### The envelope by itself -/

theorem checkTimestampWindow_alike (h : SameBut [txt "extensions", txt "payload", txt "signature"] env env')
    (now tolerance : Int) :
    checkTimestampWindow (.dict env') now tolerance = checkTimestampWindow (.dict env) now tolerance := by
  rw [checkTimestampWindow, h.get (by decide), checkTimestampWindow]

/-- An envelope accepted stays accepted. -/
theorem verifyEnvelope_alike {now : Int} {r : Members} (hrest : SameBut [txt "envelope"] inp inp')
    (henv : inp.get? (txt "envelope") = some (.dict env)) (henv' : inp'.get? (txt "envelope") = some (.dict env'))
    (h : MessageResigned P R env env') (hr : verifyEnvelope P inp now = .ok r) : verifyEnvelope P inp' now = .ok r := by
  have hindex : inp.index (txt "envelope") = .ok (.dict env) := Members.index_eq_ok.mpr henv
  have hindex' : inp'.index (txt "envelope") = .ok (.dict env') := Members.index_eq_ok.mpr henv'
  have hproper : verifyEnvelopeProper P inp now = .ok r → verifyEnvelopeProper P inp' now = .ok r := by
    intro hr
    simp only [verifyEnvelopeProper, hindex, hindex', hrest _ (by decide : txt "tolerance_seconds" ∉ [txt "envelope"]),
      checkTimestampWindow_alike h.rest, ok_bind, bind_eq_ok, exists_unit, validateEnvelopeShape_eq_ok, onValueError_eq_ok,
      JsonValue.dict.injEq, verifyEnvelopeSignature_eq_ok] at hr ⊢
    obtain ⟨tolerance, htolerance, hwindow, _, ⟨rfl, hs⟩, _, _, _, hresult⟩ := hr
    obtain ⟨aid, haid, hsigned⟩ := h.signed
    exact ⟨tolerance, htolerance, hwindow, env', ⟨rfl, h.shape P hs⟩, aid, haid, hsigned, hresult⟩
  rw [verifyEnvelope, checkCapability] at hr ⊢
  rw [hrest.has (by decide), hrest.has (by decide), hrest.has (by decide), hrest.has (by decide), hrest.index (by decide),
    hrest.index (by decide)]
  obtain ⟨_, hscenario, hr⟩ := bind_eq_ok.mp hr
  rw [hscenario, ok_bind]
  split at hr
  · rename_i hcapability
    rw [if_pos hcapability]
    exact hr
  · rename_i hcapability
    rw [if_neg hcapability]
    exact hproper hr

/-! ### Proof of possession to the issuer -/

variable {claims claims' : Members}

theorem challengeNonce_alike {payload payload' : Members}
    (hinp : inp'.get (txt "outstanding_pop_challenges") = inp.get (txt "outstanding_pop_challenges"))
    (hpayload : SameBut [txt "extensions"] payload payload') (jti : JsonValue) (now : Int) :
    challengeNonce inp' payload' jti now = challengeNonce inp payload jti now := by
  rw [challengeNonce, hinp, hpayload.get (by decide), challengeNonce]

/-- The presenter a response establishes is the same. -/
theorem presenterFromPop_alike {now : Int} {presenter : Text}
    (hinp : inp'.get (txt "outstanding_pop_challenges") = inp.get (txt "outstanding_pop_challenges"))
    (hclaims : ExtRefilled claims claims') (henv : inp.get (txt "envelope") = .dict env)
    (henv' : inp'.get (txt "envelope") = .dict env') (h : MessageResigned P (SameBut [txt "extensions"]) env env')
    (hr : presenterFromPop P inp claims now = .ok presenter) : presenterFromPop P inp' claims' now = .ok presenter := by
  have hpayload : SameBut [txt "extensions"] (env.get (txt "payload")).members (env'.get (txt "payload")).members :=
    h.payloads P
  simp only [presenterFromPop, popEnvelope, henv, henv', bind_eq_ok, rescue_eq_ok, exists_unit, Prod.exists,
    validateEnvelopeShape_eq_ok, JsonValue.dict.injEq, Except.ok.injEq, Prod.mk.injEq, verifyEnvelopeSignature_eq_ok]
    at hr ⊢
  obtain ⟨_, _, ⟨_, ⟨rfl, hs⟩, sender, _, rfl, rfl⟩, hmessage, _, hrest⟩ := hr
  obtain ⟨aid, haid, hsigned⟩ := h.signed
  refine ⟨env', aid, ⟨env', ⟨rfl, h.shape P hs⟩, aid, haid, rfl, rfl⟩, ?_, hsigned, ?_⟩
  · simp only [List.all_cons, List.all_nil] at hmessage ⊢
    rw [h.get P (by decide), hpayload.get (by decide), hpayload.get (by decide), hpayload.get (by decide)]
    exact hmessage
  · rw [hclaims.rest.index (by decide), hclaims.rest.index (by decide), hpayload.get (by decide),
      hpayload.get (by decide)]
    simp only [challengeNonce_alike hinp hpayload]
    exact hrest

/-- The same response, or one with other extensions. -/
def ResponseAlike (envelope envelope' : JsonValue) : Prop :=
  envelope' = envelope ∨ ∃ env env', envelope = .dict env ∧ envelope' = .dict env' ∧
    MessageResigned P (SameBut [txt "extensions"]) env env'

/-- An input with alike documents wherever `verifyTctAsIssuer` reads one. -/
structure IssuerInputAlike (inp inp' : Members) : Prop where
  rest : SameBut [txt "tct_token", txt "envelope", txt "issuer_revocation_list"] inp inp'
  token : ∃ token token', inp.get? (txt "tct_token") = some token ∧ inp'.get? (txt "tct_token") = some token' ∧
    TokenAlike P ExtRefilled token token'
  response : ResponseAlike P (inp.get (txt "envelope")) (inp'.get (txt "envelope"))
  source : SourceAlike P (inp.get (txt "issuer_revocation_list")) (inp'.get (txt "issuer_revocation_list"))

/-- A response taken as it was, under alike claims. -/
theorem presenterFromPop_same (hrest : SameBut [txt "tct_token", txt "envelope", txt "issuer_revocation_list"] inp inp')
    (henv : inp'.get (txt "envelope") = inp.get (txt "envelope")) (hclaims : ExtRefilled claims claims') (now : Int) :
    presenterFromPop P inp' claims' now = presenterFromPop P inp claims now := by
  have hnonce (payload : Members) (jti : JsonValue) :
      challengeNonce inp' payload jti now = challengeNonce inp payload jti now :=
    challengeNonce_alike (hrest.get (by decide)) (.refl _ _) jti now
  rw [presenterFromPop, popEnvelope, henv, hclaims.rest.index (by decide), hclaims.rest.index (by decide)]
  simp only [hnonce]
  rfl

theorem presenterOf_alike {now : Int} {presenter : JsonValue} (h : IssuerInputAlike P inp inp')
    (hclaims : ExtRefilled claims claims') (hr : presenterOf P inp claims now = .ok presenter) :
    presenterOf P inp' claims' now = .ok presenter := by
  rw [presenterOf] at hr ⊢
  rw [h.rest.get (by decide : txt "channel_bound_aid" ∉ _)]
  cases h.response with
  | inl hsame =>
    rw [hsame, presenterFromPop_same P h.rest hsame hclaims]
    exact hr
  | inr halike =>
    obtain ⟨env, env', henv, henv', hresigned⟩ := halike
    rw [henv] at hr
    rw [henv']
    obtain ⟨text, htext, hresult⟩ := bind_eq_ok.mp hr
    exact bind_eq_ok.mpr
      ⟨text, presenterFromPop_alike P (h.rest.get (by decide)) hclaims henv henv' hresigned htext, hresult⟩

/-- A token accepted back stays accepted, for the same presenter and grants. -/
theorem verifyTctAsIssuer_alike {now : Int} {r : Members} (h : IssuerInputAlike P inp inp')
    (hr : verifyTctAsIssuer P inp now = .ok r) : verifyTctAsIssuer P inp' now = .ok r := by
  obtain ⟨claims, ha, hresult⟩ := (verifyTctAsIssuer_eq_ok P).mp hr
  obtain ⟨token, token', htoken, htoken', halike⟩ := h.token
  obtain ⟨first, hfirst, hissued⟩ := ha.signed
  obtain rfl := Option.some.inj (htoken.symm.trans hfirst)
  obtain ⟨claims', hclaims, hissued'⟩ := halike.refilled P hissued
  have haccepted : IssuerTctAccepted P inp' now claims' := by
    constructor
    · exact ⟨token', htoken', hissued'⟩
    · rw [h.rest _ (by decide), hclaims.get (by decide)]
      exact ha.issuer
    · exact ha.shape.refilled hclaims
    · rw [hclaims.get (by decide)]
      exact ha.ver
    · rw [hclaims.get (by decide), hclaims.get (by decide)]
      exact ha.aud
    · exact ha.grant.refilled P hclaims
    · rw [hclaims.get (by decide)]
      exact presenterOf_alike P h hclaims ha.presenter
    · rw [checkRevocation_alike P (hclaims.get (by decide)) (hclaims.get (by decide)) h.rest (by decide) h.source]
      exact ha.revocation
  refine (verifyTctAsIssuer_eq_ok P).mpr ⟨claims', haccepted, ?_⟩
  rw [hclaims.get (by decide), hclaims.get (by decide)]
  exact hresult

end AitpVerifier
