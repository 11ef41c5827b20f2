import AitpVerifier.Commit
import AitpVerifier.FailClosed
import AitpVerifier.Participants

/-!
# Where artifacts are verified

Each entry point verifies artifacts at several places of its input. What an accepting call
established of the artifact at a place is said here once, place by place.
-/
namespace AitpVerifier

open PyText Checked

/-- The verifier's entry points. -/
inductive Operation where
  | envelope | manifest | tct | tctAsIssuer | attestation | grantVoucher | delegationToken | revocationSnapshot
  | handshakePayload | sessionBundle
  deriving DecidableEq, Repr

/-- Where in an input an artifact is verified. -/
inductive Place where
  | envelope | manifest | tct | grantVoucher | embeddedVoucher | singleHop | hop | issuerManifest | snapshot
  | commitTct | sideTct | bundle | coordinatorManifest | participantTct
  deriving DecidableEq, Repr

variable (P : Platform)

/-- An entry point accepts an input at a clock, with its default options. -/
def Operation.Accepts (inp : Members) (now : Int) : Operation → Prop
  | .envelope => (inp.has (txt "active_tct") && inp.has (txt "requested_capability")) = false ∧
      ∃ r, verifyEnvelope P inp now = .ok r
  | .manifest => inp.get? (txt "supported_versions") = none ∧ ∃ r, verifyManifest P inp now = .ok r
  | .tct => ∃ r, verifyTct P inp now = .ok r
  | .tctAsIssuer => ∃ r, verifyTctAsIssuer P inp now = .ok r
  | .attestation => ∃ r, verifyAttestation P inp now = .ok r
  | .grantVoucher => ∃ r, verifyGrantVoucher P inp now = .ok r
  | .delegationToken => ∃ r, verifyDelegationToken P inp now = .ok r
  | .revocationSnapshot => ∃ clock r, clockOf P inp clock = .ok now ∧ verifyRevocationSnapshot P inp clock = .ok r
  | .handshakePayload => ∃ r, verifyHandshakePayload P inp now = .ok r
  | .sessionBundle => ∃ clock r, clockOf P inp clock = .ok now ∧ verifySessionBundle P inp clock = .ok r

/-- The claims a token carries, before any signature is checked. -/
def Carries (token : JsonValue) (claims : Members) : Prop := ∃ parsed, ParsesTo P token parsed ∧ parsed.claims = claims

/-- The entry points for a token of its own. -/
def tctOperations : List Operation := [.tct, .tctAsIssuer, .attestation]

/-- The tokens of a delegation: the outer one, and those its `chain` lists. -/
def DelegationTokenOf (inp : Members) (token : JsonValue) : Prop :=
  token = inp.get (txt "delegation_token") ∨
    ∃ outer, Carries P (inp.get (txt "delegation_token")) outer ∧ token ∈ (outer.get (txt "chain")).items

/-- Whether the outer token carries a `chain`. -/
def Chained (inp : Members) : Prop :=
  ∃ outer, Carries P (inp.get (txt "delegation_token")) outer ∧ outer.has (txt "chain")

/-- The artifacts an accepting call verified the signature of, place by place. -/
inductive VerifiedAt (inp : Members) : Operation → Place → Members → Prop
  | envelope {env} : inp.get (txt "envelope") = .dict env → VerifiedAt inp .envelope .envelope env
  | manifest {man} : inp.get? (txt "manifest") = some (.dict man) → VerifiedAt inp .manifest .manifest man
  | tct {op token claims} : op ∈ tctOperations → inp.get? (txt "tct_token") = some token →
      IssuedToken P token tctTyp claims → VerifiedAt inp op .tct claims
  | tctSnapshot {op revlist body} : op ∈ tctOperations → inp.get (txt "issuer_revocation_list") = .dict revlist →
      verifySnapshotTrust P (Members.get revlist (txt "snapshot")) = .ok body → VerifiedAt inp op .snapshot body
  | popResponse {env} : inp.get (txt "envelope") = .dict env → VerifiedAt inp .tctAsIssuer .envelope env
  | grantVoucher {token claims} : inp.get? (txt "voucher_token") = some token → IssuedToken P token voucherTyp claims →
      VerifiedAt inp .grantVoucher .grantVoucher claims
  | singleHop {claims} : ¬ Chained P inp → IssuedToken P (inp.get (txt "delegation_token")) delegationTyp claims →
      VerifiedAt inp .delegationToken .singleHop claims
  | hop {token claims} : Chained P inp → DelegationTokenOf P inp token → IssuedToken P token delegationTyp claims →
      VerifiedAt inp .delegationToken .hop claims
  | embeddedVoucher {token selfAid voucher claims vclaims} : DelegationTokenOf P inp token → Carries P token claims →
      inp.get (txt "self_aid") = .str selfAid → claims.get (txt "voucher") = .str voucher →
      SignedToken P (.str voucher) selfAid voucherTyp vclaims →
      VerifiedAt inp .delegationToken .embeddedVoucher vclaims
  | issuerManifest {token claims iss manifests man} : DelegationTokenOf P inp token →
      IssuedToken P token delegationTyp claims → claims.get (txt "iss") = .str iss →
      inp.get? (txt "issuer_manifests") = some manifests →
      (manifestCandidates manifests).find? (namesAid iss) = some (.dict man) →
      VerifiedAt inp .delegationToken .issuerManifest man
  | delegationSnapshot {body} : Supplied P inp body → VerifiedAt inp .delegationToken .snapshot body
  | snapshot {snapshot body} : inp.get? (txt "snapshot") = some snapshot → verifySnapshotTrust P snapshot = .ok body →
      VerifiedAt inp .revocationSnapshot .snapshot body
  | helloEnvelope {env} : (inp.has (txt "peer_a") && inp.has (txt "peer_b")) = false →
      inp.get (txt "envelope") = .dict env → messageType env ∈ bootstrapTypes →
      VerifiedAt inp .handshakePayload .envelope env
  | helloManifest {env man} : (inp.has (txt "peer_a") && inp.has (txt "peer_b")) = false →
      inp.get (txt "envelope") = .dict env → messageType env ∈ bootstrapTypes →
      (payloadOf env).get (txt "manifest") = .dict man → VerifiedAt inp .handshakePayload .manifest man
  | commitTct {env claims} : (inp.has (txt "peer_a") && inp.has (txt "peer_b")) = false →
      inp.get (txt "envelope") = .dict env → messageType env ∈ commitTypes →
      IssuedToken P (commitTct env) tctTyp claims → VerifiedAt inp .handshakePayload .commitTct claims
  | sideTct {side peer payload claims} : (inp.has (txt "peer_a") && inp.has (txt "peer_b")) = true →
      side ∈ [txt "peer_a", txt "peer_b"] → inp.get? side = some peer →
      peer.attrGet (txt "received_payload") (.dict []) = .ok payload →
      IssuedToken P (payload.members.get (txt "tct")) tctTyp claims → VerifiedAt inp .handshakePayload .sideTct claims
  | bundle {wrapper body} : inp.get? (txt "session_bundle") = some (.dict wrapper) →
      Members.get wrapper (txt "session_bundle") = .dict body → VerifiedAt inp .sessionBundle .bundle body
  | coordinatorManifest {wrapper body man} : inp.get? (txt "session_bundle") = some (.dict wrapper) →
      Members.get wrapper (txt "session_bundle") = .dict body →
      (manifestCandidates (inp.get (txt "coordinator_manifest"))).find?
        (namesAid (Members.get body (txt "coordinator")).text) = some (.dict man) →
      VerifiedAt inp .sessionBundle .coordinatorManifest man
  | participantTct {wrapper body p claims} : inp.get? (txt "session_bundle") = some (.dict wrapper) →
      Members.get wrapper (txt "session_bundle") = .dict body → p ∈ participantsOf body →
      IssuedToken P (p.get (txt "tct")) tctTyp claims → VerifiedAt inp .sessionBundle .participantTct claims

/-- An entry point accepts an input at a clock; a caller may name other Manifest versions. -/
def Operation.Returns (inp : Members) (now : Int) : Operation → Prop
  | .manifest => ∃ r, verifyManifest P inp now = .ok r
  | op => op.Accepts P inp now

/-! ### What a call establishes -/

/-- A Manifest some call verified, for the protocol's version alone when `defaults` holds. -/
def ManifestVerified (defaults : Prop) (man : Members) : Prop :=
  ∃ call now r, Members.get? call (txt "manifest") = some (.dict man) ∧
    (defaults → Members.get? call (txt "supported_versions") = none) ∧ verifyManifest P call now = .ok r

/-- What an accepting call established of the artifact at a place. -/
def Place.Established (defaults : Prop) (body : Members) : Place → Prop
  | .envelope => EnvelopeShape body
  | .manifest | .issuerManifest | .coordinatorManifest => ManifestVerified P defaults body
  | .tct | .commitTct | .sideTct => TctShape body ∧ body.get (txt "ver") = .str protocolVersion
  | .participantTct => TctShape body
  | .grantVoucher => VoucherShape body ∧ body.get (txt "ver") = .str protocolVersion
  | .embeddedVoucher => VoucherShape body
  | .singleHop => DelegationShape body
  | .hop => DelegationShape body ∧ body.get (txt "ver") = .str protocolVersion
  | .snapshot => ∃ wrapper, verifySnapshotTrust P wrapper = .ok body
  | .bundle => ∃ inp now man coord, BundleRun P inp now body man coord

theorem Operation.Returns.accepts {inp : Members} {now : Int} {op : Operation} (h : op.Returns P inp now)
    (hop : op ≠ .manifest) : op.Accepts P inp now := by
  cases op with
  | manifest => exact absurd rfl hop
  | _ => exact h

/-! ### One place at a time -/

/-- The envelope path validates the shape. -/
theorem verifyEnvelope_shape {inp env : Members} {now : Int} {r : Members}
    (hpath : (inp.has (txt "active_tct") && inp.has (txt "requested_capability")) = false)
    (he : inp.get (txt "envelope") = .dict env) (h : verifyEnvelope P inp now = .ok r) : EnvelopeShape env := by
  simp only [verifyEnvelope, hpath, Bool.false_eq_true, if_false, verifyEnvelopeProper, bind_eq_ok, exists_unit,
    Members.index_eq_ok, validateEnvelopeShape_eq_ok] at h
  obtain ⟨_, raw, hraw, _, _, _, found, ⟨rfl, hs⟩, _⟩ := h
  obtain rfl := JsonValue.dict.inj ((Members.get_of_get? hraw).symm.trans he)
  exact hs

/-- A `pop_response` envelope is validated before it is believed. -/
theorem presenterOf_shape {inp claims env : Members} {now : Int} {presenter : JsonValue}
    (he : inp.get (txt "envelope") = .dict env) (h : presenterOf P inp claims now = .ok presenter) :
    EnvelopeShape env := by
  have hpresent : (!(inp.get (txt "envelope")).isNull) = true := by
    rw [he]
    rfl
  simp only [presenterOf, if_pos hpresent, presenterFromPop, popEnvelope, bind_eq_ok, rescue_eq_ok,
    validateEnvelopeShape_eq_ok, Except.ok.injEq, Prod.exists, Prod.mk.injEq] at h
  obtain ⟨_, ⟨_, _, ⟨found, ⟨hfound, hs⟩, _⟩, _⟩, _⟩ := h
  obtain rfl := JsonValue.dict.inj (he.symm.trans hfound)
  exact hs

/-- Each of the three entry points for a token checks its claims' shape and version. -/
theorem verifiedTct_established {op : Operation} {inp claims : Members} {token : JsonValue} {now : Int} (ho : op ∈ tctOperations)
    (ht : inp.get? (txt "tct_token") = some token) (hi : IssuedToken P token tctTyp claims) (h : op.Accepts P inp now) :
    TctShape claims ∧ claims.get (txt "ver") = .str protocolVersion := by
  have hchecked : ∃ found, (∃ token, inp.get? (txt "tct_token") = some token ∧ IssuedToken P token tctTyp found) ∧
      TctShape found ∧ found.get (txt "ver") = .str protocolVersion := by
    simp only [tctOperations, List.mem_cons, List.not_mem_nil, or_false] at ho
    rcases ho with rfl | rfl | rfl
    · obtain ⟨r, hr⟩ := h
      obtain ⟨found, ha, _⟩ := (verifyTct_eq_ok P).mp hr
      exact ⟨found, ha.signed, ha.shape, ha.ver⟩
    · obtain ⟨r, hr⟩ := h
      obtain ⟨found, ha, _⟩ := (verifyTctAsIssuer_eq_ok P).mp hr
      exact ⟨found, ha.signed, ha.shape, ha.ver⟩
    · obtain ⟨r, hr⟩ := h
      obtain ⟨found, ha⟩ := verifyAttestation_accepted P hr
      exact ⟨found, ha.signed, ha.shape, ha.ver⟩
  obtain ⟨found, ⟨token', ht', hi'⟩, hchecked⟩ := hchecked
  obtain rfl := Option.some.inj (ht.symm.trans ht')
  obtain rfl := hi.unique P hi'
  exact hchecked

theorem verifyGrantVoucher_established {inp claims : Members} {token : JsonValue} {now : Int} {r : Members}
    (ht : inp.get? (txt "voucher_token") = some token) (hi : IssuedToken P token voucherTyp claims)
    (h : verifyGrantVoucher P inp now = .ok r) : VoucherShape claims ∧ claims.get (txt "ver") = .str protocolVersion := by
  simp only [verifyGrantVoucher, bind_eq_ok, exists_unit, Members.index_eq_ok, ht, Option.some.injEq, exists_eq_left',
    verifyJws_eq_ok, checkVoucherClaimsShape_eq_ok, checkVer_eq_ok] at h
  obtain ⟨_, _, _, _, found, ⟨hfound, _⟩, hshape, hv, _⟩ := h
  obtain ⟨_, _, hsigned⟩ := hi
  obtain rfl := hsigned.claims_unique P hfound.parses
  exact ⟨hshape, hv⟩

/-- A resolved issuer's Manifest was verified. -/
theorem resolveIssuer_manifest {inp man : Members} {iss : Text} {manifests : JsonValue} {now : Int}
    (hm : inp.get? (txt "issuer_manifests") = some manifests)
    (hfind : (manifestCandidates manifests).find? (namesAid iss) = some (.dict man))
    (h : resolveIssuer P inp (.str iss) now = .ok ()) (defaults : Prop) : ManifestVerified P defaults man := by
  simp only [resolveIssuer, hm, Interpreter.toStr, resolveKeyFromManifests, bind_eq_ok, Except.ok.injEq,
    exists_eq_left', Prod.exists] at h
  obtain ⟨_, ⟨_, found, hr, _⟩, _⟩ := h
  obtain ⟨hfound, ⟨_, hv⟩, _⟩ := resolveManifest_eq_ok P hr
  obtain rfl := JsonValue.dict.inj (Option.some.inj (hfind.symm.trans hfound))
  exact ⟨_, now, _, rfl, fun _ => rfl, hv⟩

section Delegated

variable {inp : Members} {now : Int} {selfAid : Text} {hops : List Hop} {last : Hop} {voucher : Members}

/-- What the outer token carries are the last hop's claims. -/
theorem AcceptedRun.outer_claims (h : AcceptedRun P inp now selfAid hops last voucher) {outer : Members}
    (hc : Carries P (inp.get (txt "delegation_token")) outer) : outer = last.claims :=
  h.run.claims_eq P (List.mem_of_getLast? h.outer) (h.token ▸ hc)

/-- The tokens of an accepted delegation are its hops'. -/
theorem AcceptedRun.token_mem (h : AcceptedRun P inp now selfAid hops last voucher) {token : JsonValue}
    (ht : DelegationTokenOf P inp token) : token ∈ hops.map Hop.token := by
  rw [h.chain, h.token]
  cases ht with
  | inl heq =>
    rw [heq]
    exact List.mem_append_right _ (List.mem_singleton.mpr rfl)
  | inr hchain =>
    obtain ⟨outer, ho, hm⟩ := hchain
    rw [h.outer_claims P ho] at hm
    exact List.mem_append_left _ hm

theorem AcceptedRun.hop_of_token (h : AcceptedRun P inp now selfAid hops last voucher) {token : JsonValue}
    {claims : Members} (ht : DelegationTokenOf P inp token) (hi : IssuedToken P token delegationTyp claims) :
    ∃ hop ∈ hops, hop.claims = claims := by
  obtain ⟨hop, hm, rfl⟩ := List.mem_map.mp (h.token_mem P ht)
  exact ⟨hop, hm, (h.run.verified hop hm).token.signed.unique P hi⟩

/-- The voucher of an accepted delegation is its run's. -/
theorem AcceptedRun.embedded_voucher (h : AcceptedRun P inp now selfAid hops last voucher) {token : JsonValue}
    {claims vclaims : Members} {text own : Text} (ht : DelegationTokenOf P inp token) (hc : Carries P token claims)
    (hv : claims.get (txt "voucher") = .str text) (hs : SignedToken P (.str text) own voucherTyp vclaims) :
    VoucherShape vclaims := by
  obtain ⟨hop, hm, rfl⟩ := List.mem_map.mp (h.token_mem P ht)
  obtain rfl := h.run.claims_eq P hm hc
  have hhas : hop.claims.has (txt "voucher") = true := Members.has_of_get_str hv
  -- only the root hop carries a voucher
  cases hops with
  | nil => cases hm
  | cons first rest =>
    cases List.mem_cons.mp hm with
    | inl heq =>
      subst heq
      obtain ⟨hroot, _⟩ := h.run.root hop rfl
      obtain ⟨carried, hcarried, hsigned⟩ := hroot.carried
      obtain rfl := JsonValue.str.inj (hv.symm.trans hcarried)
      rw [hsigned.claims_unique P hs.parses]
      exact hroot.shape
    | inr hm =>
      rw [h.run.rootOnly hop hm] at hhas
      cases hhas

end Delegated

variable {P} in
theorem BundleRun.body_unique {inp body man wrapper body' : Members} {now : Int} {coord : Aid}
    (h : BundleRun P inp now body man coord) (hw : inp.get? (txt "session_bundle") = some (.dict wrapper))
    (hb : wrapper.get (txt "session_bundle") = .dict body') : body = body' := by
  obtain ⟨found, hfound, hunwrap⟩ := h.wrapped
  obtain rfl := JsonValue.dict.inj (Option.some.inj (hw.symm.trans hfound))
  obtain ⟨_, heq, hbody⟩ := unwrapBundle_eq_ok P hunwrap
  obtain rfl := JsonValue.dict.inj heq
  exact JsonValue.dict.inj (hbody.symm.trans hb)

/-- A handshake that reads its envelope validated it. -/
theorem verifyHandshakePayload_message {inp env : Members} {now : Int} {r : Members}
    (hpair : (inp.has (txt "peer_a") && inp.has (txt "peer_b")) = false) (he : inp.get (txt "envelope") = .dict env)
    (h : verifyHandshakePayload P inp now = .ok r) : EnvelopeShape env ∧ verifyMessage P inp env now = .ok r := by
  simp only [verifyHandshakePayload, hpair, Bool.false_eq_true, if_false, bind_eq_ok, validateEnvelopeShape_eq_ok, he,
    JsonValue.dict.injEq] at h
  obtain ⟨_, ⟨rfl, hs⟩, h⟩ := h
  exact ⟨hs, h⟩

theorem verifyMessage_bootstrap {inp env : Members} {now : Int} {r : Members} (hm : messageType env ∈ bootstrapTypes)
    (h : verifyMessage P inp env now = .ok r) : verifyBootstrap P inp env now = .ok r := by
  rwa [verifyMessage, if_pos (List.contains_iff_mem.mpr hm)] at h

/-- The commit branch runs `verifyCommit` on the message's payload. -/
theorem verifyMessage_commit {inp env : Members} {now : Int} {r : Members} (hm : messageType env ∈ commitTypes)
    (h : verifyMessage P inp env now = .ok r) :
    ∃ grants, verifyCommit P inp (env.get (txt "payload")) (inp.get (txt "self_aid")) now = .ok grants := by
  have hno : ∀ mtype ∈ commitTypes, bootstrapTypes.contains mtype = false := by decide
  have hboot := hno _ hm
  rw [verifyMessage, hboot, if_neg Bool.false_ne_true, if_pos (List.contains_iff_mem.mpr hm), bind_eq_ok] at h
  obtain ⟨grants, hg, _⟩ := h
  exact ⟨grants, hg⟩

/-- The Manifest of an accepted bootstrap message was verified. -/
theorem verifyBootstrap_manifest {inp env man : Members} {now : Int} {r : Members}
    (hman : (payloadOf env).get (txt "manifest") = .dict man) (h : verifyBootstrap P inp env now = .ok r) (defaults : Prop) :
    ManifestVerified P defaults man := by
  have hman : (env.get (txt "payload")).members.get (txt "manifest") = .dict man := hman
  simp only [verifyBootstrap, checkHelloIdentity, bind_eq_ok, hman] at h
  obtain ⟨_, _, _, _, _, ⟨_, hv, _⟩, _⟩ := h
  exact ⟨_, now, _, rfl, fun _ => rfl, hv⟩

/-! ### Every place of every entry point -/

/-- An accepting call established what its place asks for. -/
theorem VerifiedAt.established {op : Operation} {inp body : Members} {now : Int} {place : Place}
    (hv : VerifiedAt P inp op place body) (h : op.Returns P inp now) :
    place.Established P (op.Accepts P inp now) body := by
  cases hv with
  | envelope he =>
    obtain ⟨hpath, r, hr⟩ := h
    exact verifyEnvelope_shape P hpath he hr
  | manifest hm =>
    obtain ⟨r, hr⟩ := h
    exact ⟨inp, now, r, hm, And.left, hr⟩
  | tct ho ht hi =>
    have hop : op ≠ .manifest := by
      rintro rfl
      exact absurd ho (by decide)
    exact verifiedTct_established P ho ht hi (h.accepts P hop)
  | tctSnapshot _ _ hb => exact ⟨_, hb⟩
  | popResponse he =>
    obtain ⟨r, hr⟩ := h
    obtain ⟨claims, ha, _⟩ := (verifyTctAsIssuer_eq_ok P).mp hr
    exact presenterOf_shape P he ha.presenter
  | grantVoucher ht hi =>
    obtain ⟨r, hr⟩ := h
    exact verifyGrantVoucher_established P ht hi hr
  | singleHop _ hi =>
    obtain ⟨r, hr⟩ := h
    obtain ⟨selfAid, hops, last, voucher, ha, _⟩ := verifyDelegationToken_run P hr
    obtain ⟨hop, hm, rfl⟩ := ha.hop_of_token P (.inl rfl) hi
    exact (ha.run.verified hop hm).token.shape
  | hop hc ht hi =>
    obtain ⟨r, hr⟩ := h
    obtain ⟨selfAid, hops, last, voucher, ha, _⟩ := verifyDelegationToken_run P hr
    obtain ⟨outer, hcarries, hchain⟩ := hc
    rw [ha.outer_claims P hcarries] at hchain
    obtain ⟨hop, hm, rfl⟩ := ha.hop_of_token P ht hi
    exact ⟨(ha.run.verified hop hm).token.shape, (ha.bound hchain hop hm).ver⟩
  | embeddedVoucher ht hc _ hvoucher hs =>
    obtain ⟨r, hr⟩ := h
    obtain ⟨selfAid, hops, last, voucher, ha, _⟩ := verifyDelegationToken_run P hr
    exact ha.embedded_voucher P ht hc hvoucher hs
  | issuerManifest ht hi hiss hm hfind =>
    obtain ⟨r, hr⟩ := h
    obtain ⟨selfAid, hops, last, voucher, ha, _⟩ := verifyDelegationToken_run P hr
    obtain ⟨hop, hmem, rfl⟩ := ha.hop_of_token P ht hi
    have hresolved := ha.resolved hop hmem
    rw [hiss] at hresolved
    exact resolveIssuer_manifest P hm hfind hresolved _
  | delegationSnapshot hs =>
    obtain ⟨_, _, _, _, hb⟩ := hs
    exact ⟨_, hb⟩
  | snapshot _ hb => exact ⟨_, hb⟩
  | helloEnvelope hpair he _ =>
    obtain ⟨r, hr⟩ := h
    exact (verifyHandshakePayload_message P hpair he hr).1
  | helloManifest hpair he hm hman =>
    obtain ⟨r, hr⟩ := h
    have hboot := verifyMessage_bootstrap P hm (verifyHandshakePayload_message P hpair he hr).2
    exact verifyBootstrap_manifest P hman hboot _
  | commitTct hpair he hm hi =>
    obtain ⟨r, hr⟩ := h
    obtain ⟨grants, hg⟩ := verifyMessage_commit P hm (verifyHandshakePayload_message P hpair he hr).2
    obtain ⟨claims, hc, _⟩ := verifyCommit_token P hg
    obtain rfl := hi.unique P hc.signed
    exact ⟨hc.shape, hc.ver⟩
  | sideTct hpair hside hp hpay hi =>
    obtain ⟨r, hr⟩ := h
    obtain ⟨found, peer', payload', _, hp', htoken, hpay'⟩ := verifyHandshakePayload_side P hpair hside hr
    obtain rfl := Option.some.inj (hp.symm.trans hp')
    obtain rfl := Except.ok.inj (hpay.symm.trans hpay')
    obtain rfl := hi.unique P htoken.signed
    exact ⟨htoken.shape, htoken.ver⟩
  | bundle hw hb =>
    obtain ⟨clock, r, hclock, hr⟩ := h
    obtain ⟨found, man, coord, hrun⟩ := verifySessionBundle_run P hclock hr
    obtain rfl := hrun.body_unique hw hb
    exact ⟨inp, now, man, coord, hrun⟩
  | coordinatorManifest hw hb hfind =>
    obtain ⟨clock, r, hclock, hr⟩ := h
    obtain ⟨found, man, coord, hrun⟩ := verifySessionBundle_run P hclock hr
    obtain rfl := hrun.body_unique hw hb
    obtain ⟨hfound, ⟨_, hv⟩, _⟩ := resolveManifest_eq_ok P hrun.resolved
    obtain rfl := JsonValue.dict.inj (Option.some.inj (hfind.symm.trans hfound))
    exact ⟨_, now, _, rfl, fun _ => rfl, hv⟩
  | participantTct hw hb hp hi =>
    obtain ⟨clock, r, hclock, hr⟩ := h
    obtain ⟨found, man, coord, hrun⟩ := verifySessionBundle_run P hclock hr
    obtain rfl := hrun.body_unique hw hb
    obtain ⟨claims, hclaims⟩ := hrun.participant P hp
    obtain rfl := hi.unique P hclaims.signed
    exact hclaims.shape

end AitpVerifier
