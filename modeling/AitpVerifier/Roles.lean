import AitpVerifier.Commit
import AitpVerifier.FailClosed

/-!
# The roles of a token

A token's `typ` names its family, and every operation that accepts a token has
compared it. Within the family of trust context tokens an attestation is
self-issued and a grant is not.
-/
namespace AitpVerifier

open PyText Checked

/-- The families of tokens. -/
inductive Family where
  | tct | grantVoucher | delegation
  deriving DecidableEq, Repr

def Family.typ : Family → Text
  | .tct => tctTyp
  | .grantVoucher => voucherTyp
  | .delegation => delegationTyp

/-- The operations a token can be given to; a commit comes in an envelope or as one
side of a simulated exchange. -/
inductive TokenUse where
  | tct | tctAsIssuer | attestation | commit | commitSide | grantVoucher | delegationToken
  deriving DecidableEq, Repr

def TokenUse.family : TokenUse → Family
  | .tct | .tctAsIssuer | .attestation | .commit | .commitSide => .tct
  | .grantVoucher => .grantVoucher
  | .delegationToken => .delegation

/-- The operations that take a token for a grant of capabilities. -/
def grantUses : List TokenUse := [.tct, .tctAsIssuer, .commit, .commitSide]

variable (P : Platform)

/-- Some input at some clock has an operation accept the token. -/
def TokenUse.Accepts (token : JsonValue) : TokenUse → Prop
  | .tct => ∃ inp now r, inp.get? (txt "tct_token") = some token ∧ verifyTct P inp now = .ok r
  | .tctAsIssuer => ∃ inp now r, inp.get? (txt "tct_token") = some token ∧ verifyTctAsIssuer P inp now = .ok r
  | .attestation => ∃ inp now r, inp.get? (txt "tct_token") = some token ∧ verifyAttestation P inp now = .ok r
  | .commit => ∃ inp env now r, HandshakeInput inp (.dict env) ∧ messageType env ∈ commitTypes ∧
      commitTct env = token ∧ verifyHandshakePayload P inp now = .ok r
  | .commitSide => ∃ inp side peer payload now r, (inp.has (txt "peer_a") && inp.has (txt "peer_b")) = true ∧
      side ∈ [txt "peer_a", txt "peer_b"] ∧ inp.get? side = some peer ∧
      peer.attrGet (txt "received_payload") (.dict []) = .ok payload ∧ payload.members.get (txt "tct") = token ∧
      verifyHandshakePayload P inp now = .ok r
  | .grantVoucher => ∃ inp now r, inp.get? (txt "voucher_token") = some token ∧ verifyGrantVoucher P inp now = .ok r
  | .delegationToken => ∃ inp now r, inp.get (txt "delegation_token") = token ∧ verifyDelegationToken P inp now = .ok r

/-! ### One family a token -/

/-- A signed token is of one type. -/
theorem SignedToken.typ_unique {token : JsonValue} {iss iss' typ typ' : Text} {claims claims' : Members}
    (h : SignedToken P token iss typ claims) (h' : SignedToken P token iss' typ' claims') : typ = typ' := by
  obtain ⟨parsed, _, hp, _, _, ht, _⟩ := h
  obtain ⟨parsed', _, hp', _, _, ht', _⟩ := h'
  obtain rfl := hp.unique P hp'
  exact JsonValue.str.inj (ht.symm.trans ht')

/-- The families' types are told apart. -/
theorem Family.typ_injective : Function.Injective Family.typ := by
  intro a b h
  revert h
  cases a <;> cases b <;> decide

theorem verifyGrantVoucher_issued {inp : Members} {now : Int} {r : Members} (h : verifyGrantVoucher P inp now = .ok r) :
    ∃ token claims, inp.get? (txt "voucher_token") = some token ∧ IssuedToken P token voucherTyp claims := by
  simp only [verifyGrantVoucher, bind_eq_ok, exists_unit, Members.index_eq_ok, peekClaims_eq_ok, verifyJws_eq_ok,
    checkVoucherClaimsShape_eq_ok] at h
  obtain ⟨token, ht, peeked, hp, iss, hs, claims, ⟨hc, _⟩, hshape, _⟩ := h
  exact ⟨token, claims, ht, (issuedToken_iff P hshape.iss).mpr ⟨peeked, hp, iss, hs, hc⟩⟩

/-- What an operation has established about who issued an accepted token to whom. -/
def TokenUse.Parties (claims : Members) : TokenUse → Prop
  | .tct | .tctAsIssuer | .commit | .commitSide => claims.get (txt "iss") ≠ claims.get (txt "sub")
  | .attestation => claims.get (txt "iss") = claims.get (txt "sub")
  | .grantVoucher | .delegationToken => True

/-- An attestation names one party three times. -/
theorem AttestationAccepted.selfIssued {inp : Members} {now : Int} {claims : Members}
    (h : AttestationAccepted P inp now claims) : claims.get (txt "iss") = claims.get (txt "sub") := by
  obtain ⟨sub, hsub⟩ := h.shape.sub
  have ha := h.attested
  simp only [checkAttestationClaims, bind_eq_ok, exists_unit, raiseIf_eq_ok, Bool.not_eq_false', Bool.and_eq_true, hsub,
    JsonValue.eq_str] at ha
  rw [ha.1.1, hsub]

/-- What an accepting operation has verified, in the family it belongs to. -/
theorem TokenUse.Accepts.issued {token : JsonValue} {use : TokenUse} (h : use.Accepts P token) :
    ∃ claims, IssuedToken P token use.family.typ claims ∧ use.Parties claims := by
  cases use with
  | tct =>
    obtain ⟨inp, now, r, ht, hr⟩ := h
    obtain ⟨claims, ha, _⟩ := (verifyTct_eq_ok P).mp hr
    obtain ⟨found, hfound, hi⟩ := ha.signed
    obtain rfl := Option.some.inj (ht.symm.trans hfound)
    exact ⟨claims, hi, ha.grant.notSelf⟩
  | tctAsIssuer =>
    obtain ⟨inp, now, r, ht, hr⟩ := h
    obtain ⟨claims, ha, _⟩ := (verifyTctAsIssuer_eq_ok P).mp hr
    obtain ⟨found, hfound, hi⟩ := ha.signed
    obtain rfl := Option.some.inj (ht.symm.trans hfound)
    exact ⟨claims, hi, ha.grant.notSelf⟩
  | attestation =>
    obtain ⟨inp, now, r, ht, hr⟩ := h
    obtain ⟨claims, ha⟩ := verifyAttestation_accepted P hr
    obtain ⟨found, hfound, hi⟩ := ha.signed
    obtain rfl := Option.some.inj (ht.symm.trans hfound)
    exact ⟨claims, hi, ha.selfIssued⟩
  | commit =>
    obtain ⟨inp, env, now, r, hin, hm, rfl, hr⟩ := h
    obtain ⟨_, claims, henv, hchecks, _⟩ := (verifyHandshakePayload_commit P hin hm).mp hr
    obtain rfl := JsonValue.dict.inj henv
    exact ⟨claims, hchecks.token.signed, hchecks.token.grant.notSelf⟩
  | commitSide =>
    obtain ⟨inp, side, peer, payload, now, r, hpair, hside, hp, hpay, rfl, hr⟩ := h
    obtain ⟨claims, peer', payload', _, hp', htoken, hpay'⟩ := verifyHandshakePayload_side P hpair hside hr
    obtain rfl := Option.some.inj (hp.symm.trans hp')
    obtain rfl := Except.ok.inj (hpay.symm.trans hpay')
    exact ⟨claims, htoken.signed, htoken.grant.notSelf⟩
  | grantVoucher =>
    obtain ⟨inp, now, r, ht, hr⟩ := h
    obtain ⟨found, claims, hfound, hi⟩ := verifyGrantVoucher_issued P hr
    obtain rfl := Option.some.inj (ht.symm.trans hfound)
    exact ⟨claims, hi, trivial⟩
  | delegationToken =>
    obtain ⟨inp, now, r, rfl, hr⟩ := h
    obtain ⟨_, _, last, _, ha, _⟩ := verifyDelegationToken_run P hr
    have hi := (ha.run.verified last (List.mem_of_getLast? ha.outer)).token.signed
    rw [ha.token] at hi
    exact ⟨last.claims, hi, trivial⟩

/-- Two operations that accept one token are of one family. -/
theorem TokenUse.Accepts.family_unique {token : JsonValue} {use use' : TokenUse} (h : use.Accepts P token)
    (h' : use'.Accepts P token) : use.family = use'.family := by
  obtain ⟨_, ⟨_, _, hs⟩, _⟩ := h.issued
  obtain ⟨_, ⟨_, _, hs'⟩, _⟩ := h'.issued
  exact Family.typ_injective (hs.typ_unique P hs')

/-- A token keeps its role across all inputs and clocks: one family accepts it at
most, and what passes as an attestation is no grant. -/
theorem tokenRole_unique (token : JsonValue) :
    (∀ use use' : TokenUse, use.Accepts P token → use'.Accepts P token → use.family = use'.family) ∧
      (TokenUse.attestation.Accepts P token → ∀ use ∈ grantUses, ¬ use.Accepts P token) := by
  refine ⟨fun use use' h h' => h.family_unique P h', fun h use hgrant h' => ?_⟩
  obtain ⟨claims, hi, hself⟩ := h.issued
  obtain ⟨claims', hi', hparties⟩ := h'.issued
  obtain rfl := hi.unique P hi'
  have hne : claims.get (txt "iss") ≠ claims.get (txt "sub") := by
    simp only [grantUses, List.mem_cons, List.not_mem_nil, or_false] at hgrant
    rcases hgrant with rfl | rfl | rfl | rfl <;> exact hparties
  exact hne hself

/-- Agent A's grant to agent B is nothing else, and its attestation grants nothing. -/
theorem tokenRole_unique_recorded :
    (∀ use : TokenUse, use.Accepts grantRecording.platform grantToken → use.family = .tct ∧ use ≠ .attestation) ∧
      ∀ use ∈ grantUses, ¬ use.Accepts grantRecording.platform attestationToken := by
  have hgrant : TokenUse.tct.Accepts grantRecording.platform grantToken :=
    ⟨answeredInput grantToken, referenceClock, _, rfl, grantToken_accepted⟩
  have hattested : TokenUse.attestation.Accepts grantRecording.platform attestationToken :=
    ⟨answeredInput attestationToken, referenceClock, _, rfl, attestationToken_accepted⟩
  refine ⟨fun use h => ⟨(tokenRole_unique grantRecording.platform grantToken).1 use .tct h hgrant, ?_⟩,
    (tokenRole_unique grantRecording.platform attestationToken).2 hattested⟩
  rintro rfl
  exact (tokenRole_unique grantRecording.platform grantToken).2 h .tct (by simp [grantUses]) hgrant

end AitpVerifier
