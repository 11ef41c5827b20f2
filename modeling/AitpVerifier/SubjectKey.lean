import AitpVerifier.Cutover

/-!
# The subject's key of a delegation

A delegation token names its subject and binds the subject's key. The hop loop
compares the two; the single-hop path reads neither.
-/
namespace AitpVerifier

open PyText Checked

variable (P : Platform)

/-- `sub` is an identifier, and `cnf.jkt` the thumbprint of its key. -/
def SubjectBound (claims : Members) : Prop :=
  ∃ text sub, claims.get (txt "sub") = .str text ∧ parseAid P text = .ok sub ∧
    (claims.get (txt "cnf")).members.get (txt "jkt") = .str (thumbprint P sub)

/-- The delegation tokens a call verified, by the claims they carry. -/
def DelegationVerified (inp claims : Members) : Prop :=
  ∃ token, DelegationTokenOf P inp token ∧ IssuedToken P token delegationTyp claims

/-- What the hop loop compares is the whole binding. -/
theorem HopBinding.subjectBound {claims : Members} (h : HopBinding P claims) (hs : DelegationShape claims) :
    SubjectBound P claims := by
  obtain ⟨text, ht⟩ := hs.sub
  obtain ⟨sub, hp, hj⟩ := h.cnf
  rw [ht] at hp
  exact ⟨text, sub, ht, hp, hj⟩

/-- On a chain every token is bound. -/
theorem AcceptedRun.subjects_bound {inp : Members} {now : Int} {selfAid : Text} {hops : List Hop} {last : Hop}
    {voucher : Members} (h : AcceptedRun P inp now selfAid hops last voucher) (hc : Chained P inp) {claims : Members}
    (hv : DelegationVerified P inp claims) : SubjectBound P claims := by
  obtain ⟨outer, hcarries, hchain⟩ := hc
  rw [h.outer_claims P hcarries] at hchain
  obtain ⟨token, ht, hi⟩ := hv
  obtain ⟨hop, hm, rfl⟩ := h.hop_of_token P ht hi
  exact (h.bound hchain hop hm).subjectBound P (h.run.verified hop hm).token.shape

/-- Without a chain the outer token is the only one. -/
theorem DelegationTokenOf.outer {inp : Members} {token : JsonValue} (h : DelegationTokenOf P inp token)
    (hc : ¬ Chained P inp) : token = inp.get (txt "delegation_token") := by
  rcases h with rfl | ⟨outer, hcarries, hm⟩
  · rfl
  · have hnone : outer.get? (txt "chain") = none :=
      Option.not_isSome_iff_eq_none.mp fun hchain => hc ⟨outer, hcarries, hchain⟩
    simp [Members.get, hnone, JsonValue.items] at hm

/-- An accepted delegation binds the subject of every token it verified exactly when
its token carries a chain, or binds its own subject unasked. -/
theorem subjects_bound_iff (inp : Members) (now : Int) (r : Members) (h : verifyDelegationToken P inp now = .ok r) :
    (∀ claims, DelegationVerified P inp claims → SubjectBound P claims) ↔
      ∃ outer, Carries P (inp.get (txt "delegation_token")) outer ∧
        (outer.has (txt "chain") ∨ SubjectBound P outer) := by
  obtain ⟨selfAid, hops, last, voucher, ha, _⟩ := verifyDelegationToken_run P h
  have hissued := (ha.run.verified last (List.mem_of_getLast? ha.outer)).token.signed
  rw [ha.token] at hissued
  have hcarries : Carries P (inp.get (txt "delegation_token")) last.claims := by
    obtain ⟨_, _, hsigned⟩ := hissued
    exact hsigned.parses
  constructor
  · intro hall
    exact ⟨last.claims, hcarries, .inr (hall _ ⟨_, .inl rfl, hissued⟩)⟩
  · rintro ⟨outer, ho, hcond⟩ claims hv
    obtain rfl := ha.outer_claims P ho
    by_cases hc : Chained P inp
    · exact ha.subjects_bound P hc hv
    · have hbound := hcond.resolve_left fun hchain => hc ⟨_, ho, hchain⟩
      obtain ⟨token, ht, hi⟩ := hv
      rw [ht.outer P hc] at hi
      rwa [hi.unique P hissued]

/-- The two-token delegation binds both subjects. -/
theorem subjects_bound_lastHop :
    (∀ claims, DelegationVerified delegationRecording.platform (delegationInput lastHopToken) claims →
        SubjectBound delegationRecording.platform claims) ↔
      ∃ outer, Carries delegationRecording.platform ((delegationInput lastHopToken).get (txt "delegation_token")) outer ∧
        (outer.has (txt "chain") ∨ SubjectBound delegationRecording.platform outer) :=
  subjects_bound_iff delegationRecording.platform (delegationInput lastHopToken) referenceClock _ lastHop_accepted

/-! ### A delegation to agent C that binds agent B's key -/

def unboundHopClaims : Members :=
  [(txt "ver", .str (txt "aitp/0.3")), (txt "iss", .str (aidOf agentB)), (txt "sub", .str (aidOf agentC)),
    (txt "aud", .str (aidOf agentA)), (txt "scope", .list [.str (txt "read")]), (txt "exp", .int 1711986400),
    (txt "cnf", .dict [(txt "jkt", .str thumbprintB)]), (txt "jti", .str (txt "d1")), (txt "voucher", voucherToken)]

def unboundHopSignature : Text :=
  txt "XZVH3vCxR3PRbxzlfI_zRR2iuuc2KKp-cHLqED32" ++
    txt "N4vmxjw69NhaS5ZFPvzJuxUZXgy2L36UHCJnJFjl" ++ txt "HLTJAA"

def unboundHopToken : JsonValue := mintedToken delegationTyp unboundHopClaims unboundHopSignature

def unboundHopRecording : Recording :=
  { delegationRecording with
    signatures := mintedSignature agentB delegationTyp unboundHopClaims unboundHopSignature ::
      delegationRecording.signatures }

/-- The single-hop path accepts it. -/
theorem unboundHop_accepted :
    ∃ r claims, verifyDelegationToken unboundHopRecording.platform (delegationInput unboundHopToken) referenceClock = .ok r ∧
      DelegationVerified unboundHopRecording.platform (delegationInput unboundHopToken) claims ∧
      ¬ SubjectBound unboundHopRecording.platform claims := by
  have hok : (verifyDelegationToken unboundHopRecording.platform (delegationInput unboundHopToken)
      referenceClock).isOk := by
    decide +kernel
  have hpeek : (peekClaims unboundHopRecording.platform unboundHopToken "DELEGATION_INVALID").toOption.map
      (fun claims => (claims.get (txt "sub"), (claims.get (txt "cnf")).members.get (txt "jkt"))) =
      some (.str (aidOf agentC), .str thumbprintB) := by
    decide +kernel
  have hkey : (parseAid unboundHopRecording.platform (aidOf agentC)).toOption.map
      (thumbprint unboundHopRecording.platform) = some thumbprintC := by
    decide +kernel
  obtain ⟨r, hr⟩ := isOk_iff.mp hok
  obtain ⟨selfAid, hops, last, voucher, ha, _⟩ := verifyDelegationToken_run unboundHopRecording.platform hr
  have hissued := (ha.run.verified last (List.mem_of_getLast? ha.outer)).token.signed
  rw [ha.token, delegationInput_token] at hissued
  have hparses : peekClaims unboundHopRecording.platform unboundHopToken "DELEGATION_INVALID" = .ok last.claims := by
    obtain ⟨_, _, hsigned⟩ := hissued
    exact (peekClaims_eq_ok unboundHopRecording.platform).mpr hsigned.parses
  rw [hparses, Except.toOption, Option.map_some, Option.some.injEq, Prod.mk.injEq] at hpeek
  refine ⟨r, last.claims, hr, ⟨unboundHopToken, .inl (delegationInput_token _).symm, hissued⟩, ?_⟩
  rintro ⟨text, sub, ht, hp, hj⟩
  obtain rfl := JsonValue.str.inj (hpeek.1.symm.trans ht)
  rw [hp, Except.toOption, Option.map_some, Option.some.injEq] at hkey
  rw [hpeek.2, hkey] at hj
  exact absurd (JsonValue.str.inj hj) (by decide)

end AitpVerifier
