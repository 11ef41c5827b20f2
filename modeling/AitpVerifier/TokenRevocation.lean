import AitpVerifier.CommitGrants
import AitpVerifier.FailModes

/-!
# The revocation of a token against the snapshot operation

A token's own check and `verifyRevocationSnapshot` judge issuer, freshness, mode and
deny list each in its own control flow. On a trusted snapshot they agree, and one that
is not trusted counts for the token as none at all.
-/
namespace AitpVerifier

open PyText Checked

variable (P : Platform)

/-- The snapshot operation's question about one token: its issuer, its identifier, the
caller's policy and clock. -/
structure SnapshotQuery (inp : Members) (clock : Option Int) (now : Int) (snapshot policy : JsonValue)
    (claims : Members) : Prop where
  clock : clockOf P inp clock = .ok now
  snapshot : inp.get? (txt "snapshot") = some snapshot
  policy : inp.get (txt "policy") = policy
  issuer : inp.get (txt "expected_issuer") = claims.get (txt "iss")
  jti : inp.get (txt "queried_jti") = claims.get (txt "jti")

/-- A call with a policy and a snapshot of its own, otherwise like `base`. -/
structure RevocationCall (base inp : Members) (snapshot policy : JsonValue) : Prop where
  same : AgreeExcept [txt "policy", txt "issuer_revocation_list"] base inp
  list : inp.get (txt "issuer_revocation_list") = .dict [(txt "snapshot", snapshot)]
  policy : inp.get (txt "policy") = policy

/-- Two inputs under one policy have one fail mode. -/
theorem policyFailMode_congr {inp inp' : Members} (h : inp.get (txt "policy") = inp'.get (txt "policy")) :
    policyFailMode inp = policyFailMode inp' := by
  rw [policyFailMode, policyFailMode, policyOf, policyOf, h]

theorem policyOf_congr {inp inp' : Members} (h : inp.get (txt "policy") = inp'.get (txt "policy")) :
    policyOf inp = policyOf inp' := by
  rw [policyOf, policyOf, h]

/-- A missing answer is a revocation under `fail_closed` alone. -/
theorem tctAbsence_raises {mode : FailMode} {detail : Text} :
    Raises (tctAbsence mode detail) "TCT_REVOKED" ↔ mode = .failClosed := by
  cases mode with
  | failClosed => exact iff_of_true ⟨_, rfl, rfl⟩ rfl
  | failOpen => exact iff_of_false not_raises_ok nofun
  | softFail => exact iff_of_false not_raises_ok nofun

/-- The same for the snapshot operation's verdict. -/
theorem unusable_raises {mode : FailMode} :
    Raises (match mode with
      | .failClosed => .error (AitpError "TCT_REVOKED" (txt "no fresh valid revocation snapshot (fail_closed)"))
      | _ => .ok [(txt "revoked", .bool false), (txt "stale", .bool true)] : PyM Members) "TCT_REVOKED" ↔
      mode = .failClosed := by
  cases mode with
  | failClosed => exact iff_of_true ⟨_, rfl, rfl⟩ rfl
  | failOpen => exact iff_of_false not_raises_ok nofun
  | softFail => exact iff_of_false not_raises_ok nofun

theorem raiseIf_raises {c : Bool} {code : String} {message : Text} :
    Raises (raiseIf c (AitpError code message)) code ↔ c = true := by
  cases c with
  | false => exact iff_of_false not_raises_ok nofun
  | true => exact iff_of_true ⟨_, rfl, rfl⟩ rfl

/-- What a token has passed is of the claims it parses to. -/
theorem tctChecks_claims {inp : Members} {now : Int} {finding : TctFinding} (h : tctChecks P inp now = .ok finding) :
    TctShape finding.claims ∧ ∃ token, inp.get? (txt "tct_token") = some token ∧
      peekClaims P token "TCT_SIGNATURE_INVALID" = .ok finding.claims := by
  simp only [tctChecks, verifyTctJws, bind_eq_ok, exists_unit, Members.index_eq_ok, verifyJws_eq_ok,
    checkTctClaimsShape_eq_ok, Except.ok.injEq] at h
  obtain ⟨token, htoken, _, _, _, _, claims, ⟨hsigned, hshape⟩, _, _, _, _, rfl⟩ := h
  exact ⟨hshape, token, htoken, (peekClaims_eq_ok P).mpr hsigned.parses⟩

/-- A token accepted under one policy fails under another only in its revocation step. -/
theorem verifyTct_raises {base inp : Members} {token snapshot policy : JsonValue} {claims : Members} {now : Int}
    {r : Members} {code : String} (haccepted : verifyTct P base now = .ok r)
    (htoken : base.get? (txt "tct_token") = some token)
    (hclaims : peekClaims P token "TCT_SIGNATURE_INVALID" = .ok claims) (hcall : RevocationCall base inp snapshot policy) :
    TctShape claims ∧ (Raises (verifyTct P inp now) code ↔ Raises (checkRevocation P claims inp now) code) := by
  rw [verifyTct_staged] at haccepted
  obtain ⟨finding, hfinding, _⟩ := bind_eq_ok.mp haccepted
  obtain ⟨hshape, found, hfound, hpeeked⟩ := tctChecks_claims P hfinding
  obtain rfl := Option.some.inj (hfound.symm.trans htoken)
  obtain rfl := Except.ok.inj (hpeeked.symm.trans hclaims)
  have hagree : AgreeExcept revocationMembers base inp := hcall.same.mono (by decide)
  refine ⟨hshape, ?_⟩
  rw [verifyTct_staged, ← hagree.tctChecks P now, hfinding, ok_bind, TctFinding.conclude, raises_bind]
  simp only [not_raises_ok, and_false, exists_false, or_false]

/-- The two verdicts on one trusted body. -/
theorem checkTrustedSnapshot_agrees {inp query body claims : Members} {clock : Option Int} {now : Int}
    {snapshot policy : JsonValue} (hshape : TctShape claims) (htrust : verifySnapshotTrust P snapshot = .ok body)
    (hpolicy : inp.get (txt "policy") = policy) (hquery : SnapshotQuery P query clock now snapshot policy claims) :
    Raises (checkTrustedSnapshot P claims inp body now) "TCT_REVOKED" ↔
      Raises (verifyRevocationSnapshot P query clock) "TCT_REVOKED" := by
  have hmode : policyFailMode query = policyFailMode inp := policyFailMode_congr (hquery.policy.trans hpolicy.symm)
  have hof : policyOf query = policyOf inp := policyOf_congr (hquery.policy.trans hpolicy.symm)
  have hindex : query.index (txt "snapshot") = .ok snapshot := by rw [Members.index, hquery.snapshot]
  obtain ⟨jti, hjti⟩ := hshape.jtiText
  rw [checkTrustedSnapshot, verifyRevocationSnapshot]
  simp only [hquery.clock, hindex, htrust, ok_bind, hquery.issuer, hquery.jti, hof, hmode]
  cases (body.get (txt "issuer")).eq (claims.get (txt "iss")) with
  | false =>
    -- another issuer's word: absent for the token, unusable for the query
    simp only [Bool.not_false, if_true, Bool.false_eq_true, if_false]
    rw [tctAbsence_raises]
    exact unusable_raises.symm
  | true =>
    simp only [Bool.not_true, Bool.false_eq_true, if_false, if_true]
    cases snapshotIsStale P body (policyOf inp) now with
    | error e => rw [error_bind, error_bind, raises_error, raises_error]
    | ok stale =>
      cases stale with
      | true =>
        simp only [ok_bind, if_true]
        rw [tctAbsence_raises]
        exact unusable_raises.symm
      | false =>
        simp only [ok_bind, Bool.false_eq_true, if_false, hjti, JsonValue.isNull, Bool.not_false, Bool.true_and]
        rw [raises_bind, raiseIf_raises, raiseIf_raises]
        simp only [not_raises_ok, and_false, exists_false, or_false]

/-- On a trusted snapshot a token accepted without one is refused as revoked exactly
when the snapshot operation refuses its identifier; one that is not trusted leaves the
verdict to the mode. -/
theorem verifyTct_agrees_with_snapshot (base inp query : Members) (token snapshot policy : JsonValue) (claims r : Members)
    (clock : Option Int) (now : Int) (haccepted : verifyTct P base now = .ok r)
    (htoken : base.get? (txt "tct_token") = some token)
    (hclaims : peekClaims P token "TCT_SIGNATURE_INVALID" = .ok claims) (hcall : RevocationCall base inp snapshot policy)
    (hquery : SnapshotQuery P query clock now snapshot policy claims) :
    ((verifySnapshotTrust P snapshot).isOk →
        (Raises (verifyTct P inp now) "TCT_REVOKED" ↔ Raises (verifyRevocationSnapshot P query clock) "TCT_REVOKED")) ∧
      (∀ code, Raises (verifySnapshotTrust P snapshot) code →
        (Raises (verifyTct P inp now) "TCT_REVOKED" ↔ policyFailMode inp = .failClosed)) := by
  obtain ⟨hshape, hraises⟩ :=
    @verifyTct_raises P base inp token snapshot policy claims now r "TCT_REVOKED" haccepted htoken hclaims hcall
  have hsnapshot : Members.get ([(txt "snapshot", snapshot)] : Members) (txt "snapshot") = snapshot := rfl
  rw [hraises, checkRevocation, hcall.list]
  simp only [hsnapshot]
  constructor
  · intro htrusted
    obtain ⟨body, htrust⟩ := isOk_iff.mp htrusted
    rw [htrust]
    exact checkTrustedSnapshot_agrees P hshape htrust hcall.policy hquery
  · rintro code ⟨e, hfails, hunder⟩
    rw [hfails]
    cases e with
    | aitp => exact tctAbsence_raises
    | raised => cases hunder

/-- Agent A's token for agent B beside agent A's deny list, under the default policy. -/
def listedCall : Members :=
  [(txt "tct_token", grantToken), (txt "expected_audience", .str (aidOf agentB)), (txt "policy", .dict []),
    (txt "issuer_revocation_list", .dict [(txt "snapshot", snapshotOf agentA snapshotSignatureA)])]

def listedQuery : Members :=
  [(txt "snapshot", snapshotOf agentA snapshotSignatureA), (txt "policy", .dict []),
    (txt "expected_issuer", .str (aidOf agentA)), (txt "queried_jti", grantClaims.get (txt "jti"))]

/-- The claims as the token spells them: canonical order. -/
def receivedClaims : Members :=
  [txt "aud", txt "cnf", txt "exp", txt "grants", txt "iat", txt "iss", txt "jti", txt "sub", txt "ver"].map
    (fun name => (name, grantClaims.get name))

/-- Past the deny list's expiry both calls refuse, under the default `fail_closed`. -/
def staleClock : Int := referenceClock + 7200

theorem verifyTct_agrees_with_snapshot_stale :
    Raises (verifyRevocationSnapshot grantRecording.platform listedQuery (some staleClock)) "TCT_REVOKED" ∧
      ((verifySnapshotTrust grantRecording.platform (snapshotOf agentA snapshotSignatureA)).isOk →
        (Raises (verifyTct grantRecording.platform listedCall staleClock) "TCT_REVOKED" ↔
          Raises (verifyRevocationSnapshot grantRecording.platform listedQuery (some staleClock)) "TCT_REVOKED")) ∧
      (∀ code, Raises (verifySnapshotTrust grantRecording.platform (snapshotOf agentA snapshotSignatureA)) code →
        (Raises (verifyTct grantRecording.platform listedCall staleClock) "TCT_REVOKED" ↔
          policyFailMode listedCall = .failClosed)) := by
  have haccepted : verifyTct grantRecording.platform committedCall staleClock =
      .ok [(txt "grants", .list [.str (txt "read")])] := by
    decide +kernel
  have hclaims : peekClaims grantRecording.platform grantToken "TCT_SIGNATURE_INVALID" = .ok receivedClaims := by
    decide +kernel
  have hsame : AgreeExcept [txt "policy", txt "issuer_revocation_list"] committedCall listedCall := by
    intro key hk
    have hpolicy : txt "policy" ≠ key := fun h => hk (h ▸ by simp)
    have hlist : txt "issuer_revocation_list" ≠ key := fun h => hk (h ▸ by simp)
    simp [committedCall, listedCall, Members.get?, hpolicy, hlist]
  refine ⟨by decide +kernel, ?_⟩
  exact verifyTct_agrees_with_snapshot grantRecording.platform committedCall listedCall listedQuery grantToken
    (snapshotOf agentA snapshotSignatureA) (.dict []) receivedClaims _ (some staleClock) staleClock haccepted rfl hclaims
    ⟨hsame, rfl, rfl⟩ ⟨rfl, rfl, rfl, rfl, rfl⟩

end AitpVerifier
