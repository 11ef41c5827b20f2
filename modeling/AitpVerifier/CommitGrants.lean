import AitpVerifier.Commit

/-!
# The commit branch against the relying party

The handshake checks the token of a commit message with a checklist of its own. What
that checklist admits, `verifyTct` accepts for the same audience and with the same grants.
-/
namespace AitpVerifier

open PyText Checked

/-- A relying party's call on a token: an audience, `fail_open`, no Manifest and no
revocation list. -/
structure LenientCall (inp : Members) (token audience : JsonValue) : Prop where
  token : inp.get? (txt "tct_token") = some token
  audience : inp.get (txt "expected_audience") = audience
  lenient : inp.get (txt "policy") = .dict [(txt "fail_mode", .str (txt "fail_open"))]
  noManifest : inp.get (txt "issuer_manifest") = .null
  noList : inp.get (txt "issuer_revocation_list") = .null

section Lenient

variable (P : Platform) {inp : Members} {token audience : JsonValue} (h : LenientCall inp token audience)

include h

theorem LenientCall.failOpen : policyFailMode inp = .failOpen := by
  rw [policyFailMode, policyOf, h.lenient]
  decide

/-- Nothing caps the token. -/
theorem LenientCall.cap (claims : Members) (what : Text) : checkManifestCap P claims inp what = .ok () := by
  rw [checkManifestCap, h.noManifest]

/-- Nothing is looked up, and `fail_open` lets that pass. -/
theorem LenientCall.revocation (claims : Members) (now : Int) : checkRevocation P claims inp now = .ok () := by
  rw [checkRevocation, h.noList]
  simp only [h.failOpen, tctAbsence]
  rfl

end Lenient

variable (P : Platform)

/-- The relying party accepts what the commit branch admits for its audience. -/
theorem CommitToken.accepted {inp call : Members} {tct selfAid : JsonValue} {now : Int} {claims : Members}
    (h : CommitToken P inp tct selfAid now claims) (hcall : LenientCall call tct selfAid) :
    TctAccepted P call now claims := by
  constructor
  · exact ⟨tct, hcall.token, h.signed⟩
  · exact h.shape
  · exact h.ver
  · rw [hcall.audience]
    exact h.aud
  · exact h.grant
  · exact hcall.cap P claims _
  · exact hcall.revocation P claims now

/-- What the issuer offered, where that is configured, holds every grant. -/
theorem CommitToken.withinOffer {inp : Members} {tct selfAid : JsonValue} {now : Int} {claims : Members}
    (h : CommitToken P inp tct selfAid now claims) (hoffer : inp.get (txt "issuer_offered_capabilities") ≠ .null) :
    ∃ offered, (inp.get (txt "issuer_offered_capabilities")).set = .ok offered ∧
      (claims.get (txt "grants")).items ⊆ offered := by
  have ho := h.offered
  unfold checkOffered at ho
  split at ho
  · rename_i hnull
    exact absurd hnull hoffer
  · obtain ⟨offered, hset, hsub⟩ := bind_eq_ok.mp ho
    rw [raiseIf_eq_ok, Bool.not_eq_false', JsonValue.subset_iff h.shape.grants] at hsub
    exact ⟨offered, hset, hsub⟩

/-- A commit payload accepted for a receiver, known or not, carries a token the relying
party accepts for that receiver with the same grants, all of them offered where an
offer is known. -/
theorem verifyCommit_refines_verifyTct (inp call : Members) (payload selfAid grants : JsonValue) (now : Int)
    (hcall : LenientCall call (payload.members.get (txt "tct")) selfAid)
    (h : verifyCommit P inp payload selfAid now = .ok grants) :
    verifyTct P call now = .ok [(txt "grants", grants)] ∧
      (inp.get (txt "issuer_offered_capabilities") ≠ .null →
        ∃ offered, (inp.get (txt "issuer_offered_capabilities")).set = .ok offered ∧ grants.items ⊆ offered) := by
  obtain ⟨claims, htoken, rfl⟩ := verifyCommit_token P h
  constructor
  · exact (verifyTct_eq_ok P).mpr ⟨claims, htoken.accepted P hcall, rfl⟩
  · exact htoken.withinOffer P

/-- Agent B's call on the token agent A committed. -/
def committedCall : Members :=
  [(txt "tct_token", grantToken), (txt "expected_audience", .str (aidOf agentB)),
    (txt "policy", .dict [(txt "fail_mode", .str (txt "fail_open"))])]

/-- The honest commit, under an offer of two capabilities. -/
def offeredCommit : Members :=
  (txt "issuer_offered_capabilities", .list [.str (txt "read"), .str (txt "write")]) :: commitInput honestCommit

theorem verifyCommit_refines_verifyTct_honest :
    verifyTct commitRecording.platform committedCall referenceClock =
        .ok [(txt "grants", .list [.str (txt "read")])] ∧
      (offeredCommit.get (txt "issuer_offered_capabilities") ≠ .null →
        ∃ offered, (offeredCommit.get (txt "issuer_offered_capabilities")).set = .ok offered ∧
          (JsonValue.list [.str (txt "read")]).items ⊆ offered) := by
  have haccepted : verifyCommit commitRecording.platform offeredCommit (.dict (payloadOf honestCommit))
      (.str (aidOf agentB)) referenceClock = .ok (.list [.str (txt "read")]) := by
    decide +kernel
  exact verifyCommit_refines_verifyTct commitRecording.platform offeredCommit committedCall
    (.dict (payloadOf honestCommit)) (.str (aidOf agentB)) _ referenceClock ⟨rfl, rfl, rfl, rfl, rfl⟩ haccepted

end AitpVerifier
