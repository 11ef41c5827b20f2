import AitpVerifier.VerifiedPlaces

/-!
# One protocol version at every depth

Each entry point verifies artifacts at several places of its input. Everywhere but
at three of those places the declared version is held to the protocol's.
-/
namespace AitpVerifier

open PyText Checked

/-- The member that declares the version of the artifact at a place. -/
def Place.versionMember : Place → Text
  | .envelope | .manifest | .issuerManifest | .snapshot | .bundle | .coordinatorManifest => txt "version"
  | .tct | .grantVoucher | .embeddedVoucher | .singleHop | .hop | .commitTct | .sideTct | .participantTct => txt "ver"

def Place.Declares (place : Place) (body : Members) : Prop :=
  body.get place.versionMember = .str protocolVersion

/-- The places whose version no step reads. -/
def Place.Unchecked (place : Place) : Prop := place ∈ [.embeddedVoucher, .singleHop, .participantTct]

instance (place : Place) : Decidable place.Unchecked := inferInstanceAs (Decidable (_ ∈ _))

variable (P : Platform)

/-! ### Every other place is checked -/

theorem Operation.Accepts.returns {inp : Members} {now : Int} {op : Operation} (h : op.Accepts P inp now) :
    op.Returns P inp now := by
  cases op with
  | manifest => exact h.2
  | _ => exact h

variable {P} in
/-- Away from the three unchecked places what was established includes the version. -/
theorem Place.Established.declares {defaults : Prop} {body : Members} {place : Place} (h : place.Established P defaults body)
    (hd : defaults) (hu : ¬ place.Unchecked) : place.Declares body := by
  have hmanifest (hverified : ManifestVerified P defaults body) : body.get (txt "version") = .str protocolVersion := by
    obtain ⟨call, now, r, hman, hversions, hr⟩ := hverified
    exact verifyManifest_version P hman (hversions hd) hr
  cases place with
  | envelope => exact EnvelopeShape.version h
  | manifest | issuerManifest | coordinatorManifest => exact hmanifest h
  | tct | commitTct | sideTct | grantVoucher | hop => exact h.2
  | snapshot =>
    obtain ⟨wrapper, hb⟩ := h
    exact (verifySnapshotTrust_trusted P hb).shape.version
  | bundle =>
    obtain ⟨inp, now, man, coord, hrun⟩ := h
    exact (checkBundleTimes_eq_ok P hrun.times).1
  | embeddedVoucher | singleHop | participantTct => exact absurd (by decide) hu

/-- Away from the three unchecked places an accepted artifact declares the version. -/
theorem VerifiedAt.declares {op : Operation} {inp body : Members} {now : Int} {place : Place}
    (hv : VerifiedAt P inp op place body) (h : op.Accepts P inp now) (hu : ¬ place.Unchecked) :
    place.Declares body :=
  (hv.established P (h.returns P)).declares h hu

/-- An accepted input's artifacts all declare the protocol version exactly when those
at the unchecked places do: an embedded voucher, a single-hop delegation token, a
bundle participant's token. -/
theorem cutover_iff (op : Operation) (inp : Members) (now : Int) (h : op.Accepts P inp now) :
    (∀ place body, VerifiedAt P inp op place body → place.Declares body) ↔
      ∀ place body, place.Unchecked → VerifiedAt P inp op place body → place.Declares body := by
  constructor
  · intro hall place body _ hv
    exact hall place body hv
  · intro hunchecked place body hv
    by_cases hu : place.Unchecked
    · exact hunchecked place body hu hv
    · exact hv.declares P h hu

/-- On the two-token delegation to agent B only agent A's voucher is left to look at. -/
theorem cutover_lastHop :
    (∀ place body, VerifiedAt delegationRecording.platform (delegationInput lastHopToken) .delegationToken place body →
        place.Declares body) ↔
      ∀ place body, place.Unchecked →
        VerifiedAt delegationRecording.platform (delegationInput lastHopToken) .delegationToken place body →
          place.Declares body :=
  cutover_iff delegationRecording.platform .delegationToken (delegationInput lastHopToken) referenceClock
    ⟨_, lastHop_accepted⟩

/-! ### A single-hop token of the version before -/

def oldVersion : Text := txt "aitp/0.2"

def oldHopSignature : Text :=
  txt "-sMtKQPRNZ_QnpyloZbUDuzd2yvlhs6mnLqhZEPn" ++
    txt "3splhUQ2LfSPq0TIXgRbZ4_jWvcBpuDdubjsxqmw" ++ txt "tyrCCg"

def oldHopToken : JsonValue := mintedToken delegationTyp (firstHopClaims oldVersion) oldHopSignature

def oldHopRecording : Recording :=
  { delegationRecording with
    signatures := mintedSignature agentB delegationTyp (firstHopClaims oldVersion) oldHopSignature ::
      delegationRecording.signatures }

theorem delegationInput_token (token : JsonValue) :
    (delegationInput token).get (txt "delegation_token") = token := rfl

/-- Agent B's delegation passes under `aitp/0.2`. -/
theorem oldHop_accepted :
    ∃ claims, Operation.delegationToken.Accepts oldHopRecording.platform (delegationInput oldHopToken) referenceClock ∧
      VerifiedAt oldHopRecording.platform (delegationInput oldHopToken) .delegationToken .singleHop claims ∧
      ¬ Place.singleHop.Declares claims := by
  have hok : (verifyDelegationToken oldHopRecording.platform (delegationInput oldHopToken) referenceClock).isOk := by
    decide +kernel
  have hpeek : (peekClaims oldHopRecording.platform oldHopToken "DELEGATION_INVALID").toOption.map
      (fun claims => (claims.get (txt "ver"), claims.has (txt "chain"))) = some (.str oldVersion, false) := by
    decide +kernel
  obtain ⟨r, hr⟩ := isOk_iff.mp hok
  obtain ⟨selfAid, hops, last, voucher, ha, _⟩ := verifyDelegationToken_run oldHopRecording.platform hr
  have hissued := (ha.run.verified last (List.mem_of_getLast? ha.outer)).token.signed
  rw [ha.token] at hissued
  have hparses : peekClaims oldHopRecording.platform oldHopToken "DELEGATION_INVALID" = .ok last.claims := by
    obtain ⟨_, _, hsigned⟩ := hissued
    rw [delegationInput_token] at hsigned
    exact (peekClaims_eq_ok oldHopRecording.platform).mpr hsigned.parses
  rw [hparses, Except.toOption, Option.map_some, Option.some.injEq, Prod.mk.injEq] at hpeek
  obtain ⟨hver, hchain⟩ := hpeek
  refine ⟨last.claims, ⟨r, hr⟩, .singleHop ?_ hissued, ?_⟩
  · rintro ⟨outer, hcarries, houter⟩
    rw [ha.outer_claims oldHopRecording.platform hcarries, hchain] at houter
    exact Bool.false_ne_true houter
  · intro hdeclares
    have hcurrent : last.claims.get (txt "ver") = .str protocolVersion := hdeclares
    exact absurd (JsonValue.str.inj (hver.symm.trans hcurrent)) (by decide)

end AitpVerifier
