import AitpVerifier.RevocationLast

/-!
# The three modes of a revocation policy

The mode decides one thing: whether the absence of a usable snapshot refuses. So
`fail_closed` accepts least, the other two modes never differ, and a mode nobody
defined is `fail_closed`.
-/
namespace AitpVerifier

open PyText Checked

/-- Two inputs that differ in their policy's `fail_mode` at most. -/
structure SameExceptMode (inp inp' : Members) : Prop where
  agree : AgreeExcept [txt "policy"] inp inp'
  policy : AgreeExcept [txt "fail_mode"] (policyOf inp) (policyOf inp')

/-- The `fail_mode` a policy declares. -/
def declaredMode (inp : Members) : Option JsonValue := (policyOf inp).get? (txt "fail_mode")

/-- Both modes refuse an absent snapshot, or neither does. -/
def SameLeniency (inp inp' : Members) : Prop :=
  policyFailMode inp = .failClosed ↔ policyFailMode inp' = .failClosed

/-- The names of the modes. -/
def failModeNames : List JsonValue := [.str (txt "fail_closed"), .str (txt "fail_open"), .str (txt "soft_fail")]

theorem policyFailMode_declared {inp : Members} {value : JsonValue} (h : declaredMode inp = some value) :
    policyFailMode inp = resolveFailMode value := by
  have hd : (policyOf inp).get? (txt "fail_mode") = some value := h
  rw [policyFailMode, hd, Option.getD_some]

/-- A value that names no mode, of whatever type, resolves to the strictest. -/
theorem resolveFailMode_unknown {value : JsonValue} (h : value ∉ failModeNames) :
    resolveFailMode value = .failClosed := by
  have hopen : value.eq (.str (txt "fail_open")) = false := by
    rw [← Bool.not_eq_true, JsonValue.eq_str]
    intro he
    exact h (by simp [failModeNames, he])
  have hsoft : value.eq (.str (txt "soft_fail")) = false := by
    rw [← Bool.not_eq_true, JsonValue.eq_str]
    intro he
    exact h (by simp [failModeNames, he])
  rw [resolveFailMode, hopen, hsoft]
  rfl

/-! ### Absence -/

theorem tctAbsence_lenient {mode : FailMode} (h : mode ≠ .failClosed) (detail : Text) : tctAbsence mode detail = .ok () := by
  cases mode with
  | failClosed => exact absurd rfl h
  | failOpen => rfl
  | softFail => rfl

theorem delegationAbsence_lenient {mode : FailMode} (h : mode ≠ .failClosed) (detail : Text) :
    delegationAbsence mode detail = .ok () := by
  cases mode with
  | failClosed => exact absurd rfl h
  | failOpen => rfl
  | softFail => rfl

/-- Only whether a mode is `failClosed` tells. -/
theorem beq_failClosed_congr {mode mode' : FailMode} (h : mode = .failClosed ↔ mode' = .failClosed) :
    (mode == FailMode.failClosed) = (mode' == FailMode.failClosed) := by
  rw [Bool.eq_iff_iff, beq_iff_eq, beq_iff_eq]
  exact h

variable (P : Platform)

/-! ### The revocation steps under two modes -/

section Modes

variable {inp inp' : Members} (h : SameExceptMode inp inp') (now : Int)

include h

theorem SameExceptMode.get {k : Text} (hk : k ≠ txt "policy") : inp.get k = inp'.get k :=
  h.agree.get (by simpa using hk)

/-- Away from the mode the inputs agree on all the checks ahead of revocation. -/
theorem SameExceptMode.outside : AgreeExcept revocationMembers inp inp' :=
  h.agree.mono (by simp [revocationMembers])

theorem SameExceptMode.stale (body : Members) :
    snapshotIsStale P body (policyOf inp) now = snapshotIsStale P body (policyOf inp') now := by
  rw [snapshotIsStale, snapshotIsStale, h.policy.get (k := txt "max_staleness_secs") (by decide)]

theorem SameExceptMode.fresh (bodies : List Members) :
    freshBodies P (policyOf inp) now bodies = freshBodies P (policyOf inp') now bodies := by
  induction bodies with
  | nil => rfl
  | cons body rest ih => rw [freshBodies, freshBodies, h.stale, ih]

theorem SameExceptMode.bodies (selfAid : Text) :
    verifiedSnapshotBodies P inp selfAid = verifiedSnapshotBodies P inp' selfAid := by
  rw [verifiedSnapshotBodies, verifiedSnapshotBodies, h.get (by decide)]

/-- Equal leniency makes the steps equal. -/
theorem SameExceptMode.checkRevocation (hm : SameLeniency inp inp') (claims : Members) :
    checkRevocation P claims inp now = checkRevocation P claims inp' now := by
  have habsence (detail : Text) : tctAbsence (policyFailMode inp) detail = tctAbsence (policyFailMode inp') detail := by
    rw [tctAbsence, tctAbsence, beq_failClosed_congr hm]
  simp only [AitpVerifier.checkRevocation, checkTrustedSnapshot, habsence, h.stale P now,
    h.get (k := txt "issuer_revocation_list") (by decide)]

theorem SameExceptMode.checkSourceTctRevocation (hm : SameLeniency inp inp') (bodies : List Members) (selfAid : Text)
    (srcJti : JsonValue) :
    checkSourceTctRevocation P inp bodies selfAid srcJti now = checkSourceTctRevocation P inp' bodies selfAid srcJti now := by
  have habsence (detail : Text) :
      delegationAbsence (policyFailMode inp) detail = delegationAbsence (policyFailMode inp') detail := by
    rw [delegationAbsence, delegationAbsence, beq_failClosed_congr hm]
  simp only [AitpVerifier.checkSourceTctRevocation, habsence, h.fresh P now]

theorem SameExceptMode.sweepChain (hm : SameLeniency inp inp') (bodies : List Members) (swept : Option (List JsonValue)) :
    sweepChain P inp bodies now swept = sweepChain P inp' bodies now swept := by
  have hsweep (fresh : List Members) :
      sweepHop P (policyFailMode inp) fresh = sweepHop P (policyFailMode inp') fresh := by
    funext token
    rw [sweepHop, sweepHop, beq_failClosed_congr hm]
  cases swept with
  | none => rfl
  | some hops => rw [AitpVerifier.sweepChain, AitpVerifier.sweepChain, h.fresh, funext hsweep]

/-- What passes under some mode passes under a lenient one. -/
theorem SameExceptMode.checkRevocation_relaxes (hm : policyFailMode inp' ≠ .failClosed) {claims : Members}
    (hr : AitpVerifier.checkRevocation P claims inp now = .ok ()) :
    AitpVerifier.checkRevocation P claims inp' now = .ok () := by
  rw [AitpVerifier.checkRevocation, h.get (by decide)] at hr
  rw [AitpVerifier.checkRevocation]
  cases hl : inp'.get (txt "issuer_revocation_list") with
  | dict revlist =>
    simp only [hl] at hr ⊢
    cases ht : verifySnapshotTrust P (Members.get revlist (txt "snapshot")) with
    | ok body =>
      simp only [ht, checkTrustedSnapshot] at hr ⊢
      by_cases hissuer : (!(body.get (txt "issuer")).eq (claims.get (txt "iss"))) = true
      · rw [if_pos hissuer]
        exact tctAbsence_lenient hm _
      · rw [if_neg hissuer, bind_eq_ok] at hr ⊢
        obtain ⟨stale, hstale, hr⟩ := hr
        refine ⟨stale, h.stale P now body ▸ hstale, ?_⟩
        cases stale with
        | true => exact tctAbsence_lenient hm _
        | false => exact hr
    | error e =>
      cases e with
      | aitp code message retryable => exact tctAbsence_lenient hm _
      | raised kind message => simp [ht] at hr
  | _ => exact tctAbsence_lenient hm _

theorem SameExceptMode.checkSourceTctRevocation_relaxes (hm : policyFailMode inp' ≠ .failClosed)
    {bodies : List Members} {selfAid : Text} {srcJti : JsonValue}
    (hr : AitpVerifier.checkSourceTctRevocation P inp bodies selfAid srcJti now = .ok ()) :
    AitpVerifier.checkSourceTctRevocation P inp' bodies selfAid srcJti now = .ok () := by
  simp only [AitpVerifier.checkSourceTctRevocation, h.fresh P now, bind_eq_ok] at hr ⊢
  obtain ⟨applicable, ha, hr⟩ := hr
  refine ⟨applicable, ha, ?_⟩
  by_cases hempty : applicable.isEmpty = true
  · rw [if_pos hempty]
    exact delegationAbsence_lenient hm _
  · rw [if_neg hempty] at hr ⊢
    exact hr

theorem SameExceptMode.sweepChain_relaxes (hm : policyFailMode inp' ≠ .failClosed) {bodies : List Members}
    {swept : Option (List JsonValue)} (hr : AitpVerifier.sweepChain P inp bodies now swept = .ok ()) :
    AitpVerifier.sweepChain P inp' bodies now swept = .ok () := by
  cases swept with
  | none => rfl
  | some hops =>
    simp only [AitpVerifier.sweepChain, h.fresh P now, bind_eq_ok, forEach_eq_ok] at hr ⊢
    obtain ⟨fresh, hf, hr⟩ := hr
    refine ⟨fresh, hf, fun hop hmem => ?_⟩
    have hhop := hr hop hmem
    simp only [sweepHop, bind_eq_ok, exists_unit, raiseIf_eq_ok] at hhop ⊢
    obtain ⟨hc, hpeek, iss, hiss, hlisted, _⟩ := hhop
    have hmode : (policyFailMode inp' == FailMode.failClosed) = false := by
      rw [← Bool.not_eq_true, beq_iff_eq]
      exact hm
    exact ⟨hc, hpeek, iss, hiss, hlisted, by rw [hmode, Bool.and_false]⟩

end Modes

/-! ### The operations under two modes -/

/-- The operations a policy governs: those on a token, and the query of a snapshot,
at a given clock or the input's own. -/
inductive PolicedOperation where
  | onToken : RevocationOperation → PolicedOperation
  | revocationSnapshot : (clock : Option Int) → PolicedOperation
  deriving DecidableEq, Repr

def PolicedOperation.run (inp : Members) (now : Int) : PolicedOperation → PyM Members
  | .onToken op => op.run P inp now
  | .revocationSnapshot clock => verifyRevocationSnapshot P inp clock

section Runs

variable {inp inp' : Members} (h : SameExceptMode inp inp') (now : Int)

include h

theorem SameExceptMode.conclude (hm : SameLeniency inp inp') (finding : TctFinding) :
    finding.conclude P inp now = finding.conclude P inp' now := by
  rw [TctFinding.conclude, TctFinding.conclude, h.checkRevocation P now hm]

theorem SameExceptMode.conclude_relaxes (hm : policyFailMode inp' ≠ .failClosed) {finding : TctFinding} {r : Members}
    (hr : finding.conclude P inp now = .ok r) : finding.conclude P inp' now = .ok r := by
  simp only [TctFinding.conclude, bind_eq_ok, exists_unit] at hr ⊢
  exact ⟨h.checkRevocation_relaxes P now hm hr.1, hr.2⟩

theorem SameExceptMode.concludeDelegation (hm : SameLeniency inp inp') (finding : DelegationFinding) :
    finding.conclude P inp now = finding.conclude P inp' now := by
  simp only [DelegationFinding.conclude, h.bodies P, h.checkSourceTctRevocation P now hm, h.sweepChain P now hm]

theorem SameExceptMode.concludeDelegation_relaxes (hm : policyFailMode inp' ≠ .failClosed) {finding : DelegationFinding}
    {r : Members} (hr : finding.conclude P inp now = .ok r) : finding.conclude P inp' now = .ok r := by
  simp only [DelegationFinding.conclude, bind_eq_ok, exists_unit] at hr ⊢
  obtain ⟨bodies, hbodies, hsource, hsweep, hgrants⟩ := hr
  exact ⟨bodies, h.bodies P _ ▸ hbodies, h.checkSourceTctRevocation_relaxes P now hm hsource,
    h.sweepChain_relaxes P now hm hsweep, hgrants⟩

theorem SameExceptMode.clock (clock : Option Int) : clockOf P inp clock = clockOf P inp' clock := by
  cases clock with
  | some now => rfl
  | none => rw [clockOf, clockOf, h.agree.index (k := txt "now") (by decide)]

/-- A snapshot query under two modes of equal leniency. -/
theorem SameExceptMode.revocationSnapshot (hm : SameLeniency inp inp') (clock : Option Int) :
    verifyRevocationSnapshot P inp clock = verifyRevocationSnapshot P inp' clock := by
  simp only [verifyRevocationSnapshot, h.clock P, h.stale P, h.agree.index (k := txt "snapshot") (by decide),
    h.get (k := txt "expected_issuer") (by decide), h.get (k := txt "queried_jti") (by decide)]
  rw [SameLeniency] at hm
  cases hmode : policyFailMode inp <;> cases hmode' : policyFailMode inp' <;> simp [hmode, hmode'] at hm ⊢

/-- Under `fail_closed` an accepted query found a usable snapshot. -/
theorem SameExceptMode.revocationSnapshot_relaxes (hclosed : policyFailMode inp = .failClosed) {clock : Option Int}
    {r : Members} (hr : verifyRevocationSnapshot P inp clock = .ok r) :
    verifyRevocationSnapshot P inp' clock = .ok r := by
  simp only [verifyRevocationSnapshot, h.clock P, h.stale P, h.agree.index (k := txt "snapshot") (by decide),
    h.get (k := txt "expected_issuer") (by decide), h.get (k := txt "queried_jti") (by decide), bind_eq_ok,
    hclosed] at hr ⊢
  obtain ⟨now, hnow, snapshot, hs, body, hb, hr⟩ := hr
  refine ⟨now, hnow, snapshot, hs, body, hb, ?_⟩
  by_cases hissuer : (body.get (txt "issuer")).eq (inp'.get (txt "expected_issuer")) = true
  · rw [if_pos hissuer, bind_eq_ok] at hr ⊢
    obtain ⟨stale, hstale, hr⟩ := hr
    refine ⟨stale, hstale, ?_⟩
    cases stale with
    | true => simp at hr
    | false => exact hr
  · simp [if_neg hissuer, ok_bind] at hr

end Runs

/-- Two runs whose modes are equally lenient have one outcome. -/
theorem PolicedOperation.run_congr (op : PolicedOperation) {inp inp' : Members} (h : SameExceptMode inp inp')
    (now : Int) (hm : SameLeniency inp inp') : op.run P inp now = op.run P inp' now := by
  have htct := funext (h.conclude P now hm)
  have hdelegation := funext (h.concludeDelegation P now hm)
  cases op with
  | onToken op =>
    cases op with
    | tct =>
      simp only [run, RevocationOperation.run, verifyTct_staged, h.outside.tctChecks P now]
      rw [htct]
    | tctAsIssuer =>
      simp only [run, RevocationOperation.run, verifyTctAsIssuer_staged, h.outside.issuerTctChecks P now]
      rw [htct]
    | attestation =>
      simp only [run, RevocationOperation.run, verifyAttestation_staged, h.outside.attestationChecks P now]
      rw [htct]
    | delegationToken =>
      simp only [run, RevocationOperation.run, verifyDelegationToken_staged, h.outside.delegationChecks P now]
      rw [hdelegation]
  | revocationSnapshot clock => exact h.revocationSnapshot P hm clock

/-- What `fail_closed` accepts every mode accepts. -/
theorem PolicedOperation.run_relaxes (op : PolicedOperation) {inp inp' : Members} (h : SameExceptMode inp inp')
    (now : Int) (hclosed : policyFailMode inp = .failClosed) {r : Members} (hr : op.run P inp now = .ok r) :
    op.run P inp' now = .ok r := by
  by_cases hm : policyFailMode inp' = .failClosed
  · have hsame : SameLeniency inp inp' := ⟨fun _ => hm, fun _ => hclosed⟩
    rw [← op.run_congr P h now hsame]
    exact hr
  · cases op with
    | onToken op =>
      cases op with
      | tct =>
        simp only [run, RevocationOperation.run, verifyTct_staged, ← h.outside.tctChecks P now, bind_eq_ok] at hr ⊢
        obtain ⟨finding, hf, hr⟩ := hr
        exact ⟨finding, hf, h.conclude_relaxes P now hm hr⟩
      | tctAsIssuer =>
        simp only [run, RevocationOperation.run, verifyTctAsIssuer_staged, ← h.outside.issuerTctChecks P now,
          bind_eq_ok] at hr ⊢
        obtain ⟨finding, hf, hr⟩ := hr
        exact ⟨finding, hf, h.conclude_relaxes P now hm hr⟩
      | attestation =>
        simp only [run, RevocationOperation.run, verifyAttestation_staged, ← h.outside.attestationChecks P now,
          bind_eq_ok] at hr ⊢
        obtain ⟨finding, hf, hr⟩ := hr
        exact ⟨finding, hf, h.conclude_relaxes P now hm hr⟩
      | delegationToken =>
        simp only [run, RevocationOperation.run, verifyDelegationToken_staged, ← h.outside.delegationChecks P now,
          bind_eq_ok] at hr ⊢
        obtain ⟨finding, hf, hr⟩ := hr
        exact ⟨finding, hf, h.concludeDelegation_relaxes P now hm hr⟩
    | revocationSnapshot clock => exact h.revocationSnapshot_relaxes P hclosed hr

/-- `fail_closed` is the strictest mode: what it accepts the others accept with the same
result, the others have one outcome, and whatever names no mode acts as it does. -/
theorem failClosed_strictest (op : PolicedOperation) (inp inp' : Members) (now : Int) (h : SameExceptMode inp inp') :
    (policyFailMode inp = .failClosed → ∀ r, op.run P inp now = .ok r → op.run P inp' now = .ok r) ∧
      (declaredMode inp = some (.str (txt "soft_fail")) → declaredMode inp' = some (.str (txt "fail_open")) →
        op.run P inp now = op.run P inp' now) ∧
      (∀ value, declaredMode inp = some value → value ∉ failModeNames →
        declaredMode inp' = some (.str (txt "fail_closed")) → op.run P inp now = op.run P inp' now) := by
  refine ⟨fun hclosed r hr => op.run_relaxes P h now hclosed hr, fun hsoft hopen => ?_, fun value hv hunknown hclosed => ?_⟩
  · apply op.run_congr P h now
    rw [SameLeniency, policyFailMode_declared hsoft, policyFailMode_declared hopen]
    decide
  · apply op.run_congr P h now
    rw [SameLeniency, policyFailMode_declared hv, policyFailMode_declared hclosed, resolveFailMode_unknown hunknown]
    decide

/-- An input without a policy, under `soft_fail`. -/
def softened (inp : Members) : Members := (txt "policy", .dict [(txt "fail_mode", .str (txt "soft_fail"))]) :: inp

theorem softened_sameExceptMode {inp : Members} (h : inp.get (txt "policy") = .null) :
    SameExceptMode inp (softened inp) where
  agree := by
    intro key hk
    have hne : txt "policy" ≠ key := fun he => hk (by simp [he])
    rw [softened, Members.get?, if_neg hne]
  policy := by
    intro key hk
    have hne : txt "fail_mode" ≠ key := fun he => hk (by simp [he])
    have hnone : policyOf inp = [] := by rw [policyOf, h]
    rw [hnone]
    simp [policyOf, softened, Members.get, Members.get?, hne]

/-- Agent B's grant under `soft_fail` in place of the default. -/
theorem failClosed_strictest_softened :
    (PolicedOperation.onToken .tct).run grantRecording.platform (softened (answeredInput grantToken)) referenceClock =
      .ok [(txt "grants", .list [.str (txt "read")])] :=
  (failClosed_strictest grantRecording.platform (.onToken .tct) (answeredInput grantToken)
    (softened (answeredInput grantToken)) referenceClock (softened_sameExceptMode rfl)).1 rfl _ grantToken_accepted

end AitpVerifier
