import AitpVerifier.FailClosed

/-!
# Revocation runs last

Each operation on a token is its other checks followed by its revocation step, and
the other checks look at no revocation data: two inputs that agree outside it are
rejected alike ahead of it.
-/
namespace AitpVerifier

open PyText Checked

/-- The members a caller's revocation data and policy come in. -/
def revocationMembers : List Text := [txt "policy", txt "issuer_revocation_list", txt "revocation_snapshots"]

/-- Two inputs with the same members outside `hidden`. -/
def AgreeExcept (hidden : List Text) (inp inp' : Members) : Prop :=
  ∀ key, key ∉ hidden → inp.get? key = inp'.get? key

namespace AgreeExcept

variable {hidden : List Text} {inp inp' : Members} (h : AgreeExcept hidden inp inp')

include h

theorem symm : AgreeExcept hidden inp' inp := fun key hk => (h key hk).symm

theorem get {k : Text} (hk : k ∉ hidden) : inp.get k = inp'.get k := by
  rw [Members.get, Members.get, h k hk]

theorem has {k : Text} (hk : k ∉ hidden) : inp.has k = inp'.has k := by
  rw [Members.has, Members.has, h k hk]

theorem index {k : Text} (hk : k ∉ hidden) : inp.index k = inp'.index k := by
  rw [Members.index, Members.index, h k hk]

/-- Agreement outside fewer members is agreement outside more. -/
theorem mono {more : List Text} (hs : hidden ⊆ more) : AgreeExcept more inp inp' :=
  fun key hk => h key fun hm => hk (hs hm)

end AgreeExcept

variable (P : Platform)

/-! ### The checks ahead of revocation -/

/-- What a token has passed: its claims, and the result revocation may still refuse. -/
structure TctFinding where
  claims : Members
  result : Members

def tctChecks (inp : Members) (now : Int) : PyM TctFinding := do
  let token ← inp.index (txt "tct_token")
  let peeked ← peekClaims P token "TCT_SIGNATURE_INVALID"
  let iss ← P.toStr (peeked.get (txt "iss"))
  let claims ← verifyTctJws P token iss (fun c => checkTctClaimsShape P c "TCT_SIGNATURE_INVALID")
  checkVer P claims
  let expectedAud := inp.get (txt "expected_audience")
  raiseIf (!expectedAud.isNull && !(claims.get (txt "aud")).eq expectedAud)
    (AitpError "AUDIENCE_MISMATCH" (txt "TCT aud does not match verifier AID"))
  checkGrantClaims P claims now
  checkManifestCap P claims inp (txt "TCT")
  .ok ⟨claims, [(txt "grants", claims.get (txt "grants"))]⟩

def issuerTctChecks (inp : Members) (now : Int) : PyM TctFinding := do
  let token ← inp.index (txt "tct_token")
  let selfAid ← inp.index (txt "self_aid")
  let peeked ← peekClaims P token "TCT_SIGNATURE_INVALID"
  raiseIf (!(peeked.get (txt "iss")).eq selfAid)
    (tctInvalid (txt "issuer-side verification of a TCT this verifier did not issue"))
  let iss ← P.toStr selfAid
  let claims ← verifyTctJws P token iss (fun c => checkTctClaimsShape P c "TCT_SIGNATURE_INVALID")
  checkVer P claims
  raiseIf (!(claims.get (txt "aud")).eq (claims.get (txt "sub"))) (tctInvalid (txt "issuer-side TCT whose aud != sub"))
  checkGrantClaims P claims now
  let presenter ← presenterOf P inp claims now
  raiseIf (!presenter.eq (claims.get (txt "sub"))) (popInvalid (txt "presenter AID is not the TCT sub"))
  .ok ⟨claims, [(txt "presenter_aid", presenter), (txt "grants", claims.get (txt "grants"))]⟩

/-- The Manifest-cap decision a relying party makes before an attestation is read. -/
def checkCapDecision (inp : Members) : PyM Unit :=
  let waived := match inp.get (txt "waive_manifest_cap") with
    | .bool true => true
    | _ => false
  raiseIf ((inp.get (txt "issuer_manifest")).isNull && !waived) (valueError
    (txt "verify_attestation: pass issuer_manifest or waive_manifest_cap; the Manifest-cap decision is mandatory"))

def attestationChecks (inp : Members) (now : Int) : PyM TctFinding := do
  let token ← inp.index (txt "tct_token")
  let statementKey ← inp.index (txt "expected_ext_key")
  checkCapDecision inp
  let peeked ← peekClaims P token "TCT_SIGNATURE_INVALID"
  let iss ← P.toStr (peeked.get (txt "iss"))
  let claims ← verifyTctJws P token iss (attestationPreSignature P (inp.get (txt "trust_store")))
  checkVer P claims
  checkExp P claims now (AitpError "TCT_EXPIRED" (txt "attestation exp is in the past"))
  checkAttestationClaims P claims
  let statement ← attestationStatement P claims statementKey
  checkManifestCap P claims inp (txt "attestation")
  .ok ⟨claims, [(txt "statement", statement)]⟩

/-- The revocation step, and the result it lets through. -/
def TctFinding.conclude (inp : Members) (now : Int) (finding : TctFinding) : PyM Members := do
  checkRevocation P finding.claims inp now
  .ok finding.result

/-- What a delegation has passed: the source token to look up, the hops a chain is
swept for, and the grants revocation may still refuse. -/
structure DelegationFinding where
  selfAid : Text
  srcJti : JsonValue
  swept : Option (List JsonValue)
  grants : PyM JsonValue

def singleHopChecks (inp : Members) (token : JsonValue) (selfAid : Text) (now : Int) : PyM DelegationFinding := do
  let claims ← verifyHopJws P inp token now
  checkSelfDelegation claims
  checkDelegationAud claims selfAid (txt "delegation aud is not this verifier")
  checkExp P claims now (delegationExpired (txt "delegation exp in the past"))
  let vclaims ← verifyRootVoucher P claims selfAid (txt "single-hop delegation must carry a voucher")
  checkAgainstVoucher P claims vclaims now (txt "voucher.sub != delegator (delegator lacked the grant)")
    (txt "voucher expired or delegation outlives voucher") (txt "scope exceeds the voucher grants")
  .ok ⟨selfAid, vclaims.get (txt "src_jti"), none, .ok (claims.get (txt "scope"))⟩

/-- The scope of the loop's last hop. -/
def ChainState.scope (state : ChainState) : PyM JsonValue :=
  match state.prev with
  | some last => .ok (last.get (txt "scope"))
  | none => .error (.raised .assertion [])

def multihopChecks (inp : Members) (token : JsonValue) (outer : Members) (selfAid : Text) (now : Int) :
    PyM DelegationFinding := do
  let hops ← chainHops P outer token
  let final ← runHops P inp selfAid now ChainState.start hops
  .ok ⟨selfAid, final.rootVoucher.get (txt "src_jti"), some hops, final.scope⟩

def delegationPathChecks (inp : Members) (token : JsonValue) (outer : Members) (selfAid : Text) (now : Int) :
    PyM DelegationFinding :=
  if outer.has (txt "chain") then multihopChecks P inp token outer selfAid now
  else singleHopChecks P inp token selfAid now

def delegationChecks (inp : Members) (now : Int) : PyM DelegationFinding := do
  let token := inp.get (txt "delegation_token")
  checkTokenPresent inp token
  let outer ← peekClaims P token "DELEGATION_INVALID_SIGNATURE"
  raiseIf (outer.has (txt "chain") && !(inp.get (txt "_feature")).eq (.str multihopFeature))
    (AitpError "DELEGATION_MULTIHOP_NOT_SUPPORTED" (txt "chain claim requires RFC-AITP-0011 opt-in"))
  match inp.get (txt "self_aid") with
  | .str selfAid => delegationPathChecks P inp token outer selfAid now
  | _ => .error (AitpError "DELEGATION_AUDIENCE_MISMATCH"
      (txt "no verifier AID to match the delegation aud against"))

/-- The sweep over the hops of a chain; the single-hop path has none. -/
def sweepChain (inp : Members) (bodies : List Members) (now : Int) : Option (List JsonValue) → PyM Unit
  | none => .ok ()
  | some hops => do
    let fresh ← freshBodies P (policyOf inp) now bodies
    forEach (sweepHop P (policyFailMode inp) fresh) hops

/-- The revocation steps, and the grants they let through. -/
def DelegationFinding.conclude (inp : Members) (now : Int) (finding : DelegationFinding) : PyM Members := do
  let bodies ← verifiedSnapshotBodies P inp finding.selfAid
  checkSourceTctRevocation P inp bodies finding.selfAid finding.srcJti now
  sweepChain P inp bodies now finding.swept
  let grants ← finding.grants
  .ok [(txt "grants", grants)]

/-! ### The operations, staged -/

theorem verifyTct_staged (inp : Members) (now : Int) :
    verifyTct P inp now = tctChecks P inp now >>= TctFinding.conclude P inp now := by
  simp only [verifyTct, tctChecks, TctFinding.conclude, bind_assoc, ok_bind]

theorem verifyTctAsIssuer_staged (inp : Members) (now : Int) :
    verifyTctAsIssuer P inp now = issuerTctChecks P inp now >>= TctFinding.conclude P inp now := by
  simp only [verifyTctAsIssuer, issuerTctChecks, TctFinding.conclude, bind_assoc, ok_bind]

theorem verifyAttestation_staged (inp : Members) (now : Int) :
    verifyAttestation P inp now = attestationChecks P inp now >>= TctFinding.conclude P inp now := by
  simp only [attestationChecks, TctFinding.conclude, bind_assoc, ok_bind]
  rfl

theorem verifyDelegationToken_staged (inp : Members) (now : Int) :
    verifyDelegationToken P inp now = delegationChecks P inp now >>= DelegationFinding.conclude P inp now := by
  simp only [verifyDelegationToken, delegationChecks, bind_assoc]
  congr! 5 with _ outer _
  cases inp.get (txt "self_aid") with
  | str selfAid =>
    unfold delegationGrants delegationPathChecks
    by_cases hc : outer.has (txt "chain")
    · simp only [if_pos hc, verifyMultihop, multihopChecks, DelegationFinding.conclude, sweepChain, bind_assoc, ok_bind]
      rfl
    · simp only [if_neg hc, verifySingleHop, singleHopChecks, DelegationFinding.conclude, sweepChain, bind_assoc, ok_bind]
  | _ => rfl

/-! ### The checks see no revocation data -/

section Agree

variable {inp inp' : Members} (h : AgreeExcept revocationMembers inp inp') (now : Int)

include h

theorem AgreeExcept.checkManifestCap (claims : Members) (what : Text) :
    checkManifestCap P claims inp what = checkManifestCap P claims inp' what := by
  rw [AitpVerifier.checkManifestCap, AitpVerifier.checkManifestCap, h.get (by decide)]

theorem AgreeExcept.tctChecks : tctChecks P inp now = tctChecks P inp' now := by
  simp only [AitpVerifier.tctChecks, h.index (k := txt "tct_token") (by decide),
    h.get (k := txt "expected_audience") (by decide), h.checkManifestCap P]

theorem AgreeExcept.presenterOf (claims : Members) : presenterOf P inp claims now = presenterOf P inp' claims now := by
  have henv : inp.get (txt "envelope") = inp'.get (txt "envelope") := h.get (by decide)
  have hbound : inp.get (txt "channel_bound_aid") = inp'.get (txt "channel_bound_aid") := h.get (by decide)
  have hchallenges : inp.get (txt "outstanding_pop_challenges") = inp'.get (txt "outstanding_pop_challenges") :=
    h.get (by decide)
  simp only [AitpVerifier.presenterOf, presenterFromPop, popEnvelope, challengeNonce, henv, hbound, hchallenges]

theorem AgreeExcept.issuerTctChecks : issuerTctChecks P inp now = issuerTctChecks P inp' now := by
  simp only [AitpVerifier.issuerTctChecks, h.index (k := txt "tct_token") (by decide),
    h.index (k := txt "self_aid") (by decide), h.presenterOf P now]

theorem AgreeExcept.attestationChecks : attestationChecks P inp now = attestationChecks P inp' now := by
  simp only [AitpVerifier.attestationChecks, checkCapDecision, h.index (k := txt "tct_token") (by decide),
    h.index (k := txt "expected_ext_key") (by decide), h.get (k := txt "waive_manifest_cap") (by decide),
    h.get (k := txt "issuer_manifest") (by decide), h.get (k := txt "trust_store") (by decide),
    h.checkManifestCap P]

theorem AgreeExcept.verifyHopJws : verifyHopJws P inp = verifyHopJws P inp' := by
  have hresolve (iss : JsonValue) (now : Int) : resolveIssuer P inp iss now = resolveIssuer P inp' iss now := by
    rw [resolveIssuer, resolveIssuer, h _ (by decide)]
  funext token now
  simp only [AitpVerifier.verifyHopJws, hresolve]

/-- A hop is judged alike, and so is the whole loop. -/
theorem AgreeExcept.runHops (selfAid : Text) (tokens : List JsonValue) (state : ChainState) :
    runHops P inp selfAid now state tokens = runHops P inp' selfAid now state tokens := by
  induction tokens generalizing state with
  | nil => rfl
  | cons token rest ih =>
    simp only [AitpVerifier.runHops, stepHop, verifyHop, h.verifyHopJws P, ih]

theorem AgreeExcept.delegationChecks : delegationChecks P inp now = delegationChecks P inp' now := by
  simp only [AitpVerifier.delegationChecks, delegationPathChecks, multihopChecks, singleHopChecks, checkTokenPresent,
    h.get (k := txt "delegation_token") (by decide), h.get (k := txt "delegation") (by decide),
    h.get (k := txt "_feature") (by decide), h.get (k := txt "self_aid") (by decide), h.verifyHopJws P,
    h.runHops P now]

end Agree

/-! ### Noninterference -/

/-- An error under one of the package's codes. -/
def Under (code : String) (e : PyErr) : Prop := e.code? = some code

instance (code : String) (e : PyErr) : Decidable (Under code e) := inferInstanceAs (Decidable (e.code? = some code))

/-- A call fails with the package's own error under `code`. -/
def Raises {α : Type} (x : PyM α) (code : String) : Prop := Throws (Under code) x

section

variable {α β : Type} {x : PyM α} {f : α → PyM β} {code : String}

theorem not_isOk_of_raises (h : Raises x code) : x.isOk = false := by
  obtain ⟨_, rfl, _⟩ := h
  rfl

theorem not_raises_ok {a : α} : ¬ Raises (.ok a : PyM α) code := not_throws_ok

theorem raises_error {e : PyErr} : Raises (.error e : PyM α) code ↔ Under code e := throws_error

/-- A staged call fails in its checks, or in what comes after them. -/
theorem raises_bind : Raises (x >>= f) code ↔ Raises x code ∨ ∃ a, x = .ok a ∧ Raises (f a) code := throws_bind

/-- What is raised after a step that cannot raise it. -/
theorem raises_bind_right (hx : ¬ Raises x code) : Raises (x >>= f) code ↔ ∃ a, x = .ok a ∧ Raises (f a) code :=
  throws_bind_right (not_throws_iff.mp hx)

/-- What is raised before a step that cannot raise it. -/
theorem raises_bind_left (hf : ∀ a, ¬ Raises (f a) code) : Raises (x >>= f) code ↔ Raises x code :=
  throws_bind_left fun a _ => not_throws_iff.mp (hf a)

end

instance {α : Type} (code : String) : (x : PyM α) → Decidable (Raises x code)
  | .ok _ => isFalse not_raises_ok
  | .error _ => decidable_of_iff _ raises_error.symm

/-- The operations that end in a revocation step. -/
inductive RevocationOperation where
  | tct | tctAsIssuer | attestation | delegationToken
  deriving DecidableEq, Repr

def RevocationOperation.run (inp : Members) (now : Int) : RevocationOperation → PyM Members
  | .tct => verifyTct P inp now
  | .tctAsIssuer => verifyTctAsIssuer P inp now
  | .attestation => verifyAttestation P inp now
  | .delegationToken => verifyDelegationToken P inp now

/-- The most lenient mode and no revocation data at all. -/
structure NoRevocation (inp : Members) : Prop where
  lenient : inp.get? (txt "policy") = some (.dict [(txt "fail_mode", .str (txt "fail_open"))])
  noList : inp.get? (txt "issuer_revocation_list") = none
  noSnapshots : inp.get? (txt "revocation_snapshots") = none

theorem NoRevocation.failOpen {inp : Members} (h : NoRevocation inp) : policyFailMode inp = .failOpen := by
  rw [policyFailMode, policyOf, Members.get_of_get? h.lenient]
  decide

/-- Under it a token has no revocation step left to fail. -/
theorem NoRevocation.checkRevocation {inp : Members} (h : NoRevocation inp) (claims : Members) (now : Int) :
    checkRevocation P claims inp now = .ok () := by
  have hnone : inp.get (txt "issuer_revocation_list") = .null := by rw [Members.get, h.noList]; rfl
  rw [AitpVerifier.checkRevocation, hnone]
  simp only [h.failOpen, tctAbsence]
  rfl

theorem NoRevocation.conclude {inp : Members} (h : NoRevocation inp) (now : Int) (finding : TctFinding) :
    finding.conclude P inp now = .ok finding.result := by
  rw [TctFinding.conclude, h.checkRevocation P]
  rfl

/-- The sweep finds nothing to refuse in a token that verified. -/
theorem sweepHop_nothing {token : JsonValue} {typ : Text} {claims : Members} (hi : IssuedToken P token typ claims) :
    sweepHop P .failOpen [] token = .ok () := by
  obtain ⟨iss, hiss, hsigned⟩ := hi
  have hpeek : peekClaims P token "DELEGATION_INVALID_SIGNATURE" = .ok claims := (peekClaims_eq_ok P).mpr hsigned.parses
  simp only [sweepHop, hpeek, ok_bind, hiss, Interpreter.toStr]
  rfl

/-- Under it no token of a chain is refused by the sweep. -/
theorem sweepChain_nothing {inp : Members} {selfAid : Text} {now : Int} {tokens : List JsonValue} {final : ChainState}
    (hmode : policyFailMode inp = .failOpen) (h : runHops P inp selfAid now ChainState.start tokens = .ok final) :
    sweepChain P inp [] now (some tokens) = .ok () := by
  obtain ⟨hops, hmap, hi⟩ := (ChainInvariant.start P).hops P h
  simp only [sweepChain, freshBodies, ok_bind, hmode, forEach_eq_ok]
  intro token hm
  rw [← hmap] at hm
  obtain ⟨hop, hmem, rfl⟩ := List.mem_map.mp hm
  exact sweepHop_nothing P (hi.run.verified hop (by simpa using hmem)).token.signed

/-- With no snapshot at hand the source token passes. -/
theorem checkSourceTctRevocation_nothing {inp : Members} (hmode : policyFailMode inp = .failOpen) (selfAid : Text)
    (srcJti : JsonValue) (now : Int) : checkSourceTctRevocation P inp [] selfAid srcJti now = .ok () := by
  simp only [checkSourceTctRevocation, List.filter_nil, freshBodies, ok_bind, List.isEmpty_nil, if_true, hmode,
    delegationAbsence]
  rfl

/-- A finding whose sweep passes yields its grants. -/
theorem NoRevocation.concludeDelegation {inp : Members} (h : NoRevocation inp) {now : Int} {finding : DelegationFinding}
    (hs : sweepChain P inp [] now finding.swept = .ok ()) :
    finding.conclude P inp now = (do
      let grants ← finding.grants
      .ok [(txt "grants", grants)]) := by
  have hnone : inp.get (txt "revocation_snapshots") = .null := by rw [Members.get, h.noSnapshots]; rfl
  simp only [DelegationFinding.conclude, verifiedSnapshotBodies, hnone, ok_bind,
    checkSourceTctRevocation_nothing P h.failOpen, hs]

/-- The scope of a chain's last hop is no refusal. -/
theorem ChainState.not_raises_scope {state : ChainState} {code : String} : ¬ Raises state.scope code := by
  unfold scope
  cases state.prev with
  | none => exact nofun
  | some last => exact not_raises_ok

/-- With nothing to look into, no delegation that passed its checks is refused. -/
theorem NoRevocation.not_raises_delegation {inp : Members} (h : NoRevocation inp) {now : Int}
    {finding : DelegationFinding} (hf : delegationChecks P inp now = .ok finding) {code : String} :
    ¬ Raises (finding.conclude P inp now) code := by
  have hfinding : sweepChain P inp [] now finding.swept = .ok () ∧ ¬ Raises finding.grants code := by
    simp only [delegationChecks, bind_eq_ok, exists_unit] at hf
    obtain ⟨_, outer, _, _, hf⟩ := hf
    cases hself : inp.get (txt "self_aid") with
    | str selfAid =>
      simp only [hself, delegationPathChecks] at hf
      split at hf
      · simp only [multihopChecks, bind_eq_ok, Except.ok.injEq] at hf
        obtain ⟨tokens, _, final, hrun, rfl⟩ := hf
        exact ⟨sweepChain_nothing P h.failOpen hrun, ChainState.not_raises_scope⟩
      · simp only [singleHopChecks, bind_eq_ok, exists_unit, Except.ok.injEq] at hf
        obtain ⟨_, _, _, _, _, _, _, _, rfl⟩ := hf
        exact ⟨rfl, not_raises_ok⟩
    | _ => simp [hself] at hf
  rw [h.concludeDelegation P hfinding.1, raises_bind]
  rintro (hg | ⟨grants, _, hg⟩)
  · exact hfinding.2 hg
  · exact not_raises_ok hg

/-- What the lenient call without revocation data refuses, every call refuses under
the same code, whatever its policy and its revocation data. -/
theorem revocation_runs_last (op : RevocationOperation) (inp inp' : Members) (now : Int) (code : String)
    (hagree : AgreeExcept revocationMembers inp inp') (hnone : NoRevocation inp) (h : Raises (op.run P inp now) code) :
    Raises (op.run P inp' now) code := by
  cases op with
  | tct =>
    simp only [RevocationOperation.run, verifyTct_staged, raises_bind, hnone.conclude, not_raises_ok, and_false,
      exists_false, or_false] at h ⊢
    exact .inl (hagree.tctChecks P now ▸ h)
  | tctAsIssuer =>
    simp only [RevocationOperation.run, verifyTctAsIssuer_staged, raises_bind, hnone.conclude, not_raises_ok, and_false,
      exists_false, or_false] at h ⊢
    exact .inl (hagree.issuerTctChecks P now ▸ h)
  | attestation =>
    simp only [RevocationOperation.run, verifyAttestation_staged, raises_bind, hnone.conclude, not_raises_ok, and_false,
      exists_false, or_false] at h ⊢
    exact .inl (hagree.attestationChecks P now ▸ h)
  | delegationToken =>
    simp only [RevocationOperation.run, verifyDelegationToken_staged, raises_bind] at h ⊢
    rcases h with h | ⟨finding, hf, h⟩
    · exact .inl (hagree.delegationChecks P now ▸ h)
    · exact absurd h (hnone.not_raises_delegation P hf)

/-! ### An expired grant, whatever the revocation data -/

def lenientInput (token : JsonValue) : Members :=
  [(txt "tct_token", token), (txt "policy", .dict [(txt "fail_mode", .str (txt "fail_open"))])]

/-- The same token beside a revocation list that is no list. -/
def garbledInput (token : JsonValue) : Members :=
  [(txt "tct_token", token), (txt "issuer_revocation_list", .dict [(txt "snapshot", .int 7)])]

theorem lenientInput_agree (token : JsonValue) :
    AgreeExcept revocationMembers (lenientInput token) (garbledInput token) := by
  intro key hk
  have hpolicy : txt "policy" ≠ key := fun h => hk (h ▸ by simp [revocationMembers])
  have hlist : txt "issuer_revocation_list" ≠ key := fun h => hk (h ▸ by simp [revocationMembers])
  simp [lenientInput, garbledInput, Members.get?, hpolicy, hlist]

def lateClock : Int := 1712000000

theorem revocation_runs_last_expired :
    Raises (RevocationOperation.tct.run grantRecording.platform (garbledInput grantToken) lateClock) "TCT_EXPIRED" := by
  have hexpired : Raises (RevocationOperation.tct.run grantRecording.platform (lenientInput grantToken) lateClock)
      "TCT_EXPIRED" := by
    decide +kernel
  exact revocation_runs_last grantRecording.platform .tct (lenientInput grantToken) (garbledInput grantToken) lateClock _
    (lenientInput_agree grantToken) ⟨rfl, rfl, rfl⟩ hexpired

end AitpVerifier
