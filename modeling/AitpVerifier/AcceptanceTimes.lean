import Mathlib.Data.Int.ConditionallyCompleteOrder
import AitpVerifier.CertificatePath
import AitpVerifier.Clearance
import AitpVerifier.FailClosed
import AitpVerifier.Harness
import AitpVerifier.Steady

/-!
# When an input is accepted

Every verifier compares the clock with bounds read from its input: an expiry, a window, a
validity period, the age of a deny list. The times at which it accepts one input are an
interval, and its answer is the same at all of them.
-/
namespace DenyList

/-- While lists only fall silent, an identifier cleared at two times is cleared between them. -/
theorem Cleared.between {τ β κ : Type} [Preorder τ] {strict : Prop} {answers : τ → Set β} {denies : β → κ → Prop} {id : κ}
    (hsilent : ∀ ⦃s t⦄, s ≤ t → answers t ⊆ answers s) {s t u : τ} (hst : s ≤ t) (htu : t ≤ u) (hs : Cleared strict (answers s) denies id)
    (hu : Cleared strict (answers u) denies id) : Cleared strict (answers t) denies id :=
  ⟨fun hstrict => (hu.known hstrict).mono (hsilent htu), fun list hlist => hs.undenied list (hsilent hst hlist)⟩

end DenyList

namespace AitpVerifier

open PyText Checked DenyList

variable {P : Platform}

/-! ### Bounds -/

theorem steady_checkExp (claims : Members) (expired : PyErr) : Steady fun now => checkExp P claims now expired := by
  refine .after fun exp _ => steady_raiseIf fun s t u hst htu hs hu => ?_
  simp only [decide_eq_false_iff_not] at *
  omega

theorem steady_checkTimestampWindow (rawEnv : JsonValue) (tolerance : Int) :
    Steady fun now => checkTimestampWindow rawEnv now tolerance := by
  unfold checkTimestampWindow
  cases rawEnv with
  | dict env =>
    dsimp only
    cases Members.get env (txt "timestamp") with
    | int ts =>
      refine steady_raiseIf fun s t u hst htu hs hu => ?_
      simp only [decide_eq_false_iff_not, not_lt, abs_le] at *
      omega
    | null | bool | float | str | list | dict => exact steady_const _
  | null | bool | int | float | str | list => exact steady_const _

theorem steady_futureExp (exp : JsonValue) (e : PyErr) : Steady fun now => raiseIf (!Spiffe.futureExp exp now) e := by
  refine steady_raiseIf fun s t u hst htu hs hu => ?_
  simp only [Bool.not_eq_false', Spiffe.futureExp_eq_true] at *
  obtain ⟨expiry, rfl, hexpiry⟩ := hu
  exact ⟨expiry, rfl, by omega⟩

theorem steady_freshIat (iat : JsonValue) (e : PyErr) : Steady fun now => raiseIf (!Spiffe.freshIat iat now) e := by
  refine steady_raiseIf fun s t u hst htu hs hu => ?_
  simp only [Bool.not_eq_false', Spiffe.freshIat] at *
  split at hs
  · simp only [decide_eq_true_eq, abs_le] at *
    omega
  · cases hs

/-! ### Deny lists -/

/-- A snapshot that is fresh was fresh before. -/
theorem Fresh.earlier {body policy : Members} {s t : Int} (h : Fresh P body policy t) (hst : s ≤ t) : Fresh P body policy s := by
  constructor
  · exact lt_of_le_of_lt hst h.live
  · refine h.recent.imp_right ?_
    rintro ⟨bound, hbound, hage⟩
    exact ⟨bound, hbound, by omega⟩

theorem steady_checkRevocation (claims inp : Members) : Steady fun now => checkRevocation P claims inp now := by
  have hsilent : Antitone fun now => {body | CarriedAnswer P inp now claims body} :=
    fun s t hst body h => ⟨h.1, h.2.1, h.2.2.earlier hst⟩
  refine steady_unit fun s t u hst htu hs hu => ?_
  rw [checkRevocation_eq_ok] at *
  exact ⟨hs.1, .between hsilent hst htu hs.2 hu.2⟩

theorem ClearedFor.between {inp : Members} {issuer : Text} {jti : JsonValue} {s t u : Int} (hst : s ≤ t) (htu : t ≤ u)
    (hs : ClearedFor P inp s issuer jti) (hu : ClearedFor P inp u issuer jti) : ClearedFor P inp t issuer jti := by
  have hsilent : Antitone fun now => {body | AnswersFor P inp now issuer body} :=
    fun s t hst body h => ⟨h.1, h.2, h.3.earlier hst⟩
  exact Cleared.between hsilent hst htu hs hu

theorem steady_checkSourceTctRevocation {inp : Members} {selfAid : Text} {bodies : List Members}
    (hb : verifiedSnapshotBodies P inp selfAid = .ok bodies) (srcJti : JsonValue) :
    Steady fun now => checkSourceTctRevocation P inp bodies selfAid srcJti now := by
  refine steady_unit fun s t u hst htu hs hu => ?_
  rw [checkSourceTctRevocation_eq_ok P hb] at *
  exact hs.between hst htu hu

theorem steady_sweepChain {inp : Members} {selfAid : Text} {bodies : List Members}
    (hb : verifiedSnapshotBodies P inp selfAid = .ok bodies) (swept : Option (List JsonValue)) :
    Steady fun now => sweepChain P inp bodies now swept := by
  refine steady_unit fun s t u hst htu hs hu => ?_
  rw [sweepChain_eq_ok P hb] at *
  intro hops hswept hop hop_mem
  obtain ⟨claims, iss, hclaims, hiss, hcleared⟩ := hs hops hswept hop hop_mem
  obtain ⟨claims', iss', hclaims', hiss', hcleared'⟩ := hu hops hswept hop hop_mem
  obtain rfl := Except.ok.inj (hclaims.symm.trans hclaims')
  obtain rfl := Except.ok.inj (hiss.symm.trans hiss')
  exact ⟨claims, iss, hclaims, hiss, hcleared.between hst htu hcleared'⟩

/-! ### Envelopes and Manifests -/

theorem verifyEnvelope_steady (inp : Members) : Steady (verifyEnvelope P inp) := by
  unfold verifyEnvelope
  refine .after fun _ _ => ?_
  split
  · exact steady_const _
  · unfold verifyEnvelopeProper
    exact .after fun _ _ => .after fun _ _ => (steady_checkTimestampWindow _ _).before _

/-- A Manifest is checked against the input's own clock, where it has one. -/
theorem verifyManifest_steady (inp : Members) : Steady (verifyManifest P inp) := by
  unfold verifyManifest
  refine .after fun man _ => .after fun _ _ => .after fun _ _ => .after fun _ _ => ?_
  cases inp.get? (txt "now") with
  | some clock =>
    simp only [Option.getD_some]
    exact steady_const _
  | none =>
    have hclock (now : Int) : P.toInt ((none : Option JsonValue).getD (.int now)) = .ok now := rfl
    simp only [hclock, ok_bind]
    refine .after fun _ _ => .after fun expiresAt _ => .before (steady_raiseIf fun (s t u : Int) hst htu hs hu => ?_) _
    simp only [decide_eq_false_iff_not] at *
    omega

theorem verifyManifest_clocked (man : JsonValue) (now : Int) :
    verifyManifest P [(txt "manifest", man), (txt "now", .int now)] now = verifyManifest P [(txt "manifest", man)] now := by
  unfold verifyManifest
  rfl

theorem resolveManifest_steady (aid : Text) (manifests : JsonValue) : Steady fun now => resolveManifest P aid manifests now := by
  unfold resolveManifest
  cases (manifestCandidates manifests).find? (namesAid aid) with
  | none => exact steady_const _
  | some man =>
    simp only [verifyManifest_clocked]
    exact ((verifyManifest_steady _).before _).rescue _

/-! ### Tokens -/

theorem checkGrantClaims_steady (claims : Members) : Steady fun now => checkGrantClaims P claims now :=
  (steady_checkExp claims _).before _

theorem verifyTct_steady (inp : Members) : Steady (verifyTct P inp) := by
  unfold verifyTct
  refine .after fun _ _ => .after fun _ _ => .after fun _ _ => .after fun claims _ => .after fun _ _ => .after fun _ _ => ?_
  exact (checkGrantClaims_steady claims).bind fun _ _ => .after fun _ _ => (steady_checkRevocation claims inp).before _

theorem presenterFromPop_steady (inp claims : Members) : Steady fun now => presenterFromPop P inp claims now := by
  have hnonce (payload : Members) (jti : JsonValue) : Steady fun now => challengeNonce inp payload jti now := by
    unfold challengeNonce
    dsimp only
    split
    all_goals
      refine .after fun challenges _ => ?_
      split
      · exact steady_const _
      · exact (steady_futureExp _ _).before _
  unfold presenterFromPop
  refine .after fun response _ => .after fun _ _ => .after fun _ _ => .after fun _ _ => .after fun _ _ => ?_
  exact (hnonce _ _).before _

theorem presenterOf_steady (inp claims : Members) : Steady fun now => presenterOf P inp claims now := by
  unfold presenterOf
  split
  · exact (presenterFromPop_steady inp claims).before _
  · exact steady_const _

theorem verifyTctAsIssuer_steady (inp : Members) : Steady (verifyTctAsIssuer P inp) := by
  unfold verifyTctAsIssuer
  refine .after fun _ _ => .after fun _ _ => .after fun _ _ => .after fun _ _ => .after fun _ _ => .after fun claims _ => ?_
  refine .after fun _ _ => .after fun _ _ => (checkGrantClaims_steady claims).bind fun _ _ => ?_
  exact (presenterOf_steady inp claims).bind fun _ _ => .after fun _ _ => (steady_checkRevocation claims inp).before _

theorem verifyAttestation_steady (inp : Members) : Steady (verifyAttestation P inp) := by
  unfold verifyAttestation
  refine .after fun _ _ => .after fun _ _ => .after fun _ _ => .after fun _ _ => .after fun _ _ => .after fun claims _ => ?_
  refine .after fun _ _ => (steady_checkExp claims _).bind fun _ _ => .after fun _ _ => .after fun _ _ => .after fun _ _ => ?_
  exact (steady_checkRevocation claims inp).before _

theorem verifyGrantVoucher_steady (inp : Members) : Steady (verifyGrantVoucher P inp) := by
  unfold verifyGrantVoucher
  refine .after fun _ _ => .after fun _ _ => .after fun _ _ => .after fun claims _ => .after fun _ _ => .after fun _ _ => ?_
  exact .after fun _ _ => (steady_checkExp claims _).before _

/-! ### Delegations -/

theorem verifyHopJws_steady (inp : Members) (token : JsonValue) : Steady fun now => verifyHopJws P inp token now := by
  have hissuer (iss : JsonValue) : Steady fun now => resolveIssuer P inp iss now := by
    unfold resolveIssuer
    cases inp.get? (txt "issuer_manifests") with
    | none => exact steady_const _
    | some manifests => exact .after fun aid _ => ((resolveManifest_steady aid manifests).before _).before _
  unfold verifyHopJws
  exact .after fun _ _ => (hissuer _).before _

theorem checkAgainstVoucher_steady (claims vclaims : Members) (lacked expired exceeded : Text) :
    Steady fun now => checkAgainstVoucher P claims vclaims now lacked expired exceeded := by
  refine .after fun _ _ => .after fun _ _ => .after fun _ _ => .before (steady_raiseIf fun (s t u : Int) hst htu hs hu => ?_) _
  simp only [Bool.or_eq_false_iff, decide_eq_false_iff_not] at *
  omega

theorem verifySingleHop_steady (inp : Members) (token : JsonValue) (selfAid : Text) :
    Steady fun now => verifySingleHop P inp token selfAid now := by
  unfold verifySingleHop
  refine (verifyHopJws_steady inp token).bind fun claims _ => .after fun _ _ => .after fun _ _ => ?_
  refine (steady_checkExp claims _).bind fun _ _ => .after fun vclaims _ => (checkAgainstVoucher_steady _ _ _ _ _).bind fun _ _ => ?_
  exact .after fun bodies hb => (steady_checkSourceTctRevocation hb _).before _

theorem stepHop_steady (inp : Members) (selfAid : Text) (state : ChainState) (hop : JsonValue) :
    Steady fun now => stepHop P inp selfAid now state hop := by
  have hhop : Steady fun now => verifyHop P inp hop selfAid state.seenJti now := by
    unfold verifyHop
    refine (verifyHopJws_steady inp hop).bind fun claims _ => .after fun _ _ => .after fun _ _ => .after fun _ _ => ?_
    exact .after fun _ _ => .after fun _ _ => .after fun _ _ => (steady_checkExp claims _).before _
  have hauthority (claims : Members) : Steady fun now => hopAuthority P state claims selfAid now := by
    unfold hopAuthority
    cases state.prev with
    | none => exact .after fun _ _ => (checkAgainstVoucher_steady _ _ _ _ _).before _
    | some prev => exact steady_const _
  unfold stepHop
  exact hhop.bind fun claims _ => (hauthority claims).before _

theorem runHops_steady (inp : Members) (selfAid : Text) (state : ChainState) (hops : List JsonValue) :
    Steady fun now => runHops P inp selfAid now state hops := by
  induction hops generalizing state with
  | nil => exact steady_const _
  | cons hop rest ih => exact (stepHop_steady inp selfAid state hop).bind fun following _ => ih following

theorem verifyMultihop_steady (inp : Members) (token : JsonValue) (outer : Members) (selfAid : Text) :
    Steady fun now => verifyMultihop P inp token outer selfAid now := by
  unfold verifyMultihop
  refine .after fun hops _ => (runHops_steady inp selfAid _ hops).bind fun final _ => .after fun bodies hb => ?_
  refine (steady_checkSourceTctRevocation hb _).bind fun _ _ => ?_
  simp only [← bind_assoc]
  exact (steady_sweepChain hb (some hops)).before _

theorem verifyDelegationToken_steady (inp : Members) : Steady (verifyDelegationToken P inp) := by
  unfold verifyDelegationToken
  refine .after fun _ _ => .after fun outer _ => .after fun _ _ => ?_
  cases inp.get (txt "self_aid") with
  | str selfAid =>
    have hgrants : Steady fun now => delegationGrants P inp (inp.get (txt "delegation_token")) outer selfAid now := by
      unfold delegationGrants
      split
      · exact verifyMultihop_steady inp _ outer selfAid
      · exact verifySingleHop_steady inp _ selfAid
    exact hgrants.before _
  | null | bool | int | float | list | dict => exact steady_const _

/-! ### Snapshots -/

/-- The answer tells a stale snapshot from a fresh one, so that only the times of acceptance have no gap. -/
theorem verifyRevocationSnapshot_gapless (inp : Members) : Gapless fun now => verifyRevocationSnapshot P inp (some now) := by
  unfold verifyRevocationSnapshot
  simp only [clockOf, ok_bind]
  refine .after fun snapshot _ => .after fun body hbody => ?_
  have hshape := (verifySnapshotTrust_trusted P hbody).shape
  split
  · refine gapless_switch (snapshotIsStale_ok P hshape _) (fun s t hst hs => ?_) _ _
    obtain ⟨stale, hstale⟩ := snapshotIsStale_ok P hshape (policyOf inp) t
    cases stale with
    | true => exact hstale
    | false =>
      rw [(snapshotIsStale_eq_false P hshape).mpr (((snapshotIsStale_eq_false P hshape).mp hstale).earlier hst)] at hs
      cases hs
  · exact (steady_const _).gapless

/-! ### Identities -/

variable (P) in
/-- `datetime.fromtimestamp`, in UTC: a range of timestamps is converted, in order. -/
structure Calendar : Prop where
  range : Gapless P.fromTimestamp
  ordered : ∀ s t a b, s ≤ t → P.fromTimestamp s = .ok a → P.fromTimestamp t = .ok b → a ≤ b

theorem checkValidity_steady (cert : Certificate) (what : Text) : Steady fun time => Spiffe.checkValidity cert time what := by
  refine steady_unit fun s t u hst htu hs hu => ?_
  rw [checkValidity_eq_ok] at *
  obtain ⟨notBefore, _, hbefore, _, hle, _⟩ := hs
  obtain ⟨_, notAfter, _, hafter, _, hin⟩ := hu
  exact ⟨notBefore, notAfter, hbefore, hafter, hle.trans hst, htu.trans hin⟩

theorem checkPath_steady (trustDomain : Text) (i : Nat) (certs : List Certificate) :
    Steady fun time => Spiffe.checkPath P trustDomain time i certs := by
  have hentry (i : Nat) (cert : Certificate) (issuer? : Option Certificate) :
      Steady fun time => Spiffe.checkPathEntry P trustDomain time i cert issuer? := by
    unfold Spiffe.checkPathEntry
    exact .after fun _ _ => .after fun _ _ => (checkValidity_steady cert _).before _
  induction certs generalizing i with
  | nil => exact steady_const _
  | cons cert rest ih => exact (hentry i cert rest.head?).bind fun _ _ => ih (i + 1)

theorem checkChain_steady (leaf : Certificate) (issuers anchors : List Certificate) (trustDomain : Text) :
    Steady fun time => Spiffe.checkChain P leaf issuers anchors trustDomain time := by
  unfold Spiffe.checkChain
  refine (checkPath_steady trustDomain 0 _).bind fun _ _ => .after fun anchor _ => ?_
  split
  · exact steady_const _
  · exact (checkValidity_steady _ _).before _

theorem verifySpiffe_steady (hcalendar : Calendar P) (identity env : Members) (selfAid store : JsonValue) :
    Steady fun now => verifySpiffe P identity env selfAid store now := by
  have hjwt (candidates : List Members) : Steady fun now => Spiffe.verifyJwtSvid P identity env selfAid candidates now := by
    unfold Spiffe.verifyJwtSvid
    refine .after fun _ _ => .after fun _ _ => .after fun _ _ => .after fun _ _ => ?_
    unfold Spiffe.checkJwtSvidClaims
    refine .after fun _ _ => .after fun _ _ => .after fun _ _ => ?_
    exact (steady_futureExp _ _).bind fun _ _ => (steady_freshIat _ _).before _
  have hx509 (candidates : List Members) : Steady fun now => Spiffe.verifyX509Svid P identity env selfAid candidates now := by
    unfold Spiffe.verifyX509Svid
    refine .after fun chain _ => .after fun _ _ => .after fun _ _ => ?_
    refine steady_converted hcalendar.range hcalendar.ordered (.after fun _ _ => .after fun _ _ => ?_)
    exact (checkChain_steady _ _ _ _).before _
  unfold verifySpiffe
  refine Steady.rescue ?_ _
  unfold Spiffe.verifyDescriptor
  refine .after fun _ _ => .after fun _ _ => .after fun _ _ => .after fun _ _ => .after fun _ _ => .after fun _ _ => ?_
  refine .after fun candidates _ => ?_
  split
  · exact hjwt candidates
  · exact hx509 candidates

theorem verifyIdentity_steady (hcalendar : Calendar P) (identity env : Members) (selfAid : JsonValue) (config : IdentityConfig) :
    Steady fun now => verifyIdentity P identity env selfAid config now := by
  have hoidc : Steady fun now => verifyOidc P identity env selfAid config.trustAnchors config.issuerKeys now := by
    unfold verifyOidc
    refine .after fun _ _ => ?_
    split
    · refine .after fun _ _ => .after fun parsed _ => ?_
      unfold checkOidcClaims
      refine .after fun _ _ => .after fun _ _ => ?_
      exact (steady_futureExp _ _).bind fun _ _ => (steady_freshIat _ _).before _
    · exact steady_const _
  unfold verifyIdentity
  refine .after fun _ _ => ?_
  dsimp only
  split
  · exact verifySpiffe_steady hcalendar identity env selfAid _
  · refine .after fun _ _ => ?_
    split
    · exact hoidc
    · exact steady_const _

/-! ### Handshakes and bundles -/

theorem verifyCommit_steady (inp : Members) (payload selfAid : JsonValue) : Steady fun now => verifyCommit P inp payload selfAid now := by
  have htct (tct : JsonValue) : Steady fun now => verifyCommitTct P inp tct selfAid now := by
    unfold verifyCommitTct
    refine .after fun _ _ => .after fun _ _ => .after fun claims _ => .after fun _ _ => .after fun _ _ => ?_
    exact (steady_checkExp claims _).before _
  unfold verifyCommit
  exact .after fun _ _ => .after fun _ _ => .after fun _ _ => .after fun _ _ => (htct _).before _

theorem verifyBootstrap_steady (hcalendar : Calendar P) (inp env : Members) : Steady fun now => verifyBootstrap P inp env now := by
  have hidentity : Steady fun now => checkHelloIdentity P inp env now := by
    unfold checkHelloIdentity
    simp only [verifyManifest_clocked]
    refine (verifyManifest_steady _).bind fun _ _ => .after fun _ _ => ?_
    split
    · exact .after fun _ _ => (verifyIdentity_steady hcalendar _ _ _ _).before _
    · exact steady_const _
  unfold verifyBootstrap
  exact .after fun _ _ => .after fun _ _ => hidentity.before _

theorem verifyHandshakePayload_steady (hcalendar : Calendar P) (inp : Members) : Steady (verifyHandshakePayload P inp) := by
  have hside (side : Text) : Steady fun now => verifyCommitSide P inp side now := by
    unfold verifyCommitSide
    exact .after fun _ _ => .after fun _ _ => .after fun _ _ => verifyCommit_steady _ _ _
  have hmessage (env : Members) : Steady fun now => verifyMessage P inp env now := by
    unfold verifyMessage
    split
    · exact verifyBootstrap_steady hcalendar inp env
    · split
      · exact (verifyCommit_steady inp _ _).before _
      · exact steady_const _
  unfold verifyHandshakePayload
  split
  · exact (hside _).bind fun _ _ => (hside _).before _
  · exact .after fun env _ => hmessage env

theorem verifySessionBundle_steady (inp : Members) : Steady fun now => verifySessionBundle P inp (some now) := by
  have htimes (body : Members) : Steady fun now => checkBundleTimes P body now := by
    refine .after fun _ _ => .after fun _ _ => .before (steady_raiseIf fun (s t u : Int) hst htu hs hu => ?_) _
    simp only [decide_eq_false_iff_not] at *
    omega
  unfold verifySessionBundle
  simp only [clockOf, ok_bind]
  refine .after fun _ _ => .after fun _ _ => .after fun _ _ => .after fun body _ => (htimes body).bind fun _ _ => ?_
  exact .after fun _ _ => (resolveManifest_steady _ _).before _

/-! ### The registry -/

/-- Whatever operation accepts an input at two times accepts it at every time between, and but for the snapshot operation,
which reports how fresh the snapshot is, with one result. -/
theorem operations_between (hcalendar : Calendar P) {op : Text} {verifier : Verifier} (hop : (op, verifier) ∈ operations P)
    (inp : Members) {s t u : Int} {r r' : Members} (hst : s ≤ t) (htu : t ≤ u) (hs : verifier inp s = .ok r)
    (hu : verifier inp u = .ok r') :
    ∃ found, verifier inp t = .ok found ∧ (op ≠ txt "verify_revocation_snapshot" → found = r ∧ r = r') := by
  have hsteady (h : Steady (verifier inp)) :
      ∃ found, verifier inp t = .ok found ∧ (op ≠ txt "verify_revocation_snapshot" → found = r ∧ r = r') :=
    ⟨r, h.between hst htu hs hu, fun _ => ⟨rfl, h.agrees s u r r' hs hu⟩⟩
  simp only [operations, List.mem_cons, Prod.mk.injEq, List.not_mem_nil, or_false] at hop
  rcases hop with ⟨_, rfl⟩ | ⟨_, rfl⟩ | ⟨_, rfl⟩ | ⟨_, rfl⟩ | ⟨_, rfl⟩ | ⟨_, rfl⟩ | ⟨_, rfl⟩ | ⟨rfl, rfl⟩ | ⟨_, rfl⟩ | ⟨_, rfl⟩
  · exact hsteady (verifyEnvelope_steady inp)
  · exact hsteady (verifyManifest_steady inp)
  · exact hsteady (verifyTct_steady inp)
  · exact hsteady (verifyTctAsIssuer_steady inp)
  · exact hsteady (verifyAttestation_steady inp)
  · exact hsteady (verifyGrantVoucher_steady inp)
  · exact hsteady (verifyDelegationToken_steady inp)
  · obtain ⟨found, hfound⟩ := gapless_iff.mp (verifyRevocationSnapshot_gapless inp) s t u r r' hst htu hs hu
    exact ⟨found, hfound, fun hne => absurd rfl hne⟩
  · exact hsteady (verifyHandshakePayload_steady hcalendar inp)
  · exact hsteady (verifySessionBundle_steady inp)

/-- A token accepted now and an hour later, when its snapshot is about to expire, is accepted in between. -/
theorem operations_between_grant :
    ∃ found, verifyTct grantRecording.platform (answeredInput grantToken) (referenceClock + 60) = .ok found ∧
      (txt "verify_tct" ≠ txt "verify_revocation_snapshot" →
        found = [(txt "grants", .list [.str (txt "read")])] ∧
          [(txt "grants", .list [.str (txt "read")])] = [(txt "grants", JsonValue.list [.str (txt "read")])]) := by
  have hcalendar : Calendar grantRecording.platform := by
    refine ⟨gapless_iff.mpr fun _ t _ _ _ _ _ _ _ => ⟨t, rfl⟩, fun s t a b hst ha hb => ?_⟩
    rwa [← Except.ok.inj ha, ← Except.ok.inj hb]
  have hnow : verifyTct grantRecording.platform (answeredInput grantToken) referenceClock =
      .ok [(txt "grants", .list [.str (txt "read")])] := by
    decide +kernel
  have hlater : verifyTct grantRecording.platform (answeredInput grantToken) (referenceClock + 3599) =
      .ok [(txt "grants", .list [.str (txt "read")])] := by
    decide +kernel
  exact operations_between hcalendar (.tail _ (.tail _ (.head _))) _ (by decide) (by decide) hnow hlater

end AitpVerifier
