import AitpVerifier.FailClosed
import AitpVerifier.TokenLeaks

/-!
# Exceptions a delegation token can raise

The shared steps of both paths, then the single-hop path: its own issuer is the one
unguarded parse, since the voucher is verified under the verifier's own identifier.
-/
namespace AitpVerifier

open PyText Checked

variable (P : Platform)

/-- The snapshots a caller supplies with a delegation token. -/
def SnapshotsArgument (snapshots : JsonValue) : Prop :=
  snapshots = .null ∨ ∃ records, snapshots = .list records ∧
    ∀ record ∈ records, SnapshotArgument (record.members.get (txt "snapshot"))

theorem verifiedSnapshotBodies_coded {inp : Members} {selfAid : Text}
    (h : SnapshotsArgument (inp.get (txt "revocation_snapshots"))) :
    FailsWith Coded (verifiedSnapshotBodies P inp selfAid) := by
  unfold verifiedSnapshotBodies
  rcases h with hnull | ⟨records, hlist, hrecords⟩
  · rw [hnull]
    exact .ok
  · rw [hlist]
    refine (FailsWith.collect fun record hr => ?_).bind fun _ _ => .ok
    have htrust := verifySnapshotTrust_coded P (hrecords record hr)
    unfold snapshotBody
    split
    · exact .ok
    · split
      · split
        · exact .error coded_aitp
        · exact .ok
      · exact .error coded_aitp
    · rename_i e _ he
      exact .error (htrust e he)

theorem freshBodies_coded {policy : Members} {now : Int} {bodies : List Members} (h : ∀ body ∈ bodies, RevocationBody body) :
    FailsWith Coded (freshBodies P policy now bodies) := by
  induction bodies with
  | nil => exact .ok
  | cons body rest ih =>
    exact (snapshotIsStale_coded P (h body List.mem_cons_self)).bind fun _ _ =>
      (ih fun b hb => h b (List.mem_cons_of_mem body hb)).bind fun _ _ => .ok

theorem checkSourceTctRevocation_coded {inp : Members} {bodies : List Members} {selfAid : Text} {srcJti : JsonValue}
    {now : Int} (h : ∀ body ∈ bodies, RevocationBody body) :
    FailsWith Coded (checkSourceTctRevocation P inp bodies selfAid srcJti now) := by
  refine (freshBodies_coded P fun body hb => h body (List.mem_filter.mp hb).1).bind fun _ _ => ?_
  split
  · exact .raiseIf coded_aitpError
  · exact .raiseIf coded_aitpError

/-! ### Tokens and vouchers -/

theorem checkDelegationClaimsShape_coded {claims : Members} {shapeCode : String} :
    FailsWith Coded (checkDelegationClaimsShape P claims shapeCode) :=
  (requireMembers_coded P).bind fun _ _ => checkTypes_coded.bind fun _ _ =>
    (FailsWith.raiseIf coded_aitpError).bind fun _ _ => (rejectUnknownFields_coded P).bind fun _ _ =>
    rejectUnknownFields_coded P

/-- A verified token's text parses, so only the issuer's text can fail. -/
theorem verifyJws_coded {token : JsonValue} {issAid typ : Text} {errors : JwsErrors} {check : Members → PyM Unit}
    (h : ∃ aid, parseAid P issAid = .ok aid) (hcheck : ∀ claims, FailsWith Coded (check claims)) :
    FailsWith Coded (verifyJws P token issAid typ errors check) := by
  obtain ⟨aid, haid⟩ := h
  rw [← not_leaks_iff, leaks_verifyJws]
  rintro ⟨parsed, _, _, hleak | ⟨_, hno⟩⟩
  · exact not_leaks_iff.mpr (hcheck _) hleak
  · exact hno aid haid

/-- The voucher is verified under the verifier's own identifier. -/
theorem verifyRootVoucher_coded {claims : Members} {selfAid missing : Text} (h : ∃ aid, parseAid P selfAid = .ok aid) :
    FailsWith Coded (verifyRootVoucher P claims selfAid missing) := by
  unfold verifyRootVoucher
  split
  · exact (peekClaims_coded P).bind fun _ _ => (FailsWith.raiseIf coded_aitpError).bind fun _ _ =>
      (verifyJws_coded P h fun _ => .ok).bind fun _ _ => (checkVoucherClaimsShape_coded P).bind fun _ _ => .ok
  · exact .error coded_aitpError

theorem checkAgainstVoucher_coded {claims vclaims : Members} {now : Int} {lacked expired exceeded : Text}
    (hc : DelegationShape claims) (hv : VoucherShape vclaims) :
    FailsWith Coded (checkAgainstVoucher P claims vclaims now lacked expired exceeded) := by
  refine (FailsWith.raiseIf coded_aitpError).bind fun _ _ => ?_
  rw [hv.toInt_exp, ok_bind, hc.toInt_exp, ok_bind]
  exact (FailsWith.raiseIf coded_aitpError).bind fun _ _ => .raiseIf coded_aitpError

/-- Without a Manifest source a token of the run leaks on its own issuer alone. -/
theorem leaks_verifyHopJws {inp : Members} {token : JsonValue} {now : Int} (h : inp.get? (txt "issuer_manifests") = none) :
    Leaks (verifyHopJws P inp token now) ↔ UnresolvableIssuer P token delegationTyp noCheck := by
  have hresolve (iss : JsonValue) : resolveIssuer P inp iss now = .ok () := by rw [resolveIssuer, h]
  simp only [verifyHopJws, hresolve, ok_bind]
  exact leaks_issued P (fun _ => .ok) fun claims _ => .inr ((checkDelegationClaimsShape_coded P).bind fun _ _ => .ok)

theorem verifiedSnapshotBodies_bodies {inp : Members} {selfAid : Text} {bodies : List Members}
    (h : verifiedSnapshotBodies P inp selfAid = .ok bodies) : ∀ body ∈ bodies, RevocationBody body := by
  intro body hb
  obtain ⟨_, _, _, _, ht⟩ := (mem_verifiedSnapshotBodies P h).mp hb
  exact (verifySnapshotTrust_trusted P ht).shape

/-! ### The single hop -/

/-- The arguments of a delegation token's verification, the token itself left open:
no Manifest source, the verifier's own identifier, and snapshots. -/
structure DelegationArguments (inp : Members) (selfAid : Text) : Prop where
  manifests : inp.get? (txt "issuer_manifests") = none
  verifier : inp.get (txt "self_aid") = .str selfAid
  parses : ∃ aid, parseAid P selfAid = .ok aid
  snapshots : SnapshotsArgument (inp.get (txt "revocation_snapshots"))

theorem leaks_verifySingleHop {inp : Members} {token : JsonValue} {selfAid : Text} {now : Int}
    (h : DelegationArguments P inp selfAid) :
    Leaks (verifySingleHop P inp token selfAid now) ↔ UnresolvableIssuer P token delegationTyp noCheck := by
  rw [← leaks_verifyHopJws P h.manifests, verifySingleHop]
  refine leaks_bind_left fun claims hclaims => ?_
  have hshape := ((verifyHopJws_eq_ok P).mp hclaims).1.shape
  refine (FailsWith.raiseIf coded_aitpError).bind fun _ _ => (FailsWith.raiseIf coded_aitpError).bind fun _ _ =>
    (checkExp_coded P (hshape.toInt_exp P) coded_aitpError).bind fun _ _ =>
    (verifyRootVoucher_coded P h.parses).bind fun vclaims hv => ?_
  refine (checkAgainstVoucher_coded P hshape ((verifyRootVoucher_eq_ok P).mp hv).shape).bind fun _ _ =>
    (verifiedSnapshotBodies_coded P h.snapshots).bind fun bodies hb => ?_
  exact (checkSourceTctRevocation_coded P (verifiedSnapshotBodies_bodies P hb)).bind fun _ _ => .ok

/-- A token the single-hop path takes on: no chain in it, or none that is let through. -/
def SingleHop (inp : Members) (token : Text) : Prop :=
  ∀ parsed, ParsesTo P (.str token) parsed → parsed.claims.has (txt "chain") →
    inp.get (txt "_feature") ≠ .str multihopFeature

/-- A token of the single-hop path that reaches the resolution of its issuer. -/
def UnresolvableDelegator (token : Text) : Prop :=
  ∃ parsed, ParsesTo P (.str token) parsed ∧ parsed.claims.has (txt "chain") = false ∧
    UnresolvableIssuer P (.str token) delegationTyp noCheck

theorem checkTokenPresent_str {inp : Members} {token : Text} : checkTokenPresent inp (.str token) = .ok () := rfl

theorem leaks_verifyDelegationToken {inp : Members} {token selfAid : Text} {now : Int}
    (h : DelegationArguments P inp selfAid) (ht : inp.get (txt "delegation_token") = .str token)
    (hsingle : SingleHop P inp token) :
    Leaks (verifyDelegationToken P inp now) ↔ UnresolvableDelegator P token := by
  rw [verifyDelegationToken, ht]
  rw [checkTokenPresent_str, ok_bind, leaks_bind_right (peekClaims_coded P)]
  simp only [peekClaims_eq_ok, h.verifier]
  constructor
  · rintro ⟨_, ⟨parsed, hparsed, rfl⟩, hleak⟩
    rw [leaks_bind_right (.raiseIf coded_aitpError)] at hleak
    obtain ⟨_, hguard, hleak⟩ := hleak
    have hchain : parsed.claims.has (txt "chain") = false := by
      by_contra hc
      rw [Bool.not_eq_false] at hc
      rw [raiseIf_eq_ok, hc, Bool.true_and, Bool.not_eq_false', JsonValue.eq_str] at hguard
      exact hsingle parsed hparsed hc hguard
    have hpath : Leaks (verifySingleHop P inp (.str token) selfAid now) := by
      rw [leaks_bind_left fun _ _ => FailsWith.ok, delegationGrants, hchain] at hleak
      exact hleak
    exact ⟨parsed, hparsed, hchain, (leaks_verifySingleHop P h).mp hpath⟩
  · rintro ⟨parsed, hparsed, hchain, hleak⟩
    refine ⟨_, ⟨parsed, hparsed, rfl⟩, ?_⟩
    rw [hchain, Bool.false_and, raiseIf, if_neg Bool.false_ne_true, ok_bind, leaks_bind_left fun _ _ => FailsWith.ok,
      delegationGrants, hchain]
    exact (leaks_verifySingleHop P h).mpr hleak

end AitpVerifier
