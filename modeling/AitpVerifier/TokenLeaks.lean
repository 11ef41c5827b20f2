import AitpVerifier.Contained

/-!
# Exceptions a token can raise

Six operations take a token from a peer. Every defect they find is reported through
the package, but for one: the issuer is resolved by a parser that raises
`ValueError`, with no handler around it.
-/
namespace AitpVerifier

open PyText Checked

variable (P : Platform)

/-! ### The issuer of a token -/

/-- A value whose text names no key. -/
def Unresolvable (value : JsonValue) : Prop := ∀ s aid, P.toStr value = .ok s → parseAid P s ≠ .ok aid

/-- A token that reaches the resolution of its issuer, or the text made of it first,
with an issuer that names no key. -/
def UnresolvableIssuer (token : JsonValue) (typ : Text) (check : Members → PyM Unit) : Prop :=
  ∃ parsed, ParsesTo P token parsed ∧ Unresolvable P (parsed.claims.get (txt "iss")) ∧
    (Leaks (P.toStr (parsed.claims.get (txt "iss"))) ∨ HeaderFor typ parsed ∧ check parsed.claims = .ok ())

/-- No error of `str` is one of the package's. -/
theorem toStr_leaks {value : JsonValue} : Leaks (P.toStr value) ↔ ∀ s, P.toStr value ≠ .ok s := by
  have hint (i : Int) : FailsWith (fun e => ¬ Coded e) (intText i) :=
    (FailsWith.raiseIf (p := fun e => ¬ Coded e) not_coded_raised).bind fun _ _ => .ok
  have hrepr (room : Nat) (value : JsonValue) : FailsWith (fun e => ¬ Coded e) (P.reprWithin room value) := by
    induction room generalizing value with
    | zero =>
      cases value with
      | int i => simpa only [Interpreter.reprWithin] using hint i
      | list | dict => simpa only [Interpreter.reprWithin] using FailsWith.error (p := fun e => ¬ Coded e) not_coded_raised
      | _ => simpa only [Interpreter.reprWithin] using FailsWith.ok
    | succ room ih =>
      cases value with
      | int i => simpa only [Interpreter.reprWithin] using hint i
      | list items =>
        simpa only [Interpreter.reprWithin] using (FailsWith.collect fun item _ => ih item).bind fun _ _ => .ok
      | dict members =>
        simpa only [Interpreter.reprWithin] using
          (FailsWith.collect fun m _ => (ih m.2).bind fun _ _ => .ok).bind fun _ _ => .ok
      | _ => simpa only [Interpreter.reprWithin] using FailsWith.ok
  have hall : FailsWith (fun e => ¬ Coded e) (P.toStr value) := by
    unfold Interpreter.toStr
    split
    · exact .ok
    · exact hrepr _ _
  cases h : P.toStr value with
  | ok s => simp [Leaks]
  | error e => simpa [leaks_error] using hall e h

/-- A token read, its issuer resolved, verified, and then put to use. -/
theorem leaks_issued_by {α : Type} {token : JsonValue} {code : String} {typ : Text} {errors : JwsErrors}
    {check : Members → PyM Unit} {verify : Text → PyM Members} {rest : Members → PyM α}
    (hcheck : ∀ claims, FailsWith Coded (check claims))
    (hleaks : ∀ iss, Leaks (verify iss) ↔ Leaks (verifyJws P token iss typ errors check))
    (hverify : ∀ iss claims, verify iss = .ok claims → verifyJws P token iss typ errors check = .ok claims)
    (hrest : ∀ claims, check claims = .ok () → Unresolvable P (claims.get (txt "iss")) ∨ FailsWith Coded (rest claims)) :
    Leaks (do
      let peeked ← peekClaims P token code
      let iss ← P.toStr (peeked.get (txt "iss"))
      let claims ← verify iss
      rest claims) ↔ UnresolvableIssuer P token typ check := by
  rw [leaks_bind_right (peekClaims_coded P)]
  simp only [peekClaims_eq_ok, leaks_bind]
  constructor
  · rintro ⟨_, ⟨parsed, hparsed, rfl⟩, h⟩
    refine ⟨parsed, hparsed, ?_⟩
    rcases h with h | ⟨iss, hiss, h | ⟨claims, hclaims, h⟩⟩
    · refine ⟨fun s aid hs => ?_, .inl h⟩
      exact absurd hs ((toStr_leaks P).mp h s)
    · obtain ⟨found, hfound, hheader, h⟩ := (leaks_verifyJws P).mp ((hleaks iss).mp h)
      obtain rfl := hparsed.unique P hfound
      rcases h with h | ⟨hok, haid⟩
      · exact absurd h (not_leaks_iff.mpr (hcheck _))
      · refine ⟨fun s aid hs => ?_, .inr ⟨hheader, hok⟩⟩
        rw [hiss] at hs
        rw [← Except.ok.inj hs]
        exact haid aid
    · -- a verified token names a key, and what follows it reports through the package
      obtain ⟨hsigned, hok⟩ := (verifyJws_eq_ok P).mp (hverify iss claims hclaims)
      obtain rfl := hsigned.claims_unique P ⟨parsed, hparsed, rfl⟩
      rcases hrest _ hok with hno | hcoded
      · obtain ⟨_, aid, _, _, _, _, haid, _⟩ := hsigned
        exact absurd haid (hno iss aid hiss)
      · exact absurd h (not_leaks_iff.mpr hcoded)
  · rintro ⟨parsed, hparsed, hno, h⟩
    refine ⟨_, ⟨parsed, hparsed, rfl⟩, ?_⟩
    cases hiss : P.toStr (parsed.claims.get (txt "iss")) with
    | error e =>
      rw [← hiss]
      exact .inl ((toStr_leaks P).mpr fun s hs => by rw [hiss] at hs; cases hs)
    | ok iss =>
      rcases h with h | ⟨hheader, hok⟩
      · exact absurd hiss ((toStr_leaks P).mp h iss)
      · refine .inr ⟨iss, rfl, .inl ((hleaks iss).mpr ?_)⟩
        exact (leaks_verifyJws P).mpr ⟨parsed, hparsed, hheader, .inr ⟨hok, fun aid => hno iss aid hiss⟩⟩

theorem leaks_issued {α : Type} {token : JsonValue} {code : String} {typ : Text} {errors : JwsErrors}
    {check : Members → PyM Unit} {rest : Members → PyM α} (hcheck : ∀ claims, FailsWith Coded (check claims))
    (hrest : ∀ claims, check claims = .ok () → Unresolvable P (claims.get (txt "iss")) ∨ FailsWith Coded (rest claims)) :
    Leaks (do
      let peeked ← peekClaims P token code
      let iss ← P.toStr (peeked.get (txt "iss"))
      let claims ← verifyJws P token iss typ errors check
      rest claims) ↔ UnresolvableIssuer P token typ check :=
  leaks_issued_by P hcheck (fun _ => Iff.rfl) (fun _ _ h => h) hrest

/-! ### The checks after the signature -/

theorem checkTctClaimsShape_coded {claims : Members} {shapeCode : String} :
    FailsWith Coded (checkTctClaimsShape P claims shapeCode) :=
  (requireMembers_coded P).bind fun _ _ => checkTypes_coded.bind fun _ _ =>
    (FailsWith.raiseIf coded_aitpError).bind fun _ _ => (rejectUnknownFields_coded P).bind fun _ _ =>
    (rejectUnknownFields_coded P).bind fun _ _ => .raiseIf coded_aitpError

theorem checkVer_coded {claims : Members} (h : ∃ s, claims.get (txt "ver") = .str s) : FailsWith Coded (checkVer P claims) :=
  describeStr_fails P h fun _ => coded_aitpError

theorem checkExp_coded {claims : Members} {now exp : Int} {expired : PyErr} (h : P.toInt (claims.get (txt "exp")) = .ok exp)
    (he : Coded expired) : FailsWith Coded (checkExp P claims now expired) := by
  rw [checkExp, h, ok_bind]
  exact .raiseIf he

theorem checkGrantContext_coded {claims : Members} : FailsWith Coded (checkGrantContext claims) :=
  (FailsWith.raiseIf coded_aitpError).bind fun _ _ => .raiseIf coded_aitpError

theorem TctShape.ver {claims : Members} (h : TctShape claims) : ∃ s, claims.get (txt "ver") = .str s :=
  h.shaped.str (by simp [tctRequiredClaims]) (by simp [tctClaimTypes])

theorem checkGrantClaims_coded {claims : Members} {now : Int} (h : TctShape claims) :
    FailsWith Coded (checkGrantClaims P claims now) :=
  (checkExp_coded P (h.toInt_exp P) coded_aitpError).bind fun _ _ => checkGrantContext_coded.bind fun _ _ =>
    (onValueError_coded (parseAid_valueErrors P _)).bind fun _ _ => .raiseIf coded_aitpError

/-- A Manifest a caller caps a token by: none, or an object with an expiry. -/
def CapArgument (manifest : JsonValue) : Prop :=
  manifest = .null ∨ ∃ (man : Members) (value : JsonValue), manifest = .dict man ∧
    man.get? (txt "expires_at") = some value ∧ value.admits .int

theorem outlivesManifest_ok {claims man : Members} {value : JsonValue} (h : TctShape claims)
    (hv : man.get? (txt "expires_at") = some value) (hi : value.admits .int) :
    ∃ outlives, outlivesManifest P claims (.dict man) = .ok outlives := by
  have hitem : (JsonValue.dict man).item (txt "expires_at") = .ok value := by
    rw [JsonValue.item, Members.index, hv]
  rw [outlivesManifest, h.toInt_exp P, ok_bind, hitem, ok_bind, toInt_of_admits P hi]
  exact ⟨_, rfl⟩

theorem checkManifestCap_coded {claims inp : Members} {what : Text} (h : TctShape claims)
    (hc : CapArgument (inp.get (txt "issuer_manifest"))) : FailsWith Coded (checkManifestCap P claims inp what) := by
  rcases hc with hnull | ⟨man, value, hman, hv, hi⟩
  · rw [checkManifestCap, hnull]
    exact .ok
  · obtain ⟨outlives, ho⟩ := outlivesManifest_ok P h hv hi
    rw [checkManifestCap, hman]
    dsimp only
    rw [ho, ok_bind]
    exact .raiseIf coded_aitpError

/-! ### Revocation arguments -/

/-- A snapshot a caller obtained, whose body canonicalization answers for. -/
def SnapshotArgument (snapshot : JsonValue) : Prop :=
  ∀ wrapper : Members, snapshot = .dict wrapper → Answers (wrapper.get (txt "revocation_list"))

theorem snapshotIsStale_coded {body policy : Members} {now : Int} (h : RevocationBody body) :
    FailsWith Coded (snapshotIsStale P body policy now) := by
  obtain ⟨stale, hstale⟩ := snapshotIsStale_ok P h policy now
  rw [hstale]
  exact .ok

theorem checkRevocation_coded {claims inp : Members} {now : Int}
    (h : ∀ revlist : Members, inp.get (txt "issuer_revocation_list") = .dict revlist →
      SnapshotArgument (revlist.get (txt "snapshot"))) : FailsWith Coded (checkRevocation P claims inp now) := by
  have habsence (detail : Text) : FailsWith Coded (tctAbsence (policyFailMode inp) detail) := .raiseIf coded_aitpError
  unfold checkRevocation
  split
  · rename_i revlist hlist
    have htrust := verifySnapshotTrust_coded P (h revlist hlist)
    split
    · rename_i body hbody
      unfold checkTrustedSnapshot
      split
      · exact habsence _
      · refine (snapshotIsStale_coded P (verifySnapshotTrust_trusted P hbody).shape).bind fun stale _ => ?_
        split
        · exact habsence _
        · exact .raiseIf coded_aitpError
    · exact habsence _
    · rename_i e _ he
      exact .error (htrust e he)
  · exact habsence _

/-! ### Capability tokens and self-attestations -/

/-- The arguments of a token's verification, the token itself left open. -/
structure TctArguments (inp : Members) : Prop where
  token : ∃ token, inp.get? (txt "tct_token") = some token
  manifest : CapArgument (inp.get (txt "issuer_manifest"))
  snapshot : ∀ revlist : Members, inp.get (txt "issuer_revocation_list") = .dict revlist →
    SnapshotArgument (revlist.get (txt "snapshot"))

/-- The shape check between `typ` and `alg` of a token. -/
def tctCheck (claims : Members) : PyM Unit := checkTctClaimsShape P claims "TCT_SIGNATURE_INVALID"

theorem leaks_verifyTct {inp : Members} {now : Int} {token : JsonValue} (h : TctArguments inp)
    (ht : inp.get? (txt "tct_token") = some token) :
    Leaks (verifyTct P inp now) ↔ UnresolvableIssuer P token tctTyp (tctCheck P) := by
  have hindex : inp.index (txt "tct_token") = .ok token := by rw [Members.index, ht]
  rw [verifyTct, hindex, ok_bind]
  refine leaks_issued P (fun _ => checkTctClaimsShape_coded P) fun claims hcheck => .inr ?_
  have hshape := (checkTctClaimsShape_eq_ok P).mp hcheck
  exact (checkVer_coded P hshape.ver).bind fun _ _ => (FailsWith.raiseIf coded_aitpError).bind fun _ _ =>
    (checkGrantClaims_coded P hshape).bind fun _ _ => (checkManifestCap_coded P hshape h.manifest).bind fun _ _ =>
    (checkRevocation_coded P h.snapshot).bind fun _ _ => .ok

/-- The arguments of an attestation's verification: a token's, a list of trusted
keys, the name of the statement, and a decision on the Manifest cap. -/
structure AttestationArguments (inp : Members) : Prop extends TctArguments inp where
  trustStore : ∃ keys, inp.get (txt "trust_store") = .list keys
  statement : ∃ key, inp.get? (txt "expected_ext_key") = some (.str key)
  capDecision : inp.get (txt "issuer_manifest") ≠ .null ∨ inp.get (txt "waive_manifest_cap") = .bool true

/-- The check between `typ` and `alg` of an attestation. -/
def attestationCheck (inp claims : Members) : PyM Unit := attestationPreSignature P (inp.get (txt "trust_store")) claims

theorem attestationPreSignature_coded {keys : List JsonValue} {claims : Members} :
    FailsWith Coded (attestationPreSignature P (.list keys) claims) := by
  refine (checkTctClaimsShape_coded P).bind fun _ _ => ?_
  dsimp only
  split
  · exact FailsWith.ok.bind fun _ _ => .raiseIf coded_aitpError
  · exact FailsWith.ok.bind fun _ _ => .raiseIf coded_aitpError

theorem attestationPreSignature_shape {trustStore : JsonValue} {claims : Members}
    (h : attestationPreSignature P trustStore claims = .ok ()) : TctShape claims := by
  simp only [attestationPreSignature, bind_eq_ok, exists_unit] at h
  exact (checkTctClaimsShape_eq_ok P).mp h.1

/-- The parties of an attestation are one, so its subject parses where its issuer does. -/
theorem checkAttestationClaims_coded {claims : Members} (h : TctShape claims)
    (hiss : ∃ aid, parseAid P (claims.get (txt "iss")).text = .ok aid) : FailsWith Coded (checkAttestationClaims P claims) := by
  refine FailsWith.bind (.raiseIf coded_aitpError) fun _ hparties => (FailsWith.raiseIf coded_aitpError).bind fun _ _ => ?_
  obtain ⟨sub, hsub⟩ := h.sub
  obtain ⟨aid, haid⟩ := hiss
  have hsame : claims.get (txt "iss") = claims.get (txt "sub") := by
    rw [raiseIf_eq_ok, Bool.not_eq_false', Bool.and_eq_true, hsub, JsonValue.eq_str] at hparties
    rw [hparties.1, hsub]
  rw [← hsame, haid]
  exact .raiseIf coded_aitpError

theorem attestationStatement_coded {claims : Members} {key : Text} :
    FailsWith Coded (attestationStatement P claims (.str key)) := by
  have hpresent (present : Bool) := describeStr_fails P (c := !present) ⟨key, rfl⟩ fun text =>
    (coded_aitpError : Coded (tctInvalid (txt "attestation ext lacks " ++ text)))
  unfold attestationStatement
  dsimp only
  cases claims.get (txt "ext") with
  | dict ext => exact FailsWith.ok.bind fun present _ => (hpresent present).bind fun _ _ => .ok
  | _ => exact FailsWith.ok.bind fun present _ => (hpresent present).bind fun _ _ => .ok

theorem leaks_verifyAttestation {inp : Members} {now : Int} {token : JsonValue} (h : AttestationArguments inp)
    (ht : inp.get? (txt "tct_token") = some token) :
    Leaks (verifyAttestation P inp now) ↔ UnresolvableIssuer P token tctTyp (attestationCheck P inp) := by
  have hindex : inp.index (txt "tct_token") = .ok token := by rw [Members.index, ht]
  obtain ⟨key, hkey⟩ := h.statement
  have hstatement : inp.index (txt "expected_ext_key") = .ok (.str key) := by rw [Members.index, hkey]
  obtain ⟨keys, hkeys⟩ := h.trustStore
  rw [verifyAttestation, hindex, ok_bind, hstatement, ok_bind]
  dsimp only
  rw [(raiseIf_eq_ok (u := ())).mpr, ok_bind]
  · have hcheck (claims : Members) : FailsWith Coded (attestationCheck P inp claims) := by
      rw [attestationCheck, hkeys]
      exact attestationPreSignature_coded P
    refine leaks_issued P hcheck fun claims hok => ?_
    have hshape := attestationPreSignature_shape P hok
    by_cases hiss : ∃ aid, parseAid P (claims.get (txt "iss")).text = .ok aid
    · right
      exact (checkVer_coded P hshape.ver).bind fun _ _ => (checkExp_coded P (hshape.toInt_exp P) coded_aitpError).bind
        fun _ _ => (checkAttestationClaims_coded P hshape hiss).bind fun _ _ => (attestationStatement_coded P).bind
        fun _ _ => (checkManifestCap_coded P hshape h.manifest).bind fun _ _ =>
        (checkRevocation_coded P h.snapshot).bind fun _ _ => .ok
    · left
      intro s aid hs haid
      obtain ⟨text, htext⟩ := hshape.iss
      rw [htext] at hs hiss
      obtain rfl : text = s := Except.ok.inj hs
      exact hiss ⟨aid, haid⟩
  · rcases h.capDecision with hm | hw
    · cases hv : inp.get (txt "issuer_manifest") with
      | null => exact absurd hv hm
      | _ => rfl
    · rw [hw]
      exact Bool.and_false _

/-! ### Grant vouchers -/

theorem checkVoucherClaimsShape_coded {claims : Members} {shapeCode : String} :
    FailsWith Coded (checkVoucherClaimsShape P claims shapeCode) :=
  (requireMembers_coded P).bind fun _ _ => checkTypes_coded.bind fun _ _ =>
    (FailsWith.raiseIf coded_aitpError).bind fun _ _ => rejectUnknownFields_coded P

theorem VoucherShape.ver {claims : Members} (h : VoucherShape claims) : ∃ s, claims.get (txt "ver") = .str s :=
  h.shaped.str (by simp [voucherRequiredClaims]) (by simp [voucherClaimTypes])

theorem leaks_verifyGrantVoucher {inp : Members} {now : Int} {token : JsonValue}
    (ht : inp.get? (txt "voucher_token") = some token) :
    Leaks (verifyGrantVoucher P inp now) ↔ UnresolvableIssuer P token voucherTyp noCheck := by
  have hindex : inp.index (txt "voucher_token") = .ok token := by rw [Members.index, ht]
  rw [verifyGrantVoucher, hindex, ok_bind]
  refine leaks_issued P (fun _ => .ok) fun claims _ => .inr ?_
  refine (checkVoucherClaimsShape_coded P).bind fun _ hok => ?_
  have hshape := (checkVoucherClaimsShape_eq_ok P).mp hok
  exact (checkVer_coded P hshape.ver).bind fun _ _ => (FailsWith.raiseIf coded_aitpError).bind fun _ _ =>
    (checkExp_coded P (hshape.toInt_exp P) coded_aitpError).bind fun _ _ => .ok

end AitpVerifier
