import AitpVerifier.Attenuation

/-!
# Unknown is revoked

Under `fail_closed` an accepted token has an answer: a trusted, fresh deny list of
its own issuer that does not name it. Absent, discarded, foreign and stale
snapshots are no answer.
-/
namespace AitpVerifier

open PyText Checked

variable (P : Platform)

/-- No entry of a deny list names the identifier. -/
def Unlisted (body : Members) (jti : JsonValue) : Prop :=
  ∀ entry ∈ (body.get (txt "entries")).items, entry.members.get (txt "jti") ≠ jti

/-- The one snapshot a token's input carries answers for the token. -/
structure SnapshotAnswers (inp : Members) (now : Int) (claims revlist body : Members) : Prop where
  carried : inp.get (txt "issuer_revocation_list") = .dict revlist
  trusted : verifySnapshotTrust P (revlist.get (txt "snapshot")) = .ok body
  issuer : body.get (txt "issuer") = claims.get (txt "iss")
  fresh : Fresh P body (policyOf inp) now
  unlisted : Unlisted body (claims.get (txt "jti"))

theorem tctAbsence_failClosed {detail : Text} : tctAbsence .failClosed detail ≠ .ok () := by
  simp [tctAbsence, raiseIf_eq_ok]

/-- Under `fail_closed` the revocation step passes exactly on an answer. -/
theorem checkRevocation_failClosed {inp claims : Members} {now : Int} (hmode : policyFailMode inp = .failClosed)
    (hs : TctShape claims) :
    checkRevocation P claims inp now = .ok () ↔ ∃ revlist body, SnapshotAnswers P inp now claims revlist body := by
  have habsent {detail : Text} : ¬ tctAbsence (policyFailMode inp) detail = .ok () := by
    rw [hmode]
    exact tctAbsence_failClosed
  obtain ⟨iss, hi⟩ := hs.iss
  obtain ⟨jti, hj⟩ := hs.jtiText
  unfold checkRevocation
  cases hr : inp.get (txt "issuer_revocation_list") with
  | dict revlist =>
    simp only
    cases ht : verifySnapshotTrust P (Members.get revlist (txt "snapshot")) with
    | error e =>
      have hno : ¬ ∃ list body, SnapshotAnswers P inp now claims list body := by
        rintro ⟨list, body, ha⟩
        obtain rfl := JsonValue.dict.inj (hr.symm.trans ha.carried)
        exact error_ne_ok (ht.symm.trans ha.trusted)
      cases e with
      | aitp code message retryable => exact iff_of_false habsent hno
      | raised kind message => exact iff_of_false error_ne_ok hno
    | ok body =>
      have hbody := (verifySnapshotTrust_trusted P ht).shape
      simp only [checkTrustedSnapshot]
      constructor
      · intro h
        split at h
        · exact absurd h habsent
        · rename_i hissuer
          obtain ⟨stale, hstale, h⟩ := bind_eq_ok.mp h
          cases stale with
          | true => exact absurd h habsent
          | false =>
            rw [Bool.not_eq_true, Bool.not_eq_false', hi, JsonValue.eq_str] at hissuer
            rw [if_neg Bool.false_ne_true, raiseIf_eq_ok, hj] at h
            exact ⟨revlist, body, hr, ht, by rw [hissuer, hi], (snapshotIsStale_eq_false P hbody).mp hstale,
              by rw [hj]; exact lists_eq_false.mp h⟩
      · rintro ⟨list, answer, ha⟩
        obtain rfl := JsonValue.dict.inj (hr.symm.trans ha.carried)
        obtain rfl := Except.ok.inj (ht.symm.trans ha.trusted)
        have hissuer : (body.get (txt "issuer")).eq (claims.get (txt "iss")) = true := by
          rw [hi, JsonValue.eq_str, ha.issuer, hi]
        have hunlisted : lists body (claims.get (txt "jti")) = false := by
          have := ha.unlisted
          rw [hj] at this ⊢
          exact lists_eq_false.mpr this
        rw [hissuer, Bool.not_true, if_neg Bool.false_ne_true, (snapshotIsStale_eq_false P hbody).mpr ha.fresh]
        exact raiseIf_eq_ok.mpr hunlisted
  | _ =>
    refine iff_of_false habsent ?_
    rintro ⟨list, body, ha⟩
    cases hr.symm.trans ha.carried

/-! ### The snapshots of a delegation -/

/-- A supplied record whose snapshot is trusted, with the body it signs. -/
def Supplied (inp body : Members) : Prop :=
  ∃ records record, inp.get (txt "revocation_snapshots") = .list records ∧ record ∈ records ∧
    verifySnapshotTrust P (record.members.get (txt "snapshot")) = .ok body

theorem snapshotBody_eq_some {selfAid : Text} {record : JsonValue} {body : Members} :
    snapshotBody P selfAid record = .ok (some body) ↔
      verifySnapshotTrust P (record.members.get (txt "snapshot")) = .ok body := by
  unfold snapshotBody
  cases verifySnapshotTrust P (record.members.get (txt "snapshot")) with
  | ok b => simp
  | error e =>
    cases e with
    | aitp code message retryable =>
      simp only [reduceCtorEq, iff_false]
      split
      · split <;> simp
      · simp
    | raised kind message => simp

/-- Discarding drops what is untrusted and nothing else. -/
theorem mem_verifiedSnapshotBodies {inp : Members} {selfAid : Text} {bodies : List Members}
    (h : verifiedSnapshotBodies P inp selfAid = .ok bodies) {body : Members} :
    body ∈ bodies ↔ Supplied P inp body := by
  unfold verifiedSnapshotBodies at h
  unfold Supplied
  cases hr : inp.get (txt "revocation_snapshots") with
  | null =>
    rw [hr] at h
    obtain rfl := Except.ok.inj h
    simp
  | list records =>
    simp only [hr, bind_eq_ok, Except.ok.injEq] at h
    obtain ⟨results, hcollect, rfl⟩ := h
    simp only [List.mem_filterMap, id_eq, exists_eq_right, mem_collect hcollect, snapshotBody_eq_some,
      JsonValue.list.injEq]
    constructor
    · rintro ⟨record, hm, ht⟩
      exact ⟨records, record, rfl, hm, ht⟩
    · rintro ⟨_, record, rfl, hm, ht⟩
      exact ⟨record, hm, ht⟩
  | _ => simp [hr] at h

theorem mem_freshBodies {policy : Members} {now : Int} {bodies fresh : List Members}
    (hb : ∀ body ∈ bodies, RevocationBody body) (h : freshBodies P policy now bodies = .ok fresh) {body : Members} :
    body ∈ fresh ↔ body ∈ bodies ∧ Fresh P body policy now := by
  induction bodies generalizing fresh with
  | nil =>
    obtain rfl : [] = fresh := by simpa [freshBodies] using h
    simp
  | cons first rest ih =>
    simp only [freshBodies, bind_eq_ok, Except.ok.injEq] at h
    obtain ⟨stale, hstale, others, hothers, rfl⟩ := h
    have hrest := ih (fun b hm => hb b (List.mem_cons_of_mem _ hm)) hothers
    have hfirst : snapshotIsStale P first policy now = .ok false ↔ Fresh P first policy now :=
      snapshotIsStale_eq_false P (hb first List.mem_cons_self)
    cases stale with
    | true =>
      have hno : ¬ Fresh P first policy now := fun hf => by
        rw [hfirst.mpr hf] at hstale
        cases hstale
      simp only [if_true, hrest, List.mem_cons]
      constructor
      · rintro ⟨hm, hf⟩
        exact ⟨.inr hm, hf⟩
      · rintro ⟨rfl | hm, hf⟩
        · exact absurd hf hno
        · exact ⟨hm, hf⟩
    | false =>
      have hyes := hfirst.mp hstale
      simp only [Bool.false_eq_true, if_false, List.mem_cons, hrest]
      constructor
      · rintro (rfl | ⟨hm, hf⟩)
        · exact ⟨.inl rfl, hyes⟩
        · exact ⟨.inr hm, hf⟩
      · rintro ⟨rfl | hm, hf⟩
        · exact .inl rfl
        · exact .inr ⟨hm, hf⟩

/-- A supplied snapshot that speaks for `issuer` now. -/
structure AnswersFor (inp : Members) (now : Int) (issuer : Text) (body : Members) : Prop where
  supplied : Supplied P inp body
  issuer : body.get (txt "issuer") = .str issuer
  fresh : Fresh P body (policyOf inp) now

/-- An issuer's status is known, and every answer leaves the identifier out. -/
structure KnownUnrevoked (inp : Members) (now : Int) (issuer : Text) (jti : JsonValue) : Prop where
  known : ∃ body, AnswersFor P inp now issuer body
  unlisted : ∀ body, AnswersFor P inp now issuer body → Unlisted body jti

theorem supplied_shape {inp body : Members} (h : Supplied P inp body) : RevocationBody body := by
  obtain ⟨_, _, _, _, ht⟩ := h
  exact (verifySnapshotTrust_trusted P ht).shape

/-- A list of answers that is not empty and never names the identifier. -/
theorem KnownUnrevoked.ofAnswers {inp : Members} {now : Int} {issuer jti : Text} {answers : List Members}
    (hmem : ∀ body, body ∈ answers ↔ AnswersFor P inp now issuer body) (hne : answers.isEmpty = false)
    (hany : answers.any (fun body => lists body (.str jti)) = false) : KnownUnrevoked P inp now issuer (.str jti) := by
  constructor
  · obtain ⟨body, hb⟩ := List.exists_mem_of_ne_nil answers (List.isEmpty_eq_false_iff.mp hne)
    exact ⟨body, (hmem body).mp hb⟩
  · intro body hb
    have hl := List.any_eq_false.mp hany body ((hmem body).mpr hb)
    exact lists_eq_false.mp (Bool.not_eq_true _ ▸ hl)

/-- Under `fail_closed` the source token is known and unrevoked. -/
theorem checkSourceTctRevocation_failClosed {inp : Members} {bodies : List Members} {selfAid srcJti : Text} {now : Int}
    (hmode : policyFailMode inp = .failClosed) (hb : verifiedSnapshotBodies P inp selfAid = .ok bodies)
    (h : checkSourceTctRevocation P inp bodies selfAid (.str srcJti) now = .ok ()) :
    KnownUnrevoked P inp now selfAid (.str srcJti) := by
  simp only [checkSourceTctRevocation, bind_eq_ok] at h
  obtain ⟨applicable, happ, h⟩ := h
  have hshape : ∀ body ∈ bodies, RevocationBody body := fun body hm =>
    supplied_shape P ((mem_verifiedSnapshotBodies P hb).mp hm)
  have hmem (body : Members) : body ∈ applicable ↔ AnswersFor P inp now selfAid body := by
    rw [mem_freshBodies P (fun b hm => hshape b (List.mem_of_mem_filter hm)) happ, List.mem_filter, JsonValue.eq_str,
      mem_verifiedSnapshotBodies P hb]
    constructor
    · rintro ⟨⟨hs, hi⟩, hf⟩
      exact ⟨hs, hi, hf⟩
    · rintro ⟨hs, hi, hf⟩
      exact ⟨⟨hs, hi⟩, hf⟩
  cases hempty : applicable.isEmpty with
  | true => simp [hempty, hmode, delegationAbsence, raiseIf_eq_ok] at h
  | false =>
    rw [hempty, if_neg Bool.false_ne_true, raiseIf_eq_ok] at h
    exact .ofAnswers P hmem hempty h

/-- Under `fail_closed` the sweep finds every hop known and unrevoked. -/
theorem sweepHop_failClosed {inp : Members} {bodies fresh : List Members} {selfAid iss jti : Text} {now : Int}
    {token : JsonValue} {claims : Members} (hb : verifiedSnapshotBodies P inp selfAid = .ok bodies)
    (hfresh : freshBodies P (policyOf inp) now bodies = .ok fresh) (hi : claims.get (txt "iss") = .str iss)
    (hj : claims.get (txt "jti") = .str jti) (hp : peekClaims P token "DELEGATION_INVALID_SIGNATURE" = .ok claims)
    (h : sweepHop P .failClosed fresh token = .ok ()) : KnownUnrevoked P inp now iss (.str jti) := by
  simp only [sweepHop, bind_eq_ok, exists_unit, hp, Except.ok.injEq, exists_eq_left', hi, Interpreter.toStr, hj,
    raiseIf_eq_ok, beq_self_eq_true, Bool.and_true] at h
  obtain ⟨hany, hempty⟩ := h
  have hshape : ∀ body ∈ bodies, RevocationBody body := fun body hm =>
    supplied_shape P ((mem_verifiedSnapshotBodies P hb).mp hm)
  have hmem (body : Members) :
      body ∈ fresh.filter (fun body => (body.get (txt "issuer")).eq (.str iss)) ↔ AnswersFor P inp now iss body := by
    rw [List.mem_filter, mem_freshBodies P hshape hfresh, JsonValue.eq_str, mem_verifiedSnapshotBodies P hb]
    constructor
    · rintro ⟨⟨hs, hf⟩, hi⟩
      exact ⟨hs, hi, hf⟩
    · rintro ⟨hs, hi, hf⟩
      exact ⟨⟨hs, hf⟩, hi⟩
  exact .ofAnswers P hmem hempty hany

/-! ### Acceptance under `fail_closed` -/

/-- The input's token verified, and its own issuer's deny list clears it. -/
def TokenUnrevoked (inp : Members) (now : Int) : Prop :=
  ∃ token claims revlist body, inp.get? (txt "tct_token") = some token ∧ IssuedToken P token tctTyp claims ∧
    SnapshotAnswers P inp now claims revlist body

/-- The run's source token, and on a chain every hop, is known and unrevoked. -/
def DelegationUnrevoked (inp : Members) (now : Int) : Prop :=
  ∃ selfAid hops last voucher, AcceptedRun P inp now selfAid hops last voucher ∧
    KnownUnrevoked P inp now selfAid (voucher.get (txt "src_jti")) ∧
    (last.claims.has (txt "chain") → ∀ hop ∈ hops, ∃ iss, hop.claims.get (txt "iss") = .str iss ∧
      KnownUnrevoked P inp now iss hop.jti)

theorem verifyDelegationToken_failClosed {inp : Members} {now : Int} {r : Members}
    (hmode : policyFailMode inp = .failClosed) (h : verifyDelegationToken P inp now = .ok r) :
    DelegationUnrevoked P inp now := by
  obtain ⟨selfAid, hops, last, voucher, haccepted, _⟩ := verifyDelegationToken_run P h
  refine ⟨selfAid, hops, last, voucher, haccepted, ?_, ?_⟩
  · obtain ⟨bodies, hb, hsource⟩ := haccepted.revocation.source
    obtain ⟨first, hfirst⟩ : ∃ first, hops.head? = some first := by
      have hmem := List.mem_of_getLast? haccepted.outer
      cases hops with
      | nil => cases hmem
      | cons first rest => exact ⟨first, rfl⟩
    obtain ⟨srcJti, hsrc⟩ := (haccepted.run.root first hfirst).1.shape.srcJti
    rw [hsrc] at hsource ⊢
    exact checkSourceTctRevocation_failClosed P hmode hb hsource
  · intro hchain hop hm
    obtain ⟨bodies, fresh, hb, hfresh, hsweep⟩ := haccepted.revocation.sweep hchain
    have hverified := haccepted.run.verified hop hm
    obtain ⟨iss, hi, hsigned⟩ := hverified.token.signed
    obtain ⟨jti, hj⟩ := hverified.token.shape.jti (haccepted.bound hchain hop hm).jti
    refine ⟨iss, hi, ?_⟩
    rw [Hop.jti, hj]
    have hhop := hsweep hop hm
    rw [hmode] at hhop
    exact sweepHop_failClosed P hb hfresh hi hj ((peekClaims_eq_ok P).mpr hsigned.parses) hhop

/-- Under `fail_closed` no accepting path leaves a token's revocation unknown. -/
theorem failClosed_revocation_sound (inp : Members) (now : Int) (hmode : policyFailMode inp = .failClosed) :
    (∀ r, verifyTct P inp now = .ok r → TokenUnrevoked P inp now) ∧
      (∀ r, verifyAttestation P inp now = .ok r → TokenUnrevoked P inp now) ∧
      (∀ r, verifyTctAsIssuer P inp now = .ok r → TokenUnrevoked P inp now) ∧
      (∀ r, verifyDelegationToken P inp now = .ok r → DelegationUnrevoked P inp now) := by
  have htoken {claims : Members} (hs : ∃ token, inp.get? (txt "tct_token") = some token ∧
      IssuedToken P token tctTyp claims) (hshape : TctShape claims)
      (hr : checkRevocation P claims inp now = .ok ()) : TokenUnrevoked P inp now := by
    obtain ⟨token, ht, hsigned⟩ := hs
    obtain ⟨revlist, body, ha⟩ := (checkRevocation_failClosed P hmode hshape).mp hr
    exact ⟨token, claims, revlist, body, ht, hsigned, ha⟩
  refine ⟨fun r hr => ?_, fun r hr => ?_, fun r hr => ?_, fun r hr => verifyDelegationToken_failClosed P hmode hr⟩
  · obtain ⟨claims, ha, _⟩ := (verifyTct_eq_ok P).mp hr
    exact htoken ha.signed ha.shape ha.revocation
  · obtain ⟨claims, ha⟩ := verifyAttestation_accepted P hr
    exact htoken ha.signed ha.shape ha.revocation
  · obtain ⟨claims, ha, _⟩ := (verifyTctAsIssuer_eq_ok P).mp hr
    exact htoken ha.signed ha.shape ha.revocation

/-- Agent A's deny list beside a token, for the audience and for agent A itself. -/
def answeredInput (token : JsonValue) : Members :=
  [(txt "tct_token", token), (txt "self_aid", .str (aidOf agentA)), (txt "channel_bound_aid", .str (aidOf agentB)),
    (txt "expected_ext_key", .str (txt "build")), (txt "trust_store", .list [.str (aidOf agentA)]),
    (txt "waive_manifest_cap", .bool true),
    (txt "issuer_revocation_list", .dict [(txt "snapshot", snapshotOf agentA snapshotSignatureA)])]

/-- A statement agent A makes about itself. -/
def attestationClaims : Members :=
  [(txt "ver", .str (txt "aitp/0.3")), (txt "jti", .str (txt "7c2f1d3e-5a6b-4c8d-9e0f-1a2b3c4d5e6f")),
    (txt "iss", .str (aidOf agentA)), (txt "sub", .str (aidOf agentA)), (txt "aud", .str (aidOf agentA)),
    (txt "iat", .int 1711900000), (txt "exp", .int 1711990000), (txt "grants", .list [.str attestationMarker]),
    (txt "cnf", .dict [(txt "jkt", .str thumbprintA)]), (txt "ext", .dict [(txt "build", .str (txt "r7"))])]

def attestationSignature : Text :=
  txt "4x5najEniRjiE4ew9dkr3Cti3u6SY4VzaxMz82Ja" ++
    txt "SvE7m7gw7uZuzh7bjTua4yfQX7ZdSyCHSzDSmdGX" ++ txt "FXQ6Dw"

def attestationToken : JsonValue := mintedToken tctTyp attestationClaims attestationSignature

def grantRecording : Recording where
  digests := [recordedThumbprint agentA thumbprintA, recordedThumbprint agentB thumbprintB,
    snapshotDigest agentA snapshotDigestA]
  signatures := [grantRecorded, mintedSignature agentA tctTyp attestationClaims attestationSignature,
    ⟨agentA, snapshotSignatureA, octetsOf snapshotDigestA⟩]

theorem grantToken_accepted :
    verifyTct grantRecording.platform (answeredInput grantToken) referenceClock =
      .ok [(txt "grants", .list [.str (txt "read")])] := by
  decide +kernel

theorem grantToken_acceptedByIssuer :
    verifyTctAsIssuer grantRecording.platform (answeredInput grantToken) referenceClock =
      .ok [(txt "presenter_aid", .str (aidOf agentB)), (txt "grants", .list [.str (txt "read")])] := by
  decide +kernel

theorem attestationToken_accepted :
    verifyAttestation grantRecording.platform (answeredInput attestationToken) referenceClock =
      .ok [(txt "statement", .str (txt "r7"))] := by
  decide +kernel

/-- Without a policy every entry point is held to `fail_closed`, and each accepts. -/
theorem failClosed_revocation_recorded :
    TokenUnrevoked grantRecording.platform (answeredInput grantToken) referenceClock ∧
      TokenUnrevoked grantRecording.platform (answeredInput attestationToken) referenceClock ∧
      TokenUnrevoked grantRecording.platform (answeredInput grantToken) referenceClock ∧
      DelegationUnrevoked delegationRecording.platform (delegationInput lastHopToken) referenceClock := by
  have hgrant := failClosed_revocation_sound grantRecording.platform (answeredInput grantToken) referenceClock rfl
  have hattested := failClosed_revocation_sound grantRecording.platform (answeredInput attestationToken) referenceClock rfl
  have hdelegated := failClosed_revocation_sound delegationRecording.platform (delegationInput lastHopToken)
    referenceClock rfl
  exact ⟨hgrant.1 _ grantToken_accepted, hattested.2.1 _ attestationToken_accepted,
    hgrant.2.2.1 _ grantToken_acceptedByIssuer, hdelegated.2.2.2 _ lastHop_accepted⟩

end AitpVerifier
