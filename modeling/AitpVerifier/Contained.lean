import AitpVerifier.CanonicalLeaks
import AitpVerifier.SigningInputs

/-!
# What a signed document may hide

A document's signature is checked over its canonical form, so a value nobody reads
still reaches the serializer. Everything before that step is reported through the
package, and so is the step itself when the serializer answers.
-/
namespace AitpVerifier

open PyText Checked

variable (P : Platform)

theorem canonicalBytes_coded {value : JsonValue} (h : Answers value) {shapeCode : String} {what : Text} :
    FailsWith Coded (canonicalBytes value shapeCode what) := by
  intro e he
  obtain ⟨message, rfl⟩ := h shapeCode what e he
  exact coded_aitpError

theorem decodeTaggedSignature_coded {sig : JsonValue} {aid : Aid} {sigErr : String} :
    FailsWith Coded (decodeTaggedSignature P sig aid sigErr) := coded_of_under (decodeTaggedSignature_under P)

/-- A version check describes what it was given, here a string. -/
theorem describeStr_fails {p : PyErr → Prop} {value : JsonValue} (h : ∃ s, value = .str s) {c : Bool} {message : Text → PyErr}
    (hm : ∀ text, p (message text)) :
    FailsWith p (raiseWith c (do
      .ok (message (← P.repr value)))) := by
  obtain ⟨s, rfl⟩ := h
  exact .raiseWith fun _ => ⟨_, by rw [repr_str]; rfl, hm _⟩

/-! ### Revocation snapshots -/

theorem checkEntryShape_under {entry : JsonValue} {i : Nat} :
    FailsWith (Under "REVOCATION_SNAPSHOT_INVALID") (checkEntryShape P entry i) := by
  unfold checkEntryShape
  split
  · exact (requireMembers_under P).bind fun _ _ => checkTypes_under
  · exact .error under_aitpError

theorem checkRevocationBodyShape_under {body : Members} :
    FailsWith (Under "REVOCATION_SNAPSHOT_INVALID") (checkRevocationBodyShape P body) := by
  refine (requireMembers_under P).bind fun _ hr => checkTypes_under.bind fun _ ht => ?_
  have hshaped : Shaped body requiredRevocationBodyFields revocationBodyTypes :=
    ⟨(requireMembers_eq_ok P).mp hr, checkTypes_eq_ok.mp ht⟩
  have hversion : ∃ s, body.get (txt "version") = .str s :=
    hshaped.str (by simp [requiredRevocationBodyFields]) (by simp [revocationBodyTypes])
  exact (describeStr_fails P hversion fun _ => under_aitpError).bind fun _ _ => .forEach fun _ _ => checkEntryShape_under P

theorem validateSnapshotShape_under {snapshot : JsonValue} :
    FailsWith (Under "REVOCATION_SNAPSHOT_INVALID") (validateSnapshotShape P snapshot) := by
  unfold validateSnapshotShape
  split
  · refine (requireMembers_under P).bind fun _ _ => (FailsWith.raiseIf under_aitpError).bind fun _ _ => ?_
    split
    · exact (checkRevocationBodyShape_under P).bind fun _ _ => .ok
    · exact .error under_aitpError
  · exact .error under_aitpError

/-- A snapshot whose body canonicalization answers for is trusted or rejected. -/
theorem verifySnapshotTrust_coded {snapshot : JsonValue}
    (h : ∀ wrapper, snapshot = .dict wrapper → Answers (Members.get wrapper (txt "revocation_list"))) :
    FailsWith Coded (verifySnapshotTrust P snapshot) := by
  refine (coded_of_under (validateSnapshotShape_under P)).bind fun shaped hshape => ?_
  obtain ⟨wrapper, body⟩ := shaped
  obtain ⟨rfl, hbody, _⟩ := validateSnapshotShape_eq_ok P hshape
  have hanswers := h wrapper rfl
  rw [hbody] at hanswers
  refine (rejectUnknownFields_coded P).bind fun _ _ => (rejectUnknownFields_coded P).bind fun _ _ =>
    (FailsWith.forEach fun _ _ => rejectUnknownFields_coded P).bind fun _ _ =>
    (onValueError_coded (parseAid_valueErrors P _)).bind fun _ _ => ?_
  exact (decodeTaggedSignature_coded P).bind fun _ _ => (canonicalBytes_coded hanswers).bind fun _ _ =>
    (FailsWith.raiseIf coded_aitpError).bind fun _ _ => .ok

/-! ### Envelopes and bundles -/

theorem verifyEnvelopeSignature_coded {env : Members} (h : Answers (.dict (env.without (txt "signature")))) {aid : Aid}
    {sigErr : String} {message : Text} : FailsWith Coded (verifyEnvelopeSignature P env aid sigErr message) :=
  (decodeTaggedSignature_coded P).bind fun _ _ => ((canonicalBytes_coded h).bind fun _ _ => .ok).bind fun _ _ =>
    .raiseIf coded_aitpError

/-- A well-shaped envelope that canonicalization answers for is verified or rejected. -/
theorem verifyEnvelope_coded {inp env : Members} {tolerance now : Int} (hi : EnvelopeInput inp (.dict env) tolerance)
    (hshape : validateEnvelopeShape P (.dict env) = .ok env) (h : Answers (.dict (env.without (txt "signature")))) :
    FailsWith Coded (verifyEnvelope P inp now) := by
  have hindex : inp.index (txt "envelope") = .ok (.dict env) := by rw [Members.index, hi.envelope]
  have htolerance : P.toInt ((inp.get? (txt "tolerance_seconds")).getD (.int 300)) = .ok tolerance := by
    rw [hi.tolerance]
    rfl
  have hwindow : FailsWith Coded (checkTimestampWindow (.dict env) now tolerance) := by
    unfold checkTimestampWindow
    dsimp only
    split
    · exact .raiseIf coded_aitpError
    · exact .ok
  rw [verifyEnvelope, hi.noScenario, hi.noCapability, if_neg Bool.false_ne_true, verifyEnvelopeProper, hindex, ok_bind,
    htolerance, ok_bind, hshape]
  exact FailsWith.ok.bind fun _ _ => hwindow.bind fun _ _ => FailsWith.ok.bind fun envelope he =>
    (onValueError_coded (parseAid_valueErrors P _)).bind fun _ _ =>
    (verifyEnvelopeSignature_coded P (Except.ok.inj he ▸ h)).bind fun _ _ => .ok

theorem verifyBundleSignature_coded {body : Members} (h : Answers (.dict (body.without (txt "signature")))) {coord : Aid} :
    FailsWith Coded (verifyBundleSignature P body coord) :=
  (decodeTaggedSignature_coded P).bind fun _ _ => (canonicalBytes_coded h).bind fun _ _ => .raiseIf coded_aitpError

/-! ### Manifests -/

theorem shape_under {obj : JsonValue} {required : List Text} {types : List (Text × PyType)} {what : Text} :
    FailsWith (Under "MANIFEST_INVALID") (shape P obj required types what) := by
  unfold shape
  split
  · exact (requireMembers_under P).bind fun _ _ => checkTypes_under
  · exact .error under_aitpError

theorem checkArray_under {man : Members} {rule : Text × (Text → Bool)} :
    FailsWith (Under "MANIFEST_INVALID") (checkArray P man rule) := by
  refine (FailsWith.forEach fun item _ => ?_).bind fun _ _ => .raiseIf under_aitpError
  unfold checkArrayItem
  split
  · obtain ⟨text, ht⟩ := describeValue_ok P (.str : (JsonValue.str _).Short)
    exact .raiseWith fun _ => ⟨_, by rw [ht]; rfl, under_aitpError⟩
  · exact .error under_aitpError

theorem validateGrammar_under {man : Members} : FailsWith (Under "MANIFEST_INVALID") (validateGrammar P man) :=
  (FailsWith.raiseIf under_aitpError).bind fun _ _ => (FailsWith.raiseIf under_aitpError).bind fun _ _ =>
    (FailsWith.raiseIf under_aitpError).bind fun _ _ => (FailsWith.forEach fun _ _ => checkArray_under P).bind fun _ _ =>
    (FailsWith.raiseIf under_aitpError).bind fun _ _ => (FailsWith.raiseIf under_aitpError).bind fun _ _ =>
    (FailsWith.raiseIf under_aitpError).bind fun _ _ => (FailsWith.raiseIf under_aitpError).bind fun _ _ =>
    .raiseIf under_aitpError

theorem validateIdentityHint_under {hint : Members} :
    FailsWith (Under "MANIFEST_INVALID") (validateIdentityHint P hint) := by
  have hmembers : FailsWith (Under "MANIFEST_INVALID") (checkHintMembers hint) := by
    unfold checkHintMembers
    dsimp only
    split
    · exact (FailsWith.raiseIf under_aitpError).bind fun _ _ => .raiseIf under_aitpError
    · split
      · exact (FailsWith.forEach fun _ _ => .raiseIf under_aitpError).bind fun _ _ => .raiseIf under_aitpError
      · exact .raiseIf under_aitpError
  exact (FailsWith.raiseIf under_aitpError).bind fun _ _ => (FailsWith.raiseIf under_aitpError).bind fun _ _ =>
    (FailsWith.raiseIf under_aitpError).bind fun _ _ => hmembers.bind fun _ _ => .raiseIf under_aitpError

theorem sextet?_of_base64url {c : CodePoint} {ranges : List (Nat × Nat)} (hr : base64urlClass = .set false ranges)
    (h : Pattern.inSet false ranges c) : (sextet? c).isSome := by
  obtain rfl : ranges = [(0x41, 0x5A), (0x61, 0x7A), (0x30, 0x39), (0x5F, 0x5F), (0x2D, 0x2D)] := by
    rw [base64urlClass, Pattern.oneOf] at hr
    exact (Pattern.set.inj hr).2.symm
  simp only [Pattern.inSet, List.any_cons, List.any_nil, Bool.false_xor, Bool.or_false, Bool.or_eq_true, Bool.and_eq_true,
    decide_eq_true_eq] at h
  unfold sextet?
  split_ifs <;> first | rfl | omega

/-- A challenge of the right form decodes. -/
theorem challenge_decodes {text : Text} (h : challengePattern.fullMatch text) : ∃ data, b64urlDecode text = .ok data := by
  obtain ⟨hlen, hall⟩ := Pattern.fullMatch_times_set h
  have hclean : ∀ c ∈ text, (sextet? c).isSome := fun c hc => sextet?_of_base64url rfl (hall c hc)
  have hcount : (text.filterMap sextet?).length % 4 ≠ 1 := by
    rw [length_filterMap_sextet hclean, hlen]
    decide
  obtain ⟨data, hdata⟩ := unpackSextets_some hcount
  exact ⟨data, b64urlDecode_eq_ok.mpr ⟨hclean, hdata⟩⟩

/-- The structural steps report through the package once `version` is a string. -/
theorem checkManifestStructure_coded {man : JsonValue} (h : ∃ s, man.members.get (txt "version") = .str s) :
    FailsWith Coded (checkManifestStructure P man (.list [.str protocolVersion])) :=
  FailsWith.ok.bind fun _ _ => (describeStr_fails P h fun _ => coded_aitpError).bind fun _ _ =>
    (coded_of_under (validateGrammar_under P)).bind fun _ _ => (coded_of_under (validateIdentityHint_under P)).bind fun _ _ =>
    (rejectUnknownFields_coded P).bind fun _ _ => (rejectUnknownFields_coded P).bind fun _ _ => rejectUnknownFields_coded P

theorem checkManifestStructure_challenge {man supported : JsonValue} (h : checkManifestStructure P man supported = .ok ()) :
    challengePattern.fullMatch ((man.members.get (txt "proof_of_possession")).members.get (txt "challenge")).text := by
  simp only [checkManifestStructure, validateGrammar, bind_eq_ok, exists_unit, raiseIf_eq_ok, Bool.not_eq_false'] at h
  obtain ⟨_, _, _, ⟨_, _, _, _, _, _, hchallenge, _⟩, _⟩ := h
  exact hchallenge

theorem checkManifestSignatures_coded {body : Members} {aid : Aid}
    (hc : challengePattern.fullMatch ((body.get (txt "proof_of_possession")).members.get (txt "challenge")).text)
    (h : Answers (.dict (body.without (txt "signature")))) : FailsWith Coded (checkManifestSignatures P body aid) := by
  obtain ⟨challenge, hdecoded⟩ := challenge_decodes hc
  have hrest : FailsWith Coded (b64urlDecode ((body.get (txt "proof_of_possession")).members.get (txt "challenge")).text) := by
    rw [hdecoded]
    exact .ok
  exact (decodeTaggedSignature_coded P).bind fun _ _ => hrest.bind fun _ _ =>
    (FailsWith.raiseIf coded_aitpError).bind fun _ _ => (decodeTaggedSignature_coded P).bind fun _ _ =>
    (canonicalBytes_coded h).bind fun _ _ => .raiseIf coded_aitpError

/-- The arguments `verify_manifest` is called with for a Manifest. -/
structure ManifestArguments (inp : Members) (man : JsonValue) : Prop where
  manifest : inp.get? (txt "manifest") = some man
  clock : ∀ value, inp.get? (txt "now") = some value → ∃ now, value = .int now
  versions : inp.get? (txt "supported_versions") = none

/-- A Manifest beside the clock it is verified at. -/
theorem manifestArguments_timed (man : JsonValue) (now : Int) :
    ManifestArguments [(txt "manifest", man), (txt "now", .int now)] man := by
  refine ⟨rfl, ?_, rfl⟩
  intro value hv
  exact ⟨now, (Option.some.inj hv).symm⟩

theorem ManifestArguments.toInt_clock {inp : Members} {man : JsonValue} (h : ManifestArguments inp man) (now : Int) :
    ∃ clock, P.toInt ((inp.get? (txt "now")).getD (.int now)) = .ok clock := by
  cases hn : inp.get? (txt "now") with
  | none => exact ⟨now, rfl⟩
  | some value =>
    obtain ⟨clock, rfl⟩ := h.clock value hn
    exact ⟨clock, rfl⟩

/-- A Manifest whose body canonicalization answers for is verified or rejected. -/
theorem verifyManifest_coded {inp : Members} {man : JsonValue} {now : Int} (hi : ManifestArguments inp man)
    (h : ∀ body : Members, man = .dict body → Answers (.dict (body.without (txt "signature")))) :
    FailsWith Coded (verifyManifest P inp now) := by
  have hman : inp.index (txt "manifest") = .ok man := by rw [Members.index, hi.manifest]
  obtain ⟨clock, hclock⟩ := hi.toInt_clock P now
  rw [verifyManifest, hman, ok_bind]
  refine (coded_of_under (shape_under P)).bind fun _ hshape => (coded_of_under (shape_under P)).bind fun _ _ =>
    (coded_of_under (shape_under P)).bind fun _ _ => ?_
  obtain ⟨body, rfl, hshaped⟩ := (shape_eq_ok P).mp hshape
  have hversion : ∃ s, (JsonValue.dict body).members.get (txt "version") = .str s :=
    hshaped.str (by simp [requiredManifestFields]) (by simp [manifestTypes])
  have hadmits : (body.get (txt "expires_at")).admits .int :=
    hshaped.admits (by simp [requiredManifestFields]) (by simp [manifestTypes])
  rw [hclock, ok_bind, hi.versions]
  refine (checkManifestStructure_coded P hversion).bind fun _ hstructure => ?_
  rw [JsonValue.members, toInt_of_admits P hadmits, ok_bind]
  refine (FailsWith.raiseIf coded_aitpError).bind fun _ _ =>
    (onValueError_coded (parseAid_valueErrors P _)).bind fun _ _ => ?_
  exact (checkManifestSignatures_coded P (checkManifestStructure_challenge P hstructure) (h body rfl)).bind fun _ _ => .ok

/-! ### Discarded snapshots -/

/-- Under `fail_open` a snapshot that cannot be canonicalized is as good as none. -/
theorem verifyTct_discards {inp revlist wrapper : Members} {value : JsonValue} {now : Int} (h : Answers value)
    (hmode : policyFailMode inp = .failOpen) (hlist : inp.get (txt "issuer_revocation_list") = .dict revlist)
    (hsnapshot : revlist.get (txt "snapshot") = .dict wrapper) (hvalue : wrapper.get (txt "revocation_list") = value)
    (hc : ∀ octets, Jcs.canonicalize value ≠ .ok octets) :
    verifyTct P inp now = verifyTct P (inp.without (txt "issuer_revocation_list")) now := by
  have hget? {key : Text} (hk : key ≠ txt "issuer_revocation_list") :
      (inp.without (txt "issuer_revocation_list")).get? key = inp.get? key := Members.get?_without hk
  have hget {key : Text} (hk : key ≠ txt "issuer_revocation_list") :
      (inp.without (txt "issuer_revocation_list")).get key = inp.get key := by rw [Members.get, Members.get, hget? hk]
  have hpolicy : policyOf (inp.without (txt "issuer_revocation_list")) = policyOf inp := by
    rw [policyOf, policyOf, hget (by decide)]
  have habsent : (inp.without (txt "issuer_revocation_list")).get (txt "issuer_revocation_list") = .null := by
    rw [Members.get, Members.get?_without_self]
    rfl
  have hpresent (claims : Members) : checkRevocation P claims inp now = .ok () := by
    have hcoded : FailsWith Coded (verifySnapshotTrust P (.dict wrapper)) := by
      refine verifySnapshotTrust_coded P fun obj ho => ?_
      rw [← JsonValue.dict.inj ho, hvalue]
      exact h
    unfold checkRevocation
    rw [hlist]
    dsimp only
    rw [hsnapshot]
    cases ht : verifySnapshotTrust P (.dict wrapper) with
    | ok body =>
      obtain ⟨_, obj, _, octets, ho, hbody, _, hoctets, _⟩ := verifySnapshotTrust_trusted P ht
      rw [← JsonValue.dict.inj ho, hvalue] at hbody
      rw [← hbody] at hoctets
      exact absurd hoctets (hc octets)
    | error e =>
      cases e with
      | raised kind message => exact absurd (hcoded _ ht) Bool.false_ne_true
      | aitp code message retryable =>
        dsimp only
        rw [hmode]
        rfl
  have hmissing (claims : Members) :
      checkRevocation P claims (inp.without (txt "issuer_revocation_list")) now = .ok () := by
    unfold checkRevocation
    rw [habsent]
    dsimp only
    rw [policyFailMode, hpolicy, ← policyFailMode, hmode]
    rfl
  have hcap (claims : Members) (what : Text) :
      checkManifestCap P claims (inp.without (txt "issuer_revocation_list")) what = checkManifestCap P claims inp what := by
    rw [checkManifestCap, checkManifestCap, hget (by decide)]
  simp only [verifyTct, Members.index, hget? (show txt "tct_token" ≠ txt "issuer_revocation_list" by decide),
    hget (show txt "expected_audience" ≠ txt "issuer_revocation_list" by decide), hcap, hpresent, hmissing]

end AitpVerifier
