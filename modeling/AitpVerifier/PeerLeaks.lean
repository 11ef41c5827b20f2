import AitpVerifier.Commit
import AitpVerifier.DelegationLeaks

/-!
# Exceptions a peer's token can raise

A session bundle carries one token a participant and a commit message one token of
the sender's. Both add what surrounds the token to the conditions of a lone one; the
commit message parses its sender the same unguarded way.
-/
namespace AitpVerifier

open PyText Checked

variable (P : Platform)

/-! ### Session bundles -/

theorem remapUnknownField_leaks {α : Type} {x : PyM α} : Leaks (remapUnknownField x) ↔ Leaks x := by
  cases x with
  | ok a => exact Iff.rfl
  | error e =>
    cases e with
    | raised kind message => exact Iff.rfl
    | aitp code message retryable =>
      have hright : ¬ Leaks (.error (.aitp code message retryable) : PyM α) := by
        rw [leaks_error, not_not]
        exact coded_aitp
      refine iff_of_false ?_ hright
      rw [not_leaks_iff]
      refine .rescue fun e he => ?_
      obtain rfl := Except.error.inj he
      dsimp only
      split <;> exact coded_aitp

theorem remapUnknownField_coded {α : Type} {x : PyM α} (h : FailsWith Coded x) : FailsWith Coded (remapUnknownField x) := by
  rw [← not_leaks_iff] at h ⊢
  rwa [remapUnknownField_leaks]

theorem unwrapBundle_coded {outer : JsonValue} : FailsWith Coded (unwrapBundle P outer) := by
  unfold unwrapBundle
  split
  · exact (FailsWith.raiseIf coded_aitpError).bind fun _ _ => (FailsWith.raiseIf coded_aitpError).bind fun _ _ => .ok
  · exact .error coded_aitpError

theorem checkBundleShape_coded {value : JsonValue} : FailsWith Coded (checkBundleShape P value) := by
  unfold checkBundleShape
  split
  · refine (requireMembers_coded P).bind fun _ _ => checkTypes_coded.bind fun _ _ =>
      (rejectUnknownFields_coded P).bind fun _ _ => (FailsWith.forEach fun p _ => ?_).bind fun _ _ => .ok
    unfold checkParticipantShape
    split
    · exact (requireMembers_coded P).bind fun _ _ => checkTypes_coded.bind fun _ _ => rejectUnknownFields_coded P
    · exact .error coded_aitpError
  · exact .error coded_aitpError

/-- A participant's expiry is read from claims whose shape was checked. -/
theorem peekExp_coded {p : Members} : FailsWith Coded (peekExp P p) := by
  refine (peekClaims_coded P).bind fun claims _ => (remapUnknownField_coded (checkTctClaimsShape_coded P)).bind fun _ hok => ?_
  rw [((checkTctClaimsShape_eq_ok P).mp (remapUnknownField_eq_ok.mp hok)).toInt_exp P]
  exact .ok

theorem checkBundleTimes_coded {body : Members} {now : Int} (h : Shaped body requiredBundleBodyFields bundleBodyTypes) :
    FailsWith Coded (checkBundleTimes P body now) := by
  have hversion : ∃ s, body.get (txt "version") = .str s :=
    h.str (by simp [requiredBundleBodyFields]) (by simp [bundleBodyTypes])
  have hadmits : (body.get (txt "expires_at")).admits .int :=
    h.admits (by simp [requiredBundleBodyFields]) (by simp [bundleBodyTypes])
  refine (describeStr_fails P hversion fun _ => coded_aitpError).bind fun _ _ => ?_
  rw [toInt_of_admits P hadmits, ok_bind]
  refine (FailsWith.raiseIf coded_aitpError).bind fun _ _ => (FailsWith.raiseIf coded_aitpError).bind fun _ _ =>
    (FailsWith.collect fun p _ => peekExp_coded P).bind fun _ _ => ?_
  rw [toInt_of_admits P hadmits, ok_bind]
  exact .raiseIf coded_aitpError

/-- A coordinator's Manifests, each with a body canonicalization answers for. -/
def ManifestsArgument (manifests : JsonValue) : Prop :=
  ∀ man : Members, .dict man ∈ manifestCandidates manifests → Answers (.dict (man.without (txt "signature")))

theorem resolveManifest_coded {aid : Text} {manifests : JsonValue} {now : Int} (h : ManifestsArgument manifests) :
    FailsWith Coded (resolveManifest P aid manifests now) := by
  unfold resolveManifest
  split
  · exact .error coded_aitp
  · rename_i man hman
    refine .rescue fun e he => ?_
    have hcoded : FailsWith (fun e => Coded e ∨ IsValueError e) (do
        let _ ← verifyManifest P [(txt "manifest", man), (txt "now", .int now)] now
        let key ← parseAid P aid
        .ok (key, man.members)) := by
      refine ((verifyManifest_coded P (manifestArguments_timed man now) ?_).mono fun _ => .inl).bind fun _ _ =>
        ((parseAid_valueErrors P aid).mono fun _ => .inr).bind fun _ _ => .ok
      rintro body rfl
      exact h body (List.mem_of_find?_eq_some hman)
    have hif : (e.code?.isSome || e.isValueError) = true := (Bool.or_eq_true _ _).mpr (hcoded e he)
    rw [if_pos hif]
    exact coded_aitp

/-- The shape check between `typ` and `alg` of a participant's token. -/
def participantCheck (claims : Members) : PyM Unit := checkTctClaimsShape P claims "BUNDLE_PARTICIPANT_TCT_INVALID"

theorem leaks_verifyParticipant {coordinator : JsonValue} {man p : Members}
    (h : ∃ value, man.get? (txt "expires_at") = some value ∧ value.admits .int) :
    Leaks (verifyParticipant P coordinator man p) ↔
      UnresolvableIssuer P (p.get (txt "tct")) tctTyp (participantCheck P) := by
  refine @leaks_issued_by P _ _ _ _ bundleErrors _ _ _ (fun _ => checkTctClaimsShape_coded P) (fun _ => remapUnknownField_leaks)
    (fun _ _ => remapUnknownField_eq_ok.mp) fun claims hok => .inr ?_
  have hshape := (checkTctClaimsShape_eq_ok P).mp hok
  obtain ⟨value, hv, hi⟩ := h
  obtain ⟨outlives, ho⟩ := outlivesManifest_ok P hshape hv hi
  rw [ho, ok_bind]
  exact (FailsWith.raiseIf coded_aitpError).bind fun _ _ => (FailsWith.raiseIf coded_aitpError).bind fun _ _ =>
    .raiseIf coded_aitpError

/-- The arguments of a bundle's verification, its tokens left open: where they all
parse, canonicalization answers for the body. -/
structure BundleArguments (inp : Members) (clock : Option Int) (now : Int) : Prop where
  clock : clockOf P inp clock = .ok now
  verifier : ∃ selfAid, inp.get? (txt "self_aid") = some (.str selfAid)
  bundle : ∃ outer, inp.get? (txt "session_bundle") = some outer
  manifests : ManifestsArgument (inp.get (txt "coordinator_manifest"))
  body : ∀ wrapper body : Members, inp.get? (txt "session_bundle") = some (.dict wrapper) →
    wrapper.get (txt "session_bundle") = .dict body →
    (∀ p ∈ participantsOf body, ∃ parsed, ParsesTo P (p.get (txt "tct")) parsed) →
    Answers (.dict (body.without (txt "signature")))

/-- A bundle whose own checks pass, up to its coordinator's signature. -/
structure BundleReached (inp : Members) (now : Int) (body : Members) (key : Aid) (man : Members) : Prop where
  shape : ∃ outer value, inp.get? (txt "session_bundle") = some outer ∧ unwrapBundle P outer = .ok value ∧
    checkBundleShape P value = .ok body
  times : checkBundleTimes P body now = .ok ()
  coordinator : ∃ aid, parseAid P (body.get (txt "coordinator")).text = .ok aid
  manifest : resolveManifest P (body.get (txt "coordinator")).text (inp.get (txt "coordinator_manifest")) now =
    .ok (key, man)
  signature : verifyBundleSignature P body key = .ok ()

/-- A bundle that reaches a participant's token with an issuer that names no key. -/
def UnresolvableParticipant (inp : Members) (now : Int) : Prop :=
  ∃ body key man before p after, BundleReached P inp now body key man ∧ participantsOf body = before ++ p :: after ∧
    (∀ q ∈ before, verifyParticipant P (body.get (txt "coordinator")) man q = .ok ()) ∧
    UnresolvableIssuer P (p.get (txt "tct")) tctTyp (participantCheck P)

theorem checkBundleTimes_parses {body : Members} {now : Int} (h : checkBundleTimes P body now = .ok ()) :
    ∀ p ∈ participantsOf body, ∃ parsed, ParsesTo P (p.get (txt "tct")) parsed := by
  intro p hp
  simp only [checkBundleTimes, checkExpiryWindow, bind_eq_ok, exists_unit] at h
  obtain ⟨_, _, _, _, _, exps, hexps, _⟩ := h
  obtain ⟨exp, _, hpeek⟩ := exists_mem_of_collect hexps hp
  simp only [peekExp, bind_eq_ok, peekClaims_eq_ok] at hpeek
  obtain ⟨_, ⟨parsed, hparsed, _⟩, _⟩ := hpeek
  exact ⟨parsed, hparsed⟩

theorem leaks_verifySessionBundle {inp : Members} {clock : Option Int} {now : Int} (h : BundleArguments P inp clock now) :
    Leaks (verifySessionBundle P inp clock) ↔ UnresolvableParticipant P inp now := by
  obtain ⟨selfAid, hself⟩ := h.verifier
  obtain ⟨outer, houter⟩ := h.bundle
  have hselfIndex : inp.index (txt "self_aid") = .ok (.str selfAid) := by rw [Members.index, hself]
  have houterIndex : inp.index (txt "session_bundle") = .ok outer := by rw [Members.index, houter]
  rw [verifySessionBundle, h.clock, ok_bind, hselfIndex, ok_bind, houterIndex, ok_bind]
  -- after the last participant only the membership check is left, and that reports
  have hlast (aids : List JsonValue) : FailsWith Coded (do
      raiseIf (!(JsonValue.str selfAid).hashable) (JsonValue.unhashable (.str selfAid))
      raiseIf (!(JsonValue.str selfAid).isIn aids)
        (AitpError "BUNDLE_NOT_MEMBER" (txt "verifier AID is not a bundle participant"))
      .ok okResult) := (FailsWith.raiseIf coded_aitpError).bind fun _ _ => .ok
  constructor
  · rw [leaks_bind_right (unwrapBundle_coded P)]
    rintro ⟨value, hvalue, hleak⟩
    rw [leaks_bind_right (checkBundleShape_coded P)] at hleak
    obtain ⟨body, hbody, hleak⟩ := hleak
    obtain ⟨wrapper, rfl, hwrapped⟩ := unwrapBundle_eq_ok P hvalue
    obtain ⟨rfl, hshaped, _⟩ := checkBundleShape_eq_ok P hbody
    rw [leaks_bind_right (checkBundleTimes_coded P hshaped)] at hleak
    obtain ⟨_, htimes, hleak⟩ := hleak
    rw [leaks_bind_right (onValueError_coded (parseAid_valueErrors P _))] at hleak
    obtain ⟨aid, haid, hleak⟩ := hleak
    rw [leaks_bind_right (resolveManifest_coded P h.manifests)] at hleak
    obtain ⟨⟨key, man⟩, hman, hleak⟩ := hleak
    have hanswers := h.body wrapper body houter hwrapped (checkBundleTimes_parses P htimes)
    rw [leaks_bind_right (verifyBundleSignature_coded P hanswers)] at hleak
    obtain ⟨_, hsignature, hleak⟩ := hleak
    rw [leaks_bind_left fun _ _ => hlast _, leaks_forEach] at hleak
    obtain ⟨before, p, after, hparts, hbefore, hleak⟩ := hleak
    refine ⟨body, key, man, before, p, after, ?_, hparts, hbefore, ?_⟩
    · exact ⟨⟨_, _, houter, hvalue, hbody⟩, htimes, ⟨aid, onValueError_eq_ok.mp haid⟩, hman, hsignature⟩
    · exact (leaks_verifyParticipant P (resolveManifest_cap P hman)).mp hleak
  · rintro ⟨body, key, man, before, p, after, hreached, hparts, hbefore, hleak⟩
    obtain ⟨outer', value, houter', hvalue, hbody⟩ := hreached.shape
    obtain rfl : outer = outer' := Option.some.inj (houter.symm.trans houter')
    obtain ⟨aid, haid⟩ := hreached.coordinator
    rw [hvalue, ok_bind, hbody, ok_bind, hreached.times, ok_bind]
    dsimp only
    rw [onValueError_eq_ok.mpr haid, ok_bind, hreached.manifest, ok_bind]
    dsimp only
    rw [hreached.signature, ok_bind, leaks_bind_left fun _ _ => hlast _, leaks_forEach]
    exact ⟨before, p, after, hparts, hbefore, (leaks_verifyParticipant P (resolveManifest_cap P hreached.manifest)).mpr hleak⟩

/-! ### Commit messages -/

/-- The verifier's own part of a commit: a nonce that decodes, where it is held to
one, and the capabilities the issuer offered, where they are known. -/
structure CommitArguments (inp : Members) : Prop where
  sender : ∃ sender, commitSender inp = .ok sender
  nonce : (selfNonce inp).truthy → ∃ challenge, (selfNonce inp).b64urlDecode = .ok challenge
  offered : inp.get (txt "issuer_offered_capabilities") = .null ∨
    ∃ items, (inp.get (txt "issuer_offered_capabilities")).set = .ok items

/-- A payload whose proof of possession is judged. -/
def PopJudged (inp payload : Members) : Prop := (payload.get (txt "pop_signature")).isStr ∧ (selfNonce inp).truthy

/-- A commit that parses its sender, or resolves the issuer of its token, and gets
no key. -/
def UnresolvableCommit (inp : Members) (payload : JsonValue) : Prop :=
  ∃ (obj : Members) (sender : JsonValue), payload = .dict obj ∧ (∀ key ∈ obj.names, key ∈ commitPayloadFields) ∧ obj.has (txt "tct") ∧
    resolveSender P inp (obj.get (txt "tct")) = .ok sender ∧
      (PopJudged inp obj ∧ Unresolvable P sender ∨
        checkCommitPop P inp obj sender = .ok () ∧ UnresolvableIssuer P (obj.get (txt "tct")) tctTyp (tctCheck P))

theorem leaks_verifyCommitPop {sender nonce : JsonValue} {signature : Text}
    (hn : ∃ challenge, nonce.b64urlDecode = .ok challenge) :
    Leaks (verifyCommitPop P sender nonce signature) ↔ Unresolvable P sender := by
  obtain ⟨challenge, hchallenge⟩ := hn
  have hrest (key : Aid) : FailsWith Coded (do
      let sig ← onValueError (b64urlDecode (popBody signature)) "POP_VERIFICATION_FAILED"
        (txt "pop_signature not base64url: " ++ ·)
      let challenge ← nonce.b64urlDecode
      raiseIf (!verifyDigest P key.publicKey (P.sha256 challenge) sig) (popFailed (txt "round-2 PoP signature invalid"))) := by
    refine (onValueError_coded (b64urlDecode_valueErrors _)).bind fun _ _ => ?_
    rw [hchallenge, ok_bind]
    exact .raiseIf coded_aitpError
  rw [verifyCommitPop, leaks_bind]
  simp only [leaks_bind_left fun _ _ => hrest _, leaks_parseAid, toStr_leaks]
  constructor
  · rintro (hno | ⟨s, hs, hno⟩) t aid ht
    · exact absurd ht (hno t)
    · rw [hs] at ht
      rw [← Except.ok.inj ht]
      exact hno aid
  · intro h
    cases hs : P.toStr sender with
    | ok s => exact .inr ⟨s, rfl, fun aid => h s aid hs⟩
    | error e => exact .inl fun _ => error_ne_ok

theorem leaks_checkCommitPop {inp payload : Members} {sender : JsonValue} (h : CommitArguments inp) :
    Leaks (checkCommitPop P inp payload sender) ↔ PopJudged inp payload ∧ Unresolvable P sender := by
  unfold checkCommitPop PopJudged
  cases hp : payload.get (txt "pop_signature") with
  | str signature =>
    by_cases hn : (selfNonce inp).truthy = true
    · simp only [hn, if_true, leaks_verifyCommitPop P (h.nonce hn), JsonValue.isStr, true_and, and_self]
    · simp only [hn, and_false, false_and, iff_false, Bool.false_eq_true, if_false]
      exact not_leaks_iff.mpr .ok
  | _ =>
    simp only [JsonValue.isStr, Bool.false_eq_true, false_and, iff_false]
    exact not_leaks_iff.mpr .ok

theorem checkOffered_coded {inp claims : Members} (h : CommitArguments inp) : FailsWith Coded (checkOffered inp claims) := by
  unfold checkOffered
  split
  · exact .ok
  · rename_i hnull
    rcases h.offered with h | ⟨items, h⟩
    · exact absurd h hnull
    · rw [h, ok_bind]
      exact .raiseIf coded_aitpError

theorem leaks_verifyCommitTct {inp : Members} {tct selfAid : JsonValue} {now : Int} (h : CommitArguments inp) :
    Leaks (verifyCommitTct P inp tct selfAid now) ↔ UnresolvableIssuer P tct tctTyp (tctCheck P) := by
  refine leaks_issued P (fun _ => checkTctClaimsShape_coded P) fun claims hok => .inr ?_
  have hshape := (checkTctClaimsShape_eq_ok P).mp hok
  exact (checkVer_coded P hshape.ver).bind fun _ _ => (FailsWith.raiseIf coded_aitpError).bind fun _ _ =>
    (checkExp_coded P (hshape.toInt_exp P) coded_aitpError).bind fun _ _ => checkGrantContext_coded.bind fun _ _ =>
    (onValueError_coded (parseAid_valueErrors P _)).bind fun _ _ => (FailsWith.raiseIf coded_aitpError).bind fun _ _ =>
    (checkOffered_coded h).bind fun _ _ => .ok

theorem resolveSender_coded {inp : Members} {tct : JsonValue} (h : CommitArguments inp) :
    FailsWith Coded (resolveSender P inp tct) := by
  obtain ⟨sender, hsender⟩ := h.sender
  rw [resolveSender, hsender, ok_bind]
  split
  · exact (peekClaims_coded P).bind fun _ _ => .ok
  · exact .ok

theorem leaks_verifyCommit {inp : Members} {payload selfAid : JsonValue} {now : Int} (h : CommitArguments inp) :
    Leaks (verifyCommit P inp payload selfAid now) ↔ UnresolvableCommit P inp payload := by
  rw [verifyCommit, leaks_bind_right (rejectUnknownFields_coded P)]
  simp only [rejectUnknownFields_eq_ok, exists_unit]
  constructor
  · rintro ⟨⟨obj, rfl, hknown⟩, hleak⟩
    have hmissing (message : Text) : Coded (invalidEnvelope message) := coded_aitpError
    rw [leaks_bind_right (.raiseIf (hmissing _))] at hleak
    obtain ⟨_, hhas, hleak⟩ := hleak
    rw [raiseIf_eq_ok, Bool.not_eq_false'] at hhas
    rw [leaks_bind_right (resolveSender_coded P h)] at hleak
    obtain ⟨sender, hsender, hleak⟩ := hleak
    refine ⟨obj, sender, rfl, hknown, hhas, hsender, ?_⟩
    rw [leaks_bind, leaks_checkCommitPop P h, exists_unit, leaks_bind_left fun _ _ => FailsWith.ok,
      leaks_verifyCommitTct P h] at hleak
    exact hleak
  · rintro ⟨obj, sender, rfl, hknown, hhas, hsender, hleak⟩
    refine ⟨⟨obj, rfl, hknown⟩, ?_⟩
    have hguard : (!(JsonValue.dict obj).members.has (txt "tct")) = false := by
      rw [JsonValue.members, hhas]
      rfl
    rw [hguard, raiseIf, if_neg Bool.false_ne_true, ok_bind, JsonValue.members, hsender, ok_bind, leaks_bind,
      leaks_checkCommitPop P h, exists_unit, leaks_bind_left fun _ _ => FailsWith.ok, leaks_verifyCommitTct P h]
    exact hleak

theorem leaks_commitMessage {inp env : Members} {now : Int} (h : HandshakeInput inp (.dict env)) (hs : EnvelopeShape env)
    (hm : messageType env ∈ commitTypes) (ha : CommitArguments inp) :
    Leaks (verifyHandshakePayload P inp now) ↔ UnresolvableCommit P inp (env.get (txt "payload")) := by
  have hshape : validateEnvelopeShape P (inp.get (txt "envelope")) = .ok env := by
    rw [Members.get_of_get? h.envelope]
    exact (validateEnvelopeShape_eq_ok P).mpr ⟨rfl, hs⟩
  have hbranch : bootstrapTypes.contains (messageType env) = false ∧ commitTypes.contains (messageType env) = true := by
    simp only [commitTypes, List.mem_cons, List.not_mem_nil, or_false] at hm
    rcases hm with hm | hm <;> rw [hm] <;> decide
  rw [verifyHandshakePayload, h.notPair, if_neg Bool.false_ne_true, hshape, ok_bind, verifyMessage, hbranch.1,
    if_neg Bool.false_ne_true, hbranch.2, if_pos rfl, leaks_bind_left fun _ _ => FailsWith.ok, leaks_verifyCommit P ha]

/-- One side of a simulated exchange, its payload left open. -/
structure SideArguments (inp : Members) (side : Text) (peer : Members) : Prop where
  carried : inp.get? side = some (.dict peer)
  verifier : ∃ selfAid, peer.get? (txt "self_aid") = some selfAid
  commit : CommitArguments peer

/-- The payload a side received, an empty one by default. -/
def receivedPayload (peer : Members) : JsonValue := (peer.get? (txt "received_payload")).getD (.dict [])

theorem leaks_verifyCommitSide {inp peer : Members} {side : Text} {now : Int} (h : SideArguments inp side peer) :
    Leaks (verifyCommitSide P inp side now) ↔ UnresolvableCommit P peer (receivedPayload peer) := by
  obtain ⟨selfAid, hself⟩ := h.verifier
  have hpeer : inp.index side = .ok (.dict peer) := by rw [Members.index, h.carried]
  have hpayload : (JsonValue.dict peer).attrGet (txt "received_payload") (.dict []) = .ok (receivedPayload peer) := rfl
  have hitem : (JsonValue.dict peer).item (txt "self_aid") = .ok selfAid := by rw [JsonValue.item, Members.index, hself]
  rw [verifyCommitSide, hpeer, ok_bind, hpayload, ok_bind, hitem, ok_bind, JsonValue.members, leaks_verifyCommit P h.commit]

theorem leaks_exchange {inp a b : Members} {now : Int} (ha : SideArguments inp (txt "peer_a") a)
    (hb : SideArguments inp (txt "peer_b") b) :
    Leaks (verifyHandshakePayload P inp now) ↔
      UnresolvableCommit P a (receivedPayload a) ∨
        (∃ grants, verifyCommitSide P inp (txt "peer_a") now = .ok grants) ∧ UnresolvableCommit P b (receivedPayload b) := by
  have hpair : (inp.has (txt "peer_a") && inp.has (txt "peer_b")) = true := by
    rw [Members.has, Members.has, ha.carried, hb.carried]
    rfl
  rw [verifyHandshakePayload, hpair, if_pos rfl, leaks_bind, leaks_verifyCommitSide P ha]
  simp only [leaks_bind_left fun _ _ => FailsWith.ok, leaks_verifyCommitSide P hb, exists_and_right]

/-! ### The six operations -/

/-- An operation that takes a token from a peer; the exchange takes one from either side. -/
inductive TokenCall where
  | tct : Members → Int → TokenCall
  | attestation : Members → Int → TokenCall
  | voucher : Members → Int → TokenCall
  | delegation : Members → Int → TokenCall
  | bundle : Members → Option Int → TokenCall
  | commit : Members → Int → TokenCall
  | exchange : Members → Int → TokenCall

namespace TokenCall

def run : TokenCall → PyM Members
  | .tct inp now => verifyTct P inp now
  | .attestation inp now => verifyAttestation P inp now
  | .voucher inp now => verifyGrantVoucher P inp now
  | .delegation inp now => verifyDelegationToken P inp now
  | .bundle inp clock => verifySessionBundle P inp clock
  | .commit inp now => verifyHandshakePayload P inp now
  | .exchange inp now => verifyHandshakePayload P inp now

/-- The caller's part of the input is as the operation documents it. -/
def Arguments : TokenCall → Prop
  | .tct inp _ => TctArguments inp
  | .attestation inp _ => AttestationArguments inp
  | .voucher inp _ => ∃ token, inp.get? (txt "voucher_token") = some token
  | .delegation inp _ => ∃ selfAid token, DelegationArguments P inp selfAid ∧
      inp.get (txt "delegation_token") = .str token ∧ SingleHop P inp token
  | .bundle inp clock => ∃ now, BundleArguments P inp clock now
  | .commit inp _ => ∃ env, HandshakeInput inp (.dict env) ∧ EnvelopeShape env ∧ messageType env ∈ commitTypes ∧
      CommitArguments inp
  | .exchange inp _ => ∃ a b, SideArguments inp (txt "peer_a") a ∧ SideArguments inp (txt "peer_b") b

/-- The token reaches the resolution of an issuer, or of a sender, that names no key. -/
def Unresolved : TokenCall → Prop
  | .tct inp _ => UnresolvableIssuer P (inp.get (txt "tct_token")) tctTyp (tctCheck P)
  | .attestation inp _ => UnresolvableIssuer P (inp.get (txt "tct_token")) tctTyp (attestationCheck P inp)
  | .voucher inp _ => UnresolvableIssuer P (inp.get (txt "voucher_token")) voucherTyp noCheck
  | .delegation inp _ => UnresolvableDelegator P (inp.get (txt "delegation_token")).text
  | .bundle inp clock => ∃ now, clockOf P inp clock = .ok now ∧ UnresolvableParticipant P inp now
  | .commit inp _ => UnresolvableCommit P inp ((inp.get (txt "envelope")).members.get (txt "payload"))
  | .exchange inp now =>
    UnresolvableCommit P (inp.get (txt "peer_a")).members (receivedPayload (inp.get (txt "peer_a")).members) ∨
      (∃ grants, verifyCommitSide P inp (txt "peer_a") now = .ok grants) ∧
        UnresolvableCommit P (inp.get (txt "peer_b")).members (receivedPayload (inp.get (txt "peer_b")).members)

end TokenCall

/-- A token makes an operation raise only its own errors exactly when the issuer it is
to be verified under, and the sender of a judged proof, name keys once they are reached. -/
theorem tokens_contained_iff (call : TokenCall) (h : call.Arguments P) :
    FailsWith Coded (call.run P) ↔ ¬ call.Unresolved P := by
  rw [← not_leaks_iff, not_iff_not]
  cases call with
  | tct inp now =>
    obtain ⟨token, ht⟩ := TctArguments.token h
    rw [TokenCall.run, leaks_verifyTct P h ht, TokenCall.Unresolved, Members.get_of_get? ht]
  | attestation inp now =>
    have ha : AttestationArguments inp := h
    obtain ⟨token, ht⟩ := ha.token
    rw [TokenCall.run, leaks_verifyAttestation P ha ht, TokenCall.Unresolved, Members.get_of_get? ht]
  | voucher inp now =>
    obtain ⟨token, ht⟩ := h
    rw [TokenCall.run, leaks_verifyGrantVoucher P ht, TokenCall.Unresolved, Members.get_of_get? ht]
  | delegation inp now =>
    obtain ⟨selfAid, token, ha, ht, hsingle⟩ := h
    rw [TokenCall.run, leaks_verifyDelegationToken P ha ht hsingle, TokenCall.Unresolved, ht, JsonValue.text]
  | bundle inp clock =>
    obtain ⟨now, ha⟩ := h
    rw [TokenCall.run, leaks_verifySessionBundle P ha, TokenCall.Unresolved, ha.clock]
    simp only [Except.ok.injEq, exists_eq_left']
  | commit inp now =>
    obtain ⟨env, hi, hs, hm, ha⟩ := h
    rw [TokenCall.run, leaks_commitMessage P hi hs hm ha, TokenCall.Unresolved, Members.get_of_get? hi.envelope,
      JsonValue.members]
  | exchange inp now =>
    obtain ⟨a, b, ha, hb⟩ := h
    rw [TokenCall.run, leaks_exchange P ha hb, TokenCall.Unresolved, Members.get_of_get? ha.carried,
      Members.get_of_get? hb.carried, JsonValue.members, JsonValue.members]

/-! ### A recorded run -/

theorem lenientInput_arguments (token : JsonValue) : TctArguments (lenientInput token) := by
  constructor
  · exact ⟨token, rfl⟩
  · exact .inl rfl
  · intro revlist hlist
    cases hlist

/-- Agent A's grant resolves. -/
theorem tokens_contained_grant :
    ¬ (TokenCall.tct (lenientInput grantToken) referenceClock).Unresolved grantRecording.platform := by
  have hrun : FailsWith Coded ((TokenCall.tct (lenientInput grantToken) referenceClock).run grantRecording.platform) :=
    not_leaks_iff.mp (by decide +kernel)
  exact (tokens_contained_iff grantRecording.platform (.tct (lenientInput grantToken) referenceClock)
    (lenientInput_arguments grantToken)).mp hrun

/-- A grant of no one's: its issuer is no identifier. -/
def strayToken : JsonValue :=
  mintedToken tctTyp (grantClaims.insert (txt "iss") (.str (txt "not-an-aid"))) grantSignature

/-- Its claims have the right shape, and the parser's error escapes. -/
theorem strayToken_leaks :
    (TokenCall.tct (lenientInput strayToken) referenceClock).Arguments grantRecording.platform ∧
      Leaks ((TokenCall.tct (lenientInput strayToken) referenceClock).run grantRecording.platform) :=
  ⟨lenientInput_arguments strayToken, by decide +kernel⟩

end AitpVerifier
