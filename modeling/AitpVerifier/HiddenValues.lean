import AitpVerifier.HelloAccepted
import AitpVerifier.PeerLeaks

/-!
# Hidden values

A value under a signature is read by nobody but the serializer. What it can make an
operation raise is what canonicalization raises on it, so containing the one contains the
operations: a greeting is left with what its proof of identity raises, a bundle with what
the tokens in it raise.
-/
namespace AitpVerifier

open PyText Checked

variable (P : Platform)

/-! ### Greetings -/

/-- What the signatures of a greeting are made over: its Manifest, then the whole of it. -/
def SignedInGreeting (env : Members) (document : JsonValue) : Prop :=
  (∃ man : Members, (payloadOf env).get (txt "manifest") = .dict man ∧ document = .dict (man.without (txt "signature"))) ∨
    document = .dict (env.without (txt "signature"))

/-- The proof of identity in a greeting raises what is not the package's. -/
def IdentityLeaks (inp env : Members) (now : Int) : Prop :=
  ∃ identity, (payloadOf env).get (txt "identity") = .dict identity ∧
    Leaks (verifyIdentity P identity env (receiverAid inp) (identityConfig inp) now)

theorem leaks_checkHelloIdentity {inp env : Members} {now : Int}
    (h : ∀ man : Members, (payloadOf env).get (txt "manifest") = .dict man → Answers (.dict (man.without (txt "signature"))))
    (hleak : Leaks (checkHelloIdentity P inp env now)) : IdentityLeaks P inp env now := by
  have hmanifest : FailsWith Coded (verifyManifest P [(txt "manifest", (env.get (txt "payload")).members.get (txt "manifest")),
      (txt "now", .int now)] now) := verifyManifest_coded P (manifestArguments_timed _ now) h
  rw [checkHelloIdentity, leaks_bind_right hmanifest] at hleak
  obtain ⟨_, _, hleak⟩ := hleak
  have hsender (message : Text) : Coded (invalidEnvelope message) := coded_aitpError
  have hfailed (message : Text) : Coded (identityFailed message) := coded_aitpError
  rw [leaks_bind_right (.raiseIf (hsender _))] at hleak
  obtain ⟨_, _, hleak⟩ := hleak
  split at hleak
  · rename_i identity hidentity
    rw [leaks_bind_right (.raiseIf (hfailed _))] at hleak
    obtain ⟨_, _, hleak⟩ := hleak
    rw [leaks_bind_left fun _ _ => FailsWith.ok] at hleak
    exact ⟨identity, hidentity, hleak⟩
  · exact absurd (hfailed _) (leaks_error.mp hleak)

/-- A greeting of answerable parts leaks where its proof of identity does. -/
theorem leaks_verifyBootstrap {inp env : Members} {now : Int} (hs : EnvelopeShape env)
    (h : ∀ document, SignedInGreeting env document → Answers document) (hleak : Leaks (verifyBootstrap P inp env now)) :
    IdentityLeaks P inp env now := by
  have hpayload : FailsWith Coded (checkHelloPayload P env) :=
    (rejectUnknownFields_coded P).bind fun _ _ => requireMembers_coded P
  have hpeer : FailsWith Coded (checkPeer inp env) := .raiseIf coded_aitpError
  rw [verifyBootstrap, leaks_bind_right hpayload] at hleak
  obtain ⟨_, _, hleak⟩ := hleak
  rw [leaks_bind_right hpeer] at hleak
  obtain ⟨_, _, hleak⟩ := hleak
  rcases leaks_bind.mp hleak with hidentity | ⟨identity, hidentity, hrest⟩
  · exact leaks_checkHelloIdentity P (fun man hman => h _ (.inl ⟨man, hman, rfl⟩)) hidentity
  · -- the sender is the Manifest's `aid`, which parsed, and the type is the hint's, a text
    obtain ⟨man, key, _, _, hsender, haccepted, _, hhint, _⟩ := checkHelloIdentity_eq_ok P hs.sender hidentity
    have hkey := haccepted.key
    obtain ⟨type, htype⟩ := haccepted.hintShaped.str (k := txt "type") (by simp [requiredIdentityHintFields])
      (by simp [identityHintTypes])
    rw [hsender] at hkey
    rw [hkey, ok_bind, leaks_bind_right (verifyEnvelopeSignature_coded P (h _ (.inr rfl)))] at hrest
    obtain ⟨_, _, hrest⟩ := hrest
    refine absurd hrest (not_leaks_iff.mpr ?_)
    exact (describeStr_fails P ⟨type, hhint.trans htype⟩ fun _ => coded_aitpError).bind fun _ _ =>
      (FailsWith.raiseIf coded_aitpError).bind fun _ _ => .ok

theorem leaks_helloMessage {inp env : Members} {now : Int} (hi : HandshakeInput inp (.dict env)) (hs : EnvelopeShape env)
    (hm : messageType env ∈ bootstrapTypes) (h : ∀ document, SignedInGreeting env document → Answers document)
    (hleak : Leaks (verifyHandshakePayload P inp now)) : IdentityLeaks P inp env now := by
  have hbranch : bootstrapTypes.contains (messageType env) = true := List.contains_iff_mem.mpr hm
  rw [verifyHandshakePayload, hi.notPair, if_neg Bool.false_ne_true, Members.get_of_get? hi.envelope,
    (validateEnvelopeShape_eq_ok P).mpr ⟨rfl, hs⟩, ok_bind, verifyMessage, hbranch, if_pos rfl] at hleak
  exact leaks_verifyBootstrap P hs h hleak

/-! ### Bundles -/

/-- What the signatures of a bundle are made over: its body, and its coordinator's Manifest. -/
def SignedInBundle (inp : Members) (document : JsonValue) : Prop :=
  (∃ wrapper body : Members, inp.get? (txt "session_bundle") = some (.dict wrapper) ∧
      wrapper.get (txt "session_bundle") = .dict body ∧ document = .dict (body.without (txt "signature"))) ∨
    ∃ man : Members, .dict man ∈ manifestCandidates (inp.get (txt "coordinator_manifest")) ∧
      document = .dict (man.without (txt "signature"))

/-- A call to verify a bundle, the signed documents in it left open. -/
structure BundleCall (inp : Members) (clock : Option Int) (now : Int) : Prop where
  clock : clockOf P inp clock = .ok now
  verifier : ∃ selfAid, inp.get? (txt "self_aid") = some (.str selfAid)
  bundle : ∃ outer, inp.get? (txt "session_bundle") = some outer

variable {P}

/-- With its signed documents answered for, a call is one whose leaks are known. -/
theorem BundleCall.arguments {inp : Members} {clock : Option Int} {now : Int} (h : BundleCall P inp clock now)
    (hanswers : ∀ document, SignedInBundle inp document → Answers document) : BundleArguments P inp clock now where
  clock := h.clock
  verifier := h.verifier
  bundle := h.bundle
  manifests := fun man hman => hanswers _ (.inr ⟨man, hman, rfl⟩)
  body := fun wrapper body hwrapper hbody _ => hanswers _ (.inl ⟨wrapper, body, hwrapper, hbody, rfl⟩)

variable (P)

/-! ### Every operation on a signed document -/

/-- A value under a signature never makes an operation raise more than the package's own
errors, and what it raises for reasons of its own: the proof of identity in a greeting, the
issuers of a bundle's tokens. Whatever else is signed in the document is answered for. -/
structure Contained (value : JsonValue) : Prop where
  canonical : Answers value
  snapshot : ∀ wrapper : Members, wrapper.get (txt "revocation_list") = value →
    FailsWith Coded (verifySnapshotTrust P (.dict wrapper))
  discarded : ∀ (inp revlist wrapper : Members) now, policyFailMode inp = .failOpen →
    inp.get (txt "issuer_revocation_list") = .dict revlist → revlist.get (txt "snapshot") = .dict wrapper →
    wrapper.get (txt "revocation_list") = value → (∀ octets, Jcs.canonicalize value ≠ .ok octets) →
    verifyTct P inp now = verifyTct P (inp.without (txt "issuer_revocation_list")) now
  manifest : ∀ (inp body : Members) now, ManifestArguments inp (.dict body) →
    .dict (body.without (txt "signature")) = value → FailsWith Coded (verifyManifest P inp now)
  envelope : ∀ (inp env : Members) tolerance now, EnvelopeInput inp (.dict env) tolerance →
    validateEnvelopeShape P (.dict env) = .ok env → .dict (env.without (txt "signature")) = value →
    FailsWith Coded (verifyEnvelope P inp now)
  handshake : ∀ (inp env : Members) now, HandshakeInput inp (.dict env) → EnvelopeShape env →
    messageType env ∈ bootstrapTypes → (∀ document, SignedInGreeting env document → document ≠ value → Answers document) →
    Leaks (verifyHandshakePayload P inp now) → IdentityLeaks P inp env now
  bundle : ∀ (inp : Members) clock now, BundleCall P inp clock now →
    (∀ document, SignedInBundle inp document → document ≠ value → Answers document) →
    Leaks (verifySessionBundle P inp clock) → UnresolvableParticipant P inp now

/-- Hidden values are contained exactly when no string or name in them holds a lone
surrogate, or the serializer refuses a node before it reaches a name that does. -/
theorem contained_iff (value : JsonValue) (hd : value.Distinct) (hs : value.Short) :
    Contained P value ↔ value.Encodes ∨ Jcs.RefusedFirst value := by
  rw [← answers_iff hs hd]
  constructor
  · intro h
    exact h.canonical
  · intro h
    have hall {signed : JsonValue → Prop} (hothers : ∀ document, signed document → document ≠ value → Answers document)
        (document : JsonValue) (hsigned : signed document) : Answers document := by
      by_cases heq : document = value
      · rw [heq]
        exact h
      · exact hothers document hsigned heq
    constructor
    · exact h
    · intro wrapper hvalue
      refine verifySnapshotTrust_coded P fun obj ho => ?_
      rw [← JsonValue.dict.inj ho, hvalue]
      exact h
    · intro inp revlist wrapper now hmode hlist hsnapshot hvalue hc
      exact verifyTct_discards P h hmode hlist hsnapshot hvalue hc
    · intro inp body now hi hvalue
      refine verifyManifest_coded P hi fun obj ho => ?_
      rw [← JsonValue.dict.inj ho, hvalue]
      exact h
    · intro inp env tolerance now hi hshape hvalue
      rw [← hvalue] at h
      exact verifyEnvelope_coded P hi hshape h
    · intro inp env now hi hshape hm hothers hleak
      exact leaks_helloMessage P hi hshape hm (hall hothers) hleak
    · intro inp clock now hcall hothers hleak
      exact (leaks_verifySessionBundle P (hcall.arguments (hall hothers))).mp hleak

/-- An object whose one member holds the given text. -/
def noteOf (note : Text) : JsonValue := .dict [(txt "note", .str note)]

theorem noteOf_distinct (note : Text) : (noteOf note).Distinct :=
  .dict (by simp [Members.names]) (List.forall_mem_singleton.mpr .str)

theorem noteOf_short (note : Text) : (noteOf note).Short := .dict (List.forall_mem_singleton.mpr .str)

/-- A character beyond the basic plane is contained. -/
theorem contained_astral : Contained helloRecording.platform (noteOf [0x1F600]) := by
  have hname : WellFormed (txt "note") := by
    intro c hc
    have hall : ((txt "note").all fun c => !isSurrogate c) = true := by decide
    simpa using List.all_eq_true.mp hall c hc
  have hnote : WellFormed [0x1F600] := by
    simp only [WellFormed, List.forall_mem_singleton]
    decide
  exact (contained_iff helloRecording.platform (noteOf [0x1F600]) (noteOf_distinct _) (noteOf_short _)).mpr
    (.inl (.dict (List.forall_mem_singleton.mpr hname) (List.forall_mem_singleton.mpr (.str hnote))))

/-- The octets `{"note":"\ud800"}` scan to a lone surrogate, which is not. -/
theorem lone_surrogate_not_contained :
    Jcs.loads helloRecording.platform.toInterpreter (asciiOctets (txt "\x7b\"note\":\"\\ud800\"\x7d")) =
        .ok (noteOf [0xD800]) ∧
      Leaks (canonicalBytes (noteOf [0xD800]) "MANIFEST_INVALID" (txt "manifest")) ∧
      ¬ Contained helloRecording.platform (noteOf [0xD800]) := by
  have hleaks : Leaks (canonicalBytes (noteOf [0xD800]) "MANIFEST_INVALID" (txt "manifest")) := by decide +kernel
  refine ⟨by rfl, hleaks, ?_⟩
  intro h
  exact (leaks_canonicalBytes (noteOf_short _)).mp hleaks h.canonical

end AitpVerifier
