import AitpVerifier.SessionBundle

/-!
# Bundle participants as tokens of their own

The bundle verifier repeats the token checklist instead of calling `verifyTct`.
What it leaves out is what a participant's token may lack.
-/
namespace AitpVerifier

open PyText Checked

variable (P : Platform)

/-- A participant's token as `verifyTct` is given it. -/
def standaloneInput (man p : Members) : Members :=
  [(txt "tct_token", p.get (txt "tct")), (txt "expected_audience", p.get (txt "aid")),
    (txt "policy", .dict [(txt "fail_mode", .str (txt "fail_open"))]), (txt "issuer_manifest", .dict man)]

/-- The checks of `verifyTct` the bundle does not make. -/
structure OmittedChecks (claims : Members) : Prop where
  ver : claims.get (txt "ver") = .str protocolVersion
  notSelf : claims.get (txt "iss") ≠ claims.get (txt "sub")
  unmarked : JsonValue.str attestationMarker ∉ (claims.get (txt "grants")).items
  bound : ∃ sub, parseAid P (claims.get (txt "sub")).text = .ok sub ∧
    (claims.get (txt "cnf")).members.get (txt "jkt") = .str (thumbprint P sub)

/-- With no snapshot and `fail_open` there is nothing to be revoked by. -/
theorem checkRevocation_standalone (claims man p : Members) (now : Int) :
    checkRevocation P claims (standaloneInput man p) now = .ok () := by
  have hnone : (standaloneInput man p).get (txt "issuer_revocation_list") = .null := rfl
  have hmode : policyFailMode (standaloneInput man p) = .failOpen := rfl
  rw [checkRevocation, hnone, hmode]
  rfl

/-- An accepted participant stands alone exactly on the checks left out. -/
theorem ParticipantAccepted.standalone_iff {coordinator : JsonValue} {man p : Members} {now : Int} {claims : Members}
    (h : ParticipantAccepted P coordinator man p now claims) :
    (∃ r, verifyTct P (standaloneInput man p) now = .ok r) ↔ OmittedChecks P claims := by
  constructor
  · rintro ⟨r, hr⟩
    obtain ⟨found, ha, _⟩ := (verifyTct_eq_ok P).mp hr
    obtain ⟨token, ht, _, _, hfound⟩ := ha.signed
    obtain rfl : p.get (txt "tct") = token := Option.some.inj ht
    obtain ⟨_, _, hclaims⟩ := h.signed
    obtain rfl := hclaims.claims_unique P hfound.parses
    exact ⟨ha.ver, ha.grant.notSelf, ha.grant.unmarked, ha.grant.bound⟩
  · rintro ⟨hv, hn, hm, hb⟩
    have hcap : checkManifestCap P claims (standaloneInput man p) (txt "TCT") = .ok () := by
      have hman : (standaloneInput man p).get (txt "issuer_manifest") = .dict man := rfl
      simp only [checkManifestCap, hman, h.withinManifest, bind_eq_ok, Except.ok.injEq, exists_eq_left', raiseIf_eq_ok]
    exact ⟨_, (verifyTct_eq_ok P).mpr ⟨claims, ⟨⟨_, rfl, h.signed⟩, h.shape, hv, .inr h.aud, ⟨h.live, hn, hm, hb⟩, hcap,
      checkRevocation_standalone P claims man p now⟩, rfl⟩⟩

/-- Every participant of an accepted bundle stands alone exactly when every token
passes the checks the bundle leaves out. -/
theorem participants_standalone_iff (inp : Members) (clock : Option Int) (now : Int) (r : Members)
    (hclock : clockOf P inp clock = .ok now) (h : verifySessionBundle P inp clock = .ok r) :
    ∃ body man, BundleAccepted P inp now body man ∧
      ((∀ p ∈ participantsOf body, ∃ r, verifyTct P (standaloneInput man p) now = .ok r) ↔
        ∀ p ∈ participantsOf body, ∀ claims,
          peekClaims P (p.get (txt "tct")) "TCT_SIGNATURE_INVALID" = .ok claims → OmittedChecks P claims) := by
  obtain ⟨body, man, hbundle⟩ := verifySessionBundle_accepted P hclock h
  refine ⟨body, man, hbundle, forall₂_congr fun p hm => ?_⟩
  obtain ⟨claims, hp⟩ := hbundle.participants p hm
  rw [hp.standalone_iff]
  have hpeek : peekClaims P (p.get (txt "tct")) "TCT_SIGNATURE_INVALID" = .ok claims := by
    obtain ⟨_, _, hsigned⟩ := hp.signed
    exact (peekClaims_eq_ok P).mpr hsigned.parses
  constructor
  · intro ho found hfound
    obtain rfl := Except.ok.inj (hpeek.symm.trans hfound)
    exact ho
  · intro hall
    exact hall claims hpeek

/-! ### Recorded bundles: agent A coordinates agent B -/

def coordinatorChallenge : Text := txt "CQkJCQkJCQkJCQkJCQkJCQ"

def challengeDigest : Text := txt "BiMrCNq7Wk_bRmWYF5NJyEWw" ++ txt "3DQ2MkeU4nAle04P284"

def challengeSignature : Text :=
  txt "SmjlQx02Ab_5r6SOGzq7K_X2Yoh26fGBqbiQdMxM" ++
    txt "_DG9klxDiFehKm6gKrfngJhvpD4SPjpI2Vq-03KC" ++ txt "rr2QDQ"

/-- Agent A's Manifest, its own signature left open. -/
def coordinatorBody (signature : Members) : Members :=
  [(txt "version", .str (txt "aitp/0.3")), (txt "aid", .str (aidOf agentA)),
    (txt "identity_hint", .dict [(txt "type", .str (txt "pinned_key")), (txt "subject", .str (txt "a")),
      (txt "public_key", .str agentA)]),
    (txt "handshake_endpoint", .str (txt "https://a.example/aitp")), (txt "accepted_trust_anchors", .list []),
    (txt "offered_capabilities", .list [.str (txt "read")]),
    (txt "proof_of_possession", .dict [(txt "challenge", .str coordinatorChallenge),
      (txt "signature", .str challengeSignature)]),
    (txt "published_at", .int 1711899000), (txt "expires_at", .int 1712000000)] ++ signature

def manifestSignature : Text :=
  txt "aqOZ4IzOudYgNq2N3jSewRQ9XRYpHM83YasM4tps" ++
    txt "QJMXQ7onz-15ijVW2lPfAHpSNRjJdozN027xWH7c" ++ txt "Bp1xCA"

def manifestDigest : Text := txt "zJaHrKK0_G6dNk8iD4x1maav" ++ txt "sOZdQUdghG8vHt7J6vk"

def coordinatorManifest : Members := coordinatorBody [(txt "signature", .str manifestSignature)]

/-- Agent A's grant to B as of the previous protocol version. -/
def oldGrantClaims : Members := grantClaims.insert (txt "ver") (.str (txt "aitp/0.2"))

def oldGrantSignature : Text :=
  txt "UF4h1qhwJT6Y1b6M9V-xuJmaetcIf0X70E8y4jVc" ++
    txt "mBGPz_1BacpX6sVf0RnVy51_iUScKE-db5-7-uFd" ++ txt "jLuDDQ"

def oldGrantToken : JsonValue := mintedToken tctTyp oldGrantClaims oldGrantSignature

/-- A bundle of the one participant, its signature left open. -/
def bundleBody (token : JsonValue) (signature : Members) : Members :=
  [(txt "version", .str (txt "aitp/0.3")), (txt "session_id", .str (txt "s1")),
    (txt "coordinator", .str (aidOf agentA)), (txt "issued_at", .int 1711900000), (txt "expires_at", .int 1711990000),
    (txt "participants", .list [.dict [(txt "aid", .str (aidOf agentB)), (txt "tct", token)]])] ++ signature

def bundleSignature : Text :=
  txt "FjQ33vthegPO8796R8zFmCRKzRi3IJNaDHcKREQz" ++
    txt "vrZtaukfTMdymOpMuRc_nbI07_H7SpHqrOFq8js5" ++ txt "IqvTBQ"

def bundleDigest : Text := txt "4hDPQEDcKVBmLUIOLrzTL7zW" ++ txt "0v_GongCw3H51g123ig"

def oldBundleSignature : Text :=
  txt "MyaLJuzI8IfefhR-0bAGUgdQw627Lq8yJ0M2AlsJ" ++
    txt "wlCdAi_7o7L1ExB694FkyL-kZ1qOy_hWXo2y8UdD" ++ txt "bJxACA"

def oldBundleDigest : Text := txt "aqw-blHft7AmWlfWS5sTji09" ++ txt "zCP5rlkAF30op_EmWaw"

/-- What agent B verifies. -/
def bundleInput (token : JsonValue) (signature : Text) : Members :=
  [(txt "self_aid", .str (aidOf agentB)), (txt "coordinator_manifest", .dict coordinatorManifest),
    (txt "session_bundle", .dict [(txt "session_bundle", .dict (bundleBody token [(txt "signature", .str signature)]))])]

def bundleRecording : Recording where
  digests := [recordedThumbprint agentB thumbprintB, (octetsOf coordinatorChallenge, challengeDigest),
    (octetsFrom (Jcs.canonicalize (.dict (coordinatorBody []))), manifestDigest),
    (octetsFrom (Jcs.canonicalize (.dict (bundleBody grantToken []))), bundleDigest),
    (octetsFrom (Jcs.canonicalize (.dict (bundleBody oldGrantToken []))), oldBundleDigest)]
  signatures := [grantRecorded, mintedSignature agentA tctTyp oldGrantClaims oldGrantSignature,
    ⟨agentA, challengeSignature, octetsOf challengeDigest⟩, ⟨agentA, manifestSignature, octetsOf manifestDigest⟩,
    ⟨agentA, bundleSignature, octetsOf bundleDigest⟩, ⟨agentA, oldBundleSignature, octetsOf oldBundleDigest⟩]

theorem bundle_accepted :
    verifySessionBundle bundleRecording.platform (bundleInput grantToken bundleSignature) (some referenceClock) =
      .ok okResult := by
  decide +kernel

/-- The bundle of a current token. -/
theorem participants_standalone_recorded :
    ∃ body man, BundleAccepted bundleRecording.platform (bundleInput grantToken bundleSignature) referenceClock body man ∧
      ((∀ p ∈ participantsOf body, ∃ r, verifyTct bundleRecording.platform (standaloneInput man p) referenceClock = .ok r) ↔
        ∀ p ∈ participantsOf body, ∀ claims,
          peekClaims bundleRecording.platform (p.get (txt "tct")) "TCT_SIGNATURE_INVALID" = .ok claims →
            OmittedChecks bundleRecording.platform claims) :=
  participants_standalone_iff bundleRecording.platform (bundleInput grantToken bundleSignature) (some referenceClock)
    referenceClock okResult rfl bundle_accepted

/-- A bundle of a token that `verifyTct` refuses for its version is accepted. -/
theorem oldParticipant_accepted :
    (verifySessionBundle bundleRecording.platform (bundleInput oldGrantToken oldBundleSignature)
        (some referenceClock)).isOk ∧
      verifyTct bundleRecording.platform
          (standaloneInput coordinatorManifest [(txt "aid", .str (aidOf agentB)), (txt "tct", oldGrantToken)])
          referenceClock =
        .error (AitpError "UNKNOWN_VERSION" (txt "unknown ver 'aitp/0.2'")) := by
  constructor
  · decide +kernel
  · decide +kernel

end AitpVerifier
