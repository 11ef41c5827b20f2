import AitpVerifier.Commit
import AitpVerifier.FailClosed

/-!
# Self-issued grants

A grant's issuer and subject are compared as texts. One key has several texts: the
`ed25519:` tag is optional, and the decoder drops the last bits of an Ed25519
identifier.
-/
namespace AitpVerifier

open PyText Checked

variable (P : Platform)

/-- The keys `iss` and `sub` designate, where both parse, are different. -/
def KeysDiffer (claims : Members) : Prop :=
  ∀ iss sub, parseAid P (claims.get (txt "iss")).text = .ok iss → parseAid P (claims.get (txt "sub")).text = .ok sub →
    (iss.alg, iss.rawKey) ≠ (sub.alg, sub.rawKey)

/-- `iss` and `sub` spell one key: they agree up to the tag and the dropped bits. -/
def Respelled (claims : Members) : Prop :=
  keySpelling (claims.get (txt "iss")).text = keySpelling (claims.get (txt "sub")).text

/-- The keys of a verified token differ exactly when its texts do not respell one. -/
theorem IssuedToken.keysDiffer_iff {token : JsonValue} {typ : Text} {claims : Members}
    (h : IssuedToken P token typ claims) : KeysDiffer P claims ↔ ¬ Respelled claims := by
  obtain ⟨iss, hi⟩ := h.issuer_parses
  have hspell := keySpelling_eq_iff P (t := (claims.get (txt "sub")).text) hi
  rw [Respelled, hspell]
  constructor
  · rintro hd ⟨sub, hs, halg, hraw⟩
    exact hd iss sub hi hs (by rw [halg, hraw])
  · intro hno iss' sub hi' hs heq
    obtain rfl := Except.ok.inj (hi.symm.trans hi')
    rw [Prod.mk.injEq] at heq
    exact hno ⟨sub, hs, heq.1.symm, heq.2.symm⟩

/-- On every path that accepts a grant, its keys differ exactly when its texts do
not respell one key. -/
theorem accepted_keysDiffer_iff (inp : Members) (now : Int) :
    (∀ r, verifyTct P inp now = .ok r →
        ∃ claims, TctAccepted P inp now claims ∧ (KeysDiffer P claims ↔ ¬ Respelled claims)) ∧
      (∀ r, verifyTctAsIssuer P inp now = .ok r →
        ∃ claims, IssuerTctAccepted P inp now claims ∧ (KeysDiffer P claims ↔ ¬ Respelled claims)) ∧
      (∀ rawEnv r, HandshakeInput inp rawEnv → messageType rawEnv.members ∈ commitTypes →
        verifyHandshakePayload P inp now = .ok r →
        ∃ env claims, rawEnv = .dict env ∧ CommitChecks P inp env now claims ∧
          (KeysDiffer P claims ↔ ¬ Respelled claims)) ∧
      (∀ r, (inp.has (txt "peer_a") && inp.has (txt "peer_b")) = true → verifyHandshakePayload P inp now = .ok r →
        ∀ side ∈ [txt "peer_a", txt "peer_b"], ∃ claims, SideToken P inp side now claims ∧
          (KeysDiffer P claims ↔ ¬ Respelled claims)) ∧
      (∀ r, verifyDelegationToken P inp now = .ok r →
        ∃ selfAid hops last voucher, AcceptedRun P inp now selfAid hops last voucher ∧
          ∀ hop ∈ hops, (KeysDiffer P hop.claims ↔ ¬ Respelled hop.claims)) := by
  refine ⟨fun r hr => ?_, fun r hr => ?_, fun rawEnv r hin hm hr => ?_, fun r hpair hr side hside => ?_, fun r hr => ?_⟩
  · obtain ⟨claims, ha, _⟩ := (verifyTct_eq_ok P).mp hr
    obtain ⟨_, _, hsigned⟩ := ha.signed
    exact ⟨claims, ha, hsigned.keysDiffer_iff⟩
  · obtain ⟨claims, ha, _⟩ := (verifyTctAsIssuer_eq_ok P).mp hr
    obtain ⟨_, _, hsigned⟩ := ha.signed
    exact ⟨claims, ha, hsigned.keysDiffer_iff⟩
  · obtain ⟨env, claims, he, hchecks, _⟩ := (verifyHandshakePayload_commit P hin hm).mp hr
    exact ⟨env, claims, he, hchecks, hchecks.token.signed.keysDiffer_iff⟩
  · obtain ⟨claims, hclaims⟩ := verifyHandshakePayload_side P hpair hside hr
    obtain ⟨_, _, _, _, htoken, _⟩ := id hclaims
    exact ⟨claims, hclaims, htoken.signed.keysDiffer_iff⟩
  · obtain ⟨selfAid, hops, last, voucher, haccepted, _⟩ := verifyDelegationToken_run P hr
    exact ⟨selfAid, hops, last, voucher, haccepted, fun hop hm =>
      (haccepted.run.verified hop hm).token.signed.keysDiffer_iff⟩

/-- Recorded acceptances of a token and of a two-hop delegation. -/
theorem accepted_keysDiffer_recorded :
    (∃ claims, TctAccepted grantRecording.platform (answeredInput grantToken) referenceClock claims ∧
        (KeysDiffer grantRecording.platform claims ↔ ¬ Respelled claims)) ∧
      ∃ selfAid hops last voucher,
        AcceptedRun delegationRecording.platform (delegationInput lastHopToken) referenceClock selfAid hops last voucher ∧
          ∀ hop ∈ hops, (KeysDiffer delegationRecording.platform hop.claims ↔ ¬ Respelled hop.claims) := by
  have hgrant := accepted_keysDiffer_iff grantRecording.platform (answeredInput grantToken) referenceClock
  have hdelegated := accepted_keysDiffer_iff delegationRecording.platform (delegationInput lastHopToken) referenceClock
  exact ⟨hgrant.1 _ grantToken_accepted, hdelegated.2.2.2.2 _ lastHop_accepted⟩

/-! ### Agent A grants itself, under its tagged name -/

def taggedAidA : Text := txt "aid:pubkey:ed25519:" ++ agentA

def respelledClaims : Members :=
  [(txt "ver", .str (txt "aitp/0.3")), (txt "jti", .str (txt "3f9d2c1b-8e7a-4b6c-a5d4-c3b2a1908f7e")),
    (txt "iss", .str (aidOf agentA)), (txt "sub", .str taggedAidA), (txt "aud", .str taggedAidA),
    (txt "iat", .int 1711900000), (txt "exp", .int 1711990000), (txt "grants", .list [.str (txt "read")]),
    (txt "cnf", .dict [(txt "jkt", .str thumbprintA)])]

def respelledSignature : Text :=
  txt "uhBye6LASdsTMePDEgp0Ly4Pe077aSUFQdpgjH0z" ++
    txt "x7dTcbB-C0OKp-QkgadIfA7z-b_FsnCuPW9qoJgJ" ++ txt "DVrgDg"

def respelledToken : JsonValue := mintedToken tctTyp respelledClaims respelledSignature

def respelledRecording : Recording where
  digests := [recordedThumbprint agentA thumbprintA, snapshotDigest agentA snapshotDigestA]
  signatures := [mintedSignature agentA tctTyp respelledClaims respelledSignature,
    ⟨agentA, snapshotSignatureA, octetsOf snapshotDigestA⟩]

/-- A token of agent A for agent A passes when one of the two names is tagged. -/
theorem verifyTct_respelled_accepted :
    ∃ claims, TctAccepted respelledRecording.platform (answeredInput respelledToken) referenceClock claims ∧
      ¬ KeysDiffer respelledRecording.platform claims := by
  have hok : (verifyTct respelledRecording.platform (answeredInput respelledToken) referenceClock).isOk := by
    decide +kernel
  have hnames : (peekClaims respelledRecording.platform respelledToken "TCT_SIGNATURE_INVALID").toOption.map
      (fun claims => (claims.get (txt "iss"), claims.get (txt "sub"))) =
      some (.str (aidOf agentA), .str taggedAidA) := by
    decide +kernel
  have hspell : keySpelling (aidOf agentA) = keySpelling taggedAidA := by decide +kernel
  obtain ⟨r, hr⟩ := isOk_iff.mp hok
  obtain ⟨claims, ha, _⟩ := (verifyTct_eq_ok respelledRecording.platform).mp hr
  obtain ⟨token, ht, hsigned⟩ := ha.signed
  obtain rfl : respelledToken = token := Option.some.inj ht
  have hpeek : peekClaims respelledRecording.platform respelledToken "TCT_SIGNATURE_INVALID" = .ok claims := by
    obtain ⟨_, _, hc⟩ := hsigned
    exact (peekClaims_eq_ok respelledRecording.platform).mpr hc.parses
  rw [hpeek, Except.toOption, Option.map_some, Option.some.injEq, Prod.mk.injEq] at hnames
  refine ⟨claims, ha, fun hd => hsigned.keysDiffer_iff.mp hd ?_⟩
  rw [Respelled, hnames.1, hnames.2]
  exact hspell

end AitpVerifier
