import AitpVerifier.Handshake

/-!
# The commit messages

What an accepted `mutual_commit` or `mutual_commit_ack` establishes about its
envelope, its proof of possession and the token it carries.
-/
namespace AitpVerifier

open PyText Checked

variable (P : Platform)

/-- An input that carries an envelope and is no simulated exchange. -/
structure HandshakeInput (inp : Members) (rawEnv : JsonValue) : Prop where
  envelope : inp.get? (txt "envelope") = some rawEnv
  notPair : (inp.has (txt "peer_a") && inp.has (txt "peer_b")) = false

/-- The payload of a message. -/
def payloadOf (env : Members) : Members := (env.get (txt "payload")).members

/-- The token a commit message embeds. -/
def commitTct (env : Members) : JsonValue := (payloadOf env).get (txt "tct")

/-- The member set of a commit payload. -/
structure CommitPayload (env : Members) : Prop where
  known : ∀ key ∈ (payloadOf env).names, key ∈ commitPayloadFields
  tct : (payloadOf env).has (txt "tct")

/-- The proof of possession, where the message is held to one. -/
def PopHolds (inp env : Members) : Prop :=
  ((payloadOf env).get (txt "pop_signature")).isStr → (selfNonce inp).truthy →
    CommitPop P (senderAgentId env) (selfNonce inp) ((payloadOf env).get (txt "pop_signature"))

/-- Every check of the commit branch. -/
structure CommitChecks (inp env : Members) (now : Int) (claims : Members) : Prop where
  shape : EnvelopeShape env
  payload : CommitPayload env
  pop : PopHolds P inp env
  token : CommitToken P inp (commitTct env) (inp.get (txt "self_aid")) now claims

theorem EnvelopeShape.payload {env : Members} (h : EnvelopeShape env) :
    env.get (txt "payload") = .dict (payloadOf env) := by
  obtain ⟨payload, hp⟩ := h.shaped.dict (k := txt "payload") (by simp [requiredEnvelopeFields])
    (by simp [envelopeTypes])
  simp [payloadOf, hp, JsonValue.members]

/-- With an envelope the sender is the envelope's. -/
theorem resolveSender_eq_ok {inp env : Members} {tct sender : JsonValue} (h : HandshakeInput inp (.dict env))
    (hs : EnvelopeShape env) : resolveSender P inp tct = .ok sender ↔ senderAgentId env = sender := by
  obtain ⟨s, ha⟩ := hs.sender
  obtain ⟨obj, ho⟩ := hs.shaped.dict (k := txt "sender") (by simp [requiredEnvelopeFields]) (by simp [envelopeTypes])
  have hget : env.get? (txt "sender") = some (.dict obj) := by
    rw [← ho]
    exact Members.get?_of_has (hs.shaped.present _ (by simp [requiredEnvelopeFields]))
  have hid : Members.get obj (txt "agent_id") = .str s := by simpa [senderAgentId, ho, JsonValue.members] using ha
  have hnamed : commitSender inp = .ok (.str s) := by
    simp only [commitSender, h.envelope, Option.getD_some, JsonValue.attrGet, hget, ← hid]
    rfl
  simp only [resolveSender, hnamed, bind_eq_ok, Except.ok.injEq, exists_eq_left', JsonValue.isNull, ha]
  simp

theorem verifyCommit_eq_ok {inp env : Members} {now : Int} {grants : JsonValue} (h : HandshakeInput inp (.dict env))
    (hs : EnvelopeShape env) :
    verifyCommit P inp (env.get (txt "payload")) (inp.get (txt "self_aid")) now = .ok grants ↔
      ∃ claims, CommitChecks P inp env now claims ∧ claims.get (txt "grants") = grants := by
  simp only [verifyCommit, bind_eq_ok, exists_unit, raiseIf_eq_ok, rejectUnknownFields_eq_ok, hs.payload,
    JsonValue.dict.injEq, exists_eq_left', JsonValue.members, Bool.not_eq_false', resolveSender_eq_ok P h hs,
    checkCommitPop_eq_ok, verifyCommitTct_eq_ok, Except.ok.injEq]
  constructor
  · rintro ⟨hk, ht, hp, claims, hc, hg⟩
    exact ⟨claims, ⟨hs, ⟨hk, ht⟩, hp, hc⟩, hg⟩
  · rintro ⟨claims, ⟨_, ⟨hk, ht⟩, hp, hc⟩, hg⟩
    exact ⟨hk, ht, hp, claims, hc, hg⟩

/-- A commit message is accepted exactly on these checks; none reads `signature`. -/
theorem verifyHandshakePayload_commit {inp : Members} {rawEnv : JsonValue} {now : Int} {r : Members}
    (h : HandshakeInput inp rawEnv) (hm : messageType rawEnv.members ∈ commitTypes) :
    verifyHandshakePayload P inp now = .ok r ↔
      ∃ env claims, rawEnv = .dict env ∧ CommitChecks P inp env now claims ∧
        [(txt "grants", claims.get (txt "grants"))] = r := by
  have henv : inp.get (txt "envelope") = rawEnv := Members.get_of_get? h.envelope
  have hno {env : Members} (he : rawEnv = .dict env) : bootstrapTypes.contains (messageType env) = false ∧
      commitTypes.contains (messageType env) = true := by
    subst he
    have hm : messageType env ∈ commitTypes := hm
    simp only [commitTypes, List.mem_cons, List.not_mem_nil, or_false] at hm
    rcases hm with hm | hm <;> rw [hm] <;> decide
  simp only [verifyHandshakePayload, h.notPair, Bool.false_eq_true, if_false, bind_eq_ok, henv,
    validateEnvelopeShape_eq_ok]
  constructor
  · rintro ⟨env, ⟨he, hs⟩, hv⟩
    simp only [verifyMessage, (hno he).1, (hno he).2, Bool.false_eq_true, if_false, if_true, bind_eq_ok,
      Except.ok.injEq, verifyCommit_eq_ok P (he ▸ h) hs] at hv
    obtain ⟨grants, ⟨claims, hc, rfl⟩, hr⟩ := hv
    exact ⟨env, claims, he, hc, hr⟩
  · rintro ⟨env, claims, he, hc, hr⟩
    refine ⟨env, ⟨he, hc.shape⟩, ?_⟩
    simp only [verifyMessage, (hno he).1, (hno he).2, Bool.false_eq_true, if_false, if_true, bind_eq_ok,
      Except.ok.injEq, verifyCommit_eq_ok P (he ▸ h) hc.shape]
    exact ⟨_, ⟨claims, hc, rfl⟩, hr⟩

/-! ### The same input around another envelope -/

/-- The input with another envelope. -/
def carrying (inp : Members) (rawEnv : JsonValue) : Members := inp.insert (txt "envelope") rawEnv

theorem carrying_get {inp : Members} {rawEnv : JsonValue} {key : Text} (hk : txt "envelope" ≠ key) :
    (carrying inp rawEnv).get key = inp.get key := Members.get_insert_of_ne hk

theorem carrying_handshake {inp : Members} (hpair : (inp.has (txt "peer_a") && inp.has (txt "peer_b")) = false)
    (rawEnv : JsonValue) : HandshakeInput (carrying inp rawEnv) rawEnv := by
  have hhas {key : Text} (hk : txt "envelope" ≠ key) : (carrying inp rawEnv).has key = inp.has key := by
    rw [Members.has, carrying, Members.get?_insert, if_neg hk, Members.has]
  constructor
  · rw [carrying, Members.get?_insert, if_pos rfl]
  · rw [hhas (by decide), hhas (by decide), hpair]

/-- A token is judged by the verifier's own members and not by the envelope around it. -/
theorem commitToken_carrying {inp : Members} {rawEnv tct selfAid : JsonValue} {now : Int} {claims : Members} :
    CommitToken P (carrying inp rawEnv) tct selfAid now claims ↔ CommitToken P inp tct selfAid now claims := by
  have hoffered (found : Members) : checkOffered (carrying inp rawEnv) found = checkOffered inp found := by
    rw [checkOffered, carrying_get (by decide), checkOffered]
  simp only [← verifyCommitTct_eq_ok, verifyCommitTct, hoffered]

theorem commitChecks_carrying {inp env : Members} {rawEnv : JsonValue} {now : Int} {claims : Members} :
    CommitChecks P (carrying inp rawEnv) env now claims ↔ CommitChecks P inp env now claims := by
  have hself : (carrying inp rawEnv).get (txt "self_aid") = inp.get (txt "self_aid") := carrying_get (by decide)
  have hpop : PopHolds P (carrying inp rawEnv) env ↔ PopHolds P inp env := by
    rw [PopHolds, selfNonce, carrying_get (by decide), carrying_get (by decide), carrying_get (by decide), ← selfNonce, PopHolds]
  constructor
  · rintro ⟨hshape, hpayload, hheld, htoken⟩
    rw [hself] at htoken
    exact ⟨hshape, hpayload, hpop.mp hheld, (commitToken_carrying P).mp htoken⟩
  · rintro ⟨hshape, hpayload, hheld, htoken⟩
    refine ⟨hshape, hpayload, hpop.mpr hheld, (commitToken_carrying P).mpr ?_⟩
    rw [hself]
    exact htoken

/-! ### A recorded exchange: agent A commits to agent B -/

def commitNonce : Text := txt "BwcHBwcHBwcHBwcHBwcHBwcH" ++ txt "BwcHBwcHBwcHBwcHBwc"

def commitNonceDigest : Text := txt "S7Bvjk46dxXSAdVz0KpCN2Ll" ++ txt "XavWGiwCJ4-lbMbSlOA"

/-- Agent A's signature over the nonce's digest. -/
def popByA : Text :=
  txt "bdBBQY1YjwmX6SAbkdnKGX-E9ZR0BXwOX3f3s69f" ++
    txt "gdtwSJukhr5CckKQq8CubbKXCfvXVPCR2156bhJw" ++ txt "OSQ4Bw"

/-- Agent C's signature over the nonce's digest. -/
def popByC : Text :=
  txt "t1SZp7v1Z2o1oKHnRf_YC4YLllEPsJnshfJJRWm_" ++
    txt "VH2z6cz2gdVVaX-Ysb519vom1NpS8tfFRhHW_Dl9" ++ txt "no1iDg"

/-- Agent A's signature over its own commit envelope. -/
def commitSignature : Text :=
  txt "Sljqnxpy_92Af4ABmUFN0HNLMZc6AwcC6KdISKxX" ++
    txt "yDL6XKodbwL2V78JQNoIvtvqbPKK-ZBDbwxiZmBJ" ++ txt "DmtlBg"

def commitDigest : Text := txt "tbu8D23jHN07R5UH_nIuPATC" ++ txt "3EeMLcnDrt6GDTcN4o0"

/-- A commit envelope around agent A's token for agent B. -/
def commitEnvelope (sender : Text) (pop : Members) (signature : Text) : Members :=
  [(txt "version", .str protocolVersion), (txt "message_type", .str (txt "mutual_commit")),
    (txt "message_id", .str (txt "5d1c7b0e-93a4-4f5e-8b6d-0e2f9c8a7b61")), (txt "timestamp", .int referenceClock),
    (txt "sender", .dict [(txt "agent_id", .str (aidOf sender))]),
    (txt "payload", .dict ((txt "tct", grantToken) :: pop)), (txt "signature", .str signature)]

/-- What agent B verifies. -/
def commitInput (env : Members) : Members :=
  [(txt "envelope", .dict env), (txt "self_aid", .str (aidOf agentB)),
    (txt "self_pop_nonce_sent_in_hello_ack", .str commitNonce)]

/-- The envelope agent A sends. -/
def honestCommit : Members := commitEnvelope agentA [(txt "pop_signature", .str popByA)] commitSignature

def commitRecording : Recording where
  digests := [recordedThumbprint agentB thumbprintB, (octetsOf commitNonce, commitNonceDigest),
    (octetsFrom (envelopeSigningInput honestCommit), commitDigest)]
  signatures := [grantRecorded, ⟨agentA, popByA, octetsOf commitNonceDigest⟩, ⟨agentC, popByC, octetsOf commitNonceDigest⟩,
    ⟨agentA, commitSignature, octetsOf commitDigest⟩]

theorem commitInput_handshake (env : Members) : HandshakeInput (commitInput env) (.dict env) := ⟨rfl, rfl⟩

theorem honestCommit_accepted :
    (verifyHandshakePayload commitRecording.platform (commitInput honestCommit) referenceClock).isOk := by
  decide +kernel

/-! ### Who signed the envelope -/

/-- The envelope under another signature. -/
def underSignature (rawEnv signature : JsonValue) : JsonValue :=
  match rawEnv with
  | .dict env => .dict (Members.insert env (txt "signature") signature)
  | other => other

/-- A signature of the right form that nobody made. -/
def blankSignature : Text := .replicate 86 0x41

/-- The commit branch passes the message with the blank signature in it. Of a signature
the branch reads the form alone, so it then passes the message under any. -/
def CommitStands (inp env : Members) (now : Int) : Prop :=
  ∃ claims, CommitChecks P inp (env.insert (txt "signature") (.str blankSignature)) now claims

variable {P}

/-- The checks of the commit branch hold under any signature of the right form. -/
theorem CommitChecks.resigned {inp env : Members} {now : Int} {claims : Members} (h : CommitChecks P inp env now claims)
    {signature : Text} (hsig : signaturePattern.fullMatch signature) :
    CommitChecks P inp (env.insert (txt "signature") (.str signature)) now claims := by
  have hpayload : payloadOf (env.insert (txt "signature") (.str signature)) = payloadOf env := by
    rw [payloadOf, Members.get_insert_of_ne (by decide), payloadOf]
  have hsender : senderAgentId (env.insert (txt "signature") (.str signature)) = senderAgentId env := by
    rw [senderAgentId, Members.get_insert_of_ne (by decide), senderAgentId]
  refine ⟨h.shape.resigned hsig, ?_, ?_, ?_⟩
  · constructor
    · rw [hpayload]
      exact h.payload.known
    · rw [hpayload]
      exact h.payload.tct
  · rw [PopHolds, hpayload, hsender]
    exact h.pop
  · rw [commitTct, hpayload]
    exact h.token

theorem messageType_underSignature {rawEnv signature : JsonValue} :
    messageType (underSignature rawEnv signature).members = messageType rawEnv.members := by
  cases rawEnv with
  | dict env => rw [underSignature, JsonValue.members, messageType, Members.get_insert_of_ne (by decide), JsonValue.members, messageType]
  | _ => rfl

theorem commitStands_underSignature {inp : Members} {rawEnv carried signature : JsonValue} {now : Int} :
    CommitStands P (carrying inp carried) (underSignature rawEnv signature).members now ↔
      CommitStands P inp rawEnv.members now := by
  simp only [CommitStands, commitChecks_carrying]
  cases rawEnv with
  | dict env => rw [underSignature, JsonValue.members, Members.insert_insert, JsonValue.members]
  | _ => rfl

/-- What is of a commit type is an object. -/
theorem dict_of_commit {rawEnv : JsonValue} (hm : messageType rawEnv.members ∈ commitTypes) : ∃ env, rawEnv = .dict env := by
  have hno : messageType [] ∉ commitTypes := by decide
  cases rawEnv with
  | dict env => exact ⟨env, rfl⟩
  | _ => exact absurd hm hno

/-- The signature of a bootstrap message is checked before it is accepted. -/
theorem accepted_authentic {inp : Members} {rawEnv : JsonValue} {now : Int} (h : HandshakeInput inp rawEnv)
    (hc : messageType rawEnv.members ∉ commitTypes ∨ ¬ CommitStands P inp rawEnv.members now) {r : Members}
    (hr : verifyHandshakePayload P inp now = .ok r) : EnvelopeAuthentic P rawEnv.members := by
  by_cases hm : messageType rawEnv.members ∈ commitTypes
  · obtain ⟨env, claims, rfl, hchecks, _⟩ := (verifyHandshakePayload_commit P h hm).mp hr
    exact absurd ⟨claims, hchecks.resigned (by decide)⟩ (hc.resolve_left (not_not_intro hm))
  · have henv : inp.get (txt "envelope") = rawEnv := Members.get_of_get? h.envelope
    simp only [verifyHandshakePayload, h.notPair, Bool.false_eq_true, if_false, bind_eq_ok, henv,
      validateEnvelopeShape_eq_ok] at hr
    obtain ⟨env, ⟨rfl, _⟩, hv⟩ := hr
    have hno : messageType env ∉ commitTypes := hm
    unfold verifyMessage at hv
    split at hv
    · exact verifyBootstrap_authentic P hv
    · simp [hno] at hv

/-- The blank signature under the tag of the other algorithm. -/
def mistagged : KeyAlg → Text
  | .ed25519 => txt "p256." ++ blankSignature
  | .p256 => txt "ed25519." ++ blankSignature

theorem mistagged_form (alg : KeyAlg) : signaturePattern.fullMatch (mistagged alg) := by
  cases alg <;> decide

theorem mistagged_refused {alg : KeyAlg} {raw : Bytes} : ¬ TaggedSignature (.str (mistagged alg)) alg raw := by
  rintro ⟨s, hs, htag, _⟩
  obtain rfl := JsonValue.str.inj hs
  revert htag
  cases alg <;> decide

/-- Whoever the sender is, some signature of the right form is not the sender's. -/
theorem exists_unauthentic (P : Platform) (env : Members) : ∃ signature, signaturePattern.fullMatch signature ∧
    ¬ EnvelopeAuthentic P (env.insert (txt "signature") (.str signature)) := by
  have hsender (signature : Text) : senderAgentId (env.insert (txt "signature") (.str signature)) = senderAgentId env := by
    rw [senderAgentId, Members.get_insert_of_ne (by decide), senderAgentId]
  cases hparse : parseAid P (senderAgentId env).text with
  | error e =>
    refine ⟨blankSignature, by decide, ?_⟩
    rintro ⟨aid, haid, _⟩
    rw [hsender, hparse] at haid
    cases haid
  | ok aid =>
    refine ⟨mistagged aid.alg, mistagged_form aid.alg, ?_⟩
    rintro ⟨found, hfound, _, _, raw, htagged, _⟩
    rw [hsender, hparse] at hfound
    obtain rfl := Except.ok.inj hfound
    rw [Members.get_insert_self] at htagged
    exact mistagged_refused htagged

variable (P)

/-- What is accepted is authentic when it is a bootstrap message, or when the commit
branch has something else to hold against it. Nothing weaker will do: any other message
is accepted under a signature that is not its sender's. -/
theorem verifyHandshakePayload_authentic_iff (inp : Members) (rawEnv : JsonValue) (now : Int)
    (h : HandshakeInput inp rawEnv) :
    (messageType rawEnv.members ∉ commitTypes ∨ ¬ CommitStands P inp rawEnv.members now →
      ∀ r, verifyHandshakePayload P inp now = .ok r → EnvelopeAuthentic P rawEnv.members) ∧
    ((∀ signature r, verifyHandshakePayload P (carrying inp (underSignature rawEnv signature)) now = .ok r →
        EnvelopeAuthentic P (underSignature rawEnv signature).members) ↔
      messageType rawEnv.members ∉ commitTypes ∨ ¬ CommitStands P inp rawEnv.members now) := by
  refine ⟨fun hc r hr => accepted_authentic h hc hr, fun hall => ?_, fun hc signature r hr => ?_⟩
  · by_contra hc
    rw [not_or, not_not, not_not] at hc
    obtain ⟨hm, claims, hchecks⟩ := hc
    obtain ⟨env, rfl⟩ := dict_of_commit hm
    obtain ⟨signature, hform, hunauthentic⟩ := exists_unauthentic P env
    have hresigned := hchecks.resigned hform
    rw [JsonValue.members, Members.insert_insert] at hresigned
    have hm' : messageType (underSignature (.dict env) (.str signature)).members ∈ commitTypes := by
      rw [messageType_underSignature]
      exact hm
    exact hunauthentic (hall (.str signature) _ ((verifyHandshakePayload_commit P (carrying_handshake h.notPair _) hm').mpr
      ⟨_, claims, rfl, (commitChecks_carrying P).mpr hresigned, rfl⟩))
  · refine accepted_authentic (carrying_handshake h.notPair _) ?_ hr
    rw [messageType_underSignature, commitStands_underSignature]
    exact hc

/-- When agent A's token has expired. -/
def expiredClock : Int := 1711990000

theorem commitTct_expired (claims : Members) : ¬ CommitToken commitRecording.platform (commitInput honestCommit) grantToken
    (.str (aidOf agentB)) expiredClock claims := by
  intro h
  have hno : (verifyCommitTct commitRecording.platform (commitInput honestCommit) grantToken (.str (aidOf agentB))
      expiredClock).isOk = false := by
    decide +kernel
  rw [(verifyCommitTct_eq_ok commitRecording.platform).mpr h] at hno
  cases hno

/-- Until its token expires agent A's message is taken under a signature that is not agent A's, and under none after. -/
theorem verifyHandshakePayload_authentic_honest :
    (∀ signature r, verifyHandshakePayload commitRecording.platform
        (carrying (commitInput honestCommit) (underSignature (.dict honestCommit) signature)) expiredClock = .ok r →
      EnvelopeAuthentic commitRecording.platform (underSignature (.dict honestCommit) signature).members) ∧
    ¬ ∀ signature r, verifyHandshakePayload commitRecording.platform
        (carrying (commitInput honestCommit) (underSignature (.dict honestCommit) signature)) referenceClock = .ok r →
      EnvelopeAuthentic commitRecording.platform (underSignature (.dict honestCommit) signature).members := by
  have hiff (now : Int) := (verifyHandshakePayload_authentic_iff commitRecording.platform (commitInput honestCommit)
    (.dict honestCommit) now (commitInput_handshake honestCommit)).2
  constructor
  · refine (hiff expiredClock).mpr (.inr ?_)
    rintro ⟨claims, hchecks⟩
    exact commitTct_expired claims hchecks.token
  · obtain ⟨r, hr⟩ := isOk_iff.mp honestCommit_accepted
    obtain ⟨_, claims, heq, hchecks, _⟩ :=
      (verifyHandshakePayload_commit commitRecording.platform (commitInput_handshake honestCommit) (by decide)).mp hr
    obtain rfl := JsonValue.dict.inj heq
    rw [hiff, not_or, not_not, not_not]
    exact ⟨by decide, claims, hchecks.resigned (by decide)⟩

/-- The same message under the blank signature is accepted too. -/
theorem verifyHandshakePayload_unsigned_accepted :
    (verifyHandshakePayload commitRecording.platform
        (commitInput (commitEnvelope agentA [(txt "pop_signature", .str popByA)] (.replicate 86 0x41)))
        referenceClock).isOk ∧
      ¬ EnvelopeAuthentic commitRecording.platform
        (commitEnvelope agentA [(txt "pop_signature", .str popByA)] (.replicate 86 0x41)) := by
  constructor
  · decide +kernel
  · decide +kernel

/-! ### Proof of possession -/

/-- Acceptance proves possession exactly when the payload's `pop_signature` is a
string, or one of the other checks rejects. -/
theorem verifyHandshakePayload_possession_iff (inp : Members) (rawEnv : JsonValue) (now : Int)
    (h : HandshakeInput inp rawEnv) (hm : messageType rawEnv.members ∈ commitTypes)
    (hn : (selfNonce inp).truthy) :
    (∀ r, verifyHandshakePayload P inp now = .ok r →
        CommitPop P (senderAgentId rawEnv.members) (selfNonce inp)
          ((payloadOf rawEnv.members).get (txt "pop_signature"))) ↔
      (((payloadOf rawEnv.members).get (txt "pop_signature")).isStr ∨
        ¬ ∃ env claims, rawEnv = .dict env ∧ EnvelopeShape env ∧ CommitPayload env ∧
          CommitToken P inp (commitTct env) (inp.get (txt "self_aid")) now claims) := by
  constructor
  · intro hall
    by_contra hc
    rw [not_or, not_not] at hc
    obtain ⟨hstr, env, claims, rfl, hs, hp, ht⟩ := hc
    -- without a string there is nothing to judge, so the message passes
    have hpop : PopHolds P inp env := fun hs' => absurd hs' hstr
    have hok := (verifyHandshakePayload_commit P h hm).mpr ⟨env, claims, rfl, ⟨hs, hp, hpop, ht⟩, rfl⟩
    obtain ⟨s, _, _, _, _, hsig, _⟩ := hall _ hok
    rw [hsig] at hstr
    exact hstr rfl
  · intro hc r hr
    obtain ⟨env, claims, rfl, hchecks, _⟩ := (verifyHandshakePayload_commit P h hm).mp hr
    rcases hc with hc | hc
    · exact hchecks.pop hc hn
    · exact absurd ⟨env, claims, rfl, hchecks.shape, hchecks.payload, hchecks.token⟩ hc

/-- Agent A's proof is there and verifies. -/
theorem verifyHandshakePayload_possession_honest :
    (verifyHandshakePayload commitRecording.platform (commitInput honestCommit) referenceClock).isOk ∧
      ∀ r, verifyHandshakePayload commitRecording.platform (commitInput honestCommit) referenceClock = .ok r →
        CommitPop commitRecording.platform (senderAgentId honestCommit) (selfNonce (commitInput honestCommit))
          ((payloadOf honestCommit).get (txt "pop_signature")) :=
  ⟨honestCommit_accepted,
    (verifyHandshakePayload_possession_iff commitRecording.platform (commitInput honestCommit) (.dict honestCommit)
      referenceClock (commitInput_handshake honestCommit) (by decide) (by decide)).mpr (.inl rfl)⟩

/-- A payload that leaves the proof out is accepted. -/
theorem verifyHandshakePayload_unproven_accepted :
    (selfNonce (commitInput (commitEnvelope agentA [] commitSignature))).truthy ∧
      (verifyHandshakePayload commitRecording.platform (commitInput (commitEnvelope agentA [] commitSignature))
        referenceClock).isOk ∧
      ¬ CommitPop commitRecording.platform (senderAgentId (commitEnvelope agentA [] commitSignature))
        (selfNonce (commitInput (commitEnvelope agentA [] commitSignature)))
        ((payloadOf (commitEnvelope agentA [] commitSignature)).get (txt "pop_signature")) := by
  refine ⟨by decide, ?_, ?_⟩
  · decide +kernel
  · decide +kernel

/-! ### Who issued the token -/

/-- The issuer a token names, read before any signature is checked. -/
def declaredIssuer (token : JsonValue) : JsonValue :=
  match peekClaims P token "TCT_SIGNATURE_INVALID" with
  | .ok claims => claims.get (txt "iss")
  | .error _ => .null

/-- The embedded token names the envelope's sender as its issuer and verifies
under the sender's key. -/
def PeerIssued (env : Members) : Prop :=
  ∃ sender claims, senderAgentId env = .str sender ∧ claims.get (txt "iss") = .str sender ∧
    SignedToken P (commitTct env) sender tctTyp claims

theorem IssuedToken.declaredIssuer {token : JsonValue} {typ : Text} {claims : Members}
    (h : IssuedToken P token typ claims) : declaredIssuer P token = claims.get (txt "iss") := by
  obtain ⟨iss, _, hc⟩ := h
  have hp : peekClaims P token "TCT_SIGNATURE_INVALID" = .ok claims := (peekClaims_eq_ok P).mpr hc.parses
  simp [AitpVerifier.declaredIssuer, hp]

/-- Agents A and C do not both go by the same identifier. -/
theorem exists_otherAgent (iss : Text) : ∃ agent ∈ [agentA, agentC], aidOf agent ≠ iss := by
  have hdistinct : aidOf agentA ≠ aidOf agentC := by decide
  by_cases h : aidOf agentA = iss
  · exact ⟨agentC, by simp, h ▸ hdistinct.symm⟩
  · exact ⟨agentA, by simp, h⟩

/-- An envelope around a token, with no proof of possession in it. -/
def envelopeAround (tct : JsonValue) (sender : Text) : Members :=
  [(txt "version", .str protocolVersion), (txt "message_type", .str (txt "mutual_commit")),
    (txt "message_id", .str (txt "5d1c7b0e-93a4-4f5e-8b6d-0e2f9c8a7b61")), (txt "timestamp", .int referenceClock),
    (txt "sender", .dict [(txt "agent_id", .str sender)]), (txt "payload", .dict [(txt "tct", tct)]),
    (txt "signature", .str blankSignature)]

theorem envelopeAround_shape (tct : JsonValue) (sender : Text) : EnvelopeShape (envelopeAround tct sender) where
  version := rfl
  shaped := by
    constructor
    · simp only [requiredEnvelopeFields, List.forall_mem_cons]
      exact ⟨rfl, rfl, rfl, rfl, rfl, rfl, rfl, List.forall_mem_nil _⟩
    · simp only [WellTyped, envelopeTypes, List.forall_mem_cons]
      exact ⟨fun _ h => Option.some.inj h ▸ rfl, fun _ h => Option.some.inj h ▸ rfl, fun _ h => Option.some.inj h ▸ rfl,
        fun _ h => Option.some.inj h ▸ rfl, fun _ h => Option.some.inj h ▸ rfl, fun _ h => Option.some.inj h ▸ rfl,
        fun _ h => Option.some.inj h ▸ rfl, fun _ h => (Option.not_mem_none _ h).elim,
        List.forall_mem_nil _⟩
  known := by
    have hknown : ∀ key ∈ (envelopeAround .null []).names, key ∈ envelopeFields := by decide
    exact hknown
  timestamp := rfl
  signature := by
    have hform : signaturePattern.fullMatch blankSignature := by decide
    exact hform
  senderShaped := ⟨List.forall_mem_singleton.mpr rfl, List.forall_mem_singleton.mpr fun _ h => Option.some.inj h ▸ rfl⟩
  senderKnown := by
    have hknown : ∀ key ∈ Members.names [(txt "agent_id", .str [])], key ∈ senderFields := by decide
    exact hknown

variable {P}

/-- A token that passes its own checks is taken from any sender that proves nothing. -/
theorem CommitToken.taken {inp : Members} {tct : JsonValue} {now : Int} {claims : Members}
    (h : CommitToken P inp tct (inp.get (txt "self_aid")) now claims) (sender : Text) :
    CommitChecks P inp (envelopeAround tct sender) now claims where
  shape := envelopeAround_shape tct sender
  payload := by
    have hknown : ∀ key ∈ [txt "tct"], key ∈ commitPayloadFields := by decide
    exact ⟨hknown, rfl⟩
  pop := fun hstr => absurd hstr Bool.false_ne_true
  token := h

variable (P)

/-- Every message around a token comes from the token's issuer exactly when the token's
own checks reject it, for then none is accepted: around any other token there is a
message from somebody else that is. -/
theorem verifyHandshakePayload_peerIssued_iff (inp : Members) (tct : JsonValue) (now : Int)
    (h : (inp.has (txt "peer_a") && inp.has (txt "peer_b")) = false) :
    (∀ rawEnv r, messageType rawEnv.members ∈ commitTypes → commitTct rawEnv.members = tct →
        verifyHandshakePayload P (carrying inp rawEnv) now = .ok r → PeerIssued P rawEnv.members) ↔
      ¬ ∃ claims, CommitToken P inp tct (inp.get (txt "self_aid")) now claims := by
  constructor
  · rintro hall ⟨claims, htoken⟩
    obtain ⟨iss, hiss, _⟩ := htoken.signed
    obtain ⟨agent, _, hagent⟩ := exists_otherAgent iss
    let rawEnv : JsonValue := .dict (envelopeAround tct (aidOf agent))
    have hm : messageType rawEnv.members ∈ commitTypes := by
      have htype : txt "mutual_commit" ∈ commitTypes := by decide
      exact htype
    have hchecks : CommitChecks P (carrying inp rawEnv) (envelopeAround tct (aidOf agent)) now claims :=
      (commitChecks_carrying P).mpr (htoken.taken (aidOf agent))
    have haccepted := (verifyHandshakePayload_commit P (carrying_handshake h rawEnv) hm).mpr ⟨_, claims, rfl, hchecks, rfl⟩
    obtain ⟨sender, found, hsender, hfound, hsigned⟩ := hall rawEnv _ hm rfl haccepted
    have hissued : IssuedToken P tct tctTyp found := ⟨sender, hfound, hsigned⟩
    obtain rfl := hissued.unique P htoken.signed
    obtain rfl : aidOf agent = sender := JsonValue.str.inj hsender
    exact hagent (JsonValue.str.inj (hfound.symm.trans hiss))
  · rintro hno rawEnv r hm rfl hr
    obtain ⟨env, claims, rfl, hchecks, _⟩ := (verifyHandshakePayload_commit P (carrying_handshake h rawEnv) hm).mp hr
    have htoken := (commitToken_carrying P).mp hchecks.token
    rw [carrying_get (by decide)] at htoken
    exact absurd ⟨claims, htoken⟩ hno

/-- Around agent A's token there is a message that is not agent A's, until the token expires. -/
theorem verifyHandshakePayload_peerIssued_honest :
    (∀ rawEnv r, messageType rawEnv.members ∈ commitTypes → commitTct rawEnv.members = grantToken →
        verifyHandshakePayload commitRecording.platform (carrying (commitInput honestCommit) rawEnv) expiredClock = .ok r →
        PeerIssued commitRecording.platform rawEnv.members) ∧
      ¬ ∀ rawEnv r, messageType rawEnv.members ∈ commitTypes → commitTct rawEnv.members = grantToken →
        verifyHandshakePayload commitRecording.platform (carrying (commitInput honestCommit) rawEnv) referenceClock = .ok r →
        PeerIssued commitRecording.platform rawEnv.members := by
  have hiff (now : Int) :=
    verifyHandshakePayload_peerIssued_iff commitRecording.platform (commitInput honestCommit) grantToken now rfl
  constructor
  · refine (hiff expiredClock).mpr ?_
    rintro ⟨claims, htoken⟩
    exact commitTct_expired claims htoken
  · obtain ⟨r, hr⟩ := isOk_iff.mp honestCommit_accepted
    obtain ⟨_, claims, heq, hchecks, _⟩ :=
      (verifyHandshakePayload_commit commitRecording.platform (commitInput_handshake honestCommit) (by decide)).mp hr
    obtain rfl := JsonValue.dict.inj heq
    rw [hiff, not_not]
    exact ⟨claims, hchecks.token⟩

/-- Agent C relays the token agent A issued and proves possession of its own key. -/
theorem verifyHandshakePayload_relayed_accepted :
    (verifyHandshakePayload commitRecording.platform
        (commitInput (commitEnvelope agentC [(txt "pop_signature", .str popByC)] commitSignature))
        referenceClock).isOk ∧
      ¬ PeerIssued commitRecording.platform
        (commitEnvelope agentC [(txt "pop_signature", .str popByC)] commitSignature) := by
  constructor
  · decide +kernel
  · rintro ⟨sender, claims, hs, hi, hsigned⟩
    have hissued : IssuedToken commitRecording.platform
        (commitTct (commitEnvelope agentC [(txt "pop_signature", .str popByC)] commitSignature)) tctTyp claims :=
      ⟨sender, hi, hsigned⟩
    have hdeclared := hissued.declaredIssuer
    rw [hi, ← hs] at hdeclared
    revert hdeclared
    decide +kernel

end AitpVerifier
