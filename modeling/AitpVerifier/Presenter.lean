import AitpVerifier.Commit

/-!
# The presenter of a token

The issuer takes its own token back from the one peer that proves the key in `sub`: by
answering an outstanding challenge, or through a channel bound to it.
-/
namespace AitpVerifier

open PyText Checked

variable (P : Platform)

/-! ### The challenge examined -/

/-- An outstanding entry for the token and the nonce whose expiry is an integer ahead. -/
structure LiveChallenge (inp : Members) (jti nonce : JsonValue) (now : Int) (challenge : Members) : Prop where
  outstanding : ∃ items, inp.get (txt "outstanding_pop_challenges") = .list items ∧ .dict challenge ∈ items
  jti : challenge.get (txt "tct_jti") = jti
  nonce : challenge.get (txt "nonce") = nonce
  live : ∃ expiry, challenge.get (txt "expires_at") = .int expiry ∧ now < expiry

/-- A match is an object with the two strings. -/
theorem mem_matchingChallenges {items : List JsonValue} {jti nonce : Text} {entry : JsonValue} :
    entry ∈ matchingChallenges items (.str jti) (.str nonce) ↔
      entry ∈ items ∧ ∃ challenge, entry = .dict challenge ∧ Members.get challenge (txt "tct_jti") = .str jti ∧
        Members.get challenge (txt "nonce") = .str nonce := by
  rw [matchingChallenges, List.mem_filter]
  cases entry <;> simp [JsonValue.isDict, JsonValue.members]

/-- Only a list holds objects: nothing else that iterates has a match. -/
theorem matchingChallenges_strings {items : List JsonValue} {jti nonce : JsonValue}
    (h : ∀ entry ∈ items, ∃ s, entry = .str s) : matchingChallenges items jti nonce = [] := by
  rw [matchingChallenges, List.filter_eq_nil_iff]
  intro entry hm
  obtain ⟨s, rfl⟩ := h entry hm
  simp [JsonValue.isDict]

/-- The first entry that matches, live, with a nonce that decodes. -/
structure Examined (inp : Members) (jti nonce : JsonValue) (now : Int) (first : JsonValue) (data : Bytes) : Prop where
  found : ∃ items, inp.get (txt "outstanding_pop_challenges") = .list items ∧
    (matchingChallenges items jti nonce).head? = some first
  live : ∃ expiry, first.members.get (txt "expires_at") = .int expiry ∧ now < expiry
  decoded : (first.members.get (txt "nonce")).b64urlDecode = .ok data

/-- The entries the lookup goes through. -/
def outstandingChallenges (inp : Members) : PyM (List JsonValue) :=
  let outstanding := inp.get (txt "outstanding_pop_challenges")
  if outstanding.truthy then outstanding.elements else .ok []

/-- The nonce of the entry the lookup stops at. -/
def examineFirst (now : Int) : List JsonValue → PyM Bytes
  | [] => .error (popInvalid (txt "nonce_echo matches no outstanding challenge for this jti"))
  | challenge :: _ => do
    raiseIf (!Spiffe.futureExp (challenge.members.get (txt "expires_at")) now)
      (AitpError "POP_CHALLENGE_INVALID" (txt "the challenge is expired or malformed"))
    onValueError (challenge.members.get (txt "nonce")).b64urlDecode "POP_CHALLENGE_INVALID"
      (txt "challenge nonce is not base64url: " ++ ·)

theorem challengeNonce_staged (inp payload : Members) (jti : JsonValue) (now : Int) :
    challengeNonce inp payload jti now =
      (outstandingChallenges inp >>= fun items =>
        examineFirst now (matchingChallenges items jti (payload.get (txt "nonce_echo")))) := by
  rw [challengeNonce, outstandingChallenges]
  split <;> rfl

theorem examineFirst_eq_ok {now : Int} {found : List JsonValue} {data : Bytes} :
    examineFirst now found = .ok data ↔
      ∃ first, found.head? = some first ∧
        (∃ expiry, first.members.get (txt "expires_at") = .int expiry ∧ now < expiry) ∧
        (first.members.get (txt "nonce")).b64urlDecode = .ok data := by
  cases found with
  | nil => simp [examineFirst]
  | cons first rest =>
    simp only [examineFirst, bind_eq_ok, exists_unit, raiseIf_eq_ok, Bool.not_eq_false', Spiffe.futureExp_eq_true,
      onValueError_eq_ok, List.head?_cons, Option.some.injEq, exists_eq_left']

/-- What iterates without being a list holds strings only. -/
theorem outstandingChallenges_strings {inp : Members} {items : List JsonValue}
    (h : outstandingChallenges inp = .ok items)
    (hlist : ∀ found, inp.get (txt "outstanding_pop_challenges") ≠ .list found) :
    ∀ entry ∈ items, ∃ s, entry = .str s := by
  intro entry hm
  rw [outstandingChallenges] at h
  split at h
  · cases ho : inp.get (txt "outstanding_pop_challenges") with
    | list found => exact absurd ho (hlist found)
    | str s =>
      rw [ho] at h
      obtain rfl := Except.ok.inj h
      obtain ⟨c, _, rfl⟩ := List.mem_map.mp hm
      exact ⟨_, rfl⟩
    | dict members =>
      rw [ho] at h
      obtain rfl := Except.ok.inj h
      obtain ⟨m, _, rfl⟩ := List.mem_map.mp hm
      exact ⟨_, rfl⟩
    | _ =>
      rw [ho] at h
      cases h
  · obtain rfl := Except.ok.inj h
    cases hm

theorem outstandingChallenges_list {inp : Members} {items : List JsonValue}
    (hi : inp.get (txt "outstanding_pop_challenges") = .list items) : outstandingChallenges inp = .ok items := by
  rw [outstandingChallenges, hi]
  cases items <;> rfl

theorem challengeNonce_eq_ok {inp payload : Members} {jti : JsonValue} {now : Int} {data : Bytes} :
    challengeNonce inp payload jti now = .ok data ↔
      ∃ first, Examined inp jti (payload.get (txt "nonce_echo")) now first data := by
  simp only [challengeNonce_staged, bind_eq_ok, examineFirst_eq_ok]
  constructor
  · rintro ⟨items, hitems, first, hfirst, hlive, hdata⟩
    by_cases hlist : ∃ found, inp.get (txt "outstanding_pop_challenges") = .list found
    · obtain ⟨found, ho⟩ := hlist
      obtain rfl := Except.ok.inj ((outstandingChallenges_list ho).symm.trans hitems)
      exact ⟨first, ⟨found, ho, hfirst⟩, hlive, hdata⟩
    · have hstrings := outstandingChallenges_strings hitems fun found ho => hlist ⟨found, ho⟩
      rw [matchingChallenges_strings hstrings] at hfirst
      cases hfirst
  · rintro ⟨first, ⟨items, ho, hfirst⟩, hlive, hdata⟩
    exact ⟨items, outstandingChallenges_list ho, first, hfirst, hlive, hdata⟩

/-! ### The response -/

def popResponseFields : List Text := [txt "tct_jti", txt "nonce_echo", txt "pop_signature"]

/-- A `pop_response` whose envelope signature verifies under its own sender. -/
structure PopResponse (inp env : Members) : Prop where
  envelope : inp.get (txt "envelope") = .dict env
  shape : EnvelopeShape env
  type : env.get (txt "message_type") = .str (txt "pop_response")
  answers : ∀ key ∈ popResponseFields, ((payloadOf env).get key).isStr
  authentic : EnvelopeAuthentic P env

theorem PopResponse.str {inp env : Members} (h : PopResponse P inp env) {k : Text} (hk : k ∈ popResponseFields) :
    ∃ s, (payloadOf env).get k = .str s := JsonValue.isStr_iff.mp (h.answers k hk)

/-- The response's `pop_signature` verifies under the key in `sub`, over the digest of
the decoded nonce. -/
structure SubProof (env claims : Members) (sub : Text) (data : Bytes) : Prop where
  claim : claims.get? (txt "sub") = some (.str sub)
  proof : ∃ aid, parseAid P sub = .ok aid ∧ FieldVerifies P aid ((payloadOf env).get (txt "pop_signature")) (P.sha256 data)

theorem presenterFromPop_eq_ok {inp claims : Members} {now : Int} {sub : Text} :
    presenterFromPop P inp claims now = .ok sub ↔
      ∃ env first data, PopResponse P inp env ∧
        claims.get? (txt "jti") = some ((payloadOf env).get (txt "tct_jti")) ∧
        Examined inp ((payloadOf env).get (txt "tct_jti")) ((payloadOf env).get (txt "nonce_echo")) now first data ∧
        SubProof P env claims sub data := by
  simp only [presenterFromPop, popEnvelope, bind_eq_ok, exists_unit, rescue_eq_ok, validateEnvelopeShape_eq_ok,
    verifyEnvelopeSignature_eq_ok, decodeTaggedSignature, decodeTaggedSignatureFor_eq_ok, Members.index_eq_ok,
    Except.ok.injEq, Prod.exists, Prod.mk.injEq, raiseIf_eq_ok, Bool.or_eq_false_iff, Bool.not_eq_false',
    JsonValue.eq_str, challengeNonce_eq_ok, JsonValue.asText_eq_ok]
  constructor
  · rintro ⟨env, sender, ⟨found, ⟨henv, hshape⟩, aid', haid, rfl, rfl⟩, ⟨htype, hstr⟩, hsigned, jti, hjti, hnames, data,
      ⟨first, hfirst⟩, value, hsub, text, rfl, aid, hparse, raw, hraw, hverified, hresult⟩
    obtain rfl : text = sub := by simpa [Interpreter.toStr] using hresult
    have hresponse : PopResponse P inp found := by
      refine ⟨henv, hshape, htype, ?_, aid', haid, hsigned⟩
      intro key hk
      exact List.all_eq_true.mp hstr key hk
    obtain ⟨t, ht⟩ := hresponse.str P (k := txt "tct_jti") (by simp [popResponseFields])
    rw [payloadOf] at ht
    rw [ht, JsonValue.str_eq] at hnames
    subst hnames
    refine ⟨found, first, data, hresponse, ?_, ?_, hsub, aid, hparse, raw, hraw, hverified⟩
    · rw [payloadOf, ht, hjti]
    · rw [payloadOf, ht]
      exact hfirst
  · rintro ⟨env, first, data, hresponse, hjti, hfirst, hsub, aid, hparse, raw, hraw, hverified⟩
    obtain ⟨sender, haid, hsigned⟩ := hresponse.authentic
    obtain ⟨t, ht⟩ := hresponse.str P (k := txt "tct_jti") (by simp [popResponseFields])
    refine ⟨env, sender, ⟨env, ⟨hresponse.envelope, hresponse.shape⟩, sender, haid, rfl, rfl⟩,
      ⟨hresponse.type, List.all_eq_true.mpr hresponse.answers⟩, hsigned, _, hjti, ?_, data, ⟨first, hfirst⟩, _, hsub,
      sub, rfl, aid, hparse, raw, hraw, hverified, rfl⟩
    rw [ht]
    exact (JsonValue.eq_str _ _).mpr ht
/-! ### Who presents a token to its issuer -/

/-- A response to a live challenge for the token, proven under the key in `sub`. -/
def PresentedByResponse (inp claims : Members) (now : Int) (presenter : JsonValue) : Prop :=
  ∃ env challenge sub data, PopResponse P inp env ∧
    (payloadOf env).get (txt "tct_jti") = claims.get (txt "jti") ∧
    LiveChallenge inp (claims.get (txt "jti")) ((payloadOf env).get (txt "nonce_echo")) now challenge ∧
    (challenge.get (txt "nonce")).b64urlDecode = .ok data ∧ SubProof P env claims sub data ∧ presenter = .str sub

/-- What the issuer establishes of a token it takes back from `presenter`. -/
structure TakenBack (inp : Members) (now : Int) (claims : Members) (presenter grants : JsonValue) : Prop where
  own : ∃ self token, inp.get? (txt "self_aid") = some (.str self) ∧ claims.get (txt "iss") = .str self ∧
    inp.get? (txt "tct_token") = some token ∧ SignedToken P token self tctTyp claims
  aud : claims.get (txt "aud") = presenter
  sub : claims.get (txt "sub") = presenter
  notSelf : claims.get (txt "iss") ≠ claims.get (txt "sub")
  live : now < (claims.get (txt "exp")).intValue
  bound : ∃ sub, parseAid P (claims.get (txt "sub")).text = .ok sub ∧
    (claims.get (txt "cnf")).members.get (txt "jkt") = .str (thumbprint P sub)
  granted : claims.get (txt "grants") = grants
  source : inp.get (txt "envelope") = .null ∧ inp.get (txt "channel_bound_aid") = presenter ∨
    inp.get (txt "envelope") ≠ .null ∧ PresentedByResponse P inp claims now presenter

/-- An examined entry is an outstanding live challenge. -/
theorem Examined.challenge {inp : Members} {jti nonce : Text} {now : Int} {first : JsonValue} {data : Bytes}
    (h : Examined inp (.str jti) (.str nonce) now first data) :
    ∃ challenge, first = .dict challenge ∧ LiveChallenge inp (.str jti) (.str nonce) now challenge := by
  obtain ⟨items, ho, hfirst⟩ := h.found
  obtain ⟨hm, challenge, rfl, hjti, hnonce⟩ := mem_matchingChallenges.mp (List.mem_of_head? hfirst)
  exact ⟨challenge, rfl, ⟨items, ho, hm⟩, hjti, hnonce, h.live⟩

/-- A presenter comes from a response when there is one, else from the channel. -/
theorem presenterOf_source {inp claims : Members} {now : Int} {presenter : JsonValue}
    (h : presenterOf P inp claims now = .ok presenter) :
    inp.get (txt "envelope") = .null ∧ inp.get (txt "channel_bound_aid") = presenter ∧ presenter ≠ .null ∨
      inp.get (txt "envelope") ≠ .null ∧ PresentedByResponse P inp claims now presenter := by
  have hnull (value : JsonValue) : (!value.isNull) = true ↔ value ≠ .null := by
    cases value <;> simp [JsonValue.isNull]
  simp only [presenterOf, hnull] at h
  split at h
  · rename_i hpresent
    obtain ⟨sub, hsub, hresult⟩ := bind_eq_ok.mp h
    obtain rfl := Except.ok.inj hresult
    obtain ⟨env, first, data, hresponse, hjti, hfirst, hproof⟩ := (presenterFromPop_eq_ok P).mp hsub
    obtain ⟨jti, hnames⟩ := hresponse.str P (k := txt "tct_jti") (by simp [popResponseFields])
    obtain ⟨nonce, hecho⟩ := hresponse.str P (k := txt "nonce_echo") (by simp [popResponseFields])
    rw [hnames, hecho] at hfirst
    obtain ⟨challenge, rfl, hlive⟩ := hfirst.challenge
    have hclaim : claims.get (txt "jti") = .str jti := by rw [Members.get_of_get? hjti, hnames]
    refine .inr ⟨hpresent, env, challenge, sub, data, hresponse, ?_, ?_, hfirst.decoded, hproof, rfl⟩
    · rw [hnames, hclaim]
    · rw [hclaim, hecho]
      exact hlive
  · rename_i habsent
    split at h
    · rename_i hchannel
      obtain rfl := Except.ok.inj h
      exact .inl ⟨not_not.mp habsent, rfl, hchannel⟩
    · cases h

/-- What the issuer takes back is its own live grant, from the peer in `sub` as a live
challenge or a channel proves it. A bare token is never taken. -/
theorem verifyTctAsIssuer_presenter (inp : Members) (now : Int) :
    (∀ r, verifyTctAsIssuer P inp now = .ok r → ∃ claims presenter grants,
        r = [(txt "presenter_aid", presenter), (txt "grants", grants)] ∧
          TakenBack P inp now claims presenter grants) ∧
      (inp.get (txt "envelope") = .null → inp.get (txt "channel_bound_aid") = .null →
        ∀ r, verifyTctAsIssuer P inp now ≠ .ok r) := by
  constructor
  · intro r hr
    obtain ⟨claims, ha, rfl⟩ := (verifyTctAsIssuer_eq_ok P).mp hr
    obtain ⟨token, htoken, self, hself, hsigned⟩ := ha.signed
    refine ⟨claims, _, _, rfl, ⟨self, token, ?_, hself, htoken, hsigned⟩, ha.aud, rfl, ha.grant.notSelf, ha.grant.live,
      ha.grant.bound, rfl, ?_⟩
    · rw [ha.issuer, hself]
    · rcases presenterOf_source P ha.presenter with ⟨henv, hchannel, _⟩ | hresponse
      · exact .inl ⟨henv, hchannel⟩
      · exact .inr hresponse
  · intro henv hchannel r hr
    obtain ⟨claims, ha, _⟩ := (verifyTctAsIssuer_eq_ok P).mp hr
    rcases presenterOf_source P ha.presenter with ⟨_, hbound, hpresent⟩ | ⟨hpresent, _⟩
    · exact hpresent (hbound.symm.trans hchannel)
    · exact hpresent henv

/-! ### A recorded response: agent B answers agent A -/

def popByB : Text :=
  txt "ssZyt5Gk_Cr7pcy01qnhyVyE-D6ljPRy--Dy-eSA" ++
    txt "9zoxxw3ifr2JQlEVIJtHzTVPFVm7JKdYCGvv7mKt" ++ txt "d80FDg"

/-- Agent B's signature over its response. -/
def responseSignature : Text :=
  txt "z4muuQk8d64MyBgIN6GJwcw_TbqBcyDtkN7WHbsa" ++
    txt "Pk8aI8UmG5orswURdsloweLbZAaQF8zruWX3zKza" ++ txt "NpAWDA"

def responseDigest : Text := txt "yI-faAwAhUlNn51egk5SSmK4" ++ txt "_gsA9Mq_n9pO3FjUOAM"

def grantJti : Text := txt "0b7e8a52-4c1d-4e3f-9a6b-2d5c8f1e7a90"

def popResponse : Members :=
  [(txt "version", .str protocolVersion), (txt "message_type", .str (txt "pop_response")),
    (txt "message_id", .str (txt "9e2d7c41-6b3a-4f8e-a1d5-7c0b2e4f6a83")), (txt "timestamp", .int referenceClock),
    (txt "sender", .dict [(txt "agent_id", .str (aidOf agentB))]),
    (txt "payload", .dict [(txt "tct_jti", .str grantJti), (txt "nonce_echo", .str commitNonce),
      (txt "pop_signature", .str popByB)]),
    (txt "signature", .str responseSignature)]

def responseRecording : Recording where
  digests := [recordedThumbprint agentB thumbprintB, (octetsOf commitNonce, commitNonceDigest),
    (octetsFrom (envelopeSigningInput popResponse), responseDigest)]
  signatures := [grantRecorded, ⟨agentB, popByB, octetsOf commitNonceDigest⟩,
    ⟨agentB, responseSignature, octetsOf responseDigest⟩]

/-- The challenge agent A sent agent B, until `expiry`. -/
def challengeUntil (expiry : JsonValue) : JsonValue :=
  .dict [(txt "tct_jti", .str grantJti), (txt "nonce", .str commitNonce), (txt "expires_at", expiry)]

/-- Agent A's call, with the challenges it has outstanding. -/
def responseInput (challenges : List JsonValue) : Members :=
  [(txt "tct_token", grantToken), (txt "self_aid", .str (aidOf agentA)), (txt "envelope", .dict popResponse),
    (txt "outstanding_pop_challenges", .list challenges), (txt "policy", .dict [(txt "fail_mode", .str (txt "fail_open"))])]

theorem verifyTctAsIssuer_presenter_answered : ∃ claims presenter grants,
    ([(txt "presenter_aid", .str (aidOf agentB)), (txt "grants", .list [.str (txt "read")])] : Members) =
        [(txt "presenter_aid", presenter), (txt "grants", grants)] ∧
      TakenBack responseRecording.platform (responseInput [challengeUntil (.int (referenceClock + 60))]) referenceClock
        claims presenter grants :=
  (verifyTctAsIssuer_presenter responseRecording.platform (responseInput [challengeUntil (.int (referenceClock + 60))])
    referenceClock).1 _ (by decide +kernel)

/-! ### Which outstanding challenge counts -/

/-- All a response needs apart from the challenge it answers. -/
structure ValidAnswer (inp claims env : Members) : Prop where
  response : PopResponse P inp env
  names : claims.get? (txt "jti") = some ((payloadOf env).get (txt "tct_jti"))
  proven : ∃ sub data, ((payloadOf env).get (txt "nonce_echo")).b64urlDecode = .ok data ∧ SubProof P env claims sub data

/-- The first entry for the token and the nonce has an integer expiry ahead. -/
def FirstMatchLive (challenges : List JsonValue) (jti nonce : JsonValue) (now : Int) : Prop :=
  ∀ first, (matchingChallenges challenges jti nonce).head? = some first →
    ∃ expiry, first.members.get (txt "expires_at") = .int expiry ∧ now < expiry

/-- A valid answer to some live challenge is accepted exactly when the first entry for
its token and nonce is live: the lookup goes no further. -/
theorem presenterFromPop_live_iff (inp claims env : Members) (challenges : List JsonValue) (now : Int)
    (ho : inp.get (txt "outstanding_pop_challenges") = .list challenges) (h : ValidAnswer P inp claims env)
    (hlive : ∃ challenge, LiveChallenge inp ((payloadOf env).get (txt "tct_jti"))
      ((payloadOf env).get (txt "nonce_echo")) now challenge) :
    (∃ sub, presenterFromPop P inp claims now = .ok sub) ↔
      FirstMatchLive challenges ((payloadOf env).get (txt "tct_jti")) ((payloadOf env).get (txt "nonce_echo")) now := by
  obtain ⟨jti, hnames⟩ := h.response.str P (k := txt "tct_jti") (by simp [popResponseFields])
  obtain ⟨nonce, hecho⟩ := h.response.str P (k := txt "nonce_echo") (by simp [popResponseFields])
  constructor
  · rintro ⟨sub, hsub⟩ first hfirst
    obtain ⟨found, examined, data, hresponse, _, hexamined, _⟩ := (presenterFromPop_eq_ok P).mp hsub
    obtain rfl := JsonValue.dict.inj (hresponse.envelope.symm.trans h.response.envelope)
    obtain ⟨items, hitems, hhead⟩ := hexamined.found
    obtain rfl := JsonValue.list.inj (hitems.symm.trans ho)
    obtain rfl := Option.some.inj (hhead.symm.trans hfirst)
    exact hexamined.live
  · intro hfirst
    obtain ⟨sub, data, hdata, hproof⟩ := h.proven
    obtain ⟨challenge, ⟨items, hitems, hm⟩, hjti, hnonce, _⟩ := hlive
    obtain rfl := JsonValue.list.inj (hitems.symm.trans ho)
    rw [hnames] at hjti
    rw [hecho] at hnonce
    -- the live entry is a match, so there is a first one, and its nonce is the echoed one
    have hmatch : JsonValue.dict challenge ∈ matchingChallenges items (.str jti) (.str nonce) :=
      mem_matchingChallenges.mpr ⟨hm, challenge, rfl, hjti, hnonce⟩
    obtain ⟨first, hhead⟩ : ∃ first, (matchingChallenges items (.str jti) (.str nonce)).head? = some first := by
      cases hl : matchingChallenges items (.str jti) (.str nonce) with
      | nil =>
        rw [hl] at hmatch
        cases hmatch
      | cons first rest => exact ⟨first, rfl⟩
    obtain ⟨_, other, rfl, _, hother⟩ := mem_matchingChallenges.mp (List.mem_of_head? hhead)
    rw [hnames, hecho] at hfirst
    refine ⟨sub, (presenterFromPop_eq_ok P).mpr ⟨env, .dict other, data, h.response, h.names, ?_, hproof⟩⟩
    rw [hnames, hecho]
    refine ⟨⟨items, ho, hhead⟩, hfirst _ hhead, ?_⟩
    rw [JsonValue.members, hother, ← hecho]
    exact hdata

theorem ValidAnswer.of_accepted {inp claims env : Members} {now : Int} {sub : Text}
    (henv : inp.get (txt "envelope") = .dict env) (h : presenterFromPop P inp claims now = .ok sub) :
    ValidAnswer P inp claims env := by
  obtain ⟨found, first, data, hresponse, hjti, hfirst, hproof⟩ := (presenterFromPop_eq_ok P).mp h
  obtain rfl := JsonValue.dict.inj (hresponse.envelope.symm.trans henv)
  obtain ⟨jti, hnames⟩ := hresponse.str P (k := txt "tct_jti") (by simp [popResponseFields])
  obtain ⟨nonce, hecho⟩ := hresponse.str P (k := txt "nonce_echo") (by simp [popResponseFields])
  refine ⟨hresponse, hjti, sub, data, ?_, hproof⟩
  have hdecoded := hfirst.decoded
  rw [hnames, hecho] at hfirst
  obtain ⟨challenge, rfl, hlive⟩ := hfirst.challenge
  rw [JsonValue.members, hlive.nonce] at hdecoded
  rw [hecho]
  exact hdecoded

/-- A challenge that expired a second ago, and the same one sent again. -/
def expiredFirst : List JsonValue :=
  [challengeUntil (.int (referenceClock - 1)), challengeUntil (.int (referenceClock + 60))]

def liveFirst : List JsonValue := expiredFirst.reverse

theorem popResponse_valid (challenges : List JsonValue) :
    ValidAnswer responseRecording.platform (responseInput challenges) grantClaims popResponse := by
  have haccepted : presenterFromPop responseRecording.platform (responseInput liveFirst) grantClaims referenceClock =
      .ok (aidOf agentB) := by
    decide +kernel
  obtain ⟨hresponse, hnames, hproven⟩ := ValidAnswer.of_accepted responseRecording.platform rfl haccepted
  exact ⟨⟨rfl, hresponse.shape, hresponse.type, hresponse.answers, hresponse.authentic⟩, hnames, hproven⟩

theorem live_outstanding {challenges : List JsonValue}
    (h : challengeUntil (.int (referenceClock + 60)) ∈ challenges) :
    ∃ challenge, LiveChallenge (responseInput challenges) (.str grantJti) (.str commitNonce) referenceClock challenge :=
  ⟨_, ⟨challenges, rfl, h⟩, rfl, rfl, referenceClock + 60, rfl, by decide⟩

theorem presenterFromPop_live_recorded :
    (∃ sub, presenterFromPop responseRecording.platform (responseInput liveFirst) grantClaims referenceClock = .ok sub) ↔
      FirstMatchLive liveFirst (.str grantJti) (.str commitNonce) referenceClock :=
  presenterFromPop_live_iff responseRecording.platform (responseInput liveFirst) grantClaims popResponse liveFirst
    referenceClock rfl (popResponse_valid liveFirst) (live_outstanding (by decide))

/-- The expired entry shadows the live one: a valid answer to it is refused. -/
theorem presenterFromPop_shadowed :
    ValidAnswer responseRecording.platform (responseInput expiredFirst) grantClaims popResponse ∧
      (∃ challenge, LiveChallenge (responseInput expiredFirst) (.str grantJti) (.str commitNonce) referenceClock
        challenge) ∧
      ¬ ∃ sub, presenterFromPop responseRecording.platform (responseInput expiredFirst) grantClaims referenceClock =
        .ok sub := by
  refine ⟨popResponse_valid expiredFirst, live_outstanding (by decide), ?_⟩
  have hrefused : (presenterFromPop responseRecording.platform (responseInput expiredFirst) grantClaims
      referenceClock).isOk = false := by
    decide +kernel
  rintro ⟨sub, hsub⟩
  rw [hsub] at hrefused
  cases hrefused

end AitpVerifier
