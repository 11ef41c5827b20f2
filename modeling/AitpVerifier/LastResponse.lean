import AitpVerifier.Adapter
import AitpVerifier.EnvelopeLeaks
import AitpVerifier.Presenter

/-!
# Only the last response counts

A presenter that answered its challenge stays in force until the next fixture, the next
answer, or a response the adapter refuses. An exception the response check does not name
leaves the earlier presenter where it was.
-/
namespace AitpVerifier

open PyText Checked

variable (P : Platform)

/-! ### What leaves the response check -/

/-- An exception that is neither the package's own nor a `ValueError`. -/
def Stray (e : PyErr) : Prop := ¬ Coded e ∧ ¬ IsValueError e

theorem not_stray_of_coded {e : PyErr} (h : Coded e) : ¬ Stray e := fun hs => hs.1 h

theorem not_stray_of_value {e : PyErr} (h : IsValueError e) : ¬ Stray e := fun hs => hs.2 h

theorem not_stray_aitpError {code : String} {message : Text} : ¬ Stray (AitpError code message) := not_stray_of_coded coded_aitpError

/-- A refusal strays where wording it does. -/
theorem throws_worded {c : Bool} {x : PyM Text} {code : String} {message : Text → Text} :
    Throws Stray (raiseWith c (x >>= fun text => .ok (AitpError code (message text)))) ↔ c = true ∧ Throws Stray x := by
  cases c with
  | false => exact iff_of_false not_throws_ok fun h => Bool.false_ne_true h.1
  | true =>
    rw [raiseWith, if_pos rfl, and_iff_right rfl]
    cases x with
    | ok text => exact iff_of_false (fun h => not_stray_aitpError (throws_error.mp h)) not_throws_ok
    | error e => rw [error_bind, error_bind, throws_error, throws_error]

theorem checkEnvelopeGrammar_not_stray {env : Members} : FailsWith (fun e => ¬ Stray e) (checkEnvelopeGrammar P env) := by
  refine FailsWith.bind ?_ fun _ _ => .raiseIf not_stray_aitpError
  rw [← not_throws_iff, throws_worded]
  rintro ⟨hnegative, hstray⟩
  cases hts : env.get (txt "timestamp") with
  | int i =>
    have hdigits : ¬ Stray tooManyDigits := not_stray_of_value rfl
    rw [hts, Interpreter.toStr, Interpreter.repr, Interpreter.reprWithin] at hstray
    · exact not_throws_iff.mpr (FailsWith.bind (.raiseIf hdigits) fun _ _ => .ok) hstray
    · simp
  | float f =>
    rw [hts, Interpreter.toStr, Interpreter.repr, Interpreter.reprWithin] at hstray
    · exact not_throws_ok hstray
    · simp
  | _ =>
    rw [hts] at hnegative
    cases hnegative

/-- A version that is not the protocol's and whose `repr` exhausts the stack. -/
def Unshown (env : Members) : Prop := env.get (txt "version") ≠ .str protocolVersion ∧ Throws Stray (P.repr (env.get (txt "version")))

theorem throws_validateEnvelopeShape {value : JsonValue} :
    Throws Stray (validateEnvelopeShape P value) ↔ ∃ env, value = .dict env ∧ Unshown P env := by
  cases value with
  | dict env =>
    have hcoded {x : PyM Unit} (hx : FailsWith Coded x) : FailsWith (fun e => ¬ Stray e) x :=
      hx.mono fun _ => not_stray_of_coded
    have hrest (_ : Unit) : FailsWith (fun e => ¬ Stray e) (requireMembers P env requiredEnvelopeFields "INVALID_ENVELOPE" (txt "envelope") >>=
        fun _ => checkTypes env envelopeTypes "INVALID_ENVELOPE" (txt "envelope") >>= fun _ =>
        rejectUnknownFields P (.dict env) envelopeFields "INVALID_ENVELOPE" (txt "envelope") >>= fun _ =>
        checkEnvelopeGrammar P env >>= fun _ =>
        checkSenderShape P (Members.get env (txt "sender")).members >>= fun _ => .ok env) :=
      (hcoded (requireMembers_coded P)).bind fun _ _ => (hcoded checkTypes_coded).bind fun _ _ =>
        (hcoded (rejectUnknownFields_coded P)).bind fun _ _ => (checkEnvelopeGrammar_not_stray P).bind fun _ _ =>
          (hcoded (checkSenderShape_coded P)).bind fun _ _ => .ok
    rw [validateEnvelopeShape, throws_bind_left fun _ _ => hrest (), checkEnvelopeVersion, throws_worded]
    simp only [JsonValue.dict.injEq, exists_eq_left', Unshown, Bool.not_eq_true', Bool.eq_false_iff, ne_eq, JsonValue.eq_str]
  | _ =>
    refine iff_of_false ?_ (by simp)
    rw [validateEnvelopeShape, throws_error]
    · exact not_stray_aitpError
    all_goals simp

theorem leaks_popEnvelope {inp : Members} :
    Leaks (popEnvelope P inp) ↔ ∃ env, inp.get (txt "envelope") = .dict env ∧ Unshown P env := by
  rw [← throws_validateEnvelopeShape]
  have hvalues (aid : Text) : FailsWith (fun e => ¬ Stray e) (parseAid P aid) :=
    (parseAid_valueErrors P aid).mono fun _ => not_stray_of_value
  have hinner := throws_bind_left (x := validateEnvelopeShape P (inp.get (txt "envelope"))) (p := Stray)
    (f := fun env => parseAid P (senderAgentId env).text >>= fun sender => .ok (env, sender)) fun env _ =>
      (hvalues _).bind fun _ _ => .ok
  rw [← hinner, popEnvelope]
  generalize (validateEnvelopeShape P (inp.get (txt "envelope")) >>= fun env =>
    parseAid P (senderAgentId env).text >>= fun sender => .ok (env, sender)) = x
  cases x with
  | ok => exact iff_of_false not_leaks_ok not_throws_ok
  | error e =>
    rw [throws_error]
    cases hhandled : e.code?.isSome || e.isValueError with
    | true =>
      refine iff_of_false ?_ fun h => ?_
      · rw [rescue, hhandled, if_pos rfl]
        exact fun h => leaks_error.mp h coded_aitpError
      · rcases Bool.or_eq_true_iff.mp hhandled with hcoded | hvalue
        · exact h.1 hcoded
        · exact h.2 hvalue
    | false =>
      obtain ⟨hcoded, hvalue⟩ := Bool.or_eq_false_iff.mp hhandled
      refine iff_of_true ?_ ⟨?_, ?_⟩
      · rw [rescue, hhandled, if_neg Bool.false_ne_true]
        exact leaks_error.mpr (by simp [Coded, hcoded])
      · simp [Coded, hcoded]
      · simp [IsValueError, hvalue]

/-- A shaped `pop_response` with its three strings, from a sender that parses. -/
structure ShapedResponse (inp env : Members) (sender : Aid) : Prop where
  envelope : inp.get (txt "envelope") = .dict env
  shape : EnvelopeShape env
  sender : parseAid P (senderAgentId env).text = .ok sender
  type : env.get (txt "message_type") = .str (txt "pop_response")
  answers : ∀ key ∈ popResponseFields, ((payloadOf env).get key).isStr

/-- A response whose check ends in an exception it does not name. -/
inductive ResponseEscapes (inp claims : Members) (now : Int) : Prop
  /-- The version is refused, and no message can show it. -/
  | unshown {env : Members} : inp.get (txt "envelope") = .dict env → Unshown P env → ResponseEscapes inp claims now
  /-- The signature decodes, and what it would be over cannot be serialized. -/
  | unserialized {env : Members} {sender : Aid} {raw : Bytes} : ShapedResponse P inp env sender →
      TaggedSignature (env.get (txt "signature")) sender.alg raw → ¬ Answers (.dict (env.without (txt "signature"))) →
      ResponseEscapes inp claims now
  /-- The response is authentic and the token has no `jti`. -/
  | untokened {env : Members} : PopResponse P inp env → claims.get? (txt "jti") = none → ResponseEscapes inp claims now
  /-- The response answers a live challenge for the token, whose `sub` is no identifier. -/
  | unidentified {env : Members} {first : JsonValue} {data : Bytes} : PopResponse P inp env →
      claims.get? (txt "jti") = some ((payloadOf env).get (txt "tct_jti")) →
      Examined inp ((payloadOf env).get (txt "tct_jti")) ((payloadOf env).get (txt "nonce_echo")) now first data →
      (∀ sub aid, claims.get? (txt "sub") = some (.str sub) → parseAid P sub ≠ .ok aid) → ResponseEscapes inp claims now

theorem leaks_index {obj : Members} {key : Text} : Leaks (obj.index key) ↔ obj.get? key = none := by
  rw [Members.index]
  cases obj.get? key with
  | none => exact iff_of_true (leaks_error.mpr Bool.false_ne_true) rfl
  | some value => exact iff_of_false not_leaks_ok (Option.some_ne_none value)

/-- The lookup of the challenge a string echoes only reports through the package. -/
theorem challengeNonce_coded {inp payload : Members} {challenges : List JsonValue} {jti nonce : Text} {now : Int}
    (ho : inp.get (txt "outstanding_pop_challenges") = .list challenges) (hecho : payload.get (txt "nonce_echo") = .str nonce) :
    FailsWith Coded (challengeNonce inp payload (.str jti) now) := by
  rw [challengeNonce_staged, outstandingChallenges_list ho, ok_bind, hecho]
  cases hfound : matchingChallenges challenges (.str jti) (.str nonce) with
  | nil => exact .error coded_aitpError
  | cons first rest =>
    obtain ⟨_, challenge, rfl, _, hnonce⟩ := mem_matchingChallenges.mp (hfound ▸ List.mem_cons_self)
    refine (FailsWith.raiseIf coded_aitpError).bind fun _ _ => ?_
    rw [JsonValue.members, hnonce]
    exact onValueError_coded (b64urlDecode_valueErrors nonce)

/-- What establishes the presenter once the challenge is found. -/
theorem leaks_subject {claims payload : Members} {data : Bytes} :
    Leaks (claims.index (txt "sub") >>= fun sub => sub.asText (txt "startswith") >>= fun text => parseAid P text >>= fun subAid =>
      decodeTaggedSignature P (payload.get (txt "pop_signature")) subAid "POP_RESPONSE_INVALID" >>= fun sig =>
      raiseIf (!verifyDigest P subAid.publicKey (P.sha256 data) sig)
        (popInvalid (txt "pop_signature does not verify under the sub key")) >>= fun _ => P.toStr sub) ↔
      ∀ sub aid, claims.get? (txt "sub") = some (.str sub) → parseAid P sub ≠ .ok aid := by
  rw [Members.index]
  cases hsub : claims.get? (txt "sub") with
  | none => exact iff_of_true (leaks_error.mpr Bool.false_ne_true) (by simp)
  | some value =>
    rw [ok_bind]
    cases value with
    | str sub =>
      rw [JsonValue.asText, ok_bind, leaks_bind_left, leaks_parseAid]
      · constructor
        · rintro hnone sub' aid heq
          obtain rfl := JsonValue.str.inj (Option.some.inj heq)
          exact hnone aid
        · exact fun hnone aid => hnone sub aid rfl
      · intro aid _
        exact (decodeTaggedSignature_coded P).bind fun _ _ => (FailsWith.raiseIf coded_aitpError).bind fun _ _ => .ok
    | _ => exact iff_of_true (leaks_error.mpr Bool.false_ne_true) (by simp)

theorem popEnvelope_eq_ok {inp env : Members} {sender : Aid} : popEnvelope P inp = .ok (env, sender) ↔
    inp.get (txt "envelope") = .dict env ∧ EnvelopeShape env ∧ parseAid P (senderAgentId env).text = .ok sender := by
  simp only [popEnvelope, rescue_eq_ok, bind_eq_ok, validateEnvelopeShape_eq_ok, Except.ok.injEq, Prod.mk.injEq]
  constructor
  · rintro ⟨_, ⟨henv, hshape⟩, _, hsender, rfl, rfl⟩
    exact ⟨henv, hshape, hsender⟩
  · rintro ⟨henv, hshape, hsender⟩
    exact ⟨env, ⟨henv, hshape⟩, sender, hsender, rfl, rfl⟩

theorem responseGuard_iff {env : Members} :
    (!(env.get (txt "message_type")).eq (.str (txt "pop_response")) ||
        !([txt "tct_jti", txt "nonce_echo", txt "pop_signature"].all fun k => ((env.get (txt "payload")).members.get k).isStr)) = false ↔
      env.get (txt "message_type") = .str (txt "pop_response") ∧ ∀ key ∈ popResponseFields, ((payloadOf env).get key).isStr := by
  rw [Bool.or_eq_false_iff, Bool.not_eq_false', Bool.not_eq_false', JsonValue.eq_str, List.all_eq_true]
  exact Iff.rfl

/-- What a response that is shaped right, and nothing else yet, escapes with. -/
theorem leaks_response {inp claims env : Members} {sender : Aid} {challenges : List JsonValue} {now : Int}
    (ho : inp.get (txt "outstanding_pop_challenges") = .list challenges) (h : ShapedResponse P inp env sender) :
    Leaks (verifyEnvelopeSignature P env sender "POP_RESPONSE_INVALID" (txt "pop_response envelope signature invalid") >>= fun _ =>
      claims.index (txt "jti") >>= fun jti =>
      raiseIf (!((payloadOf env).get (txt "tct_jti")).eq jti) (popInvalid (txt "pop_response names a different tct_jti")) >>= fun _ =>
      challengeNonce inp (payloadOf env) jti now >>= fun nonce =>
      claims.index (txt "sub") >>= fun sub => sub.asText (txt "startswith") >>= fun text => parseAid P text >>= fun subAid =>
      decodeTaggedSignature P ((payloadOf env).get (txt "pop_signature")) subAid "POP_RESPONSE_INVALID" >>= fun sig =>
      raiseIf (!verifyDigest P subAid.publicKey (P.sha256 nonce) sig)
        (popInvalid (txt "pop_signature does not verify under the sub key")) >>= fun _ => P.toStr sub) ↔
      ((∃ raw, TaggedSignature (env.get (txt "signature")) sender.alg raw) ∧ ¬ Answers (.dict (env.without (txt "signature")))) ∨
        EnvelopeSigned P env sender ∧ (claims.get? (txt "jti") = none ∨
          claims.get? (txt "jti") = some ((payloadOf env).get (txt "tct_jti")) ∧ ∃ first data,
            Examined inp ((payloadOf env).get (txt "tct_jti")) ((payloadOf env).get (txt "nonce_echo")) now first data ∧
            ∀ sub aid, claims.get? (txt "sub") = some (.str sub) → parseAid P sub ≠ .ok aid) := by
  obtain ⟨jti, hjti⟩ := JsonValue.isStr_iff.mp (h.answers (txt "tct_jti") (by simp [popResponseFields]))
  obtain ⟨nonce, hnonce⟩ := JsonValue.isStr_iff.mp (h.answers (txt "nonce_echo") (by simp [popResponseFields]))
  rw [leaks_bind, leaks_verifyEnvelopeSignature, exists_unit, verifyEnvelopeSignature_eq_ok, leaks_bind, leaks_index, hjti, hnonce]
  refine or_congr_right (and_congr_right fun _ => or_congr_right ?_)
  simp only [Members.index_eq_ok]
  constructor
  · rintro ⟨found, hfound, hleaks⟩
    obtain ⟨_, hnames, hleaks⟩ := (leaks_bind_right (.raiseIf coded_aitpError)).mp hleaks
    rw [raiseIf_eq_ok, Bool.not_eq_false', JsonValue.str_eq] at hnames
    subst hnames
    obtain ⟨data, hdata, hleaks⟩ := (leaks_bind_right (challengeNonce_coded ho hnonce)).mp hleaks
    obtain ⟨first, hfirst⟩ := challengeNonce_eq_ok.mp hdata
    rw [hnonce] at hfirst
    exact ⟨hfound, first, data, hfirst, (leaks_subject P).mp hleaks⟩
  · rintro ⟨hfound, first, data, hfirst, hnone⟩
    refine ⟨_, hfound, (leaks_bind_right (.raiseIf coded_aitpError)).mpr ⟨(), ?_, ?_⟩⟩
    · rw [raiseIf_eq_ok, Bool.not_eq_false', JsonValue.str_eq]
    · rw [← hnonce] at hfirst
      exact (leaks_bind_right (challengeNonce_coded ho hnonce)).mpr ⟨data, challengeNonce_eq_ok.mpr ⟨first, hfirst⟩,
        (leaks_subject P).mpr hnone⟩

theorem ShapedResponse.signed {inp env : Members} {sender : Aid} (h : ShapedResponse P inp env sender)
    (hsigned : EnvelopeSigned P env sender) : PopResponse P inp env :=
  ⟨h.envelope, h.shape, h.type, h.answers, sender, h.sender, hsigned⟩

theorem PopResponse.shaped {inp env : Members} (h : PopResponse P inp env) :
    ∃ sender, ShapedResponse P inp env sender ∧ EnvelopeSigned P env sender := by
  obtain ⟨sender, hsender, hsigned⟩ := h.authentic
  exact ⟨sender, ⟨h.envelope, h.shape, hsender, h.type, h.answers⟩, hsigned⟩

/-- The response check raises what it does not name exactly on these responses. -/
theorem leaks_presenterFromPop {inp claims : Members} {challenges : List JsonValue} {now : Int}
    (ho : inp.get (txt "outstanding_pop_challenges") = .list challenges) :
    Leaks (presenterFromPop P inp claims now) ↔ ResponseEscapes P inp claims now := by
  rw [presenterFromPop, leaks_bind, leaks_popEnvelope]
  simp only [Prod.exists, popEnvelope_eq_ok]
  have hrest (env : Members) (sender : Aid) (h : ShapedResponse P inp env sender) := @leaks_response P inp claims env sender challenges now ho h
  constructor
  · rintro (⟨env, henv, hunshown⟩ | ⟨env, sender, ⟨henv, hshape, hsender⟩, hleaks⟩)
    · exact .unshown henv hunshown
    · obtain ⟨_, hguard, hleaks⟩ := (leaks_bind_right (.raiseIf coded_aitpError)).mp hleaks
      obtain ⟨htype, hanswers⟩ := responseGuard_iff.mp (raiseIf_eq_ok.mp hguard)
      have hshaped : ShapedResponse P inp env sender := ⟨henv, hshape, hsender, htype, hanswers⟩
      rcases (hrest env sender hshaped).mp hleaks with ⟨⟨raw, hraw⟩, hno⟩ | ⟨hsigned, hnone | ⟨hfound, first, data, hfirst, hsub⟩⟩
      · exact .unserialized hshaped hraw hno
      · exact .untokened (hshaped.signed P hsigned) hnone
      · exact .unidentified (hshaped.signed P hsigned) hfound hfirst hsub
  · intro h
    cases h with
    | unshown henv hunshown => exact .inl ⟨_, henv, hunshown⟩
    | unserialized h hraw hno =>
      exact .inr ⟨_, _, ⟨h.envelope, h.shape, h.sender⟩, (leaks_bind_right (.raiseIf coded_aitpError)).mpr
        ⟨(), raiseIf_eq_ok.mpr (responseGuard_iff.mpr ⟨h.type, h.answers⟩), (hrest _ _ h).mpr (.inl ⟨⟨_, hraw⟩, hno⟩)⟩⟩
    | untokened h hnone =>
      obtain ⟨sender, hshaped, hsigned⟩ := h.shaped P
      exact .inr ⟨_, sender, ⟨hshaped.envelope, hshaped.shape, hshaped.sender⟩, (leaks_bind_right (.raiseIf coded_aitpError)).mpr
        ⟨(), raiseIf_eq_ok.mpr (responseGuard_iff.mpr ⟨h.type, h.answers⟩), (hrest _ _ hshaped).mpr (.inr ⟨hsigned, .inl hnone⟩)⟩⟩
    | unidentified h hfound hfirst hsub =>
      obtain ⟨sender, hshaped, hsigned⟩ := h.shaped P
      exact .inr ⟨_, sender, ⟨hshaped.envelope, hshaped.shape, hshaped.sender⟩, (leaks_bind_right (.raiseIf coded_aitpError)).mpr
        ⟨(), raiseIf_eq_ok.mpr (responseGuard_iff.mpr ⟨h.type, h.answers⟩),
          (hrest _ _ hshaped).mpr (.inr ⟨hsigned, .inr ⟨hfound, _, _, hfirst, hsub⟩⟩)⟩⟩

/-! ### A response produced -/

variable {D : Deployment}

/-- A refused response whose refusal the adapter does not take note of. -/
inductive Unseen (s : AdapterState) (request : Members) : Prop
  /-- The parameters are no object: nothing is checked. -/
  | unread : (∀ params, requestParams request ≠ .dict params) → Unseen s request
  /-- The check raises what it does not name. -/
  | escapes {params claims : Members} : requestParams request = .dict params → claimsOf P params = .ok claims →
      ResponseEscapes P (popInput s params) claims s.clock → Unseen s request

theorem claimsOf_ok (params : Members) : ∃ claims, claimsOf P params = .ok claims := by
  rw [claimsOf, unverifiedClaims]
  have hcoded : FailsWith Coded (parseCompact P (params.get (txt "tct_token")) "INVALID_TOKEN") := parseCompact_coded P
  cases hparsed : parseCompact P (params.get (txt "tct_token")) "INVALID_TOKEN" with
  | ok parsed => exact ⟨parsed.claims, rfl⟩
  | error e =>
    have he := hcoded e hparsed
    cases e with
    | aitp code message => exact ⟨[], rfl⟩
    | raised kind text => cases he

/-- How a response a presenter produces is answered. -/
theorem producePopResponse_of_claims {s : AdapterState} {params claims : Members} (h : claimsOf P params = .ok claims) :
    producePopResponse P s params = match presenterFromPop P (popInput s params) claims s.clock with
      | .ok presenter => .ok ((none, []), { s with popPresenter := some presenter })
      | .error (.aitp code message _) => .ok (reportError code message, { s with popPresenter := none })
      | .error e => .error e := by
  rw [producePopResponse, h, ok_bind]
  cases presenterFromPop P (popInput s params) claims s.clock with
  | ok presenter => rfl
  | error e => cases e <;> rfl

/-- A response the adapter takes note of leaves the presenter it proves, or none. -/
theorem handle_produce {s : AdapterState} {random : Bytes} {request : Members}
    (hop : request.get (txt "op") = .str (txt "produce_pop_response")) :
    (¬ Unseen P s request ∧ ((handle P D s random request).1.isOk = true ∧
        (∃ presenter, (handle P D s random request).2.popPresenter = some presenter) ∨
      (handle P D s random request).1.isOk = false ∧ (handle P D s random request).2.popPresenter = none)) ∨
    Unseen P s request ∧ (handle P D s random request).1.isOk = false ∧ (handle P D s random request).2 = s := by
  rcases exists_or_forall_not fun params => requestParams request = .dict params with ⟨params, hparams⟩ | hunread
  · obtain ⟨claims, hclaims⟩ := claimsOf_ok P params
    have hstep : sessionOps.lookup (txt "produce_pop_response") = some .producePopResponse := rfl
    rw [handle_dispatches P hop hparams, dispatch_session P hstep, runSession, SessionOp.run,
      producePopResponse_of_claims P hclaims]
    have hescapes : Unseen P s request ↔ Leaks (presenterFromPop P (popInput s params) claims s.clock) := by
      have ho : (popInput s params).get (txt "outstanding_pop_challenges") = .list s.challenges := rfl
      rw [leaks_presenterFromPop P ho]
      constructor
      · intro h
        cases h with
        | unread hunread => exact absurd hparams (hunread params)
        | escapes hfound hread hescapes =>
          obtain rfl := JsonValue.dict.inj (hparams.symm.trans hfound)
          obtain rfl := Except.ok.inj (hclaims.symm.trans hread)
          exact hescapes
      · exact .escapes hparams hclaims
    rw [hescapes]
    cases presenterFromPop P (popInput s params) claims s.clock with
    | ok presenter => exact .inl ⟨not_leaks_ok, .inl ⟨rfl, presenter, rfl⟩⟩
    | error e =>
      cases e with
      | aitp code message => exact .inl ⟨fun h => leaks_error.mp h rfl, .inr ⟨rfl, rfl⟩⟩
      | raised kind text => exact .inr ⟨leaks_error.mpr Bool.false_ne_true, rfl, rfl⟩
  · rw [handle_malformed P fun _ params _ => hunread params]
    exact .inr ⟨.unread hunread, rfl, rfl⟩

theorem verifyPopResponse_isOk {s : AdapterState} {rid : Text} :
    (respond rid (verifyPopResponse s)).isOk = true ↔ s.popPresenter ≠ none := by
  rw [verifyPopResponse]
  cases s.popPresenter with
  | none => exact iff_of_false Bool.false_ne_true fun h => h rfl
  | some presenter => exact iff_of_true rfl (Option.some_ne_none presenter)

/-- A verifier that answers ok found a presenter in force. -/
theorem handle_verify {s : AdapterState} {random : Bytes} {request : Members}
    (hop : request.get (txt "op") = .str (txt "verify_pop_response")) (h : (handle P D s random request).1.isOk = true) :
    s.popPresenter ≠ none := by
  rcases exists_or_forall_not fun params => requestParams request = .dict params with ⟨params, hparams⟩ | hunread
  · have hstep : sessionOps.lookup (txt "verify_pop_response") = some .verifyPopResponse := rfl
    rw [handle_dispatches P hop hparams, dispatch_session P hstep] at h
    exact verifyPopResponse_isOk.mp h
  · rw [handle_malformed P fun _ params _ => hunread params] at h
    cases h

/-! ### Histories -/

/-- A history in which only the last response of a fixture counts. -/
structure LastResponseCounts (history : List Exchange) : Prop where
  counted : ∀ earlier e later, history = earlier ++ e :: later → e.Requests (txt "verify_pop_response") → e.response.isOk = true →
    ∃ before produced between, earlier = before ++ produced :: between ∧
      produced.Requests (txt "produce_pop_response") ∧ produced.response.isOk = true ∧
      ∀ other ∈ between, ¬ other.Requests (txt "produce_pop_response") ∧ ¬ other.Begins
  dropped : ∀ e ∈ history, e.Requests (txt "produce_pop_response") → e.response.isOk = false → e.after.popPresenter = none

/-- No refusal goes unseen where an earlier presenter is in force. -/
def RefusalsSeen (history : List Exchange) : Prop :=
  ∀ e ∈ history, e.Requests (txt "produce_pop_response") → e.before.popPresenter ≠ none → ¬ Unseen P e.before e.request

theorem exchange_produce {s : AdapterState} {arrival : Arrival}
    (h : (exchange P D s arrival).Requests (txt "produce_pop_response")) :
    (¬ Unseen P s arrival.1 ∧ ((exchange P D s arrival).response.isOk = true ∧
        (∃ presenter, (exchange P D s arrival).after.popPresenter = some presenter) ∨
      (exchange P D s arrival).response.isOk = false ∧ (exchange P D s arrival).after.popPresenter = none)) ∨
    Unseen P s arrival.1 ∧ (exchange P D s arrival).response.isOk = false ∧ (exchange P D s arrival).after = s :=
  handle_produce P h

/-- A presenter in force was proven by the last response, in the current fixture. -/
theorem presenter_proven {s : AdapterState} (hs : s.popPresenter = none) (arrivals : List Arrival)
    (hseen : RefusalsSeen P (exchanges P D s arrivals)) (hforce : (afterAll P D s arrivals).popPresenter ≠ none) :
    ∃ before produced between, exchanges P D s arrivals = before ++ produced :: between ∧
      produced.Requests (txt "produce_pop_response") ∧ produced.response.isOk = true ∧
      ∀ other ∈ between, ¬ other.Requests (txt "produce_pop_response") ∧ ¬ other.Begins := by
  induction arrivals using List.reverseRecOn with
  | nil => exact absurd hs hforce
  | append_singleton arrivals last ih =>
    rw [exchanges_append] at hseen ⊢
    rw [afterAll_append, afterAll, afterAll] at hforce
    have hhere := hseen (exchange P D (afterAll P D s arrivals) last) (List.mem_append_right _ List.mem_cons_self)
    by_cases hproduce : (exchange P D (afterAll P D s arrivals) last).Requests (txt "produce_pop_response")
    · refine ⟨_, _, [], rfl, hproduce, ?_, List.forall_mem_nil _⟩
      rcases exchange_produce P hproduce with ⟨_, ⟨hok, _⟩ | ⟨_, hnone⟩⟩ | ⟨hunseen, _, hsame⟩
      · exact hok
      · exact absurd hnone hforce
      · -- the refusal left the state alone, so the presenter in force was there before it
        refine absurd hunseen (hhere hproduce ?_)
        rw [← hsame]
        exact hforce
    · have hbegin : ¬ (exchange P D (afterAll P D s arrivals) last).Begins := fun h =>
        hforce (by rw [exchange_begins P h, AdapterState.beginFixture])
      have hbefore : (afterAll P D s arrivals).popPresenter ≠ none := by
        rw [← (exchange_keeps P D hbegin).presenter hproduce]
        exact hforce
      obtain ⟨before, produced, between, hsplit, hop, hok, hbetween⟩ :=
        ih (fun e he => hseen e (List.mem_append_left _ he)) hbefore
      refine ⟨before, produced, between ++ [exchange P D (afterAll P D s arrivals) last], ?_, hop, hok, ?_⟩
      · rw [hsplit, List.append_assoc, List.cons_append, exchanges, exchanges]
      · rw [List.forall_mem_append, List.forall_mem_singleton]
        exact ⟨hbetween, hproduce, hbegin⟩

/-- Only the last response counts exactly while every refusal that meets an earlier
presenter is one the adapter sees. -/
theorem lastResponse_iff (keys : Option KatKeys) (arrivals : List Arrival) :
    LastResponseCounts (exchanges P D (AdapterState.start keys) arrivals) ↔
      RefusalsSeen P (exchanges P D (AdapterState.start keys) arrivals) := by
  constructor
  · intro h e he hproduce hforce hunseen
    obtain ⟨earlier, later, hsplit⟩ := List.append_of_mem he
    obtain ⟨first, arrival, rest, _, _, rfl⟩ := exchanges_split P D hsplit
    rcases exchange_produce P hproduce with ⟨hseen, _⟩ | ⟨_, hrefused, hsame⟩
    · exact hseen hunseen
    · have hnone := h.dropped _ he hproduce hrefused
      rw [hsame] at hnone
      exact hforce hnone
  · intro hseen
    constructor
    · intro earlier e later hsplit hverify hok
      obtain ⟨first, arrival, rest, rfl, rfl, rfl⟩ := exchanges_split P D hsplit
      refine presenter_proven P rfl first ?_ (handle_verify P hverify hok)
      intro e he
      refine hseen e ?_
      rw [exchanges_append]
      exact List.mem_append_left _ he
    · intro e he hproduce hrefused
      obtain ⟨earlier, later, hsplit⟩ := List.append_of_mem he
      obtain ⟨first, arrival, rest, _, _, rfl⟩ := exchanges_split P D hsplit
      rcases exchange_produce P hproduce with ⟨_, ⟨hok, _⟩ | ⟨_, hnone⟩⟩ | ⟨hunseen, _, hsame⟩
      · exact absurd (hok.symm.trans hrefused) Bool.noConfusion
      · exact hnone
      · refine Classical.byContradiction fun hforce => hseen _ he hproduce ?_ hunseen
        rw [hsame] at hforce
        exact hforce

/-! ### A response refused and forgotten -/

/-- Agent B answers its challenge, then sends the answer again without the token. -/
def responseForgotten : List Arrival :=
  [asks (txt "issue_pop_challenge") [(txt "tct_token", grantToken),
      (txt "envelope", .dict [(txt "payload", .dict [(txt "nonce", .str commitNonce)])])],
    asks (txt "produce_pop_response") [(txt "tct_token", grantToken), (txt "envelope", .dict popResponse)],
    asks (txt "produce_pop_response") [(txt "envelope", .dict popResponse)],
    asks (txt "verify_pop_response") []]

/-- Without a token there is no `jti` to compare: the second answer is refused, and the
first stays in force. -/
theorem responseForgotten_stands :
    (responses responseRecording.platform installed (AdapterState.start (some [])) responseForgotten).map Response.isOk =
        [true, true, false, true] ∧
      ¬ LastResponseCounts (exchanges responseRecording.platform installed (AdapterState.start (some [])) responseForgotten) := by
  refine ⟨by decide +kernel, fun h => ?_⟩
  have hthird : (exchanges responseRecording.platform installed (AdapterState.start (some [])) responseForgotten)[2]?.map
      (fun e => (e.request.get (txt "op"), e.response.isOk, e.after.popPresenter)) =
        some (.str (txt "produce_pop_response"), false, some (aidOf agentB)) := by
    decide +kernel
  obtain ⟨e, he, hshows⟩ := Option.map_eq_some_iff.mp hthird
  obtain ⟨hop, hanswer⟩ := Prod.mk.inj hshows
  obtain ⟨hrefused, hforce⟩ := Prod.mk.inj hanswer
  have hnone := h.dropped e (List.mem_of_getElem? he) hop hrefused
  rw [hnone] at hforce
  cases hforce

end AitpVerifier
