import AitpVerifier.TokenLeaks

/-!
# What leaves envelope verification

The version step words its refusal of any value, the grammar step that of a timestamp,
the signature step serializes the rest of the envelope, and the capability step searches
whatever a token calls its grants. Each can raise more than the package's own error.
-/
namespace AitpVerifier

open PyText Checked

/-! ### What `repr` renders -/

/-- A value `repr` renders with `room` levels of containers left before the stack is
exhausted: none too deep, no integer too long. -/
def shownWithin : Nat → JsonValue → Bool
  | _, .null => true
  | _, .bool _ => true
  | _, .int i => decide ((decimal i.natAbs).length ≤ maxIntDigits)
  | _, .float _ => true
  | _, .str _ => true
  | 0, .list _ | 0, .dict _ => false
  | room + 1, .list items => items.all (shownWithin room)
  | room + 1, .dict members => members.all fun m => shownWithin room m.2

theorem intText_isOk (i : Int) : (intText i).isOk = decide ((decimal i.natAbs).length ≤ maxIntDigits) := by
  by_cases h : (decimal i.natAbs).length ≤ maxIntDigits
  · obtain ⟨text, ht⟩ := intText_ok h
    rw [ht, decide_eq_true h]
    rfl
  · have hover : decide (maxIntDigits < (decimal i.natAbs).length) = true := decide_eq_true (by omega)
    rw [intText, hover, decide_eq_false h]
    rfl

theorem reprWithin_isOk (I : Interpreter) (room : Nat) (value : JsonValue) :
    (I.reprWithin room value).isOk = shownWithin room value := by
  induction room generalizing value with
  | zero =>
    cases value with
    | int i => simpa only [Interpreter.reprWithin, shownWithin] using intText_isOk i
    | _ => simp only [Interpreter.reprWithin, shownWithin, Except.isOk, Except.toBool]
  | succ room ih =>
    cases value with
    | int i => simpa only [Interpreter.reprWithin, shownWithin] using intText_isOk i
    | list items =>
      simp only [Interpreter.reprWithin, shownWithin]
      rw [map_isOk, collect_isOk]
      simp only [ih]
    | dict members =>
      simp only [Interpreter.reprWithin, shownWithin]
      rw [map_isOk, collect_isOk]
      simp only [map_isOk, ih]
    | _ => simp only [Interpreter.reprWithin, shownWithin, Except.isOk, Except.toBool]

variable (P : Platform)

theorem leaks_repr {value : JsonValue} : Leaks (P.repr value) ↔ shownWithin P.reprDepth value = false := by
  rw [← reprWithin_isOk P.toInterpreter, Bool.eq_false_iff, Ne, isOk_iff, not_exists]
  have h := @toStr_leaks P value
  cases value with
  | str s =>
    rw [repr_str]
    exact iff_of_false not_leaks_ok fun h => h _ (repr_str P s)
  | _ => exact h

/-! ### The steps -/

/-- A refusal leaks where wording it does. -/
theorem leaks_worded {c : Bool} {x : PyM Text} {code : String} {message : Text → Text} :
    Leaks (raiseWith c (x >>= fun text => .ok (AitpError code (message text)))) ↔ c = true ∧ Leaks x := by
  cases c with
  | false => exact iff_of_false not_leaks_ok fun h => Bool.false_ne_true h.1
  | true =>
    rw [raiseWith, if_pos rfl, leaks_bind, leaks_bind_left fun _ _ => FailsWith.ok, and_iff_right rfl]
    refine or_iff_left ?_
    rintro ⟨e, he, hleaks⟩
    obtain ⟨text, _, hmessage⟩ := bind_eq_ok.mp he
    rw [← Except.ok.inj hmessage, leaks_error] at hleaks
    exact hleaks coded_aitpError

theorem leaks_checkEnvelopeVersion {env : Members} :
    Leaks (checkEnvelopeVersion P env) ↔
      env.get (txt "version") ≠ .str protocolVersion ∧ shownWithin P.reprDepth (env.get (txt "version")) = false := by
  rw [checkEnvelopeVersion, leaks_worded, leaks_repr, Bool.not_eq_true', Bool.eq_false_iff, Ne, JsonValue.eq_str]

/-- A negative integer with too many digits to be written out. -/
def OverlongNegative (value : JsonValue) : Prop :=
  ∃ i, value = .int i ∧ i < 0 ∧ maxIntDigits < (decimal i.natAbs).length

theorem leaks_checkEnvelopeGrammar {env : Members} (h : (env.get (txt "timestamp")).admits .int) :
    Leaks (checkEnvelopeGrammar P env) ↔ OverlongNegative (env.get (txt "timestamp")) := by
  rw [checkEnvelopeGrammar, leaks_bind_left fun _ _ => FailsWith.raiseIf coded_aitpError, leaks_worded]
  cases hts : env.get (txt "timestamp") with
  | int i =>
    rw [Interpreter.toStr.eq_def, leaks_repr, ← reprWithin_isOk P.toInterpreter]
    simp only [JsonValue.ltInt, Interpreter.reprWithin, intText_isOk, OverlongNegative, JsonValue.int.injEq,
      exists_eq_left', decide_eq_true_eq, decide_eq_false_iff_not, not_le]
  | float f =>
    refine iff_of_false ?_ ?_
    · rintro ⟨_, hleaks⟩
      simp [Interpreter.toStr, Interpreter.repr, Interpreter.reprWithin, Leaks] at hleaks
    · rintro ⟨_, hint, _⟩
      cases hint
  | _ =>
    rw [hts] at h
    cases h

/-- The version step refuses what it cannot render, or the shape gets as far as a
timestamp that cannot be written out. -/
def ShapeLeaks (env : Members) : Prop :=
  env.get (txt "version") ≠ .str protocolVersion ∧ shownWithin P.reprDepth (env.get (txt "version")) = false ∨
    env.get (txt "version") = .str protocolVersion ∧ Shaped env requiredEnvelopeFields envelopeTypes ∧
      (∀ key ∈ env.names, key ∈ envelopeFields) ∧ OverlongNegative (env.get (txt "timestamp"))

theorem checkSenderShape_coded {sender : Members} : FailsWith Coded (checkSenderShape P sender) :=
  (requireMembers_coded P).bind fun _ _ => checkTypes_coded.bind fun _ _ => rejectUnknownFields_coded P

theorem leaks_validateEnvelopeShape {env : Members} :
    Leaks (validateEnvelopeShape P (.dict env)) ↔ ShapeLeaks P env := by
  rw [validateEnvelopeShape, leaks_bind, leaks_checkEnvelopeVersion, ShapeLeaks]
  refine or_congr_right ?_
  rw [exists_unit, leaks_bind_right (requireMembers_coded P), exists_unit, leaks_bind_right checkTypes_coded, exists_unit,
    leaks_bind_right (rejectUnknownFields_coded P), exists_unit,
    leaks_bind_left fun _ _ => (checkSenderShape_coded P).bind fun _ _ => .ok]
  simp only [checkEnvelopeVersion, raiseWith_eq_ok, Bool.not_eq_false', JsonValue.eq_str, requireMembers_eq_ok,
    checkTypes_eq_ok, rejectUnknownFields_eq_ok, JsonValue.dict.injEq, exists_eq_left']
  refine and_congr_right fun _ => ?_
  constructor
  · rintro ⟨hr, ht, hk, hleaks⟩
    have hshaped : Shaped env requiredEnvelopeFields envelopeTypes := ⟨hr, ht⟩
    refine ⟨hshaped, hk, (leaks_checkEnvelopeGrammar P ?_).mp hleaks⟩
    exact hshaped.admits (by simp [requiredEnvelopeFields]) (by simp [envelopeTypes])
  · rintro ⟨hshaped, hk, hlong⟩
    refine ⟨hshaped.present, hshaped.typed, hk, (leaks_checkEnvelopeGrammar P ?_).mpr hlong⟩
    exact hshaped.admits (by simp [requiredEnvelopeFields]) (by simp [envelopeTypes])

/-- A signature field that decodes leaves the rest of the envelope to the serializer. -/
theorem leaks_verifyEnvelopeSignature {env : Members} {aid : Aid} {sigErr : String} {message : Text} :
    Leaks (verifyEnvelopeSignature P env aid sigErr message) ↔
      (∃ raw, TaggedSignature (env.get (txt "signature")) aid.alg raw) ∧
        ¬ Answers (.dict (env.without (txt "signature"))) := by
  rw [verifyEnvelopeSignature, leaks_bind_right (decodeTaggedSignature_coded P)]
  simp only [decodeTaggedSignature, decodeTaggedSignatureFor_eq_ok]
  rw [← exists_and_right]
  refine exists_congr fun raw => and_congr_right fun _ => ?_
  rw [leaks_bind_left fun _ _ => FailsWith.raiseIf coded_aitpError, envelopeSigningInput,
    leaks_bind_left fun _ _ => FailsWith.ok, leaks_canonicalBytes_any]

/-! ### The operation -/

/-- A simulated key-resolution scenario. -/
def keyScenario (inp : Members) : Bool := inp.has (txt "manifest_fetch") || inp.has (txt "needed_key_for")

/-- A call of the capability branch. -/
def capabilityCall (inp : Members) : Bool := inp.has (txt "active_tct") && inp.has (txt "requested_capability")

def toleranceOf (inp : Members) : Int := ((inp.get? (txt "tolerance_seconds")).getD (.int 300)).intValue

/-- The arguments of a call: any value for an envelope, an integer tolerance, and strings
for the token and the capability. -/
structure EnvelopeArguments (inp : Members) : Prop where
  envelope : capabilityCall inp = false → inp.has (txt "envelope")
  distinct : (inp.get (txt "envelope")).Distinct
  tolerance : ∀ value, inp.get? (txt "tolerance_seconds") = some value → ∃ t, value = .int t
  token : ∀ value, inp.get? (txt "active_tct") = some value → ∃ s, value = .str s
  capability : ∀ value, inp.get? (txt "requested_capability") = some value → ∃ s, value = .str s

/-- What `in` can search for a string. -/
def searchable : JsonValue → Bool
  | .list _ | .dict _ | .str _ => true
  | _ => false

/-- The serializer meets neither a lone surrogate nor a number it cannot word, or it
refuses a node before. -/
def Serialized (value : JsonValue) : Prop :=
  value.Encodes ∧ (∀ node ∈ Jcs.walk (Jcs.maxDepth + 1) value, Jcs.unworded node.2 = false) ∨ Jcs.RefusedBefore value

/-- An envelope whose every refusal can be worded and whose signing input is answered for. -/
structure EnvelopeAnswered (env : Members) : Prop where
  shape : ¬ ShapeLeaks P env
  rest : EnvelopeShape env → ∀ aid raw, parseAid P (senderAgentId env).text = .ok aid →
    TaggedSignature (env.get (txt "signature")) aid.alg raw → Serialized (.dict (env.without (txt "signature")))

/-- A call that gets a verdict or the package's own error. -/
structure CallAnswered (inp : Members) (now : Int) : Prop where
  capability : keyScenario inp = false → capabilityCall inp = true → ∀ claims,
    peekClaims P (inp.get (txt "active_tct")) "INVALID_SIGNATURE" = .ok claims →
    searchable ((claims.get? (txt "grants")).getD (.list []))
  envelope : keyScenario inp = false → capabilityCall inp = false → ∀ env : Members,
    inp.get (txt "envelope") = .dict env →
    (∀ ts, env.get (txt "timestamp") = .int ts → |now - ts| ≤ toleranceOf inp) → EnvelopeAnswered P env

theorem leaks_inContainer {s : Text} {container : JsonValue} :
    Leaks ((JsonValue.str s).inContainer container) ↔ searchable container = false := by
  cases container with
  | list | str => exact iff_of_false not_leaks_ok Bool.false_ne_true.symm
  | dict => exact iff_of_false not_leaks_ok Bool.false_ne_true.symm
  | _ => exact iff_of_true ⟨_, rfl, not_coded_raised⟩ rfl

theorem leaks_checkCapability {inp : Members} {token capability : Text}
    (ht : inp.get? (txt "active_tct") = some (.str token))
    (hc : inp.get? (txt "requested_capability") = some (.str capability)) :
    Leaks (checkCapability P inp) ↔ ∃ claims, peekClaims P (.str token) "INVALID_SIGNATURE" = .ok claims ∧
      searchable ((claims.get? (txt "grants")).getD (.list [])) = false := by
  rw [checkCapability, Members.index, ht, ok_bind, leaks_bind_right (peekClaims_coded P)]
  refine exists_congr fun claims => and_congr_right fun _ => ?_
  rw [Members.index, hc, ok_bind,
    leaks_bind_left fun _ _ => (FailsWith.raiseIf coded_aitpError).bind fun _ _ => .ok, leaks_inContainer]

theorem checkTimestampWindow_eq_ok {env : Members} {now tolerance : Int} :
    checkTimestampWindow (.dict env) now tolerance = .ok () ↔
      ∀ ts, env.get (txt "timestamp") = .int ts → |now - ts| ≤ tolerance := by
  rw [checkTimestampWindow]
  cases env.get (txt "timestamp") <;> simp [raiseIf_eq_ok]

theorem checkTimestampWindow_coded {rawEnv : JsonValue} {now tolerance : Int} :
    FailsWith Coded (checkTimestampWindow rawEnv now tolerance) := by
  unfold checkTimestampWindow
  split
  · split
    · exact .raiseIf coded_aitpError
    · exact .ok
  · exact .ok

/-- The names left of an object without one of its members repeat no more than before. -/
theorem distinct_without {members : Members} {key : Text} (h : (JsonValue.dict members).Distinct) :
    (JsonValue.dict (members.without key)).Distinct := by
  cases h with
  | dict hnames hmembers =>
    constructor
    · exact (List.filter_sublist.map Prod.fst).nodup hnames
    · intro m hm
      exact hmembers m (List.mem_of_mem_filter hm)

theorem not_leaks_envelope {env : Members} (hd : (JsonValue.dict env).Distinct) {message : Text → Text} {refusal : Text} :
    (¬ Leaks (validateEnvelopeShape P (.dict env) >>= fun env =>
        onValueError (parseAid P (senderAgentId env).text) "INVALID_ENVELOPE" message >>= fun aid =>
          verifyEnvelopeSignature P env aid "INVALID_SIGNATURE" refusal >>= fun _ => .ok okResult)) ↔
      EnvelopeAnswered P env := by
  rw [leaks_bind, not_or, leaks_validateEnvelopeShape]
  simp only [validateEnvelopeShape_eq_ok, JsonValue.dict.injEq]
  have hrest (aid : Aid) := leaks_bind_left (x := verifyEnvelopeSignature P env aid "INVALID_SIGNATURE" refusal)
    (f := fun _ => (.ok okResult : PyM Members)) fun _ _ => FailsWith.ok
  constructor
  · rintro ⟨hshape, hanswered⟩
    refine ⟨hshape, fun hs aid raw haid hraw => ?_⟩
    rw [Serialized, ← answers_iff_any (distinct_without hd)]
    by_contra hno
    refine hanswered ⟨env, ⟨rfl, hs⟩, leaks_bind.mpr (.inr ⟨aid, onValueError_eq_ok.mpr haid, ?_⟩)⟩
    exact (hrest aid).mpr ((leaks_verifyEnvelopeSignature P).mpr ⟨⟨raw, hraw⟩, hno⟩)
  · rintro ⟨hshape, hanswered⟩
    refine ⟨hshape, ?_⟩
    rintro ⟨_, ⟨rfl, hs⟩, hleaks⟩
    rw [leaks_bind_right (onValueError_coded (parseAid_valueErrors P _))] at hleaks
    obtain ⟨aid, haid, hleaks⟩ := hleaks
    obtain ⟨⟨raw, hraw⟩, hno⟩ := (leaks_verifyEnvelopeSignature P).mp ((hrest aid).mp hleaks)
    refine hno ((answers_iff_any (distinct_without hd)).mpr ?_)
    exact hanswered hs aid raw (onValueError_eq_ok.mp haid) hraw

theorem not_leaks_of_not_dict {rawEnv : JsonValue} {α : Type} {f : Members → PyM α} (h : ∀ env, rawEnv ≠ .dict env) :
    ¬ Leaks (validateEnvelopeShape P rawEnv >>= f) := by
  rw [validateEnvelopeShape.eq_def]
  cases rawEnv with
  | dict env => exact absurd rfl (h env)
  | _ => exact not_leaks_iff.mpr (FailsWith.error coded_aitpError)

theorem leaks_verifyEnvelopeProper {inp : Members} {now : Int} (h : EnvelopeArguments inp)
    (hc : capabilityCall inp = false) :
    ¬ Leaks (verifyEnvelopeProper P inp now) ↔ ∀ env : Members, inp.get (txt "envelope") = .dict env →
      (∀ ts, env.get (txt "timestamp") = .int ts → |now - ts| ≤ toleranceOf inp) → EnvelopeAnswered P env := by
  obtain ⟨rawEnv, henv⟩ := Option.isSome_iff_exists.mp (h.envelope hc)
  have hget : inp.get (txt "envelope") = rawEnv := by rw [Members.get, henv]; rfl
  have htolerance : P.toInt ((inp.get? (txt "tolerance_seconds")).getD (.int 300)) = .ok (toleranceOf inp) := by
    rw [toleranceOf]
    cases ht : inp.get? (txt "tolerance_seconds") with
    | none => rfl
    | some value =>
      obtain ⟨t, rfl⟩ := h.tolerance value ht
      rfl
  have hdistinct := h.distinct
  rw [hget] at hdistinct ⊢
  rw [verifyEnvelopeProper, Members.index, henv, ok_bind, htolerance, ok_bind]
  cases rawEnv with
  | dict env =>
    rw [leaks_bind_right checkTimestampWindow_coded, exists_unit, checkTimestampWindow_eq_ok, not_and,
      not_leaks_envelope P hdistinct]
    constructor
    · rintro hanswered _ ⟨rfl⟩ hfresh
      exact hanswered hfresh
    · intro hanswered hfresh
      exact hanswered env rfl hfresh
  | _ =>
    refine iff_of_true ?_ fun _ hdict => by simp at hdict
    rw [leaks_bind_right checkTimestampWindow_coded, not_exists]
    rintro _ ⟨_, hleaks⟩
    exact not_leaks_of_not_dict P (by simp) hleaks

/-- Verification returns or raises the package's own error exactly where what it words,
searches and serializes lets it. -/
theorem verifyEnvelope_answered_iff (inp : Members) (now : Int) (h : EnvelopeArguments inp) :
    ¬ Leaks (verifyEnvelope P inp now) ↔ CallAnswered P inp now := by
  rw [verifyEnvelope]
  cases hkey : keyScenario inp with
  | true =>
    rw [keyScenario] at hkey
    rw [hkey]
    refine iff_of_true (not_leaks_iff.mpr (FailsWith.error coded_aitp)) ⟨?_, ?_⟩
    · intro hfalse
      simp [keyScenario, hkey] at hfalse
    · intro hfalse
      simp [keyScenario, hkey] at hfalse
  | false =>
    have hkeys := hkey
    rw [keyScenario] at hkeys
    rw [hkeys, show raiseIf false _ = (.ok () : PyM Unit) from rfl, ok_bind]
    cases hcall : capabilityCall inp with
    | true =>
      have hcalls := hcall
      rw [capabilityCall] at hcalls
      rw [hcalls, if_pos rfl]
      rw [Bool.and_eq_true] at hcalls
      obtain ⟨value, htoken⟩ := Option.isSome_iff_exists.mp hcalls.1
      obtain ⟨token, rfl⟩ := h.token value htoken
      obtain ⟨value, hcapability⟩ := Option.isSome_iff_exists.mp hcalls.2
      obtain ⟨capability, rfl⟩ := h.capability value hcapability
      have hget : inp.get (txt "active_tct") = .str token := by rw [Members.get, htoken]; rfl
      rw [leaks_checkCapability P htoken hcapability]
      constructor
      · intro hno
        refine ⟨fun _ _ claims hclaims => ?_, fun _ hfalse => by simp [hcall] at hfalse⟩
        rw [hget] at hclaims
        by_contra hunsearchable
        exact hno ⟨claims, hclaims, Bool.eq_false_iff.mpr hunsearchable⟩
      · rintro hanswered ⟨claims, hclaims, hunsearchable⟩
        rw [← hget] at hclaims
        exact Bool.eq_false_iff.mp hunsearchable (hanswered.capability hkey hcall claims hclaims)
    | false =>
      have hcalls := hcall
      rw [capabilityCall] at hcalls
      rw [hcalls, if_neg Bool.false_ne_true, leaks_verifyEnvelopeProper P h hcall]
      constructor
      · intro hanswered
        exact ⟨fun _ htrue => by simp [hcall] at htrue, fun _ _ => hanswered⟩
      · intro hanswered
        exact hanswered.envelope hkey hcall

/-- A list nested `depth` deep. -/
def nestedList : Nat → JsonValue
  | 0 => .list []
  | depth + 1 => .list [nestedList depth]

/-- A version, given as a list nested deeper than the stack renders. -/
def deepVersionInput : Members := [(txt "envelope", .dict [(txt "version", nestedList 100000)])]

/-- A token whose grants are the number five. -/
def numericGrantsInput : Members :=
  [(txt "active_tct", .str (txt "eyJhbGciOiJFZERTQSJ9.eyJncmFudHMiOjV9.AA")), (txt "requested_capability", .str (txt "read"))]

theorem nestedList_distinct (depth : Nat) : (nestedList depth).Distinct := by
  induction depth with
  | zero => exact .list (List.forall_mem_nil _)
  | succ depth ih => exact .list (List.forall_mem_singleton.mpr ih)

theorem helloInput_arguments : EnvelopeArguments (helloInput (.int referenceClock)) where
  envelope _ := rfl
  distinct := by
    show (JsonValue.dict (helloEnvelope (.int referenceClock))).Distinct
    refine .dict (by decide +kernel) ?_
    simp only [helloEnvelope, List.forall_mem_cons]
    exact ⟨.str, .str, .str, .int, .dict (by decide) (List.forall_mem_singleton.mpr .str), .dict (by decide) (List.forall_mem_nil _), .str,
      List.forall_mem_nil _⟩
  tolerance _ h := nomatch (h : none = some _)
  token _ h := nomatch (h : none = some _)
  capability _ h := nomatch (h : none = some _)

theorem deepVersionInput_arguments : EnvelopeArguments deepVersionInput where
  envelope _ := rfl
  distinct := .dict (by decide) (List.forall_mem_singleton.mpr (nestedList_distinct 100000))
  tolerance _ h := nomatch (h : none = some _)
  token _ h := nomatch (h : none = some _)
  capability _ h := nomatch (h : none = some _)

theorem numericGrantsInput_arguments : EnvelopeArguments numericGrantsInput where
  envelope h := nomatch (h : true = false)
  distinct := .null
  tolerance _ h := nomatch (h : none = some _)
  token _ h := ⟨_, (Option.some.inj h).symm⟩
  capability _ h := ⟨_, (Option.some.inj h).symm⟩

theorem verifyEnvelope_answered_hello : CallAnswered helloRecording.platform (helloInput (.int referenceClock)) referenceClock :=
  (verifyEnvelope_answered_iff _ _ _ helloInput_arguments).mp (by decide +kernel)

/-- A version too deep to word leaves a recursion error, grants that cannot be searched a type error. -/
theorem verifyEnvelope_escapes :
    (EnvelopeArguments deepVersionInput ∧
      verifyEnvelope helloRecording.platform deepVersionInput referenceClock =
        .error (.raised .recursion (txt "maximum recursion depth exceeded while getting the repr of an object"))) ∧
    EnvelopeArguments numericGrantsInput ∧
      verifyEnvelope helloRecording.platform numericGrantsInput referenceClock =
        .error (.raised .type (txt "argument of type 'int' is not iterable")) :=
  ⟨⟨deepVersionInput_arguments, by decide +kernel⟩, numericGrantsInput_arguments, by decide +kernel⟩

end AitpVerifier
