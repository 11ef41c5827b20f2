import AitpVerifier.RevocationLast
import AitpVerifier.Scan

/-!
# Exceptions that escape

The package reports through `AitpError`; any other exception that leaves an
operation leaks. A checklist leaks at its first step that does, after the steps
before it passed.
-/
namespace AitpVerifier

open PyText Checked

/-- An error of the package's own. -/
def Coded (e : PyErr) : Prop := e.code?.isSome = true

/-- A built-in `ValueError`. -/
def IsValueError (e : PyErr) : Prop := e.isValueError = true

/-- `AitpError` under any code. -/
theorem coded_aitpError {code : String} {message : Text} : Coded (AitpError code message) := rfl

theorem coded_aitp {code : String} {message : Text} {retryable : Bool} : Coded (.aitp code message retryable) := rfl

theorem not_coded_raised {kind : ErrorKind} {message : Text} : ¬ Coded (.raised kind message) := Bool.false_ne_true

theorem isValueError_valueError {message : Text} : IsValueError (valueError message) := rfl

theorem under_aitpError {code : String} {message : Text} : Under code (AitpError code message) := rfl

theorem Under.coded {code : String} {e : PyErr} (h : Under code e) : Coded e := by
  rw [Coded, h]
  rfl

/-- An exception other than `AitpError` escapes. -/
def Leaks {α : Type} (x : PyM α) : Prop := ∃ e, x = .error e ∧ ¬ Coded e

section

variable {α β : Type}

/-- A step that fails under one code only reports through the package. -/
theorem coded_of_under {code : String} {x : PyM α} (h : FailsWith (Under code) x) : FailsWith Coded x := h.mono fun _ => Under.coded

theorem not_leaks_iff {x : PyM α} : ¬ Leaks x ↔ FailsWith Coded x := by
  simp [Leaks, FailsWith]

theorem not_leaks_ok {a : α} : ¬ Leaks (.ok a : PyM α) := not_throws_ok

theorem leaks_error {e : PyErr} : Leaks (.error e : PyM α) ↔ ¬ Coded e := by simp [Leaks]

instance (e : PyErr) : Decidable (Coded e) := inferInstanceAs (Decidable (e.code?.isSome = true))

instance : (x : PyM α) → Decidable (Leaks x)
  | .ok _ => isFalse nofun
  | .error _ => decidable_of_iff _ leaks_error.symm

theorem leaks_bind {x : PyM α} {f : α → PyM β} : Leaks (x >>= f) ↔ Leaks x ∨ ∃ a, x = .ok a ∧ Leaks (f a) := throws_bind

theorem leaks_bind_congr {x : PyM α} {f : α → PyM β} {Q : α → Prop} (hf : ∀ a, x = .ok a → (Leaks (f a) ↔ Q a)) :
    Leaks (x >>= f) ↔ Leaks x ∨ ∃ a, x = .ok a ∧ Q a := by
  rw [leaks_bind]
  exact or_congr_right (exists_congr fun a => and_congr_right (hf a))

/-- Past a first step that cannot leak. -/
theorem leaks_bind_right {x : PyM α} {f : α → PyM β} (hx : FailsWith Coded x) :
    Leaks (x >>= f) ↔ ∃ a, x = .ok a ∧ Leaks (f a) := by
  rw [leaks_bind]
  exact or_iff_right (not_leaks_iff.mpr hx)

/-- Up to a last step that cannot leak. -/
theorem leaks_bind_left {x : PyM α} {f : α → PyM β} (hf : ∀ a, x = .ok a → FailsWith Coded (f a)) :
    Leaks (x >>= f) ↔ Leaks x := by
  rw [leaks_bind]
  refine or_iff_left ?_
  rintro ⟨a, ha, h⟩
  exact not_leaks_iff.mpr (hf a ha) h

/-- A loop leaks at its first item that does. -/
theorem leaks_forEach {check : α → PyM Unit} {items : List α} :
    Leaks (forEach check items) ↔
      ∃ before a after, items = before ++ a :: after ∧ (∀ b ∈ before, check b = .ok ()) ∧ Leaks (check a) := throws_forEach

/-- A step that fails only with `ValueError` leaks whenever it fails. -/
theorem leaks_of_valueErrors {x : PyM α} (h : FailsWith IsValueError x) : Leaks x ↔ ∀ a, x ≠ .ok a := by
  cases x with
  | ok a => exact iff_of_false not_leaks_ok fun hne => hne a rfl
  | error e =>
    refine iff_of_true ?_ fun _ => error_ne_ok
    rw [leaks_error]
    cases e with
    | aitp => cases h _ rfl
    | raised => exact Bool.false_ne_true

theorem raiseWith_failsWith {p : PyErr → Prop} {c : Bool} {x : PyM PyErr} (hx : FailsWith p x)
    (he : ∀ e, x = .ok e → p e) : FailsWith p (raiseWith c x) := by
  cases c with
  | false => exact .ok
  | true => exact hx.bind fun e hxe => .error (he e hxe)

/-- An `except ValueError` clause leaves nothing of such a step's failures. -/
theorem onValueError_under {x : PyM α} (h : FailsWith IsValueError x) {code : String} {message : Text → Text} :
    FailsWith (Under code) (onValueError x code message) := by
  refine .rescue fun e he => ?_
  have hv : e.isValueError = true := h e he
  rw [if_pos hv]
  exact under_aitpError

theorem onValueError_coded {x : PyM α} (h : FailsWith IsValueError x) {code : String} {message : Text → Text} :
    FailsWith Coded (onValueError x code message) := coded_of_under (onValueError_under h)

end

/-! ### Identifiers and encodings -/

variable (P : Platform)

theorem b64urlDecode_valueErrors (text : Text) : FailsWith IsValueError (b64urlDecode text) := by
  refine (FailsWith.raiseIf isValueError_valueError).bind fun _ _ => ?_
  rw [urlsafeB64decode]
  split
  · exact .ok
  · exact .error isValueError_valueError

theorem fromRaw_valueErrors (alg : KeyAlg) (raw : Bytes) : FailsWith IsValueError (fromRaw P alg raw) := by
  cases alg with
  | ed25519 => exact (FailsWith.raiseIf isValueError_valueError).bind fun _ _ => .ok
  | p256 =>
    refine (FailsWith.raiseIf isValueError_valueError).bind fun _ _ => ?_
    split
    · exact .ok
    · exact .error isValueError_valueError

/-- A malformed identifier is a plain `ValueError`. -/
theorem parseAid_valueErrors (aid : Text) : FailsWith IsValueError (parseAid P aid) := by
  refine (FailsWith.raiseIf isValueError_valueError).bind fun _ _ => (FailsWith.raiseIf isValueError_valueError).bind fun _ _ => ?_
  exact (b64urlDecode_valueErrors _).bind fun _ _ => (fromRaw_valueErrors P _ _).bind fun _ _ => .ok

theorem leaks_parseAid {aid : Text} : Leaks (parseAid P aid) ↔ ∀ a, parseAid P aid ≠ .ok a :=
  leaks_of_valueErrors (parseAid_valueErrors P aid)

theorem decodeJwkMember_valueErrors (value : Members) (member : Text) :
    FailsWith IsValueError (decodeJwkMember P value member) := by
  unfold decodeJwkMember
  split
  · exact (FailsWith.raiseIf isValueError_valueError).bind fun _ _ => b64urlDecode_valueErrors _
  · exact .error isValueError_valueError

theorem decodeTaggedSignatureFor_under {sig : JsonValue} {alg : KeyAlg} {sigErr : String} :
    FailsWith (Under sigErr) (decodeTaggedSignatureFor P sig alg sigErr) := by
  unfold decodeTaggedSignatureFor
  split
  · exact (FailsWith.raiseIf under_aitpError).bind fun _ _ => (FailsWith.raiseIf under_aitpError).bind fun _ _ =>
      (onValueError_under (b64urlDecode_valueErrors _)).bind fun _ _ => (FailsWith.raiseIf under_aitpError).bind
        fun _ _ => .ok
  · exact .error under_aitpError

theorem decodeTaggedSignature_under {sig : JsonValue} {aid : Aid} {sigErr : String} :
    FailsWith (Under sigErr) (decodeTaggedSignature P sig aid sigErr) := decodeTaggedSignatureFor_under P

/-! ### The shared checks -/

theorem requireMembers_under {obj : Members} {required : List Text} {code : String} {what : Text} :
    FailsWith (Under code) (requireMembers P obj required code what) := .raiseIf under_aitpError

theorem requireMembers_coded {obj : Members} {required : List Text} {code : String} {what : Text} :
    FailsWith Coded (requireMembers P obj required code what) := coded_of_under (requireMembers_under P)

theorem checkTypes_under {obj : Members} {types : List (Text × PyType)} {code : String} {what : Text} :
    FailsWith (Under code) (checkTypes obj types code what) := by
  refine .forEach fun entry _ => ?_
  split
  · exact .ok
  · exact .raiseIf under_aitpError

theorem checkTypes_coded {obj : Members} {types : List (Text × PyType)} {code : String} {what : Text} :
    FailsWith Coded (checkTypes obj types code what) := coded_of_under checkTypes_under

theorem rejectUnknownFields_coded {obj : JsonValue} {allowed : List Text} {code : String} {what : Text} :
    FailsWith Coded (rejectUnknownFields P obj allowed code what) := by
  cases obj with
  | dict members => exact .raiseIf coded_aitpError
  | _ => exact .error coded_aitpError

theorem intText_ok {i : Int} (h : (decimal i.natAbs).length ≤ maxIntDigits) : ∃ text, intText i = .ok text := by
  have hlen : decide (maxIntDigits < (decimal i.natAbs).length) = false := by simpa using h
  rw [intText, hlen]
  exact ⟨_, rfl⟩

theorem repr_str (s : Text) : P.repr (.str s) = .ok (P.reprStr s) := by simp [Interpreter.repr, Interpreter.reprWithin]

/-- Whatever a token's JSON holds can be described in a message. -/
theorem describeValue_ok {value : JsonValue} (h : value.Short) : ∃ text, describeValue P value = .ok text := by
  cases h with
  | null | bool | float | str => simp [describeValue, Interpreter.repr, Interpreter.reprWithin]
  | int hi =>
    obtain ⟨text, ht⟩ := intText_ok hi
    exact ⟨text, by simp [describeValue, Interpreter.repr, Interpreter.reprWithin, ht]⟩
  | list | dict => exact ⟨_, rfl⟩

theorem describeValue_valueErrors (value : JsonValue) : FailsWith IsValueError (describeValue P value) := by
  cases value with
  | int i =>
    simp only [describeValue, Interpreter.repr, Interpreter.reprWithin.eq_def]
    have hdigits : IsValueError tooManyDigits := rfl
    exact (FailsWith.raiseIf hdigits).bind fun _ _ => .ok
  | _ =>
    simp only [describeValue, Interpreter.repr, Interpreter.reprWithin.eq_def]
    exact .ok

/-! ### Tokens -/

theorem loadsObject_coded {data : Bytes} {code : String} : FailsWith Coded (loadsObject P data code) :=
  .rescue fun _ _ => coded_aitpError

/-- Reading a token's segments reports every defect through the package. -/
theorem parseCompact_coded {token : JsonValue} {code : String} : FailsWith Coded (parseCompact P token code) := by
  have hdecode (part : Text) : FailsWith Coded (onValueError (b64urlDecode part) code
      (txt "segment is not valid base64url: " ++ ·)) := onValueError_coded (b64urlDecode_valueErrors part)
  unfold parseCompact
  split
  · split
    · refine (FailsWith.raiseIf coded_aitpError).bind fun _ _ => (hdecode _).bind fun _ _ => (hdecode _).bind fun _ _ =>
        (hdecode _).bind fun _ _ => (loadsObject_coded P).bind fun _ _ => (loadsObject_coded P).bind fun _ _ => ?_
      split
      · exact .ok
      · exact .error coded_aitpError
    · exact .error coded_aitpError
  · exact .error coded_aitpError

theorem peekClaims_coded {token : JsonValue} {code : String} : FailsWith Coded (peekClaims P token code) :=
  (parseCompact_coded P).bind fun _ _ => .ok

/-- What a token's segments hold was scanned. -/
theorem ParsesTo.loaded {token : JsonValue} {parsed : ParsedJws} (h : ParsesTo P token parsed) :
    ∃ header claims, Jcs.loads P.toInterpreter header = .ok (.dict parsed.header) ∧
      Jcs.loads P.toInterpreter claims = .ok (.dict parsed.claims) := by
  obtain ⟨code, h⟩ := h
  unfold parseCompact at h
  split at h
  · split at h
    · simp only [bind_eq_ok, loadsObject_eq_ok] at h
      obtain ⟨_, _, headerBytes, _, payloadBytes, _, _, _, header, hheader, claims, hclaims, h⟩ := h
      split at h
      · rw [← Except.ok.inj h]
        exact ⟨headerBytes, payloadBytes, hheader, hclaims⟩
      · cases h
    · cases h
  · cases h

theorem Members.get_short {obj : Members} (h : (JsonValue.dict obj).Short) (key : Text) : (obj.get key).Short := by
  cases h with
  | dict h =>
    rw [Members.get]
    cases hv : obj.get? key with
    | none => exact .null
    | some value => exact h (key, value) (Members.mem_of_get? hv)

/-- The header a verification for `typ` goes on with. -/
def HeaderFor (typ : Text) (parsed : ParsedJws) : Prop :=
  exactHeader parsed.header ∧ parsed.header.get (txt "typ") = .str typ

/-- A token that reaches key resolution under a text that is no identifier leaks there:
the parser's `ValueError` has no handler. The caller's own check may leak before. -/
theorem leaks_verifyJws {token : JsonValue} {issAid typ : Text} {errors : JwsErrors} {check : Members → PyM Unit} :
    Leaks (verifyJws P token issAid typ errors check) ↔
      ∃ parsed, ParsesTo P token parsed ∧ HeaderFor typ parsed ∧
        (Leaks (check parsed.claims) ∨ check parsed.claims = .ok () ∧ ∀ aid, parseAid P issAid ≠ .ok aid) := by
  rw [verifyJws, leaks_bind_right (parseCompact_coded P)]
  refine exists_congr fun parsed => ?_
  rw [parseCompact_eq_ok]
  refine and_congr_right fun hp => ?_
  obtain ⟨_, _, hheader, _⟩ := hp.loaded P
  have hdescribe (key : Text) := describeValue_ok P (Members.get_short (Jcs.loads_short hheader) key)
  obtain ⟨typText, htypText⟩ := hdescribe (txt "typ")
  obtain ⟨algText, halgText⟩ := hdescribe (txt "alg")
  rw [leaks_bind_right (.raiseIf coded_aitpError)]
  simp only [exists_unit, raiseIf_eq_ok, Bool.not_eq_false', HeaderFor, and_assoc]
  refine and_congr_right fun _ => ?_
  rw [leaks_bind_right (.raiseWith fun _ => ⟨_, by rw [htypText]; rfl, coded_aitpError⟩)]
  simp only [exists_unit, raiseWith_eq_ok, Bool.not_eq_false', JsonValue.eq_str]
  refine and_congr_right fun _ => ?_
  rw [leaks_bind]
  refine or_congr_right ?_
  rw [exists_unit]
  refine and_congr_right fun _ => ?_
  rw [leaks_bind_left, leaks_parseAid]
  intro aid _
  exact (FailsWith.raiseWith fun _ => ⟨_, by rw [halgText]; rfl, coded_aitpError⟩).bind fun _ _ =>
    (FailsWith.raiseIf coded_aitpError).bind fun _ _ => .ok

end AitpVerifier
