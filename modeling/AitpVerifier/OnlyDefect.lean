import AitpVerifier.Contained

/-!
# Whether the unknown member is the only defect

An unknown member is reported under a code of its own, after the structural checks
and so, it is said, only when nothing else is wrong. Two structural checks run later:
the key of the signer's identifier has to decode, and the body has to canonicalize.
-/
namespace AitpVerifier

open PyText Checked

/-! ### The code a checklist ends under -/

/-- An error that is not the package's. -/
def Uncoded (e : PyErr) : Prop := e.code? = none

section

variable {α β : Type} {code own : String}

/-- A step that fails under one code raises that code whenever it fails. -/
theorem raises_of_under {x : PyM α} (h : FailsWith (Under code) x) : Raises x code ↔ ∀ a, x ≠ .ok a := by
  cases x with
  | ok a => exact iff_of_false not_raises_ok fun hne => hne a rfl
  | error e => exact iff_of_true (⟨e, rfl, h e rfl⟩) nofun

/-- A step that fails under one code raises no other. -/
theorem not_raises_of_under {x : PyM α} (hcode : own ≠ code) (h : FailsWith (Under own) x) : ¬ Raises x code := by
  intro hr
  obtain ⟨e, he, hunder⟩ := hr
  have hown := h e he
  rw [Under, hunder] at hown
  exact hcode (Option.some.inj hown).symm

theorem not_raises_of_uncoded {x : PyM α} (h : FailsWith Uncoded x) : ¬ Raises x code := by
  intro hr
  obtain ⟨e, he, hunder⟩ := hr
  have hnone := h e he
  rw [Uncoded, hunder] at hnone
  cases hnone

theorem not_raises_raiseIf {c : Bool} {message : Text} (hcode : own ≠ code) :
    ¬ Raises (raiseIf c (AitpError own message)) code := not_raises_of_under hcode (.raiseIf under_aitpError)

end

theorem uncoded_raised {kind : ErrorKind} {message : Text} : Uncoded (.raised kind message) := rfl

variable (P : Platform)

theorem toInt_uncoded (value : JsonValue) : FailsWith Uncoded (P.toInt value) := by
  unfold Interpreter.toInt
  cases value with
  | int i => exact .ok
  | bool b => exact .ok
  | float f =>
    cases f with
    | nan => exact .error uncoded_raised
    | inf negative => exact .error uncoded_raised
    | finite => exact .ok
  | str s =>
    dsimp only
    split
    · exact .error uncoded_raised
    · exact (FailsWith.raiseIf uncoded_raised).bind fun _ _ => .ok
  | _ => exact .error uncoded_raised

theorem inContainer_uncoded (value container : JsonValue) : FailsWith Uncoded (value.inContainer container) := by
  unfold JsonValue.inContainer
  cases container with
  | list items => exact .ok
  | dict members => exact (FailsWith.raiseIf uncoded_raised).bind fun _ _ => .ok
  | str s =>
    cases value with
    | str t => exact .ok
    | _ => exact .error uncoded_raised
  | _ => exact .error uncoded_raised

/-! ### Canonicalization reports in its own terms -/

namespace Jcs

theorem formatFloat_uncoded (f : Binary64) : FailsWith Uncoded (formatFloat f) := by
  intro e he
  obtain ⟨message, rfl⟩ := formatFloat_error he
  exact uncoded_raised

theorem formatInt_uncoded (i : Int) : FailsWith Uncoded (formatInt i) := by
  intro e he
  cases hf : Binary64.ofInt? i with
  | some f =>
    rw [ofInt?_formatInt hf] at he
    exact formatFloat_uncoded f e he
  | none =>
    have hdef : formatInt = formatInt := rfl
    conv at hdef => rhs; delta formatInt
    rw [hdef] at he
    beta_reduce at he
    rw [hf] at he
    have htext : FailsWith Uncoded (intText i) := (FailsWith.raiseIf uncoded_raised).bind fun _ _ => .ok
    exact (htext.bind fun _ _ => .error uncoded_raised) e he

theorem visit_uncoded (visits : Nat) : FailsWith Uncoded (visit visits) :=
  (FailsWith.raiseIf uncoded_raised).bind fun _ _ => .ok

theorem sortNames_uncoded (names : List Text) : FailsWith Uncoded (sortNames names) := by
  refine (FailsWith.collect fun name _ => ?_).bind fun _ _ => .ok
  unfold sortKey
  split
  · exact .ok
  · exact .error uncoded_raised

theorem serializeParts_uncoded {α : Type} {step : Serializer α} (h : ∀ part visits, FailsWith Uncoded (step part visits))
    (first : Bool) (parts : List α) (visits : Nat) : FailsWith Uncoded (serializeParts step first parts visits) := by
  induction parts generalizing first visits with
  | nil => exact .ok
  | cons part rest ih => exact (h part visits).bind fun _ _ => (ih false _).bind fun _ _ => .ok

theorem serialize_uncoded (room : Nat) (value : JsonValue) (visits : Nat) :
    FailsWith Uncoded (serialize room value visits) := by
  induction room generalizing value visits with
  | zero => exact (visit_uncoded visits).bind fun _ _ => .error uncoded_raised
  | succ room ih =>
    refine (visit_uncoded visits).bind fun counted _ => ?_
    cases value with
    | int i => exact (formatInt_uncoded i).bind fun _ _ => .ok
    | float f => exact (formatFloat_uncoded f).bind fun _ _ => .ok
    | list items => exact (serializeParts_uncoded ih true items counted).bind fun _ _ => .ok
    | dict members =>
      refine (sortNames_uncoded _).bind fun names _ => ?_
      exact (serializeParts_uncoded (fun _ _ => (ih _ _).bind fun _ _ => .ok) true names counted).bind fun _ _ => .ok
    | _ => exact .ok

theorem canonicalize_uncoded (value : JsonValue) : FailsWith Uncoded (canonicalize value) := by
  refine ((serialize_uncoded _ value 0).bind fun _ _ => .ok).bind fun out _ => ?_
  split
  · exact .ok
  · exact .error uncoded_raised

end Jcs

/-- Canonicalization refuses a value: it has no canonical form, or nests too deeply. -/
def Refused (value : JsonValue) : Prop :=
  ∃ e, Jcs.canonicalize value = .error e ∧ (e.isKind .jcs || e.isKind .recursion) = true

theorem raises_canonicalBytes {value : JsonValue} {code : String} {what : Text} :
    Raises (canonicalBytes value code what) code ↔ Refused value := by
  have huncoded := Jcs.canonicalize_uncoded value
  rw [Raises, Throws]
  unfold canonicalBytes Refused
  cases hc : Jcs.canonicalize value with
  | ok octets => simp [rescue]
  | error e =>
    simp only [rescue, Except.error.injEq, exists_eq_left', Bool.or_eq_true]
    by_cases hjcs : e.isKind .jcs = true
    · simp [hjcs, under_aitpError]
    · by_cases hrecursion : e.isKind .recursion = true
      · simp [hjcs, hrecursion, under_aitpError]
      · have hnone : e.code? = none := huncoded e hc
        simp [hjcs, hrecursion, Under, hnone]

/-! ### Removing the unknown members -/

/-- The members of an object inside `fields`. -/
def Members.only (obj : Members) (fields : List Text) : Members := obj.filter (fun m => fields.contains m.1)

theorem Members.get?_only {obj : Members} {fields : List Text} {key : Text} (h : key ∈ fields) :
    (obj.only fields).get? key = obj.get? key := by
  induction obj with
  | nil => rfl
  | cons member rest ih =>
    obtain ⟨name, value⟩ := member
    rw [Members.only, List.filter_cons]
    split
    · rw [Members.get?, Members.get?, ← ih, Members.only]
    · rename_i hout
      rw [Members.get?, if_neg, ← ih, Members.only]
      intro heq
      exact hout (List.contains_iff_mem.mpr (heq ▸ h))

theorem Members.get_only {obj : Members} {fields : List Text} {key : Text} (h : key ∈ fields) :
    (obj.only fields).get key = obj.get key := by
  rw [Members.get, Members.get?_only h, Members.get]

theorem Members.names_only {obj : Members} {fields : List Text} : ∀ key ∈ (obj.only fields).names, key ∈ fields := by
  intro key h
  obtain ⟨member, hm, rfl⟩ := List.mem_map.mp h
  exact List.contains_iff_mem.mp (List.mem_filter.mp hm).2

/-- The declared members of an object are shaped as before. -/
theorem Shaped.only {obj : Members} {required fields : List Text} {types : List (Text × PyType)}
    (h : Shaped obj required types) (hr : ∀ key ∈ required, key ∈ fields) (ht : ∀ entry ∈ types, entry.1 ∈ fields) :
    Shaped (obj.only fields) required types := by
  constructor
  · intro key hk
    rw [Members.has, Members.get?_only (hr key hk)]
    exact h.present key hk
  · intro entry hk value hv
    rw [Members.get?_only (ht entry hk)] at hv
    exact h.typed entry hk value hv

/-- A value of the declared type in place of a member keeps the shape. -/
theorem Shaped.insert {obj : Members} {required : List Text} {types : List (Text × PyType)} {key : Text}
    {value : JsonValue} (h : Shaped obj required types) (ht : ∀ entry ∈ types, key = entry.1 → value.admits entry.2) :
    Shaped (obj.insert key value) required types := by
  constructor
  · intro name hn
    rw [Members.has, Members.get?_insert]
    split
    · rfl
    · exact h.present name hn
  · intro entry hk found hv
    rw [Members.get?_insert] at hv
    split at hv
    · rename_i heq
      obtain rfl := Option.some.inj hv
      exact ht entry hk heq
    · exact h.typed entry hk found hv

theorem admits_dict {members : Members} {type : PyType} (h : type = .dict) : (JsonValue.dict members).admits type := by
  rw [h]
  rfl

theorem admits_list {items : List JsonValue} {type : PyType} (h : type = .list) : (JsonValue.list items).admits type := by
  rw [h]
  rfl

theorem Members.names_insert {obj : Members} {fields : List Text} {key : Text} {value : JsonValue}
    (h : ∀ name ∈ obj.names, name ∈ fields) (hk : key ∈ fields) : ∀ name ∈ (obj.insert key value).names, name ∈ fields := by
  intro name hn
  cases Members.mem_names_insert hn with
  | inl heq =>
    rw [heq]
    exact hk
  | inr hn => exact h name hn

/-! ### Manifests -/

/-- A Manifest without the members outside its three closed sets. -/
def strippedManifest (body : Members) : Members :=
  ((body.only manifestFields).insert (txt "proof_of_possession")
    (.dict ((body.get (txt "proof_of_possession")).members.only popFields))).insert (txt "identity_hint")
    (.dict ((body.get (txt "identity_hint")).members.only identityHintFields))

section Stripped

variable {body : Members}

theorem get_strippedManifest {key : Text} (hk : key ∈ manifestFields) (hpop : txt "proof_of_possession" ≠ key)
    (hhint : txt "identity_hint" ≠ key) : (strippedManifest body).get key = body.get key := by
  rw [strippedManifest, Members.get_insert_of_ne hhint, Members.get_insert_of_ne hpop, Members.get_only hk]

theorem get_strippedManifest_pop : (strippedManifest body).get (txt "proof_of_possession") =
    .dict ((body.get (txt "proof_of_possession")).members.only popFields) := by
  rw [strippedManifest, Members.get_insert_of_ne (by decide), Members.get_insert_self]

theorem get_strippedManifest_hint : (strippedManifest body).get (txt "identity_hint") =
    .dict ((body.get (txt "identity_hint")).members.only identityHintFields) := by
  rw [strippedManifest, Members.get_insert_self]

theorem names_strippedManifest : ∀ key ∈ (strippedManifest body).names, key ∈ manifestFields :=
  Members.names_insert (Members.names_insert Members.names_only (by decide)) (by decide)

end Stripped

/-- The grammar reads declared members only. -/
theorem validateGrammar_stripped {body : Members} : validateGrammar P (strippedManifest body) = validateGrammar P body := by
  have harray : forEach (checkArray P (strippedManifest body)) arrayItemRules = forEach (checkArray P body) arrayItemRules := by
    apply forEach_congr
    intro rule hrule
    have hdeclared : ∀ rule ∈ arrayItemRules, rule.1 ∈ manifestFields ∧ txt "proof_of_possession" ≠ rule.1 ∧
        txt "identity_hint" ≠ rule.1 := by
      simp only [arrayItemRules, List.forall_mem_cons, List.not_mem_nil, false_implies, implies_true, and_true]
      decide
    obtain ⟨hk, hpop, hhint⟩ := hdeclared rule hrule
    rw [checkArray, checkArray, get_strippedManifest hk hpop hhint]
  have hsame : ∀ key ∈ [txt "aid", txt "display_name", txt "handshake_endpoint", txt "published_at", txt "expires_at",
      txt "signature"], (strippedManifest body).get key = body.get key := by
    have hdeclared : ∀ key ∈ [txt "aid", txt "display_name", txt "handshake_endpoint", txt "published_at",
        txt "expires_at", txt "signature"], key ∈ manifestFields ∧ txt "proof_of_possession" ≠ key ∧
        txt "identity_hint" ≠ key := by decide
    intro key hk
    obtain ⟨hk, hpop, hhint⟩ := hdeclared key hk
    exact get_strippedManifest hk hpop hhint
  simp only [List.forall_mem_cons, List.not_mem_nil, false_implies, implies_true, and_true] at hsame
  obtain ⟨haid, hname, hendpoint, hpublished, hexpires, hsignature⟩ := hsame
  simp only [validateGrammar, harray, haid, hname, hendpoint, hpublished, hexpires, hsignature, get_strippedManifest_pop,
    JsonValue.members, @Members.get_only _ popFields (txt "challenge") (by decide),
    @Members.get_only _ popFields (txt "signature") (by decide)]

/-- The hint's rules read declared members only. -/
theorem validateIdentityHint_only {hint : Members} :
    validateIdentityHint P (hint.only identityHintFields) = validateIdentityHint P hint := by
  have hget {key : Text} (hk : key ∈ identityHintFields) := @Members.get_only hint identityHintFields key hk
  have htype := hget (by decide : txt "type" ∈ identityHintFields)
  have hissuer := hget (by decide : txt "issuer" ∈ identityHintFields)
  have hsubject := hget (by decide : txt "subject" ∈ identityHintFields)
  have hkey := hget (by decide : txt "public_key" ∈ identityHintFields)
  have hhas {key : Text} (hk : key ∈ identityHintFields) : (hint.only identityHintFields).has key = hint.has key := by
    rw [Members.has, Members.get?_only hk, Members.has]
  unfold validateIdentityHint checkHintMembers
  dsimp only [forEach]
  rw [htype, hissuer, hsubject, hkey, hhas (by decide), hhas (by decide)]

/-- What a Manifest satisfies before its member sets are looked at. -/
structure ManifestStructured (inp : Members) (now : Int) (body : Members) : Prop where
  shaped : Shaped body requiredManifestFields manifestTypes
  popShaped : Shaped (body.get (txt "proof_of_possession")).members requiredPopFields popTypes
  hintShaped : Shaped (body.get (txt "identity_hint")).members requiredIdentityHintFields identityHintTypes
  clock : ∃ clock, P.toInt ((inp.get? (txt "now")).getD (.int now)) = .ok clock
  version : (body.get (txt "version")).inContainer
    ((inp.get? (txt "supported_versions")).getD (.list [.str protocolVersion])) = .ok true
  grammar : validateGrammar P body = .ok ()
  hint : validateIdentityHint P (body.get (txt "identity_hint")).members = .ok ()

/-- What an unknown member is reported after. -/
theorem checkManifestStructure_reached {body : Members} {supported : JsonValue}
    (hversion : ∃ s, body.get (txt "version") = .str s)
    (h : Raises (checkManifestStructure P (.dict body) supported) "UNKNOWN_FIELD" ∨
      checkManifestStructure P (.dict body) supported = .ok ()) :
    (body.get (txt "version")).inContainer supported = .ok true ∧ validateGrammar P body = .ok () ∧
      validateIdentityHint P (body.get (txt "identity_hint")).members = .ok () := by
  cases h with
  | inl h =>
    rw [checkManifestStructure, JsonValue.members, raises_bind_right (not_raises_of_uncoded (inContainer_uncoded _ _))] at h
    obtain ⟨known, hknown, h⟩ := h
    rw [raises_bind_right (not_raises_of_under (by decide)
      (describeStr_fails P hversion fun _ => @under_aitpError "MANIFEST_VERSION_UNKNOWN" _))] at h
    obtain ⟨_, hsupported, h⟩ := h
    rw [raiseWith_eq_ok, Bool.not_eq_false'] at hsupported
    subst hsupported
    rw [raises_bind_right (not_raises_of_under (by decide) (validateGrammar_under P))] at h
    obtain ⟨_, hgrammar, h⟩ := h
    rw [raises_bind_right (not_raises_of_under (by decide) (validateIdentityHint_under P))] at h
    obtain ⟨_, hhint, _⟩ := h
    exact ⟨hknown, hgrammar, hhint⟩
  | inr h =>
    simp only [checkManifestStructure, JsonValue.members, bind_eq_ok, exists_unit, raiseWith_eq_ok, Bool.not_eq_false'] at h
    obtain ⟨known, hknown, rfl, hgrammar, hhint, _⟩ := h
    exact ⟨hknown, hgrammar, hhint⟩

theorem verifyManifest_reached {inp body : Members} {now : Int} (hman : inp.get? (txt "manifest") = some (.dict body))
    (h : Raises (verifyManifest P inp now) "UNKNOWN_FIELD") : ManifestStructured P inp now body := by
  have hindex : inp.index (txt "manifest") = .ok (.dict body) := Members.index_eq_ok.mpr hman
  rw [verifyManifest, hindex, ok_bind, raises_bind_right (not_raises_of_under (by decide) (shape_under P))] at h
  obtain ⟨_, hshape, h⟩ := h
  rw [raises_bind_right (not_raises_of_under (by decide) (shape_under P))] at h
  obtain ⟨_, hpop, h⟩ := h
  rw [raises_bind_right (not_raises_of_under (by decide) (shape_under P))] at h
  obtain ⟨_, hhint, h⟩ := h
  rw [raises_bind_right (not_raises_of_uncoded (toInt_uncoded P _))] at h
  obtain ⟨clock, hclock, h⟩ := h
  obtain ⟨_, heq, hshaped⟩ := (shape_eq_ok P).mp hshape
  obtain rfl := JsonValue.dict.inj heq
  rw [shape_eq_ok] at hpop hhint
  obtain ⟨pop, hpop, hpopShaped⟩ := hpop
  obtain ⟨hint, hhint, hhintShaped⟩ := hhint
  rw [JsonValue.members] at hpop hhint
  have hreached : Raises (checkManifestStructure P (.dict body)
      ((inp.get? (txt "supported_versions")).getD (.list [.str protocolVersion]))) "UNKNOWN_FIELD" ∨
      checkManifestStructure P (.dict body)
        ((inp.get? (txt "supported_versions")).getD (.list [.str protocolVersion])) = .ok () := by
    cases raises_bind.mp h with
    | inl h => exact .inl h
    | inr h =>
      obtain ⟨_, hstructure, _⟩ := h
      exact .inr hstructure
  obtain ⟨hversion, hgrammar, hrules⟩ := checkManifestStructure_reached P
    (hshaped.str (by simp [requiredManifestFields]) (by simp [manifestTypes])) hreached
  exact ⟨hshaped, by rwa [hpop], by rwa [hhint], ⟨clock, hclock⟩, hversion, hgrammar, hrules⟩

/-- Removing the unknown members leaves every structural check as it was. -/
theorem ManifestStructured.stripped {inp inp' body : Members} {now : Int} (h : ManifestStructured P inp now body)
    (hnow : inp'.get? (txt "now") = inp.get? (txt "now"))
    (hsupported : inp'.get? (txt "supported_versions") = inp.get? (txt "supported_versions")) :
    ManifestStructured P inp' now (strippedManifest body) := by
  constructor
  · have hpop : ∀ entry ∈ manifestTypes, txt "proof_of_possession" = entry.1 → entry.2 = .dict := by decide
    have hhint : ∀ entry ∈ manifestTypes, txt "identity_hint" = entry.1 → entry.2 = .dict := by decide
    have hdeclared := @Shaped.only _ _ manifestFields _ h.shaped (by decide) (by decide)
    exact (hdeclared.insert fun entry he hk => admits_dict (hpop entry he hk)).insert fun entry he hk =>
      admits_dict (hhint entry he hk)
  · rw [get_strippedManifest_pop]
    exact h.popShaped.only (by decide) (by decide)
  · rw [get_strippedManifest_hint]
    exact h.hintShaped.only (by decide) (by decide)
  · rw [hnow]
    exact h.clock
  · rw [get_strippedManifest (by decide) (by decide) (by decide), hsupported]
    exact h.version
  · rw [validateGrammar_stripped]
    exact h.grammar
  · rw [get_strippedManifest_hint, JsonValue.members, validateIdentityHint_only]
    exact h.hint

/-- The steps after the member sets. -/
def concludeManifest (body : Members) (clock : Int) : PyM Members := do
  let expiresAt ← P.toInt (body.get (txt "expires_at"))
  raiseIf (decide (expiresAt ≤ clock)) (AitpError "MANIFEST_EXPIRED" (txt "manifest expires_at is in the past"))
  let aid ← onValueError (parseAid P (body.get (txt "aid")).text) "MANIFEST_INVALID"
    (txt "manifest aid is not a valid AID: " ++ ·)
  checkManifestSignatures P body aid
  .ok [(txt "aid", body.get (txt "aid"))]

/-- A stripped Manifest gets to those steps. -/
theorem verifyManifest_stripped {inp body : Members} {now clock : Int}
    (hman : inp.get? (txt "manifest") = some (.dict (strippedManifest body)))
    (hclock : P.toInt ((inp.get? (txt "now")).getD (.int now)) = .ok clock)
    (h : ManifestStructured P inp now (strippedManifest body)) :
    verifyManifest P inp now = concludeManifest P (strippedManifest body) clock := by
  have hindex : inp.index (txt "manifest") = .ok (.dict (strippedManifest body)) := Members.index_eq_ok.mpr hman
  have hpop := @get_strippedManifest_pop body
  have hhint := @get_strippedManifest_hint body
  have hshape : shape P (.dict (strippedManifest body)) requiredManifestFields manifestTypes (txt "manifest") = .ok () :=
    (shape_eq_ok P).mpr ⟨_, rfl, h.shaped⟩
  have hpopShape : shape P ((strippedManifest body).get (txt "proof_of_possession")) requiredPopFields popTypes
      (txt "manifest.proof_of_possession") = .ok () :=
    (shape_eq_ok P).mpr ⟨_, hpop, by simpa only [hpop, JsonValue.members] using h.popShaped⟩
  have hhintShape : shape P ((strippedManifest body).get (txt "identity_hint")) requiredIdentityHintFields
      identityHintTypes (txt "manifest.identity_hint") = .ok () :=
    (shape_eq_ok P).mpr ⟨_, hhint, by simpa only [hhint, JsonValue.members] using h.hintShaped⟩
  have hstructure : checkManifestStructure P (.dict (strippedManifest body))
      ((inp.get? (txt "supported_versions")).getD (.list [.str protocolVersion])) = .ok () := by
    simp only [checkManifestStructure, JsonValue.members, bind_eq_ok, exists_unit, raiseWith_eq_ok, Bool.not_eq_false',
      rejectUnknownFields_eq_ok]
    exact ⟨true, h.version, rfl, h.grammar, h.hint, ⟨_, rfl, names_strippedManifest⟩, ⟨_, hpop, Members.names_only⟩,
      ⟨_, hhint, Members.names_only⟩⟩
  rw [verifyManifest, hindex, ok_bind, hshape, ok_bind, JsonValue.members, hpopShape, ok_bind, hhintShape, ok_bind, hclock,
    ok_bind]
  dsimp only
  rw [hstructure, ok_bind, concludeManifest]

theorem valueErrors_uncoded {α : Type} {x : PyM α} (h : FailsWith IsValueError x) : FailsWith Uncoded x := by
  refine h.mono fun e he => ?_
  cases e with
  | aitp => cases he
  | raised => exact uncoded_raised

/-- The structural code raised by the signature steps is canonicalization's. -/
theorem raises_checkManifestSignatures {body : Members} {aid : Aid} :
    Raises (checkManifestSignatures P body aid) "MANIFEST_INVALID" ↔
      PossessionProven P body aid ∧ (∃ raw, TaggedSignature (body.get (txt "signature")) aid.alg raw) ∧
        Refused (.dict (body.without (txt "signature"))) := by
  have hdecode (sig : JsonValue) (sigErr : String) (hcode : sigErr ≠ "MANIFEST_INVALID") :
      ¬ Raises (decodeTaggedSignature P sig aid sigErr) "MANIFEST_INVALID" :=
    not_raises_of_under hcode (decodeTaggedSignature_under P)
  rw [checkManifestSignatures, raises_bind_right (hdecode _ _ (by decide))]
  simp only [raises_bind_right (not_raises_of_uncoded (valueErrors_uncoded (b64urlDecode_valueErrors _))),
    raises_bind_right (not_raises_raiseIf (by decide : "MANIFEST_POP_FAILED" ≠ "MANIFEST_INVALID")), exists_unit,
    raises_bind_right (hdecode _ "MANIFEST_SIGNATURE_INVALID" (by decide)),
    raises_bind_left fun _ => not_raises_raiseIf (by decide : "MANIFEST_SIGNATURE_INVALID" ≠ "MANIFEST_INVALID"),
    raises_canonicalBytes, raiseIf_eq_ok, Bool.not_eq_false']
  simp only [decodeTaggedSignature, decodeTaggedSignatureFor_eq_ok]
  constructor
  · intro h
    obtain ⟨popRaw, hpop, challenge, hchallenge, hverified, raw, hraw, hrefused⟩ := h
    exact ⟨⟨challenge, hchallenge, popRaw, hpop, hverified⟩, ⟨raw, hraw⟩, hrefused⟩
  · intro h
    obtain ⟨⟨challenge, hchallenge, popRaw, hpop, hverified⟩, ⟨raw, hraw⟩, hrefused⟩ := h
    exact ⟨popRaw, hpop, challenge, hchallenge, hverified, raw, hraw, hrefused⟩

/-- The two late structural checks pass: the identifier's key decodes, and the body
canonicalizes when the signatures get that far. An expired Manifest reaches neither. -/
def LateManifestChecks (body : Members) (clock : Int) : Prop :=
  (body.get (txt "expires_at")).intValue ≤ clock ∨
    ∃ aid, parseAid P (body.get (txt "aid")).text = .ok aid ∧
      (PossessionProven P body aid → (∃ raw, TaggedSignature (body.get (txt "signature")) aid.alg raw) →
        ¬ Refused (.dict (body.without (txt "signature"))))

theorem raises_concludeManifest {body : Members} {clock : Int} (h : Shaped body requiredManifestFields manifestTypes) :
    ¬ Raises (concludeManifest P body clock) "MANIFEST_INVALID" ↔ LateManifestChecks P body clock := by
  have hexpires : P.toInt (body.get (txt "expires_at")) = .ok (body.get (txt "expires_at")).intValue :=
    toInt_of_admits P (h.admits (by simp [requiredManifestFields]) (by simp [manifestTypes]))
  rw [concludeManifest, hexpires, ok_bind,
    raises_bind_right (not_raises_raiseIf (by decide : "MANIFEST_EXPIRED" ≠ "MANIFEST_INVALID"))]
  simp only [exists_unit, raiseIf_eq_ok, decide_eq_false_iff_not, raises_bind (x := onValueError _ _ _),
    raises_of_under (onValueError_under (parseAid_valueErrors P _)), ne_eq, onValueError_eq_ok,
    raises_bind_left fun _ => not_raises_ok, raises_checkManifestSignatures, LateManifestChecks]
  constructor
  · intro hno
    by_cases hlive : (body.get (txt "expires_at")).intValue ≤ clock
    · exact .inl hlive
    · right
      by_contra hc
      push Not at hc
      apply hno
      refine ⟨hlive, ?_⟩
      by_cases hparse : ∃ aid, parseAid P (body.get (txt "aid")).text = .ok aid
      · obtain ⟨aid, haid⟩ := hparse
        obtain ⟨hpossession, hsig, hrefused⟩ := hc aid haid
        exact .inr ⟨aid, haid, hpossession, hsig, hrefused⟩
      · exact .inl fun aid haid => hparse ⟨aid, haid⟩
  · intro hlate hraised
    obtain ⟨hlive, hraised⟩ := hraised
    obtain ⟨aid, haid, hlate⟩ := hlate.resolve_left hlive
    cases hraised with
    | inl hparse => exact hparse aid haid
    | inr hraised =>
      obtain ⟨found, hfound, hpossession, hsig, hrefused⟩ := hraised
      obtain rfl := Except.ok.inj (haid.symm.trans hfound)
      exact hlate hpossession hsig hrefused

/-! ### Revocation snapshots -/

/-- A deny list without the members outside its closed sets. -/
def strippedList (body : Members) : Members :=
  (body.only revocationBodyFields).insert (txt "entries")
    (.list ((body.get (txt "entries")).items.map (fun entry => .dict (entry.members.only entryFields))))

/-- A snapshot without the members outside its closed sets. -/
def strippedSnapshot (wrapper body : Members) : Members :=
  (wrapper.only snapshotFields).insert (txt "revocation_list") (.dict (strippedList body))

theorem get_strippedList {body : Members} {key : Text} (hk : key ∈ revocationBodyFields) (hentries : txt "entries" ≠ key) :
    (strippedList body).get key = body.get key := by
  rw [strippedList, Members.get_insert_of_ne hentries, Members.get_only hk]

theorem items_strippedList {body : Members} : ((strippedList body).get (txt "entries")).items =
    (body.get (txt "entries")).items.map (fun entry => .dict (entry.members.only entryFields)) := by
  rw [strippedList, Members.get_insert_self, JsonValue.items]

theorem names_strippedList {body : Members} : ∀ key ∈ (strippedList body).names, key ∈ revocationBodyFields :=
  Members.names_insert Members.names_only (by decide)

theorem names_strippedSnapshot {wrapper body : Members} :
    ∀ key ∈ (strippedSnapshot wrapper body).names, key ∈ snapshotFields :=
  Members.names_insert Members.names_only (by decide)

theorem RevocationBody.stripped {body : Members} (h : RevocationBody body) : RevocationBody (strippedList body) := by
  constructor
  · have hentries : ∀ entry ∈ revocationBodyTypes, txt "entries" = entry.1 → entry.2 = .list := by decide
    have hdeclared := @Shaped.only _ _ revocationBodyFields _ h.shaped (by decide) (by decide)
    exact hdeclared.insert fun entry he hk => admits_list (hentries entry he hk)
  · rw [get_strippedList (by decide) (by decide)]
    exact h.version
  · rw [items_strippedList]
    intro entry hm
    obtain ⟨whole, hw, rfl⟩ := List.mem_map.mp hm
    obtain ⟨members, rfl, hs⟩ := h.entries whole hw
    exact ⟨_, rfl, hs.only (by decide) (by decide)⟩

theorem SnapshotShape.stripped {wrapper body : Members} (h : SnapshotShape wrapper body) :
    SnapshotShape (strippedSnapshot wrapper body) (strippedList body) := by
  constructor
  · intro key hk
    rw [Members.has, strippedSnapshot, Members.get?_insert]
    split
    · rfl
    · rw [Members.get?_only hk]
      exact h.present key hk
  · rw [strippedSnapshot, Members.get_insert_of_ne (by decide), Members.get_only (by decide)]
    exact h.signature
  · exact Members.get_insert_self _ _ _
  · exact h.body.stripped

theorem verifySnapshotTrust_reached {wrapper body : Members} (hbody : wrapper.get (txt "revocation_list") = .dict body)
    (h : Raises (verifySnapshotTrust P (.dict wrapper)) "UNKNOWN_FIELD") : SnapshotShape wrapper body := by
  rw [verifySnapshotTrust, raises_bind_right (not_raises_of_under (by decide) (validateSnapshotShape_under P))] at h
  obtain ⟨⟨found, list⟩, hshape, _⟩ := h
  obtain ⟨heq, hs⟩ := (validateSnapshotShape_iff P).mp hshape
  obtain rfl := JsonValue.dict.inj heq
  obtain rfl := JsonValue.dict.inj (hbody.symm.trans hs.list)
  exact hs

/-- The steps after the member sets. -/
def concludeSnapshot (wrapper body : Members) : PyM Members := do
  let issuer ← onValueError (parseAid P (body.get (txt "issuer")).text) "REVOCATION_SNAPSHOT_INVALID"
    (txt "revocation_list issuer is not a valid AID: " ++ ·)
  let raw ← decodeTaggedSignature P (wrapper.get (txt "signature")) issuer "REVOCATION_SNAPSHOT_SIGNATURE_INVALID"
  let bytes ← canonicalBytes (.dict body) "REVOCATION_SNAPSHOT_INVALID" (txt "revocation_list")
  raiseIf (!verifyDigest P issuer.publicKey (P.sha256 bytes) raw)
    (AitpError "REVOCATION_SNAPSHOT_SIGNATURE_INVALID"
      (txt "snapshot signature does not verify under the issuing peer's key"))
  .ok body

theorem verifySnapshotTrust_stripped {wrapper body : Members} (h : SnapshotShape wrapper body) :
    verifySnapshotTrust P (.dict (strippedSnapshot wrapper body)) =
      concludeSnapshot P (strippedSnapshot wrapper body) (strippedList body) := by
  have hshape := (validateSnapshotShape_iff P).mpr ⟨rfl, h.stripped⟩
  have hknown {obj : Members} {allowed : List Text} {what : Text} (hn : ∀ key ∈ obj.names, key ∈ allowed) :
      rejectUnknownFields P (.dict obj) allowed "REVOCATION_SNAPSHOT_INVALID" what = .ok () :=
    (rejectUnknownFields_eq_ok P).mpr ⟨_, rfl, hn⟩
  have hentries : forEach (fun entry =>
      rejectUnknownFields P entry entryFields "REVOCATION_SNAPSHOT_INVALID" (txt "revocation_list entry"))
      ((strippedList body).get (txt "entries")).items = .ok () := by
    rw [items_strippedList, forEach_eq_ok]
    intro entry hm
    obtain ⟨whole, _, rfl⟩ := List.mem_map.mp hm
    exact hknown Members.names_only
  rw [verifySnapshotTrust, hshape, ok_bind]
  dsimp only
  rw [hknown names_strippedSnapshot, ok_bind, hknown names_strippedList, ok_bind, hentries, ok_bind, concludeSnapshot]

/-- The two late structural checks pass: the issuer parses, and the deny list
canonicalizes when the signature field decodes. -/
def LateSnapshotChecks (wrapper body : Members) : Prop :=
  ∃ issuer, parseAid P (body.get (txt "issuer")).text = .ok issuer ∧
    ((∃ raw, TaggedSignature (wrapper.get (txt "signature")) issuer.alg raw) → ¬ Refused (.dict body))

theorem raises_concludeSnapshot {wrapper body : Members} :
    ¬ Raises (concludeSnapshot P wrapper body) "REVOCATION_SNAPSHOT_INVALID" ↔ LateSnapshotChecks P wrapper body := by
  have hdecode (issuer : Aid) :
      ¬ Raises (decodeTaggedSignature P (wrapper.get (txt "signature")) issuer "REVOCATION_SNAPSHOT_SIGNATURE_INVALID")
        "REVOCATION_SNAPSHOT_INVALID" := not_raises_of_under (by decide) (decodeTaggedSignature_under P)
  have hlast (bytes raw : Bytes) (issuer : Aid) :
      ¬ Raises (do
        raiseIf (!verifyDigest P issuer.publicKey (P.sha256 bytes) raw)
          (AitpError "REVOCATION_SNAPSHOT_SIGNATURE_INVALID"
            (txt "snapshot signature does not verify under the issuing peer's key"))
        (.ok body : PyM Members)) "REVOCATION_SNAPSHOT_INVALID" := by
    rw [raises_bind_left fun _ => not_raises_ok]
    exact not_raises_raiseIf (by decide)
  rw [concludeSnapshot]
  simp only [raises_bind (x := onValueError _ _ _), raises_of_under (onValueError_under (parseAid_valueErrors P _)), ne_eq,
    onValueError_eq_ok, raises_bind_right (hdecode _), raises_bind_left fun _ => hlast _ _ _, raises_canonicalBytes]
  simp only [decodeTaggedSignature, decodeTaggedSignatureFor_eq_ok, LateSnapshotChecks]
  constructor
  · intro hno
    by_cases hparse : ∃ issuer, parseAid P (body.get (txt "issuer")).text = .ok issuer
    · obtain ⟨issuer, hissuer⟩ := hparse
      refine ⟨issuer, hissuer, fun hsig hrefused => hno (.inr ⟨issuer, hissuer, ?_⟩)⟩
      obtain ⟨raw, hraw⟩ := hsig
      exact ⟨raw, hraw, hrefused⟩
    · exact absurd (.inl fun issuer hissuer => hparse ⟨issuer, hissuer⟩) hno
  · intro hlate hraised
    obtain ⟨issuer, hissuer, hlate⟩ := hlate
    cases hraised with
    | inl hparse => exact hparse issuer hissuer
    | inr hraised =>
      obtain ⟨found, hfound, raw, hraw, hrefused⟩ := hraised
      obtain rfl := Except.ok.inj (hissuer.symm.trans hfound)
      exact hlate ⟨raw, hraw⟩ hrefused

/-! ### When the unknown member is the only defect -/

/-- An artifact rejected for an unknown member is structurally sound without it exactly
when the structural checks that come later pass. -/
theorem unknownField_only_defect_iff :
    (∀ (inp body : Members) (now : Int), inp.get? (txt "manifest") = some (.dict body) →
      Raises (verifyManifest P inp now) "UNKNOWN_FIELD" →
      (¬ Raises (verifyManifest P (inp.insert (txt "manifest") (.dict (strippedManifest body))) now) "MANIFEST_INVALID" ↔
        ∃ clock, P.toInt ((inp.get? (txt "now")).getD (.int now)) = .ok clock ∧
          LateManifestChecks P (strippedManifest body) clock)) ∧
    ∀ wrapper body : Members, wrapper.get (txt "revocation_list") = .dict body →
      Raises (verifySnapshotTrust P (.dict wrapper)) "UNKNOWN_FIELD" →
      (¬ Raises (verifySnapshotTrust P (.dict (strippedSnapshot wrapper body))) "REVOCATION_SNAPSHOT_INVALID" ↔
        LateSnapshotChecks P (strippedSnapshot wrapper body) (strippedList body)) := by
  constructor
  · intro inp body now hman hraised
    have hsame {key : Text} (hk : txt "manifest" ≠ key) :
        (inp.insert (txt "manifest") (.dict (strippedManifest body))).get? key = inp.get? key := by
      rw [Members.get?_insert, if_neg hk]
    have hreplaced : (inp.insert (txt "manifest") (.dict (strippedManifest body))).get? (txt "manifest") =
        some (.dict (strippedManifest body)) := by
      rw [Members.get?_insert, if_pos rfl]
    have hstructured := (verifyManifest_reached P hman hraised).stripped P (hsame (by decide)) (hsame (by decide))
    obtain ⟨clock, hclock⟩ := hstructured.clock
    rw [verifyManifest_stripped P hreplaced hclock hstructured, raises_concludeManifest P hstructured.shaped]
    rw [hsame (by decide)] at hclock
    simp only [hclock, Except.ok.injEq, exists_eq_left']
  · intro wrapper body hbody hraised
    rw [verifySnapshotTrust_stripped P (verifySnapshotTrust_reached P hbody hraised), raises_concludeSnapshot]

/-- A Manifest with a member nobody declares. -/
def hintedManifest (aid : Text) : Members :=
  (coordinatorManifest.insert (txt "aid") (.str aid)).insert (txt "routing_hint") (.str (txt "x"))

/-- A snapshot with a member nobody declares. -/
def hintedSnapshot (issuer : Text) : Members :=
  [(txt "revocation_list", .dict ((emptyDenyList agentA).insert (txt "issuer") (.str issuer))),
    (txt "signature", .str snapshotSignatureA), (txt "routing_hint", .str (txt "x"))]

/-- Agent A's Manifest and agent A's deny list, each with one member too many. -/
theorem unknownField_only_defect_hinted :
    (¬ Raises (verifyManifest helloRecording.platform
        (Members.insert [(txt "manifest", .dict (hintedManifest (aidOf agentA)))] (txt "manifest")
          (.dict (strippedManifest (hintedManifest (aidOf agentA))))) referenceClock) "MANIFEST_INVALID" ↔
      ∃ clock, helloRecording.platform.toInt ((Members.get? [(txt "manifest", .dict (hintedManifest (aidOf agentA)))]
          (txt "now")).getD (.int referenceClock)) = .ok clock ∧
        LateManifestChecks helloRecording.platform (strippedManifest (hintedManifest (aidOf agentA))) clock) ∧
    (¬ Raises (verifySnapshotTrust helloRecording.platform
        (.dict (strippedSnapshot (hintedSnapshot (aidOf agentA)) (emptyDenyList agentA))))
        "REVOCATION_SNAPSHOT_INVALID" ↔
      LateSnapshotChecks helloRecording.platform
        (strippedSnapshot (hintedSnapshot (aidOf agentA)) (emptyDenyList agentA)) (strippedList (emptyDenyList agentA))) :=
  ⟨(unknownField_only_defect_iff helloRecording.platform).1 _ _ _ rfl (by decide +kernel),
    (unknownField_only_defect_iff helloRecording.platform).2 _ _ (by decide +kernel) (by decide +kernel)⟩

/-- An identifier in the grammar of AIDs whose 33 octets, all zero, are no point. -/
def pointlessAid : Text := txt "aid:pubkey:p256:" ++ .replicate 44 0x41

/-- Both codes for one Manifest, and both for one snapshot: the unknown member hides an
identifier without a key. -/
theorem unknownField_hides_defect :
    (Raises (verifyManifest helloRecording.platform [(txt "manifest", .dict (hintedManifest pointlessAid))] referenceClock)
        "UNKNOWN_FIELD" ∧
      Raises (verifyManifest helloRecording.platform
        (Members.insert [(txt "manifest", .dict (hintedManifest pointlessAid))] (txt "manifest")
          (.dict (strippedManifest (hintedManifest pointlessAid)))) referenceClock) "MANIFEST_INVALID") ∧
    Raises (verifySnapshotTrust helloRecording.platform (.dict (hintedSnapshot (txt "nobody")))) "UNKNOWN_FIELD" ∧
      Raises (verifySnapshotTrust helloRecording.platform
        (.dict (strippedSnapshot (hintedSnapshot (txt "nobody"))
          ((emptyDenyList agentA).insert (txt "issuer") (.str (txt "nobody")))))) "REVOCATION_SNAPSHOT_INVALID" := by
  decide +kernel

end AitpVerifier
