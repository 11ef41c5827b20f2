import AitpVerifier.Canonical
import AitpVerifier.Participants

/-!
# Signing inputs of different kinds

Seven kinds of octets are signed. Three carry a domain prefix; a challenge has
sixteen octets; the other three are the canonical forms of objects whose closed
member sets leave one choice each for how the first name starts. So the octets
themselves say what kind they are.
-/
open PyText

namespace Pattern

/-- Exactly `n` characters of one class. -/
theorem run_times_set {α : Type} {negated : Bool} {ranges : List (Nat × Nat)} {n : Nat} {s : Text} {g : Captures}
    {k : Text → Captures → Option α} {a : α} (h : run (times n (.set negated ranges)) s g k = some a) :
    n ≤ s.length ∧ (∀ c ∈ s.take n, inSet negated ranges c) ∧ k (s.drop n) g = some a := by
  induction n generalizing s with
  | zero => exact ⟨Nat.zero_le _, by simp, h⟩
  | succ n ih =>
    cases s with
    | nil => simp [times, run] at h
    | cons c rest =>
      simp only [times, run] at h
      by_cases hc : inSet negated ranges c = true
      · rw [if_pos hc] at h
        obtain ⟨hle, hall, hk⟩ := ih h
        exact ⟨by simpa using hle, List.forall_mem_cons.mpr ⟨hc, hall⟩, hk⟩
      · rw [if_neg hc] at h
        cases h

theorem fullMatch_times_set {negated : Bool} {ranges : List (Nat × Nat)} {n : Nat} {s : Text}
    (h : (times n (.set negated ranges)).fullMatch s) : s.length = n ∧ ∀ c ∈ s, inSet negated ranges c := by
  obtain ⟨g, hg⟩ := Option.isSome_iff_exists.mp h
  obtain ⟨hle, hall, hrest⟩ := run_times_set hg
  by_cases hempty : (s.drop n).isEmpty = true
  · have hdrop : s.length ≤ n := by simpa using hempty
    have hlen : s.length = n := by omega
    rw [List.take_of_length_le hdrop] at hall
    exact ⟨hlen, hall⟩
  · rw [if_neg hempty] at hrest
    cases hrest

end Pattern

namespace AitpVerifier

open Checked Jcs KeySort

/-! ### How long a decoding is -/

theorem unpackSextets_length : ∀ {xs : List Nat} {data : Bytes}, unpackSextets xs = some data →
    data.length = xs.length * 3 / 4
  | [], _, h => by
    rw [← Option.some.inj h]
    rfl
  | [_], _, h => by cases h
  | [_, _], _, h => by
    rw [← Option.some.inj h]
    simp
  | [_, _, _], _, h => by
    rw [← Option.some.inj h]
    simp
  | a :: b :: c :: d :: rest, data, h => by
    rw [unpackSextets, Option.map_eq_some_iff] at h
    obtain ⟨tail, htail, rfl⟩ := h
    have ih := unpackSextets_length htail
    simp only [List.length_append, List.length_cons, List.length_nil, ih]
    omega

/-- Every four characters make three octets. -/
theorem b64urlDecode_length {text : Text} {data : Bytes} (h : b64urlDecode text = .ok data) :
    data.length = text.length * 3 / 4 := by
  simp only [b64urlDecode, urlsafeB64decode, bind_eq_ok, exists_unit, raiseIf_eq_ok] at h
  obtain ⟨hclean, h⟩ := h
  cases hu : unpackSextets (text.filterMap sextet?) with
  | none => simp [hu] at h
  | some found =>
    rw [hu] at h
    obtain rfl := Except.ok.inj h
    have hall : ∀ c ∈ text, (sextet? c).isSome = true := by
      intro c hc
      have hnone := List.any_eq_false.mp hclean c hc
      simpa [Option.isSome_iff_ne_none, Option.isNone_iff_eq_none] using hnone
    rw [unpackSextets_length hu, List.length_filterMap_eq_countP, List.countP_eq_length.mpr hall]

/-! ### How a canonical object starts -/

/-- Each part of a container takes at least its own share of the text. -/
theorem serializeParts_length {α : Type} {step : Serializer α} {parts : List α} {share : Nat} {first : Bool}
    {visits visits' : Nat} {out : Text}
    (hstep : ∀ a visits out visits', step a visits = .ok (out, visits') → share ≤ out.length)
    (h : serializeParts step first parts visits = .ok (out, visits')) : share * parts.length ≤ out.length := by
  induction parts generalizing first visits out visits' with
  | nil => simp
  | cons a rest ih =>
    simp only [serializeParts, bind_eq_ok, Prod.exists, Except.ok.injEq, Prod.mk.injEq] at h
    obtain ⟨part, mid, hpart, more, last, hmore, rfl, rfl⟩ := h
    have hhead := hstep a visits part mid hpart
    have htail := ih hmore
    simp only [List.length_append, List.length_cons, Nat.mul_succ]
    omega

/-- The text of an object starts with its least name, and has room for every member. -/
theorem dumps_dict_starts {members : List (Text × JsonValue)} {text : Text} {least : Text}
    (h : dumps (.dict members) = .ok text) (hleast : least ∈ Members.names members) :
    3 * members.length + 2 ≤ text.length ∧ ∃ name ∈ Members.names members, codeUnits name ≤ codeUnits least ∧
      ∃ rest, text = 0x7B :: 0x22 :: (name.flatMap escapeChar ++ rest) := by
  simp only [dumps, serialize, bind_eq_ok, visit_eq_ok, sortNames_eq_ok, Prod.exists, Except.ok.injEq,
    Prod.mk.injEq] at h
  obtain ⟨out, visits, ⟨mid, _, sorted, ⟨_, rfl⟩, body, last, hbody, rfl, _⟩, rfl⟩ := h
  have hopen : txt "\x7b" = [0x7B] := by decide
  have hclose : txt "\x7d" = [0x7D] := by decide
  constructor
  · have hlen : 3 * (sortBy codeUnits (Members.names members)).length ≤ body.length := by
      refine serializeParts_length ?_ hbody
      intro name visits out visits' hpart
      simp only [bind_eq_ok, Prod.exists, Except.ok.injEq, Prod.mk.injEq] at hpart
      obtain ⟨value, _, _, rfl, _⟩ := hpart
      have hcolon : (txt ":").length = 1 := by decide
      simp only [formatString_eq, List.length_append, List.length_cons, List.length_nil, hcolon]
      omega
    have hcount : (sortBy codeUnits (Members.names members)).length = members.length := by
      rw [(sortBy_perm codeUnits (Members.names members)).length_eq, Members.names, List.length_map]
    rw [hcount] at hlen
    simp only [hopen, hclose, List.length_append, List.length_cons, List.length_nil]
    omega
  · cases hs : sortBy codeUnits (Members.names members) with
    | nil =>
      have hin : least ∈ sortBy codeUnits (Members.names members) := mem_sortBy.mpr hleast
      rw [hs] at hin
      cases hin
    | cons name rest =>
      have hhead : name ∈ sortBy codeUnits (Members.names members) := by
        rw [hs]
        exact List.mem_cons_self
      refine ⟨name, mem_sortBy.mp hhead, sortBy_head_le hs hleast, ?_⟩
      rw [hs] at hbody
      simp only [serializeParts, bind_eq_ok, Prod.exists, Except.ok.injEq, Prod.mk.injEq] at hbody
      obtain ⟨_, _, ⟨value, _, _, rfl, _⟩, more, _, _, rfl, _⟩ := hbody
      rw [hopen, formatString_eq]
      exact ⟨[0x22] ++ txt ":" ++ value ++ more ++ txt "\x7d", by simp⟩

/-! ### The octets of a text -/

/-- No character encodes to nothing. -/
theorem length_le_utf8 (s : Text) : s.length ≤ (s.flatMap utf8Char).length := by
  induction s with
  | nil => exact Nat.le_refl _
  | cons c rest ih =>
    have hchar : 1 ≤ (utf8Char c).length := by
      unfold utf8Char
      dsimp only
      split_ifs <;> simp
    rw [List.flatMap_cons, List.length_append, List.length_cons]
    omega

/-- Whether a name is spelled from `lead` on. -/
def leads (lead : CodePoint) (name : Text) : Bool := (name.flatMap escapeChar).head? == some lead

/-- An object whose members come from a closed set, one of them least, starts as the
least ones of that set do, and has more than sixteen octets when it has five members. -/
theorem canonical_starts {members : List (Text × JsonValue)} {octets : Bytes} {least : Text} {allowed : List Text}
    (lead : CodePoint) (h : canonicalize (.dict members) = .ok octets) (hleast : least ∈ Members.names members)
    (hcount : 5 ≤ members.length) (hknown : ∀ name ∈ Members.names members, name ∈ allowed) (hascii : lead.val < 0x80)
    (hlead : (allowed.all fun name => decide (codeUnits least < codeUnits name) || leads lead name) = true) :
    16 < octets.length ∧ ∃ rest, octets = 0x7B :: 0x22 :: .ofNat lead.val :: rest := by
  simp only [canonicalize, bind_eq_ok] at h
  obtain ⟨text, hdumps, h⟩ := h
  obtain ⟨hlen, name, hname, hle, rest, rfl⟩ := dumps_dict_starts hdumps hleast
  have hstart := List.all_eq_true.mp hlead name (hknown name hname)
  rw [Bool.or_eq_true, decide_eq_true_eq, leads, beq_iff_eq] at hstart
  obtain ⟨more, hmore⟩ : ∃ more, name.flatMap escapeChar = lead :: more := by
    rcases hstart with hlt | hhead
    · exact absurd hlt (not_lt.mpr hle)
    · cases hs : name.flatMap escapeChar with
      | nil => rw [hs] at hhead; cases hhead
      | cons c more =>
        rw [hs, List.head?_cons, Option.some.injEq] at hhead
        exact ⟨more, by rw [hhead]⟩
  cases hu : utf8? (0x7B :: 0x22 :: (name.flatMap escapeChar ++ rest)) with
  | none => simp [hu] at h
  | some found =>
    rw [hu] at h
    obtain rfl := Except.ok.inj h
    obtain ⟨_, rfl⟩ := utf8?_eq_some_iff.mp hu
    have hoctets := length_le_utf8 (0x7B :: 0x22 :: (name.flatMap escapeChar ++ rest))
    refine ⟨by omega, ((more ++ rest).flatMap utf8Char), ?_⟩
    rw [hmore, List.cons_append, List.flatMap_cons, List.flatMap_cons, List.flatMap_cons, utf8Char_ascii hascii]
    rfl

/-! ### The seven kinds -/

inductive SigningKind where
  | envelope | manifest | revocationList | sessionBundle | popChallenge | pinnedKeyProof | spiffeProof
  deriving DecidableEq, Repr

/-- What the octets of a signing input say they are: by their number, else by the third
where an object starts, else by the sixth. -/
def kindOf (octets : Bytes) : Option SigningKind :=
  if octets.length = 16 then some .popChallenge
  else if octets[0]? = some 0x7B then
    if octets[2]? = some 0x61 then some .manifest
    else if octets[2]? = some 0x65 then some .revocationList
    else if octets[2]? = some 0x63 then some .sessionBundle
    else none
  else if octets[5]? = some 0x65 then some .envelope
  else if octets[5]? = some 0x70 then some .pinnedKeyProof
  else if octets[5]? = some 0x73 then some .spiffeProof
  else none

variable (P : Platform)

/-- A Manifest that its own shape checks admit. -/
structure ManifestAdmitted (man supported : JsonValue) : Prop where
  shape : shape P man requiredManifestFields manifestTypes (txt "manifest") = .ok ()
  pop : AitpVerifier.shape P (man.members.get (txt "proof_of_possession")) requiredPopFields popTypes
    (txt "manifest.proof_of_possession") = .ok ()
  hint : AitpVerifier.shape P (man.members.get (txt "identity_hint")) requiredIdentityHintFields identityHintTypes
    (txt "manifest.identity_hint") = .ok ()
  structured : checkManifestStructure P man supported = .ok ()

/-- The octets a signature of each kind is made over. -/
inductive SigningInput : SigningKind → Bytes → Prop
  | envelope {value : JsonValue} {env : Members} {octets : Bytes} : validateEnvelopeShape P value = .ok env →
      envelopeSigningInput env = .ok octets → SigningInput .envelope octets
  | manifest {man supported : JsonValue} {octets : Bytes} : ManifestAdmitted P man supported →
      canonicalBytes (.dict (man.members.without (txt "signature"))) "MANIFEST_INVALID" (txt "manifest") = .ok octets →
      SigningInput .manifest octets
  | revocationList {snapshot : JsonValue} {wrapper body : Members} {octets : Bytes} :
      validateSnapshotShape P snapshot = .ok (wrapper, body) →
      rejectUnknownFields P (.dict body) revocationBodyFields "REVOCATION_SNAPSHOT_INVALID" (txt "revocation_list") =
        .ok () →
      canonicalBytes (.dict body) "REVOCATION_SNAPSHOT_INVALID" (txt "revocation_list") = .ok octets →
      SigningInput .revocationList octets
  | sessionBundle {value : JsonValue} {body : Members} {octets : Bytes} : checkBundleShape P value = .ok body →
      canonicalBytes (.dict (body.without (txt "signature"))) "SESSION_BUNDLE_INVALID" (txt "session bundle body") =
        .ok octets →
      SigningInput .sessionBundle octets
  | popChallenge {man : Members} {octets : Bytes} : validateGrammar P man = .ok () →
      b64urlDecode ((man.get (txt "proof_of_possession")).members.get (txt "challenge")).text = .ok octets →
      SigningInput .popChallenge octets
  | pinnedKeyProof {sender receiver messageId nonce : JsonValue} {timestamp : Int} {octets : Bytes} :
      handshakeProofInput pinnedKeyDomain sender receiver messageId timestamp nonce = .ok octets →
      SigningInput .pinnedKeyProof octets
  | spiffeProof {sender receiver messageId nonce : JsonValue} {timestamp : Int} {octets : Bytes} :
      handshakeProofInput spiffeX509Domain sender receiver messageId timestamp nonce = .ok octets →
      SigningInput .spiffeProof octets

/-! ### Each kind names itself -/

theorem length_of_present {obj : Members} {required : List Text} (hd : required.Nodup)
    (h : ∀ key ∈ required, obj.has key) : required.length ≤ obj.length := by
  have hsub : required ⊆ obj.names := fun key hk => Members.mem_names_iff.mpr (h key hk)
  have hle := (List.subperm_of_subset hd hsub).length_le
  rwa [Members.names, List.length_map] at hle

/-- Without its signature a body keeps its other required members, and no new one. -/
theorem without_present {obj : Members} {required : List Text} (h : ∀ key ∈ required, obj.has key) :
    ∀ key ∈ required.filter (· != txt "signature"), (obj.without (txt "signature")).has key := by
  intro key hk
  obtain ⟨hin, hne⟩ := List.mem_filter.mp hk
  rw [Members.has, Members.get?_without (by simpa using hne)]
  exact h key hin

theorem without_known {obj : Members} {allowed : List Text} (h : ∀ name ∈ obj.names, name ∈ allowed) :
    ∀ name ∈ (obj.without (txt "signature")).names, name ∈ allowed.filter (· != txt "signature") := by
  intro name hn
  obtain ⟨hin, hne⟩ := Members.mem_names_without hn
  exact List.mem_filter.mpr ⟨h name hin, by simpa using hne⟩

theorem kindOf_manifest {man supported : JsonValue} {octets : Bytes} (ha : ManifestAdmitted P man supported)
    (h : canonicalize (.dict (man.members.without (txt "signature"))) = .ok octets) :
    kindOf octets = some .manifest := by
  obtain ⟨hshape, _, _, hstructure⟩ := ha
  cases man with
  | dict body =>
    simp only [shape, bind_eq_ok, exists_unit, requireMembers_eq_ok] at hshape
    simp only [checkManifestStructure, bind_eq_ok, exists_unit, rejectUnknownFields_eq_ok, JsonValue.dict.injEq,
      exists_eq_left'] at hstructure
    obtain ⟨_, _, _, _, _, hknown, _⟩ := hstructure
    have hpresent := without_present hshape.1
    have hleast := Members.mem_names_iff.mpr (hpresent (txt "accepted_trust_anchors") (by decide))
    have hcount := length_of_present (by decide) hpresent
    obtain ⟨hlen, rest, hrest⟩ := canonical_starts 0x61 h hleast (le_trans (by decide) hcount) (without_known hknown)
      (by decide) (by decide +kernel)
    rw [kindOf, if_neg (by omega), hrest]
    rfl
  | _ => simp [shape] at hshape

theorem kindOf_revocationList {snapshot : JsonValue} {wrapper body : Members} {octets : Bytes}
    (hs : validateSnapshotShape P snapshot = .ok (wrapper, body)) (hknown : ∀ name ∈ body.names, name ∈ revocationBodyFields)
    (h : canonicalize (.dict body) = .ok octets) : kindOf octets = some .revocationList := by
  obtain ⟨_, _, hbody⟩ := validateSnapshotShape_eq_ok P hs
  have hpresent := hbody.shaped.present
  have hleast := Members.mem_names_iff.mpr (hpresent (txt "entries") (by decide))
  have hcount := length_of_present (by decide) hpresent
  obtain ⟨hlen, rest, hrest⟩ := canonical_starts 0x65 h hleast (le_trans (by decide) hcount) hknown (by decide)
    (by decide +kernel)
  rw [kindOf, if_neg (by omega), hrest]
  rfl

theorem kindOf_sessionBundle {value : JsonValue} {body : Members} {octets : Bytes}
    (hs : checkBundleShape P value = .ok body)
    (h : canonicalize (.dict (body.without (txt "signature"))) = .ok octets) :
    kindOf octets = some .sessionBundle := by
  obtain ⟨rfl, hshaped, _⟩ := checkBundleShape_eq_ok P hs
  simp only [checkBundleShape, bind_eq_ok, exists_unit, rejectUnknownFields_eq_ok, JsonValue.dict.injEq,
    exists_eq_left'] at hs
  obtain ⟨_, _, hknown, _⟩ := hs
  have hpresent := without_present hshaped.present
  have hleast := Members.mem_names_iff.mpr (hpresent (txt "coordinator") (by decide))
  have hcount := length_of_present (by decide) hpresent
  obtain ⟨hlen, rest, hrest⟩ := canonical_starts 0x63 h hleast (le_trans (by decide) hcount) (without_known hknown)
    (by decide) (by decide +kernel)
  rw [kindOf, if_neg (by omega), hrest]
  rfl

/-- Twenty-two base64url characters are sixteen octets. -/
theorem kindOf_popChallenge {man : Members} {octets : Bytes} (hg : validateGrammar P man = .ok ())
    (h : b64urlDecode ((man.get (txt "proof_of_possession")).members.get (txt "challenge")).text = .ok octets) :
    kindOf octets = some .popChallenge := by
  simp only [validateGrammar, bind_eq_ok, exists_unit, raiseIf_eq_ok, Bool.not_eq_false'] at hg
  obtain ⟨_, _, _, _, _, _, hchallenge, _⟩ := hg
  have hlen := b64urlDecode_length h
  rw [(Pattern.fullMatch_times_set hchallenge).1] at hlen
  rw [kindOf, if_pos hlen]

/-- A prefix longer than a challenge says the kind alone. -/
theorem kindOf_append {front : Bytes} (h : 16 < front.length) (rest : Bytes) :
    kindOf (front ++ rest) = kindOf front := by
  have hget {i : Nat} (hi : i < 16) : (front ++ rest)[i]? = front[i]? := List.getElem?_append_left (by omega)
  have hlong : (front ++ rest).length ≠ 16 := by
    rw [List.length_append]
    omega
  have hfront : front.length ≠ 16 := by omega
  rw [kindOf, kindOf, if_neg hlong, if_neg hfront, hget (by decide), hget (by decide), hget (by decide)]

theorem kindOf_envelope {env : Members} {octets : Bytes} (h : envelopeSigningInput env = .ok octets) :
    kindOf octets = some .envelope := by
  simp only [envelopeSigningInput, bind_eq_ok, Except.ok.injEq] at h
  obtain ⟨body, _, rfl⟩ := h
  rw [kindOf_append (by decide)]
  decide

theorem kindOf_proof {domain : Text} {sender receiver messageId nonce : JsonValue} {timestamp : Int} {octets : Bytes}
    (hlen : 16 < (asciiOctets domain).length)
    (h : handshakeProofInput domain sender receiver messageId timestamp nonce = .ok octets) :
    kindOf octets = kindOf (asciiOctets domain) := by
  simp only [handshakeProofInput, bind_eq_ok, Except.ok.injEq] at h
  obtain ⟨_, _, _, _, _, _, _, _, _, _, _, _, _, _, _, _, rfl⟩ := h
  simp only [List.append_assoc]
  exact kindOf_append hlen _

/-- The octets of a signing input say its kind. -/
theorem SigningInput.kindOf {kind : SigningKind} {octets : Bytes} (h : SigningInput P kind octets) :
    AitpVerifier.kindOf octets = some kind := by
  cases h with
  | envelope _ h => exact kindOf_envelope h
  | manifest ha h => exact kindOf_manifest P ha (canonicalBytes_eq_ok.mp h)
  | revocationList hs hk h =>
    obtain ⟨_, heq, hknown⟩ := (rejectUnknownFields_eq_ok P).mp hk
    obtain rfl := JsonValue.dict.inj heq
    exact kindOf_revocationList P hs hknown (canonicalBytes_eq_ok.mp h)
  | sessionBundle hs h => exact kindOf_sessionBundle P hs (canonicalBytes_eq_ok.mp h)
  | popChallenge hg h => exact kindOf_popChallenge P hg h
  | pinnedKeyProof h =>
    rw [kindOf_proof (by decide) h]
    decide
  | spiffeProof h =>
    rw [kindOf_proof (by decide) h]
    decide

/-- Two messages under one digest. -/
def Collision (octets octets' : Bytes) : Prop := octets ≠ octets' ∧ P.sha256 octets = P.sha256 octets'

/-- No octets are the signing input of two kinds, so a signature that verifies as two kinds
exhibits a collision of the two inputs under the hash, or verifies over two digests. -/
theorem signing_inputs_separated {kind kind' : SigningKind} {octets octets' : Bytes} (h : SigningInput P kind octets)
    (h' : SigningInput P kind' octets') (hne : kind ≠ kind') :
    octets ≠ octets' ∧ ∀ aid sig, FieldVerifies P aid sig (P.sha256 octets) →
      FieldVerifies P aid sig (P.sha256 octets') → Collision P octets octets' ∨
        ∃ digest digest', digest ≠ digest' ∧ FieldVerifies P aid sig digest ∧ FieldVerifies P aid sig digest' := by
  have hoctets : octets ≠ octets' := by
    intro heq
    have hkind := h.kindOf P
    rw [heq, h'.kindOf P] at hkind
    exact hne (Option.some.inj hkind).symm
  refine ⟨hoctets, fun aid sig hv hv' => ?_⟩
  by_cases hdigest : P.sha256 octets = P.sha256 octets'
  · exact .inl ⟨hoctets, hdigest⟩
  · exact .inr ⟨_, _, hdigest, hv, hv'⟩

/-- One agent's recorded Manifest and session bundle. -/
theorem signing_inputs_separated_recorded :
    ∃ octets octets', SigningInput bundleRecording.platform .manifest octets ∧
      SigningInput bundleRecording.platform .sessionBundle octets' ∧ octets ≠ octets' := by
  have hadmitted : ManifestAdmitted bundleRecording.platform (.dict coordinatorManifest)
      (.list [.str protocolVersion]) := by
    constructor <;> decide +kernel
  have hshape : checkBundleShape bundleRecording.platform
      (.dict (bundleBody grantToken [(txt "signature", .str bundleSignature)])) =
        .ok (bundleBody grantToken [(txt "signature", .str bundleSignature)]) := by
    decide +kernel
  have hman : SigningInput bundleRecording.platform .manifest
      (octetsFrom (canonicalize (.dict (coordinatorBody [])))) := .manifest hadmitted (by decide +kernel)
  have hbundle : SigningInput bundleRecording.platform .sessionBundle
      (octetsFrom (canonicalize (.dict (bundleBody grantToken [])))) := .sessionBundle hshape (by decide +kernel)
  exact ⟨_, _, hman, hbundle, (signing_inputs_separated bundleRecording.platform hman hbundle (by decide)).1⟩

end AitpVerifier
