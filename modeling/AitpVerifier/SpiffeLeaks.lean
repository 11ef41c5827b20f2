import AitpVerifier.AnchorOrder
import AitpVerifier.Leaks

/-!
# Exceptions that escape the `spiffe` binding

`verifySpiffe` reports the exceptions its catch-all list names. Anything else that a
read of a certificate, an issuance test or the clock raises leaves it, unless the
handler around that one call names it.
-/
namespace AitpVerifier

open PyText Checked

/-! ### What the catch-all list leaves -/

/-- An exception that the catch-all list does not name. -/
def Unreported : PyErr → Prop
  | .raised kind _ => Spiffe.malformed kind = false
  | .aitp .. => False

instance : DecidablePred Unreported
  | .raised kind _ => inferInstanceAs (Decidable (Spiffe.malformed kind = false))
  | .aitp .. => inferInstanceAs (Decidable False)

/-- An exception that leaves the check as `AitpError`. -/
def Reported (e : PyErr) : Prop := ¬Unreported e

/-- A step raises what the catch-all list does not name. -/
def Escapes {α : Type} (x : PyM α) : Prop := Throws Unreported x

/-- Whatever the step raises, the list names. -/
abbrev Reports {α : Type} (x : PyM α) : Prop := FailsWith Reported x

theorem reported_of_coded {e : PyErr} (h : Coded e) : Reported e := by
  cases e with
  | aitp => exact id
  | raised => cases h

theorem reported_fail {reason : Text} : Reported (Spiffe.fail reason) := reported_of_coded coded_aitpError

theorem reported_raised {kind : ErrorKind} {message : Text} (h : Spiffe.malformed kind = true) :
    Reported (.raised kind message) := by
  rw [Reported, Unreported, h]
  exact Bool.noConfusion

theorem reported_unhashable {value : JsonValue} : Reported value.unhashable := reported_raised rfl

theorem reported_of_valueError {e : PyErr} (h : IsValueError e) : Reported e := by
  cases e with
  | aitp => exact id
  | raised kind =>
    have hkind : kind.isValueError = true := h
    exact reported_raised (by rw [Spiffe.malformed, hkind, Bool.true_or])

section

variable {α β : Type} {x : PyM α} {f : α → PyM β}

theorem reports_of_coded (h : FailsWith Coded x) : Reports x := h.mono fun _ => reported_of_coded

theorem reports_of_valueErrors (h : FailsWith IsValueError x) : Reports x := h.mono fun _ => reported_of_valueError

theorem not_escapes_iff : ¬Escapes x ↔ Reports x := not_throws_iff

theorem not_escapes_ok {a : α} : ¬Escapes (.ok a : PyM α) := not_throws_ok

theorem escapes_bind : Escapes (x >>= f) ↔ Escapes x ∨ ∃ a, x = .ok a ∧ Escapes (f a) := throws_bind

/-- Past a first step that is reported. -/
theorem escapes_bind_right (hx : Reports x) : Escapes (x >>= f) ↔ ∃ a, x = .ok a ∧ Escapes (f a) := throws_bind_right hx

/-- Up to a last step that is reported. -/
theorem escapes_bind_left (hf : ∀ a, x = .ok a → Reports (f a)) : Escapes (x >>= f) ↔ Escapes x := throws_bind_left hf

end

variable (P : Platform)

/-- An error leaves the identity check as itself or under the package's code. -/
theorem verifySpiffe_coded_iff_escapes {identity env : Members} {selfAid store : JsonValue} {now : Int} :
    FailsWith Coded (verifySpiffe P identity env selfAid store now) ↔
      ¬Escapes (Spiffe.verifyDescriptor P identity env selfAid store now) := by
  rw [verifySpiffe, Escapes, not_throws_iff]
  cases Spiffe.verifyDescriptor P identity env selfAid store now with
  | ok u => exact iff_of_true .ok .ok
  | error e =>
    have hone {p : PyErr → Prop} {e : PyErr} : FailsWith p (.error e : PyM Unit) ↔ p e := by simp [FailsWith]
    rw [rescue, hone, hone]
    cases e with
    | aitp => exact iff_of_true coded_aitp id
    | raised kind message =>
      cases hkind : Spiffe.malformed kind with
      | true => simp [hkind, Unreported, coded_aitpError, Spiffe.fail]
      | false => simp [hkind, Unreported, not_coded_raised]

/-! ### Steps that never escape -/

section Reporting

theorem encodeUtf8_reports (s : Text) : Reports (encodeUtf8 s) := by
  rw [encodeUtf8]
  split
  · exact .ok
  · exact .error (reported_raised rfl)

theorem asText_reports (value : JsonValue) (method : Text) : Reports (value.asText method) := by
  cases value with
  | str s => exact .ok
  | _ => exact .error (reported_raised rfl)

theorem describeValue_reports (value : JsonValue) : Reports (describeValue P value) :=
  reports_of_valueErrors (describeValue_valueErrors P value)

/-- The steps that put an error together are reported, and so is the error. -/
def Composes (x : PyM PyErr) : Prop := Reports x ∧ ∀ e, x = .ok e → Reported e

theorem composes_fail {reason : Text} : Composes (.ok (Spiffe.fail reason)) := by
  refine ⟨.ok, fun e he => ?_⟩
  rw [← Except.ok.inj he]
  exact reported_fail

theorem composes_describe {value : JsonValue} {f : Text → PyM PyErr} (hf : ∀ text, Composes (f text)) :
    Composes (describeValue P value >>= f) := by
  refine ⟨(describeValue_reports P value).bind fun text _ => (hf text).1, fun e he => ?_⟩
  obtain ⟨text, _, h⟩ := bind_eq_ok.mp he
  exact (hf text).2 e h

theorem raiseWith_reports {c : Bool} {x : PyM PyErr} (h : Composes x) : Reports (raiseWith c x) :=
  raiseWith_failsWith h.1 h.2

theorem item_reports (value : JsonValue) (key : Text) : Reports (value.item key) := by
  cases value with
  | dict members =>
    rw [JsonValue.item, Members.index]
    split
    · exact .ok
    · exact .error (reported_raised rfl)
  | _ => exact .error (reported_raised rfl)

theorem intText_reports (i : Int) : Reports (intText i) :=
  (FailsWith.raiseIf (reported_raised rfl)).bind fun _ _ => .ok

theorem toInt_reports (value : JsonValue) : Reports (P.toInt value) := by
  cases value with
  | int | bool => exact .ok
  | float f =>
    cases f with
    | finite => exact .ok
    | nan | inf => exact .error (reported_raised rfl)
  | str s =>
    unfold Interpreter.toInt
    dsimp only
    split
    · exact .error (reported_raised rfl)
    · exact (FailsWith.raiseIf (reported_raised rfl)).bind fun _ _ => .ok
  | _ => exact .error (reported_raised rfl)

theorem elements_reports (value : JsonValue) : Reports value.elements := by
  cases value with
  | list | str | dict => exact .ok
  | _ => exact .error (reported_raised rfl)

theorem b64urlDecode_reports (value : JsonValue) : Reports value.b64urlDecode := by
  unfold JsonValue.b64urlDecode
  split
  · exact reports_of_valueErrors (b64urlDecode_valueErrors _)
  · refine (elements_reports value).bind fun _ _ => (FailsWith.forEach fun _ _ => ?_).bind fun _ _ => .error (reported_raised rfl)
    exact (FailsWith.raiseIf (reported_raised rfl)).bind fun _ _ => .raiseIf (reported_raised rfl)

theorem handshakeProofInput_reports {domain : Text} {sender receiver messageId nonce : JsonValue} {timestamp : Int} :
    Reports (handshakeProofInput domain sender receiver messageId timestamp nonce) :=
  (asText_reports _ _).bind fun _ _ => (encodeUtf8_reports _).bind fun _ _ => (asText_reports _ _).bind fun _ _ =>
    (encodeUtf8_reports _).bind fun _ _ => (asText_reports _ _).bind fun _ _ => (encodeUtf8_reports _).bind fun _ _ =>
    (intText_reports _).bind fun _ _ => (b64urlDecode_reports _).bind fun _ _ => .ok

theorem spiffeX509ProofInput_reports {env : Members} {selfAid : JsonValue} :
    Reports (Spiffe.spiffeX509ProofInput P env selfAid) :=
  (toInt_reports P _).bind fun _ _ => (item_reports _ _).bind fun _ _ => handshakeProofInput_reports

theorem parseSpiffeId_reports (value : JsonValue) : Reports (Spiffe.parseSpiffeId P value) := by
  cases value with
  | str s =>
    refine (encodeUtf8_reports s).bind fun _ _ => (FailsWith.raiseIf reported_fail).bind fun _ _ =>
      (FailsWith.raiseIf reported_fail).bind fun _ _ => (FailsWith.raiseIf reported_fail).bind fun _ _ =>
      (FailsWith.raiseIf reported_fail).bind fun _ _ => (FailsWith.forEach fun _ _ => .raiseIf reported_fail).bind fun _ _ => .ok
  | _ => exact (describeValue_reports P _).bind fun _ _ => .error reported_fail

theorem scanStore_reports {trustDomain : Text} {seen : List Text} {found : JsonValue} {entries : List JsonValue} :
    Reports (Spiffe.scanStore trustDomain seen found entries) := by
  induction entries generalizing seen found with
  | nil => exact .ok
  | cons entry rest ih =>
    rw [Spiffe.scanStore]
    split
    · exact (FailsWith.raiseIf reported_fail).bind fun _ _ => ih
    · exact .error reported_fail

theorem bundleFor_reports (store : JsonValue) (trustDomain : Text) : Reports (Spiffe.bundleFor store trustDomain) := by
  cases store with
  | list entries => exact scanStore_reports.bind fun _ _ => (FailsWith.raiseIf reported_fail).bind fun _ _ => .ok
  | _ => exact .error reported_fail

theorem candidateKeys_reports (bundle : JsonValue) (use trustDomain : Text) :
    Reports (Spiffe.candidateKeys bundle use trustDomain) := by
  unfold Spiffe.candidateKeys
  split
  · exact (FailsWith.raiseIf reported_fail).bind fun _ _ => .ok
  · exact .error reported_fail

/-! ### The JWT-SVID -/

theorem selectJwtSvidKey_reports (header : Members) (candidates : List Members) :
    Reports (Spiffe.selectJwtSvidKey P header candidates) := by
  unfold Spiffe.selectJwtSvidKey
  refine (FailsWith.raiseIf reported_fail).bind fun _ _ => (FailsWith.raiseIf (reported_raised rfl)).bind fun _ _ =>
    (raiseWith_reports (composes_describe P fun _ => composes_fail)).bind fun _ _ =>
    (raiseWith_reports (composes_describe P fun _ => composes_fail)).bind fun _ _ => ?_
  split
  · split
    · exact .ok
    · exact .error reported_fail
  · exact .error reported_fail

theorem decodeJwkMember_reports (jwk : Members) (member : Text) : Reports (decodeJwkMember P jwk member) :=
  reports_of_valueErrors (decodeJwkMember_valueErrors P jwk member)

theorem verifyEsSignature_reports {jwk : Members} {alg : Text} {signingInput sig : Bytes} :
    Reports (Spiffe.verifyEsSignature P jwk alg signingInput sig) := by
  unfold Spiffe.verifyEsSignature
  obtain ⟨crvName, curve, size⟩ := Spiffe.esCurve alg
  refine (raiseWith_reports (composes_describe P fun _ => composes_describe P fun _ => composes_fail)).bind fun _ _ =>
    (decodeJwkMember_reports P _ _).bind fun _ _ => (decodeJwkMember_reports P _ _).bind fun _ _ =>
    (FailsWith.raiseIf reported_fail).bind fun _ _ => (FailsWith.raiseIf (reported_raised rfl)).bind fun _ _ => ?_
  split
  · exact .ok
  · exact .ok

theorem fromRsaNumbers_reports (hrsa : ∀ n e, FailsWith IsValueError (P.rsaNumbers n e)) (n e : Bytes) :
    Reports (fromRsaNumbers P n e) :=
  (FailsWith.raiseIf (reported_raised rfl)).bind fun _ _ => (FailsWith.raiseIf (reported_raised rfl)).bind fun _ _ =>
    (FailsWith.raiseIf (reported_raised rfl)).bind fun _ _ => (FailsWith.raiseIf (reported_raised rfl)).bind fun _ _ =>
    (reports_of_valueErrors (hrsa _ _)).bind fun _ _ => .ok

theorem verifyRsaSignature_reports (hrsa : ∀ n e, FailsWith IsValueError (P.rsaNumbers n e)) {jwk : Members} {alg : Text}
    {signingInput sig : Bytes} : Reports (Spiffe.verifyRsaSignature P jwk alg signingInput sig) :=
  (raiseWith_reports (composes_describe P fun _ => composes_fail)).bind fun _ _ =>
    (decodeJwkMember_reports P _ _).bind fun _ _ => (decodeJwkMember_reports P _ _).bind fun _ _ =>
    (fromRsaNumbers_reports P hrsa _ _).bind fun _ _ => .ok

theorem verifyJwtSvidSignature_reports (hrsa : ∀ n e, FailsWith IsValueError (P.rsaNumbers n e)) {jwk : Members} {alg : Text}
    {signingInput sig : Bytes} : Reports (Spiffe.verifyJwtSvidSignature P jwk alg signingInput sig) := by
  unfold Spiffe.verifyJwtSvidSignature
  refine (raiseWith_reports (composes_describe P fun _ => composes_fail)).bind fun _ _ => ?_
  split
  · exact verifyEsSignature_reports P
  · exact verifyRsaSignature_reports P hrsa

theorem checkJwtSvidClaims_reports {claims identity env : Members} {selfAid : JsonValue} {now : Int} :
    Reports (Spiffe.checkJwtSvidClaims P claims identity env selfAid now) :=
  (FailsWith.raiseIf reported_fail).bind fun _ _ => (FailsWith.raiseIf reported_fail).bind fun _ _ =>
    (FailsWith.raiseIf reported_fail).bind fun _ _ => (FailsWith.raiseIf reported_fail).bind fun _ _ =>
    (FailsWith.raiseIf reported_fail).bind fun _ _ => (FailsWith.raiseIf reported_fail).bind fun _ _ =>
    (reports_of_valueErrors (parseAid_valueErrors P _)).bind fun _ _ => .raiseIf reported_fail

theorem verifyJwtSvid_reports (hrsa : ∀ n e, FailsWith IsValueError (P.rsaNumbers n e)) {identity env : Members}
    {selfAid : JsonValue} {candidates : List Members} {now : Int} :
    Reports (Spiffe.verifyJwtSvid P identity env selfAid candidates now) :=
  (reports_of_coded (parseCompact_coded P)).bind fun _ _ => (selectJwtSvidKey_reports P _ _).bind fun _ _ =>
    (verifyJwtSvidSignature_reports P hrsa).bind fun _ _ => (FailsWith.raiseIf reported_fail).bind fun _ _ =>
    checkJwtSvidClaims_reports P

end Reporting

/-! ### Certificates -/

section Certificates

/-- The octets of an entry in standard padded base64. -/
def EntryOctets (entry : JsonValue) (data : Bytes) : Prop :=
  ∃ text, entry = .str text ∧ Spiffe.stdB64Pattern.fullMatch text = true ∧ text.length % 4 = 0 ∧
    Spiffe.stdB64decode? text = some data

/-- The library takes the entry for a certificate. -/
def Loads (entry : JsonValue) (cert : Certificate) : Prop := ∃ data, EntryOctets entry data ∧ P.loadDerCertificate data = .ok cert

/-- The library does not load the entry, for a reason nothing handles. -/
def LoadEscapes (entry : JsonValue) : Prop := ∃ data, EntryOctets entry data ∧ Escapes (P.loadDerCertificate data)

/-- Some item escapes, and those before it pass. -/
def FirstEscapes {α : Type} (passes escapes : α → Prop) (items : List α) : Prop :=
  ∃ before a after, items = before ++ a :: after ∧ (∀ b ∈ before, passes b) ∧ escapes a

theorem not_firstEscapes_nil {α : Type} {passes escapes : α → Prop} : ¬FirstEscapes passes escapes [] := by
  rintro ⟨before, a, after, h, _⟩
  simp at h

theorem firstEscapes_cons {α : Type} {passes escapes : α → Prop} {a : α} {rest : List α} :
    FirstEscapes passes escapes (a :: rest) ↔ escapes a ∨ (passes a ∧ FirstEscapes passes escapes rest) := by
  constructor
  · rintro ⟨before, b, after, heq, hbefore, hb⟩
    cases before with
    | nil =>
      rw [(List.cons.inj heq).1]
      exact .inl hb
    | cons c before =>
      obtain ⟨rfl, rfl⟩ := List.cons.inj heq
      exact .inr ⟨hbefore _ List.mem_cons_self, before, b, after, rfl, fun d hd => hbefore d (List.mem_cons_of_mem _ hd), hb⟩
  · rintro (ha | ⟨ha, before, b, after, rfl, hbefore, hb⟩)
    · exact ⟨[], a, rest, rfl, List.forall_mem_nil _, ha⟩
    · exact ⟨a :: before, b, after, rfl, List.forall_mem_cons.mpr ⟨ha, hbefore⟩, hb⟩

/-- A read of the extensions is inside the handler for the one that is not found. -/
def ReadEscapes (cert : Certificate) : Prop := Throws (fun e => Unreported e ∧ e.isKind .extensionNotFound = false) cert.extensions

/-- The end of the validity period is read where its start is past. -/
def ValidityEscapes (cert : Certificate) (atTime : Int) : Prop :=
  Escapes cert.notValidBefore ∨
    ∃ notBefore, cert.notValidBefore = .ok notBefore ∧ notBefore ≤ atTime ∧ Escapes cert.notValidAfter

/-- An issuance test is inside the handler for a signature that does not verify. -/
def IssuanceEscapes (cert issuer : Certificate) : Prop :=
  Throws (fun e => Unreported e ∧ e.isKind .invalidSignature = false) (P.verifyDirectlyIssuedBy cert issuer)

variable {P}

theorem escapes_onValueError {α : Type} {x : PyM α} {code : String} {message : Text → Text} :
    Escapes (onValueError x code message) ↔ Escapes x := by
  cases x with
  | ok a => exact iff_of_false not_escapes_ok not_escapes_ok
  | error e =>
    rw [onValueError, rescue]
    cases hvalue : e.isValueError with
    | true =>
      refine iff_of_false ?_ ?_
      · exact not_escapes_iff.mpr (.error (reported_of_coded coded_aitpError))
      · exact not_escapes_iff.mpr (.error (reported_of_valueError hvalue))
    | false => rfl

/-- Octets are loaded where the entry holds some, and refused under the package's code elsewhere. -/
theorem der_cases (entry : JsonValue) (what : Text) :
    (∃ data, EntryOctets entry data ∧ Spiffe.der P entry what =
        onValueError (P.loadDerCertificate data) "IDENTITY_FAILED" (fun _ => what ++ txt " is not a DER certificate")) ∨
      (∀ data, ¬EntryOctets entry data) ∧
        Spiffe.der P entry what = .error (Spiffe.fail (what ++ txt " is not standard padded base64")) := by
  cases entry with
  | str text =>
    rw [Spiffe.der]
    cases hguard : (!Spiffe.stdB64Pattern.fullMatch text || text.length % 4 != 0) with
    | true =>
      refine .inr ⟨?_, rfl⟩
      rintro data ⟨_, htext, hmatch, hlength, _⟩
      obtain rfl := JsonValue.str.inj htext
      simp [hmatch, hlength] at hguard
    | false =>
      simp only [Bool.or_eq_false_iff, Bool.not_eq_false', bne_eq_false_iff_eq] at hguard
      cases hdata : Spiffe.stdB64decode? text with
      | some data => exact .inl ⟨data, ⟨text, rfl, hguard.1, hguard.2, hdata⟩, rfl⟩
      | none =>
        refine .inr ⟨?_, rfl⟩
        rintro data ⟨_, htext, _, _, hsome⟩
        obtain rfl := JsonValue.str.inj htext
        rw [hdata] at hsome
        cases hsome
  | _ =>
    refine .inr ⟨?_, rfl⟩
    rintro data ⟨_, htext, _⟩
    cases htext

theorem EntryOctets.unique {entry : JsonValue} {data data' : Bytes} (h : EntryOctets entry data) (h' : EntryOctets entry data') :
    data = data' := by
  obtain ⟨text, rfl, _, _, hdata⟩ := h
  obtain ⟨_, htext, _, _, hdata'⟩ := h'
  rw [JsonValue.str.inj htext] at hdata
  exact Option.some.inj (hdata.symm.trans hdata')

theorem der_eq_ok {entry : JsonValue} {what : Text} {cert : Certificate} :
    Spiffe.der P entry what = .ok cert ↔ Loads P entry cert := by
  rcases der_cases (P := P) entry what with ⟨data, hdata, h⟩ | ⟨hnone, h⟩
  · rw [h, onValueError, rescue_eq_ok]
    constructor
    · intro hload
      exact ⟨data, hdata, hload⟩
    · rintro ⟨data', hdata', hload⟩
      rw [hdata.unique hdata']
      exact hload
  · rw [h]
    refine iff_of_false error_ne_ok ?_
    rintro ⟨data, hdata, _⟩
    exact hnone data hdata

theorem escapes_der {entry : JsonValue} {what : Text} : Escapes (Spiffe.der P entry what) ↔ LoadEscapes P entry := by
  rcases der_cases (P := P) entry what with ⟨data, hdata, h⟩ | ⟨hnone, h⟩
  · rw [h, escapes_onValueError]
    constructor
    · intro hload
      exact ⟨data, hdata, hload⟩
    · rintro ⟨data', hdata', hload⟩
      rw [hdata.unique hdata']
      exact hload
  · rw [h]
    refine iff_of_false (not_escapes_iff.mpr (.error reported_fail)) ?_
    rintro ⟨data, hdata, _⟩
    exact hnone data hdata

theorem collect_der {rest : List JsonValue} {k : Nat} {issuers : List Certificate} :
    collect (fun entry => Spiffe.der P entry.1 (txt "x5c[" ++ decimal entry.2 ++ txt "]")) (rest.zipIdx k) = .ok issuers ↔
      List.Forall₂ (Loads P) rest issuers := by
  induction rest generalizing k issuers with
  | nil => simp [collect, eq_comm]
  | cons entry rest ih =>
    rw [List.zipIdx_cons, collect]
    simp only [bind_eq_ok, der_eq_ok, ih, Except.ok.injEq, List.forall₂_cons_left_iff]
    constructor
    · rintro ⟨cert, hcert, certs, hcerts, rfl⟩
      exact ⟨cert, certs, hcert, hcerts, rfl⟩
    · rintro ⟨cert, certs, hcert, hcerts, rfl⟩
      exact ⟨cert, hcert, certs, hcerts, rfl⟩

theorem escapes_collect_der {rest : List JsonValue} {k : Nat} :
    Escapes (collect (fun entry => Spiffe.der P entry.1 (txt "x5c[" ++ decimal entry.2 ++ txt "]")) (rest.zipIdx k)) ↔
      FirstEscapes (fun entry => ∃ cert, Loads P entry cert) (LoadEscapes P) rest := by
  induction rest generalizing k with
  | nil => exact iff_of_false not_escapes_ok not_firstEscapes_nil
  | cons entry rest ih =>
    rw [List.zipIdx_cons, collect, firstEscapes_cons, escapes_bind, escapes_der]
    simp only [escapes_bind_left fun _ _ => FailsWith.ok, ih, der_eq_ok, exists_and_right]

theorem chainOf_eq_ok {x5c : JsonValue} {leaf : Certificate} {issuers : List Certificate} :
    Spiffe.chainOf P x5c = .ok (leaf, issuers) ↔
      ∃ entries, x5c = .list entries ∧ entries.length ≤ Spiffe.maxChain ∧ List.Forall₂ (Loads P) entries (leaf :: issuers) := by
  unfold Spiffe.chainOf
  split
  · rename_i first rest
    simp only [bind_eq_ok, exists_unit, raiseIf_eq_ok, der_eq_ok, collect_der, Except.ok.injEq, Prod.mk.injEq, decide_eq_false_iff_not,
      not_lt]
    constructor
    · rintro ⟨hlength, leaf', hleaf, issuers', hissuers, rfl, rfl⟩
      exact ⟨first :: rest, rfl, hlength, .cons hleaf hissuers⟩
    · rintro ⟨entries, heq, hlength, hchain⟩
      obtain rfl := JsonValue.list.inj heq
      obtain ⟨hleaf, hissuers⟩ := List.forall₂_cons.mp hchain
      exact ⟨hlength, leaf, hleaf, issuers, hissuers, rfl, rfl⟩
  · rename_i hshape
    refine iff_of_false error_ne_ok ?_
    rintro ⟨entries, rfl, _, hchain⟩
    cases hchain
    exact hshape _ _ rfl

theorem escapes_chainOf {x5c : JsonValue} : Escapes (Spiffe.chainOf P x5c) ↔
    ∃ entries, x5c = .list entries ∧ entries.length ≤ Spiffe.maxChain ∧
      FirstEscapes (fun entry => ∃ cert, Loads P entry cert) (LoadEscapes P) entries := by
  unfold Spiffe.chainOf
  split
  · rename_i first rest
    rw [escapes_bind_right (.raiseIf reported_fail), exists_unit, raiseIf_eq_ok, escapes_bind, escapes_der]
    simp only [escapes_bind_left fun _ _ => FailsWith.ok, escapes_collect_der, der_eq_ok, decide_eq_false_iff_not, not_lt,
      JsonValue.list.injEq, exists_eq_left', firstEscapes_cons, exists_and_right, List.length_cons]
  · rename_i hshape
    refine iff_of_false (not_escapes_iff.mpr (.error reported_fail)) ?_
    rintro ⟨entries, rfl, _, before, entry, after, rfl, _⟩
    cases before with
    | nil => exact hshape _ _ rfl
    | cons => exact hshape _ _ rfl

/-! ### Reading a certificate -/

variable {cert : Certificate} {oid : Text}

theorem escapes_ext? : Escapes (Spiffe.ext? cert oid) ↔ ReadEscapes cert := by
  rw [Spiffe.ext?, ReadEscapes]
  cases cert.extensions with
  | ok extensions => exact iff_of_false not_escapes_ok not_throws_ok
  | error e =>
    dsimp only
    cases hfound : e.isKind .extensionNotFound with
    | true => exact iff_of_false not_escapes_ok (by simp [throws_error, hfound])
    | false =>
      rw [if_neg Bool.false_ne_true, Escapes, throws_error, throws_error]
      exact (and_iff_left hfound).symm

/-- Extensions that could be read once are read again. -/
theorem ext?_reports {value : Option ExtensionValue} (h : Spiffe.ext? cert oid = .ok value) (other : Text) :
    Reports (Spiffe.ext? cert other) := by
  rw [← not_escapes_iff, escapes_ext?, ← @escapes_ext? cert oid, h]
  exact not_escapes_ok

theorem escapes_checkValidity {atTime : Int} {what : Text} :
    Escapes (Spiffe.checkValidity cert atTime what) ↔ ValidityEscapes cert atTime := by
  rw [Spiffe.checkValidity, escapes_bind, ValidityEscapes]
  refine or_congr_right (exists_congr fun notBefore => and_congr_right fun _ => ?_)
  by_cases hle : notBefore ≤ atTime
  · rw [if_pos hle, and_iff_right hle]
    exact escapes_bind_left fun _ _ => FailsWith.ok.bind fun _ _ => .raiseIf reported_fail
  · rw [if_neg hle]
    refine iff_of_false (not_escapes_iff.mpr (FailsWith.ok.bind fun _ _ => .raiseIf reported_fail)) ?_
    rintro ⟨hbefore, _⟩
    exact hle hbefore

theorem escapes_checkCritical {what : Text} : Escapes (Spiffe.checkCritical cert what) ↔ Escapes cert.extensions :=
  escapes_bind_left fun _ _ => .forEach fun _ _ => .raiseIf reported_fail

theorem escapes_checkCa {below : Nat} {what : Text} : Escapes (Spiffe.checkCa cert below what) ↔ ReadEscapes cert := by
  rw [Spiffe.checkCa, ← escapes_ext?]
  refine escapes_bind_left fun bc hbc => ?_
  split
  · refine (FailsWith.raiseIf reported_fail).bind fun _ _ => (ext?_reports hbc _).bind fun _ _ => ?_
    split
    · exact .ok
    · exact .error reported_fail
  · exact .error reported_fail

theorem escapes_checkNameConstraints {trustDomain what : Text} :
    Escapes (Spiffe.checkNameConstraints cert trustDomain what) ↔ ReadEscapes cert := by
  rw [Spiffe.checkNameConstraints, ← escapes_ext?]
  refine escapes_bind_left fun nc _ => ?_
  split
  · exact (FailsWith.raiseIf reported_fail).bind fun _ _ => (FailsWith.raiseIf reported_fail).bind fun _ _ => .raiseIf reported_fail
  · exact .ok

theorem escapes_checkLeaf {subject : JsonValue} : Escapes (Spiffe.checkLeaf cert subject) ↔ ReadEscapes cert := by
  rw [Spiffe.checkLeaf, ← escapes_ext?]
  refine escapes_bind_left fun san hsan => ?_
  have hrejected {reason : Text} {rest : Unit → PyM Unit} : Reports (.error (Spiffe.fail reason) >>= rest) :=
    (FailsWith.error reported_fail).bind fun _ h => absurd h error_ne_ok
  dsimp only
  split
  · refine (FailsWith.raiseIf reported_fail).bind fun _ _ => (ext?_reports hsan _).bind fun _ _ => ?_
    split
    · refine FailsWith.ok.bind fun _ _ => (ext?_reports hsan _).bind fun _ _ => ?_
      split
      · exact .ok
      · exact .error reported_fail
    · exact hrejected
  · exact hrejected

theorem escapes_issuedBy {issuer : Certificate} : Escapes (Spiffe.issuedBy P cert issuer) ↔ IssuanceEscapes P cert issuer := by
  rw [Spiffe.issuedBy, IssuanceEscapes]
  cases P.verifyDirectlyIssuedBy cert issuer with
  | ok u => exact iff_of_false not_escapes_ok not_throws_ok
  | error e =>
    dsimp only
    split
    · rename_i hhandled
      refine iff_of_false not_escapes_ok ?_
      rw [throws_error]
      rintro ⟨hun, hsig⟩
      cases e with
      | aitp => exact hun
      | raised kind =>
        simp only [PyErr.isValueError, PyErr.isKind, Bool.or_eq_true, beq_iff_eq, beq_eq_false_iff_ne] at hhandled hsig
        rw [Unreported, Spiffe.malformed, Bool.or_eq_false_iff] at hun
        rcases hhandled with ((hvalue | rfl) | hinvalid) | rfl
        · rw [hvalue] at hun
          cases hun.1
        · cases hun.2
        · exact hsig hinvalid
        · cases hun.2
    · rename_i hhandled
      rw [Escapes, throws_error, throws_error]
      refine (and_iff_left ?_).symm
      simp only [Bool.or_eq_true, not_or, Bool.not_eq_true] at hhandled
      exact hhandled.1.2

theorem escapes_leafKey : Escapes (Spiffe.leafKey cert) ↔ Escapes cert.publicKey := by
  refine escapes_bind_left fun key _ => ?_
  split
  · exact .ok
  · exact .ok
  · exact .error reported_fail

end Certificates

/-! ### The path -/

section Path

variable {trustDomain : Text} {atTime : Int}

theorem mayIssue_iff {cert : Certificate} {below : Nat} {what what' : Text} : MayIssue cert below trustDomain ↔
    Spiffe.checkCa cert below what = .ok () ∧ Spiffe.checkNameConstraints cert trustDomain what' = .ok () := by
  constructor
  · rintro ⟨hca, husage, hconstraints⟩
    have hchecked : Spiffe.checkCa cert below what = .ok () := checkCa_eq_ok.mpr ⟨hca, husage⟩
    refine ⟨hchecked, ?_⟩
    obtain ⟨_, ⟨extensions, hread, _⟩, _⟩ := hca
    cases hvalue : (extensions.find? (fun e => e.oid == Spiffe.nameConstraintsOid)).map Extension.value with
    | none =>
      rw [Spiffe.checkNameConstraints, Spiffe.ext?, hread]
      dsimp only
      rw [hvalue]
      rfl
    | some value =>
      have hcarries : cert.Carries Spiffe.nameConstraintsOid value := ⟨extensions, hread, hvalue⟩
      cases value with
      | nameConstraints permitted excluded => exact (checkNameConstraints_admits hcarries).mpr (hconstraints _ _ hcarries)
      | _ =>
        rw [Spiffe.checkNameConstraints, ext?_eq_some.mpr hcarries]
        rfl
  · rintro ⟨hca, hconstraints⟩
    exact mayIssue_of_checks hca hconstraints

/-- Where the library is called for a certificate of the path, after the checks before that call. -/
inductive EntryEscapes (trustDomain : Text) (atTime : Int) (i : Nat) (cert : Certificate) (issuer? : Option Certificate) : Prop
  | version : Escapes cert.isV3 → EntryEscapes trustDomain atTime i cert issuer?
  | validity : cert.isV3 = .ok true → ValidityEscapes cert atTime → EntryEscapes trustDomain atTime i cert issuer?
  | extensions : cert.isV3 = .ok true → cert.InForce atTime → Escapes cert.extensions → EntryEscapes trustDomain atTime i cert issuer?
  | issuance {issuer : Certificate} : cert.isV3 = .ok true → cert.InForce atTime → cert.Processed →
      (i ≠ 0 → MayIssue cert (i - 1) trustDomain) → issuer? = some issuer → IssuanceEscapes P cert issuer →
      EntryEscapes trustDomain atTime i cert issuer?

/-- From position `i` on, a certificate whose checks escape, after those that pass. -/
def PathEscapes (trustDomain : Text) (atTime : Int) : Nat → List Certificate → Prop
  | _, [] => False
  | i, cert :: rest => EntryEscapes P trustDomain atTime i cert rest.head? ∨
      (Spiffe.checkPathEntry P trustDomain atTime i cert rest.head? = .ok () ∧ PathEscapes trustDomain atTime (i + 1) rest)

/-- A CA the path is held against: its issuance test, and the checks of the one chosen. -/
inductive AnchorEscapes (last : Certificate) (atTime : Int) (anchor : Certificate) : Prop
  | issuance : IssuanceEscapes P last anchor → AnchorEscapes last atTime anchor
  | validity : Spiffe.issuedBy P last anchor = .ok true → ValidityEscapes anchor atTime → AnchorEscapes last atTime anchor
  | extensions : Spiffe.issuedBy P last anchor = .ok true → anchor.InForce atTime → ReadEscapes anchor →
      AnchorEscapes last atTime anchor

theorem processed_reports {cert : Certificate} (h : cert.Processed) : ¬ReadEscapes cert := by
  obtain ⟨extensions, hread, _⟩ := h
  rw [ReadEscapes, hread]
  exact not_throws_ok

variable {P}

/-- The issuance test of a certificate whose issuer the path carries. -/
def checkIssuance (P : Platform) (i : Nat) (cert : Certificate) (issuer? : Option Certificate) (what : Text) : PyM Unit :=
  match issuer? with
  | none => .ok ()
  | some issuer => do
    let issued ← Spiffe.issuedBy P cert issuer
    raiseIf (!issued) (Spiffe.fail (what ++ txt " is not issued by x5c[" ++ decimal (i + 1) ++ txt "]"))

theorem escapes_checkIssuance {i : Nat} {cert : Certificate} {issuer? : Option Certificate} {what : Text} :
    Escapes (checkIssuance P i cert issuer? what) ↔ ∃ issuer, issuer? = some issuer ∧ IssuanceEscapes P cert issuer := by
  cases issuer? with
  | none => exact iff_of_false not_escapes_ok (by simp)
  | some issuer =>
    rw [checkIssuance, escapes_bind_left fun _ _ => .raiseIf reported_fail, escapes_issuedBy]
    simp

/-- The checks that depend on the position: every certificate but the leaf may issue. -/
def checkHeight (trustDomain : Text) (i : Nat) (cert : Certificate) (what : Text) : PyM Unit :=
  if i = 0 then .ok () else do
    Spiffe.checkCa cert (i - 1) what
    Spiffe.checkNameConstraints cert trustDomain what

theorem checkHeight_eq_ok {i : Nat} {cert : Certificate} {what : Text} :
    checkHeight trustDomain i cert what = .ok () ↔ (i ≠ 0 → MayIssue cert (i - 1) trustDomain) := by
  rw [checkHeight]
  split
  · rename_i hi
    exact iff_of_true rfl fun hne => absurd hi hne
  · rename_i hi
    rw [bind_eq_ok, exists_unit, ← mayIssue_iff]
    exact (imp_iff_right hi).symm

theorem checkHeight_reports {i : Nat} {cert : Certificate} {what : Text} (h : cert.Processed) :
    Reports (checkHeight trustDomain i cert what) := by
  have hread := processed_reports h
  rw [checkHeight]
  split
  · exact .ok
  · refine FailsWith.bind ?_ fun _ _ => ?_
    · exact not_escapes_iff.mp (mt escapes_checkCa.mp hread)
    · exact not_escapes_iff.mp (mt escapes_checkNameConstraints.mp hread)

theorem checkPathEntry_eq {i : Nat} {cert : Certificate} {issuer? : Option Certificate} :
    Spiffe.checkPathEntry P trustDomain atTime i cert issuer? = (do
      let what := if i = 0 then txt "X509-SVID leaf" else txt "x5c[" ++ decimal i ++ txt "]"
      let v3 ← cert.isV3
      raiseIf (!v3) (Spiffe.fail (what ++ txt " is not an X.509 v3 certificate"))
      Spiffe.checkValidity cert atTime what
      Spiffe.checkCritical cert what
      checkHeight trustDomain i cert what
      checkIssuance P i cert issuer? what) := by
  unfold Spiffe.checkPathEntry checkHeight checkIssuance
  cases i with
  | zero => rfl
  | succ i =>
    cases issuer? with
    | none => simp only [Nat.succ_ne_zero, if_false, bind_assoc]
    | some issuer => simp only [Nat.succ_ne_zero, if_false, bind_assoc]

theorem escapes_checkPathEntry {i : Nat} {cert : Certificate} {issuer? : Option Certificate} :
    Escapes (Spiffe.checkPathEntry P trustDomain atTime i cert issuer?) ↔ EntryEscapes P trustDomain atTime i cert issuer? := by
  rw [checkPathEntry_eq]
  dsimp only
  generalize (if i = 0 then txt "X509-SVID leaf" else txt "x5c[" ++ decimal i ++ txt "]") = what
  have hrest : Escapes (do
      Spiffe.checkValidity cert atTime what
      Spiffe.checkCritical cert what
      checkHeight trustDomain i cert what
      checkIssuance P i cert issuer? what) ↔ ValidityEscapes cert atTime ∨ cert.InForce atTime ∧
        (Escapes cert.extensions ∨ cert.Processed ∧ (i ≠ 0 → MayIssue cert (i - 1) trustDomain) ∧
          ∃ issuer, issuer? = some issuer ∧ IssuanceEscapes P cert issuer) := by
    rw [escapes_bind, escapes_checkValidity, exists_unit, checkValidity_eq_ok, escapes_bind, escapes_checkCritical, exists_unit,
      checkCritical_eq_ok]
    refine or_congr_right (and_congr_right fun _ => or_congr_right (and_congr_right fun hprocessed => ?_))
    rw [escapes_bind_right (checkHeight_reports hprocessed), exists_unit, checkHeight_eq_ok, escapes_checkIssuance]
  rw [escapes_bind]
  constructor
  · rintro (h | ⟨v3, hv3, h⟩)
    · exact .version h
    · rw [escapes_bind_right (.raiseIf reported_fail), exists_unit, raiseIf_eq_ok, Bool.not_eq_false', hrest] at h
      obtain ⟨rfl, h | ⟨hin, h | ⟨hprocessed, hissue, issuer, hissuer, h⟩⟩⟩ := h
      · exact .validity hv3 h
      · exact .extensions hv3 hin h
      · exact .issuance hv3 hin hprocessed hissue hissuer h
  · intro h
    cases h with
    | version h => exact .inl h
    | validity hv3 h =>
      refine .inr ⟨true, hv3, ?_⟩
      rw [escapes_bind_right (.raiseIf reported_fail), exists_unit, raiseIf_eq_ok, hrest]
      exact ⟨rfl, .inl h⟩
    | extensions hv3 hin h =>
      refine .inr ⟨true, hv3, ?_⟩
      rw [escapes_bind_right (.raiseIf reported_fail), exists_unit, raiseIf_eq_ok, hrest]
      exact ⟨rfl, .inr ⟨hin, .inl h⟩⟩
    | issuance hv3 hin hprocessed hissue hissuer h =>
      refine .inr ⟨true, hv3, ?_⟩
      rw [escapes_bind_right (.raiseIf reported_fail), exists_unit, raiseIf_eq_ok, hrest]
      exact ⟨rfl, .inr ⟨hin, .inr ⟨hprocessed, hissue, _, hissuer, h⟩⟩⟩

theorem escapes_checkPath {i : Nat} {certs : List Certificate} :
    Escapes (Spiffe.checkPath P trustDomain atTime i certs) ↔ PathEscapes P trustDomain atTime i certs := by
  induction certs generalizing i with
  | nil => exact iff_of_false not_escapes_ok id
  | cons cert rest ih =>
    rw [Spiffe.checkPath, PathEscapes, escapes_bind, escapes_checkPathEntry, exists_unit, ih]

theorem escapes_checkAnchor {last : Certificate} {below : Nat} {anchors : List Certificate} :
    Escapes (checkAnchor P last below trustDomain atTime anchors) ↔
      FirstEscapes (PassedOver P last) (AnchorEscapes P last atTime) anchors := by
  induction anchors with
  | nil => exact iff_of_false (not_escapes_iff.mpr (.error reported_fail)) not_firstEscapes_nil
  | cons anchor rest ih =>
    rw [firstEscapes_cons, PassedOver]
    have hchosen : Escapes (do
        Spiffe.checkValidity anchor atTime (txt "the bundle CA")
        Spiffe.checkCa anchor below (txt "the bundle CA")
        Spiffe.checkNameConstraints anchor trustDomain (txt "the bundle CA")) ↔
        ValidityEscapes anchor atTime ∨ anchor.InForce atTime ∧ ReadEscapes anchor := by
      rw [escapes_bind, escapes_checkValidity, exists_unit, checkValidity_eq_ok]
      refine or_congr_right (and_congr_right fun _ => ?_)
      rw [← escapes_checkCa]
      refine escapes_bind_left fun _ hca => ?_
      rw [← not_escapes_iff, escapes_checkNameConstraints, ← escapes_checkCa, hca]
      exact not_escapes_ok
    cases hissued : Spiffe.issuedBy P last anchor with
    | error e =>
      have hsame : Escapes (.error e : PyM Unit) ↔ IssuanceEscapes P last anchor := by
        rw [← escapes_issuedBy, hissued, Escapes, Escapes, throws_error, throws_error]
      rw [checkAnchor_error P hissued, hsame]
      constructor
      · intro h
        exact .inl (.issuance h)
      · rintro (h | ⟨h, _⟩)
        · cases h with
          | issuance h => exact h
          | validity h => exact absurd (hissued.symm.trans h) error_ne_ok
          | extensions h => exact absurd (hissued.symm.trans h) error_ne_ok
        · exact absurd h error_ne_ok
    | ok issued =>
      have hissuance : ¬IssuanceEscapes P last anchor := by
        rw [← escapes_issuedBy, hissued]
        exact not_escapes_ok
      cases issued with
      | true =>
        rw [checkAnchor_chosen P hissued, hchosen]
        constructor
        · rintro (h | ⟨hin, h⟩)
          · exact .inl (.validity hissued h)
          · exact .inl (.extensions hissued hin h)
        · rintro (h | ⟨h, _⟩)
          · cases h with
            | issuance h => exact absurd h hissuance
            | validity _ h => exact .inl h
            | extensions _ hin h => exact .inr ⟨hin, h⟩
          · cases h
      | false =>
        rw [checkAnchor_passedOver P hissued, ih]
        constructor
        · intro h
          exact .inr ⟨rfl, h⟩
        · rintro (h | ⟨_, h⟩)
          · cases h with
            | issuance h => exact absurd h hissuance
            | validity h => cases hissued.symm.trans h
            | extensions h => cases hissued.symm.trans h
          · exact h

end Path

/-! ### The descriptor -/

section Descriptor

/-- A descriptor that is in order up to its certificates, and the keys array they are held against. -/
structure Presents (identity : Members) (store : JsonValue) (trustDomain : Text) (entries keys : List JsonValue) : Prop where
  members : ∀ member ∈ [txt "issuer", txt "public_key"], identity.has member = false
  svidType : identity.get (txt "svid_type") = .str (txt "x509-svid")
  x5c : identity.get (txt "x5c") = .list entries
  short : entries.length ≤ Spiffe.maxChain
  subject : ∃ path, Spiffe.parseSpiffeId P (identity.get (txt "subject")) = .ok (trustDomain, path)
  bundle : ∃ bundle, Spiffe.bundleFor store trustDomain = .ok bundle ∧ bundle.members.get (txt "keys") = .list keys
  svidKeys : svidKeys keys ≠ []

/-- The entries are certificates up to one that escapes. -/
def EntriesEscape (entries : List JsonValue) : Prop := FirstEscapes (fun entry => ∃ cert, Loads P entry cert) (LoadEscapes P) entries

/-- The bundle's keys carry certificates up to one that escapes. -/
def BundleEscapes (candidates : List Members) : Prop :=
  FirstEscapes (fun jwk => ∃ entry, jwk.get (txt "x5c") = .list [entry] ∧ ∃ cert, Loads P entry cert)
    (fun jwk => ∃ entry, jwk.get (txt "x5c") = .list [entry] ∧ LoadEscapes P entry) candidates

/-- Certificates that were all loaded, and the first call on them that escapes. -/
def CertificatesEscape (subject : JsonValue) (now : Int) (trustDomain : Text) (leaf : Certificate)
    (issuers anchors : List Certificate) : Prop :=
  Escapes (P.fromTimestamp now) ∨ ∃ atTime, P.fromTimestamp now = .ok atTime ∧
    (ReadEscapes leaf ∨ Spiffe.checkLeaf leaf subject = .ok () ∧
      (Escapes leaf.publicKey ∨ (∃ key, LeafKey leaf key) ∧
        (PathEscapes P trustDomain atTime 0 (leaf :: issuers) ∨
          Spiffe.checkPath P trustDomain atTime 0 (leaf :: issuers) = .ok () ∧
            FirstEscapes (PassedOver P (issuers.getLastD leaf)) (AnchorEscapes P (issuers.getLastD leaf) atTime) anchors)))

/-- The first call into the library that fails does so by an exception that nothing handles. -/
def LibraryEscapes (identity : Members) (store : JsonValue) (now : Int) : Prop :=
  ∃ trustDomain entries keys, Presents P identity store trustDomain entries keys ∧
    (EntriesEscape P entries ∨ ∃ leaf issuers, List.Forall₂ (Loads P) entries (leaf :: issuers) ∧
      (BundleEscapes P (svidKeys keys) ∨ ∃ anchors, Spiffe.anchors P (svidKeys keys) = .ok anchors ∧
        CertificatesEscape P (identity.get (txt "subject")) now trustDomain leaf issuers anchors))

variable {identity env : Members} {selfAid store : JsonValue} {now : Int} {trustDomain path : Text}

theorem escapes_anchors {candidates : List Members} : Escapes (Spiffe.anchors P candidates) ↔ BundleEscapes P candidates := by
  rw [Spiffe.anchors, Escapes, throws_collect, BundleEscapes, FirstEscapes]
  refine exists_congr fun before => exists_congr fun jwk => exists_congr fun after => and_congr_right fun _ =>
    and_congr (forall₂_congr fun b _ => ?_) ?_
  · split
    · rename_i entry hentry
      simp [hentry, der_eq_ok]
    · rename_i hnone
      refine iff_of_false (by simp) ?_
      rintro ⟨entry, hentry, _⟩
      exact hnone entry hentry
  · split
    · rename_i entry hentry
      rw [← Escapes, escapes_der]
      simp [hentry]
    · rename_i hnone
      refine iff_of_false (not_escapes_iff.mpr (.error reported_fail)) ?_
      rintro ⟨entry, hentry, _⟩
      exact hnone entry hentry

/-- The proof is read after the certificates, by steps that are all reported. -/
theorem proof_reports {key : AgentKey} : Reports (do
    let proofInput ← Spiffe.spiffeX509ProofInput P env selfAid
    let sig ← decodeTaggedSignatureFor P (identity.get (txt "proof")) key.alg "IDENTITY_FAILED"
    raiseIf (!verifyDigest P key (P.sha256 proofInput) sig)
      (Spiffe.fail (txt "X509-SVID proof does not verify under the leaf key"))) :=
  (spiffeX509ProofInput_reports P).bind fun _ _ =>
    (reports_of_coded (coded_of_under (decodeTaggedSignatureFor_under P))).bind fun _ _ => .raiseIf reported_fail

theorem escapes_certificates {leaf : Certificate} {issuers anchors : List Certificate} {subject : JsonValue} : Escapes (do
      let atTime ← P.fromTimestamp now
      Spiffe.checkLeaf leaf subject
      let key ← Spiffe.leafKey leaf
      Spiffe.checkChain P leaf issuers anchors trustDomain atTime
      let proofInput ← Spiffe.spiffeX509ProofInput P env selfAid
      let sig ← decodeTaggedSignatureFor P (identity.get (txt "proof")) key.alg "IDENTITY_FAILED"
      raiseIf (!verifyDigest P key (P.sha256 proofInput) sig)
        (Spiffe.fail (txt "X509-SVID proof does not verify under the leaf key"))) ↔
    CertificatesEscape P subject now trustDomain leaf issuers anchors := by
  rw [escapes_bind, CertificatesEscape]
  refine or_congr_right (exists_congr fun atTime => and_congr_right fun _ => ?_)
  rw [escapes_bind, escapes_checkLeaf, exists_unit]
  refine or_congr_right (and_congr_right fun _ => ?_)
  rw [escapes_bind, escapes_leafKey]
  have hchain : Escapes (Spiffe.checkChain P leaf issuers anchors trustDomain atTime) ↔
      PathEscapes P trustDomain atTime 0 (leaf :: issuers) ∨ Spiffe.checkPath P trustDomain atTime 0 (leaf :: issuers) = .ok () ∧
        FirstEscapes (PassedOver P (issuers.getLastD leaf)) (AnchorEscapes P (issuers.getLastD leaf) atTime) anchors := by
    rw [checkChain_eq, escapes_bind, escapes_checkPath, exists_unit, escapes_checkAnchor]
  simp only [escapes_bind_left fun _ _ => proof_reports P, hchain, leafKey_eq_ok, exists_and_right]

theorem escapes_verifyX509Svid {candidates : List Members}
    (hsubject : Spiffe.parseSpiffeId P (identity.get (txt "subject")) = .ok (trustDomain, path)) :
    Escapes (Spiffe.verifyX509Svid P identity env selfAid candidates now) ↔
      ∃ entries, identity.get (txt "x5c") = .list entries ∧ entries.length ≤ Spiffe.maxChain ∧
        (EntriesEscape P entries ∨ ∃ leaf issuers, List.Forall₂ (Loads P) entries (leaf :: issuers) ∧
          (BundleEscapes P candidates ∨ ∃ anchors, Spiffe.anchors P candidates = .ok anchors ∧
            CertificatesEscape P (identity.get (txt "subject")) now trustDomain leaf issuers anchors)) := by
  rw [Spiffe.verifyX509Svid, escapes_bind, escapes_chainOf, Prod.exists]
  have hloads : (∃ leaf issuers, Spiffe.chainOf P (identity.get (txt "x5c")) = .ok (leaf, issuers) ∧
        (BundleEscapes P candidates ∨ ∃ anchors, Spiffe.anchors P candidates = .ok anchors ∧
          CertificatesEscape P (identity.get (txt "subject")) now trustDomain leaf issuers anchors)) ↔
      ∃ entries, identity.get (txt "x5c") = .list entries ∧ entries.length ≤ Spiffe.maxChain ∧
        ∃ leaf issuers, List.Forall₂ (Loads P) entries (leaf :: issuers) ∧
          (BundleEscapes P candidates ∨ ∃ anchors, Spiffe.anchors P candidates = .ok anchors ∧
            CertificatesEscape P (identity.get (txt "subject")) now trustDomain leaf issuers anchors) := by
    constructor
    · rintro ⟨leaf, issuers, hchain, h⟩
      obtain ⟨entries, hx5c, hshort, hloads⟩ := chainOf_eq_ok.mp hchain
      exact ⟨entries, hx5c, hshort, leaf, issuers, hloads, h⟩
    · rintro ⟨entries, hx5c, hshort, leaf, issuers, hloads, h⟩
      exact ⟨leaf, issuers, chainOf_eq_ok.mpr ⟨entries, hx5c, hshort, hloads⟩, h⟩
  refine (or_congr_right (Iff.trans (exists_congr fun leaf => exists_congr fun issuers => and_congr_right fun _ => ?_) hloads)).trans ?_
  · rw [escapes_bind, escapes_anchors]
    dsimp only
    rw [hsubject]
    exact or_congr_right (exists_congr fun anchors => and_congr_right fun _ => escapes_certificates P)
  · simp only [and_or_left, exists_or, EntriesEscape]

theorem svidType_of_guard {value : JsonValue} (hknown : (!value.isStr || !Spiffe.svidTypes.contains value.text) = false)
    (hother : value.text ≠ txt "jwt-svid") : value = .str (txt "x509-svid") := by
  cases value with
  | str s =>
    have hm : s ∈ Spiffe.svidTypes := by simpa [JsonValue.isStr, JsonValue.text] using hknown
    rcases List.mem_pair.mp hm with h | h
    · exact absurd h hother
    · rw [h]
  | _ => cases hknown

/-- A descriptor of another type never escapes; an X509-SVID does at a call into the library. -/
theorem escapes_verifyDescriptor (hrsa : ∀ n e, FailsWith IsValueError (P.rsaNumbers n e)) :
    Escapes (Spiffe.verifyDescriptor P identity env selfAid store now) ↔ LibraryEscapes P identity store now := by
  rw [Spiffe.verifyDescriptor, escapes_bind_right (.forEach fun _ _ => .raiseIf reported_fail), exists_unit, forEach_eq_ok]
  dsimp only
  rw [escapes_bind_right (.raiseIf reported_unhashable), exists_unit,
    escapes_bind_right (raiseWith_reports (composes_describe P fun _ => composes_fail)), exists_unit,
    escapes_bind_right (.raiseIf reported_fail), exists_unit, escapes_bind_right (parseSpiffeId_reports P _), Prod.exists]
  simp only [escapes_bind_right (bundleFor_reports _ _), escapes_bind_right (candidateKeys_reports _ _ _), raiseIf_eq_ok,
    raiseWith_eq_ok]
  have hjwt : txt "x509-svid" ≠ txt "jwt-svid" := by decide
  constructor
  · rintro ⟨hmembers, _, htype, _, trustDomain, path, hsubject, bundle, hbundle, candidates, hcandidates, h⟩
    split at h
    · exact absurd h (not_escapes_iff.mpr (verifyJwtSvid_reports P hrsa))
    · rename_i hother
      have htype := svidType_of_guard htype hother
      rw [htype] at hcandidates
      obtain ⟨keys, hkeys, rfl, hne⟩ := candidateKeys_iff.mp hcandidates
      obtain ⟨entries, hx5c, hshort, h⟩ := (escapes_verifyX509Svid P hsubject).mp h
      exact ⟨trustDomain, entries, keys, ⟨hmembers, htype, hx5c, hshort, ⟨path, hsubject⟩, ⟨bundle, hbundle, hkeys⟩, hne⟩, h⟩
  · rintro ⟨trustDomain, entries, keys, ⟨hmembers, htype, hx5c, hshort, ⟨path, hsubject⟩, ⟨bundle, hbundle, hkeys⟩, hne⟩, h⟩
    have hhas : identity.has (txt "x5c") = true := by
      apply Members.has_of_get
      rw [hx5c]
      exact JsonValue.noConfusion
    rw [htype, hhas]
    refine ⟨hmembers, rfl, by decide, by decide, trustDomain, path, hsubject, bundle, hbundle, svidKeys keys,
      candidateKeys_iff.mpr ⟨keys, hkeys, rfl, hne⟩, ?_⟩
    rw [JsonValue.text, if_neg hjwt]
    exact (escapes_verifyX509Svid P hsubject).mpr ⟨entries, hx5c, hshort, h⟩

/-- The identity check reports every failure exactly where no call into the library escapes. -/
theorem verifySpiffe_coded_iff (identity env : Members) (selfAid store : JsonValue) (now : Int)
    (hrsa : ∀ n e, FailsWith IsValueError (P.rsaNumbers n e)) :
    FailsWith Coded (verifySpiffe P identity env selfAid store now) ↔ ¬LibraryEscapes P identity store now := by
  rw [verifySpiffe_coded_iff_escapes, escapes_verifyDescriptor P hrsa]

/-- A recorded library raises `ValueError` alone where it builds an RSA key. -/
theorem verifySpiffe_coded_iff_workload :
    FailsWith Coded (verifySpiffe svidRecording.platform svidDescriptor svidEnvelope (.str (aidOf agentB))
      (bundleStore [rootJwk renewedRoot]) 1711900000) ↔
    ¬LibraryEscapes svidRecording.platform svidDescriptor (bundleStore [rootJwk renewedRoot]) 1711900000 :=
  verifySpiffe_coded_iff svidRecording.platform svidDescriptor svidEnvelope (.str (aidOf agentB))
    (bundleStore [rootJwk renewedRoot]) 1711900000 fun _ _ => .error isValueError_valueError

end Descriptor

/-! ### A library as documented -/

/-- The exceptions that reading a certificate may raise. -/
def documentedKinds : List ErrorKind :=
  [.value, .type, .unsupportedAlgorithm, .invalidSignature, .extensionNotFound, .invalidVersion, .duplicateExtension,
    .unsupportedGeneralName]

def Documented : PyErr → Prop
  | .raised kind _ => kind ∈ documentedKinds
  | .aitp .. => False

instance : DecidablePred Documented
  | .raised kind _ => inferInstanceAs (Decidable (kind ∈ documentedKinds))
  | .aitp .. => inferInstanceAs (Decidable False)

/-- The library raises nothing on certificates but what its documentation lists. -/
structure AsDocumented (C : Crypto) : Prop where
  load : ∀ data, FailsWith Documented (C.loadDerCertificate data)
  read : ∀ data cert, C.loadDerCertificate data = .ok cert → FailsWith Documented cert.isV3 ∧
    FailsWith Documented cert.notValidBefore ∧ FailsWith Documented cert.notValidAfter ∧
    FailsWith Documented cert.extensions ∧ FailsWith Documented cert.publicKey
  issuance : ∀ cert issuer, FailsWith Documented (C.verifyDirectlyIssuedBy cert issuer)
  rsa : ∀ n e, FailsWith IsValueError (C.rsaNumbers n e)

theorem unknownVersion_documented : AsDocumented unknownVersionPlatform.toCrypto where
  load data := by
    have hinvalid : Documented (.raised .invalidVersion (txt "3 is not a valid X509 version")) := by decide
    have hvalue : Documented (valueError (txt "error parsing asn1 value")) := by decide
    unfold unknownVersionPlatform CertificateRecording.platform
    dsimp only
    split
    · exact .error hinvalid
    · split
      · exact .ok
      · exact .error hvalue
  read data cert h := by
    unfold unknownVersionPlatform CertificateRecording.platform at h
    dsimp only at h
    split at h
    · cases h
    · split at h
      · rw [← Except.ok.inj h]
        exact ⟨.ok, .ok, .ok, .ok, .ok⟩
      · cases h
  issuance cert issuer := by
    have hvalue : Documented (.raised .value (txt "Issuer name does not match")) := by decide
    unfold unknownVersionPlatform CertificateRecording.platform
    dsimp only
    split
    · exact .ok
    · exact .error hvalue
  rsa _ _ := .error isValueError_valueError

theorem unknownVersion_raised :
    verifySpiffe unknownVersionPlatform unknownVersionDescriptor svidEnvelope (.str (aidOf agentB))
      (bundleStore [rootJwk renewedRoot]) 1711900000 =
        .error (.raised .invalidVersion (txt "3 is not a valid X509 version")) := by decide +kernel

/-- The leaf names a version that does not exist: the exception the library raises for it is in no list. -/
theorem unknownVersion_escapes : AsDocumented unknownVersionPlatform.toCrypto ∧
    ¬FailsWith Coded (verifySpiffe unknownVersionPlatform unknownVersionDescriptor svidEnvelope (.str (aidOf agentB))
      (bundleStore [rootJwk renewedRoot]) 1711900000) := by
  refine ⟨unknownVersion_documented, fun h => ?_⟩
  exact not_coded_raised (h _ unknownVersion_raised)

end AitpVerifier
