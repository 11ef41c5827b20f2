import AitpVerifier.IdentityProven
import AitpVerifier.RecordedCertificates

/-!
# Certification paths

What each check of a certificate establishes, at the position it stands in: a
path from the leaf over the descriptor's other certificates to a CA of the
bundle, every CA on it allowed to issue for the trust domain at its height.
-/
namespace AitpVerifier

open PyText Checked

/-! ### One certificate -/

namespace Certificate

/-- The certificate has an extension of this value. -/
def Carries (cert : Certificate) (oid : Text) (value : ExtensionValue) : Prop :=
  ∃ extensions, cert.extensions = .ok extensions ∧
    (extensions.find? (fun e => e.oid == oid)).map Extension.value = some value

/-- The instant is inside the validity period. -/
def InForce (cert : Certificate) (atTime : Int) : Prop :=
  ∃ notBefore notAfter, cert.notValidBefore = .ok notBefore ∧ cert.notValidAfter = .ok notAfter ∧
    notBefore ≤ atTime ∧ atTime ≤ notAfter

/-- Every critical extension is one that the verifier processes. -/
def Processed (cert : Certificate) : Prop :=
  ∃ extensions, cert.extensions = .ok extensions ∧
    ∀ e ∈ extensions, e.critical = true → e.oid ∈ Spiffe.processedCritical

end Certificate

/-- A host against a URI constraint: a subdomain of one that starts with a point, or the constraint itself. -/
def HostMatches (host constraint : Text) : Prop :=
  (constraint.head? = some 0x2E ∧ constraint <:+ host) ∨ (constraint.head? ≠ some 0x2E ∧ host = constraint)

/-- Constraints of URI form only, that admit the trust domain. -/
structure Admits (permitted excluded : Option (List GeneralName)) (trustDomain : Text) : Prop where
  uriForm : ∀ name ∈ permitted.getD [] ++ excluded.getD [], ∃ value, name = .uri value
  permits : ∀ names ∈ permitted, ∃ constraint, .uri constraint ∈ names ∧ HostMatches trustDomain constraint
  notExcluded : ∀ names ∈ excluded, ∀ constraint, .uri constraint ∈ names → ¬HostMatches trustDomain constraint

/-- The certificate may issue for the trust domain, with `below` CA certificates under it. -/
structure MayIssue (cert : Certificate) (below : Nat) (trustDomain : Text) : Prop where
  ca : ∃ pathLength, cert.Carries Spiffe.basicConstraintsOid (.basicConstraints true pathLength) ∧
    ∀ bound ∈ pathLength, below ≤ bound
  signsCertificates : ∃ digitalSignature crlSign,
    cert.Carries Spiffe.keyUsageOid (.keyUsage digitalSignature true crlSign)
  constraints : ∀ permitted excluded, cert.Carries Spiffe.nameConstraintsOid (.nameConstraints permitted excluded) →
    Admits permitted excluded trustDomain

section

variable {cert : Certificate} {oid : Text}

theorem ext?_eq_some {value : ExtensionValue} : Spiffe.ext? cert oid = .ok (some value) ↔ cert.Carries oid value := by
  rw [Spiffe.ext?, Certificate.Carries]
  cases cert.extensions with
  | ok extensions => simp
  | error e =>
    refine iff_of_false ?_ (by simp)
    dsimp only
    split
    · simp
    · simp

theorem checkValidity_eq_ok {atTime : Int} {what : Text} :
    Spiffe.checkValidity cert atTime what = .ok () ↔ cert.InForce atTime := by
  simp only [Spiffe.checkValidity, bind_eq_ok, Certificate.InForce]
  constructor
  · rintro ⟨notBefore, hbefore, h⟩
    by_cases hle : notBefore ≤ atTime
    · simp only [if_pos hle, bind_eq_ok, Except.ok.injEq, exists_eq_left', raiseIf_eq_ok, Bool.not_eq_false',
        decide_eq_true_eq] at h
      obtain ⟨notAfter, hafter, hin⟩ := h
      exact ⟨notBefore, notAfter, hbefore, hafter, hle, hin⟩
    · simp [if_neg hle, bind_eq_ok, raiseIf_eq_ok] at h
  · rintro ⟨notBefore, notAfter, hbefore, hafter, hle, hin⟩
    refine ⟨notBefore, hbefore, ?_⟩
    simp only [if_pos hle, bind_eq_ok, Except.ok.injEq, exists_eq_left', raiseIf_eq_ok, Bool.not_eq_false', decide_eq_true_eq]
    exact ⟨notAfter, hafter, hin⟩

theorem checkCritical_eq_ok {what : Text} : Spiffe.checkCritical cert what = .ok () ↔ cert.Processed := by
  simp only [Spiffe.checkCritical, bind_eq_ok, forEach_eq_ok, raiseIf_eq_ok, Bool.and_eq_false_imp, Bool.not_eq_false',
    List.contains_iff_mem, Certificate.Processed]

theorem checkCa_eq_ok {below : Nat} {what : Text} : Spiffe.checkCa cert below what = .ok () ↔
    (∃ pathLength, cert.Carries Spiffe.basicConstraintsOid (.basicConstraints true pathLength) ∧
      ∀ bound ∈ pathLength, below ≤ bound) ∧
    ∃ digitalSignature crlSign, cert.Carries Spiffe.keyUsageOid (.keyUsage digitalSignature true crlSign) := by
  simp only [← ext?_eq_some, Spiffe.checkCa, bind_eq_ok]
  constructor
  · rintro ⟨bc, hbc, h⟩
    split at h
    · rename_i pathLength
      simp only [bind_eq_ok, exists_unit, raiseIf_eq_ok] at h
      obtain ⟨hbound, ku, hku, h⟩ := h
      split at h
      · rename_i digitalSignature crlSign
        refine ⟨⟨pathLength, hbc, fun bound hb => ?_⟩, digitalSignature, crlSign, hku⟩
        rw [Option.mem_def.mp hb, Option.any_some, decide_eq_false_iff_not] at hbound
        exact Nat.not_lt.mp hbound
      · cases h
    · cases h
  · rintro ⟨⟨pathLength, hbc, hbound⟩, digitalSignature, crlSign, hku⟩
    refine ⟨_, hbc, ?_⟩
    simp only [bind_eq_ok, exists_unit, raiseIf_eq_ok]
    refine ⟨?_, _, hku, rfl⟩
    cases pathLength with
    | none => rfl
    | some bound => exact decide_eq_false (Nat.not_lt.mpr (hbound bound rfl))

theorem uriHostMatches_iff {host constraint : Text} : Spiffe.uriHostMatches host constraint = true ↔ HostMatches host constraint := by
  rw [Spiffe.uriHostMatches, HostMatches]
  by_cases hpoint : constraint.head? = some 0x2E
  · simp [hpoint]
  · simp [hpoint]

theorem mem_uriValues {names : List GeneralName} {constraint : Text} :
    constraint ∈ names.filterMap Spiffe.uriValue? ↔ .uri constraint ∈ names := by
  rw [List.mem_filterMap]
  constructor
  · rintro ⟨name, hm, hvalue⟩
    cases name with
    | uri value =>
      rw [Spiffe.uriValue?, Option.some.injEq] at hvalue
      rwa [← hvalue]
    | other => cases hvalue
  · intro hm
    exact ⟨_, hm, rfl⟩

/-- What the three guards on name constraints ask. -/
theorem admits_iff {permitted excluded : Option (List GeneralName)} {trustDomain : Text} :
    Admits permitted excluded trustDomain ↔
      ((permitted.getD [] ++ excluded.getD []).any (fun name => (Spiffe.uriValue? name).isNone)) = false ∧
      (permitted.isSome && !((permitted.getD []).filterMap Spiffe.uriValue?).any (Spiffe.uriHostMatches trustDomain)) = false ∧
      (((excluded.getD []).filterMap Spiffe.uriValue?).any (Spiffe.uriHostMatches trustDomain)) = false := by
  have huri (name : GeneralName) : (Spiffe.uriValue? name).isNone = true ↔ ¬∃ value, name = .uri value := by
    cases name <;> simp [Spiffe.uriValue?]
  have hany (names : List GeneralName) : (names.filterMap Spiffe.uriValue?).any (Spiffe.uriHostMatches trustDomain) = true ↔
      ∃ constraint, .uri constraint ∈ names ∧ HostMatches trustDomain constraint := by
    simp only [List.any_eq_true, mem_uriValues, uriHostMatches_iff]
  rw [List.any_eq_false, ← Bool.not_eq_true _, ← Bool.not_eq_true _, Bool.and_eq_true, Bool.not_eq_true', ← Bool.not_eq_true _,
    hany, hany]
  simp only [huri, not_not]
  constructor
  · rintro ⟨hform, hpermits, hexcluded⟩
    refine ⟨hform, ?_, ?_⟩
    · rintro ⟨hsome, hnone⟩
      obtain ⟨names, rfl⟩ := Option.isSome_iff_exists.mp hsome
      exact hnone (hpermits names rfl)
    · rintro ⟨constraint, hm, hmatches⟩
      cases excluded with
      | none => cases hm
      | some names => exact hexcluded names rfl constraint hm hmatches
  · rintro ⟨hform, hpermits, hexcluded⟩
    refine ⟨hform, ?_, ?_⟩
    · rintro names rfl
      by_contra hnone
      exact hpermits ⟨rfl, hnone⟩
    · rintro names rfl constraint hm hmatches
      exact hexcluded ⟨constraint, hm, hmatches⟩

theorem checkNameConstraints_admits {trustDomain what : Text} {permitted excluded : Option (List GeneralName)}
    (hcarries : cert.Carries Spiffe.nameConstraintsOid (.nameConstraints permitted excluded)) :
    Spiffe.checkNameConstraints cert trustDomain what = .ok () ↔ Admits permitted excluded trustDomain := by
  rw [Spiffe.checkNameConstraints, ext?_eq_some.mpr hcarries, admits_iff]
  simp only [bind_eq_ok, Except.ok.injEq, exists_eq_left', exists_unit, raiseIf_eq_ok]

theorem mayIssue_of_checks {below : Nat} {trustDomain what what' : Text} (hca : Spiffe.checkCa cert below what = .ok ())
    (hconstraints : Spiffe.checkNameConstraints cert trustDomain what' = .ok ()) : MayIssue cert below trustDomain := by
  obtain ⟨hca, husage⟩ := checkCa_eq_ok.mp hca
  exact ⟨hca, husage, fun _ _ hcarries => (checkNameConstraints_admits hcarries).mp hconstraints⟩

end

/-! ### The leaf -/

/-- The leaf is named by one URI, the subject; it signs, and does not certify. -/
structure NamesSubject (leaf : Certificate) (subject : JsonValue) : Prop where
  name : ∃ names uri, leaf.Carries Spiffe.subjectAlternativeNameOid (.subjectAlternativeName names) ∧
    names.filterMap Spiffe.uriValue? = [uri] ∧ subject = .str uri
  notCa : ∃ pathLength, leaf.Carries Spiffe.basicConstraintsOid (.basicConstraints false pathLength)
  usage : leaf.Carries Spiffe.keyUsageOid (.keyUsage true false false)

/-- The leaf's key is one an agent signs with. -/
inductive LeafKey (leaf : Certificate) : AgentKey → Prop
  | ed25519 {raw} : leaf.publicKey = .ok (.ed25519 raw) → LeafKey leaf (.ed25519 raw)
  | p256 {x y} : leaf.publicKey = .ok (.ec .p256 x y) → LeafKey leaf (.p256 x y)

theorem checkLeaf_namesSubject {leaf : Certificate} {subject : JsonValue} (h : Spiffe.checkLeaf leaf subject = .ok ()) :
    NamesSubject leaf subject := by
  obtain ⟨names, uri, hsan, huri, hsubject⟩ := checkLeaf_names h
  simp only [Spiffe.checkLeaf, hsan, huri, bind_eq_ok, Except.ok.injEq, exists_eq_left', exists_unit] at h
  obtain ⟨_, bc, hbc, h⟩ := h
  refine ⟨⟨names, uri, ext?_eq_some.mp hsan, huri, hsubject⟩, ?_, ?_⟩
  · split at h
    · rename_i pathLength
      exact ⟨pathLength, ext?_eq_some.mp hbc⟩
    · cases h
  · split at h
    · simp only [bind_eq_ok, exists_unit] at h
      obtain ⟨_, ku, hku, h⟩ := h
      split at h
      · exact ext?_eq_some.mp hku
      · cases h
    · cases h

theorem leafKey_eq_ok {leaf : Certificate} {key : AgentKey} : Spiffe.leafKey leaf = .ok key ↔ LeafKey leaf key := by
  rw [Spiffe.leafKey, bind_eq_ok]
  constructor
  · rintro ⟨native, hnative, h⟩
    split at h
    · rw [← Except.ok.inj h]
      exact .ed25519 hnative
    · rw [← Except.ok.inj h]
      exact .p256 hnative
    · cases h
  · rintro (hnative | hnative)
    · exact ⟨_, hnative, rfl⟩
    · exact ⟨_, hnative, rfl⟩

/-! ### The path -/

variable (P : Platform)

/-- A path from the leaf to an anchor, every certificate fit for its position. -/
structure CertificationPath (leaf : Certificate) (issuers : List Certificate) (anchor : Certificate) (trustDomain : Text)
    (atTime : Int) : Prop where
  issued : (leaf :: (issuers ++ [anchor])).IsChain (Issues P)
  version : ∀ cert ∈ leaf :: issuers, cert.isV3 = .ok true
  inForce : ∀ cert ∈ leaf :: issuers, cert.InForce atTime
  processed : ∀ cert ∈ leaf :: issuers, cert.Processed
  mayIssue : ∀ below cert, issuers[below]? = some cert → MayIssue cert below trustDomain
  anchorInForce : anchor.InForce atTime
  anchorMayIssue : MayIssue anchor issuers.length trustDomain

/-- What an entry's checks establish, whatever its position. -/
theorem checkPathEntry_eq_ok {trustDomain : Text} {atTime : Int} {i : Nat} {cert : Certificate} {issuer? : Option Certificate}
    (h : Spiffe.checkPathEntry P trustDomain atTime i cert issuer? = .ok ()) :
    cert.isV3 = .ok true ∧ cert.InForce atTime ∧ cert.Processed ∧ (i ≠ 0 → MayIssue cert (i - 1) trustDomain) ∧
      ∀ issuer ∈ issuer?, Issues P cert issuer := by
  have hissued : ∀ issuer ∈ issuer?, Issues P cert issuer := by
    rintro issuer rfl
    exact checkPathEntry_issued P h
  by_cases hi : i = 0
  · simp only [Spiffe.checkPathEntry, if_pos hi, bind_eq_ok, exists_unit, raiseIf_eq_ok, Bool.not_eq_false'] at h
    obtain ⟨v3, hv3, rfl, hvalid, hcritical, _⟩ := h
    exact ⟨hv3, checkValidity_eq_ok.mp hvalid, checkCritical_eq_ok.mp hcritical, fun hne => absurd hi hne, hissued⟩
  · simp only [Spiffe.checkPathEntry, if_neg hi, bind_eq_ok, exists_unit, raiseIf_eq_ok, Bool.not_eq_false'] at h
    obtain ⟨v3, hv3, rfl, hvalid, hcritical, hca, hconstraints, _⟩ := h
    exact ⟨hv3, checkValidity_eq_ok.mp hvalid, checkCritical_eq_ok.mp hcritical, fun _ => mayIssue_of_checks hca hconstraints,
      hissued⟩

/-- From position `i` on, every entry is fit for its position. -/
theorem checkPath_entries {trustDomain : Text} {atTime : Int} {i : Nat} {certs : List Certificate}
    (h : Spiffe.checkPath P trustDomain atTime i certs = .ok ()) {k : Nat} {cert : Certificate} (hk : certs[k]? = some cert) :
    cert.isV3 = .ok true ∧ cert.InForce atTime ∧ cert.Processed ∧ (i + k ≠ 0 → MayIssue cert (i + k - 1) trustDomain) := by
  induction certs generalizing i k with
  | nil => cases hk
  | cons first rest ih =>
    simp only [Spiffe.checkPath, bind_eq_ok, exists_unit] at h
    obtain ⟨hentry, hrest⟩ := h
    cases k with
    | zero =>
      rw [List.getElem?_cons_zero, Option.some.injEq] at hk
      rw [← hk]
      obtain ⟨hv3, hvalid, hprocessed, hissue, _⟩ := checkPathEntry_eq_ok P hentry
      exact ⟨hv3, hvalid, hprocessed, hissue⟩
    | succ k =>
      rw [List.getElem?_cons_succ] at hk
      have hshift : i + (k + 1) = i + 1 + k := by omega
      rw [hshift]
      exact ih hrest hk

theorem checkChain_path {leaf : Certificate} {issuers anchors : List Certificate} {trustDomain : Text} {atTime : Int}
    (h : Spiffe.checkChain P leaf issuers anchors trustDomain atTime = .ok ()) :
    ∃ anchor ∈ anchors, CertificationPath P leaf issuers anchor trustDomain atTime := by
  simp only [Spiffe.checkChain, bind_eq_ok, exists_unit] at h
  obtain ⟨hpath, found, hfound, h⟩ := h
  cases found with
  | none => cases h
  | some anchor =>
    simp only [bind_eq_ok, exists_unit] at h
    obtain ⟨hvalid, hca, hconstraints⟩ := h
    obtain ⟨hm, hlast⟩ := findAnchor_eq_some P hfound
    have hentries {cert : Certificate} (hcert : cert ∈ leaf :: issuers) :
        cert.isV3 = .ok true ∧ cert.InForce atTime ∧ cert.Processed := by
      obtain ⟨k, hk⟩ := List.mem_iff_getElem?.mp hcert
      obtain ⟨hv3, hvalid, hprocessed, _⟩ := checkPath_entries P hpath hk
      exact ⟨hv3, hvalid, hprocessed⟩
    refine ⟨anchor, hm, ?_, fun _ hc => (hentries hc).1, fun _ hc => (hentries hc).2.1, fun _ hc => (hentries hc).2.2, ?_,
      checkValidity_eq_ok.mp hvalid, mayIssue_of_checks hca hconstraints⟩
    · rw [← List.cons_append]
      refine List.isChain_append.mpr ⟨checkPath_issued P hpath, .singleton anchor, ?_⟩
      intro last hl issuer hi
      rw [List.getLast?_cons, Option.mem_some_iff] at hl
      rw [List.head?_cons, Option.mem_some_iff] at hi
      rw [← hl, ← hi, ← List.getLastD_eq_getLast?]
      exact hlast
    · intro below cert hbelow
      have hentry := (checkPath_entries P hpath (List.getElem?_cons_succ.trans hbelow)).2.2.2
      rw [Nat.zero_add] at hentry
      exact hentry (Nat.succ_ne_zero below)

/-! ### The descriptor -/

/-- An `x5c` entry decodes to the certificate. -/
def DecodesTo (entry : JsonValue) (cert : Certificate) : Prop :=
  ∃ text data, entry = .str text ∧ Spiffe.stdB64decode? text = some data ∧ P.loadDerCertificate data = .ok cert

theorem der_decodesTo {entry : JsonValue} {what : Text} {cert : Certificate} (h : Spiffe.der P entry what = .ok cert) :
    DecodesTo P entry cert := by
  unfold Spiffe.der at h
  split at h
  · rename_i text
    rw [bind_eq_ok] at h
    obtain ⟨_, _, h⟩ := h
    split at h
    · rename_i data hdata
      exact ⟨text, data, rfl, hdata, rescue_eq_ok.mp h⟩
    · cases h
  · cases h

theorem anchors_decode {candidates : List Members} {anchors : List Certificate} (h : Spiffe.anchors P candidates = .ok anchors)
    {anchor : Certificate} (hm : anchor ∈ anchors) :
    ∃ jwk ∈ candidates, ∃ entry, jwk.get (txt "x5c") = .list [entry] ∧ DecodesTo P entry anchor := by
  obtain ⟨jwk, hjwk, hstep⟩ := (mem_collect h).mp hm
  split at hstep
  · rename_i entry hentry
    exact ⟨jwk, hjwk, entry, hentry, der_decodesTo P hstep⟩
  · cases hstep

theorem chainOf_decode {x5c : JsonValue} {leaf : Certificate} {issuers : List Certificate}
    (h : Spiffe.chainOf P x5c = .ok (leaf, issuers)) :
    ∃ entries, x5c = .list entries ∧ entries.length ≤ Spiffe.maxChain ∧ List.Forall₂ (DecodesTo P) entries (leaf :: issuers) := by
  unfold Spiffe.chainOf at h
  split at h
  · rename_i first rest
    simp only [bind_eq_ok, exists_unit, raiseIf_eq_ok, Except.ok.injEq, Prod.mk.injEq, decide_eq_false_iff_not, not_lt] at h
    obtain ⟨hlength, leaf', hleaf, issuers', hissuers, rfl, rfl⟩ := h
    refine ⟨first :: rest, rfl, hlength, .cons (der_decodesTo P hleaf) ?_⟩
    have hzip := collect_eq_ok.mp hissuers
    have hfst : (rest.zipIdx 1).map Prod.fst = rest := List.zipIdx_map_fst 1 rest
    rw [← hfst, List.forall₂_map_left_iff]
    exact hzip.imp fun _ _ hstep => der_decodesTo P hstep
  · cases h

/-- What an accepted X509-SVID establishes. -/
structure X509SvidPath (identity env : Members) (selfAid store : JsonValue) (now : Int) (trustDomain path : Text)
    (bundle : JsonValue) (leaf : Certificate) (issuers : List Certificate) (anchor : Certificate) (key : AgentKey) : Prop where
  subject : SpiffeId (identity.get (txt "subject")) trustDomain path
  ownBundle : BundleOf store trustDomain bundle
  chain : ∃ entries, identity.get (txt "x5c") = .list entries ∧ entries.length ≤ Spiffe.maxChain ∧
    List.Forall₂ (DecodesTo P) entries (leaf :: issuers)
  bundleCa : ∃ jwk ∈ keysOfUse bundle (txt "x509-svid"), ∃ entry, jwk.get (txt "x5c") = .list [entry] ∧ DecodesTo P entry anchor
  certified : ∃ atTime, P.fromTimestamp now = .ok atTime ∧ CertificationPath P leaf issuers anchor trustDomain atTime
  leafNames : NamesSubject leaf (identity.get (txt "subject"))
  leafKey : LeafKey leaf key
  signed : ∃ octets raw, MessageProofInput P spiffeX509Domain env selfAid octets ∧
    TaggedSignature (identity.get (txt "proof")) key.alg raw ∧ verifyDigest P key (P.sha256 octets) raw = true

theorem spiffeX509ProofInput_eq_ok {env : Members} {selfAid : JsonValue} {octets : Bytes}
    (h : Spiffe.spiffeX509ProofInput P env selfAid = .ok octets) : MessageProofInput P spiffeX509Domain env selfAid octets := by
  simp only [Spiffe.spiffeX509ProofInput, bind_eq_ok] at h
  obtain ⟨timestamp, ht, nonce, hn, h⟩ := h
  exact ⟨timestamp, nonce, ht, hn, h⟩

/-- An accepted X509-SVID chains to a CA of its own trust domain. -/
theorem verifySpiffe_x509_path (identity env : Members) (selfAid store : JsonValue) (now : Int)
    (htype : identity.get (txt "svid_type") = .str (txt "x509-svid"))
    (h : verifySpiffe P identity env selfAid store now = .ok ()) :
    ∃ trustDomain path bundle leaf issuers anchor key,
      X509SvidPath P identity env selfAid store now trustDomain path bundle leaf issuers anchor key := by
  have hjwt : txt "x509-svid" ≠ txt "jwt-svid" := by decide
  simp only [verifySpiffe, rescue_eq_ok, Spiffe.verifyDescriptor, bind_eq_ok, exists_unit, raiseIf_eq_ok, raiseWith_eq_ok,
    htype, JsonValue.text, if_neg hjwt, Prod.exists] at h
  obtain ⟨_, _, _, _, trustDomain, path, hsubject, bundle, hbundle, candidates, hkeys, h⟩ := h
  obtain ⟨rest, rfl, hid⟩ := parseSpiffeId_eq_ok P hsubject
  have hkeys := candidateKeys_eq_ok hkeys
  simp only [Spiffe.verifyX509Svid, decodeTaggedSignatureFor_eq_ok, bind_eq_ok, raiseIf_eq_ok, exists_unit,
    Bool.not_eq_false', Prod.exists] at h
  obtain ⟨leaf, issuers, hchain, anchors, hanchors, domain, _, hdomain, atTime, htime, hleaf, key, hkey, hpath, octets, hinput,
    raw, hraw, hverified⟩ := h
  rw [hsubject, Except.ok.injEq, Prod.mk.injEq] at hdomain
  obtain ⟨anchor, hm, hcertified⟩ := checkChain_path P hpath
  rw [← hdomain.1] at hcertified
  rw [hkeys] at hanchors
  exact ⟨trustDomain, rest, bundle, leaf, issuers, anchor, key, hid, bundleFor_eq_ok hbundle, chainOf_decode P hchain,
    anchors_decode P hanchors hm, ⟨atTime, htime, hcertified⟩, checkLeaf_namesSubject hleaf, leafKey_eq_ok.mp hkey, octets, raw,
    spiffeX509ProofInput_eq_ok P hinput, hraw, hverified⟩

/-- A workload under an issuing CA and the root that its bundle names. -/
theorem verifySpiffe_x509_path_workload :
    ∃ trustDomain path bundle leaf issuers anchor key,
      X509SvidPath svidRecording.platform svidDescriptor svidEnvelope (.str (aidOf agentB)) (bundleStore [rootJwk renewedRoot])
        1711900000 trustDomain path bundle leaf issuers anchor key :=
  verifySpiffe_x509_path svidRecording.platform svidDescriptor svidEnvelope (.str (aidOf agentB))
    (bundleStore [rootJwk renewedRoot]) 1711900000 (by decide +kernel) (by decide +kernel)

end AitpVerifier
