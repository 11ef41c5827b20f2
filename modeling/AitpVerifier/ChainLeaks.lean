import AitpVerifier.PeerLeaks

/-!
# Exceptions a delegation chain can raise

The `chain` claim is measured, hashed and concatenated before anything looks at its
shape, and its entries are then parsed one after the other.
-/
namespace AitpVerifier

open PyText Checked

/-! ### The digest array -/

theorem sextetChar_lt (n : Nat) : (sextetChar n).val < 0x80 := by
  unfold sextetChar
  split_ifs with hu hl hd hp
  · change (n + 0x41) % 0x110000 < 0x80
    omega
  · change (n + 71) % 0x110000 < 0x80
    omega
  · change (n - 4) % 0x110000 < 0x80
    omega
  · decide
  · decide

/-- An encoded digest holds no surrogate. -/
theorem b64urlEncode_wellFormed (data : Bytes) : WellFormed (b64urlEncode data) := by
  intro c hc
  obtain ⟨n, _, rfl⟩ := List.mem_map.mp hc
  have hlt := sextetChar_lt n
  simp only [isSurrogate, Bool.and_eq_false_iff, decide_eq_false_iff_not]
  left
  omega

/-- An array of encodable strings has a canonical form, up to the cap on nodes. -/
theorem canonicalize_texts {items : List JsonValue} (hitems : ∀ item ∈ items, ∃ s, item = .str s ∧ WellFormed s)
    (hlen : items.length < Jcs.maxNodesVisited) : ∃ octets, Jcs.canonicalize (.list items) = .ok octets := by
  have hd : (JsonValue.list items).Distinct := by
    refine .list fun item hi => ?_
    obtain ⟨s, rfl, _⟩ := hitems item hi
    exact .str
  have hf : Jcs.Formats (.list items) := by
    refine .list fun item hi => ?_
    obtain ⟨s, rfl, _⟩ := hitems item hi
    exact .str
  have he : (JsonValue.list items).Encodes := by
    refine .list fun item hi => ?_
    obtain ⟨s, rfl, hs⟩ := hitems item hi
    exact .str hs
  have hw : (JsonValue.list items).Within (Jcs.maxDepth + 1) := by
    intro item hi
    obtain ⟨s, rfl, _⟩ := hitems item hi
    exact trivial
  have hnodes : (JsonValue.list items).nodes ≤ Jcs.maxNodesVisited := by
    have hone : items.map JsonValue.nodes = items.map fun _ => 1 := by
      refine List.map_congr_left fun item hi => ?_
      obtain ⟨s, rfl, _⟩ := hitems item hi
      simp [JsonValue.nodes]
    rw [JsonValue.nodes, hone, List.map_const', List.sum_replicate_nat, Nat.mul_one]
    omega
  exact ⟨_, (Jcs.canonicalize_eq_ok hd).mpr ⟨hf, hw, hnodes, utf8?_eq_some ((Jcs.text_wellFormed hf).mpr he)⟩⟩

variable (P : Platform)

/-- An entry `encode("ascii")` takes. -/
def AsciiEntry (entry : JsonValue) : Prop := ∃ s : Text, entry = .str s ∧ ∀ c ∈ s, c.val < 0x80

theorem encodeAscii_eq_ok {entry : JsonValue} : (∃ octets, encodeAscii entry = .ok octets) ↔ AsciiEntry entry := by
  cases entry with
  | str s =>
    have hentry : AsciiEntry (.str s) ↔ s.all (fun c => decide (c.val < 0x80)) = true := by simp [AsciiEntry]
    rw [hentry, encodeAscii, JsonValue.asText, ok_bind, ascii?]
    split_ifs with h
    · exact iff_of_true ⟨_, rfl⟩ h
    · refine iff_of_false ?_ h
      rintro ⟨octets, ho⟩
      cases ho
  | _ => simp [encodeAscii, JsonValue.asText, AsciiEntry, error_bind]

/-- No error of the encoder is one of the package's. -/
theorem encodeAscii_uncoded {entry : JsonValue} : FailsWith (fun e => ¬ Coded e) (encodeAscii entry) := by
  unfold encodeAscii JsonValue.asText
  split
  · rw [ok_bind]
    split
    · exact .ok
    · exact .error (p := fun e => ¬ Coded e) not_coded_raised
  · exact .error (p := fun e => ¬ Coded e) not_coded_raised

/-- The entries whose hashing fails are those that are no ASCII string. -/
theorem leaks_computeChainHash {entries : List JsonValue} (hlen : entries.length < Jcs.maxNodesVisited) :
    Leaks (computeChainHash P entries) ↔ ∃ entry ∈ entries, ¬ AsciiEntry entry := by
  let digest (entry : JsonValue) : PyM JsonValue := do
    let octets ← encodeAscii entry
    .ok (.str (b64urlEncode (P.sha256 octets)))
  have huncoded : FailsWith (fun e => ¬ Coded e) (collect digest entries) :=
    .collect fun entry _ => encodeAscii_uncoded.bind fun _ _ => .ok
  rw [computeChainHash, leaks_bind]
  cases hc : collect digest entries with
  | error e =>
    refine iff_of_true (.inl ⟨e, rfl, huncoded e hc⟩) ?_
    by_contra hall
    push Not at hall
    -- were every entry ASCII the loop would have gone through
    have hok : FailsWith (fun _ => False) (collect digest entries) := by
      refine .collect fun entry he => FailsWith.bind (p := fun _ => False) ?_ fun _ _ => .ok
      obtain ⟨octets, ho⟩ := encodeAscii_eq_ok.mpr (hall entry he)
      rw [ho]
      exact .ok
    exact hok e hc
  | ok digests =>
    refine iff_of_false ?_ ?_
    · rintro (⟨e, he, _⟩ | ⟨found, hfound, hleak⟩)
      · cases he
      · obtain rfl : digests = found := Except.ok.inj hfound
        have hlength : entries.length = digests.length := (collect_eq_ok.mp hc).length_eq
        have hdigests : ∀ item ∈ digests, ∃ s, item = .str s ∧ WellFormed s := by
          intro item hi
          obtain ⟨entry, _, he⟩ := (mem_collect hc).mp hi
          obtain ⟨found, _, hfound⟩ := bind_eq_ok.mp he
          exact ⟨_, (Except.ok.inj hfound).symm, b64urlEncode_wellFormed _⟩
        obtain ⟨octets, ho⟩ := canonicalize_texts hdigests (by omega)
        rw [ho, ok_bind] at hleak
        exact not_leaks_iff.mpr .ok hleak
    · rintro ⟨entry, he, hno⟩
      obtain ⟨d, hd⟩ := exists_mem_of_collect hc he
      obtain ⟨octets, ho, _⟩ := bind_eq_ok.mp hd.2
      exact hno (encodeAscii_eq_ok.mp ⟨octets, ho⟩)

/-! ### Measuring, hashing, concatenating -/

theorem length_of_elements {value : JsonValue} {entries : List JsonValue} (h : value.elements = .ok entries) :
    value.length = .ok entries.length := by
  cases value with
  | list | str | dict =>
    obtain rfl := Except.ok.inj h
    simp [JsonValue.length, JsonValue.characters]
  | _ => cases h

theorem leaks_length {value : JsonValue} (h : ∀ entries, value.elements ≠ .ok entries) : Leaks value.length := by
  cases value with
  | list | str | dict => exact absurd rfl (h _)
  | _ => exact leaks_error.mpr not_coded_raised

/-- The chain's tokens and the two beside them are within the limit. -/
def WithinHops (entries : List JsonValue) : Prop := entries.length + 2 ≤ maxDelegationHops + 1

/-- The commitment beside the chain is the one recomputed from it. -/
def Committed (claims : Members) (entries : List JsonValue) : Prop :=
  ∃ hash, computeChainHash P entries = .ok hash ∧ claims.get (txt "chain_hash") = .str hash

/-- A chain that is measured, hashed or concatenated into an exception: it has no
length, or an entry that is no ASCII string, or it is no list and its commitment holds. -/
inductive Misread (claims : Members) : Prop
  | unmeasured : (∀ entries, (claims.get (txt "chain")).elements ≠ .ok entries) → Misread claims
  | unhashed {entries : List JsonValue} : (claims.get (txt "chain")).elements = .ok entries → WithinHops entries →
      (∃ entry ∈ entries, ¬ AsciiEntry entry) → Misread claims
  | unextended {entries : List JsonValue} : (∀ items, claims.get (txt "chain") ≠ .list items) →
      (claims.get (txt "chain")).elements = .ok entries → WithinHops entries → Committed P claims entries → Misread claims

theorem WithinHops.nodes {entries : List JsonValue} (h : WithinHops entries) : entries.length < Jcs.maxNodesVisited := by
  simp only [WithinHops, maxDelegationHops] at h
  simp only [Jcs.maxNodesVisited]
  omega

theorem leaks_chainHops {outer : Members} {token : JsonValue} : Leaks (chainHops P outer token) ↔ Misread P outer := by
  cases he : (outer.get (txt "chain")).elements with
  | error e =>
    have hno (entries : List JsonValue) : (outer.get (txt "chain")).elements ≠ .ok entries := by simp [he]
    refine iff_of_true ?_ (.unmeasured hno)
    rw [chainHops, leaks_bind]
    exact .inl (leaks_length hno)
  | ok entries =>
    rw [chainHops, length_of_elements he, ok_bind, leaks_bind_right (.raiseIf coded_aitpError), he]
    simp only [exists_unit, raiseIf_eq_ok, decide_eq_false_iff_not, not_lt, ok_bind]
    constructor
    · rintro ⟨hle, hleak⟩
      rcases leaks_bind.mp hleak with hhash | ⟨hash, hhash, hrest⟩
      · exact .unhashed he hle ((leaks_computeChainHash P (WithinHops.nodes hle)).mp hhash)
      · rw [leaks_bind_right (.raiseIf coded_aitpError)] at hrest
        obtain ⟨_, hequal, hlast⟩ := hrest
        rw [raiseIf_eq_ok, Bool.not_eq_false', JsonValue.eq_str] at hequal
        refine .unextended (fun items hlist => ?_) he hle ⟨hash, hhash, hequal⟩
        rw [hlist] at hlast
        exact not_leaks_iff.mpr .ok hlast
    · intro hmis
      cases hmis with
      | unmeasured hno => exact absurd he (hno entries)
      | unhashed he' hle hentry =>
        obtain rfl := Except.ok.inj (he.symm.trans he')
        exact ⟨hle, leaks_bind.mpr (.inl ((leaks_computeChainHash P hle.nodes).mpr hentry))⟩
      | unextended hno he' hle hcommitted =>
        obtain rfl := Except.ok.inj (he.symm.trans he')
        obtain ⟨hash, hhash, hequal⟩ := hcommitted
        refine ⟨hle, leaks_bind.mpr (.inr ⟨hash, hhash, leaks_bind.mpr (.inr ⟨(), ?_, ?_⟩)⟩)⟩
        · rw [raiseIf_eq_ok, hequal, Bool.not_eq_false', JsonValue.eq_str]
        · cases hc : outer.get (txt "chain") with
          | list items => exact absurd hc (hno items)
          | _ => exact leaks_error.mpr not_coded_raised

/-- The hops of a chain that was read. -/
theorem chainHops_read {outer : Members} {token : JsonValue} {hops : List JsonValue} :
    chainHops P outer token = .ok hops ↔
      ∃ entries, outer.get (txt "chain") = .list entries ∧ WithinHops entries ∧ Committed P outer entries ∧
        hops = entries ++ [token] := by
  cases hc : outer.get (txt "chain") with
  | list items =>
    simp only [chainHops, hc, JsonValue.length, JsonValue.elements, ok_bind, bind_eq_ok, exists_unit, raiseIf_eq_ok, decide_eq_false_iff_not, not_lt, Bool.not_eq_false',
      JsonValue.eq_str, Except.ok.injEq, JsonValue.list.injEq, exists_eq_left', WithinHops, Committed]
    constructor
    · rintro ⟨hle, hash, hhash, hequal, rfl⟩
      exact ⟨hle, ⟨hash, hhash, hequal⟩, rfl⟩
    · rintro ⟨hle, ⟨hash, hhash, hequal⟩, rfl⟩
      exact ⟨hle, hash, hhash, hequal, rfl⟩
  | _ =>
    refine iff_of_false (fun h => ?_) (by simp)
    simp [chainHops, bind_eq_ok, hc] at h

/-! ### The hop loop -/

/-- The caller's part of a multi-hop verification: the feature on, any string for the
verifier, snapshots and Manifests as they are documented. -/
structure ChainArguments (inp : Members) (token selfAid : Text) : Prop where
  token : inp.get (txt "delegation_token") = .str token
  feature : inp.get (txt "_feature") = .str multihopFeature
  verifier : inp.get (txt "self_aid") = .str selfAid
  snapshots : SnapshotsArgument (inp.get (txt "revocation_snapshots"))
  manifests : ∀ manifests, inp.get? (txt "issuer_manifests") = some manifests → ManifestsArgument manifests

/-- A hop whose issuer names no key, once it is resolved. A Manifest source names
one, so with it only the issuer's text can fail. -/
def UnresolvableHop (inp : Members) (hop : JsonValue) : Prop :=
  ∃ parsed, ParsesTo P hop parsed ∧ Unresolvable P (parsed.claims.get (txt "iss")) ∧
    (Leaks (P.toStr (parsed.claims.get (txt "iss"))) ∨
      inp.get? (txt "issuer_manifests") = none ∧ HeaderFor delegationTyp parsed)

/-- A root voucher to be verified under a verifier that names no key. -/
def UnresolvableVoucher (claims : Members) (selfAid : Text) : Prop :=
  ∃ voucher parsed, claims.get (txt "voucher") = .str voucher ∧ ParsesTo P (.str voucher) parsed ∧
    parsed.claims.get (txt "iss") = .str selfAid ∧ HeaderFor voucherTyp parsed ∧ ∀ aid, parseAid P selfAid ≠ .ok aid

/-- An iteration that resolves an issuer to no key: the hop's own, or at the root the voucher's. -/
def UnresolvableStep (inp : Members) (selfAid : Text) (now : Int) (state : ChainState) (hop : JsonValue) : Prop :=
  UnresolvableHop P inp hop ∨
    state.prev = none ∧ ∃ claims, verifyHop P inp hop selfAid state.seenJti now = .ok claims ∧
      UnresolvableVoucher P claims selfAid

theorem resolveKeyFromManifests_coded {aid : Text} {manifests : JsonValue} {now : Int} (h : ManifestsArgument manifests) :
    FailsWith Coded (resolveKeyFromManifests P aid manifests now) :=
  (resolveManifest_coded P h).bind fun _ _ => .ok

theorem resolveKeyFromManifests_parses {aid : Text} {manifests : JsonValue} {now : Int} {key : Aid}
    (h : resolveKeyFromManifests P aid manifests now = .ok key) : parseAid P aid = .ok key := by
  obtain ⟨⟨found, man⟩, hman, hkey⟩ := bind_eq_ok.mp h
  obtain rfl := Except.ok.inj hkey
  exact (resolveManifest_eq_ok P hman).2.2

theorem leaks_verifyHopJws_of_manifests {inp : Members} {token manifests : JsonValue} {now : Int}
    (h : inp.get? (txt "issuer_manifests") = some manifests) (hm : ManifestsArgument manifests) :
    Leaks (verifyHopJws P inp token now) ↔
      ∃ parsed, ParsesTo P token parsed ∧ Leaks (P.toStr (parsed.claims.get (txt "iss"))) := by
  rw [verifyHopJws, leaks_bind_right (peekClaims_coded P)]
  simp only [peekClaims_eq_ok]
  constructor
  · rintro ⟨_, ⟨parsed, hparsed, rfl⟩, hleak⟩
    refine ⟨parsed, hparsed, ?_⟩
    cases hiss : P.toStr (parsed.claims.get (txt "iss")) with
    | error e =>
      rw [← hiss]
      exact (toStr_leaks P).mpr fun s hs => by rw [hiss] at hs; cases hs
    | ok iss =>
      -- the issuer has a text, so its Manifest was found and the text parses
      exfalso
      rw [resolveIssuer, h] at hleak
      dsimp only at hleak
      rw [hiss, ok_bind, leaks_bind_right ((resolveKeyFromManifests_coded P hm).bind fun _ _ => .ok)] at hleak
      obtain ⟨_, hresolved, hleak⟩ := hleak
      obtain ⟨key, hkey, _⟩ := bind_eq_ok.mp hresolved
      rw [ok_bind] at hleak
      refine not_leaks_iff.mpr ?_ hleak
      refine (verifyJws_coded P ⟨key, resolveKeyFromManifests_parses P hkey⟩ fun _ => .ok).bind fun _ _ => ?_
      exact (checkDelegationClaimsShape_coded P).bind fun _ _ => .ok
  · rintro ⟨parsed, hparsed, hleak⟩
    refine ⟨_, ⟨parsed, hparsed, rfl⟩, ?_⟩
    rw [resolveIssuer, h]
    exact leaks_bind.mpr (.inl (leaks_bind.mpr (.inl hleak)))

theorem leaks_verifyHopJws_of_arguments {inp : Members} {hop : JsonValue} {token selfAid : Text}
    (h : ChainArguments inp token selfAid) (now : Int) : Leaks (verifyHopJws P inp hop now) ↔ UnresolvableHop P inp hop := by
  cases hm : inp.get? (txt "issuer_manifests") with
  | none =>
    rw [leaks_verifyHopJws P hm]
    simp only [UnresolvableIssuer, UnresolvableHop, noCheck, and_true, hm, true_and]
  | some manifests =>
    rw [leaks_verifyHopJws_of_manifests P hm (h.manifests manifests hm)]
    simp only [UnresolvableHop, hm, reduceCtorEq, false_and, or_false]
    refine exists_congr fun parsed => and_congr_right fun _ => ?_
    refine ⟨fun hleak => ⟨fun s aid hs => absurd hs ((toStr_leaks P).mp hleak s), hleak⟩, And.right⟩

theorem leaks_verifyHop {inp : Members} {hop : JsonValue} {token selfAid : Text} {seenJti : List JsonValue} {now : Int}
    (h : ChainArguments inp token selfAid) :
    Leaks (verifyHop P inp hop selfAid seenJti now) ↔ UnresolvableHop P inp hop := by
  rw [← leaks_verifyHopJws_of_arguments P h now, verifyHop]
  refine leaks_bind_left fun hc hhc => ?_
  have hshape := ((verifyHopJws_eq_ok P).mp hhc).1.shape
  have hvoucher (message : Text) : Coded (invalidVoucher message) := coded_aitpError
  have hexpired (message : Text) : Coded (delegationExpired message) := coded_aitpError
  refine (FailsWith.raiseIf coded_aitpError).bind fun _ _ => (FailsWith.raiseIf coded_aitpError).bind fun _ _ =>
    (FailsWith.raiseIf coded_aitpError).bind fun _ _ => ?_
  refine (onValueError_coded (parseAid_valueErrors P _)).bind fun _ _ => (FailsWith.raiseIf (hvoucher _)).bind fun _ _ =>
    (FailsWith.raiseIf (hvoucher _)).bind fun _ _ => ?_
  exact (checkExp_coded P (hshape.toInt_exp P) (hexpired _)).bind fun _ _ => .ok

theorem leaks_verifyRootVoucher {claims : Members} {selfAid missing : Text} :
    Leaks (verifyRootVoucher P claims selfAid missing) ↔ UnresolvableVoucher P claims selfAid := by
  unfold verifyRootVoucher
  cases hv : claims.get (txt "voucher") with
  | str voucher =>
    have hforeign (message : Text) : Coded (invalidVoucher message) := coded_aitpError
    dsimp only
    rw [leaks_bind_right (peekClaims_coded P)]
    simp only [peekClaims_eq_ok]
    constructor
    · rintro ⟨_, ⟨parsed, hparsed, rfl⟩, hleak⟩
      rw [leaks_bind_right (.raiseIf (hforeign _))] at hleak
      obtain ⟨_, hiss, hleak⟩ := hleak
      rw [raiseIf_eq_ok, Bool.not_eq_false', JsonValue.eq_str] at hiss
      rw [leaks_bind_left fun _ _ => (checkVoucherClaimsShape_coded P).bind fun _ _ => .ok, leaks_verifyJws] at hleak
      obtain ⟨found, hfound, hheader, hleak | ⟨_, hno⟩⟩ := hleak
      · exact absurd hleak (not_leaks_iff.mpr .ok)
      · obtain rfl := hparsed.unique P hfound
        exact ⟨voucher, parsed, hv, hparsed, hiss, hheader, hno⟩
    · rintro ⟨found, parsed, hfound, hparsed, hiss, hheader, hno⟩
      obtain rfl : voucher = found := JsonValue.str.inj (hv.symm.trans hfound)
      refine ⟨_, ⟨parsed, hparsed, rfl⟩, ?_⟩
      have hown : (!(parsed.claims.get (txt "iss")).eq (.str selfAid)) = false := by
        rw [Bool.not_eq_false', JsonValue.eq_str]
        exact hiss
      rw [hown, raiseIf, if_neg Bool.false_ne_true, ok_bind,
        leaks_bind_left fun _ _ => (checkVoucherClaimsShape_coded P).bind fun _ _ => .ok, leaks_verifyJws]
      exact ⟨parsed, hparsed, hheader, .inr ⟨rfl, hno⟩⟩
  | _ =>
    refine iff_of_false (not_leaks_iff.mpr (.error coded_aitpError)) ?_
    rintro ⟨voucher, _, hvoucher, _⟩
    rw [hv] at hvoucher
    cases hvoucher

theorem checkAgainstPrevious_coded {hc prev : Members} {prevScope : List JsonValue} (hs : DelegationShape hc)
    (hp : DelegationShape prev) : FailsWith Coded (checkAgainstPrevious P hc prev prevScope) := by
  have hvoucher (message : Text) : Coded (invalidVoucher message) := coded_aitpError
  have hexpired (message : Text) : Coded (delegationExpired message) := coded_aitpError
  refine (FailsWith.raiseIf (hvoucher _)).bind fun _ _ => (FailsWith.raiseIf (hvoucher _)).bind fun _ _ => ?_
  rw [hs.toInt_exp, ok_bind, hp.toInt_exp, ok_bind]
  exact (FailsWith.raiseIf (hexpired _)).bind fun _ _ => .raiseIf coded_aitpError

theorem leaks_hopAuthority {state : ChainState} {hc : Members} {selfAid : Text} {now : Int} (hs : DelegationShape hc)
    (hprev : ∀ prev, state.prev = some prev → DelegationShape prev) :
    Leaks (hopAuthority P state hc selfAid now) ↔ state.prev = none ∧ UnresolvableVoucher P hc selfAid := by
  unfold hopAuthority
  cases hp : state.prev with
  | none =>
    dsimp only
    rw [leaks_bind_left, leaks_verifyRootVoucher]
    · simp only [true_and]
    · intro vclaims hv
      exact (checkAgainstVoucher_coded P hs ((verifyRootVoucher_eq_ok P).mp hv).shape).bind fun _ _ => .ok
  | some prev =>
    refine iff_of_false (not_leaks_iff.mpr ?_) (by simp)
    exact (checkAgainstPrevious_coded P hs (hprev prev hp)).bind fun _ _ => .ok

/-- One iteration leaks exactly where it resolves an issuer to no key. -/
theorem leaks_stepHop {inp : Members} {token selfAid : Text} {now : Int} {state : ChainState} {hop : JsonValue}
    (h : ChainArguments inp token selfAid) (hprev : ∀ prev, state.prev = some prev → DelegationShape prev) :
    Leaks (stepHop P inp selfAid now state hop) ↔ UnresolvableStep P inp selfAid now state hop := by
  rw [stepHop, leaks_bind, leaks_verifyHop P h, UnresolvableStep]
  refine or_congr_right ?_
  simp only [leaks_bind_left fun _ _ => FailsWith.ok]
  constructor
  · rintro ⟨hc, hok, hleak⟩
    have hshape := ((verifyHop_eq_ok P).mp hok).1.token.shape
    obtain ⟨hnone, hvoucher⟩ := (leaks_hopAuthority P hshape hprev).mp hleak
    exact ⟨hnone, hc, hok, hvoucher⟩
  · rintro ⟨hnone, hc, hok, hvoucher⟩
    have hshape := ((verifyHop_eq_ok P).mp hok).1.token.shape
    exact ⟨hc, hok, (leaks_hopAuthority P hshape hprev).mpr ⟨hnone, hvoucher⟩⟩

/-- The loop leaks at the first iteration that does. -/
theorem leaks_runHops {inp : Members} {selfAid : Text} {now : Int} {state : ChainState} {hops : List JsonValue} :
    Leaks (runHops P inp selfAid now state hops) ↔
      ∃ before hop after reached, hops = before ++ hop :: after ∧
        runHops P inp selfAid now state before = .ok reached ∧ Leaks (stepHop P inp selfAid now reached hop) := by
  induction hops generalizing state with
  | nil =>
    refine iff_of_false (not_leaks_iff.mpr .ok) ?_
    rintro ⟨before, hop, after, _, hsplit, _⟩
    simp at hsplit
  | cons first rest ih =>
    rw [runHops, leaks_bind]
    constructor
    · rintro (hleak | ⟨next, hnext, hleak⟩)
      · exact ⟨[], first, rest, state, rfl, rfl, hleak⟩
      · obtain ⟨before, hop, after, reached, hsplit, hrun, hstep⟩ := ih.mp hleak
        refine ⟨first :: before, hop, after, reached, by rw [hsplit, List.cons_append], ?_, hstep⟩
        rw [runHops, hnext, ok_bind]
        exact hrun
    · rintro ⟨before, hop, after, reached, hsplit, hrun, hstep⟩
      cases before with
      | nil =>
        obtain ⟨rfl, rfl⟩ := List.cons.inj hsplit
        obtain rfl := Except.ok.inj hrun
        exact .inl hstep
      | cons b before =>
        obtain ⟨rfl, rfl⟩ := List.cons.inj hsplit
        obtain ⟨next, hnext, hrest⟩ := bind_eq_ok.mp hrun
        exact .inr ⟨next, hnext, ih.mpr ⟨before, hop, after, reached, rfl, hrest, hstep⟩⟩

/-- The hops before are verified, and the next iteration resolves an issuer to no key. -/
def UnresolvableRun (inp : Members) (selfAid : Text) (now : Int) (hops : List JsonValue) : Prop :=
  ∃ before hop after reached, hops = before ++ hop :: after ∧
    runHops P inp selfAid now ChainState.start before = .ok reached ∧ UnresolvableStep P inp selfAid now reached hop

/-- The predecessor the loop carries was a verified hop. -/
theorem runHops_prev {inp : Members} {selfAid : Text} {now : Int} {hops : List JsonValue} {state : ChainState}
    (h : runHops P inp selfAid now ChainState.start hops = .ok state) (prev : Members) (hp : state.prev = some prev) :
    DelegationShape prev := by
  obtain ⟨done, _, hi⟩ := (ChainInvariant.start P).hops P h
  rw [List.nil_append] at hi
  rw [hi.prev, Option.map_eq_some_iff] at hp
  obtain ⟨last, hlast, rfl⟩ := hp
  exact (hi.run.verified last (List.mem_of_getLast? hlast)).token.shape

theorem leaks_run {inp : Members} {token selfAid : Text} {now : Int} {hops : List JsonValue}
    (h : ChainArguments inp token selfAid) :
    Leaks (runHops P inp selfAid now ChainState.start hops) ↔ UnresolvableRun P inp selfAid now hops := by
  rw [leaks_runHops]
  refine exists_congr fun before => exists_congr fun hop => exists_congr fun after => exists_congr fun reached => ?_
  refine and_congr_right fun _ => and_congr_right fun hrun => ?_
  exact leaks_stepHop P h (runHops_prev P hrun)

/-! ### The whole token -/

theorem sweepHop_coded {mode : FailMode} {fresh : List Members} {hop : JsonValue} {typ : Text} {claims : Members}
    (h : IssuedToken P hop typ claims) : FailsWith Coded (sweepHop P mode fresh hop) := by
  obtain ⟨iss, hiss, hsigned⟩ := h
  have hpeek : peekClaims P hop "DELEGATION_INVALID_SIGNATURE" = .ok claims := (peekClaims_eq_ok P).mpr hsigned.parses
  simp only [sweepHop, hpeek, ok_bind, hiss, Interpreter.toStr]
  exact (FailsWith.raiseIf coded_aitpError).bind fun _ _ => .raiseIf coded_aitpError

/-- A chain that was read, with a token the run resolves to no key. -/
def UnresolvableChain (inp claims : Members) (token selfAid : Text) (now : Int) : Prop :=
  ∃ entries, claims.get (txt "chain") = .list entries ∧ WithinHops entries ∧ Committed P claims entries ∧
    UnresolvableRun P inp selfAid now (entries ++ [.str token])

theorem leaks_verifyMultihop {inp outer : Members} {token selfAid : Text} {now : Int}
    (h : ChainArguments inp token selfAid) :
    Leaks (verifyMultihop P inp (.str token) outer selfAid now) ↔
      Misread P outer ∨ UnresolvableChain P inp outer token selfAid now := by
  rw [verifyMultihop]
  refine (leaks_bind_congr (Q := UnresolvableRun P inp selfAid now) fun hops hhops => ?_).trans ?_
  · obtain ⟨entries, _, _, _, rfl⟩ := (chainHops_read P).mp hhops
    rw [← leaks_run P h]
    refine leaks_bind_left fun final hfinal => ?_
    obtain ⟨done, hmap, hi⟩ := (ChainInvariant.start P).hops P hfinal
    rw [List.nil_append] at hi
    refine (verifiedSnapshotBodies_coded P h.snapshots).bind fun bodies hb => ?_
    have hbodies := verifiedSnapshotBodies_bodies P hb
    refine (checkSourceTctRevocation_coded P hbodies).bind fun _ _ => (freshBodies_coded P hbodies).bind fun fresh _ => ?_
    refine FailsWith.bind (.forEach fun hop hhop => ?_) fun _ _ => ?_
    · rw [← hmap] at hhop
      obtain ⟨verified, hv, rfl⟩ := List.mem_map.mp hhop
      exact sweepHop_coded P (hi.run.verified verified hv).token.signed
    · -- the run has a last hop, the outer token
      cases hprev : final.prev with
      | some last => exact .ok
      | none =>
        rw [hi.prev, Option.map_eq_none_iff, List.getLast?_eq_none_iff] at hprev
        simp [hprev] at hmap
  rw [leaks_chainHops]
  refine or_congr_right ?_
  constructor
  · rintro ⟨hops, hhops, hleak⟩
    obtain ⟨entries, hchain, hwithin, hcommitted, rfl⟩ := (chainHops_read P).mp hhops
    exact ⟨entries, hchain, hwithin, hcommitted, hleak⟩
  · rintro ⟨entries, hchain, hwithin, hcommitted, hleak⟩
    exact ⟨_, (chainHops_read P).mpr ⟨entries, hchain, hwithin, hcommitted, rfl⟩, hleak⟩

/-- A delegation answers with its grants or under a code of the package. -/
def Answered (x : PyM Members) : Prop := (∃ grants, x = .ok [(txt "grants", grants)]) ∨ ∃ e, x = .error e ∧ Coded e

/-- Multi-hop verification answers exactly when the chain is one it can measure, hash
and extend, and every token its run reaches resolves to a key. -/
theorem chain_answered_iff (inp : Members) (now : Int) (token selfAid : Text) (outer : ParsedJws)
    (h : ChainArguments inp token selfAid) (hp : ParsesTo P (.str token) outer) (hc : outer.claims.has (txt "chain")) :
    Answered (verifyDelegationToken P inp now) ↔
      ¬ Misread P outer.claims ∧ ¬ UnresolvableChain P inp outer.claims token selfAid now := by
  have hpeek : peekClaims P (.str token) "DELEGATION_INVALID_SIGNATURE" = .ok outer.claims :=
    (peekClaims_eq_ok P).mpr ⟨outer, hp, rfl⟩
  have hfeature : (JsonValue.str multihopFeature).eq (.str multihopFeature) = true := by rw [JsonValue.eq_str]
  have hpath : verifyDelegationToken P inp now = (do
      let grants ← verifyMultihop P inp (.str token) outer.claims selfAid now
      .ok [(txt "grants", grants)]) := by
    simp only [verifyDelegationToken, h.token, checkTokenPresent_str, ok_bind, hpeek, h.feature, hfeature, hc,
      h.verifier, delegationGrants, if_true, Bool.not_true, Bool.and_false, raiseIf, Bool.false_eq_true, if_false]
  rw [← not_or, ← leaks_verifyMultihop P h, hpath]
  cases hg : verifyMultihop P inp (.str token) outer.claims selfAid now with
  | ok grants => exact iff_of_true (.inl ⟨grants, rfl⟩) (not_leaks_iff.mpr .ok)
  | error e => simp [Answered, Leaks, error_bind]

/-! ### Recorded runs -/

/-- A call without snapshots, under the lenient policy. -/
def chainInput (token : JsonValue) : Members :=
  [(txt "delegation_token", token), (txt "self_aid", .str (aidOf agentA)), (txt "_feature", .str multihopFeature),
    (txt "policy", .dict [(txt "fail_mode", .str (txt "fail_open"))])]

theorem chainInput_arguments (token : Text) : ChainArguments (chainInput (.str token)) token (aidOf agentA) where
  token := rfl
  feature := rfl
  verifier := rfl
  snapshots := .inl rfl
  manifests := nofun

theorem not_answered_of_leaks {x : PyM Members} (h : Leaks x) : ¬ Answered x := by
  obtain ⟨e, rfl, hno⟩ := h
  rintro (⟨grants, hg⟩ | ⟨found, hfound, hcoded⟩)
  · cases hg
  · obtain rfl := Except.error.inj hfound
    exact hno hcoded

/-- A token whose text is read and carries a chain. -/
theorem exists_parsed (token : JsonValue) (code : String)
    (h : (peekClaims P token code).toOption.any (fun claims => claims.has (txt "chain")) = true) :
    ∃ parsed, ParsesTo P token parsed ∧ parsed.claims.has (txt "chain") := by
  cases hp : peekClaims P token code with
  | error e =>
    rw [hp] at h
    cases h
  | ok claims =>
    obtain ⟨parsed, hparsed, rfl⟩ := (peekClaims_eq_ok P).mp hp
    rw [hp] at h
    exact ⟨parsed, hparsed, h⟩

/-- Agent C's token and the one it extends are read and resolve. -/
theorem chain_answered_lastHop :
    ∃ outer, ParsesTo delegationRecording.platform (.str lastHopToken.text) outer ∧
      ¬ Misread delegationRecording.platform outer.claims ∧
        ¬ UnresolvableChain delegationRecording.platform (chainInput (.str lastHopToken.text)) outer.claims
          lastHopToken.text (aidOf agentA) referenceClock := by
  obtain ⟨outer, hp, hc⟩ := exists_parsed delegationRecording.platform (.str lastHopToken.text)
    "DELEGATION_INVALID_SIGNATURE" (by decide +kernel)
  have hrun : verifyDelegationToken delegationRecording.platform (chainInput (.str lastHopToken.text)) referenceClock =
      .ok [(txt "grants", .list [.str (txt "read")])] := by
    decide +kernel
  exact ⟨outer, hp, (chain_answered_iff delegationRecording.platform _ referenceClock _ _ outer
    (chainInput_arguments lastHopToken.text) hp hc).mp (.inl ⟨_, hrun⟩)⟩

/-- A chain that is a number. -/
def numberedToken : JsonValue :=
  mintedToken delegationTyp (lastHopClaims.insert (txt "chain") (.int 5)) lastHopSignature

/-- It has no length, and `len` raises. -/
theorem numberedToken_leaks :
    ∃ outer, ChainArguments (chainInput (.str numberedToken.text)) numberedToken.text (aidOf agentA) ∧
      ParsesTo delegationRecording.platform (.str numberedToken.text) outer ∧ outer.claims.has (txt "chain") ∧
        ¬ Answered (verifyDelegationToken delegationRecording.platform (chainInput (.str numberedToken.text))
          referenceClock) := by
  obtain ⟨outer, hp, hc⟩ := exists_parsed delegationRecording.platform (.str numberedToken.text)
    "DELEGATION_INVALID_SIGNATURE" (by decide +kernel)
  have hleak : Leaks (verifyDelegationToken delegationRecording.platform (chainInput (.str numberedToken.text))
      referenceClock) := by
    decide +kernel
  exact ⟨outer, chainInput_arguments numberedToken.text, hp, hc, not_answered_of_leaks hleak⟩

end AitpVerifier
