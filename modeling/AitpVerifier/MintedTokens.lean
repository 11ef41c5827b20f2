import AitpVerifier.MintedDocuments
import AitpVerifier.Respelled

/-!
# Tokens the minter places

A minted token parses to what was signed, respelled, under the header of its variant. So
the verifier accepts the genuine ones, and it refuses a forged header by the algorithm.
-/
namespace AitpVerifier

open PyText Checked Json Jcs

variable {P : Platform}

/-! ### Claims objects keep one member a name -/

mutual
theorem resolveTimes_distinct {now : Int} (value : JsonValue) {resolved : JsonValue} (hd : value.Distinct)
    (h : resolveTimes P now value = .ok resolved) : resolved.Distinct := by
  cases value with
  | str s =>
    rw [resolveTimes] at h
    rcases resolveTime_eq_ok P h with rfl | ⟨n, rfl⟩
    · exact .str
    · exact .int
  | list items =>
    cases hd with
    | list hitems =>
      simp only [resolveTimes, bind_eq_ok, Except.ok.injEq] at h
      obtain ⟨others, hothers, rfl⟩ := h
      exact .list (resolveItems_distinct items hitems hothers)
  | dict members =>
    cases hd with
    | dict hnames hmembers =>
      simp only [resolveTimes, bind_eq_ok, Except.ok.injEq] at h
      obtain ⟨others, hothers, rfl⟩ := h
      obtain ⟨hsame, hall⟩ := resolveMembers_distinct members hmembers hothers
      exact .dict (hsame ▸ hnames) hall
  | null => exact (Except.ok.inj h) ▸ hd
  | bool => exact (Except.ok.inj h) ▸ hd
  | int => exact (Except.ok.inj h) ▸ hd
  | float => exact (Except.ok.inj h) ▸ hd

theorem resolveItems_distinct {now : Int} (items : List JsonValue) {resolved : List JsonValue}
    (hd : ∀ item ∈ items, item.Distinct) (h : resolveItems P now items = .ok resolved) : ∀ item ∈ resolved, item.Distinct := by
  cases items with
  | nil =>
    obtain rfl := Except.ok.inj h
    exact hd
  | cons value rest =>
    simp only [resolveItems, bind_eq_ok, Except.ok.injEq] at h
    obtain ⟨first, hfirst, others, hothers, rfl⟩ := h
    rw [List.forall_mem_cons] at hd ⊢
    exact ⟨resolveTimes_distinct value hd.1 hfirst, resolveItems_distinct rest hd.2 hothers⟩

theorem resolveMembers_distinct {now : Int} (members : Members) {resolved : Members} (hd : ∀ m ∈ members, m.2.Distinct)
    (h : resolveMembers P now members = .ok resolved) :
    Members.names members = Members.names resolved ∧ ∀ m ∈ resolved, m.2.Distinct := by
  cases members with
  | nil =>
    obtain rfl := Except.ok.inj h
    exact ⟨rfl, hd⟩
  | cons member rest =>
    obtain ⟨key, value⟩ := member
    simp only [resolveMembers, bind_eq_ok, Except.ok.injEq] at h
    obtain ⟨first, hfirst, others, hothers, rfl⟩ := h
    rw [List.forall_mem_cons] at hd
    obtain ⟨hsame, hall⟩ := resolveMembers_distinct rest hd.2 hothers
    refine ⟨congrArg (key :: ·) hsame, ?_⟩
    rw [List.forall_mem_cons]
    exact ⟨resolveTimes_distinct value hd.1 hfirst, hall⟩
end

theorem distinct_insert {members : Members} {key : Text} {value : JsonValue} (h : (JsonValue.dict members).Distinct)
    (hv : value.Distinct) : (JsonValue.dict (members.insert key value)).Distinct := by
  cases h with
  | dict hnames hmembers =>
    induction members with
    | nil => exact .dict (List.nodup_singleton key) (List.forall_mem_singleton.mpr hv)
    | cons member rest ih =>
      obtain ⟨k, v⟩ := member
      rw [Members.names, List.map_cons, List.nodup_cons] at hnames
      rw [List.forall_mem_cons] at hmembers
      by_cases hk : k = key
      · rw [Members.insert, if_pos hk]
        refine .dict (List.nodup_cons.mpr hnames) ?_
        rw [List.forall_mem_cons]
        exact ⟨hv, hmembers.2⟩
      · rw [Members.insert, if_neg hk]
        cases ih hnames.2 hmembers.2 with
        | dict hnames' hmembers' =>
          refine .dict (List.nodup_cons.mpr ⟨fun hm => ?_, hnames'⟩) ?_
          · rcases Members.mem_names_insert hm with heq | hm
            · exact hk heq
            · exact hnames.1 hm
          · rw [List.forall_mem_cons]
            exact ⟨hmembers.1, hmembers'⟩

theorem distinct_stripClaims {members : Members} (h : (JsonValue.dict members).Distinct) :
    (JsonValue.dict (stripClaims members)).Distinct := by
  cases h with
  | dict hnames hmembers =>
    constructor
    · exact (List.filter_sublist.map Prod.fst).nodup hnames
    · intro m hm
      exact hmembers m (List.mem_of_mem_filter hm)

theorem mintSiblings_distinct {mint : Text → JsonValue → MintM Text} {names : List Text} {out minted : Members}
    (hd : (JsonValue.dict out).Distinct) (h : mintSiblings mint out names = .ok minted) : (JsonValue.dict minted).Distinct := by
  induction names generalizing out with
  | nil =>
    obtain rfl := Except.ok.inj h
    exact hd
  | cons base rest ih =>
    simp only [mintSiblings, bind_eq_ok] at h
    obtain ⟨next, hnext, h⟩ := h
    refine ih ?_ h
    unfold mintSibling at hnext
    split at hnext
    · split at hnext
      · simp only [bind_eq_ok, Except.ok.injEq] at hnext
        obtain ⟨token, _, rfl⟩ := hnext
        exact distinct_insert hd .str
      · exact Except.ok.inj hnext ▸ hd
    · exact Except.ok.inj hnext ▸ hd

/-- The chain of a claims object is minted tokens, and nothing but texts. -/
theorem mintChain_distinct {mint : Text → JsonValue → MintM Text} {out minted : Members} (hd : (JsonValue.dict out).Distinct)
    (h : mintChain P mint out = .ok minted) : (JsonValue.dict minted).Distinct := by
  unfold mintChain at h
  split at h
  · simp only [bind_eq_ok, python_eq_ok] at h
    obtain ⟨claims, _, chain, hchain, h⟩ := h
    have hlist : (JsonValue.list chain).Distinct := by
      refine .list fun item hm => ?_
      obtain ⟨_, _, hitem⟩ := (mem_collect hchain).mp hm
      simp only [bind_eq_ok, Except.ok.injEq] at hitem
      obtain ⟨token, _, rfl⟩ := hitem
      exact .str
    split at h
    · simp only [bind_eq_ok, python_eq_ok, Except.ok.injEq] at h
      obtain ⟨hash, _, rfl⟩ := h
      exact distinct_insert (distinct_insert hd hlist) .str
    · obtain rfl := Except.ok.inj h
      exact distinct_insert hd hlist
  · obtain rfl := Except.ok.inj h
    exact hd

theorem mintClaimsObject_distinct {now : Int} {mint : Text → JsonValue → MintM Text} {claims : JsonValue} {minted : Members}
    (hd : claims.Distinct) (h : mintClaimsObject P now mint claims = .ok minted) : (JsonValue.dict minted).Distinct := by
  simp only [mintClaimsObject, bind_eq_ok, python_eq_ok] at h
  obtain ⟨resolved, hresolved, h⟩ := h
  have hd' := resolveTimes_distinct claims hd hresolved
  cases resolved with
  | dict out =>
    simp only [bind_eq_ok, Except.ok.injEq] at h
    obtain ⟨siblings, hsiblings, chained, hchained, rfl⟩ := h
    exact distinct_stripClaims (mintChain_distinct (mintSiblings_distinct hd' hsiblings) hchained)
  | _ => cases h

/-! ### What a minted token parses to -/

/-- A signing input under a signature parses to its header, its claims respelled, and the
octets that were signed. -/
theorem signingInput_parses (hdepth : maxDepth < P.parseDepth) {typ alg signingInput : Text} {claims : Members}
    {signature : Bytes} (hd : (JsonValue.dict claims).Distinct) (h : jwsSigningInput typ alg claims = .ok signingInput)
    (hne : signature ≠ []) :
    ∃ members, (JsonValue.dict claims).Respelled (.dict members) ∧
      ParsesTo P (.str (signingInput ++ txt "." ++ b64urlEncode signature))
        ⟨[(txt "alg", .str (joinPairs alg)), (txt "typ", .str (joinPairs typ))], members, asciiOctets signingInput, signature⟩ := by
  simp only [jwsSigningInput, bind_eq_ok, Except.ok.injEq] at h
  obtain ⟨payload, hpayload, rfl⟩ := h
  obtain ⟨value, hloads, hrespelled, _⟩ := loads_canonical (I := P.toInterpreter) hd hpayload hdepth
  cases hrespelled with
  | number hv => cases hv
  | @dict _ members hnames hmembers =>
    have hpayload_ne : payload ≠ [] := by
      rintro rfl
      cases hloads
    have hheader_ne : asciiOctets (jwsHeader typ alg) ≠ [] := by
      rw [jwsHeader_eq]
      exact List.cons_ne_nil _ _
    exact ⟨members, .dict hnames hmembers, "",
      parseCompact_segments ⟨hheader_ne, hpayload_ne, hne⟩ (loads_jwsHeader hdepth typ alg) hloads ""⟩

/-- A token whose parts are all of the right kind is accepted when its signature verifies. -/
theorem verifyJws_parsed {token : JsonValue} {iss typ alg : Text} {members : Members} {input signature : Bytes} {aid : Aid}
    (hparsed : ParsesTo P token ⟨[(txt "alg", .str alg), (txt "typ", .str typ)], members, input, signature⟩)
    (hparse : parseAid P iss = .ok aid) (halg : alg = aid.joseAlg) (errors : JwsErrors) (found : Members) :
    verifyJws P token iss typ errors noCheck = .ok found ↔
      members = found ∧ verifyJose P (.agent aid.publicKey) input signature false = true := by
  have hheader : exactHeader [(txt "alg", JsonValue.str alg), (txt "typ", JsonValue.str typ)] = true := rfl
  rw [verifyJws_eq_ok, noCheck, eq_self, and_true]
  constructor
  · rintro ⟨parsed, own, hp, hclaims, _, _, hown, _, hverify⟩
    obtain rfl := ParsesTo.unique P hp hparsed
    obtain rfl : own = aid := Except.ok.inj (hown.symm.trans hparse)
    exact ⟨hclaims, hverify⟩
  · rintro ⟨rfl, hverify⟩
    exact ⟨_, aid, hparsed, rfl, hheader, rfl, hparse, congrArg JsonValue.str halg, hverify⟩

/-- A token under another algorithm than its issuer's is refused by it, whoever signed. -/
theorem verifyJws_misnamed {token : JsonValue} {iss typ alg : Text} {members : Members} {input signature : Bytes} {aid : Aid}
    (hparsed : ParsesTo P token ⟨[(txt "alg", .str alg), (txt "typ", .str typ)], members, input, signature⟩)
    (hparse : parseAid P iss = .ok aid) (halg : alg ≠ aid.joseAlg) (errors : JwsErrors) :
    Raises (verifyJws P token iss typ errors noCheck) errors.algErr := by
  have hheader : exactHeader [(txt "alg", JsonValue.str alg), (txt "typ", JsonValue.str typ)] = true := rfl
  have htyp : (Members.get [(txt "alg", JsonValue.str alg), (txt "typ", JsonValue.str typ)] (txt "typ")).eq (.str typ) = true :=
    (JsonValue.eq_str _ _).mpr rfl
  have hother : (Members.get [(txt "alg", JsonValue.str alg), (txt "typ", JsonValue.str typ)] (txt "alg")).eq (.str aid.joseAlg) =
      false := by
    rw [← Bool.not_eq_true, JsonValue.eq_str]
    exact fun h => halg (JsonValue.str.inj h)
  have hshown : describeValue P (Members.get [(txt "alg", JsonValue.str alg), (txt "typ", JsonValue.str typ)] (txt "alg")) =
      .ok (P.reprStr alg) := repr_str P alg
  rw [verifyJws, (parseCompact_eq_ok P).mpr hparsed, ok_bind]
  simp only [hheader, htyp, hother, hparse, hshown, noCheck, raiseIf, raiseWith, Bool.not_true, Bool.not_false,
    Bool.false_eq_true, if_false, if_true, ok_bind]
  exact ⟨_, rfl, rfl⟩

/-! ### The variants -/

/-- The headers of the table need no escape: what is written by hand is what is encoded. -/
theorem jwsTokens_headers : ∀ m ∈ jwsTokens, joinPairs m.2.1 = m.2.1 ∧ ∀ alg ∈ [txt "none", txt "ES256"], joinPairs alg = alg ∧
    txt "\x7b\"alg\":\"" ++ alg ++ txt "\",\"typ\":\"" ++ m.2.1 ++ txt "\"\x7d" = jwsHeader m.2.1 alg := by decide +kernel

theorem mem_jwsTokens {placeholder typ : Text} {variant : TokenVariant} (h : jwsTokens.lookup placeholder = some (typ, variant)) :
    (placeholder, typ, variant) ∈ jwsTokens := by
  obtain ⟨before, after, heq, _⟩ := List.lookup_eq_some_iff.mp h
  rw [heq]
  exact List.mem_append_right before List.mem_cons_self

section

variable {placeholder typ : Text} {variant : TokenVariant} (hplaceholder : jwsTokens.lookup placeholder = some (typ, variant))
include hplaceholder

theorem joinPairs_typ : joinPairs typ = typ := (jwsTokens_headers _ (mem_jwsTokens hplaceholder)).1

theorem forgedInput_eq {alg : Text} (halg : alg ∈ [txt "none", txt "ES256"]) (claims : Members) :
    forgedInput typ alg claims = jwsSigningInput typ alg claims := by
  rw [forgedInput, ((jwsTokens_headers _ (mem_jwsTokens hplaceholder)).2 alg halg).2, jwsSigningInput]

end

/-- The last bit of a signature that is there. -/
theorem flipLastBit_eq_ok {raw flipped : Bytes} : flipLastBit raw = .ok flipped ↔
    ∃ front last, raw = front ++ [last] ∧ flipped = front ++ [last ^^^ 1] := by
  rcases List.eq_nil_or_concat' raw with rfl | ⟨front, last, rfl⟩
  · rw [flipLastBit]
    simp
  · rw [flipLastBit, List.getLast?_concat, List.dropLast_concat]
    simp only [Except.ok.injEq]
    constructor
    · intro h
      exact ⟨front, last, rfl, h.symm⟩
    · rintro ⟨front', last', heq, rfl⟩
      obtain ⟨rfl, hlast⟩ := List.append_inj' heq rfl
      rw [List.singleton_inj.mp hlast]

/-- A token with its signature flipped is the signing input under another signature. -/
theorem tamperLastSigByte_eq_ok {typ alg signingInput token : Text} {claims : Members} {signature : Bytes}
    (hinput : jwsSigningInput typ alg claims = .ok signingInput) :
    tamperLastSigByte (signingInput ++ txt "." ++ b64urlEncode signature) = .ok token ↔
      ∃ flipped, flipLastBit signature = .ok flipped ∧ token = signingInput ++ txt "." ++ b64urlEncode flipped := by
  simp only [jwsSigningInput, bind_eq_ok, Except.ok.injEq] at hinput
  obtain ⟨payload, _, rfl⟩ := hinput
  have hdot : txt "." = [0x2E] := by decide
  have hparts : ∀ part ∈ [b64urlEncode (asciiOctets (jwsHeader typ alg)), b64urlEncode payload, b64urlEncode signature],
      0x2E ∉ part := by
    simp only [List.mem_cons, List.not_mem_nil, or_false, forall_eq_or_imp, forall_eq]
    exact ⟨b64urlEncode_no_dot _, b64urlEncode_no_dot _, b64urlEncode_no_dot _⟩
  have hsplit := splitOn_join (List.cons_ne_nil _ _) hparts
  have htext : [(0x2E : CodePoint)].intercalate
      [b64urlEncode (asciiOctets (jwsHeader typ alg)), b64urlEncode payload, b64urlEncode signature] =
        b64urlEncode (asciiOctets (jwsHeader typ alg)) ++ txt "." ++ b64urlEncode payload ++ txt "." ++ b64urlEncode signature := by
    simp [List.intercalate, hdot]
  rw [htext] at hsplit
  rw [tamperLastSigByte, hsplit]
  dsimp only
  rw [b64urlDecode_encode, ok_bind]
  simp only [bind_eq_ok, Except.ok.injEq, @eq_comm _ token]

/-- The algorithm a token of a variant names. -/
def variantAlg (variant : TokenVariant) (key : PrivateKey) : Text :=
  match variant with
  | .algNone => txt "none"
  | .wrongAlg => txt "ES256"
  | _ => if key.alg = .ed25519 then txt "EdDSA" else txt "ES256"

/-- The signature a token of a variant carries. -/
def VariantSigned (variant : TokenVariant) (key : PrivateKey) (input signature : Bytes) : Prop :=
  match variant with
  | .algNone => signature = List.replicate 64 0
  | .tamper => ∃ raw, signJose key input = .ok raw ∧ flipLastBit raw = .ok signature
  | _ => signJose key input = .ok signature

/-- A token of every variant is a signing input under a signature, as one function would write it. -/
theorem signToken_eq_ok {placeholder typ token : Text} {variant : TokenVariant} {claims : Members} {key : PrivateKey}
    (hplaceholder : jwsTokens.lookup placeholder = some (typ, variant)) :
    signToken typ variant claims key = .ok token ↔ ∃ input signature,
      jwsSigningInput typ (variantAlg variant key) claims = .ok input ∧ VariantSigned variant key (asciiOctets input) signature ∧
        token = input ++ txt "." ++ b64urlEncode signature := by
  have hnone := forgedInput_eq hplaceholder (by decide : txt "none" ∈ _) claims
  have hes256 := forgedInput_eq hplaceholder (by decide : txt "ES256" ∈ _) claims
  cases variant with
  | normal => simp only [signToken, encodeJws, bind_eq_ok, Except.ok.injEq, variantAlg, VariantSigned, @eq_comm _ token, exists_and_left]
  | any => simp only [signToken, encodeJws, bind_eq_ok, Except.ok.injEq, variantAlg, VariantSigned, @eq_comm _ token, exists_and_left]
  | algNone =>
    simp only [signToken, hnone, bind_eq_ok, Except.ok.injEq, variantAlg, VariantSigned, @eq_comm _ token, exists_and_left,
      exists_eq_left]
  | wrongAlg =>
    simp only [signToken, hes256, bind_eq_ok, Except.ok.injEq, variantAlg, VariantSigned, @eq_comm _ token, exists_and_left]
  | tamper =>
    simp only [signToken, encodeJws, bind_eq_ok, Except.ok.injEq, variantAlg, VariantSigned]
    constructor
    · rintro ⟨_, ⟨input, hinput, raw, hraw, rfl⟩, h⟩
      obtain ⟨signature, hflip, rfl⟩ := (tamperLastSigByte_eq_ok hinput).mp h
      exact ⟨input, signature, hinput, ⟨raw, hraw, hflip⟩, rfl⟩
    · rintro ⟨input, signature, hinput, ⟨raw, hraw, hflip⟩, rfl⟩
      exact ⟨_, ⟨input, hinput, raw, hraw, rfl⟩, (tamperLastSigByte_eq_ok hinput).mpr ⟨signature, hflip, rfl⟩⟩

theorem signs_of_signsFor {key : PrivateKey} {publicKey : AgentKey} (h : SignsFor P key publicKey) : key.Signs := by
  cases key with
  | ed25519 own sign =>
    cases publicKey with
    | ed25519 => exact fun data => (h data).1
    | p256 => exact h.elim
  | p256 own sign signPrehashed =>
    cases publicKey with
    | ed25519 => exact h.elim
    | p256 => exact fun data => ⟨(h.1 data).1.1, (h.1 data).1.2, (h.1 data).2.1.1, (h.1 data).2.1.2⟩

/-- A signature of every variant has an octet. -/
theorem VariantSigned.ne_nil {variant : TokenVariant} {key : PrivateKey} {input signature : Bytes}
    (h : VariantSigned variant key input signature) (hsigns : key.Signs) : signature ≠ [] := by
  obtain ⟨raw, hraw, hlength⟩ := signJose_length hsigns input
  have hne : raw ≠ [] := List.ne_nil_of_length_pos (by omega)
  cases variant with
  | algNone =>
    obtain rfl : signature = List.replicate 64 0 := h
    decide
  | tamper =>
    obtain ⟨_, _, hflip⟩ := h
    obtain ⟨front, last, _, rfl⟩ := flipLastBit_eq_ok.mp hflip
    simp
  | normal | any | wrongAlg => exact Except.ok.inj (hraw.symm.trans h) ▸ hne

theorem joinPairs_variantAlg (variant : TokenVariant) (key : PrivateKey) :
    joinPairs (variantAlg variant key) = variantAlg variant key := by
  cases variant <;> rw [variantAlg] <;> first | decide | (split <;> decide)

/-- A token of every variant parses, to its claims respelled and to the header it names. -/
theorem signToken_parses (hdepth : maxDepth < P.parseDepth) {placeholder typ token : Text} {variant : TokenVariant}
    {claims : Members} {key : PrivateKey} (hplaceholder : jwsTokens.lookup placeholder = some (typ, variant))
    (hd : (JsonValue.dict claims).Distinct) (hsigns : key.Signs) (h : signToken typ variant claims key = .ok token) :
    ∃ members input signature, (JsonValue.dict claims).Respelled (.dict members) ∧ VariantSigned variant key input signature ∧
      ParsesTo P (.str token) ⟨[(txt "alg", .str (variantAlg variant key)), (txt "typ", .str typ)], members, input, signature⟩ := by
  obtain ⟨input, signature, hinput, hsigned, rfl⟩ := (signToken_eq_ok hplaceholder).mp h
  obtain ⟨members, hrespelled, hparsed⟩ := signingInput_parses hdepth hd hinput (hsigned.ne_nil hsigns)
  rw [joinPairs_variantAlg, joinPairs_typ hplaceholder] at hparsed
  exact ⟨members, _, signature, hrespelled, hsigned, hparsed⟩

/-- A token under the right header and a signature that does not verify. -/
theorem verifyJws_unverified {token : JsonValue} {iss typ alg : Text} {members : Members} {input signature : Bytes} {aid : Aid}
    (hparsed : ParsesTo P token ⟨[(txt "alg", .str alg), (txt "typ", .str typ)], members, input, signature⟩)
    (hparse : parseAid P iss = .ok aid) (halg : alg = aid.joseAlg)
    (hverify : verifyJose P (.agent aid.publicKey) input signature false = false) (errors : JwsErrors) :
    Raises (verifyJws P token iss typ errors noCheck) errors.sigErr := by
  have hheader : exactHeader [(txt "alg", JsonValue.str alg), (txt "typ", JsonValue.str typ)] = true := rfl
  have htyp : (Members.get [(txt "alg", JsonValue.str alg), (txt "typ", JsonValue.str typ)] (txt "typ")).eq (.str typ) = true :=
    (JsonValue.eq_str _ _).mpr rfl
  have hown : (Members.get [(txt "alg", JsonValue.str alg), (txt "typ", JsonValue.str typ)] (txt "alg")).eq (.str aid.joseAlg) =
      true := (JsonValue.eq_str _ _).mpr (congrArg JsonValue.str halg)
  rw [verifyJws, (parseCompact_eq_ok P).mpr hparsed, ok_bind]
  simp only [hheader, htyp, hown, hparse, hverify, noCheck, raiseIf, raiseWith, Bool.not_true, Bool.not_false,
    Bool.false_eq_true, if_false, if_true, ok_bind]
  exact ⟨_, rfl, rfl⟩

/-! ### The verdicts -/

/-- The token is accepted under `iss`, and its claims are those but for how numbers are spelled. -/
def AcceptedAs (P : Platform) (token iss typ : Text) (claims : Members) : Prop :=
  ∀ errors, ∃ found, verifyJws P (.str token) iss typ errors noCheck = .ok found ∧ (JsonValue.dict claims).Respelled (.dict found)

/-- The token is refused for the algorithm its header names. -/
def RefusedByAlg (P : Platform) (token iss typ : Text) : Prop :=
  ∀ errors : JwsErrors, Raises (verifyJws P (.str token) iss typ errors noCheck) errors.algErr

/-- The token is refused for its signature. -/
def RefusedBySignature (P : Platform) (token iss typ : Text) : Prop :=
  ∀ errors : JwsErrors, Raises (verifyJws P (.str token) iss typ errors noCheck) errors.sigErr

/-- What the verifier says of a token of a variant, under the identifier it names as its issuer. -/
def VariantVerdict (P : Platform) (variant : TokenVariant) (token iss typ : Text) (claims : Members) (key : PrivateKey)
    (aid : Aid) : Prop :=
  match variant with
  | .normal | .any => AcceptedAs P token iss typ claims
  | .algNone => RefusedByAlg P token iss typ
  | .wrongAlg => if aid.alg = .p256 then AcceptedAs P token iss typ claims else RefusedByAlg P token iss typ
  | .tamper => ∃ members input signature flipped, ParsesTo P (.str token)
      ⟨[(txt "alg", .str aid.joseAlg), (txt "typ", .str typ)], members, input, flipped⟩ ∧
    signJose key input = .ok signature ∧ flipLastBit signature = .ok flipped ∧
      if verifyJose P (.agent aid.publicKey) input flipped false then AcceptedAs P token iss typ claims
      else RefusedBySignature P token iss typ

/-- The algorithm of the signing key is the one its identifier is pinned to. -/
theorem keyAlg_eq_joseAlg {key : PrivateKey} {iss : Text} {aid : Aid} (hparse : parseAid P iss = .ok aid)
    (hkey : SignsFor P key aid.publicKey) : (if key.alg = .ed25519 then txt "EdDSA" else txt "ES256") = aid.joseAlg := by
  have halg : key.alg = aid.alg := hkey.alg.trans (fromRaw_alg ((parseAid_eq_ok P).mp hparse).2.2.2.2)
  rw [halg, Aid.joseAlg]
  cases aid.alg <;> rfl

/-- A token signed with the key of its issuer's identifier has the verdict of its variant. -/
theorem signToken_verdict (hdepth : maxDepth < P.parseDepth) {placeholder typ token iss : Text} {variant : TokenVariant}
    {claims : Members} {key : PrivateKey} {aid : Aid} (hplaceholder : jwsTokens.lookup placeholder = some (typ, variant))
    (hd : (JsonValue.dict claims).Distinct) (hparse : parseAid P iss = .ok aid) (hkey : SignsFor P key aid.publicKey)
    (h : signToken typ variant claims key = .ok token) : VariantVerdict P variant token iss typ claims key aid := by
  obtain ⟨members, input, signature, hrespelled, hsigned, hparsed⟩ :=
    signToken_parses hdepth hplaceholder hd (signs_of_signsFor hkey) h
  have hown := keyAlg_eq_joseAlg hparse hkey
  have haccepted (halg : variantAlg variant key = aid.joseAlg)
      (hverify : verifyJose P (.agent aid.publicKey) input signature false = true) : AcceptedAs P token iss typ claims :=
    fun errors => ⟨members, (verifyJws_parsed hparsed hparse halg errors members).mpr ⟨rfl, hverify⟩, hrespelled⟩
  have hgenuine (hsign : signJose key input = .ok signature) :
      verifyJose P (.agent aid.publicKey) input signature false = true := by
    obtain ⟨raw, hraw, _, hverify⟩ := hkey.verifiesJose input
    rwa [Except.ok.inj (hraw.symm.trans hsign)] at hverify
  cases variant with
  | normal => exact haccepted hown (hgenuine hsigned)
  | any => exact haccepted hown (hgenuine hsigned)
  | algNone =>
    apply verifyJws_misnamed hparsed hparse
    rw [variantAlg, Aid.joseAlg]
    cases aid.alg <;> decide
  | wrongAlg =>
    have hes256 : variantAlg .wrongAlg key = aid.joseAlg ↔ aid.alg = .p256 := by
      rw [variantAlg, Aid.joseAlg]
      cases aid.alg <;> decide
    by_cases hp : aid.alg = .p256
    · rw [VariantVerdict, if_pos hp]
      exact haccepted (hes256.mpr hp) (hgenuine hsigned)
    · rw [VariantVerdict, if_neg hp]
      exact verifyJws_misnamed hparsed hparse (mt hes256.mp hp)
  | tamper =>
    obtain ⟨raw, hsign, hflip⟩ := hsigned
    have halg : variantAlg .tamper key = aid.joseAlg := hown
    refine ⟨members, input, raw, signature, halg ▸ hparsed, hsign, hflip, ?_⟩
    by_cases hverify : verifyJose P (.agent aid.publicKey) input signature false = true
    · rw [if_pos hverify]
      exact haccepted hown hverify
    · rw [if_neg hverify]
      exact verifyJws_unverified hparsed hparse hown (Bool.not_eq_true _ ▸ hverify)

/-! ### What is minted -/

theorem signingKey_eq_ok {keys : KatKeys} {claims : Members} {key : PrivateKey} :
    signingKey P keys claims = .ok key ↔ ∃ iss, claims.get (txt "iss") = .str iss ∧ keys.lookup iss = some key := by
  simp only [signingKey, bind_eq_ok, exists_unit, python_eq_ok, raiseIf_eq_ok]
  cases hiss : claims.get (txt "iss") with
  | str iss =>
    cases hkey : keys.lookup iss with
    | some found => simp [JsonValue.isStr, JsonValue.text, JsonValue.hashable, hkey]
    | none => simp [JsonValue.isStr, JsonValue.text, hkey, bind_eq_ok]
  | null | bool | int | float | list | dict => simp [JsonValue.isStr, bind_eq_ok]

/-- A token is its claims object minted, then signed by the key of its `iss`. -/
theorem mintToken_eq_ok {keys : KatKeys} {now : Int} {depth : Nat} {placeholder token : Text} {claims : JsonValue} :
    mintToken P keys now (depth + 1) placeholder claims = .ok token ↔ ∃ typ variant signing iss key,
      jwsTokens.lookup placeholder = some (typ, variant) ∧
        mintClaimsObject P now (mintToken P keys now depth) claims = .ok signing ∧ signing.get (txt "iss") = .str iss ∧
          keys.lookup iss = some key ∧ signToken typ variant signing key = .ok token := by
  rw [mintToken]
  cases hplaceholder : jwsTokens.lookup placeholder with
  | none => simp
  | some found =>
    obtain ⟨typ, variant⟩ := found
    simp only [bind_eq_ok, python_eq_ok, signingKey_eq_ok]
    constructor
    · rintro ⟨signing, hsigning, key, ⟨iss, hiss, hkey⟩, h⟩
      exact ⟨typ, variant, signing, iss, key, rfl, hsigning, hiss, hkey, h⟩
    · rintro ⟨_, _, signing, iss, key, heq, hsigning, hiss, hkey, h⟩
      obtain ⟨rfl, rfl⟩ := Prod.mk.inj (Option.some.inj heq)
      exact ⟨signing, hsigning, key, ⟨iss, hiss, hkey⟩, h⟩

/-! ### Agent C's chain minted -/

def delegationPlatform : Platform := delegationRecording.signing recordedAgents

def delegationKeys : KatKeys := delegationRecording.keys recordedAgents

/-- The first hop before it is minted: its grant is a placeholder with the claims beside it. -/
def firstHopFixture : Members :=
  [(txt "ver", .str protocolVersion), (txt "iss", .str (aidOf agentB)), (txt "sub", .str (aidOf agentC)),
    (txt "aud", .str (aidOf agentA)), (txt "scope", .list [.str (txt "read")]), (txt "exp", .str (txt "__NOW_PLUS_86400__")),
    (txt "cnf", .dict [(txt "jkt", .str thumbprintC)]), (txt "jti", .str (txt "d1")),
    (txt "voucher", .str (txt "__JWS_GRANT_VOUCHER__")), (txt "voucher_claims", .dict voucherClaims)]

/-- The last hop with its chain and its commitment open. -/
def lastHopFixture : Members :=
  [(txt "ver", .str protocolVersion), (txt "iss", .str (aidOf agentC)), (txt "sub", .str (aidOf agentB)),
    (txt "aud", .str (aidOf agentA)), (txt "scope", .list [.str (txt "read")]), (txt "exp", .str (txt "__NOW_PLUS_3600__")),
    (txt "cnf", .dict [(txt "jkt", .str thumbprintB)]), (txt "jti", .str (txt "d2")), (txt "chain", .list []),
    (txt "chain_claims", .list [.dict firstHopFixture]), (txt "chain_hash", .str (txt "__COMPUTED_CHAIN_HASH__"))]

theorem lastHopFixture_distinct : (JsonValue.dict lastHopFixture).Distinct := by
  have hvoucher : (JsonValue.dict voucherClaims).Distinct := by
    refine .dict (by decide +kernel) ?_
    simp [voucherClaims, JsonValue.Distinct.str, JsonValue.Distinct.int, JsonValue.Distinct.list]
  have hkey (thumbprint : Text) : (JsonValue.dict [(txt "jkt", .str thumbprint)]).Distinct :=
    .dict (List.nodup_singleton _) (List.forall_mem_singleton.mpr .str)
  have hfirst : (JsonValue.dict firstHopFixture).Distinct := by
    refine .dict (by decide +kernel) ?_
    simp [firstHopFixture, JsonValue.Distinct.str, JsonValue.Distinct.list, hkey, hvoucher]
  refine .dict (by decide +kernel) ?_
  simp [lastHopFixture, JsonValue.Distinct.str, JsonValue.Distinct.list, hkey, hfirst]

/-- Minted, it is the token agent C presents. -/
theorem lastHopFixture_minted : mintToken delegationPlatform delegationKeys referenceClock 3 (txt "__JWS_DELEGATION__")
    (.dict lastHopFixture) = .ok lastHopToken.text := by decide +kernel

/-! ### The verdict of a minted token -/

/-- What the verifier says of a minted token is what its placeholder stands for. The
genuine ones are accepted with their claims respelled, the ones with a forged header are
refused for it, unless the forged algorithm is the signer's own, and a tampered one, which
parses to the flipped signature, is accepted only where the library accepts that. -/
theorem minted_token_verdict {keys : KatKeys} (hkeys : TrueKeys P keys) (hdepth : maxDepth < P.parseDepth) {now : Int} {depth : Nat}
    {placeholder token : Text} {claims : JsonValue} (hd : claims.Distinct)
    (h : mintToken P keys now (depth + 1) placeholder claims = .ok token) : ∃ typ variant signing iss key,
      jwsTokens.lookup placeholder = some (typ, variant) ∧
        mintClaimsObject P now (mintToken P keys now depth) claims = .ok signing ∧ signing.get (txt "iss") = .str iss ∧
          keys.lookup iss = some key ∧
            ∀ aid, parseAid P iss = .ok aid → VariantVerdict P variant token iss typ signing key aid := by
  obtain ⟨typ, variant, signing, iss, key, hplaceholder, hsigning, hiss, hkey, hsign⟩ := mintToken_eq_ok.mp h
  refine ⟨typ, variant, signing, iss, key, hplaceholder, hsigning, hiss, hkey, fun aid hparse => ?_⟩
  exact signToken_verdict hdepth hplaceholder (mintClaimsObject_distinct hd hsigning) hparse (hkeys iss key aid hkey hparse) hsign

/-- Agent C's minted token is accepted as its claims object. -/
theorem minted_token_verdict_lastHop : ∃ signing,
    mintClaimsObject delegationPlatform referenceClock (mintToken delegationPlatform delegationKeys referenceClock 2)
      (.dict lastHopFixture) = .ok signing ∧
    ∃ iss, signing.get (txt "iss") = .str iss ∧ ∀ aid, parseAid delegationPlatform iss = .ok aid →
      AcceptedAs delegationPlatform lastHopToken.text iss delegationTyp signing := by
  obtain ⟨typ, variant, signing, iss, key, hplaceholder, hsigning, hiss, _, hverdict⟩ :=
    minted_token_verdict delegationKeys_true (by decide) lastHopFixture_distinct lastHopFixture_minted
  obtain ⟨rfl, rfl⟩ : typ = delegationTyp ∧ variant = .normal := by
    rw [show jwsTokens.lookup (txt "__JWS_DELEGATION__") = some (delegationTyp, .normal) by decide, Option.some.injEq,
      Prod.mk.injEq] at hplaceholder
    exact ⟨hplaceholder.1.symm, hplaceholder.2.symm⟩
  exact ⟨signing, hsigning, iss, hiss, hverdict⟩

/-! ### The commitment to a chain -/

/-- A claims object with these hops to mint and the commitment to them left open. -/
structure OpenChain (hops : List JsonValue) (out : Members) : Prop where
  chain : out.has (txt "chain")
  claims : out.get? (txt "chain_claims") = some (.list hops)
  hash : out.get? (txt "chain_hash") = some (.str (txt "__COMPUTED_CHAIN_HASH__"))

theorem resolveItems_length {now : Int} (items : List JsonValue) {resolved : List JsonValue}
    (h : resolveItems P now items = .ok resolved) : resolved.length = items.length := by
  induction items generalizing resolved with
  | nil =>
    obtain rfl := Except.ok.inj h
    rfl
  | cons value rest ih =>
    simp only [resolveItems, bind_eq_ok, Except.ok.injEq] at h
    obtain ⟨first, _, others, hothers, rfl⟩ := h
    rw [List.length_cons, List.length_cons, ih hothers]

/-- Each member is resolved by itself. -/
theorem resolveMembers_get? {now : Int} (members : Members) {resolved : Members} {key : Text} {value : JsonValue}
    (h : resolveMembers P now members = .ok resolved) (hvalue : members.get? key = some value) :
    ∃ found, resolveTimes P now value = .ok found ∧ resolved.get? key = some found := by
  induction members generalizing resolved with
  | nil => cases hvalue
  | cons member rest ih =>
    obtain ⟨name, own⟩ := member
    simp only [resolveMembers, bind_eq_ok, Except.ok.injEq] at h
    obtain ⟨first, hfirst, others, hothers, rfl⟩ := h
    rw [Members.get?] at hvalue ⊢
    split at hvalue
    · rename_i hname
      rw [if_pos hname]
      exact ⟨first, Option.some.inj hvalue ▸ hfirst, rfl⟩
    · rename_i hname
      rw [if_neg hname]
      exact ih hothers hvalue

theorem OpenChain.resolved {hops : List JsonValue} {now : Int} {members resolved : Members} (h : OpenChain hops members)
    (hr : resolveMembers P now members = .ok resolved) :
    ∃ timed, resolveItems P now hops = .ok timed ∧ OpenChain timed resolved := by
  obtain ⟨_, hhops, hclaims⟩ := resolveMembers_get? members hr h.claims
  simp only [resolveTimes, bind_eq_ok, Except.ok.injEq] at hhops
  obtain ⟨timed, htimed, rfl⟩ := hhops
  refine ⟨timed, htimed, ?_, hclaims, ?_⟩
  · obtain ⟨found, _, hfound⟩ := resolveMembers_get? members hr (Members.get?_of_has h.chain)
    rw [Members.has, hfound]
    rfl
  · obtain ⟨found, hresolved, hfound⟩ := resolveMembers_get? members hr h.hash
    rw [resolveTimes] at hresolved
    rwa [← Except.ok.inj ((show _ = Except.ok _ from rfl).symm.trans hresolved)] at hfound

/-- A token takes the place of a placeholder, which neither a list nor the open commitment is. -/
theorem OpenChain.sibling {hops : List JsonValue} {mint : Text → JsonValue → MintM Text} {out next : Members} {base : Text}
    (h : OpenChain hops out) (hm : mintSibling mint out base = .ok next) : OpenChain hops next := by
  unfold mintSibling at hm
  split at hm
  · rename_i claims placeholder _ hbase
    split at hm
    · rename_i htoken
      simp only [bind_eq_ok, Except.ok.injEq] at hm
      obtain ⟨token, _, rfl⟩ := hm
      constructor
      · rw [Members.has, Members.get?_insert]
        split
        · rfl
        · exact h.chain
      · rw [Members.get?_insert, if_neg, h.claims]
        rintro rfl
        rw [Members.get_of_get? h.claims] at hbase
        cases hbase
      · rw [Members.get?_insert, if_neg, h.hash]
        rintro rfl
        rw [Members.get_of_get? h.hash] at hbase
        obtain rfl := JsonValue.str.inj hbase
        exact absurd htoken (by decide)
    · exact Except.ok.inj hm ▸ h
  · exact Except.ok.inj hm ▸ h

theorem OpenChain.siblings {hops : List JsonValue} {mint : Text → JsonValue → MintM Text} {names : List Text}
    {out minted : Members} (h : OpenChain hops out) (hm : mintSiblings mint out names = .ok minted) : OpenChain hops minted := by
  induction names generalizing out with
  | nil => exact Except.ok.inj hm ▸ h
  | cons base rest ih =>
    simp only [mintSiblings, bind_eq_ok] at hm
    obtain ⟨next, hnext, hm⟩ := hm
    exact ih (h.sibling hnext) hm

/-- The hops minted, one for each claims object, in order. -/
def MintedHops (mint : Text → JsonValue → MintM Text) (hops chain : List JsonValue) : Prop :=
  List.Forall₂ (fun own hop => ∃ token, mint (txt "__JWS_DELEGATION__") own = .ok token ∧ hop = .str token) hops chain

theorem MintedHops.texts {mint : Text → JsonValue → MintM Text} {hops chain : List JsonValue} (h : MintedHops mint hops chain) :
    ∀ hop ∈ chain, ∃ s, hop = .str s := by
  induction h with
  | nil => nofun
  | cons hhop _ ih =>
    obtain ⟨token, _, rfl⟩ := hhop
    exact List.forall_mem_cons.mpr ⟨⟨token, rfl⟩, ih⟩

/-- The claims hold this chain and the commitment to it. -/
structure CommittedChain (P : Platform) (chain : List JsonValue) (claims : Members) : Prop where
  listed : claims.get? (txt "chain") = some (.list chain)
  hash : ∃ hash, computeChainHash P chain = .ok hash ∧ claims.get? (txt "chain_hash") = some (.str hash)

theorem OpenChain.committed {hops : List JsonValue} {mint : Text → JsonValue → MintM Text} {out minted : Members}
    (h : OpenChain hops out) (hm : mintChain P mint out = .ok minted) :
    ∃ chain, MintedHops mint hops chain ∧ CommittedChain P chain minted := by
  have hhas : (out.has (txt "chain") && out.has (txt "chain_claims")) = true := by
    rw [h.chain, Members.has, h.claims]
    rfl
  have hopen (chain : JsonValue) : ((out.insert (txt "chain") chain).get (txt "chain_hash")).eq
      (.str (txt "__COMPUTED_CHAIN_HASH__")) = true := by
    rw [Members.get_insert_of_ne (by decide), Members.get_of_get? h.hash, JsonValue.eq_str]
  rw [mintChain, if_pos hhas, Members.get_of_get? h.claims] at hm
  simp only [bind_eq_ok, python_eq_ok, hopen, if_true, Except.ok.injEq] at hm
  obtain ⟨claims, hclaims, chain, hchain, hash, hhash, rfl⟩ := hm
  obtain rfl : hops = claims := Except.ok.inj hclaims
  refine ⟨chain, (collect_eq_ok.mp hchain).imp fun own hop hhop => ?_, ?_, hash, hhash, ?_⟩
  · simp only [bind_eq_ok, Except.ok.injEq] at hhop
    obtain ⟨token, htoken, rfl⟩ := hhop
    exact ⟨token, htoken, rfl⟩
  · rw [Members.get?_insert, if_neg (by decide), Members.get?_insert, if_pos rfl]
  · rw [Members.get?_insert, if_pos rfl]

theorem mintClaimsObject_committed {hops : List JsonValue} {now : Int} {mint : Text → JsonValue → MintM Text}
    {members signing : Members} (hopen : OpenChain hops members) (h : mintClaimsObject P now mint (.dict members) = .ok signing) :
    ∃ timed chain, resolveItems P now hops = .ok timed ∧ MintedHops mint timed chain ∧ CommittedChain P chain signing := by
  simp only [mintClaimsObject, bind_eq_ok, python_eq_ok, resolveTimes, Except.ok.injEq] at h
  obtain ⟨_, ⟨resolved, hresolved, rfl⟩, h⟩ := h
  simp only [bind_eq_ok, Except.ok.injEq] at h
  obtain ⟨siblings, hsiblings, minted, hminted, rfl⟩ := h
  obtain ⟨timed, htimed, hopen⟩ := hopen.resolved hresolved
  obtain ⟨chain, hhops, hcommitted⟩ := (hopen.siblings hsiblings).committed hminted
  obtain ⟨hash, hhash, hfound⟩ := hcommitted.hash
  refine ⟨timed, chain, htimed, hhops, ?_, hash, hhash, ?_⟩
  · rw [get?_stripClaims (by decide), hcommitted.listed]
  · rw [get?_stripClaims (by decide), hfound]

theorem respelled_str {s : Text} {w : JsonValue} (h : (JsonValue.str s).Respelled w) : w = .str s := by
  cases h with
  | number hv => cases hv
  | str => rfl

/-- Texts have one spelling. -/
theorem respelled_texts {items : List JsonValue} {w : JsonValue} (htexts : ∀ item ∈ items, ∃ s, item = .str s)
    (h : (JsonValue.list items).Respelled w) : w = .list items := by
  cases h with
  | number hv => cases hv
  | @list _ others hlength hitems =>
    congr 1
    apply List.ext_getElem hlength.symm
    intro i hother hown
    obtain ⟨s, hs⟩ := htexts items[i] (List.getElem_mem hown)
    have hitem := hitems i hown hother
    rw [hs] at hitem ⊢
    exact respelled_str hitem

theorem respelled_get? {members others : Members} {key : Text} {value : JsonValue}
    (h : (JsonValue.dict members).Respelled (.dict others)) (hvalue : members.get? key = some value) :
    ∃ found, value.Respelled found ∧ others.get? key = some found := by
  cases h with
  | number hv => cases hv
  | dict hnames hmembers =>
    have hm : key ∈ Members.names members := by
      rw [Members.mem_names_iff, Members.has, hvalue]
      rfl
    have hfound := hmembers key hm
    rw [Members.get_of_get? hvalue] at hfound
    exact ⟨_, hfound, Members.get?_of_has (Members.mem_names_iff.mp (hnames.mem_iff.mp hm))⟩

/-- What is minted is still committed to when it has been through the wire, where only numbers change their spelling. -/
theorem CommittedChain.respelled {mint : Text → JsonValue → MintM Text} {hops chain : List JsonValue} {claims outer : Members}
    (h : CommittedChain P chain claims) (hhops : MintedHops mint hops chain)
    (hrespelled : (JsonValue.dict claims).Respelled (.dict outer)) : CommittedChain P chain outer := by
  obtain ⟨_, hlist, hchain⟩ := respelled_get? hrespelled h.listed
  obtain ⟨hash, hhash, hfound⟩ := h.hash
  obtain ⟨_, htext, hhash'⟩ := respelled_get? hrespelled hfound
  obtain rfl := respelled_texts hhops.texts hlist
  obtain rfl := respelled_str htext
  exact ⟨hchain, hash, hhash, hhash'⟩

/-- The hops of a chain whose commitment is right, or the error of a chain too long. -/
theorem CommittedChain.chainHops {outer : Members} {chain : List JsonValue} (h : CommittedChain P chain outer) (token : JsonValue) :
    if chain.length ≤ 2 then chainHops P outer token = .ok (chain ++ [token])
    else Raises (chainHops P outer token) "DELEGATION_HOP_LIMIT_EXCEEDED" := by
  obtain ⟨hash, hhash, hfound⟩ := h.hash
  have hlimit : maxDelegationHops = 3 := rfl
  have hown : (outer.get (txt "chain_hash")).eq (.str hash) = true := by
    rw [Members.get_of_get? hfound, JsonValue.eq_str]
  have hlength : (JsonValue.list chain).length = .ok chain.length := rfl
  have helements : (JsonValue.list chain).elements = .ok chain := rfl
  rw [AitpVerifier.chainHops, Members.get_of_get? h.listed, hlength, hlimit]
  split
  · rename_i hshort
    have hfits : decide (3 + 1 < chain.length + 2) = false := by
      rw [decide_eq_false_iff_not]
      omega
    simp only [ok_bind, hfits, helements, hhash, hown, raiseIf, Bool.not_true, Bool.false_eq_true, if_false]
  · rename_i hlong
    have hexceeds : decide (3 + 1 < chain.length + 2) = true := by
      rw [decide_eq_true_iff]
      omega
    simp only [ok_bind, hexceeds, raiseIf, if_true]
    exact ⟨_, rfl, rfl⟩

/-- The parsed token commits to a chain that holds, in order, the token minted from each entry of `chain_claims`, its times
resolved. The verifier finds that chain, and the only thing it holds against it is that it is too long. -/
theorem minted_chain_hops {keys : KatKeys} (hsigns : ∀ text key, keys.lookup text = some key → key.Signs)
    (hdepth : maxDepth < P.parseDepth) {now : Int} {depth : Nat} {placeholder token : Text} {members : Members}
    {hops : List JsonValue} (hopen : OpenChain hops members) (hd : (JsonValue.dict members).Distinct)
    (h : mintToken P keys now (depth + 1) placeholder (.dict members) = .ok token) : ∃ timed chain outer,
      resolveItems P now hops = .ok timed ∧ MintedHops (mintToken P keys now depth) timed chain ∧
        (∀ code, peekClaims P (.str token) code = .ok outer) ∧ CommittedChain P chain outer ∧
          if hops.length ≤ 2 then chainHops P outer (.str token) = .ok (chain ++ [.str token])
          else Raises (chainHops P outer (.str token)) "DELEGATION_HOP_LIMIT_EXCEEDED" := by
  obtain ⟨typ, variant, signing, iss, key, hplaceholder, hsigning, _, hkey, hsign⟩ := mintToken_eq_ok.mp h
  obtain ⟨timed, chain, htimed, hhops, hcommitted⟩ := mintClaimsObject_committed hopen hsigning
  obtain ⟨outer, input, signature, hrespelled, _, hparsed⟩ :=
    signToken_parses hdepth hplaceholder (mintClaimsObject_distinct hd hsigning) (hsigns iss key hkey) hsign
  have houter := hcommitted.respelled hhops hrespelled
  have hlength : chain.length = hops.length := hhops.length_eq.symm.trans (resolveItems_length hops htimed)
  refine ⟨timed, chain, outer, htimed, hhops, fun code => ?_, houter, hlength ▸ houter.chainHops (.str token)⟩
  rw [peekClaims, (parseCompact_eq_ok P).mpr hparsed]
  rfl

/-- Agent C's token commits to the one hop before it, which agent B's claims are minted to. -/
theorem minted_chain_hops_lastHop : ∃ own hop outer,
    resolveTimes delegationPlatform referenceClock (.dict firstHopFixture) = .ok own ∧
      mintToken delegationPlatform delegationKeys referenceClock 2 (txt "__JWS_DELEGATION__") own = .ok hop ∧
        peekClaims delegationPlatform (.str lastHopToken.text) "" = .ok outer ∧
          CommittedChain delegationPlatform [.str hop] outer ∧
            chainHops delegationPlatform outer (.str lastHopToken.text) = .ok [.str hop, .str lastHopToken.text] := by
  have hopen : OpenChain [.dict firstHopFixture] lastHopFixture := ⟨by decide +kernel, by rfl, by decide +kernel⟩
  obtain ⟨timed, chain, outer, htimed, hhops, houter, hcommitted, hfound⟩ := minted_chain_hops
    (fun _ _ => Recording.keys_sign (by decide +kernel)) (by decide) hopen lastHopFixture_distinct lastHopFixture_minted
  simp only [resolveItems, bind_eq_ok, Except.ok.injEq] at htimed
  obtain ⟨own, hown, _, rfl, rfl⟩ := htimed
  obtain ⟨_, _, ⟨hop, hhop, rfl⟩, hrest, rfl⟩ := List.forall₂_cons_left_iff.mp hhops
  obtain rfl := List.forall₂_nil_left_iff.mp hrest
  exact ⟨own, hop, outer, hown, hhop, houter "", hcommitted, hfound⟩

end AitpVerifier
