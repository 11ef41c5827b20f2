import AitpVerifier.CertificatePath
import AitpVerifier.RevocationLast

/-!
# The order of a bundle's CAs

The path is anchored at the first CA of the bundle that issued its last
certificate, and only then is that CA checked. While a CA is renewed the bundle
holds two certificates of one name and key, and their order decides.
-/
namespace AitpVerifier

open PyText Checked

variable (P : Platform)

/-! ### The choice of an anchor -/

section Choice

variable {last : Certificate} {below : Nat} {trustDomain : Text} {atTime : Int}

/-- The choice of an anchor and its checks. -/
def checkAnchor (last : Certificate) (below : Nat) (trustDomain : Text) (atTime : Int) (anchors : List Certificate) : PyM Unit := do
  match ← Spiffe.findAnchor P last anchors with
  | none => .error (Spiffe.fail (txt "x5c does not chain to an x509-svid CA of the " ++ trustDomain ++ txt " bundle"))
  | some anchor => do
    Spiffe.checkValidity anchor atTime (txt "the bundle CA")
    Spiffe.checkCa anchor below (txt "the bundle CA")
    Spiffe.checkNameConstraints anchor trustDomain (txt "the bundle CA")

theorem checkChain_eq (leaf : Certificate) (issuers anchors : List Certificate) (trustDomain : Text) (atTime : Int) :
    Spiffe.checkChain P leaf issuers anchors trustDomain atTime = (do
      Spiffe.checkPath P trustDomain atTime 0 (leaf :: issuers)
      checkAnchor P (issuers.getLastD leaf) issuers.length trustDomain atTime anchors) := rfl

section

variable {anchor : Certificate} {rest : List Certificate}

theorem checkAnchor_error {e : PyErr} (h : Spiffe.issuedBy P last anchor = .error e) :
    checkAnchor P last below trustDomain atTime (anchor :: rest) = .error e := by
  simp only [checkAnchor, Spiffe.findAnchor, h]
  rfl

theorem checkAnchor_chosen (h : Spiffe.issuedBy P last anchor = .ok true) :
    checkAnchor P last below trustDomain atTime (anchor :: rest) = (do
      Spiffe.checkValidity anchor atTime (txt "the bundle CA")
      Spiffe.checkCa anchor below (txt "the bundle CA")
      Spiffe.checkNameConstraints anchor trustDomain (txt "the bundle CA")) := by
  simp only [checkAnchor, Spiffe.findAnchor, h]
  rfl

theorem checkAnchor_passedOver (h : Spiffe.issuedBy P last anchor = .ok false) :
    checkAnchor P last below trustDomain atTime (anchor :: rest) = checkAnchor P last below trustDomain atTime rest := by
  simp only [checkAnchor, Spiffe.findAnchor, h]
  rfl

end

/-- The library does not take the CA for the issuer. -/
def PassedOver (last anchor : Certificate) : Prop := Spiffe.issuedBy P last anchor = .ok false

/-- The CA issued the last certificate of the path, and passes every check of an anchor. -/
structure Anchors (last : Certificate) (below : Nat) (trustDomain : Text) (atTime : Int) (anchor : Certificate) : Prop where
  issued : Spiffe.issuedBy P last anchor = .ok true
  validity : Spiffe.checkValidity anchor atTime (txt "the bundle CA") = .ok ()
  ca : Spiffe.checkCa anchor below (txt "the bundle CA") = .ok ()
  nameConstraints : Spiffe.checkNameConstraints anchor trustDomain (txt "the bundle CA") = .ok ()

/-- The first CA that is not passed over decides. -/
theorem checkAnchor_cons {anchor : Certificate} {rest : List Certificate} :
    checkAnchor P last below trustDomain atTime (anchor :: rest) = .ok () ↔
      Anchors P last below trustDomain atTime anchor ∨
        (PassedOver P last anchor ∧ checkAnchor P last below trustDomain atTime rest = .ok ()) := by
  rw [PassedOver]
  cases hissued : Spiffe.issuedBy P last anchor with
  | error e =>
    rw [checkAnchor_error P hissued]
    refine iff_of_false error_ne_ok ?_
    rintro (h | ⟨h, _⟩)
    · exact error_ne_ok (hissued.symm.trans h.issued)
    · exact error_ne_ok h
  | ok issued =>
    cases issued with
    | true =>
      rw [checkAnchor_chosen P hissued]
      simp only [bind_eq_ok, exists_unit]
      constructor
      · rintro ⟨hvalid, hca, hconstraints⟩
        exact .inl ⟨hissued, hvalid, hca, hconstraints⟩
      · rintro (h | ⟨h, _⟩)
        · exact ⟨h.validity, h.ca, h.nameConstraints⟩
        · cases h
    | false =>
      rw [checkAnchor_passedOver P hissued]
      constructor
      · intro h
        exact .inr ⟨rfl, h⟩
      · rintro (h | ⟨_, h⟩)
        · cases hissued.symm.trans h.issued
        · exact h

theorem checkAnchor_nil : checkAnchor P last below trustDomain atTime [] ≠ .ok () := error_ne_ok

/-- A CA that decides against the path wherever it comes first. -/
def Spoils (last : Certificate) (below : Nat) (trustDomain : Text) (atTime : Int) (anchor : Certificate) : Prop :=
  ¬PassedOver P last anchor ∧ ¬Anchors P last below trustDomain atTime anchor

theorem Spoils.rejects {anchor : Certificate} (h : Spoils P last below trustDomain atTime anchor) (rest : List Certificate) :
    checkAnchor P last below trustDomain atTime (anchor :: rest) ≠ .ok () := by
  rw [Ne, checkAnchor_cons]
  rintro (hanchors | ⟨hpassed, _⟩)
  · exact h.2 hanchors
  · exact h.1 hpassed

theorem exists_of_checkAnchor {anchors : List Certificate} (h : checkAnchor P last below trustDomain atTime anchors = .ok ()) :
    ∃ anchor ∈ anchors, Anchors P last below trustDomain atTime anchor := by
  induction anchors with
  | nil => exact absurd h (checkAnchor_nil P)
  | cons anchor rest ih =>
    rcases (checkAnchor_cons P).mp h with hanchors | ⟨_, hrest⟩
    · exact ⟨anchor, List.mem_cons_self, hanchors⟩
    · obtain ⟨other, hm, hother⟩ := ih hrest
      exact ⟨other, List.mem_cons_of_mem _ hm, hother⟩

/-- Where no CA spoils the path, one that anchors it suffices. -/
theorem checkAnchor_of_none_spoils {anchors : List Certificate}
    (hnone : ∀ anchor ∈ anchors, ¬Spoils P last below trustDomain atTime anchor)
    (hsome : ∃ anchor ∈ anchors, Anchors P last below trustDomain atTime anchor) :
    checkAnchor P last below trustDomain atTime anchors = .ok () := by
  induction anchors with
  | nil =>
    obtain ⟨_, hm, _⟩ := hsome
    cases hm
  | cons anchor rest ih =>
    rw [checkAnchor_cons]
    by_cases hanchors : Anchors P last below trustDomain atTime anchor
    · exact .inl hanchors
    · right
      have hpassed : PassedOver P last anchor := by
        by_contra hnot
        exact hnone anchor List.mem_cons_self ⟨hnot, hanchors⟩
      refine ⟨hpassed, ih (fun other hm => hnone other (List.mem_cons_of_mem _ hm)) ?_⟩
      obtain ⟨other, hm, hother⟩ := hsome
      rcases List.mem_cons.mp hm with rfl | hm
      · exact absurd hother hanchors
      · exact ⟨other, hm, hother⟩

end Choice

/-! ### A bundle with its keys rearranged -/

/-- An entry of the store with another keys array, when it names the trust domain. -/
def replaceKeys (trustDomain : Text) (keys : List JsonValue) (entry : JsonValue) : JsonValue :=
  if entryNames trustDomain entry then
    .dict (entry.members.insert (txt "bundle")
      (.dict ((entry.members.get (txt "bundle")).members.insert (txt "keys") (.list keys))))
  else entry

/-- The store with another keys array in the bundle of a trust domain. -/
def withKeys (trustDomain : Text) (keys : List JsonValue) (store : JsonValue) : JsonValue :=
  .list (store.items.map (replaceKeys trustDomain keys))

section Store

variable {trustDomain : Text} {keys : List JsonValue}

theorem replaceKeys_domain (entry : JsonValue) :
    (replaceKeys trustDomain keys entry).members.get (txt "trust_domain") = entry.members.get (txt "trust_domain") := by
  rw [replaceKeys]
  split
  · exact Members.get_insert_of_ne (by decide)
  · rfl

/-- A scan looks at the names of the entries and returns one bundle. -/
theorem scanStore_isOk {entries entries' : List JsonValue}
    (h : entries.map (fun e => e.members.get (txt "trust_domain")) = entries'.map (fun e => e.members.get (txt "trust_domain")))
    (seen : List Text) (found found' : JsonValue) :
    (Spiffe.scanStore trustDomain seen found entries).isOk = (Spiffe.scanStore trustDomain seen found' entries').isOk := by
  induction entries generalizing entries' seen found found' with
  | nil =>
    obtain rfl := List.map_eq_nil_iff.mp h.symm
    rfl
  | cons entry rest ih =>
    cases entries' with
    | nil => cases h
    | cons entry' rest' =>
      rw [List.map_cons, List.map_cons, List.cons.injEq] at h
      obtain ⟨hname, hrest⟩ := h
      rw [Spiffe.scanStore, Spiffe.scanStore, ← hname]
      split
      · rename_i td htd
        cases hseen : seen.contains td with
        | true => rfl
        | false => exact ih hrest _ _ _
      · rfl

/-- A store whose names are in order holds the bundle of its one entry for the domain. -/
theorem bundleFor_iff {entries : List JsonValue} {bundle : JsonValue} :
    Spiffe.bundleFor (.list entries) trustDomain = .ok bundle ↔
      (Spiffe.scanStore trustDomain [] .null entries).isOk = true ∧ bundle.isNull = false ∧
        BundleOf (.list entries) trustDomain bundle := by
  constructor
  · intro h
    have hof := bundleFor_eq_ok h
    simp only [Spiffe.bundleFor, bind_eq_ok, exists_unit, raiseIf_eq_ok, Except.ok.injEq] at h
    obtain ⟨found, hscan, hnull, rfl⟩ := h
    exact ⟨isOk_iff.mpr ⟨_, hscan⟩, hnull, hof⟩
  · rintro ⟨hscan, hnull, entries', entry, heq, hone, hentry⟩
    obtain rfl := JsonValue.list.inj heq
    obtain ⟨found, hfound⟩ := isOk_iff.mp hscan
    have hsame : found = bundle := by
      rcases scanStore_eq_ok hfound with ⟨hnone, _⟩ | ⟨_, other, hother, hresult⟩
      · rw [hnone] at hone
        cases hone
      · rw [hone] at hother
        rw [hresult, ← (List.cons.inj hother).1, hentry]
    simp only [Spiffe.bundleFor, bind_eq_ok, exists_unit, raiseIf_eq_ok, Except.ok.injEq]
    exact ⟨found, hfound, by rw [hsame]; exact hnull, hsame⟩

theorem filter_replaceKeys (entries : List JsonValue) : (entries.map (replaceKeys trustDomain keys)).filter (entryNames trustDomain) =
    (entries.filter (entryNames trustDomain)).map (replaceKeys trustDomain keys) := by
  rw [List.filter_map]
  congr 2
  funext entry
  rw [Function.comp_apply, entryNames, replaceKeys_domain]
  rfl

/-- The bundle of a trust domain in the rearranged store. -/
theorem bundleFor_withKeys {store bundle : JsonValue} (h : Spiffe.bundleFor store trustDomain = .ok bundle) :
    Spiffe.bundleFor (withKeys trustDomain keys store) trustDomain =
      .ok (.dict (bundle.members.insert (txt "keys") (.list keys))) := by
  cases store with
  | list entries =>
    obtain ⟨hscan, _, entries', entry, heq, hone, rfl⟩ := bundleFor_iff.mp h
    obtain rfl := JsonValue.list.inj heq
    have hnames : entryNames trustDomain entry = true := by
      have hm : entry ∈ entries.filter (entryNames trustDomain) := by
        rw [hone]
        exact List.mem_singleton_self entry
      exact (List.mem_filter.mp hm).2
    refine bundleFor_iff.mpr ⟨?_, rfl, _, replaceKeys trustDomain keys entry, rfl, ?_, ?_⟩
    · rw [← hscan]
      refine scanStore_isOk ?_ _ _ _
      change (entries.map _).map _ = _
      rw [List.map_map]
      exact List.map_congr_left fun e _ => replaceKeys_domain e
    · change (entries.map _).filter _ = _
      rw [filter_replaceKeys, hone]
      rfl
    · rw [replaceKeys, if_pos hnames]
      exact Members.get_insert_self _ _ _
  | _ => cases h

/-- Only a store that holds a bundle is rearranged into one that does. -/
theorem bundleFor_of_withKeys {store bundle bundle' : JsonValue} (hof : BundleOf store trustDomain bundle)
    (hnull : bundle.isNull = false) (h : Spiffe.bundleFor (withKeys trustDomain keys store) trustDomain = .ok bundle') :
    Spiffe.bundleFor store trustDomain = .ok bundle := by
  obtain ⟨entries, entry, rfl, hone, hentry⟩ := hof
  obtain ⟨hscan, _⟩ := bundleFor_iff.mp h
  refine bundleFor_iff.mpr ⟨?_, hnull, entries, entry, rfl, hone, hentry⟩
  rw [← hscan]
  refine scanStore_isOk ?_ _ _ _
  change _ = (entries.map _).map _
  rw [List.map_map]
  exact (List.map_congr_left fun e _ => replaceKeys_domain e).symm

end Store

/-! ### Everything but the anchor -/

def isSvidKey (k : JsonValue) : Bool := k.isDict && (k.members.get (txt "use")).eq (.str (txt "x509-svid"))

/-- The x509-svid keys of a keys array. -/
def svidKeys (keys : List JsonValue) : List Members := (keys.filter isSvidKey).map JsonValue.members

theorem candidateKeys_iff {bundle : JsonValue} {trustDomain : Text} {candidates : List Members} :
    Spiffe.candidateKeys bundle (txt "x509-svid") trustDomain = .ok candidates ↔
      ∃ keys, bundle.members.get (txt "keys") = .list keys ∧ candidates = svidKeys keys ∧ candidates ≠ [] := by
  unfold Spiffe.candidateKeys
  split
  · rename_i keys hkeys
    simp only [bind_eq_ok, exists_unit, raiseIf_eq_ok, Except.ok.injEq, List.isEmpty_eq_false_iff]
    constructor
    · rintro ⟨hne, rfl⟩
      exact ⟨keys, hkeys, rfl, hne⟩
    · rintro ⟨keys', hkeys', rfl, hne⟩
      obtain rfl := JsonValue.list.inj (hkeys.symm.trans hkeys')
      exact ⟨hne, rfl⟩
  · rename_i hnone
    refine iff_of_false error_ne_ok ?_
    rintro ⟨keys, hkeys, _⟩
    exact hnone keys hkeys

/-- The descriptor, the certificates and the proof, apart from the bundle. -/
structure InOrder (identity env : Members) (selfAid : JsonValue) (now : Int) (trustDomain : Text) (leaf : Certificate)
    (issuers : List Certificate) (atTime : Int) : Prop where
  members : ∀ member ∈ [txt "issuer", txt "public_key"], identity.has member = false
  x5c : identity.has (txt "x5c") = true
  subject : ∃ path, Spiffe.parseSpiffeId P (identity.get (txt "subject")) = .ok (trustDomain, path)
  chain : Spiffe.chainOf P (identity.get (txt "x5c")) = .ok (leaf, issuers)
  time : P.fromTimestamp now = .ok atTime
  leafNames : Spiffe.checkLeaf leaf (identity.get (txt "subject")) = .ok ()
  path : Spiffe.checkPath P trustDomain atTime 0 (leaf :: issuers) = .ok ()
  proof : ∃ key octets raw, Spiffe.leafKey leaf = .ok key ∧ Spiffe.spiffeX509ProofInput P env selfAid = .ok octets ∧
    TaggedSignature (identity.get (txt "proof")) key.alg raw ∧ verifyDigest P key (P.sha256 octets) raw = true

/-- The CAs of the trust domain's bundle. -/
def BundleAnchors (store : JsonValue) (trustDomain : Text) (anchors : List Certificate) : Prop :=
  ∃ bundle keys, Spiffe.bundleFor store trustDomain = .ok bundle ∧ bundle.members.get (txt "keys") = .list keys ∧
    svidKeys keys ≠ [] ∧ Spiffe.anchors P (svidKeys keys) = .ok anchors

section Descriptor

variable {identity env : Members} {selfAid store : JsonValue} {now : Int}

/-- An X509-SVID is accepted when it is in order and the bundle anchors it. -/
theorem verifySpiffe_x509_iff (htype : identity.get (txt "svid_type") = .str (txt "x509-svid")) :
    verifySpiffe P identity env selfAid store now = .ok () ↔
      ∃ trustDomain leaf issuers atTime anchors, InOrder P identity env selfAid now trustDomain leaf issuers atTime ∧
        BundleAnchors P store trustDomain anchors ∧
        checkAnchor P (issuers.getLastD leaf) issuers.length trustDomain atTime anchors = .ok () := by
  have hjwt : txt "x509-svid" ≠ txt "jwt-svid" := by decide
  have hknown : Spiffe.svidTypes.contains (txt "x509-svid") = true := by decide
  simp only [verifySpiffe, rescue_eq_ok, Spiffe.verifyDescriptor, bind_eq_ok, exists_unit, raiseIf_eq_ok, raiseWith_eq_ok,
    forEach_eq_ok, htype, JsonValue.text, if_neg hjwt, Prod.exists, candidateKeys_iff, Spiffe.verifyX509Svid, checkChain_eq,
    decodeTaggedSignatureFor_eq_ok, Bool.not_eq_false', hknown, Bool.not_true, Bool.or_false, beq_self_eq_true,
    Bool.true_bne, JsonValue.isStr, JsonValue.hashable, true_and]
  constructor
  · rintro ⟨hmembers, hx5c, trustDomain, path, hsubject, bundle, hbundle, _, ⟨keys, hkeys, rfl, hne⟩, leaf, issuers, hchain, anchors,
      hanchors, _, _, hdomain, atTime, htime, hleaf, key, hkey, ⟨hpath, hanchor⟩, octets, hinput, raw, hraw, hverified⟩
    rw [hsubject, Except.ok.injEq, Prod.mk.injEq] at hdomain
    rw [← hdomain.1] at hpath hanchor
    exact ⟨trustDomain, leaf, issuers, atTime, anchors, ⟨hmembers, hx5c, ⟨path, hsubject⟩, hchain, htime, hleaf, hpath, key, octets,
      raw, hkey, hinput, hraw, hverified⟩, ⟨bundle, keys, hbundle, hkeys, hne, hanchors⟩, hanchor⟩
  · rintro ⟨trustDomain, leaf, issuers, atTime, anchors, ⟨hmembers, hx5c, ⟨path, hsubject⟩, hchain, htime, hleaf, hpath, key, octets,
      raw, hkey, hinput, hraw, hverified⟩, ⟨bundle, keys, hbundle, hkeys, hne, hanchors⟩, hanchor⟩
    exact ⟨hmembers, hx5c, trustDomain, path, hsubject, bundle, hbundle, _, ⟨keys, hkeys, rfl, hne⟩, leaf, issuers, hchain, anchors,
      hanchors, _, _, hsubject, atTime, htime, hleaf, key, hkey, ⟨hpath, hanchor⟩, octets, hinput, raw, hraw, hverified⟩

end Descriptor

/-! ### Every arrangement of the keys -/

section Arrangement

theorem collect_perm {α β ε : Type} {step : α → Except ε β} {items items' : List α} {bs : List β} (hperm : items'.Perm items)
    (h : collect step items = .ok bs) : ∃ bs', collect step items' = .ok bs' ∧ bs'.Perm bs := by
  obtain ⟨bs', hall, hbs⟩ := List.perm_comp_forall₂ hperm (collect_eq_ok.mp h)
  exact ⟨bs', collect_eq_ok.mpr hall, hbs⟩

variable {store : JsonValue} {trustDomain : Text} {anchors : List Certificate} {keys keys' : List JsonValue}

/-- The keys array of a trust domain's bundle. -/
def KeysOf (store : JsonValue) (trustDomain : Text) (keys : List JsonValue) : Prop :=
  ∃ bundle, BundleOf store trustDomain bundle ∧ bundle.members.get (txt "keys") = .list keys

theorem KeysOf.unique (h : KeysOf store trustDomain keys) (h' : KeysOf store trustDomain keys') : keys = keys' := by
  obtain ⟨_, ⟨entries, entry, rfl, hone, rfl⟩, hkeys⟩ := h
  obtain ⟨_, ⟨entries', entry', heq, hone', rfl⟩, hkeys'⟩ := h'
  obtain rfl := JsonValue.list.inj heq
  rw [hone] at hone'
  rw [← (List.cons.inj hone').1, hkeys] at hkeys'
  exact JsonValue.list.inj hkeys'

theorem bundleAnchors_iff (hkeys : KeysOf store trustDomain keys) : BundleAnchors P store trustDomain anchors ↔
    (∃ bundle, Spiffe.bundleFor store trustDomain = .ok bundle) ∧ svidKeys keys ≠ [] ∧
      Spiffe.anchors P (svidKeys keys) = .ok anchors := by
  constructor
  · rintro ⟨bundle, keys', hbundle, hget, hne, hanchors⟩
    obtain rfl := hkeys.unique ⟨bundle, bundleFor_eq_ok hbundle, hget⟩
    exact ⟨⟨bundle, hbundle⟩, hne, hanchors⟩
  · rintro ⟨⟨bundle, hbundle⟩, hne, hanchors⟩
    obtain ⟨_, ⟨entries, entry, rfl, hone, rfl⟩, hget⟩ := hkeys
    obtain ⟨_, _, entries', entry', heq, hone', rfl⟩ := bundleFor_iff.mp hbundle
    obtain rfl := JsonValue.list.inj heq
    rw [hone] at hone'
    obtain rfl := (List.cons.inj hone').1
    exact ⟨_, keys, hbundle, hget, hne, hanchors⟩

/-- The CAs of the rearranged bundle are those of the other array. -/
theorem bundleAnchors_withKeys (hkeys : KeysOf store trustDomain keys) :
    BundleAnchors P (withKeys trustDomain keys' store) trustDomain anchors ↔
      (∃ bundle, Spiffe.bundleFor store trustDomain = .ok bundle) ∧ svidKeys keys' ≠ [] ∧
        Spiffe.anchors P (svidKeys keys') = .ok anchors := by
  constructor
  · rintro ⟨bundle', found, hbundle', hget, hne, hanchors⟩
    obtain ⟨bundle, hof, hlist⟩ := hkeys
    have hnull : bundle.isNull = false := by
      cases bundle with
      | null => cases hlist
      | _ => rfl
    have hbundle := bundleFor_of_withKeys hof hnull hbundle'
    rw [bundleFor_withKeys hbundle, Except.ok.injEq] at hbundle'
    rw [← hbundle'] at hget
    obtain rfl : keys' = found := by
      change (bundle.members.insert (txt "keys") (.list keys')).get (txt "keys") = _ at hget
      rw [Members.get_insert_self] at hget
      exact JsonValue.list.inj hget
    exact ⟨⟨bundle, hbundle⟩, hne, hanchors⟩
  · rintro ⟨⟨bundle, hbundle⟩, hne, hanchors⟩
    exact ⟨_, keys', bundleFor_withKeys hbundle, Members.get_insert_self _ _ _, hne, hanchors⟩

theorem svidKeys_perm (h : keys'.Perm keys) : (svidKeys keys').Perm (svidKeys keys) := (h.filter _).map _

theorem svidKeys_ne_nil (h : keys'.Perm keys) : svidKeys keys' ≠ [] ↔ svidKeys keys ≠ [] := by
  rw [Ne, Ne, ← List.length_eq_zero_iff, (svidKeys_perm h).length_eq, List.length_eq_zero_iff]

/-- Any CA of the bundle comes first in some arrangement. -/
theorem exists_perm_anchor (h : Spiffe.anchors P (svidKeys keys) = .ok anchors) {anchor : Certificate} (hm : anchor ∈ anchors) :
    ∃ keys' rest, keys'.Perm keys ∧ Spiffe.anchors P (svidKeys keys') = .ok (anchor :: rest) := by
  obtain ⟨jwk, hjwk, hstep⟩ := (mem_collect h).mp hm
  obtain ⟨k, hk, hmembers⟩ := List.mem_map.mp hjwk
  obtain ⟨hk, huse⟩ := List.mem_filter.mp hk
  obtain ⟨front, back, rfl⟩ := List.append_of_mem hk
  have hperm : (k :: (front ++ back)).Perm (front ++ k :: back) := List.perm_middle.symm
  obtain ⟨found, hfound, _⟩ := collect_perm (svidKeys_perm hperm) h
  have hfirst : svidKeys (k :: (front ++ back)) = jwk :: svidKeys (front ++ back) := by
    rw [svidKeys, List.filter_cons_of_pos huse, List.map_cons, hmembers, svidKeys]
  rw [hfirst, collect, hstep] at hfound
  simp only [ok_bind, bind_eq_ok, Except.ok.injEq] at hfound
  obtain ⟨rest, hrest, _⟩ := hfound
  refine ⟨k :: (front ++ back), rest, hperm, ?_⟩
  rw [Spiffe.anchors, hfirst, collect, hstep, ok_bind, hrest]
  rfl

end Arrangement

section OrderFree

variable (identity env : Members) (selfAid store : JsonValue) (now : Int)

/-- The descriptor is accepted with every arrangement of its bundle's keys, or with none. -/
def ArrangementFree : Prop :=
  ∀ trustDomain path keys, Spiffe.parseSpiffeId P (identity.get (txt "subject")) = .ok (trustDomain, path) →
    KeysOf store trustDomain keys → ∀ keys' : List JsonValue, keys'.Perm keys →
      (verifySpiffe P identity env selfAid (withKeys trustDomain keys' store) now = .ok () ↔
        verifySpiffe P identity env selfAid store now = .ok ())

/-- A descriptor in order is accepted when one CA of its bundle anchors the path. -/
def OneAnchorSuffices : Prop :=
  ∀ trustDomain leaf issuers atTime anchors, InOrder P identity env selfAid now trustDomain leaf issuers atTime →
    BundleAnchors P store trustDomain anchors →
    (∃ anchor ∈ anchors, Anchors P (issuers.getLastD leaf) issuers.length trustDomain atTime anchor) →
      verifySpiffe P identity env selfAid store now = .ok ()

/-- Of the CAs of a descriptor that is in order, one anchors the path and another spoils it. -/
def Contested : Prop :=
  ∃ trustDomain leaf issuers atTime anchors, InOrder P identity env selfAid now trustDomain leaf issuers atTime ∧
    BundleAnchors P store trustDomain anchors ∧
    (∃ anchor ∈ anchors, Anchors P (issuers.getLastD leaf) issuers.length trustDomain atTime anchor) ∧
    ∃ anchor ∈ anchors, Spoils P (issuers.getLastD leaf) issuers.length trustDomain atTime anchor

variable {identity env selfAid store now}

theorem oneAnchorSuffices_of_not_contested (htype : identity.get (txt "svid_type") = .str (txt "x509-svid"))
    (h : ¬Contested P identity env selfAid store now) : OneAnchorSuffices P identity env selfAid store now := by
  intro trustDomain leaf issuers atTime anchors horder hanchors hone
  refine (verifySpiffe_x509_iff P htype).mpr ⟨trustDomain, leaf, issuers, atTime, anchors, horder, hanchors,
    checkAnchor_of_none_spoils P (fun anchor hm hspoils => h ?_) hone⟩
  exact ⟨trustDomain, leaf, issuers, atTime, anchors, horder, hanchors, hone, anchor, hm, hspoils⟩

theorem arrangementFree_of_not_contested (htype : identity.get (txt "svid_type") = .str (txt "x509-svid"))
    (h : ¬Contested P identity env selfAid store now) : ArrangementFree P identity env selfAid store now := by
  intro trustDomain path keys hsubject hkeys keys' hperm
  rw [verifySpiffe_x509_iff P htype, verifySpiffe_x509_iff P htype]
  -- an accepted arrangement shows a CA that anchors the path, and none spoils it
  have hcarry {domain : Text} {leaf : Certificate} {issuers anchors anchors' : List Certificate} {atTime : Int}
      (horder : InOrder P identity env selfAid now domain leaf issuers atTime) (hanchors : BundleAnchors P store domain anchors)
      (hsame : anchors'.Perm anchors) {found : List Certificate} (hfound : found.Perm anchors)
      (haccepted : checkAnchor P (issuers.getLastD leaf) issuers.length domain atTime found = .ok ()) :
      checkAnchor P (issuers.getLastD leaf) issuers.length domain atTime anchors' = .ok () := by
    obtain ⟨anchor, hm, hanchor⟩ := exists_of_checkAnchor P haccepted
    have hone : ∃ anchor ∈ anchors, Anchors P (issuers.getLastD leaf) issuers.length domain atTime anchor :=
      ⟨anchor, hfound.mem_iff.mp hm, hanchor⟩
    refine checkAnchor_of_none_spoils P (fun other hother hspoils => ?_) ⟨anchor, hsame.mem_iff.mpr (hfound.mem_iff.mp hm), hanchor⟩
    exact h ⟨domain, leaf, issuers, atTime, anchors, horder, hanchors, hone, other, hsame.mem_iff.mp hother, hspoils⟩
  have hdomain {domain : Text} (hsubject' : ∃ path, Spiffe.parseSpiffeId P (identity.get (txt "subject")) = .ok (domain, path)) :
      domain = trustDomain := by
    obtain ⟨path', hsubject'⟩ := hsubject'
    rw [hsubject, Except.ok.injEq, Prod.mk.injEq] at hsubject'
    exact hsubject'.1.symm
  constructor
  · rintro ⟨domain, leaf, issuers, atTime, found, horder, hfound, haccepted⟩
    obtain rfl := hdomain horder.subject
    obtain ⟨hbundle, hne, hcollect⟩ := (bundleAnchors_withKeys P hkeys).mp hfound
    obtain ⟨anchors, hanchors, hsame⟩ := collect_perm (svidKeys_perm hperm.symm) hcollect
    have hheld := (bundleAnchors_iff P hkeys).mpr ⟨hbundle, (svidKeys_ne_nil hperm).mp hne, hanchors⟩
    exact ⟨domain, leaf, issuers, atTime, anchors, horder, hheld, hcarry horder hheld (.refl anchors) hsame.symm haccepted⟩
  · rintro ⟨domain, leaf, issuers, atTime, anchors, horder, hanchors, haccepted⟩
    obtain rfl := hdomain horder.subject
    obtain ⟨hbundle, hne, hcollect⟩ := (bundleAnchors_iff P hkeys).mp hanchors
    obtain ⟨anchors', hanchors', hsame⟩ := collect_perm (svidKeys_perm hperm) hcollect
    have hheld := (bundleAnchors_withKeys P hkeys).mpr ⟨hbundle, (svidKeys_ne_nil hperm).mpr hne, hanchors'⟩
    exact ⟨domain, leaf, issuers, atTime, anchors', horder, hheld, hcarry horder hanchors hsame (.refl anchors) haccepted⟩

/-- The verdict is free of the bundle's order exactly when no CA contests another. -/
theorem anchor_order_iff (identity env : Members) (selfAid store : JsonValue) (now : Int)
    (htype : identity.get (txt "svid_type") = .str (txt "x509-svid")) :
    (ArrangementFree P identity env selfAid store now ∧ OneAnchorSuffices P identity env selfAid store now) ↔
      ¬Contested P identity env selfAid store now := by
  constructor
  · rintro ⟨hfree, hone⟩ ⟨trustDomain, leaf, issuers, atTime, anchors, horder, hanchors, hgood, bad, hbad, hspoils⟩
    obtain ⟨path, hsubject⟩ := horder.subject
    have haccepted := hone trustDomain leaf issuers atTime anchors horder hanchors hgood
    obtain ⟨bundle, keys, hbundle, hget, hne, hcollect⟩ := hanchors
    have hkeys : KeysOf store trustDomain keys := ⟨bundle, bundleFor_eq_ok hbundle, hget⟩
    obtain ⟨keys', rest, hperm, hcollect'⟩ := exists_perm_anchor P hcollect hbad
    have haccepted' := (hfree trustDomain path keys hsubject hkeys keys' hperm).mpr haccepted
    obtain ⟨domain, leaf', issuers', atTime', found, horder', hfound, hdecided⟩ := (verifySpiffe_x509_iff P htype).mp haccepted'
    obtain ⟨path', hsubject'⟩ := horder'.subject
    rw [hsubject, Except.ok.injEq, Prod.mk.injEq] at hsubject'
    obtain rfl := hsubject'.1
    obtain ⟨_, _, hcollect''⟩ := (bundleAnchors_withKeys P hkeys).mp hfound
    have hchain := horder.chain.symm.trans horder'.chain
    have htime := horder.time.symm.trans horder'.time
    rw [Except.ok.injEq, Prod.mk.injEq] at hchain
    rw [Except.ok.injEq] at htime
    rw [hcollect', Except.ok.injEq] at hcollect''
    rw [← hchain.1, ← hchain.2, ← htime, ← hcollect''] at hdecided
    exact hspoils.rejects P rest hdecided
  · intro h
    exact ⟨arrangementFree_of_not_contested P htype h, oneAnchorSuffices_of_not_contested P htype h⟩

theorem anchor_order_iff_renewal :
    (ArrangementFree svidRecording.platform svidDescriptor svidEnvelope (.str (aidOf agentB))
        (bundleStore [rootJwk renewedRoot, rootJwk formerRoot]) 1711900000 ∧
      OneAnchorSuffices svidRecording.platform svidDescriptor svidEnvelope (.str (aidOf agentB))
        (bundleStore [rootJwk renewedRoot, rootJwk formerRoot]) 1711900000) ↔
      ¬Contested svidRecording.platform svidDescriptor svidEnvelope (.str (aidOf agentB))
        (bundleStore [rootJwk renewedRoot, rootJwk formerRoot]) 1711900000 :=
  anchor_order_iff svidRecording.platform svidDescriptor svidEnvelope (.str (aidOf agentB))
    (bundleStore [rootJwk renewedRoot, rootJwk formerRoot]) 1711900000 (by decide +kernel)

/-- The renewed root after the one that expired: the chain it anchors is refused. -/
theorem anchor_order_dependent :
    svidDescriptor.get (txt "svid_type") = .str (txt "x509-svid") ∧
      verifySpiffe svidRecording.platform svidDescriptor svidEnvelope (.str (aidOf agentB))
        (bundleStore [rootJwk renewedRoot, rootJwk formerRoot]) 1711900000 = .ok () ∧
      Raises (verifySpiffe svidRecording.platform svidDescriptor svidEnvelope (.str (aidOf agentB))
        (bundleStore [rootJwk formerRoot, rootJwk renewedRoot]) 1711900000) "IDENTITY_FAILED" ∧
      ¬ArrangementFree svidRecording.platform svidDescriptor svidEnvelope (.str (aidOf agentB))
        (bundleStore [rootJwk renewedRoot, rootJwk formerRoot]) 1711900000 := by
  have haccepted : verifySpiffe svidRecording.platform svidDescriptor svidEnvelope (.str (aidOf agentB))
      (bundleStore [rootJwk renewedRoot, rootJwk formerRoot]) 1711900000 = .ok () := by
    decide +kernel
  have hrefused : Raises (verifySpiffe svidRecording.platform svidDescriptor svidEnvelope (.str (aidOf agentB))
      (bundleStore [rootJwk formerRoot, rootJwk renewedRoot]) 1711900000) "IDENTITY_FAILED" := by
    decide +kernel
  have hsubject : Spiffe.parseSpiffeId svidRecording.platform (svidDescriptor.get (txt "subject")) =
      .ok (txt "example.org", txt "/agent/a") := by
    decide +kernel
  refine ⟨by decide +kernel, haccepted, hrefused, fun h => ?_⟩
  have hkeys : KeysOf (bundleStore [rootJwk renewedRoot, rootJwk formerRoot]) (txt "example.org")
      [rootJwk renewedRoot, rootJwk formerRoot] := by
    have hbundle : Spiffe.bundleFor (bundleStore [rootJwk renewedRoot, rootJwk formerRoot]) (txt "example.org") =
        .ok (.dict [(txt "keys", .list [rootJwk renewedRoot, rootJwk formerRoot])]) := by
      decide +kernel
    exact ⟨_, bundleFor_eq_ok hbundle, rfl⟩
  have hswapped := (h _ _ _ hsubject hkeys [rootJwk formerRoot, rootJwk renewedRoot] (.swap _ _ _)).mpr haccepted
  have hsame : withKeys (txt "example.org") [rootJwk formerRoot, rootJwk renewedRoot]
      (bundleStore [rootJwk renewedRoot, rootJwk formerRoot]) = bundleStore [rootJwk formerRoot, rootJwk renewedRoot] := by
    decide +kernel
  rw [hsame] at hswapped
  rw [hswapped] at hrefused
  exact not_raises_ok hrefused

end OrderFree

end AitpVerifier
