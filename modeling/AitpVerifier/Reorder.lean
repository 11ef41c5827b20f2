import AitpVerifier.Clearance
import AitpVerifier.Leaks
import Mathlib.Data.List.Perm.Basic

/-!
# Deny lists, reordered and extended

A verdict sees the trusted snapshots as a set and each one's entries as a set. Their
order carries nothing, and an entry more can only refuse more.
-/
namespace AitpVerifier

open PyText Checked DenyList

variable (P : Platform)

/-- A snapshot before and after a change of its entries, signed again and judged alike:
trusted both times, or refused both times in the same way. -/
inductive Restated (R : List JsonValue → List JsonValue → Prop) (snapshot snapshot' : JsonValue) : Prop where
  | trusted {body body' : Members} : verifySnapshotTrust P snapshot = .ok body →
      verifySnapshotTrust P snapshot' = .ok body' → AgreeExcept [txt "entries"] body body' →
      R (body.get (txt "entries")).items (body'.get (txt "entries")).items → Restated R snapshot snapshot'
  | refused {e e' : PyErr} : verifySnapshotTrust P snapshot = .error e → verifySnapshotTrust P snapshot' = .error e' →
      (Coded e ↔ Coded e') → Restated R snapshot snapshot'

/-- A record under an unchanged label. -/
structure RecordRestated (R : List JsonValue → List JsonValue → Prop) (record record' : JsonValue) : Prop where
  label : record.members.get (txt "issuer_aid") = record'.members.get (txt "issuer_aid")
  snapshot : Restated P R (record.members.get (txt "snapshot")) (record'.members.get (txt "snapshot"))

/-- The same records in some order, the snapshots among them signed again. -/
def Rearranged (R : List JsonValue → List JsonValue → Prop) (records records' : List JsonValue) : Prop :=
  ∃ mid, records.Perm mid ∧ List.Forall₂ (RecordRestated P R) mid records'

/-- Two inputs that differ in the revocation data alone. -/
structure Resupplied (R : List JsonValue → List JsonValue → Prop) (inp inp' : Members) : Prop where
  rest : AgreeExcept [txt "issuer_revocation_list", txt "revocation_snapshots"] inp inp'
  records : Option.Rel (Rearranged P R) (suppliedRecords inp) (suppliedRecords inp')
  carried : Option.Rel (Restated P R) (carriedSnapshot inp) (carriedSnapshot inp')

variable {P} {R : List JsonValue → List JsonValue → Prop}

/-! ### Turned around -/

theorem Restated.flip {snapshot snapshot' : JsonValue} (h : Restated P R snapshot snapshot') :
    Restated P (fun entries entries' => R entries' entries) snapshot' snapshot := by
  cases h with
  | trusted ht ht' hrest hentries => exact .trusted ht' ht hrest.symm hentries
  | refused he he' hcoded => exact .refused he' he hcoded.symm

theorem Rearranged.flip {records records' : List JsonValue} (h : Rearranged P R records records') :
    Rearranged P (fun entries entries' => R entries' entries) records' records := by
  obtain ⟨mid, hperm, hall⟩ := h
  obtain ⟨mid', hall', hperm'⟩ := List.perm_comp_forall₂ hperm hall
  refine ⟨mid', hperm'.symm, ?_⟩
  exact hall'.flip.imp fun _ _ hr => ⟨hr.label.symm, hr.snapshot.flip⟩

theorem rel_cases {α : Type} {R : α → α → Prop} {x y : Option α} (h : Option.Rel R x y) :
    x = none ∧ y = none ∨ ∃ a b, x = some a ∧ y = some b ∧ R a b := by
  cases h with
  | none => exact .inl ⟨rfl, rfl⟩
  | some hr => exact .inr ⟨_, _, rfl, rfl, hr⟩

theorem rel_flip {α : Type} {R S : α → α → Prop} (h : ∀ a b, R a b → S b a) {x y : Option α} (hr : Option.Rel R x y) :
    Option.Rel S y x := by
  cases hr with
  | none => exact .none
  | some hr => exact .some (h _ _ hr)

theorem Resupplied.flip {inp inp' : Members} (h : Resupplied P R inp inp') :
    Resupplied P (fun entries entries' => R entries' entries) inp' inp where
  rest := h.rest.symm
  records := rel_flip (fun _ _ hr => hr.flip) h.records
  carried := rel_flip (fun _ _ hr => hr.flip) h.carried

/-! ### What the two runs read -/

variable (hR : ∀ entries entries', R entries entries' → ∀ entry ∈ entries, entry ∈ entries')

/-- The same body, denying at least as much. -/
structure Stricter (body body' : Members) : Prop where
  rest : AgreeExcept [txt "entries"] body body'
  denies : ∀ jti, Lists body jti → Lists body' jti

/-- Freshness is not a matter of the entries. -/
theorem fresh_congr {body body' policy : Members} {now : Int} (h : AgreeExcept [txt "entries"] body body') :
    Fresh P body policy now ↔ Fresh P body' policy now := by
  have hexpires : body.get (txt "expires_at") = body'.get (txt "expires_at") := h.get (by decide)
  have hpublished : body.get (txt "published_at") = body'.get (txt "published_at") := h.get (by decide)
  constructor
  · rintro ⟨hlive, hrecent⟩
    rw [hexpires] at hlive
    rw [hpublished] at hrecent
    exact ⟨hlive, hrecent⟩
  · rintro ⟨hlive, hrecent⟩
    rw [← hexpires] at hlive
    rw [← hpublished] at hrecent
    exact ⟨hlive, hrecent⟩

include hR in
theorem Restated.stricter {snapshot snapshot' : JsonValue} (h : Restated P R snapshot snapshot') {body : Members}
    (ht : verifySnapshotTrust P snapshot = .ok body) :
    ∃ body', verifySnapshotTrust P snapshot' = .ok body' ∧ Stricter body body' := by
  cases h with
  | trusted htrust htrust' hrest hentries =>
    obtain rfl := Except.ok.inj (htrust.symm.trans ht)
    refine ⟨_, htrust', hrest, fun jti hl => ?_⟩
    rw [Lists, lists, List.any_eq_true] at hl ⊢
    obtain ⟨entry, hm, heq⟩ := hl
    exact ⟨entry, hR _ _ hentries entry hm, heq⟩
  | refused he => exact absurd (he.symm.trans ht) error_ne_ok

include hR in
theorem Restated.stricter_back {snapshot snapshot' : JsonValue} (h : Restated P R snapshot snapshot') {body' : Members}
    (ht : verifySnapshotTrust P snapshot' = .ok body') :
    ∃ body, verifySnapshotTrust P snapshot = .ok body ∧ Stricter body body' := by
  cases h with
  | trusted htrust htrust' hrest hentries =>
    obtain rfl := Except.ok.inj (htrust'.symm.trans ht)
    obtain ⟨body', hbody', hs⟩ := (Restated.trusted htrust htrust' hrest hentries).stricter hR htrust
    obtain rfl := Except.ok.inj (htrust'.symm.trans hbody')
    exact ⟨_, htrust, hs⟩
  | refused _ he => exact absurd (he.symm.trans ht) error_ne_ok

theorem Restated.leaks {snapshot snapshot' : JsonValue} (h : Restated P R snapshot snapshot') :
    Leaks (verifySnapshotTrust P snapshot) ↔ Leaks (verifySnapshotTrust P snapshot') := by
  cases h with
  | trusted ht ht' =>
    rw [ht, ht']
    exact iff_of_false nofun nofun
  | refused he he' hcoded => rw [he, he', leaks_error, leaks_error, hcoded]

theorem Restated.isTrusted {snapshot snapshot' : JsonValue} (h : Restated P R snapshot snapshot') :
    (∃ body, verifySnapshotTrust P snapshot = .ok body) ↔ ∃ body, verifySnapshotTrust P snapshot' = .ok body := by
  cases h with
  | trusted ht ht' => exact iff_of_true ⟨_, ht⟩ ⟨_, ht'⟩
  | refused he he' => simp only [he, he', reduceCtorEq, exists_false]

/-- A record passes under either entries. -/
theorem RecordRestated.passes {record record' : JsonValue} (h : RecordRestated P R record record') (selfAid : Text) :
    RecordPasses P selfAid record ↔ RecordPasses P selfAid record' := by
  rw [RecordPasses, RecordPasses, h.label, h.snapshot.leaks, h.snapshot.isTrusted]

theorem Rearranged.matched {records records' : List JsonValue} (h : Rearranged P R records records') :
    Matched (RecordRestated P R) {record | record ∈ records} {record | record ∈ records'} := by
  obtain ⟨mid, hperm, hall⟩ := h
  have hset : {record | record ∈ records} = {record | record ∈ mid} := Set.ext fun _ => hperm.mem_iff
  rw [hset]
  exact .ofForall₂ hall

theorem supplied_iff {inp body : Members} :
    Supplied P inp body ↔ ∃ records, suppliedRecords inp = some records ∧
      ∃ record ∈ records, verifySnapshotTrust P (record.members.get (txt "snapshot")) = .ok body := by
  unfold Supplied suppliedRecords
  cases inp.get (txt "revocation_snapshots") <;> simp

section Matched

variable {inp inp' : Members} (h : Resupplied P R inp inp')

include h

theorem Resupplied.snapshotsPass (selfAid : Text) : SnapshotsPass P inp selfAid ↔ SnapshotsPass P inp' selfAid := by
  unfold SnapshotsPass
  rcases rel_cases h.records with ⟨hs, hs'⟩ | ⟨records, records', hs, hs', hr⟩
  · rw [hs, hs']
  · simp only [hs, hs', Option.some.injEq, exists_eq_left']
    constructor
    · intro hall record' hm'
      obtain ⟨record, hm, hrecord⟩ := hr.matched.back record' hm'
      exact (hrecord.passes selfAid).mp (hall record hm)
    · intro hall record hm
      obtain ⟨record', hm', hrecord⟩ := hr.matched.forth record hm
      exact (hrecord.passes selfAid).mpr (hall record' hm')

theorem Resupplied.policy : policyOf inp = policyOf inp' := by
  rw [policyOf, policyOf, h.rest.get (by decide)]

theorem Resupplied.mode : policyFailMode inp = policyFailMode inp' := by
  rw [policyFailMode, policyFailMode, h.policy]

theorem Resupplied.carriedEscapes : CarriedEscapes P inp ↔ CarriedEscapes P inp' := by
  unfold CarriedEscapes
  rcases rel_cases h.carried with ⟨hs, hs'⟩ | ⟨snapshot, snapshot', hs, hs', hr⟩
  · rw [hs, hs']
  · simp only [hs, hs', Option.some.injEq, exists_eq_left', hr.leaks]

include hR

theorem Resupplied.supplied : Matched Stricter {body | Supplied P inp body} {body | Supplied P inp' body} := by
  simp only [supplied_iff]
  rcases rel_cases h.records with ⟨hs, hs'⟩ | ⟨records, records', hs, hs', hr⟩
  · simp only [hs, hs', reduceCtorEq, false_and, exists_false]
    exact ⟨nofun, nofun⟩
  · simp only [hs, hs', Option.some.injEq, exists_eq_left']
    refine hr.matched.image ?_ ?_
    · intro record record' hrecord body ht
      exact hrecord.snapshot.stricter hR ht
    · intro record record' hrecord body' ht
      exact hrecord.snapshot.stricter_back hR ht

theorem Resupplied.answersFor (now : Int) (issuer : Text) :
    Matched Stricter {body | AnswersFor P inp now issuer body} {body | AnswersFor P inp' now issuer body} := by
  have hset (inp : Members) : {body | AnswersFor P inp now issuer body} =
      {body ∈ {body | Supplied P inp body} | body.get (txt "issuer") = .str issuer ∧ Fresh P body (policyOf inp) now} :=
    Set.ext fun body => ⟨fun h => ⟨h.supplied, h.issuer, h.fresh⟩, fun h => ⟨h.1, h.2.1, h.2.2⟩⟩
  rw [hset inp, hset inp', h.policy]
  refine (h.supplied hR).sep fun body body' hstricter => ?_
  rw [hstricter.rest.get (by decide), fresh_congr hstricter.rest]

theorem Resupplied.clearedFor {now : Int} {issuer : Text} {jti : JsonValue} (hc : ClearedFor P inp' now issuer jti) :
    ClearedFor P inp now issuer jti := by
  rw [ClearedFor, h.mode]
  exact hc.antitone (h.answersFor hR now issuer) fun _ _ hstricter => hstricter.denies jti

theorem Resupplied.delegation {now : Int} {r : Members} (hr : verifyDelegationToken P inp' now = .ok r) :
    verifyDelegationToken P inp now = .ok r := by
  rw [verifyDelegationToken_eq_ok] at hr ⊢
  obtain ⟨finding, hfinding, hpass, hcleared, hgrants⟩ := hr
  refine ⟨finding, ?_, (h.snapshotsPass _).mpr hpass, ⟨h.clearedFor hR hcleared.source, ?_⟩, hgrants⟩
  · rw [(h.rest.mono (by decide)).delegationChecks P now]
    exact hfinding
  · intro hops hswept hop hm
    obtain ⟨claims, iss, hpeek, hiss, hc⟩ := hcleared.swept hops hswept hop hm
    exact ⟨claims, iss, hpeek, hiss, h.clearedFor hR hc⟩

theorem Resupplied.carriedAnswer (now : Int) (claims : Members) :
    Matched Stricter {body | CarriedAnswer P inp now claims body} {body | CarriedAnswer P inp' now claims body} := by
  have hread (inp : Members) : {body | CarriedAnswer P inp now claims body} =
      {body ∈ {body | ∃ snapshot ∈ {snapshot | carriedSnapshot inp = some snapshot}, verifySnapshotTrust P snapshot = .ok body} |
        (body.get (txt "issuer")).eq (claims.get (txt "iss")) = true ∧ Fresh P body (policyOf inp) now} := rfl
  have hcarried : Matched (Restated P R) {snapshot | carriedSnapshot inp = some snapshot}
      {snapshot | carriedSnapshot inp' = some snapshot} := by
    rcases rel_cases h.carried with ⟨hs, hs'⟩ | ⟨snapshot, snapshot', hs, hs', hr⟩
    · rw [hs, hs']
      exact ⟨nofun, nofun⟩
    · rw [hs, hs']
      exact ⟨fun _ heq => ⟨snapshot', rfl, Option.some.inj heq ▸ hr⟩, fun _ heq => ⟨snapshot, rfl, Option.some.inj heq ▸ hr⟩⟩
  rw [hread inp, hread inp', h.policy]
  refine (hcarried.image ?_ ?_).sep fun body body' hstricter => ?_
  · intro snapshot snapshot' hr body ht
    exact hr.stricter hR ht
  · intro snapshot snapshot' hr body' ht
    exact hr.stricter_back hR ht
  · rw [hstricter.rest.get (by decide), fresh_congr hstricter.rest]

theorem Resupplied.tct {now : Int} {r : Members} (hr : verifyTct P inp' now = .ok r) : verifyTct P inp now = .ok r := by
  rw [verifyTct_cleared] at hr ⊢
  obtain ⟨finding, hfinding, hescapes, hcleared, hresult⟩ := hr
  refine ⟨finding, ?_, fun he => hescapes (h.carriedEscapes.mp he), ?_, hresult⟩
  · rw [(h.rest.mono (by decide)).tctChecks P now]
    exact hfinding
  · rw [h.mode]
    exact hcleared.antitone (h.carriedAnswer hR now _) fun _ _ hstricter => hstricter.denies _

end Matched

/-- Records and entries in another order get the same verdict and the same result;
entries added to a trusted snapshot accept nothing that was rejected. -/
theorem denyLists_orderFree_antitone (P : Platform) (inp inp' : Members) (now : Int) :
    (Resupplied P List.Perm inp inp' → ∀ r,
      (verifyDelegationToken P inp now = .ok r ↔ verifyDelegationToken P inp' now = .ok r) ∧
        (verifyTct P inp now = .ok r ↔ verifyTct P inp' now = .ok r)) ∧
    (Resupplied P List.Subperm inp inp' → ∀ r,
      (verifyDelegationToken P inp' now = .ok r → verifyDelegationToken P inp now = .ok r) ∧
        (verifyTct P inp' now = .ok r → verifyTct P inp now = .ok r)) := by
  constructor
  · intro h r
    have hforth : ∀ entries entries' : List JsonValue, entries.Perm entries' → ∀ entry ∈ entries, entry ∈ entries' :=
      fun _ _ hperm _ hm => hperm.subset hm
    have hback : ∀ entries entries' : List JsonValue, entries'.Perm entries → ∀ entry ∈ entries, entry ∈ entries' :=
      fun _ _ hperm _ hm => hperm.symm.subset hm
    exact ⟨⟨h.flip.delegation hback, h.delegation hforth⟩, h.flip.tct hback, h.tct hforth⟩
  · intro h r
    have hsub : ∀ entries entries' : List JsonValue, entries.Subperm entries' → ∀ entry ∈ entries, entry ∈ entries' :=
      fun _ _ hsub _ hm => hsub.subset hm
    exact ⟨h.delegation hsub, h.tct hsub⟩

/-! ### Agent A's deny list in several orders -/

def denyEntry (jti : Text) (revokedAt : Int) : JsonValue := .dict [(txt "jti", .str jti), (txt "revoked_at", .int revokedAt)]

/-- The entry of the recorded grant, and those of two other tokens. -/
def grantEntry : JsonValue := denyEntry (txt "0b7e8a52-4c1d-4e3f-9a6b-2d5c8f1e7a90") 1711899000

def otherEntry : JsonValue := denyEntry (txt "3f6d9a10-8b2e-4c57-a1d4-e90b7c2f5d81") 1711898000

def furtherEntry : JsonValue := denyEntry (txt "c8e1704b-25fa-4d9c-b36e-07a95d1f8e42") 1711898500

def denyListOf (entries : List JsonValue) : Members :=
  [(txt "version", .str (txt "aitp/0.3")), (txt "issuer", .str (aidOf agentA)), (txt "published_at", .int 1711899400),
    (txt "expires_at", .int 1711903600), (txt "entries", .list entries)]

def denySnapshot (entries : List JsonValue) (signature : Text) : JsonValue :=
  .dict [(txt "revocation_list", .dict (denyListOf entries)), (txt "signature", .str signature)]

/-- The recorded grant beside a snapshot of agent A's, under a mode. -/
def listedInput (mode : Text) (snapshot : JsonValue) : Members :=
  [(txt "tct_token", grantToken), (txt "policy", .dict [(txt "fail_mode", .str mode)]),
    (txt "issuer_revocation_list", .dict [(txt "snapshot", snapshot)])]

/-- A recorded digest and signature of a deny list. -/
structure SignedEntries where
  entries : List JsonValue
  digest : Text
  signature : Text

def SignedEntries.snapshot (signed : SignedEntries) : JsonValue := denySnapshot signed.entries signed.signature

def twoEntries : SignedEntries :=
  ⟨[otherEntry, furtherEntry], txt "UZrz-YC1rB7zKHbuFxJoiLschYb74lU7yUECyNAo" ++ txt "YPw",
    txt "uuDpf5A3ViX8IiZTyJs46c0eRmHmie-skuK9yxsN" ++ txt "Ez7g1z-YjXl2GHEvXpqpo-ob_COFWk_h_Ng45aXZ" ++ txt "mTdjCA"⟩

def swappedEntries : SignedEntries :=
  ⟨[furtherEntry, otherEntry], txt "2Zqg9v79QrKVIBM_4sAeF-svolxAdh3nO5CHkWZk" ++ txt "_8w",
    txt "iyIdGpdnIQx1Adgyf0DCduD3SPNJdCiK4si7kbqN" ++ txt "pZbNpOr5RDZObVwpOUwkAJmma32JDWKxdtgDYiyq" ++ txt "A7HkDg"⟩

def oneEntry : SignedEntries :=
  ⟨[otherEntry], txt "Y9X887RKZkPupGMfwuhzz2T3Nk6wf7lgrpKnhEBG" ++ txt "M7Q",
    txt "8eBQtmff9tYg8NyaweDR6f0iFoyJcPzWIwsVphos" ++ txt "i0WmGSSlmxbt-yfqgap4YI151ELxIKOlG2SsUxW_" ++ txt "PsuvCA"⟩

def revokingEntries : SignedEntries :=
  ⟨[otherEntry, grantEntry], txt "TtV3WdG8ckHjtbPm00v8VASREPI-Bd1ELsYvBaeW" ++ txt "aag",
    txt "4MOGNNEPEeXyo23PexVEfNdPTfKRrm_9Wp0QNPHO" ++ txt "X09KY-lypiS0Z0LDNVDrY5gE8BV7aw1hXnNyYUPP" ++ txt "glRIDg"⟩

def orderRecording : Recording where
  digests := recordedThumbprint agentB thumbprintB :: [twoEntries, swappedEntries, oneEntry, revokingEntries].map fun signed =>
    (octetsFrom (Jcs.canonicalize (.dict (denyListOf signed.entries))), signed.digest)
  signatures := grantRecorded :: [twoEntries, swappedEntries, oneEntry, revokingEntries].map fun signed =>
    ⟨agentA, signed.signature, octetsOf signed.digest⟩

theorem denyListOf_agree (entries entries' : List JsonValue) :
    AgreeExcept [txt "entries"] (denyListOf entries) (denyListOf entries') := by
  intro key hk
  have hentries : txt "entries" ≠ key := fun h => hk (List.mem_singleton.mpr h.symm)
  simp [denyListOf, Members.get?, hentries]

/-- Two trusted deny lists are one snapshot with its entries changed. -/
theorem listedInput_resupplied {signed signed' : SignedEntries} {mode : Text} (hentries : R signed.entries signed'.entries)
    (ht : verifySnapshotTrust P signed.snapshot = .ok (denyListOf signed.entries))
    (ht' : verifySnapshotTrust P signed'.snapshot = .ok (denyListOf signed'.entries)) :
    Resupplied P R (listedInput mode signed.snapshot) (listedInput mode signed'.snapshot) where
  rest := by
    intro key hk
    have hlist : txt "issuer_revocation_list" ≠ key := fun h => hk (h ▸ List.mem_cons_self)
    simp [listedInput, Members.get?, hlist]
  records := .some ⟨[], .nil, .nil⟩
  carried := .some (.trusted ht ht' (denyListOf_agree _ _) hentries)

theorem twoEntries_trusted :
    verifySnapshotTrust orderRecording.platform twoEntries.snapshot = .ok (denyListOf twoEntries.entries) := by
  decide +kernel

/-- One evaluated acceptance stands for the swapped entries and for the shorter list. -/
theorem denyLists_orderFree_antitone_recorded :
    verifyTct orderRecording.platform (listedInput (txt "fail_closed") swappedEntries.snapshot) referenceClock =
        .ok [(txt "grants", .list [.str (txt "read")])] ∧
      verifyTct orderRecording.platform (listedInput (txt "fail_closed") oneEntry.snapshot) referenceClock =
        .ok [(txt "grants", .list [.str (txt "read")])] := by
  have haccepted : verifyTct orderRecording.platform (listedInput (txt "fail_closed") twoEntries.snapshot) referenceClock =
      .ok [(txt "grants", .list [.str (txt "read")])] := by decide +kernel
  have hswapped := (denyLists_orderFree_antitone orderRecording.platform
    (listedInput (txt "fail_closed") twoEntries.snapshot) (listedInput (txt "fail_closed") swappedEntries.snapshot) referenceClock).1
    (listedInput_resupplied (.swap _ _ _) twoEntries_trusted (by decide +kernel))
  have hshorter := (denyLists_orderFree_antitone orderRecording.platform
    (listedInput (txt "fail_closed") oneEntry.snapshot) (listedInput (txt "fail_closed") twoEntries.snapshot) referenceClock).2
    (listedInput_resupplied (List.Sublist.subperm (by simp [oneEntry, twoEntries])) (by decide +kernel) twoEntries_trusted)
  exact ⟨(hswapped _).2.mp haccepted, (hshorter _).2 haccepted⟩

/-- A deny list nobody signed is discarded and the grant accepted; its entries swapped
and signed by their issuer, it revokes the grant. -/
theorem discarded_reorder_revokes :
    verifyTct orderRecording.platform
        (listedInput (txt "fail_open") (denySnapshot [grantEntry, otherEntry] (.replicate 86 0x41))) referenceClock =
        .ok [(txt "grants", .list [.str (txt "read")])] ∧
      [grantEntry, otherEntry].Perm revokingEntries.entries ∧
      verifySnapshotTrust orderRecording.platform revokingEntries.snapshot = .ok (denyListOf revokingEntries.entries) ∧
      Raises (verifyTct orderRecording.platform (listedInput (txt "fail_open") revokingEntries.snapshot) referenceClock)
        "TCT_REVOKED" :=
  ⟨by decide +kernel, .swap _ _ _, by decide +kernel, by decide +kernel⟩

end AitpVerifier
