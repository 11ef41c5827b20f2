import AitpVerifier.Clearance

/-!
# The labels of revocation records

A record's unsigned label decides nothing about a snapshot that verifies. Of one that
does not it decides whether the call ends there or goes on without it, and a call that
the other snapshots clear is then accepted under one label and refused under another.
-/
namespace AitpVerifier

open PyText Checked DenyList

variable (P : Platform)

/-- One record under two labels. -/
inductive Relabelled : JsonValue → JsonValue → Prop where
  | same (record : JsonValue) : Relabelled record record
  | label {members members' : Members} : AgreeExcept [txt "issuer_aid"] members members' →
      Relabelled (.dict members) (.dict members')

/-- Two inputs that differ in the labels of their records alone. -/
structure LabelsChanged (inp inp' : Members) : Prop where
  rest : AgreeExcept [txt "revocation_snapshots"] inp inp'
  records : inp.get (txt "revocation_snapshots") = inp'.get (txt "revocation_snapshots") ∨
    ∃ records records', inp.get (txt "revocation_snapshots") = .list records ∧
      inp'.get (txt "revocation_snapshots") = .list records' ∧ List.Forall₂ Relabelled records records'

/-- The snapshot of a record verifies. -/
def Trusted (record : JsonValue) : Prop := ∃ body, verifySnapshotTrust P (record.members.get (txt "snapshot")) = .ok body

/-- An object whose snapshot is refused by the package's own error. -/
def RefusedRecord (record : JsonValue) : Prop :=
  record.isDict = true ∧ ¬ Trusted P record ∧ ¬ Leaks (verifySnapshotTrust P (record.members.get (txt "snapshot")))

/-- The call hangs on a label: everything but the snapshots step passes, every record
verifies or is an object that is refused, and one is refused. -/
def LabelDecides (inp : Members) (now : Int) : Prop :=
  ∃ finding records, delegationChecks P inp now = .ok finding ∧ FindingCleared P inp now finding ∧
    inp.get (txt "revocation_snapshots") = .list records ∧ (∀ record ∈ records, Trusted P record ∨ RefusedRecord P record) ∧
    ∃ record ∈ records, RefusedRecord P record

/-- Accepted under all labels of the records, or under none. -/
def LabelBlind (inp : Members) (now : Int) : Prop :=
  ∀ inp', LabelsChanged inp inp' →
    ((verifyDelegationToken P inp now).isOk = true ↔ (verifyDelegationToken P inp' now).isOk = true)

/-! ### What a label leaves alone -/

theorem Relabelled.symm {record record' : JsonValue} (h : Relabelled record record') : Relabelled record' record := by
  cases h with
  | same => exact .same _
  | label hm => exact .label hm.symm

theorem Relabelled.snapshot {record record' : JsonValue} (h : Relabelled record record') :
    record.members.get (txt "snapshot") = record'.members.get (txt "snapshot") := by
  cases h with
  | same => rfl
  | label hm => exact hm.get (by decide)

theorem Relabelled.isDict {record record' : JsonValue} (h : Relabelled record record') : record.isDict = record'.isDict := by
  cases h <;> rfl

variable {P}

theorem Relabelled.trusted {record record' : JsonValue} (h : Relabelled record record') :
    Trusted P record ↔ Trusted P record' := by
  rw [Trusted, Trusted, h.snapshot]

theorem Relabelled.refused {record record' : JsonValue} (h : Relabelled record record') :
    RefusedRecord P record ↔ RefusedRecord P record' := by
  rw [RefusedRecord, RefusedRecord, h.isDict, h.trusted, h.snapshot]

theorem LabelsChanged.symm {inp inp' : Members} (h : LabelsChanged inp inp') : LabelsChanged inp' inp where
  rest := h.rest.symm
  records := by
    rcases h.records with heq | ⟨records, records', hr, hr', hall⟩
    · exact .inl heq.symm
    · exact .inr ⟨records', records, hr', hr, hall.flip.imp fun _ _ hl => hl.symm⟩

/-- The records of two such inputs, where either has a list of them. -/
theorem LabelsChanged.list {inp inp' : Members} (h : LabelsChanged inp inp') {records : List JsonValue}
    (hr : inp.get (txt "revocation_snapshots") = .list records) :
    ∃ records', inp'.get (txt "revocation_snapshots") = .list records' ∧ List.Forall₂ Relabelled records records' := by
  rcases h.records with heq | ⟨before, after, hbefore, hafter, hall⟩
  · exact ⟨records, heq ▸ hr, List.forall₂_same.mpr fun record _ => .same record⟩
  · obtain rfl := JsonValue.list.inj (hbefore.symm.trans hr)
    exact ⟨after, hafter, hall⟩

theorem LabelsChanged.supplied {inp inp' : Members} (h : LabelsChanged inp inp') {body : Members}
    (hs : Supplied P inp body) : Supplied P inp' body := by
  obtain ⟨records, record, hr, hm, ht⟩ := hs
  obtain ⟨records', hr', hall⟩ := h.list hr
  obtain ⟨record', hm', hl⟩ := (Matched.ofForall₂ hall).forth record hm
  exact ⟨records', record', hr', hm', hl.snapshot ▸ ht⟩

theorem LabelsChanged.policy {inp inp' : Members} (h : LabelsChanged inp inp') : policyOf inp = policyOf inp' := by
  rw [policyOf, policyOf, h.rest.get (by decide)]

theorem LabelsChanged.clearedFor {inp inp' : Members} (h : LabelsChanged inp inp') {now : Int} {issuer : Text}
    {jti : JsonValue} (hc : ClearedFor P inp now issuer jti) : ClearedFor P inp' now issuer jti := by
  have hset : {body | AnswersFor P inp' now issuer body} = {body | AnswersFor P inp now issuer body} := by
    ext body
    constructor
    · rintro ⟨hs, hi, hf⟩
      exact ⟨h.symm.supplied hs, hi, h.policy ▸ hf⟩
    · rintro ⟨hs, hi, hf⟩
      exact ⟨h.supplied hs, hi, h.policy ▸ hf⟩
  rw [ClearedFor, hset, policyFailMode, ← h.policy]
  exact hc

theorem LabelsChanged.findingCleared {inp inp' : Members} (h : LabelsChanged inp inp') {now : Int}
    {finding : DelegationFinding} (hc : FindingCleared P inp now finding) : FindingCleared P inp' now finding where
  source := h.clearedFor hc.source
  swept hops hswept hop hm := by
    obtain ⟨claims, iss, hpeek, hiss, hhop⟩ := hc.swept hops hswept hop hm
    exact ⟨claims, iss, hpeek, hiss, h.clearedFor hhop⟩

theorem LabelsChanged.checks {inp inp' : Members} (h : LabelsChanged inp inp') (now : Int) :
    delegationChecks P inp now = delegationChecks P inp' now :=
  (h.rest.mono (by decide)).delegationChecks P now

theorem LabelsChanged.decides {inp inp' : Members} (h : LabelsChanged inp inp') {now : Int} (hd : LabelDecides P inp now) :
    LabelDecides P inp' now := by
  obtain ⟨finding, records, hfinding, hcleared, hr, hall, record, hm, hrefused⟩ := hd
  obtain ⟨records', hr', hlabels⟩ := h.list hr
  have hmatched := Matched.ofForall₂ hlabels
  refine ⟨finding, records', h.checks now ▸ hfinding, h.findingCleared hcleared, hr', ?_, ?_⟩
  · intro record' hm'
    obtain ⟨record, hm, hl⟩ := hmatched.back record' hm'
    rw [← hl.trusted, ← hl.refused]
    exact hall record hm
  · obtain ⟨record', hm', hl⟩ := hmatched.forth record hm
    exact ⟨record', hm', hl.refused.mp hrefused⟩

/-! ### Acceptance, record by record -/

/-- The grants of a finding are never missing. -/
theorem delegationChecks_grants {inp : Members} {now : Int} {finding : DelegationFinding}
    (h : delegationChecks P inp now = .ok finding) : ∃ grants, finding.grants = .ok grants := by
  simp only [delegationChecks, bind_eq_ok, exists_unit] at h
  obtain ⟨_, outer, _, _, h⟩ := h
  cases hself : inp.get (txt "self_aid") with
  | str selfAid =>
    simp only [hself, delegationPathChecks] at h
    split at h
    · simp only [multihopChecks, bind_eq_ok, Except.ok.injEq] at h
      obtain ⟨tokens, htokens, final, hrun, rfl⟩ := h
      obtain ⟨done, hmap, hi⟩ := (ChainInvariant.start P).hops P hrun
      -- the outer token is the last hop, so the loop ends with a predecessor
      have hne : done ≠ [] := by
        rintro rfl
        have htoken := (chainHops_eq_ok P htokens).1
        rw [← hmap] at htoken
        exact List.append_ne_nil_of_right_ne_nil _ (List.cons_ne_nil _ _) htoken.symm
      rw [List.nil_append] at hi
      refine ⟨(done.getLast hne).claims.get (txt "scope"), ?_⟩
      rw [ChainState.scope, hi.prev, List.getLast?_eq_some_getLast hne]
      rfl
    · simp only [singleHopChecks, bind_eq_ok, exists_unit, Except.ok.injEq] at h
      obtain ⟨_, _, _, _, _, _, _, _, rfl⟩ := h
      exact ⟨_, rfl⟩
  | _ => simp [hself] at h

theorem delegation_isOk {inp : Members} {now : Int} :
    (verifyDelegationToken P inp now).isOk = true ↔ ∃ finding, delegationChecks P inp now = .ok finding ∧
      SnapshotsPass P inp finding.selfAid ∧ FindingCleared P inp now finding := by
  rw [isOk_iff]
  constructor
  · rintro ⟨r, hr⟩
    obtain ⟨finding, hfinding, hpass, hcleared, _⟩ := (verifyDelegationToken_eq_ok P).mp hr
    exact ⟨finding, hfinding, hpass, hcleared⟩
  · rintro ⟨finding, hfinding, hpass, hcleared⟩
    obtain ⟨grants, hgrants⟩ := delegationChecks_grants hfinding
    exact ⟨_, (verifyDelegationToken_eq_ok P).mpr ⟨finding, hfinding, hpass, hcleared, grants, hgrants, rfl⟩⟩

theorem recordPasses_of_trusted {selfAid : Text} {record : JsonValue} (h : Trusted P record) :
    RecordPasses P selfAid record := by
  refine ⟨?_, .inl h⟩
  obtain ⟨body, ht⟩ := h
  rw [ht]
  exact nofun

/-- A record the call goes on without is an object under another issuer's label. -/
theorem recordPasses_cases {selfAid : Text} {record : JsonValue} (h : RecordPasses P selfAid record) :
    Trusted P record ∨ RefusedRecord P record := by
  by_cases ht : Trusted P record
  · exact .inl ht
  · obtain ⟨hleaks, hbody | ⟨label, hlabel, _⟩⟩ := h
    · exact absurd hbody ht
    · refine .inr ⟨?_, ht, hleaks⟩
      cases record with
      | dict members => rfl
      | _ => cases hlabel

/-- An accepted call whose label decides nothing has only trusted records. -/
theorem all_trusted {inp : Members} {now : Int} {finding : DelegationFinding}
    (hfinding : delegationChecks P inp now = .ok finding) (hpass : SnapshotsPass P inp finding.selfAid)
    (hcleared : FindingCleared P inp now finding) (hno : ¬ LabelDecides P inp now) {records : List JsonValue}
    (hr : inp.get (txt "revocation_snapshots") = .list records) : ∀ record ∈ records, Trusted P record := by
  obtain ⟨_, hs, hall⟩ := hpass
  rw [suppliedRecords, hr, Option.some.injEq] at hs
  subst hs
  intro record hm
  rcases recordPasses_cases (hall record hm) with ht | hrefused
  · exact ht
  · exact absurd ⟨finding, records, hfinding, hcleared, hr, fun record hm => recordPasses_cases (hall record hm),
      record, hm, hrefused⟩ hno

theorem LabelsChanged.accepted {inp inp' : Members} (h : LabelsChanged inp inp') {now : Int}
    (hno : ¬ LabelDecides P inp now) (ha : (verifyDelegationToken P inp now).isOk = true) :
    (verifyDelegationToken P inp' now).isOk = true := by
  rw [delegation_isOk] at ha ⊢
  obtain ⟨finding, hfinding, hpass, hcleared⟩ := ha
  refine ⟨finding, h.checks now ▸ hfinding, ?_, h.findingCleared hcleared⟩
  rcases h.records with heq | ⟨records, records', hr, hr', hall⟩
  · rwa [SnapshotsPass, suppliedRecords, ← heq]
  · have htrusted := all_trusted hfinding hpass hcleared hno hr
    refine ⟨records', by rw [suppliedRecords, hr'], fun record' hm' => ?_⟩
    obtain ⟨record, hm, hl⟩ := (Matched.ofForall₂ hall).back record' hm'
    exact recordPasses_of_trusted (hl.trusted.mp (htrusted record hm))

/-! ### Every record under one label -/

def relabelRecord (label : Text) : JsonValue → JsonValue
  | .dict members => .dict (Members.insert members (txt "issuer_aid") (.str label))
  | other => other

def relabel (label : Text) (inp : Members) (records : List JsonValue) : Members :=
  inp.insert (txt "revocation_snapshots") (.list (records.map (relabelRecord label)))

theorem agreeExcept_insert (members : Members) (key : Text) (value : JsonValue) :
    AgreeExcept [key] members (members.insert key value) := by
  intro other hk
  rw [Members.get?_insert, if_neg fun h => hk (List.mem_singleton.mpr h.symm)]

theorem relabelRecord_relabelled (label : Text) (record : JsonValue) : Relabelled record (relabelRecord label record) := by
  cases record with
  | dict members => exact .label (agreeExcept_insert _ _ _)
  | _ => exact .same _

theorem relabel_labelsChanged {inp : Members} {records : List JsonValue}
    (hr : inp.get (txt "revocation_snapshots") = .list records) (label : Text) :
    LabelsChanged inp (relabel label inp records) where
  rest := agreeExcept_insert _ _ _
  records := by
    refine .inr ⟨records, records.map (relabelRecord label), hr, Members.get_insert_self _ _ _, ?_⟩
    rw [List.forall₂_map_right_iff]
    exact List.forall₂_same.mpr fun record _ => relabelRecord_relabelled label record

/-- A refused record labelled with the verifier's own name ends the call, under another
name it does not. -/
theorem relabelRecord_passes {selfAid label : Text} {record : JsonValue} (h : RefusedRecord P record) :
    RecordPasses P selfAid (relabelRecord label record) ↔ label ≠ selfAid := by
  have hl := relabelRecord_relabelled label record
  obtain ⟨hdict, ht, hleaks⟩ := hl.refused.mp h
  cases record with
  | dict members =>
    have hlabel : (relabelRecord label (.dict members)).members.get (txt "issuer_aid") = .str label :=
      Members.get_insert_self _ _ _
    rw [RecordPasses, hlabel, and_iff_right hleaks]
    constructor
    · rintro (hbody | ⟨_, heq, hne⟩)
      · exact absurd hbody ht
      · rwa [JsonValue.str.inj heq]
    · intro hne
      exact .inr ⟨label, rfl, hne⟩
  | _ => cases hdict

theorem LabelDecides.accepted_iff {inp : Members} {now : Int} (h : LabelDecides P inp now) :
    ∃ selfAid records, inp.get (txt "revocation_snapshots") = .list records ∧
      ∀ label, (verifyDelegationToken P (relabel label inp records) now).isOk = true ↔ label ≠ selfAid := by
  obtain ⟨finding, records, hfinding, hcleared, hr, hall, refused, hm, hrefused⟩ := h
  refine ⟨finding.selfAid, records, hr, fun label => ?_⟩
  have hl := relabel_labelsChanged hr label
  have hsupplied : suppliedRecords (relabel label inp records) = some (records.map (relabelRecord label)) := by
    rw [suppliedRecords, relabel, Members.get_insert_self]
  rw [delegation_isOk]
  constructor
  · rintro ⟨finding', hfinding', ⟨_, hs, hpass⟩, _⟩
    obtain rfl := Except.ok.inj (hfinding.symm.trans ((hl.checks now).trans hfinding'))
    rw [hsupplied, Option.some.injEq] at hs
    subst hs
    exact (relabelRecord_passes hrefused).mp (hpass _ (List.mem_map_of_mem hm))
  · intro hne
    refine ⟨finding, hl.checks now ▸ hfinding, ⟨_, hsupplied, fun record' hm' => ?_⟩, hl.findingCleared hcleared⟩
    obtain ⟨record, hm, rfl⟩ := List.mem_map.mp hm'
    rcases hall record hm with ht | hrefused
    · exact recordPasses_of_trusted ((relabelRecord_relabelled label record).trusted.mp ht)
    · exact (relabelRecord_passes hrefused).mpr hne

/-- Relabelling never changes acceptance exactly where the call does not hang on a label. -/
theorem labelBlind_iff (P : Platform) (inp : Members) (now : Int) : LabelBlind P inp now ↔ ¬ LabelDecides P inp now := by
  constructor
  · intro hblind hdecides
    obtain ⟨selfAid, records, hr, haccepted⟩ := hdecides.accepted_iff
    have hown := hblind _ (relabel_labelsChanged hr selfAid)
    have hother := hblind _ (relabel_labelsChanged hr (selfAid ++ [0x21]))
    rw [haccepted] at hown hother
    have hne : selfAid ++ [0x21] ≠ selfAid := by simp
    exact hown.mp (hother.mpr hne) rfl
  · intro hno inp' h
    exact ⟨h.accepted hno, h.symm.accepted fun hd => hno (h.symm.decides hd)⟩

/-- Agent A's own snapshot, and a record whose snapshot agent C did not sign. -/
def strayRecords (label : Text) : List JsonValue :=
  [.dict [(txt "snapshot", snapshotOf agentA snapshotSignatureA)],
    .dict [(txt "issuer_aid", .str label), (txt "snapshot", snapshotOf agentC snapshotSignatureB)]]

def strayInput (label : Text) : Members :=
  [(txt "delegation_token", firstHopToken), (txt "self_aid", .str (aidOf agentA)),
    (txt "revocation_snapshots", .list (strayRecords label))]

/-- Under `fail_closed` the stray record is dropped as agent C's and ends the call as agent A's. -/
theorem strayLabel_decides :
    policyFailMode (strayInput (aidOf agentC)) = .failClosed ∧
      LabelsChanged (strayInput (aidOf agentC)) (strayInput (aidOf agentA)) ∧
      verifyDelegationToken delegationRecording.platform (strayInput (aidOf agentC)) referenceClock =
        .ok [(txt "grants", .list [.str (txt "read")])] ∧
      Raises (verifyDelegationToken delegationRecording.platform (strayInput (aidOf agentA)) referenceClock)
        "REVOCATION_SNAPSHOT_SIGNATURE_INVALID" := by
  refine ⟨by decide +kernel, ⟨?_, .inr ⟨strayRecords (aidOf agentC), strayRecords (aidOf agentA), rfl, rfl, ?_⟩⟩,
    by decide +kernel, by decide +kernel⟩
  · intro key hk
    have hne : txt "revocation_snapshots" ≠ key := fun h => hk (List.mem_singleton.mpr h.symm)
    simp [strayInput, Members.get?, hne]
  · refine List.Forall₂.cons (.same _) (.cons (.label ?_) .nil)
    intro key hk
    have hne : txt "issuer_aid" ≠ key := fun h => hk (List.mem_singleton.mpr h.symm)
    simp [Members.get?, hne]

end AitpVerifier
