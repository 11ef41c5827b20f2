import AitpVerifier.VerifiedPlaces

/-!
# Closed member sets at every depth

The helper that rejects an unknown member looks at one object. Here every object
with a declared member set is listed, wherever an accepted input carries it, and
held to its set.
-/
namespace AitpVerifier

open PyText Checked

/-- An object with no member outside a set of names. -/
def Within (value : JsonValue) (fields : List Text) : Prop :=
  ∃ members : Members, value = .dict members ∧ ∀ name ∈ members.names, name ∈ fields

theorem Within.intro {members : Members} {fields : List Text} (h : ∀ name ∈ members.names, name ∈ fields) :
    Within (.dict members) fields := ⟨members, rfl, h⟩

/-- The member set of the artifact at a place. -/
def Place.fields : Place → List Text
  | .envelope => envelopeFields
  | .manifest | .issuerManifest | .coordinatorManifest => manifestFields
  | .tct | .commitTct | .sideTct | .participantTct => tctClaimFields
  | .grantVoucher | .embeddedVoucher => voucherClaimFields
  | .singleHop | .hop => delegationClaimFields
  | .snapshot => revocationBodyFields
  | .bundle => bundleBodyFields

/-- Its member objects that have a set of their own. -/
def Place.nested : Place → List (Text × List Text)
  | .envelope => [(txt "sender", senderFields)]
  | .manifest | .issuerManifest | .coordinatorManifest =>
    [(txt "proof_of_possession", popFields), (txt "identity_hint", identityHintFields)]
  | .tct | .commitTct | .sideTct | .participantTct => [(txt "cnf", tctCnfFields)]
  | .singleHop | .hop => [(txt "cnf", delegationCnfFields)]
  | .grantVoucher | .embeddedVoucher | .snapshot | .bundle => []

/-- Its member arrays whose items have one. -/
def Place.listed : Place → List (Text × List Text)
  | .snapshot => [(txt "entries", entryFields)]
  | .bundle => [(txt "participants", participantFields)]
  | _ => []

/-- An artifact closed at its own level and at every level below. -/
structure Place.Closed (place : Place) (body : Members) : Prop where
  known : ∀ name ∈ body.names, name ∈ place.fields
  nested : ∀ entry ∈ place.nested, Within (body.get entry.1) entry.2
  listed : ∀ entry ∈ place.listed, ∀ item ∈ (body.get entry.1).items, Within item entry.2

/-- Places with the same sets are closed alike. -/
theorem Place.Closed.elsewhere {place other : Place} {body : Members} (h : place.Closed body)
    (hf : other.fields = place.fields) (hn : other.nested = place.nested) (hl : other.listed = place.listed) :
    other.Closed body where
  known := by
    rw [hf]
    exact h.known
  nested := by
    rw [hn]
    exact h.nested
  listed := by
    rw [hl]
    exact h.listed

variable (P : Platform)

/-- The snapshots an accepting call trusted, in their wrappers. -/
inductive TrustedAt (inp : Members) : Operation → JsonValue → Prop
  | tct {op revlist body} : op ∈ tctOperations → inp.get (txt "issuer_revocation_list") = .dict revlist →
      verifySnapshotTrust P (Members.get revlist (txt "snapshot")) = .ok body →
      TrustedAt inp op (Members.get revlist (txt "snapshot"))
  | delegation {records record body} : inp.get (txt "revocation_snapshots") = .list records → record ∈ records →
      verifySnapshotTrust P (record.members.get (txt "snapshot")) = .ok body →
      TrustedAt inp .delegationToken (record.members.get (txt "snapshot"))
  | revocationSnapshot {snapshot body} : inp.get? (txt "snapshot") = some snapshot →
      verifySnapshotTrust P snapshot = .ok body → TrustedAt inp .revocationSnapshot snapshot

/-- Every object with a declared member set that an accepted input carries. -/
inductive ClosedObject (inp : Members) : Operation → JsonValue → List Text → Prop
  | artifact {op place body} : VerifiedAt P inp op place body → ClosedObject inp op (.dict body) place.fields
  | nested {op place} {body : Members} {entry : Text × List Text} : VerifiedAt P inp op place body → entry ∈ place.nested →
      ClosedObject inp op (body.get entry.1) entry.2
  | listed {op place} {body : Members} {entry : Text × List Text} {item} : VerifiedAt P inp op place body → entry ∈ place.listed →
      item ∈ (body.get entry.1).items → ClosedObject inp op item entry.2
  | snapshotWrapper {op snapshot} : TrustedAt P inp op snapshot → ClosedObject inp op snapshot snapshotFields
  | bundleWrapper {outer} : inp.get? (txt "session_bundle") = some outer →
      ClosedObject inp .sessionBundle outer [txt "session_bundle"]
  | commitEnvelope {env : Members} : (inp.has (txt "peer_a") && inp.has (txt "peer_b")) = false →
      inp.get (txt "envelope") = .dict env → messageType env ∈ commitTypes →
      ClosedObject inp .handshakePayload (.dict env) envelopeFields
  | commitSender {env : Members} : (inp.has (txt "peer_a") && inp.has (txt "peer_b")) = false →
      inp.get (txt "envelope") = .dict env → messageType env ∈ commitTypes →
      ClosedObject inp .handshakePayload (env.get (txt "sender")) senderFields
  | commitPayload {env : Members} : (inp.has (txt "peer_a") && inp.has (txt "peer_b")) = false →
      inp.get (txt "envelope") = .dict env → messageType env ∈ commitTypes →
      ClosedObject inp .handshakePayload (env.get (txt "payload")) commitPayloadFields
  | sidePayload {side peer payload} : (inp.has (txt "peer_a") && inp.has (txt "peer_b")) = true →
      side ∈ [txt "peer_a", txt "peer_b"] → inp.get? side = some peer →
      peer.attrGet (txt "received_payload") (.dict []) = .ok payload →
      ClosedObject inp .handshakePayload payload commitPayloadFields
  | helloPayload {env : Members} : (inp.has (txt "peer_a") && inp.has (txt "peer_b")) = false →
      inp.get (txt "envelope") = .dict env → messageType env = txt "mutual_hello" →
      ClosedObject inp .handshakePayload (env.get (txt "payload")) helloPayloadFields
  | helloAckPayload {env : Members} : (inp.has (txt "peer_a") && inp.has (txt "peer_b")) = false →
      inp.get (txt "envelope") = .dict env → messageType env = txt "mutual_hello_ack" →
      ClosedObject inp .handshakePayload (env.get (txt "payload")) helloAckPayloadFields
  | identity {env : Members} : (inp.has (txt "peer_a") && inp.has (txt "peer_b")) = false →
      inp.get (txt "envelope") = .dict env → messageType env ∈ bootstrapTypes →
      ClosedObject inp .handshakePayload ((payloadOf env).get (txt "identity")) identityFields

/-! ### One artifact at a time -/

section Artifacts

variable {P}

theorem within_member {body : Members} {required : List Text} {types : List (Text × PyType)} {key : Text}
    {fields : List Text} (hs : Shaped body required types) (hr : key ∈ required) (ht : (key, .dict) ∈ types)
    (h : ∀ name ∈ (body.get key).members.names, name ∈ fields) : Within (body.get key) fields := by
  obtain ⟨members, hm⟩ := hs.dict hr ht
  rw [hm] at h ⊢
  exact .intro h

theorem EnvelopeShape.closed {env : Members} (h : EnvelopeShape env) : Place.envelope.Closed env where
  known := h.known
  nested := by
    intro entry hm
    rw [List.mem_singleton.mp hm]
    exact within_member h.shaped (by simp [requiredEnvelopeFields]) (by simp [envelopeTypes]) h.senderKnown
  listed := by simp [Place.listed]

theorem TctShape.closed {claims : Members} (h : TctShape claims) : Place.tct.Closed claims where
  known := h.known
  nested := by
    intro entry hm
    rw [List.mem_singleton.mp hm]
    exact within_member h.shaped (by simp [tctRequiredClaims]) (by simp [tctClaimTypes]) h.cnfKnown
  listed := by simp [Place.listed]

theorem DelegationShape.closed {claims : Members} (h : DelegationShape claims) : Place.hop.Closed claims where
  known := h.known
  nested := by
    intro entry hm
    rw [List.mem_singleton.mp hm]
    exact within_member h.shaped (by simp [delegationRequiredClaims]) (by simp [delegationClaimTypes]) h.cnfKnown
  listed := by simp [Place.listed]

theorem VoucherShape.closed {claims : Members} (h : VoucherShape claims) : Place.grantVoucher.Closed claims where
  known := h.known
  nested := by simp [Place.nested]
  listed := by simp [Place.listed]

theorem ManifestAccepted.closed {inp : Members} {now : Int} {body : Members} {aid : Aid}
    (h : ManifestAccepted P inp now body aid) : Place.manifest.Closed body where
  known := h.known
  nested := by
    intro entry hm
    cases List.mem_cons.mp hm with
    | inl heq =>
      rw [heq]
      exact within_member h.shaped (by simp [requiredManifestFields]) (by simp [manifestTypes]) h.popKnown
    | inr hm =>
      rw [List.mem_singleton.mp hm]
      exact within_member h.shaped (by simp [requiredManifestFields]) (by simp [manifestTypes]) h.hintKnown
  listed := by simp [Place.listed]

theorem verifyManifest_closed {inp : Members} {now : Int} {man r : Members}
    (hm : inp.get? (txt "manifest") = some (.dict man)) (h : verifyManifest P inp now = .ok r) :
    Place.manifest.Closed man := by
  obtain ⟨body, aid, hbody, ha, _⟩ := (verifyManifest_eq_ok P).mp h
  obtain rfl := JsonValue.dict.inj (Option.some.inj (hm.symm.trans hbody))
  exact ha.closed

theorem verifySnapshotTrust_closed {snapshot : JsonValue} {body : Members} (h : verifySnapshotTrust P snapshot = .ok body) :
    Within snapshot snapshotFields ∧ Place.snapshot.Closed body := by
  simp only [verifySnapshotTrust, bind_eq_ok, exists_unit, rejectUnknownFields_eq_ok, JsonValue.dict.injEq,
    exists_eq_left', forEach_eq_ok] at h
  obtain ⟨⟨wrapper, list⟩, hshape, hwrapper, hlist, hentries, _, _, _, _, _, _, _, hbody⟩ := h
  obtain ⟨rfl, _, _⟩ := validateSnapshotShape_eq_ok P hshape
  obtain rfl := Except.ok.inj hbody
  refine ⟨.intro hwrapper, hlist, by simp [Place.nested], ?_⟩
  intro entry hm item hi
  rw [List.mem_singleton.mp hm] at hi ⊢
  exact hentries item hi

theorem BundleRun.closed {inp body man : Members} {now : Int} {coord : Aid} (h : BundleRun P inp now body man coord) :
    Place.bundle.Closed body := by
  have hshape := h.shape
  simp only [checkBundleShape, bind_eq_ok, exists_unit, rejectUnknownFields_eq_ok, JsonValue.dict.injEq,
    exists_eq_left', forEach_eq_ok] at hshape
  obtain ⟨_, _, hknown, hentries, _⟩ := hshape
  refine ⟨hknown, by simp [Place.nested], ?_⟩
  intro entry hm item hi
  rw [List.mem_singleton.mp hm] at hi ⊢
  have hitem := hentries item hi
  unfold checkParticipantShape at hitem
  split at hitem
  · simp only [bind_eq_ok, exists_unit, rejectUnknownFields_eq_ok] at hitem
    exact hitem.2.2
  · cases hitem

theorem BundleRun.wrapper_closed {inp body man : Members} {now : Int} {coord : Aid}
    (h : BundleRun P inp now body man coord) {outer : JsonValue} (ho : inp.get? (txt "session_bundle") = some outer) :
    Within outer [txt "session_bundle"] := by
  obtain ⟨wrapper, hw, hunwrap⟩ := h.wrapped
  obtain rfl := Option.some.inj (ho.symm.trans hw)
  simp only [unwrapBundle, bind_eq_ok, exists_unit, raiseIf_eq_ok, Bool.not_eq_false', List.isEmpty_iff,
    List.filter_eq_nil_iff, bne_iff_ne, ne_eq, not_not] at hunwrap
  exact .intro fun name hn => List.mem_singleton.mpr (hunwrap.2.1 name hn)

end Artifacts

/-! ### Every place of every entry point -/

theorem verifyCommit_closed {inp : Members} {payload selfAid grants : JsonValue} {now : Int}
    (h : verifyCommit P inp payload selfAid now = .ok grants) : Within payload commitPayloadFields := by
  simp only [verifyCommit, bind_eq_ok, exists_unit, rejectUnknownFields_eq_ok] at h
  exact h.1

theorem verifyIdentity_closed {identity env : Members} {selfAid : JsonValue} {config : IdentityConfig} {now : Int}
    (h : verifyIdentity P identity env selfAid config now = .ok ()) : Within (.dict identity) identityFields := by
  simp only [verifyIdentity, bind_eq_ok, exists_unit, rejectUnknownFields_eq_ok] at h
  exact h.1

/-- The payload, the Manifest and the identity of an accepted bootstrap message. -/
theorem verifyBootstrap_closed {inp env : Members} {now : Int} {r : Members}
    (h : verifyBootstrap P inp env now = .ok r) :
    Within (env.get (txt "payload"))
        (if messageType env = txt "mutual_hello_ack" then helloAckPayloadFields else helloPayloadFields) ∧
      (∀ man : Members, (payloadOf env).get (txt "manifest") = .dict man → Place.manifest.Closed man) ∧
      Within ((payloadOf env).get (txt "identity")) identityFields := by
  simp only [verifyBootstrap, checkHelloPayload, bind_eq_ok, exists_unit, rejectUnknownFields_eq_ok] at h
  obtain ⟨⟨hpayload, _⟩, _, identity, hidentity, _⟩ := h
  refine ⟨hpayload, ?_⟩
  unfold checkHelloIdentity at hidentity
  rw [bind_eq_ok] at hidentity
  obtain ⟨r, hr, hidentity⟩ := hidentity
  rw [bind_eq_ok] at hidentity
  obtain ⟨_, _, hidentity⟩ := hidentity
  constructor
  · intro man hman
    have hman : (env.get (txt "payload")).members.get (txt "manifest") = .dict man := hman
    rw [hman] at hr
    exact verifyManifest_closed rfl hr
  · split at hidentity
    · rename_i found hfound
      simp only [bind_eq_ok, exists_unit] at hidentity
      have hfound : (payloadOf env).get (txt "identity") = .dict found := hfound
      rw [hfound]
      exact verifyIdentity_closed P hidentity.2.1
    · cases hidentity

variable {P} in
/-- What was established of an artifact includes that it is closed. -/
theorem Place.Established.closed {defaults : Prop} {body : Members} {place : Place} (h : place.Established P defaults body) :
    place.Closed body := by
  have hmanifest (hverified : ManifestVerified P defaults body) : Place.manifest.Closed body := by
    obtain ⟨call, now, r, hman, _, hr⟩ := hverified
    exact verifyManifest_closed hman hr
  cases place with
  | envelope => exact EnvelopeShape.closed h
  | manifest | issuerManifest | coordinatorManifest => exact (hmanifest h).elsewhere rfl rfl rfl
  | tct | commitTct | sideTct => exact (TctShape.closed h.1).elsewhere rfl rfl rfl
  | participantTct => exact (TctShape.closed h).elsewhere rfl rfl rfl
  | grantVoucher => exact VoucherShape.closed h.1
  | embeddedVoucher => exact (VoucherShape.closed h).elsewhere rfl rfl rfl
  | singleHop => exact (DelegationShape.closed h).elsewhere rfl rfl rfl
  | hop => exact DelegationShape.closed h.1
  | snapshot =>
    obtain ⟨wrapper, hb⟩ := h
    exact (verifySnapshotTrust_closed hb).2
  | bundle =>
    obtain ⟨inp, now, man, coord, hrun⟩ := h
    exact hrun.closed

/-- The artifact at every place is closed. -/
theorem VerifiedAt.closed {op : Operation} {inp body : Members} {now : Int} {place : Place}
    (hv : VerifiedAt P inp op place body) (h : op.Returns P inp now) : place.Closed body :=
  (hv.established P h).closed

theorem TrustedAt.closed {inp : Members} {op : Operation} {snapshot : JsonValue} (h : TrustedAt P inp op snapshot) :
    Within snapshot snapshotFields := by
  cases h with
  | tct _ _ hb => exact (verifySnapshotTrust_closed hb).1
  | delegation _ _ hb => exact (verifySnapshotTrust_closed hb).1
  | revocationSnapshot _ hb => exact (verifySnapshotTrust_closed hb).1

/-- Both sides of an accepted exchange have closed payloads. -/
theorem verifyHandshakePayload_sides_closed {inp : Members} {now : Int} {r : Members} {side : Text} {peer payload : JsonValue}
    (hpair : (inp.has (txt "peer_a") && inp.has (txt "peer_b")) = true) (hside : side ∈ [txt "peer_a", txt "peer_b"])
    (hp : inp.get? side = some peer) (hpay : peer.attrGet (txt "received_payload") (.dict []) = .ok payload)
    (h : verifyHandshakePayload P inp now = .ok r) : Within payload commitPayloadFields := by
  have hclosed {grants : JsonValue} (hv : verifyCommitSide P inp side now = .ok grants) :
      Within payload commitPayloadFields := by
    simp only [verifyCommitSide, bind_eq_ok, Members.index_eq_ok, hp, Option.some.injEq, exists_eq_left', hpay,
      Except.ok.injEq] at hv
    obtain ⟨_, _, hv⟩ := hv
    exact verifyCommit_closed P hv
  simp only [verifyHandshakePayload, hpair, if_true, bind_eq_ok] at h
  obtain ⟨_, ha, _, hb, _⟩ := h
  cases List.mem_cons.mp hside with
  | inl heq =>
    subst heq
    exact hclosed ha
  | inr hm =>
    obtain rfl := List.mem_singleton.mp hm
    exact hclosed hb

/-- Every object of an accepted input that has a declared member set stays inside it. -/
theorem accepted_members_closed (op : Operation) (inp : Members) (now : Int) (h : op.Returns P inp now) :
    ∀ value fields, ClosedObject P inp op value fields → Within value fields := by
  intro value fields ho
  cases ho with
  | artifact hv => exact .intro (hv.closed P h).known
  | nested hv hm => exact (hv.closed P h).nested _ hm
  | listed hv hm hi => exact (hv.closed P h).listed _ hm _ hi
  | snapshotWrapper ht => exact ht.closed P
  | bundleWrapper ho =>
    obtain ⟨clock, r, hclock, hr⟩ := h
    obtain ⟨body, man, coord, hrun⟩ := verifySessionBundle_run P hclock hr
    exact hrun.wrapper_closed ho
  | commitEnvelope hpair he _ =>
    obtain ⟨r, hr⟩ := h
    exact .intro (verifyHandshakePayload_message P hpair he hr).1.known
  | commitSender hpair he _ =>
    obtain ⟨r, hr⟩ := h
    exact (verifyHandshakePayload_message P hpair he hr).1.closed.nested _ (List.mem_singleton.mpr rfl)
  | commitPayload hpair he hm =>
    obtain ⟨r, hr⟩ := h
    obtain ⟨grants, hg⟩ := verifyMessage_commit P hm (verifyHandshakePayload_message P hpair he hr).2
    exact verifyCommit_closed P hg
  | sidePayload hpair hside hp hpay =>
    obtain ⟨r, hr⟩ := h
    exact verifyHandshakePayload_sides_closed P hpair hside hp hpay hr
  | helloPayload hpair he hm =>
    obtain ⟨r, hr⟩ := h
    have hboot := verifyMessage_bootstrap P (hm ▸ by decide) (verifyHandshakePayload_message P hpair he hr).2
    have hpayload := (verifyBootstrap_closed P hboot).1
    rwa [hm, if_neg (by decide)] at hpayload
  | helloAckPayload hpair he hm =>
    obtain ⟨r, hr⟩ := h
    have hboot := verifyMessage_bootstrap P (hm ▸ by decide) (verifyHandshakePayload_message P hpair he hr).2
    have hpayload := (verifyBootstrap_closed P hboot).1
    rwa [hm, if_pos rfl] at hpayload
  | identity hpair he hm =>
    obtain ⟨r, hr⟩ := h
    have hboot := verifyMessage_bootstrap P hm (verifyHandshakePayload_message P hpair he hr).2
    exact (verifyBootstrap_closed P hboot).2.2

/-- The two-token delegation to agent B is accepted, and with it agent A's snapshot. -/
theorem accepted_members_closed_lastHop : Within (snapshotOf agentA snapshotSignatureA) snapshotFields := by
  have htrusted : (verifySnapshotTrust delegationRecording.platform (snapshotOf agentA snapshotSignatureA)).isOk = true := by
    decide +kernel
  obtain ⟨body, hbody⟩ := isOk_iff.mp htrusted
  have hrecord := @TrustedAt.delegation delegationRecording.platform (delegationInput lastHopToken) _
    (.dict [(txt "snapshot", snapshotOf agentA snapshotSignatureA)]) body rfl List.mem_cons_self hbody
  exact accepted_members_closed delegationRecording.platform .delegationToken (delegationInput lastHopToken) referenceClock
    ⟨_, lastHop_accepted⟩ _ _ (.snapshotWrapper hrecord)

end AitpVerifier
