import AitpVerifier.Handshake
import AitpVerifier.IdentityProven

/-!
# Accepted greetings tie everything to one key

A bootstrap message is accepted after five modules have each made their check. Put
together they name one sender, and one key for its Manifest, its proof of possession
and its envelope.
-/
namespace AitpVerifier

open PyText Checked

variable (P : Platform)

/-- The identity types a receiver accepts: its own list, `oidc` without one, and none
when what it configured is no list. -/
def AcceptsType (inp : Members) (type : Text) : Prop :=
  match inp.get? (txt "self_accepted_identity_types") with
  | none => type = txt "oidc"
  | some (.list types) => .str type ∈ types
  | some _ => False

theorem mem_stringList {value : JsonValue} {s : Text} : s ∈ stringList value ↔ .str s ∈ value.items := by
  simp only [stringList, List.mem_map, List.mem_filter]
  constructor
  · intro h
    obtain ⟨item, ⟨hm, hstr⟩, rfl⟩ := h
    obtain ⟨t, rfl⟩ := JsonValue.isStr_iff.mp hstr
    exact hm
  · intro h
    exact ⟨.str s, ⟨h, rfl⟩, rfl⟩

theorem mem_acceptedIdentityTypes {inp : Members} {type : Text} :
    type ∈ acceptedIdentityTypes inp ↔ AcceptsType inp type := by
  unfold acceptedIdentityTypes AcceptsType
  cases inp.get? (txt "self_accepted_identity_types") with
  | none => simp
  | some value =>
    rw [mem_stringList]
    cases value <;> simp [JsonValue.items]

/-- The receiver's own AID, as its input gives it. -/
def receiverAid (inp : Members) : JsonValue := (inp.get? (txt "self_aid")).getD (.str [])

/-- An accepted greeting: its envelope, Manifest, identity, and the one key. -/
structure HelloAccepted (inp : Members) (now : Int) (env man identity : Members) (key : Aid) : Prop where
  shape : EnvelopeShape env
  manifest : (env.get (txt "payload")).members.get (txt "manifest") = .dict man
  manifestVerified : ∃ r, verifyManifest P [(txt "manifest", .dict man), (txt "now", .int now)] now = .ok r
  sender : man.get (txt "aid") = senderAgentId env
  senderKey : parseAid P (senderAgentId env).text = .ok key
  manifestSigned : BodySigned P man key
  possession : PossessionProven P man key
  envelopeSigned : EnvelopeSigned P env key
  descriptor : (env.get (txt "payload")).members.get (txt "identity") = .dict identity
  identityVerified : verifyIdentity P identity env (receiverAid inp) (identityConfig inp) now = .ok ()
  hinted : identity.get (txt "type") = (man.get (txt "identity_hint")).members.get (txt "type")
  accepted : ∃ type, identity.get (txt "type") = .str type ∧ AcceptsType inp type
  addressed : messageType env = txt "mutual_hello_ack" → inp.has (txt "peer_aid") →
    senderAgentId env = inp.get (txt "peer_aid")
  echoed : messageType env = txt "mutual_hello_ack" → inp.has (txt "sent_pop_nonce") →
    ((env.get (txt "payload")).members.get (txt "pop_nonce_echo")).eq (inp.get (txt "sent_pop_nonce"))

/-! ### One check at a time -/

theorem checkPeer_eq_ok {inp env : Members} (hs : ∃ s, senderAgentId env = .str s) (h : checkPeer inp env = .ok ()) :
    messageType env = txt "mutual_hello_ack" → inp.has (txt "peer_aid") → senderAgentId env = inp.get (txt "peer_aid") := by
  intro hack hpeer
  obtain ⟨s, hs⟩ := hs
  rw [checkPeer, raiseIf_eq_ok, hack, hpeer, hs] at h
  have heq : (JsonValue.str s).eq (inp.get (txt "peer_aid")) = true := by simpa using h
  rw [JsonValue.str_eq] at heq
  rw [hs, heq]

theorem checkNonceEcho_eq_ok {inp env : Members} (h : checkNonceEcho inp env = .ok ()) :
    messageType env = txt "mutual_hello_ack" → inp.has (txt "sent_pop_nonce") →
      ((env.get (txt "payload")).members.get (txt "pop_nonce_echo")).eq (inp.get (txt "sent_pop_nonce")) := by
  intro hack hsent
  rw [checkNonceEcho, raiseIf_eq_ok, hack, hsent] at h
  simpa using h

/-- The Manifest and the identity of an accepted greeting. -/
theorem checkHelloIdentity_eq_ok {inp env : Members} {now : Int} {identity : Members}
    (hs : ∃ s, senderAgentId env = .str s) (h : checkHelloIdentity P inp env now = .ok identity) :
    ∃ (man : Members) (key : Aid), (env.get (txt "payload")).members.get (txt "manifest") = .dict man ∧
      (∃ r, verifyManifest P [(txt "manifest", .dict man), (txt "now", .int now)] now = .ok r) ∧
      man.get (txt "aid") = senderAgentId env ∧
      ManifestAccepted P [(txt "manifest", .dict man), (txt "now", .int now)] now man key ∧
      (env.get (txt "payload")).members.get (txt "identity") = .dict identity ∧
      identity.get (txt "type") = (man.get (txt "identity_hint")).members.get (txt "type") ∧
      verifyIdentity P identity env (receiverAid inp) (identityConfig inp) now = .ok () := by
  obtain ⟨sender, hsender⟩ := hs
  simp only [checkHelloIdentity] at h
  rw [bind_eq_ok] at h
  obtain ⟨r, hr, h⟩ := h
  obtain ⟨man, key, hman, haccepted, _⟩ := (verifyManifest_eq_ok P).mp hr
  have hman : (env.get (txt "payload")).members.get (txt "manifest") = .dict man := Option.some.inj hman
  have hbody : (JsonValue.dict man).members = man := rfl
  rw [hman, hbody] at h
  rw [hman] at hr haccepted
  rw [bind_eq_ok] at h
  obtain ⟨_, hsame, h⟩ := h
  rw [raiseIf_eq_ok, Bool.not_eq_false', hsender, JsonValue.eq_str] at hsame
  split at h
  · rename_i found hidentity
    simp only [bind_eq_ok, exists_unit, raiseIf_eq_ok, Bool.not_eq_false', Except.ok.injEq] at h
    obtain ⟨htype, hverified, rfl⟩ := h
    obtain ⟨hint, hh⟩ := haccepted.hintShaped.str (k := txt "type") (by simp [requiredIdentityHintFields])
      (by simp [identityHintTypes])
    rw [hh, JsonValue.str_eq] at htype
    exact ⟨man, key, hman, ⟨r, hr⟩, by rw [hsame, hsender], haccepted, hidentity, by rw [hh, htype], hverified⟩
  · cases h

/-- The whole bootstrap branch. -/
theorem verifyBootstrap_accepted {inp env : Members} {now : Int} {r : Members} (hshape : EnvelopeShape env)
    (h : verifyBootstrap P inp env now = .ok r) : ∃ man identity key, HelloAccepted P inp now env man identity key := by
  simp only [verifyBootstrap, bind_eq_ok, exists_unit, raiseWith_eq_ok, Bool.not_eq_false', Except.ok.injEq,
    verifyEnvelopeSignature_eq_ok, List.any_eq_true] at h
  obtain ⟨_, hpeer, identity, hidentity, key, hkey, hsigned, ⟨type, htype, htypes⟩, hecho, _⟩ := h
  obtain ⟨man, own, hman, hverified, hsender, haccepted, hdescriptor, hhint, hproven⟩ :=
    checkHelloIdentity_eq_ok P hshape.sender hidentity
  -- the Manifest's own key is the sender's
  have hown := haccepted.key
  rw [hsender, hkey] at hown
  obtain rfl := Except.ok.inj hown
  exact ⟨man, identity, key, hshape, hman, hverified, hsender, hkey, haccepted.signed, haccepted.possession, hsigned,
    hdescriptor, hproven, hhint, ⟨type, (JsonValue.eq_str _ _).mp htypes, mem_acceptedIdentityTypes.mp htype⟩,
    checkPeer_eq_ok hshape.sender hpeer, checkNonceEcho_eq_ok hecho⟩

/-- Every accepted greeting, of either message type, ties Manifest, proof of possession,
identity and envelope to the key of its sender. -/
theorem verifyHandshakePayload_hello (inp : Members) (now : Int) (env r : Members)
    (hsides : (inp.has (txt "peer_a") && inp.has (txt "peer_b")) = false) (henv : inp.get (txt "envelope") = .dict env)
    (htype : messageType env ∈ bootstrapTypes) (h : verifyHandshakePayload P inp now = .ok r) :
    ∃ man identity key, HelloAccepted P inp now env man identity key := by
  simp only [verifyHandshakePayload, hsides, Bool.false_eq_true, if_false, bind_eq_ok, henv,
    validateEnvelopeShape_eq_ok, JsonValue.dict.injEq] at h
  obtain ⟨_, ⟨rfl, hshape⟩, h⟩ := h
  have hbootstrap : bootstrapTypes.contains (messageType env) = true := List.contains_iff_mem.mpr htype
  rw [verifyMessage, if_pos hbootstrap] at h
  exact verifyBootstrap_accepted P hshape h

/-- What agent B verifies of agent A's acknowledgement. -/
def ackInput : Members :=
  [(txt "envelope", .dict ackEnvelope), (txt "self_aid", .str (aidOf agentB)), (txt "peer_aid", .str (aidOf agentA)),
    (txt "sent_pop_nonce", .str ackEcho), (txt "trust_store", .list [.str agentA]),
    (txt "self_accepted_identity_types", .list [.str (txt "pinned_key")])]

theorem verifyHandshakePayload_hello_ack :
    ∃ man identity key, HelloAccepted ackRecording.platform ackInput referenceClock ackEnvelope man identity key :=
  verifyHandshakePayload_hello ackRecording.platform ackInput referenceClock ackEnvelope okResult (by decide +kernel)
    (by decide +kernel) (by decide +kernel) (by decide +kernel)

end AitpVerifier
