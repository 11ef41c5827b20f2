import AitpVerifier.Base64Forms
import AitpVerifier.SameValue
import AitpVerifier.SigningInputs

/-!
# Reading a handshake proof input back

Four fields closed by a NUL and a nonce of any length and content. The AIDs and the
numeral of the timestamp hold no NUL; a message id may, and a nonce may. The input reads
back one way exactly when neither holds another numeral between two closing NULs.
-/
namespace AitpVerifier

open PyText Checked

/-! ### NUL in UTF-8 -/

/-- Only NUL is written with a zero octet. -/
theorem zero_mem_utf8Char {c : CodePoint} (h : (0 : UInt8) ∈ utf8Char c) : c = 0 := by
  have hnonzero {n : Nat} (hn : 0 < n) (hlt : n < 256) : (0 : UInt8) ≠ .ofNat n := by
    intro he
    have hz : UInt8.ofNat 0 = UInt8.ofNat n := he
    have := (octet_inj (by omega) hlt).mp hz
    omega
  have hlt := c.isLt
  unfold utf8Char at h
  dsimp only at h
  split_ifs at h <;> simp only [List.mem_cons, List.not_mem_nil, or_false] at h
  · by_contra hc
    have hpos : 0 < c.val := Nat.pos_of_ne_zero fun hz => hc (Fin.ext hz)
    exact hnonzero hpos (by omega) h
  · rcases h with h | h
    · exact absurd h (hnonzero (by omega) (by omega))
    · exact absurd h (hnonzero (by omega) (by omega))
  · rcases h with h | h | h
    · exact absurd h (hnonzero (by omega) (by omega))
    · exact absurd h (hnonzero (by omega) (by omega))
    · exact absurd h (hnonzero (by omega) (by omega))
  · rcases h with h | h | h | h
    · exact absurd h (hnonzero (by omega) (by omega))
    · exact absurd h (hnonzero (by omega) (by omega))
    · exact absurd h (hnonzero (by omega) (by omega))
    · exact absurd h (hnonzero (by omega) (by omega))

theorem zero_mem_utf8 {s : Text} {octets : Bytes} (h : utf8? s = some octets) (hz : (0 : UInt8) ∈ octets) :
    (0 : CodePoint) ∈ s := by
  obtain ⟨_, rfl⟩ := utf8?_eq_some_iff.mp h
  obtain ⟨c, hc, hzero⟩ := List.mem_flatMap.mp hz
  rw [← zero_mem_utf8Char hzero]
  exact hc

theorem flatMap_utf8Char_split {s : Text} {a b : Bytes} (h : s.flatMap utf8Char = a ++ 0 :: b) :
    ∃ p q, s = p ++ 0 :: q ∧ p.flatMap utf8Char = a ∧ q.flatMap utf8Char = b := by
  induction s generalizing a with
  | nil => simp at h
  | cons c rest ih =>
    rw [List.flatMap_cons] at h
    by_cases hc : c = 0
    · subst hc
      have hnul : utf8Char 0 = [0] := by decide
      rw [hnul] at h
      cases a with
      | nil =>
        rw [List.nil_append, List.cons_append, List.nil_append, List.cons.injEq] at h
        exact ⟨[], rest, rfl, rfl, h.2⟩
      | cons d a =>
        rw [List.cons_append, List.nil_append, List.cons_append, List.cons.injEq] at h
        obtain ⟨p, q, rfl, hp, hq⟩ := ih h.2
        refine ⟨0 :: p, q, rfl, ?_, hq⟩
        rw [List.flatMap_cons, hnul, hp, h.1]
        rfl
    · have hfree : (0 : UInt8) ∉ utf8Char c := fun hz => hc (zero_mem_utf8Char hz)
      rcases List.append_eq_append_iff.mp h with ⟨d, ha, hrest⟩ | ⟨d, hchar, hb⟩
      · obtain ⟨p, q, rfl, hp, hq⟩ := ih hrest
        refine ⟨c :: p, q, rfl, ?_, hq⟩
        rw [List.flatMap_cons, hp, ha]
      · cases d with
        | nil =>
          rw [List.append_nil] at hchar
          obtain ⟨p, q, rfl, hp, hq⟩ := ih (a := []) (by simpa using hb.symm)
          refine ⟨c :: p, q, rfl, ?_, hq⟩
          rw [List.flatMap_cons, hp, List.append_nil, hchar]
        | cons e d =>
          rw [List.cons_append, List.cons.injEq] at hb
          rw [hchar, ← hb.1] at hfree
          exact absurd (by simp) hfree

/-- A zero octet of a text's encoding is a NUL of the text. -/
theorem utf8?_split {s : Text} {a b : Bytes} (h : utf8? s = some (a ++ 0 :: b)) :
    ∃ p q, s = p ++ 0 :: q ∧ utf8? p = some a ∧ utf8? q = some b := by
  obtain ⟨hw, heq⟩ := utf8?_eq_some_iff.mp h
  obtain ⟨p, q, rfl, hp, hq⟩ := flatMap_utf8Char_split heq
  rw [wellFormed_append, wellFormed_cons] at hw
  exact ⟨p, q, rfl, utf8?_eq_some_iff.mpr ⟨hw.1, hp⟩, utf8?_eq_some_iff.mpr ⟨hw.2.2, hq⟩⟩

theorem utf8?_join {p q : Text} {a b : Bytes} (hp : utf8? p = some a) (hq : utf8? q = some b) :
    utf8? (p ++ 0 :: q) = some (a ++ 0 :: b) := by
  obtain ⟨hwp, rfl⟩ := utf8?_eq_some_iff.mp hp
  obtain ⟨hwq, rfl⟩ := utf8?_eq_some_iff.mp hq
  refine utf8?_eq_some_iff.mpr ⟨wellFormed_append.mpr ⟨hwp, wellFormed_cons.mpr ⟨by decide, hwq⟩⟩, ?_⟩
  rw [List.flatMap_append, List.flatMap_cons]
  rfl

/-- A text with a NUL in it is encoded in parts. -/
theorem utf8?_parts {p q : Text} {octets : Bytes} (h : utf8? (p ++ 0 :: q) = some octets) :
    ∃ a b, utf8? p = some a ∧ utf8? q = some b ∧ octets = a ++ 0 :: b := by
  obtain ⟨hw, rfl⟩ := utf8?_eq_some_iff.mp h
  rw [wellFormed_append, wellFormed_cons] at hw
  refine ⟨_, _, utf8?_eq_some hw.1, utf8?_eq_some hw.2.2, ?_⟩
  rw [List.flatMap_append, List.flatMap_cons]
  rfl

/-! ### Numerals and identifiers -/

/-- A numeral `str` writes for a natural number. -/
def Numeral (n : Nat) : Prop := (decimal n).length ≤ maxIntDigits

/-- Its octets. -/
def numeralOctets (n : Nat) : Bytes := asciiOctets (decimal n)

theorem utf8?_decimal (n : Nat) : utf8? (decimal n) = some (numeralOctets n) :=
  utf8?_ascii fun c hc => by
    have hdigit := mem_decimal hc
    omega

theorem zero_not_mem_numeral (n : Nat) : (0 : UInt8) ∉ numeralOctets n := by
  intro hz
  have hmem := zero_mem_utf8 (utf8?_decimal n) hz
  have hdigit := mem_decimal hmem
  simp at hdigit

theorem numeralOctets_inj {m n : Nat} (h : numeralOctets m = numeralOctets n) : m = n := by
  have htext : decimal m = decimal n := utf8?_injective (utf8?_decimal m) (by rw [h, utf8?_decimal])
  exact Jcs.decimal_injective htext

theorem intText_natural {i : Int} (hi : 0 ≤ i) {text : Text} :
    intText i = .ok text ↔ Numeral i.natAbs ∧ text = decimal i.natAbs := by
  simp only [intText, Numeral, bind_eq_ok, exists_unit, raiseIf_eq_ok, decide_eq_false_iff_not, not_lt, Except.ok.injEq,
    if_neg (not_lt.mpr hi), List.nil_append]
  exact and_congr_right fun _ => eq_comm

theorem zero_not_mem_ident {s : Text} (h : ∀ c ∈ s, (sextet? c).isSome) : (0 : CodePoint) ∉ s := by
  intro hz
  exact absurd (h 0 hz) (by decide)

/-- No identifier holds a NUL. -/
theorem zero_not_mem_aid {aid : Text} (h : InGrammar aid) : (0 : CodePoint) ∉ aid := by
  obtain ⟨hpre, _, hident⟩ := h
  obtain ⟨rest, rfl⟩ := List.isPrefixOf_iff_prefix.mp hpre
  have hdrop : (aidPrefix ++ rest).drop 11 = rest := List.drop_left' (by decide)
  rw [hdrop] at hident
  have hrest : (0 : CodePoint) ∉ rest := by
    have htag {tag : Text} {n : Nat} (hlen : tag.length = n) (hfree : (0 : CodePoint) ∉ tag) (htag : tag.isPrefixOf rest)
        (hident : ∀ c ∈ rest.drop n, (sextet? c).isSome) : (0 : CodePoint) ∉ rest := by
      obtain ⟨tail, rfl⟩ := List.isPrefixOf_iff_prefix.mp htag
      rw [List.drop_left' hlen] at hident
      rw [List.mem_append, not_or]
      exact ⟨hfree, zero_not_mem_ident hident⟩
    unfold splitIdent at hident
    split_ifs at hident with hed hp
    · exact htag (by decide) (by decide) hed hident
    · exact htag (by decide) (by decide) hp hident
    · exact zero_not_mem_ident hident
  rw [List.mem_append, not_or]
  exact ⟨by decide, hrest⟩

/-! ### The five fields -/

variable (P : Platform)

/-- What a handshake proof names. -/
structure ProofFields where
  sender : Text
  receiver : Text
  messageId : Text
  timestamp : JsonValue
  popNonce : Text

namespace ProofFields

/-- The octets the proof's signature covers. -/
def input (f : ProofFields) (domain : Text) : PyM Bytes :=
  handshakeProofInput domain (.str f.sender) (.str f.receiver) (.str f.messageId) f.timestamp.intValue (.str f.popNonce)

/-- Fields of two parsed AIDs, a shape-valid envelope and a nonce that decodes. -/
structure Admitted (f : ProofFields) : Prop where
  sender : ∃ aid, parseAid P f.sender = .ok aid
  receiver : ∃ aid, parseAid P f.receiver = .ok aid
  message : ∃ env : Members, validateEnvelopeShape P (.dict env) = .ok env ∧ env.get (txt "message_id") = .str f.messageId ∧
    env.get (txt "timestamp") = f.timestamp
  nonce : ∃ data, b64urlDecode f.popNonce = .ok data

/-- The same five fields, the timestamp as an integer and the nonce as octets. -/
structure Agrees (f g : ProofFields) : Prop where
  sender : f.sender = g.sender
  receiver : f.receiver = g.receiver
  messageId : f.messageId = g.messageId
  timestamp : f.timestamp.intValue = g.timestamp.intValue
  nonce : b64urlDecode f.popNonce = b64urlDecode g.popNonce

end ProofFields

/-- A numeral stands in the message id from a NUL to the next one or to the end. -/
def NumeralInMessage (messageId : Text) : Prop :=
  ∃ before n, Numeral n ∧ (messageId = before ++ 0 :: decimal n ∨
    ∃ after, messageId = before ++ 0 :: (decimal n ++ 0 :: after))

/-- A numeral closed by a NUL starts the nonce, or stands after UTF-8 and a NUL in it. -/
def NumeralInNonce (nonce : Bytes) : Prop :=
  ∃ n after, Numeral n ∧ (nonce = numeralOctets n ++ 0 :: after ∨
    ∃ text octets, utf8? text = some octets ∧ nonce = octets ++ 0 :: (numeralOctets n ++ 0 :: after))

/-- The octets after the two AIDs. -/
def messageOctets (message : Bytes) (time : Nat) (nonce : Bytes) : Bytes :=
  message ++ 0 :: (numeralOctets time ++ 0 :: nonce)

/-- The rest of an input reads back one way, unless a numeral stands where it should not. -/
theorem messageOctets_cases {message message' : Text} {m m' n n' : Bytes} {time time' : Nat}
    (hm : utf8? message = some m) (hm' : utf8? message' = some m') (hnum : Numeral time')
    (h : messageOctets m time n = messageOctets m' time' n') :
    (m = m' ∧ time = time' ∧ n = n') ∨ NumeralInMessage message ∨ NumeralInNonce n := by
  rcases append_cons_cases h with ⟨rfl, hrest⟩ | ⟨c, rfl, hrest⟩ | ⟨c, rfl, hrest⟩
  · obtain ⟨htime, rfl⟩ := append_cons_inj (zero_not_mem_numeral time) (zero_not_mem_numeral time') hrest
    exact .inl ⟨rfl, numeralOctets_inj htime, rfl⟩
  · -- the other message goes on past this one, into the nonce
    right; right
    obtain ⟨_, q, rfl, _, hq⟩ := utf8?_split hm'
    rcases append_cons_of_not_mem (zero_not_mem_numeral time) hrest with ⟨rfl, rfl⟩ | ⟨d, rfl, rfl⟩
    · exact ⟨time', n', hnum, .inl rfl⟩
    · obtain ⟨_, r, rfl, _, hr⟩ := utf8?_split hq
      exact ⟨time', n', hnum, .inr ⟨r, d, hr, rfl⟩⟩
  · -- the other message stops inside this one
    right; left
    obtain ⟨p, q, rfl, _, hq⟩ := utf8?_split hm
    rcases append_cons_of_not_mem (zero_not_mem_numeral time') hrest with ⟨rfl, _⟩ | ⟨d, rfl, _⟩
    · rw [utf8?_injective hq (utf8?_decimal time')]
      exact ⟨p, time', hnum, .inl rfl⟩
    · obtain ⟨r, after, rfl, hr, _⟩ := utf8?_split hq
      rw [utf8?_injective hr (utf8?_decimal time')]
      exact ⟨p, time', hnum, .inr ⟨after, rfl⟩⟩

/-- Another message, numeral and nonce are written the same when a numeral stands where it should not. -/
theorem messageOctets_other {message : Text} {m n : Bytes} {time : Nat} (hm : utf8? message = some m)
    (h : NumeralInMessage message ∨ NumeralInNonce n) :
    ∃ message' m' time' n', utf8? message' = some m' ∧ Numeral time' ∧ message' ≠ message ∧
      messageOctets m' time' n' = messageOctets m time n := by
  rcases h with ⟨before, k, hk, rfl | ⟨after, rfl⟩⟩ | ⟨k, after, hk, rfl | ⟨text, octets, htext, rfl⟩⟩
  · obtain ⟨a, b, ha, hb, rfl⟩ := utf8?_parts hm
    obtain rfl := Option.some.inj (hb.symm.trans (utf8?_decimal k))
    refine ⟨before, a, k, numeralOctets time ++ 0 :: n, ha, hk, ?_, ?_⟩
    · intro he
      simpa using congrArg List.length he
    · simp [messageOctets]
  · obtain ⟨a, b, ha, hb, rfl⟩ := utf8?_parts hm
    obtain ⟨c, d, hc, hd, rfl⟩ := utf8?_parts hb
    obtain rfl := Option.some.inj (hc.symm.trans (utf8?_decimal k))
    refine ⟨before, a, k, d ++ 0 :: (numeralOctets time ++ 0 :: n), ha, hk, ?_, ?_⟩
    · intro he
      simpa using congrArg List.length he
    · simp [messageOctets]
  · refine ⟨message ++ 0 :: decimal time, m ++ 0 :: numeralOctets time, k, after, utf8?_join hm (utf8?_decimal time), hk, ?_, ?_⟩
    · intro he
      simpa using congrArg List.length he
    · simp [messageOctets]
  · refine ⟨message ++ 0 :: (decimal time ++ 0 :: text), m ++ 0 :: (numeralOctets time ++ 0 :: octets), k, after, utf8?_join hm (utf8?_join (utf8?_decimal time) htext), hk, ?_, ?_⟩
    · intro he
      simpa using congrArg List.length he
    · simp [messageOctets]

/-- A value that passes as an integer and is not below zero denotes a natural number. -/
theorem intValue_nonneg {value : JsonValue} (h : value.admits .int) (hn : value.ltInt 0 = false) : 0 ≤ value.intValue := by
  cases value with
  | int i =>
    have hi : 0 ≤ i := by simpa [JsonValue.ltInt] using hn
    exact hi
  | float f =>
    cases f with
    | finite negative mantissa scale hc =>
      rw [JsonValue.intValue, Binary64.trunc]
      split
      · rename_i hneg
        simp only [JsonValue.ltInt, Binary64.ltInt, Binary64.signedUnits, hneg, if_true, Int.zero_mul,
          decide_eq_false_iff_not, not_lt, Int.neg_nonneg] at hn
        have hzero : Binary64.units (.finite negative mantissa scale hc) = 0 := by omega
        rw [hzero, Nat.zero_div]
        decide
      · exact Int.natCast_nonneg _
    | _ => simp [JsonValue.admits, JsonValue.isInstance, JsonValue.isBool, JsonValue.isIntegralFloat,
        Binary64.isInteger, Binary64.isFinite] at h
  | _ => simp [JsonValue.admits, JsonValue.isInstance, JsonValue.isBool, JsonValue.isIntegralFloat] at h

namespace ProofFields

variable {P} {f g : ProofFields} {domain : Text} {octets : Bytes}

theorem Admitted.shape (h : f.Admitted P) : ∃ env : Members, EnvelopeShape env ∧
    env.get (txt "message_id") = .str f.messageId ∧ env.get (txt "timestamp") = f.timestamp := by
  obtain ⟨env, hv, hid, ht⟩ := h.message
  exact ⟨env, ((validateEnvelopeShape_eq_ok P).mp hv).2, hid, ht⟩

theorem Admitted.time_nonneg (h : f.Admitted P) : 0 ≤ f.timestamp.intValue := by
  obtain ⟨env, hs, _, ht⟩ := h.shape
  rw [← ht]
  exact intValue_nonneg (hs.shaped.admits (by simp [requiredEnvelopeFields]) (by simp [envelopeTypes])) hs.timestamp

/-- The input of admitted fields, field by field. -/
theorem input_eq_ok (h : f.Admitted P) :
    f.input domain = .ok octets ↔ ∃ s r m n, utf8? f.sender = some s ∧ utf8? f.receiver = some r ∧
      utf8? f.messageId = some m ∧ b64urlDecode f.popNonce = .ok n ∧ Numeral f.timestamp.intValue.natAbs ∧
        octets = asciiOctets domain ++ (s ++ 0 :: (r ++ 0 :: messageOctets m f.timestamp.intValue.natAbs n)) := by
  simp only [input, handshakeProofInput, bind_eq_ok, JsonValue.asText_eq_ok, JsonValue.str.injEq, exists_eq_left',
    encodeUtf8_eq_ok, intText_natural h.time_nonneg, JsonValue.b64urlDecode, Except.ok.injEq]
  constructor
  · rintro ⟨s, hs, r, hr, m, hm, _, ⟨hnum, rfl⟩, n, hn, rfl⟩
    exact ⟨s, r, m, n, hs, hr, hm, hn, hnum, by simp [messageOctets, numeralOctets]⟩
  · rintro ⟨s, r, m, n, hs, hr, hm, hn, hnum, rfl⟩
    exact ⟨s, hs, r, hr, m, hm, _, ⟨hnum, rfl⟩, n, hn, by simp [messageOctets, numeralOctets]⟩

theorem zero_not_mem_parsed {aid : Text} {s : Bytes} (h : ∃ a, parseAid P aid = .ok a) (hs : utf8? aid = some s) :
    (0 : UInt8) ∉ s := by
  obtain ⟨a, ha⟩ := h
  intro hz
  exact zero_not_mem_aid ((parseAid_eq_ok P).mp ha).1 (zero_mem_utf8 hs hz)

/-- The envelope with another message id and timestamp is shape-valid too. -/
theorem Admitted.redated (h : f.Admitted P) (messageId : Text) (time : Nat) (data : Bytes) :
    Admitted P ⟨f.sender, f.receiver, messageId, .int time, b64urlEncode data⟩ := by
  obtain ⟨env, hs, _, _⟩ := h.shape
  have hid : EnvelopeShape (env.insert (txt "message_id") (.str messageId)) := by
    apply hs.insert (by decide) (by decide) (by decide)
    · intro entry hk he
      have hstr : ∀ entry ∈ envelopeTypes, txt "message_id" = entry.1 → entry.2 = .str := by decide
      rw [hstr entry hk he]
      rfl
    · rw [Members.get_insert_of_ne (by decide)]
      exact hs.timestamp
    · rw [Members.get_insert_of_ne (by decide)]
      exact hs.signature
  have htime : EnvelopeShape ((env.insert (txt "message_id") (.str messageId)).insert (txt "timestamp") (.int time)) := by
    apply hid.insert (by decide) (by decide) (by decide)
    · intro entry hk he
      have hint : ∀ entry ∈ envelopeTypes, txt "timestamp" = entry.1 → entry.2 = .int := by decide
      rw [hint entry hk he]
      rfl
    · rw [Members.get_insert_self]
      simp [JsonValue.ltInt]
    · rw [Members.get_insert_of_ne (by decide)]
      exact hid.signature
  refine ⟨h.sender, h.receiver, ⟨_, (validateEnvelopeShape_eq_ok P).mpr ⟨rfl, htime⟩, ?_, ?_⟩, ⟨data, b64urlDecode_encode data⟩⟩
  · rw [Members.get_insert_of_ne (by decide), Members.get_insert_self]
  · rw [Members.get_insert_self]

end ProofFields

/-- An input names one tuple exactly when no second numeral stands between closing NULs of its
message id or of its nonce. -/
theorem proofInput_unambiguous_iff {f : ProofFields} {domain : Text} {octets nonce : Bytes} (hf : f.Admitted P)
    (h : f.input domain = .ok octets) (hnonce : b64urlDecode f.popNonce = .ok nonce) :
    (∀ g : ProofFields, g.Admitted P → g.input domain = .ok octets → f.Agrees g) ↔
      ¬ (NumeralInMessage f.messageId ∨ NumeralInNonce nonce) := by
  obtain ⟨s, r, m, n, hs, hr, hm, hn, hnum, rfl⟩ := (ProofFields.input_eq_ok hf).mp h
  obtain rfl := Except.ok.inj (hn.symm.trans hnonce)
  constructor
  · intro hunique hambiguous
    obtain ⟨message', m', time', n', hm', hnum', hne, heq⟩ := messageOctets_other hm hambiguous
    have hg := hf.redated message' time' n'
    have hinput : ProofFields.input ⟨f.sender, f.receiver, message', .int time', b64urlEncode n'⟩ domain =
        .ok (asciiOctets domain ++ (s ++ 0 :: (r ++ 0 :: messageOctets m f.timestamp.intValue.natAbs n))) :=
      (ProofFields.input_eq_ok hg).mpr ⟨s, r, m', n', hs, hr, hm', b64urlDecode_encode n', hnum', by rw [← heq]; rfl⟩
    exact hne (hunique _ hg hinput).messageId.symm
  · intro hclear g hg hinput
    obtain ⟨s', r', m', n', hs', hr', hm', hn', hnum', heq⟩ := (ProofFields.input_eq_ok hg).mp hinput
    have htail := List.append_cancel_left heq
    obtain ⟨rfl, hrest⟩ := append_cons_inj (ProofFields.zero_not_mem_parsed hf.sender hs)
      (ProofFields.zero_not_mem_parsed hg.sender hs') htail
    obtain ⟨rfl, hmessage⟩ := append_cons_inj (ProofFields.zero_not_mem_parsed hf.receiver hr)
      (ProofFields.zero_not_mem_parsed hg.receiver hr') hrest
    rcases messageOctets_cases hm hm' hnum' hmessage with ⟨rfl, htime, rfl⟩ | hambiguous
    · refine ⟨utf8?_injective hs hs', utf8?_injective hr hr', utf8?_injective hm hm', ?_, by rw [hn, hn']⟩
      have := hf.time_nonneg
      have := hg.time_nonneg
      omega
    · exact absurd hambiguous hclear

/-- Fields of a recorded greeting from agent A to agent B. -/
def helloFields (messageId : Text) (time : Nat) (nonce : Bytes) : ProofFields :=
  ⟨aidOf agentA, aidOf agentB, messageId, .int time, b64urlEncode nonce⟩

theorem helloFields_admitted (messageId : Text) (time : Nat) (nonce : Bytes) :
    (helloFields messageId time nonce).Admitted helloRecording.platform := by
  have hparses (ident : Text) (h : (parseAid helloRecording.platform (aidOf ident)).isOk) :
      ∃ aid, parseAid helloRecording.platform (aidOf ident) = .ok aid := by
    cases hp : parseAid helloRecording.platform (aidOf ident) with
    | ok aid => exact ⟨aid, rfl⟩
    | error e => simp [hp, Except.isOk, Except.toBool] at h
  have hshape : ∃ env, validateEnvelopeShape helloRecording.platform (.dict (helloEnvelope (.int referenceClock))) =
      .ok env := by
    cases hv : validateEnvelopeShape helloRecording.platform (.dict (helloEnvelope (.int referenceClock))) with
    | ok env => exact ⟨env, rfl⟩
    | error e =>
      have hok : (validateEnvelopeShape helloRecording.platform (.dict (helloEnvelope (.int referenceClock)))).isOk := by
        decide +kernel
      simp [hv, Except.isOk, Except.toBool] at hok
  obtain ⟨env, henv⟩ := hshape
  obtain ⟨heq, _⟩ := (validateEnvelopeShape_eq_ok _).mp henv
  obtain rfl := JsonValue.dict.inj heq
  have hbase : ProofFields.Admitted helloRecording.platform
      ⟨aidOf agentA, aidOf agentB, txt "0b7e8a52-4c1d-4e3f-9a6b-2d5c8f1e7a90", .int referenceClock, []⟩ :=
    ⟨hparses agentA (by decide +kernel), hparses agentB (by decide +kernel), ⟨_, henv, rfl, rfl⟩, ⟨[], rfl⟩⟩
  exact hbase.redated messageId time nonce

/-- Two octets of nonce, `6` and NUL, and whatever follows. -/
def crossedNonce : Bytes := [0x36, 0x00]

/-- One input of two messages: `m` dated 5, and `m`, NUL, `5` dated 6. -/
theorem proofInput_crossed : ¬ ∀ (f g : ProofFields) (octets : Bytes), f.Admitted helloRecording.platform →
    g.Admitted helloRecording.platform → f.input pinnedKeyDomain = .ok octets → g.input pinnedKeyDomain = .ok octets →
      f.Agrees g := by
  intro hall
  have hinput : (helloFields (txt "m") 5 crossedNonce).input pinnedKeyDomain =
      .ok (octetsFrom ((helloFields (txt "m") 5 crossedNonce).input pinnedKeyDomain)) := by
    decide +kernel
  have hother : (helloFields (txt "m" ++ nul ++ txt "5") 6 []).input pinnedKeyDomain =
      .ok (octetsFrom ((helloFields (txt "m") 5 crossedNonce).input pinnedKeyDomain)) := by
    decide +kernel
  have hid := (hall _ _ _ (helloFields_admitted _ _ _) (helloFields_admitted _ _ _) hinput hother).messageId
  exact absurd hid (by decide +kernel)

/-- A dated message id without a NUL and a nonce without one. -/
theorem proofInput_unambiguous_hello :
    (∀ g : ProofFields, g.Admitted helloRecording.platform →
        g.input pinnedKeyDomain = .ok (octetsFrom ((helloFields (txt "m") 5 [0x36]).input pinnedKeyDomain)) →
          (helloFields (txt "m") 5 [0x36]).Agrees g) ↔
      ¬ (NumeralInMessage (txt "m") ∨ NumeralInNonce [0x36]) :=
  proofInput_unambiguous_iff helloRecording.platform (helloFields_admitted _ _ _) (by decide +kernel) (by decide +kernel)

end AitpVerifier
