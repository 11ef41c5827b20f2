import AitpVerifier.Crypto

/-!
# Agent identifiers

The public key is part of the identifier. Three forms: untagged and
`ed25519:`-tagged Ed25519, and `p256:`-tagged P-256.
-/
namespace AitpVerifier

open PyText Checked

/-- A parsed identifier. Its key is the one its raw bytes encode. -/
structure Aid where
  aid : Text
  alg : KeyAlg
  rawKey : Bytes
  publicKey : AgentKey
  deriving DecidableEq, Repr

/-- The sole acceptable compact-JWS `alg`. -/
def Aid.joseAlg (a : Aid) : Text :=
  match a.alg with
  | .ed25519 => txt "EdDSA"
  | .p256 => txt "ES256"

def aidPrefix : Text := txt "aid:pubkey:"

/-- The algorithm and the identifier proper. -/
def splitIdent (rest : Text) : KeyAlg × Text :=
  if (txt "ed25519:").isPrefixOf rest then (.ed25519, rest.drop 8)
  else if (txt "p256:").isPrefixOf rest then (.p256, rest.drop 5)
  else (.ed25519, rest)

def identLength : KeyAlg → Nat
  | .ed25519 => 43
  | .p256 => 44

variable (P : Platform)

/-- Parse an identifier; every malformed form is a `ValueError`. -/
def parseAid (aid : Text) : PyM Aid := do
  raiseIf (!aidPrefix.isPrefixOf aid)
    (valueError (txt "unsupported AID method (only aid:pubkey: is defined): " ++ P.reprStr aid))
  let (alg, ident) := splitIdent (aid.drop 11)
  raiseIf (ident.length != identLength alg)
    (valueError (alg.text ++ txt " AID identifier must be " ++ decimal (identLength alg) ++ txt " chars, got " ++
      decimal ident.length ++ txt ": " ++ P.reprStr aid))
  let raw ← b64urlDecode ident
  let publicKey ← fromRaw P alg raw
  .ok { aid, alg, rawKey := raw, publicKey }

/-! ### One key, several spellings -/

/-- The grammar of an identifier: its prefix, its length, its alphabet. -/
def InGrammar (aid : Text) : Prop :=
  aidPrefix.isPrefixOf aid = true ∧
    (splitIdent (aid.drop 11)).2.length = identLength (splitIdent (aid.drop 11)).1 ∧
    ∀ c ∈ (splitIdent (aid.drop 11)).2, (sextet? c).isSome

instance (aid : Text) : Decidable (InGrammar aid) :=
  decidable_of_iff (aidPrefix.isPrefixOf aid = true ∧
    (splitIdent (aid.drop 11)).2.length = identLength (splitIdent (aid.drop 11)).1 ∧
    (splitIdent (aid.drop 11)).2.all (fun c => (sextet? c).isSome) = true) (by rw [InGrammar, List.all_eq_true])

/-- What of an identifier's text its key depends on: the algorithm, and the sextets
without the bits the decoder drops. The `ed25519:` tag is not part of it. -/
def keySpelling (aid : Text) : Option (KeyAlg × List Nat) :=
  if InGrammar aid then
    some ((splitIdent (aid.drop 11)).1, trimSextets ((splitIdent (aid.drop 11)).2.filterMap sextet?))
  else none

theorem identLength_mod (alg : KeyAlg) : identLength alg % 4 ≠ 1 := by
  cases alg <;> decide

theorem parseAid_eq_ok {aid : Text} {a : Aid} :
    parseAid P aid = .ok a ↔
      InGrammar aid ∧ a.aid = aid ∧ a.alg = (splitIdent (aid.drop 11)).1 ∧
        unpackSextets ((splitIdent (aid.drop 11)).2.filterMap sextet?) = some a.rawKey ∧
        fromRaw P a.alg a.rawKey = .ok a.publicKey := by
  obtain ⟨text, alg, rawKey, publicKey⟩ := a
  simp only [parseAid, InGrammar, bind_eq_ok, exists_unit, raiseIf_eq_ok, b64urlDecode_eq_ok, Except.ok.injEq,
    Aid.mk.injEq, Bool.not_eq_false', bne_eq_false_iff_eq]
  constructor
  · rintro ⟨hp, hl, raw, ⟨ha, hu⟩, key, hk, rfl, rfl, rfl, rfl⟩
    exact ⟨⟨hp, hl, ha⟩, rfl, rfl, hu, hk⟩
  · rintro ⟨⟨hp, hl, ha⟩, rfl, rfl, hu, hk⟩
    exact ⟨hp, hl, rawKey, ⟨ha, hu⟩, publicKey, hk, rfl, rfl, rfl, rfl⟩

/-- A text spells a parsed identifier's key exactly when it parses to that key. -/
theorem keySpelling_eq_iff {s t : Text} {a : Aid} (ha : parseAid P s = .ok a) :
    keySpelling s = keySpelling t ↔ ∃ b, parseAid P t = .ok b ∧ b.alg = a.alg ∧ b.rawKey = a.rawKey := by
  obtain ⟨hs, _, halg, hraw, hkey⟩ := (parseAid_eq_ok P).mp ha
  have hlength {text : Text} (h : InGrammar text) :
      ((splitIdent (text.drop 11)).2.filterMap sextet?).length = identLength (splitIdent (text.drop 11)).1 := by
    rw [length_filterMap_sextet h.2.2, h.2.1]
  have htrim (ht : InGrammar t) (he : (splitIdent (t.drop 11)).1 = a.alg) :
      unpackSextets ((splitIdent (t.drop 11)).2.filterMap sextet?) = some a.rawKey ↔
        trimSextets ((splitIdent (s.drop 11)).2.filterMap sextet?) =
          trimSextets ((splitIdent (t.drop 11)).2.filterMap sextet?) := by
    rw [← hraw, ← unpackSextets_eq_iff _ (filterMap_sextet_lt _) (filterMap_sextet_lt _), eq_comm]
    · rw [hlength hs]
      exact identLength_mod _
    · rw [hlength hs, hlength ht, he, halg]
  simp only [keySpelling, if_pos hs]
  constructor
  · intro h
    split at h
    · rename_i ht
      rw [Option.some.injEq, Prod.mk.injEq, ← halg] at h
      obtain ⟨he, hsextets⟩ := h
      have hunpack := (htrim ht he.symm).mpr hsextets
      exact ⟨⟨t, a.alg, a.rawKey, a.publicKey⟩,
        (parseAid_eq_ok P).mpr ⟨ht, rfl, he, hunpack, hkey⟩, rfl, rfl⟩
    · cases h
  · rintro ⟨b, hb, hbalg, hbraw⟩
    obtain ⟨ht, _, halg', hraw', _⟩ := (parseAid_eq_ok P).mp hb
    have he : (splitIdent (t.drop 11)).1 = a.alg := by rw [← halg', hbalg]
    rw [hbraw] at hraw'
    rw [if_pos ht, (htrim ht he).mp hraw', he, halg]

end AitpVerifier
