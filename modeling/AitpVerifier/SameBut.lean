import AitpVerifier.RevocationLast
import AitpVerifier.SigningInputs
import AitpVerifier.TagRule

/-!
# Objects alike but for some members

Two runs of one check on two such objects come to the same result when the check reads
the other members only. What an object's rules ask of the members that differ is asked
of their new values again.
-/
open PyText

namespace Pattern

/-- Copies of a class take that many of its characters. -/
theorem run_times_set_of {α : Type} {negated : Bool} {ranges : List (Nat × Nat)} {n : Nat} {s : Text} {g : Captures}
    {k : Text → Captures → Option α} (hn : n ≤ s.length) (hs : ∀ c ∈ s, inSet negated ranges c = true) :
    run (times n (.set negated ranges)) s g k = k (s.drop n) g := by
  induction n generalizing s with
  | zero => rfl
  | succ n ih =>
    cases s with
    | nil => cases hn
    | cons c rest =>
      obtain ⟨hc, hrest⟩ := List.forall_mem_cons.mp hs
      rw [times, run, run, if_pos hc, ih (Nat.le_of_succ_le_succ hn) hrest]
      rfl

theorem run_alt {α : Type} (p q : Pattern) (s : Text) (g : Captures) (k : Text → Captures → Option α) :
    run (.alt p q) s g k = (run p s g k).or (run q s g k) := by
  rw [run]
  cases run p s g k <;> rfl

theorem run_seq {α : Type} (p q : Pattern) (s : Text) (g : Captures) (k : Text → Captures → Option α) :
    run (.seq p q) s g k = run p s g (fun s' g' => run q s' g' k) := rfl

end Pattern

namespace Checked

variable {α β ε : Type} {R : α → α → Prop} {S : β → β → Prop} {as as' : List α}

theorem forEach_alike {check check' : α → Except ε Unit} (h : List.Forall₂ R as as')
    (hstep : ∀ a a', R a a' → check a = .ok () → check' a' = .ok ()) (hr : forEach check as = .ok ()) :
    forEach check' as' = .ok () := by
  induction h with
  | nil => rfl
  | cons ha _ ih =>
    rw [forEach] at hr ⊢
    obtain ⟨_, hfirst, hrest⟩ := bind_eq_ok.mp hr
    rw [hstep _ _ ha hfirst]
    exact ih hrest

theorem collect_alike {step step' : α → Except ε β} {bs : List β} (h : List.Forall₂ R as as')
    (hstep : ∀ a a' b, R a a' → step a = .ok b → ∃ b', step' a' = .ok b' ∧ S b b') (hr : collect step as = .ok bs) :
    ∃ bs', collect step' as' = .ok bs' ∧ List.Forall₂ S bs bs' := by
  induction h generalizing bs with
  | nil =>
    cases hr
    exact ⟨[], rfl, .nil⟩
  | cons ha _ ih =>
    rw [collect_eq_ok] at hr
    cases hr with
    | cons hfirst hrest =>
      obtain ⟨b', hb', hS⟩ := hstep _ _ _ ha hfirst
      obtain ⟨rest', hrest', halike⟩ := ih (collect_eq_ok.mpr hrest)
      exact ⟨b' :: rest', collect_eq_ok.mpr (.cons hb' (collect_eq_ok.mp hrest')), .cons hS halike⟩

/-- What is asked of a result is decided on the result. -/
instance instDecidableOfResult {x : Except ε α} {p : α → Prop} [DecidablePred p] : Decidable (∀ a, x = .ok a → p a) :=
  match x with
  | .ok a => decidable_of_iff (p a) ⟨fun h _ heq => Except.ok.inj heq ▸ h, fun h => h a rfl⟩
  | .error _ => isTrue nofun

theorem filter_alike {p p' : α → Bool} (h : List.Forall₂ R as as') (hp : ∀ a a', R a a' → p' a' = p a) :
    List.Forall₂ R (as.filter p) (as'.filter p') := by
  induction h with
  | nil => exact .nil
  | @cons a a' rest rest' ha _ ih =>
    cases hpa : p a with
    | true =>
      have hpa' : p' a' = true := by rw [hp _ _ ha, hpa]
      rw [List.filter_cons_of_pos hpa, List.filter_cons_of_pos hpa']
      exact .cons ha ih
    | false =>
      have hpa' : p' a' = false := by rw [hp _ _ ha, hpa]
      rw [List.filter_cons_of_neg (by simp [hpa]), List.filter_cons_of_neg (by simp [hpa'])]
      exact ih

theorem any_alike {p p' : α → Bool} (h : List.Forall₂ R as as') (hp : ∀ a a', R a a' → p' a' = p a) :
    as'.any p' = as.any p := by
  induction h with
  | nil => rfl
  | cons ha _ ih => rw [List.any_cons, List.any_cons, hp _ _ ha, ih]

theorem isEmpty_alike (h : List.Forall₂ R as as') : as'.isEmpty = as.isEmpty := by
  cases h <;> rfl

end Checked

namespace AitpVerifier

open Checked

/-- The second object agrees with the first outside `slots`. -/
abbrev SameBut (slots : List Text) (obj obj' : Members) : Prop := AgreeExcept slots obj' obj

namespace SameBut

variable {slots : List Text} {obj obj' : Members}

theorem refl (slots : List Text) (obj : Members) : SameBut slots obj obj := fun _ _ => rfl

/-- Decided on the members either object has. -/
instance (slots : List Text) (obj obj' : Members) : Decidable (SameBut slots obj obj') :=
  decidable_of_iff (∀ key ∈ obj.names ++ obj'.names, slots.contains key = false → obj'.get? key = obj.get? key) (by
    constructor
    · intro h key hk
      by_cases hin : key ∈ obj.names ++ obj'.names
      · exact h key hin (by simpa using hk)
      · rw [List.mem_append, not_or, Members.mem_names_iff, Members.mem_names_iff, Members.has, Members.has,
          Option.not_isSome_iff_eq_none, Option.not_isSome_iff_eq_none] at hin
        rw [hin.1, hin.2]
    · exact fun h key _ hk => h key (by simpa using hk))

/-- The member set stays closed when it admits the members that differ. -/
theorem known (h : SameBut slots obj obj') {allowed : List Text} (hobj : ∀ key ∈ obj.names, key ∈ allowed)
    (hslots : slots ⊆ allowed) : ∀ key ∈ obj'.names, key ∈ allowed := by
  intro key hk
  by_cases hin : key ∈ slots
  · exact hslots hin
  · apply hobj
    rw [Members.mem_names_iff, ← h.has hin, ← Members.mem_names_iff]
    exact hk

/-- Presence and types stay when the members that differ are there and of their types. -/
theorem shaped (h : SameBut slots obj obj') {required : List Text} {types : List (Text × PyType)}
    (hobj : Shaped obj required types) (hpresent : ∀ key ∈ slots, key ∈ required → obj'.has key = true)
    (htyped : ∀ entry ∈ types, entry.1 ∈ slots → ∀ value, obj'.get? entry.1 = some value → value.admits entry.2) :
    Shaped obj' required types := by
  constructor
  · intro key hk
    by_cases hin : key ∈ slots
    · exact hpresent key hin hk
    · rw [h.has hin]
      exact hobj.present key hk
  · intro entry he value hv
    by_cases hin : entry.1 ∈ slots
    · exact htyped entry he hin value hv
    · rw [h entry.1 hin] at hv
      exact hobj.typed entry he value hv

/-- The first member's value is the one that may differ. -/
theorem head (key : Text) (value value' : JsonValue) (rest : Members) :
    SameBut [key] ((key, value) :: rest) ((key, value') :: rest) := by
  intro name hn
  have hne : key ≠ name := fun h => hn (by rw [h]; exact List.mem_singleton_self _)
  rw [Members.get?, if_neg hne]
  exact (if_neg hne).symm

end SameBut

/-- A slot as it was or with another object in it, the rest as it was. -/
structure Refilled (slot : Text) (obj obj' : Members) : Prop where
  rest : SameBut [slot] obj obj'
  object : obj'.get? slot = obj.get? slot ∨ ∃ contents : Members, obj'.get? slot = some (.dict contents)

/-- Another object in a slot, and another text as the signature. -/
structure Resigned (slot : Text) (obj obj' : Members) : Prop where
  rest : SameBut [slot, txt "signature"] obj obj'
  object : ∃ contents : Members, obj'.get? slot = some (.dict contents)
  signature : ∃ text : Text, obj'.get? (txt "signature") = some (.str text)

theorem Refilled.refl (slot : Text) (obj : Members) : Refilled slot obj obj := ⟨.refl _ _, .inl rfl⟩

theorem Refilled.shaped {slot : Text} {obj obj' : Members} (h : Refilled slot obj obj') {required : List Text}
    {types : List (Text × PyType)} (hobj : Shaped obj required types)
    (htype : ∀ entry ∈ types, entry.1 = slot → entry.2 = .dict) : Shaped obj' required types := by
  apply h.rest.shaped hobj
  · intro key hk hrequired
    rw [List.mem_singleton.mp hk] at hrequired ⊢
    cases h.object with
    | inl hsame =>
      rw [Members.has, hsame, ← Members.has]
      exact hobj.present slot hrequired
    | inr hcontents =>
      obtain ⟨contents, hcontents⟩ := hcontents
      rw [Members.has, hcontents]
      rfl
  · intro entry he hin value hv
    have hslot := List.mem_singleton.mp hin
    cases h.object with
    | inl hsame =>
      rw [hslot, hsame, ← hslot] at hv
      exact hobj.typed entry he value hv
    | inr hcontents =>
      obtain ⟨contents, hcontents⟩ := hcontents
      rw [hslot, hcontents] at hv
      rw [← Option.some.inj hv, htype entry he hslot]
      rfl

theorem Resigned.shaped {slot : Text} {obj obj' : Members} (h : Resigned slot obj obj') {required : List Text}
    {types : List (Text × PyType)} (hobj : Shaped obj required types)
    (htype : ∀ entry ∈ types, entry.1 = slot → entry.2 = .dict)
    (hsignature : ∀ entry ∈ types, entry.1 = txt "signature" → entry.2 = .str) : Shaped obj' required types := by
  obtain ⟨contents, hcontents⟩ := h.object
  obtain ⟨text, htext⟩ := h.signature
  apply h.rest.shaped hobj
  · intro key hk _
    rw [List.mem_pair] at hk
    cases hk with
    | inl hslot => rw [hslot, Members.has, hcontents]; rfl
    | inr hsig => rw [hsig, Members.has, htext]; rfl
  · intro entry he hin value hv
    rw [List.mem_pair] at hin
    cases hin with
    | inl hslot =>
      rw [hslot, hcontents] at hv
      rw [← Option.some.inj hv, htype entry he hslot]
      rfl
    | inr hsig =>
      rw [hsig, htext] at hv
      rw [← Option.some.inj hv, hsignature entry he hsig]
      rfl

/-! ### The form of a signature field -/

theorem inSet_of_sextet {c : CodePoint} (h : (sextet? c).isSome = true) :
    Pattern.inSet false [(0x41, 0x5A), (0x61, 0x7A), (0x30, 0x39), (0x5F, 0x5F), (0x2D, 0x2D)] c = true := by
  unfold sextet? at h
  simp only [Pattern.inSet, Bool.false_xor, List.any_cons, List.any_nil, Bool.or_false, Bool.or_eq_true, Bool.and_eq_true,
    decide_eq_true_eq]
  split_ifs at h <;> first | omega | cases h

theorem signaturePattern_body {body : Text} {octets : Bytes} (h : b64urlDecode body = .ok octets)
    (hlength : octets.length = 64) (g : Pattern.Captures) :
    Pattern.run (.times 86 base64urlClass) body g (fun rest g => if rest.isEmpty then some g else none) = some g := by
  have hlen := b64urlDecode_length h
  have hbody : body.length = 86 := by
    have hmod := (b64urlDecode_eq_ok.mp h)
    omega
  have hall : ∀ c ∈ body, Pattern.inSet false [(0x41, 0x5A), (0x61, 0x7A), (0x30, 0x39), (0x5F, 0x5F), (0x2D, 0x2D)] c = true := by
    intro c hc
    exact inSet_of_sextet ((b64urlDecode_eq_ok.mp h).1 c hc)
  have hrun := @Pattern.run_times_set_of _ false _ 86 body g (fun rest g => if rest.isEmpty then some g else none) (by omega) hall
  rw [base64urlClass, Pattern.oneOf, hrun, List.drop_of_length_le (by omega)]
  rfl

/-- An optional tag before the rest of a pattern. -/
theorem run_optionalTag {rest : Pattern} {alg : KeyAlg} {body : Text} {k : Text → Pattern.Captures → Option Pattern.Captures}
    {g : Pattern.Captures} (h : rest.run body [] k = some g) :
    (Pattern.run (.seq (.opt (.seq (.alt (.literal (txt "ed25519")) (.literal (txt "p256"))) (.literal (txt ".")))) rest)
      (alg.text ++ txt "." ++ body) [] k).isSome = true := by
  have hpoint : Pattern.run (.literal (txt ".")) (txt "." ++ body) [] (fun s' g' => rest.run s' g' k) = some g := h
  rw [Pattern.run_seq, Pattern.opt, Pattern.run_alt, Pattern.run_seq, Pattern.run_alt]
  cases alg with
  | ed25519 =>
    have htag : Pattern.run (.literal (txt "ed25519")) (KeyAlg.ed25519.text ++ txt "." ++ body) []
        (fun s' g' => Pattern.run (.literal (txt ".")) s' g' (fun s' g' => rest.run s' g' k)) = some g := hpoint
    rw [htag]
    rfl
  | p256 =>
    have hother : Pattern.run (.literal (txt "ed25519")) (KeyAlg.p256.text ++ txt "." ++ body) []
        (fun s' g' => Pattern.run (.literal (txt ".")) s' g' (fun s' g' => rest.run s' g' k)) = none := rfl
    have htag : Pattern.run (.literal (txt "p256")) (KeyAlg.p256.text ++ txt "." ++ body) []
        (fun s' g' => Pattern.run (.literal (txt ".")) s' g' (fun s' g' => rest.run s' g' k)) = some g := hpoint
    rw [hother, htag]
    rfl

/-- A signature field that decodes has the form the schemas ask for. -/
theorem TaggedSignature.pattern {sig : JsonValue} {alg : KeyAlg} {raw : Bytes} (h : TaggedSignature sig alg raw) :
    signaturePattern.fullMatch sig.text = true := by
  obtain ⟨body, octets, _, hdecode, hlength, hform⟩ := h.rule
  have hbody := signaturePattern_body hdecode hlength []
  cases hform with
  | inl huntagged =>
    have hplain : Pattern.run .empty body [] (fun s' g' => Pattern.run (.times 86 base64urlClass) s' g'
        (fun rest g => if rest.isEmpty then some g else none)) = some [] := hbody
    rw [huntagged.1, Pattern.fullMatch, Pattern.fullMatch?, JsonValue.text, signaturePattern, Pattern.run_seq, Pattern.opt,
      Pattern.run_alt, hplain, Option.isSome_or]
    exact Bool.or_true _
  | inr htagged =>
    rw [htagged]
    exact run_optionalTag hbody

/-! ### Tokens -/

variable (P : Platform)

/-- Alike but for the `ext` claim. -/
def ExtRefilled (claims claims' : Members) : Prop := Refilled (txt "ext") claims claims'

/-- A token with other claims under the same header, signed again by the issuer of the first. -/
def Reissued (R : Members → Members → Prop) (token token' : JsonValue) : Prop :=
  ∃ parsed parsed', ParsesTo P token parsed ∧ ParsesTo P token' parsed' ∧ SameBut [] parsed.header parsed'.header ∧
    R parsed.claims parsed'.claims ∧ ∀ aid, parseAid P (parsed.claims.get (txt "iss")).text = .ok aid →
      verifyJose P (.agent aid.publicKey) parsed'.signingInput parsed'.signature false = true

variable {claims claims' : Members}

theorem SameBut.exactHeader {header header' : Members} (h : SameBut [] header header')
    (he : AitpVerifier.exactHeader header = true) : AitpVerifier.exactHeader header' = true := by
  simp only [AitpVerifier.exactHeader, Bool.and_eq_true, List.all_eq_true] at he ⊢
  rw [h.has (by simp), h.has (by simp)]
  refine ⟨he.1, ?_⟩
  intro name hn
  apply he.2 name
  rw [Members.mem_names_iff, ← h.has (by simp), ← Members.mem_names_iff]
  exact hn

/-- A reissued token verifies as the first did, with its own claims. -/
theorem Reissued.signed {R : Members → Members → Prop} {token token' : JsonValue} {typ : Text}
    (h : Reissued P R token token') (hiss : ∀ c c', R c c' → c'.get (txt "iss") = c.get (txt "iss"))
    (hi : IssuedToken P token typ claims) : ∃ claims', R claims claims' ∧ IssuedToken P token' typ claims' := by
  obtain ⟨iss, hget, parsed, aid, hparsed, rfl, hexact, htyp, haid, halg, _⟩ := hi
  obtain ⟨first, parsed', hfirst, hparsed', hheader, hclaims, hsigned⟩ := h
  obtain rfl := hfirst.unique P hparsed
  refine ⟨parsed'.claims, hclaims, iss, by rw [hiss _ _ hclaims, hget], parsed', aid, hparsed', rfl,
    hheader.exactHeader hexact, ?_, haid, ?_, ?_⟩
  · rw [hheader.get (by simp), htyp]
  · rw [hheader.get (by simp), halg]
  · apply hsigned
    rw [hget]
    exact haid

theorem ExtRefilled.get (h : ExtRefilled claims claims') {key : Text} (hk : key ≠ txt "ext") :
    claims'.get key = claims.get key := h.rest.get (by simpa using hk)

theorem TctShape.refilled (hs : TctShape claims) (h : ExtRefilled claims claims') : TctShape claims' := by
  constructor
  · exact Refilled.shaped h hs.shaped (by decide)
  · rw [h.get (by decide)]
    exact hs.grants
  · exact h.rest.known hs.known (by decide)
  · rw [h.get (by decide)]
    exact hs.cnfKnown
  · rw [h.get (by decide)]
    exact hs.jti

theorem GrantClaims.refilled {now : Int} (hg : GrantClaims P claims now) (h : ExtRefilled claims claims') :
    GrantClaims P claims' now := by
  constructor
  · rw [h.get (by decide)]
    exact hg.live
  · rw [h.get (by decide), h.get (by decide)]
    exact hg.notSelf
  · rw [h.get (by decide)]
    exact hg.unmarked
  · rw [h.get (by decide), h.get (by decide)]
    exact hg.bound

theorem VoucherShape.refilled (hs : VoucherShape claims) (h : ExtRefilled claims claims') : VoucherShape claims' := by
  constructor
  · exact Refilled.shaped h hs.shaped (by decide)
  · rw [h.get (by decide)]
    exact hs.grants
  · exact h.rest.known hs.known (by decide)

end AitpVerifier
