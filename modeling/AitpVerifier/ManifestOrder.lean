import AitpVerifier.Participants
import AitpVerifier.RevocationLast

/-!
# The order of the Manifests held

Resolution decides on the first Manifest that names the AID. A different arrangement of
the same list may put another one first.
-/
namespace AitpVerifier

open PyText Checked

/-! ### The first match under a permutation -/

section FirstMatch

variable {α : Type} {p : α → Bool} {items items' : List α}

/-- Any match can come first. -/
theorem exists_perm_find? {a : α} (ha : a ∈ items) (hp : p a = true) :
    ∃ front : List α, front.Perm items ∧ front.find? p = some a := by
  obtain ⟨before, after, rfl⟩ := List.append_of_mem ha
  refine ⟨a :: (before ++ after), List.perm_middle.symm, ?_⟩
  rw [List.find?_cons_of_pos hp]

theorem mem_of_find?_perm {a : α} (h : items'.Perm items) (hf : items'.find? p = some a) : a ∈ items ∧ p a = true :=
  ⟨h.mem_iff.mp (List.mem_of_find?_eq_some hf), List.find?_some hf⟩

end FirstMatch

variable (P : Platform)

/-! ### One Manifest -/

/-- A Manifest verifies at the clock. -/
def ManifestVerifies (now : Int) (man : JsonValue) : Prop :=
  (verifyManifest P [(txt "manifest", man), (txt "now", .int now)] now).isOk

/-- A Manifest is refused at the clock by an error resolution answers for. -/
def ManifestRefused (now : Int) (man : JsonValue) : Prop :=
  ∃ e, verifyManifest P [(txt "manifest", man), (txt "now", .int now)] now = .error e ∧
    (e.code?.isSome || e.isValueError) = true

/-- What resolution answers when `man` is the first Manifest to name the AID. -/
def resolveBy (aid : Text) (now : Int) (man : JsonValue) : PyM (Aid × Members) :=
  rescue (do
    let _ ← verifyManifest P [(txt "manifest", man), (txt "now", .int now)] now
    let key ← parseAid P aid
    .ok (key, man.members))
    (fun e =>
      if e.code?.isSome || e.isValueError then
        some (keyResolutionFailed (txt "Manifest for " ++ aid ++ txt " does not verify: " ++ e.text))
      else none)

theorem resolveManifest_found {aid : Text} {now : Int} {held : List JsonValue} {man : JsonValue}
    (h : held.find? (namesAid aid) = some man) :
    resolveManifest P aid (.list held) now = resolveBy P aid now man := by
  rw [resolveManifest, manifestCandidates, h]
  rfl

theorem resolveManifest_none {aid : Text} {now : Int} {held : List JsonValue}
    (h : held.find? (namesAid aid) = none) : Raises (resolveManifest P aid (.list held) now) "KEY_RESOLUTION_FAILED" := by
  rw [resolveManifest, manifestCandidates, h]
  exact ⟨_, rfl, rfl⟩

/-- A verified Manifest names an AID that parses. -/
theorem ManifestVerifies.parses {aid : Text} {now : Int} {man : JsonValue} (hnames : namesAid aid man = true)
    (h : ManifestVerifies P now man) : ∃ key, parseAid P aid = .ok key := by
  obtain ⟨r, hr⟩ := isOk_iff.mp h
  obtain ⟨body, key, hbody, ha, _⟩ := (verifyManifest_eq_ok P).mp hr
  obtain rfl : man = .dict body := Option.some.inj hbody
  simp only [namesAid, JsonValue.eq_str] at hnames
  have hkey := ha.key
  rw [hnames] at hkey
  exact ⟨key, hkey⟩

theorem resolveBy_isOk {aid : Text} {now : Int} {man : JsonValue} (hnames : namesAid aid man = true) :
    (resolveBy P aid now man).isOk = true ↔ ManifestVerifies P now man := by
  rw [isOk_iff, ManifestVerifies, isOk_iff]
  simp only [resolveBy, rescue_eq_ok, bind_eq_ok]
  constructor
  · rintro ⟨_, r, hr, _⟩
    exact ⟨r, hr⟩
  · rintro ⟨r, hr⟩
    obtain ⟨key, hkey⟩ := ManifestVerifies.parses P hnames (isOk_iff.mpr ⟨r, hr⟩)
    exact ⟨_, r, hr, key, hkey, rfl⟩

theorem resolveBy_raises {aid : Text} {now : Int} {man : JsonValue} (hnames : namesAid aid man = true) :
    Raises (resolveBy P aid now man) "KEY_RESOLUTION_FAILED" ↔ ManifestRefused P now man := by
  unfold resolveBy ManifestRefused
  cases hv : verifyManifest P [(txt "manifest", man), (txt "now", .int now)] now with
  | ok r =>
    obtain ⟨key, hkey⟩ := ManifestVerifies.parses P hnames (isOk_iff.mpr ⟨r, hv⟩)
    rw [ok_bind, hkey]
    refine iff_of_false not_raises_ok ?_
    rintro ⟨_, he, _⟩
    exact ok_ne_error he
  | error e =>
    simp only [error_bind, rescue, Except.error.injEq, exists_eq_left']
    cases hanswered : e.code?.isSome || e.isValueError with
    | true => exact iff_of_true ⟨_, rfl, rfl⟩ rfl
    | false =>
      refine iff_of_false ?_ Bool.false_ne_true
      rintro ⟨_, he, hunder⟩
      rw [if_neg Bool.false_ne_true, Option.getD_none] at he
      obtain rfl := Except.error.inj he
      rw [hunder] at hanswered
      cases hanswered

/-! ### Every arrangement of the list -/

/-- Resolution gives the same verdict on every arrangement of the Manifests held, and
where that is a refusal it has the one code. -/
def OrderFree (aid : Text) (held : List JsonValue) (now : Int) : Prop :=
  ∀ held' : List JsonValue, held'.Perm held →
    ((resolveManifest P aid (.list held) now).isOk = true ↔ (resolveManifest P aid (.list held') now).isOk = true) ∧
      ((resolveManifest P aid (.list held) now).isOk = false →
        Raises (resolveManifest P aid (.list held) now) "KEY_RESOLUTION_FAILED" ∧
          Raises (resolveManifest P aid (.list held') now) "KEY_RESOLUTION_FAILED")

/-- The Manifests that name the AID all verify, or all are refused. -/
def Unanimous (aid : Text) (held : List JsonValue) (now : Int) : Prop :=
  (∀ man ∈ held, namesAid aid man = true → ManifestVerifies P now man) ∨
    (∀ man ∈ held, namesAid aid man = true → ManifestRefused P now man)

/-- A unanimous list with a Manifest for the AID gives its verdict from any arrangement. -/
theorem Unanimous.verdict {aid : Text} {held held' : List JsonValue} {now : Int} (h : Unanimous P aid held now)
    (hperm : held'.Perm held) :
    ((∃ man ∈ held, namesAid aid man = true ∧ ManifestVerifies P now man) ∧
        (resolveManifest P aid (.list held') now).isOk = true) ∨
      ((¬ ∃ man ∈ held, namesAid aid man = true ∧ ManifestVerifies P now man) ∧
        Raises (resolveManifest P aid (.list held') now) "KEY_RESOLUTION_FAILED") := by
  cases hf : held'.find? (namesAid aid) with
  | none =>
    refine .inr ⟨?_, resolveManifest_none P hf⟩
    rintro ⟨man, hm, hnames, _⟩
    exact List.find?_eq_none.mp hf man (hperm.mem_iff.mpr hm) hnames
  | some man =>
    obtain ⟨hm, hnames⟩ := mem_of_find?_perm hperm hf
    rw [resolveManifest_found P hf]
    cases h with
    | inl hall =>
      exact .inl ⟨⟨man, hm, hnames, hall man hm hnames⟩, (resolveBy_isOk P hnames).mpr (hall man hm hnames)⟩
    | inr hall =>
      refine .inr ⟨?_, (resolveBy_raises P hnames).mpr (hall man hm hnames)⟩
      rintro ⟨other, ho, hother, hv⟩
      obtain ⟨e, he, _⟩ := hall other ho hother
      rw [ManifestVerifies, he] at hv
      cases hv

/-- Resolution is the same on every arrangement exactly when the Manifests that name the
AID agree: all of them verify, or all are refused. -/
theorem resolveManifest_orderFree_iff (aid : Text) (held : List JsonValue) (now : Int) :
    OrderFree P aid held now ↔ Unanimous P aid held now := by
  constructor
  · intro h
    cases hok : (resolveManifest P aid (.list held) now).isOk with
    | true =>
      refine .inl fun man hm hnames => ?_
      obtain ⟨held', hperm, hf⟩ := exists_perm_find? hm hnames
      have hok' := (h held' hperm).1.mp hok
      rw [resolveManifest_found P hf] at hok'
      exact (resolveBy_isOk P hnames).mp hok'
    | false =>
      refine .inr fun man hm hnames => ?_
      obtain ⟨held', hperm, hf⟩ := exists_perm_find? hm hnames
      have hraises := ((h held' hperm).2 hok).2
      rw [resolveManifest_found P hf] at hraises
      exact (resolveBy_raises P hnames).mp hraises
  · intro h held' hperm
    rcases h.verdict P (.refl held) with ⟨hsome, hok⟩ | ⟨hnone, hraises⟩
    · rcases h.verdict P hperm with ⟨_, hok'⟩ | ⟨hnone', _⟩
      · exact ⟨iff_of_true hok hok', fun hno => absurd (hok.symm.trans hno) nofun⟩
      · exact absurd hsome hnone'
    · rcases h.verdict P hperm with ⟨hsome', _⟩ | ⟨_, hraises'⟩
      · exact absurd hsome' hnone
      · have hno : (resolveManifest P aid (.list held) now).isOk ≠ true := by
          rw [not_isOk_of_raises hraises]
          exact Bool.false_ne_true
        have hno' : (resolveManifest P aid (.list held') now).isOk ≠ true := by
          rw [not_isOk_of_raises hraises']
          exact Bool.false_ne_true
        exact ⟨iff_of_false hno hno', fun _ => ⟨hraises, hraises'⟩⟩

/-- Agent A's Manifest as of yesterday: past its expiry. -/
def staleManifest : Members := coordinatorManifest.insert (txt "expires_at") (.int (referenceClock - 1))

/-- A stale copy beside the fresh Manifest: whichever comes first decides. -/
theorem resolveManifest_order_dependent :
    (resolveManifest bundleRecording.platform (aidOf agentA) (.list [.dict coordinatorManifest, .dict staleManifest])
        referenceClock).isOk ∧
      Raises (resolveManifest bundleRecording.platform (aidOf agentA)
        (.list [.dict staleManifest, .dict coordinatorManifest]) referenceClock) "KEY_RESOLUTION_FAILED" ∧
      ¬ OrderFree bundleRecording.platform (aidOf agentA) [.dict coordinatorManifest, .dict staleManifest]
        referenceClock := by
  have hfresh : (resolveManifest bundleRecording.platform (aidOf agentA)
      (.list [.dict coordinatorManifest, .dict staleManifest]) referenceClock).isOk := by
    decide +kernel
  have hstale : Raises (resolveManifest bundleRecording.platform (aidOf agentA)
      (.list [.dict staleManifest, .dict coordinatorManifest]) referenceClock) "KEY_RESOLUTION_FAILED" := by
    decide +kernel
  refine ⟨hfresh, hstale, fun h => ?_⟩
  have hok := (h _ (.swap _ _ _)).1.mp hfresh
  rw [not_isOk_of_raises hstale] at hok
  cases hok

end AitpVerifier
