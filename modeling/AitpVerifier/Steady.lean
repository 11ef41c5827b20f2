import Mathlib.Order.Interval.Set.OrdConnected
import AitpVerifier.Checked

/-!
# Computations that read a clock

A computation that compares a clock with fixed bounds succeeds at some times and not at
others. It is gapless when it succeeds at every time between two at which it does, and steady
when it also returns one value at all of them. Checklists keep both.
-/
namespace Checked

variable {τ σ ε α β : Type} [Preorder τ] [Preorder σ]

/-- Success at two times is success at every time between. -/
def Gapless (f : τ → Except ε α) : Prop := {t | (f t).isOk}.OrdConnected

/-- Success at two times is success at every time between, with one value. -/
structure Steady (f : τ → Except ε α) : Prop where
  gapless : Gapless f
  agrees : ∀ s t a b, f s = .ok a → f t = .ok b → a = b

variable {f : τ → Except ε β} {g : β → τ → Except ε α} {x : Except ε β}

theorem gapless_iff {f : τ → Except ε α} :
    Gapless f ↔ ∀ s t u a b, s ≤ t → t ≤ u → f s = .ok a → f u = .ok b → ∃ c, f t = .ok c := by
  constructor
  · intro h s t u a b hst htu ha hb
    exact isOk_iff.mp (h.out (isOk_iff.mpr ⟨a, ha⟩) (isOk_iff.mpr ⟨b, hb⟩) ⟨hst, htu⟩)
  · intro h
    refine ⟨fun s hs u hu t ht => ?_⟩
    obtain ⟨a, ha⟩ := isOk_iff.mp hs
    obtain ⟨b, hb⟩ := isOk_iff.mp hu
    exact isOk_iff.mpr (h s t u a b ht.1 ht.2 ha hb)

theorem Steady.between {f : τ → Except ε α} (h : Steady f) {s t u : τ} {a b : α} (hst : s ≤ t) (htu : t ≤ u)
    (ha : f s = .ok a) (hb : f u = .ok b) : f t = .ok a := by
  obtain ⟨c, hc⟩ := gapless_iff.mp h.gapless s t u a b hst htu ha hb
  rw [hc, h.agrees t s c a hc ha]

/-! ### Rules -/

theorem steady_const (x : Except ε α) : Steady fun _ : τ => x := by
  constructor
  · exact gapless_iff.mpr fun _ _ _ a _ _ _ ha _ => ⟨a, ha⟩
  · intro _ _ a b ha hb
    exact Except.ok.inj (ha.symm.trans hb)

/-- A step whose result says nothing is steady when the times it passes at have no gap. -/
theorem steady_unit {f : τ → Except ε Unit} (h : ∀ s t u, s ≤ t → t ≤ u → f s = .ok () → f u = .ok () → f t = .ok ()) :
    Steady f :=
  ⟨gapless_iff.mpr fun s t u _ _ hst htu hs hu => ⟨(), h s t u hst htu hs hu⟩, fun _ _ _ _ _ _ => rfl⟩

theorem steady_raiseIf {cond : τ → Bool} {e : ε}
    (h : ∀ s t u, s ≤ t → t ≤ u → cond s = false → cond u = false → cond t = false) : Steady fun t => raiseIf (cond t) e := by
  refine steady_unit ?_
  simpa only [raiseIf_eq_ok] using h

/-- After a steady step, what is gapless for each of its results is gapless. -/
theorem Steady.bind_gapless (hf : Steady f) (hg : ∀ b, (∃ t, f t = .ok b) → Gapless (g b)) :
    Gapless fun t => f t >>= fun b => g b t := by
  refine gapless_iff.mpr fun s t u a c hst htu ha hc => ?_
  obtain ⟨b, hb, ha⟩ := bind_eq_ok.mp ha
  obtain ⟨b', hb', hc⟩ := bind_eq_ok.mp hc
  obtain rfl := hf.agrees s u b b' hb hb'
  obtain ⟨d, hd⟩ := gapless_iff.mp (hg b ⟨s, hb⟩) s t u a c hst htu ha hc
  exact ⟨d, bind_eq_ok.mpr ⟨b, hf.between hst htu hb hb', hd⟩⟩

theorem Steady.bind (hf : Steady f) (hg : ∀ b, (∃ t, f t = .ok b) → Steady (g b)) : Steady fun t => f t >>= fun b => g b t := by
  constructor
  · exact hf.bind_gapless fun b hb => (hg b hb).gapless
  · intro s t a c ha hc
    obtain ⟨b, hb, ha⟩ := bind_eq_ok.mp ha
    obtain ⟨b', hb', hc⟩ := bind_eq_ok.mp hc
    obtain rfl := hf.agrees s t b b' hb hb'
    exact (hg b ⟨s, hb⟩).agrees s t a c ha hc

/-- A step that reads no clock. -/
theorem Gapless.after (hg : ∀ b, x = .ok b → Gapless (g b)) : Gapless fun t => x >>= fun b => g b t :=
  (steady_const x).bind_gapless fun b ⟨_, hb⟩ => hg b hb

theorem Steady.after (hg : ∀ b, x = .ok b → Steady (g b)) : Steady fun t => x >>= fun b => g b t :=
  (steady_const x).bind fun b ⟨_, hb⟩ => hg b hb

/-- A step that alone reads the clock. -/
theorem Steady.before (hf : Steady f) (y : β → Except ε α) : Steady fun t => f t >>= y :=
  @Steady.bind _ _ _ _ _ f (fun b _ => y b) hf fun b _ => steady_const (y b)

theorem Steady.rescue {f : τ → Except ε α} (hf : Steady f) (handler : τ → ε → Option ε) :
    Steady fun t => Checked.rescue (f t) (handler t) := by
  constructor
  · have h := hf.gapless
    rw [gapless_iff] at h ⊢
    simpa only [rescue_eq_ok] using h
  · simpa only [rescue_eq_ok] using hf.agrees

/-- A clock read through another: a step that converts the time in order, then one steady in what it returns. -/
theorem steady_converted {clock : τ → Except ε σ} {g : σ → Except ε α} (hclock : Gapless clock)
    (hmono : ∀ s t a b, s ≤ t → clock s = .ok a → clock t = .ok b → a ≤ b) (hg : Steady g) :
    Steady fun t => clock t >>= g := by
  constructor
  · refine gapless_iff.mpr fun s t u a c hst htu ha hc => ?_
    obtain ⟨b, hb, ha⟩ := bind_eq_ok.mp ha
    obtain ⟨b', hb', hc⟩ := bind_eq_ok.mp hc
    obtain ⟨m, hm⟩ := gapless_iff.mp hclock s t u b b' hst htu hb hb'
    exact ⟨a, bind_eq_ok.mpr ⟨m, hm, hg.between (hmono s t b m hst hb hm) (hmono t u m b' htu hm hb') ha hc⟩⟩
  · intro s t a c ha hc
    obtain ⟨b, _, ha⟩ := bind_eq_ok.mp ha
    obtain ⟨b', _, hc⟩ := bind_eq_ok.mp hc
    exact hg.agrees b b' a c ha hc

/-- A choice that time makes once: before it one answer, after it another. -/
theorem gapless_switch {late : τ → Except ε Bool} (htotal : ∀ t, ∃ b, late t = .ok b)
    (hlate : ∀ s t, s ≤ t → late s = .ok true → late t = .ok true) (x y : Except ε α) :
    Gapless fun t => late t >>= fun b => if b then x else y := by
  refine gapless_iff.mpr fun s t u a c hst htu ha hc => ?_
  obtain ⟨b, hb⟩ := htotal t
  rw [hb, ok_bind]
  cases b with
  | true =>
    rw [hlate t u htu hb, ok_bind] at hc
    exact ⟨c, hc⟩
  | false =>
    obtain ⟨b, hs⟩ := htotal s
    cases b with
    | true =>
      rw [hlate s t hst hs] at hb
      cases hb
    | false =>
      rw [hs, ok_bind] at ha
      exact ⟨a, ha⟩

end Checked
