import Mathlib.Data.List.Forall2

/-!
# Ordered checks over `Except`

A checklist is a `do` block of guards and fallible steps. The lemmas here read
an accepting run back as the list of facts its guards established, one
existential per value a step returned.
-/
namespace Checked

variable {ε α β : Type}

/-- Fail with `e` when `c` holds. -/
def raiseIf (c : Bool) (e : ε) : Except ε Unit := if c then .error e else .ok ()

/-- Fail when `c` holds. Building the error is itself a step that may fail. -/
def raiseWith (c : Bool) (e : Except ε ε) : Except ε Unit := if c then e >>= .error else .ok ()

/-- An `except` clause that replaces the errors `handler` names and re-raises the rest. -/
def rescue (x : Except ε α) (handler : ε → Option ε) : Except ε α :=
  match x with
  | .ok a => .ok a
  | .error e => .error ((handler e).getD e)

/-- Run a check on every item, in order. -/
def forEach (check : α → Except ε Unit) : List α → Except ε Unit
  | [] => .ok ()
  | a :: rest => do
    check a
    forEach check rest

/-- Collect a fallible step's results, in order. -/
def collect (step : α → Except ε β) : List α → Except ε (List β)
  | [] => .ok []
  | a :: rest => do
    let b ← step a
    let bs ← collect step rest
    .ok (b :: bs)

theorem bind_eq_ok {x : Except ε α} {f : α → Except ε β} {b : β} :
    (x >>= f) = .ok b ↔ ∃ a, x = .ok a ∧ f a = .ok b := by
  cases x <;> simp [bind, Except.bind]

theorem raiseIf_eq_ok {c : Bool} {e : ε} {u : Unit} : raiseIf c e = .ok u ↔ c = false := by
  cases c <;> simp [raiseIf]

theorem raiseWith_eq_ok {c : Bool} {e : Except ε ε} {u : Unit} :
    raiseWith c e = .ok u ↔ c = false := by
  cases c
  · simp [raiseWith]
  · cases e <;> simp [raiseWith, bind, Except.bind]

theorem rescue_eq_ok {x : Except ε α} {handler : ε → Option ε} {a : α} :
    rescue x handler = .ok a ↔ x = .ok a := by
  cases x <;> simp [rescue]

/-- A guard's result carries nothing. -/
theorem exists_unit {p : Unit → Prop} : (∃ u, p u) ↔ p () := ⟨fun ⟨_, h⟩ => h, fun h => ⟨(), h⟩⟩

theorem forEach_eq_ok {check : α → Except ε Unit} {items : List α} {u : Unit} :
    forEach check items = .ok u ↔ ∀ a ∈ items, check a = .ok () := by
  induction items with
  | nil => simp [forEach]
  | cons a rest ih => simp [forEach, bind_eq_ok, exists_unit, ih]

theorem forEach_congr {check check' : α → Except ε Unit} {items : List α} (h : ∀ a ∈ items, check a = check' a) :
    forEach check items = forEach check' items := by
  induction items with
  | nil => rfl
  | cons a rest ih => rw [forEach, forEach, h a List.mem_cons_self, ih fun b hb => h b (List.mem_cons_of_mem a hb)]

theorem collect_eq_ok {step : α → Except ε β} {items : List α} {bs : List β} :
    collect step items = .ok bs ↔ List.Forall₂ (fun a b => step a = .ok b) items bs := by
  induction items generalizing bs with
  | nil => cases bs <;> simp [collect]
  | cons a rest ih =>
    cases bs with
    | nil => simp [collect, bind_eq_ok]
    | cons b bs => simp [collect, bind_eq_ok, ih]

theorem mem_collect {step : α → Except ε β} {items : List α} {bs : List β} (h : collect step items = .ok bs) {b : β} :
    b ∈ bs ↔ ∃ a ∈ items, step a = .ok b := by
  induction items generalizing bs with
  | nil =>
    obtain rfl : [] = bs := by simpa [collect] using h
    simp
  | cons a rest ih =>
    simp only [collect, bind_eq_ok, Except.ok.injEq] at h
    obtain ⟨c, hc, cs, hcs, rfl⟩ := h
    rw [List.mem_cons, ih hcs, List.exists_mem_cons_iff, hc, Except.ok.injEq, eq_comm]

theorem exists_mem_of_collect {step : α → Except ε β} {items : List α} {bs : List β} (h : collect step items = .ok bs)
    {a : α} (ha : a ∈ items) : ∃ b ∈ bs, step a = .ok b := by
  induction items generalizing bs with
  | nil => cases ha
  | cons first rest ih =>
    simp only [collect, bind_eq_ok, Except.ok.injEq] at h
    obtain ⟨c, hc, cs, hcs, rfl⟩ := h
    rcases List.mem_cons.mp ha with rfl | ha
    · exact ⟨c, List.mem_cons_self, hc⟩
    · obtain ⟨b, hb, hs⟩ := ih hcs ha
      exact ⟨b, List.mem_cons_of_mem _ hb, hs⟩

theorem mem_of_forall₂ {R : α → β → Prop} {as : List α} {bs : List β} (h : List.Forall₂ R as bs) {b : β}
    (hb : b ∈ bs) : ∃ a ∈ as, R a b := by
  induction h with
  | nil => cases hb
  | @cons a first as bs hr _ ih =>
    cases List.mem_cons.mp hb with
    | inl heq =>
      rw [heq]
      exact ⟨a, List.mem_cons_self, hr⟩
    | inr hb =>
      obtain ⟨a, ha, hr⟩ := ih hb
      exact ⟨a, List.mem_cons_of_mem _ ha, hr⟩

theorem isOk_iff {x : Except ε α} : x.isOk = true ↔ ∃ a, x = .ok a := by
  cases x <;> simp [Except.isOk, Except.toBool]

theorem collect_isOk {step : α → Except ε β} {items : List α} :
    (collect step items).isOk = items.all fun a => (step a).isOk := by
  induction items with
  | nil => rfl
  | cons a rest ih =>
    rw [collect, List.all_cons, ← ih]
    cases step a with
    | error e => rfl
    | ok b => cases collect step rest <;> rfl

theorem collect_append {step : α → Except ε β} {as bs : List α} {cs : List β} :
    collect step (as ++ bs) = .ok cs ↔ ∃ left right, collect step as = .ok left ∧ collect step bs = .ok right ∧
      left ++ right = cs := by
  induction as generalizing cs with
  | nil => simp [collect]
  | cons a rest ih =>
    simp only [List.cons_append, collect, bind_eq_ok, ih, Except.ok.injEq]
    constructor
    · rintro ⟨b, hb, _, ⟨left, right, hleft, hright, rfl⟩, rfl⟩
      exact ⟨b :: left, right, ⟨b, hb, left, hleft, rfl⟩, hright, rfl⟩
    · rintro ⟨_, right, ⟨b, hb, left, hleft, rfl⟩, hright, rfl⟩
      exact ⟨b, hb, left ++ right, ⟨left, right, hleft, hright, rfl⟩, rfl⟩

theorem collect_map {γ : Type} {step : β → Except ε γ} {f : α → β} {as : List α} :
    collect step (as.map f) = collect (fun a => step (f a)) as := by
  induction as with
  | nil => rfl
  | cons a rest ih => rw [List.map_cons, collect, collect, ih]

theorem collect_length {step : α → Except ε β} {as : List α} {bs : List β} (h : collect step as = .ok bs) :
    bs.length = as.length := (collect_eq_ok.mp h).length_eq.symm

theorem collect_singleton {step : α → Except ε β} {a : α} {bs : List β} :
    collect step [a] = .ok bs ↔ ∃ b, step a = .ok b ∧ [b] = bs := by
  simp [collect, bind_eq_ok]

theorem map_isOk (x : Except ε α) (f : α → β) : (x >>= fun a => .ok (f a)).isOk = x.isOk := by
  cases x <;> rfl

/-- A checklist that ends in an error accepts nothing. -/
theorem error_ne_ok {e : ε} {a : α} : (.error e : Except ε α) ≠ .ok a := by
  intro h
  cases h

theorem ok_ne_error {e : ε} {a : α} : (.ok a : Except ε α) ≠ .error e := error_ne_ok.symm

/-! ### How a checklist fails -/

theorem ok_bind {a : α} {f : α → Except ε β} : ((.ok a : Except ε α) >>= f) = f a := rfl

theorem error_bind {e : ε} {f : α → Except ε β} : ((.error e : Except ε α) >>= f) = .error e := rfl

/-- Every failure of `x` is one that `p` holds of. -/
def FailsWith (p : ε → Prop) (x : Except ε α) : Prop := ∀ e, x = .error e → p e

namespace FailsWith

variable {p q : ε → Prop}

theorem ok {a : α} : FailsWith p (.ok a : Except ε α) := nofun

theorem error {e : ε} (h : p e) : FailsWith p (.error e : Except ε α) := by
  intro e' heq
  rw [← Except.error.inj heq]
  exact h

theorem mono {x : Except ε α} (hx : FailsWith p x) (h : ∀ e, p e → q e) : FailsWith q x := fun e he => h e (hx e he)

theorem bind {x : Except ε α} {f : α → Except ε β} (hx : FailsWith p x) (hf : ∀ a, x = .ok a → FailsWith p (f a)) :
    FailsWith p (x >>= f) := by
  cases x with
  | ok a => exact hf a rfl
  | error e => exact error (hx e rfl)

theorem raiseIf {c : Bool} {e : ε} (h : p e) : FailsWith p (raiseIf c e) := by
  cases c with
  | false => exact ok
  | true => exact error h

theorem raiseWith {c : Bool} {x : Except ε ε} (hx : c = true → ∃ e, x = .ok e ∧ p e) : FailsWith p (raiseWith c x) := by
  cases c with
  | false => exact ok
  | true =>
    obtain ⟨e, rfl, he⟩ := hx rfl
    exact error he

theorem rescue {x : Except ε α} {handler : ε → Option ε} (h : ∀ e, x = .error e → p ((handler e).getD e)) :
    FailsWith p (rescue x handler) := by
  cases x with
  | ok a => exact ok
  | error e => exact error (h e rfl)

theorem forEach {check : α → Except ε Unit} {items : List α} (h : ∀ a ∈ items, FailsWith p (check a)) :
    FailsWith p (forEach check items) := by
  induction items with
  | nil => exact ok
  | cons a rest ih =>
    exact (h a List.mem_cons_self).bind fun _ _ => ih fun b hb => h b (List.mem_cons_of_mem a hb)

theorem collect {step : α → Except ε β} {items : List α} (h : ∀ a ∈ items, FailsWith p (step a)) :
    FailsWith p (collect step items) := by
  induction items with
  | nil => exact ok
  | cons a rest ih =>
    exact (h a List.mem_cons_self).bind fun _ _ =>
      (ih fun b hb => h b (List.mem_cons_of_mem a hb)).bind fun _ _ => ok

end FailsWith

/-- `x` fails, with an error that `p` holds of. -/
def Throws (p : ε → Prop) (x : Except ε α) : Prop := ∃ e, x = .error e ∧ p e

section

variable {p : ε → Prop}

theorem not_throws_iff {x : Except ε α} : ¬Throws p x ↔ FailsWith (fun e => ¬p e) x := by
  simp [Throws, FailsWith]

theorem not_throws_ok {a : α} : ¬Throws p (.ok a : Except ε α) := by simp [Throws]

theorem throws_error {e : ε} : Throws p (.error e : Except ε α) ↔ p e := by simp [Throws]

theorem throws_bind {x : Except ε α} {f : α → Except ε β} :
    Throws p (x >>= f) ↔ Throws p x ∨ ∃ a, x = .ok a ∧ Throws p (f a) := by
  cases x with
  | ok a => simp [Throws, ok_bind]
  | error e => simp [Throws, error_bind]

/-- Past a first step that does not throw. -/
theorem throws_bind_right {x : Except ε α} {f : α → Except ε β} (hx : FailsWith (fun e => ¬p e) x) :
    Throws p (x >>= f) ↔ ∃ a, x = .ok a ∧ Throws p (f a) := by
  rw [throws_bind]
  exact or_iff_right (not_throws_iff.mpr hx)

/-- Up to a last step that does not throw. -/
theorem throws_bind_left {x : Except ε α} {f : α → Except ε β} (hf : ∀ a, x = .ok a → FailsWith (fun e => ¬p e) (f a)) :
    Throws p (x >>= f) ↔ Throws p x := by
  rw [throws_bind]
  refine or_iff_left ?_
  rintro ⟨a, ha, h⟩
  exact not_throws_iff.mpr (hf a ha) h

/-- A loop throws at its first item that does. -/
theorem throws_forEach {check : α → Except ε Unit} {items : List α} :
    Throws p (forEach check items) ↔
      ∃ before a after, items = before ++ a :: after ∧ (∀ b ∈ before, check b = .ok ()) ∧ Throws p (check a) := by
  induction items with
  | nil =>
    refine iff_of_false not_throws_ok ?_
    rintro ⟨before, a, after, h, _⟩
    simp at h
  | cons first rest ih =>
    rw [forEach, throws_bind, ih]
    constructor
    · rintro (h | ⟨_, hfirst, before, a, after, rfl, hbefore, ha⟩)
      · exact ⟨[], first, rest, rfl, List.forall_mem_nil _, h⟩
      · exact ⟨first :: before, a, after, rfl, List.forall_mem_cons.mpr ⟨hfirst, hbefore⟩, ha⟩
    · rintro ⟨before, a, after, heq, hbefore, ha⟩
      cases before with
      | nil =>
        rw [(List.cons.inj heq).1]
        exact .inl ha
      | cons b before =>
        obtain ⟨rfl, rfl⟩ := List.cons.inj heq
        exact .inr ⟨(), hbefore _ List.mem_cons_self, before, a, after, rfl,
          fun c hc => hbefore c (List.mem_cons_of_mem _ hc), ha⟩

theorem throws_collect {step : α → Except ε β} {items : List α} :
    Throws p (collect step items) ↔
      ∃ before a after, items = before ++ a :: after ∧ (∀ b ∈ before, ∃ r, step b = .ok r) ∧ Throws p (step a) := by
  induction items with
  | nil =>
    refine iff_of_false not_throws_ok ?_
    rintro ⟨before, a, after, h, _⟩
    simp at h
  | cons first rest ih =>
    rw [collect, throws_bind]
    simp only [throws_bind_left fun _ _ => FailsWith.ok, ih]
    constructor
    · rintro (h | ⟨r, hfirst, before, a, after, rfl, hbefore, ha⟩)
      · exact ⟨[], first, rest, rfl, List.forall_mem_nil _, h⟩
      · exact ⟨first :: before, a, after, rfl, List.forall_mem_cons.mpr ⟨⟨r, hfirst⟩, hbefore⟩, ha⟩
    · rintro ⟨before, a, after, heq, hbefore, ha⟩
      cases before with
      | nil =>
        rw [(List.cons.inj heq).1]
        exact .inl ha
      | cons b before =>
        obtain ⟨rfl, rfl⟩ := List.cons.inj heq
        obtain ⟨r, hr⟩ := hbefore _ List.mem_cons_self
        exact .inr ⟨r, hr, before, a, after, rfl, fun c hc => hbefore c (List.mem_cons_of_mem _ hc), ha⟩

end

/-! ### Levels -/

/-- A node fits in one level more than its children do. -/
theorem levels_lt {depth : α → Nat} {items : List α} {room : Nat} :
    (items.map fun a => depth a + 1).foldr max 0 < room + 1 ↔ ∀ a ∈ items, depth a < room := by
  rw [Nat.lt_succ_iff]
  induction items with
  | nil => simp
  | cons a rest ih => simp only [List.map_cons, List.foldr_cons, Nat.max_le, List.forall_mem_cons, ih, Nat.succ_le_iff]

/-! ### The first fault -/

/-- The first fault among items numbered from `k`. -/
def firstFault (fault : Nat → α → Option β) : Nat → List α → Option β
  | _, [] => none
  | k, a :: rest => (fault k a).or (firstFault fault (k + 1) rest)

variable {fault : Nat → α → Option β}

theorem firstFault_append {k : Nat} {before after : List α} :
    firstFault fault k (before ++ after) =
      (firstFault fault k before).or (firstFault fault (k + before.length) after) := by
  induction before generalizing k with
  | nil => rfl
  | cons a rest ih =>
    have hlen : k + (a :: rest).length = k + 1 + rest.length := by
      rw [List.length_cons]
      omega
    rw [List.cons_append, firstFault, firstFault, ih, hlen, Option.or_assoc]

theorem firstFault_congr {fault' : Nat → α → Option β} {k : Nat} {items : List α}
    (h : ∀ j, ∀ a ∈ items, fault j a = fault' j a) : firstFault fault k items = firstFault fault' k items := by
  induction items generalizing k with
  | nil => rfl
  | cons a rest ih => rw [firstFault, firstFault, h k a List.mem_cons_self, ih fun j b hb => h j b (List.mem_cons_of_mem a hb)]

theorem firstFault_eq_none {k : Nat} {items : List α} :
    firstFault fault k items = none ↔ ∀ i a, items[i]? = some a → fault (k + i) a = none := by
  induction items generalizing k with
  | nil => simp [firstFault]
  | cons first rest ih =>
    rw [firstFault, Option.or_eq_none_iff, ih]
    constructor
    · intro h i a ha
      cases i with
      | zero =>
        obtain rfl : first = a := by simpa using ha
        exact h.1
      | succ i =>
        rw [show k + (i + 1) = k + 1 + i by omega]
        exact h.2 i a (by simpa using ha)
    · intro h
      refine ⟨h 0 first rfl, fun i a ha => ?_⟩
      rw [show k + 1 + i = k + (i + 1) by omega]
      exact h (i + 1) a (by simpa using ha)

/-- The fault of the first item that has one. -/
theorem firstFault_eq_some {k : Nat} {items : List α} {b : β} :
    firstFault fault k items = some b ↔
      ∃ i a, items[i]? = some a ∧ fault (k + i) a = some b ∧
        ∀ j < i, ∀ a', items[j]? = some a' → fault (k + j) a' = none := by
  induction items generalizing k with
  | nil => simp [firstFault]
  | cons first rest ih =>
    rw [firstFault, Option.or_eq_some_iff, ih]
    constructor
    · rintro (h | ⟨h, i, a, ha, hb, hbefore⟩)
      · exact ⟨0, first, rfl, h, nofun⟩
      · refine ⟨i + 1, a, by simpa using ha, by rwa [show k + (i + 1) = k + 1 + i by omega], ?_⟩
        intro j hj a' ha'
        cases j with
        | zero =>
          obtain rfl : first = a' := by simpa using ha'
          exact h
        | succ j =>
          rw [show k + (j + 1) = k + 1 + j by omega]
          exact hbefore j (by omega) a' (by simpa using ha')
    · rintro ⟨i, a, ha, hb, hbefore⟩
      cases i with
      | zero =>
        obtain rfl : first = a := by simpa using ha
        exact .inl hb
      | succ i =>
        refine .inr ⟨hbefore 0 (by omega) first rfl, i, a, by simpa using ha, ?_, fun j hj a' ha' => ?_⟩
        · rwa [show k + 1 + i = k + (i + 1) by omega]
        · rw [show k + 1 + j = k + (j + 1) by omega]
          exact hbefore (j + 1) (by omega) a' (by simpa using ha')

/-- The first fault is `b` exactly when some item's fault is and no item before it is
one of those whose fault may be another. -/
theorem firstFault_eq_kind {k : Nat} {items : List α} {b : β} {other : α → Bool}
    (hnone : ∀ j a, fault j a = none → other a = false)
    (hother : ∀ j a, other a = false → fault j a = none ∨ fault j a = some b) :
    firstFault fault k items = some b ↔
      ∃ i a, items[i]? = some a ∧ fault (k + i) a = some b ∧ ∀ j < i, ∀ a', items[j]? = some a' → other a' = false := by
  constructor
  · intro h
    obtain ⟨i, a, ha, hb, hbefore⟩ := firstFault_eq_some.mp h
    exact ⟨i, a, ha, hb, fun j hj a' ha' => hnone _ a' (hbefore j hj a' ha')⟩
  · rintro ⟨i, a, ha, hb, hbefore⟩
    cases hf : firstFault fault k items with
    | none =>
      rw [firstFault_eq_none.mp hf i a ha] at hb
      cases hb
    | some kind =>
      obtain ⟨j, first, hfirst, hkind, hclean⟩ := firstFault_eq_some.mp hf
      rcases Nat.lt_trichotomy j i with hlt | rfl | hgt
      · rcases hother (k + j) first (hbefore j hlt first hfirst) with hc | hc
        · rw [hc] at hkind
          cases hkind
        · rw [← hkind, hc]
      · obtain rfl := Option.some.inj (hfirst.symm.trans ha)
        rw [← hkind, hb]
      · rw [hclean i hgt a ha] at hb
        cases hb

end Checked
