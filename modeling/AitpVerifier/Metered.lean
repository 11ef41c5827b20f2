import AitpVerifier.Checked

/-!
# Computations with their work counted

A checklist that keeps an account of what it has spent, also when it fails. Erasing the
account leaves the checklist, and a triple bounds the account of both endings.
-/
namespace Checked

/-- The outcome, and the account after it. -/
def Metered (ω ε α : Type) : Type := ω → Except ε α × ω

namespace Metered

variable {ω ε α β : Type}

def lift (x : Except ε α) : Metered ω ε α := fun w => (x, w)

def spend (cost : ω → ω) : Metered ω ε Unit := fun w => (.ok (), cost w)

def bind (x : Metered ω ε α) (f : α → Metered ω ε β) : Metered ω ε β := fun w =>
  match x w with
  | (.ok a, w) => f a w
  | (.error e, w) => (.error e, w)

instance : Monad (Metered ω ε) where
  pure a := lift (.ok a)
  bind := bind

/-- A step over a list, in order, threading a value. -/
def thread (step : α → β → Metered ω ε β) : List α → β → Metered ω ε β
  | [], acc => pure acc
  | item :: rest, acc => do
    let acc ← step item acc
    thread step rest acc

/-! ### Erasing the account -/

/-- The outcome, whatever was spent before. -/
def Computes (x : Metered ω ε α) (y : Except ε α) : Prop := ∀ w, (x w).1 = y

namespace Computes

theorem lift {y : Except ε α} : Computes (lift y : Metered ω ε α) y := fun _ => rfl

theorem pure {a : α} : Computes (pure a : Metered ω ε α) (.ok a) := fun _ => rfl

theorem bind {x : Metered ω ε α} {y : Except ε α} {f : α → Metered ω ε β} {g : α → Except ε β} (hx : Computes x y)
    (hf : ∀ a, y = .ok a → Computes (f a) (g a)) : Computes (x >>= f) (y >>= g) := by
  intro w
  have hw := hx w
  show (Metered.bind x f w).1 = _
  rw [Metered.bind]
  rcases hxw : x w with ⟨e | a, w'⟩
  · rw [hxw] at hw
    rw [← hw]
    rfl
  · rw [hxw] at hw
    rw [← hw]
    exact hf a hw.symm w'

/-- Spending is no part of the outcome. -/
theorem spend {cost : ω → ω} {f : Unit → Metered ω ε β} {y : Except ε β} (hf : Computes (f ()) y) :
    Computes (spend cost >>= f) y := fun w => hf (cost w)

end Computes

/-! ### Bounding the account -/

/-- From an account in `pre` the computation ends in `post`, or fails in `fail`. -/
def Triple (pre : ω → Prop) (x : Metered ω ε α) (post : α → ω → Prop) (fail : ω → Prop) : Prop :=
  ∀ w, pre w → match x w with
    | (.ok a, w') => post a w'
    | (.error _, w') => fail w'

namespace Triple

variable {pre fail : ω → Prop} {post : α → ω → Prop} {m : β → ω → Prop}

theorem lift {y : Except ε α} (hok : ∀ w, pre w → ∀ a, y = .ok a → post a w) (herror : ∀ w, pre w → fail w) :
    Triple pre (lift y : Metered ω ε α) post fail := by
  intro w hw
  rw [Metered.lift]
  cases y with
  | ok a => exact hok w hw a rfl
  | error e => exact herror w hw

theorem pure {a : α} (h : ∀ w, pre w → post a w) : Triple pre (pure a : Metered ω ε α) post fail := h

theorem bind {x : Metered ω ε β} {f : β → Metered ω ε α} (hx : Triple pre x m fail)
    (hf : ∀ b, Triple (m b) (f b) post fail) : Triple pre (x >>= f) post fail := by
  intro w hw
  have hxw := hx w hw
  show match Metered.bind x f w with
    | (.ok a, w') => post a w'
    | (.error _, w') => fail w'
  rw [Metered.bind]
  rcases hrun : x w with ⟨e | b, w'⟩
  · rw [hrun] at hxw
    exact hxw
  · rw [hrun] at hxw
    exact hf b w' hxw

theorem spend {cost : ω → ω} {f : Unit → Metered ω ε α} {p : ω → Prop} (hpaid : ∀ w, pre w → p (cost w))
    (hf : Triple p (f ()) post fail) : Triple pre (spend cost >>= f) post fail :=
  fun w hw => hf (cost w) (hpaid w hw)

/-- Work counted first and tested then: a refusal leaves it on the account. -/
theorem charge {cost : ω → ω} {test : Except ε β} {f : β → Metered ω ε α}
    (hok : ∀ w, pre w → ∀ b, test = .ok b → m b (cost w)) (herror : ∀ w, pre w → fail (cost w))
    (hf : ∀ b, Triple (m b) (f b) post fail) : Triple pre (Metered.spend cost >>= fun _ => Metered.lift test >>= f) post fail := by
  refine spend (p := fun w => ∃ before, pre before ∧ cost before = w) (fun w hw => ⟨w, hw, rfl⟩) (bind ?_ hf)
  refine lift ?_ ?_
  · rintro _ ⟨before, hbefore, rfl⟩
    exact hok before hbefore
  · rintro _ ⟨before, hbefore, rfl⟩
    exact herror before hbefore

/-- A bound of both endings bounds the account. -/
theorem account {x : Metered ω ε α} (h : Triple pre x (fun _ => fail) fail) {w : ω} (hw : pre w) : fail (x w).2 := by
  have hrun := h w hw
  rcases hx : x w with ⟨e | a, w'⟩
  · rw [hx] at hrun
    exact hrun
  · rw [hx] at hrun
    exact hrun

/-- An invariant of the value and the account that each step keeps is kept by the list. -/
theorem thread {i : β → ω → Prop} {step : α → β → Metered ω ε β} {items : List α}
    (hstep : ∀ item ∈ items, ∀ acc, Triple (i acc) (step item acc) i fail) (acc : β) :
    Triple (i acc) (thread step items acc) i fail := by
  induction items generalizing acc with
  | nil => exact pure fun _ hw => hw
  | cons item rest ih =>
    refine bind (hstep item List.mem_cons_self acc) fun acc' => ?_
    exact ih (fun item hm => hstep item (List.mem_cons_of_mem _ hm)) acc'

end Triple

end Metered

end Checked
