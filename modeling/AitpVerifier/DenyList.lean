import Mathlib.Data.List.Forall2
import Mathlib.Data.Set.Basic

/-!
# Clearing an identifier against deny lists

The lists that answer for an identifier each deny some identifiers. It is cleared when
none of them denies it and, where silence counts as a denial, at least one answers.
-/
namespace DenyList

variable {β κ : Type}

structure Cleared (strict : Prop) (answers : Set β) (denies : β → κ → Prop) (id : κ) : Prop where
  known : strict → answers.Nonempty
  undenied : ∀ list ∈ answers, ¬ denies list id

/-- Every member of either set has a counterpart in the other. -/
structure Matched (R : β → β → Prop) (answers answers' : Set β) : Prop where
  forth : ∀ list ∈ answers, ∃ list' ∈ answers', R list list'
  back : ∀ list' ∈ answers', ∃ list ∈ answers, R list list'

namespace Matched

variable {R : β → β → Prop} {answers answers' : Set β}

theorem nonempty (h : Matched R answers answers') : answers.Nonempty ↔ answers'.Nonempty := by
  constructor
  · rintro ⟨list, hm⟩
    obtain ⟨list', hm', _⟩ := h.forth list hm
    exact ⟨list', hm'⟩
  · rintro ⟨list', hm'⟩
    obtain ⟨list, hm, _⟩ := h.back list' hm'
    exact ⟨list, hm⟩

/-- A choice both counterparts agree on leaves matched sets. -/
theorem sep (h : Matched R answers answers') {p p' : β → Prop} (hp : ∀ list list', R list list' → (p list ↔ p' list')) :
    Matched R {list ∈ answers | p list} {list ∈ answers' | p' list} := by
  constructor
  · rintro list ⟨hm, hpl⟩
    obtain ⟨list', hm', hr⟩ := h.forth list hm
    exact ⟨list', ⟨hm', (hp list list' hr).mp hpl⟩, hr⟩
  · rintro list' ⟨hm', hpl⟩
    obtain ⟨list, hm, hr⟩ := h.back list' hm'
    exact ⟨list, ⟨hm, (hp list list' hr).mpr hpl⟩, hr⟩

theorem ofForall₂ {items items' : List β} (h : List.Forall₂ R items items') :
    Matched R {item | item ∈ items} {item | item ∈ items'} := by
  induction h with
  | nil => exact ⟨nofun, nofun⟩
  | @cons first first' _ _ hr _ ih =>
    constructor
    · intro item hm
      rcases List.mem_cons.mp hm with rfl | hm
      · exact ⟨first', List.mem_cons_self, hr⟩
      · obtain ⟨item', hm', hr⟩ := ih.forth item hm
        exact ⟨item', List.mem_cons_of_mem _ hm', hr⟩
    · intro item' hm
      rcases List.mem_cons.mp hm with rfl | hm
      · exact ⟨first, List.mem_cons_self, hr⟩
      · obtain ⟨item, hm', hr⟩ := ih.back item' hm
        exact ⟨item, List.mem_cons_of_mem _ hm', hr⟩

/-- What is read from matched records is matched. -/
theorem image {α : Type} {S : α → α → Prop} {records records' : Set α} {reads : α → β → Prop} (h : Matched S records records')
    (hforth : ∀ record record', S record record' → ∀ list, reads record list → ∃ list', reads record' list' ∧ R list list')
    (hback : ∀ record record', S record record' → ∀ list', reads record' list' → ∃ list, reads record list ∧ R list list') :
    Matched R {list | ∃ record ∈ records, reads record list} {list | ∃ record ∈ records', reads record list} := by
  constructor
  · rintro list ⟨record, hm, hread⟩
    obtain ⟨record', hm', hs⟩ := h.forth record hm
    obtain ⟨list', hread', hr⟩ := hforth record record' hs list hread
    exact ⟨list', ⟨record', hm', hread'⟩, hr⟩
  · rintro list' ⟨record', hm', hread'⟩
    obtain ⟨record, hm, hs⟩ := h.back record' hm'
    obtain ⟨list, hread, hr⟩ := hback record record' hs list' hread'
    exact ⟨list, ⟨record, hm, hread⟩, hr⟩

end Matched

/-- What is cleared where more is denied is cleared where less is. -/
theorem Cleared.antitone {strict : Prop} {R : β → β → Prop} {answers answers' : Set β} {denies : β → κ → Prop} {id : κ}
    (hm : Matched R answers answers') (hd : ∀ list list', R list list' → denies list id → denies list' id)
    (h : Cleared strict answers' denies id) : Cleared strict answers denies id where
  known hs := hm.nonempty.mpr (h.known hs)
  undenied list hlist hdenied := by
    obtain ⟨list', hlist', hr⟩ := hm.forth list hlist
    exact h.undenied list' hlist' (hd list list' hr hdenied)

end DenyList
