import Mathlib.Data.List.Lex
import Mathlib.Data.List.Sort

/-!
# Sorting by a key

Insertion sort under a key into a linear order. Distinct keys make the arrangement
strictly increasing, and two lists of one content have one strict arrangement.
-/
namespace KeySort

variable {α β κ : Type} [LinearOrder κ]

/-- `sorted(items, key=key)`. -/
def sortBy (key : α → κ) (items : List α) : List α := items.insertionSort (fun a b => key a ≤ key b)

/-- Keys increase strictly from item to item. -/
def Increasing (key : α → κ) (items : List α) : Prop := items.Pairwise (fun a b => key a < key b)

theorem sortBy_perm (key : α → κ) (items : List α) : (sortBy key items).Perm items := List.perm_insertionSort _ items

theorem mem_sortBy {key : α → κ} {items : List α} {a : α} : a ∈ sortBy key items ↔ a ∈ items :=
  (sortBy_perm key items).mem_iff

theorem sortBy_pairwise (key : α → κ) (items : List α) : (sortBy key items).Pairwise (fun a b => key a ≤ key b) := by
  have : IsTrans α (fun a b => key a ≤ key b) := ⟨fun _ _ _ => le_trans⟩
  have : Std.Total (fun a b : α => key a ≤ key b) := ⟨fun a b => le_total (key a) (key b)⟩
  exact List.pairwise_insertionSort _ items

/-- The arrangement starts with the least key. -/
theorem sortBy_head_le {key : α → κ} {items rest : List α} {a b : α} (h : sortBy key items = a :: rest)
    (hb : b ∈ items) : key a ≤ key b := by
  have hsorted := sortBy_pairwise key items
  rw [h, List.pairwise_cons] at hsorted
  have hin : b ∈ sortBy key items := mem_sortBy.mpr hb
  rw [h] at hin
  rcases List.mem_cons.mp hin with rfl | hlater
  · exact le_refl _
  · exact hsorted.1 b hlater

/-- Without ties the arrangement is strict. -/
theorem sortBy_increasing {key : α → κ} {items : List α} (h : (items.map key).Nodup) :
    Increasing key (sortBy key items) := by
  have hdistinct : ((sortBy key items).map key).Nodup := ((sortBy_perm key items).map key).nodup_iff.mpr h
  refine (sortBy_pairwise key items).imp₂ (fun _ _ hle hne => lt_of_le_of_ne hle hne) ?_
  exact List.pairwise_map.mp hdistinct

/-- A strict arrangement is determined by its content. -/
theorem Increasing.eq_of_perm {key : α → κ} {as bs : List α} (ha : Increasing key as) (hb : Increasing key bs)
    (h : as.Perm bs) : as = bs := by
  refine h.eq_of_pairwise ?_ ha hb
  intro a b _ _ hab hba
  exact absurd (hab.trans hba) (lt_irrefl _)

theorem sortBy_eq_of_perm {key : α → κ} {as bs : List α} (hd : (as.map key).Nodup) (h : as.Perm bs) :
    sortBy key as = sortBy key bs := by
  have hd' : (bs.map key).Nodup := (h.map key).nodup_iff.mp hd
  refine (sortBy_increasing hd).eq_of_perm (sortBy_increasing hd') ?_
  exact ((sortBy_perm key as).trans h).trans (sortBy_perm key bs).symm

/-- A map that keeps the keys commutes with the sort. -/
theorem map_sortBy {key : α → κ} {k : β → κ} {f : α → β} {items : List α}
    (h : ∀ a ∈ items, k (f a) = key a) : (sortBy key items).map f = sortBy k (items.map f) := by
  refine List.map_insertionSort _ _ f items ?_
  intro a ha b hb
  rw [h a ha, h b hb]

/-- Only the order of the keys matters. -/
theorem sortBy_congr {κ' : Type} [LinearOrder κ'] {key : α → κ} {key' : α → κ'} {items : List α}
    (h : ∀ a b, key a ≤ key b ↔ key' a ≤ key' b) : sortBy key items = sortBy key' items := by
  have hmap := List.map_insertionSort (fun a b => key a ≤ key b) (fun a b => key' a ≤ key' b) id items
    (fun a _ b _ => h a b)
  rwa [List.map_id, List.map_id] at hmap

end KeySort
