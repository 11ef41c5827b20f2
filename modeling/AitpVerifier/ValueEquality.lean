import AitpVerifier.SameValue

/-!
# Equal values

Python's `==` of two JSON values is symmetric and transitive: numbers of every type
compare by value, NaN equals nothing, and objects compare member by member.
-/
namespace AitpVerifier

open PyText Checked

theorem Members.get?_of_mem {obj : Members} (hd : obj.names.Nodup) {m : Text × JsonValue} (hm : m ∈ obj) :
    obj.get? m.1 = some m.2 := by
  have hhas : obj.has m.1 = true := mem_names_iff.mp (List.mem_map_of_mem hm)
  obtain ⟨v, hv⟩ := Option.isSome_iff_exists.mp hhas
  rw [← get_of_mem hd hm, get, hv, Option.getD_some]

namespace JsonValue

/-! ### Numbers -/

/-- What a number is compared by: its units, or the sign of an infinity. -/
def magnitude : JsonValue → Option (Int ⊕ Bool)
  | .bool b => some (.inl (boolInt b * Binary64.unit))
  | .int i => some (.inl (i * Binary64.unit))
  | .float (.inf negative) => some (.inr negative)
  | .float (.finite negative mantissa scale canonical) =>
    some (.inl (Binary64.finite negative mantissa scale canonical).signedUnits)
  | _ => none

theorem mul_unit_inj {a b : Int} : a * (Binary64.unit : Int) = b * (Binary64.unit : Int) ↔ a = b := by
  have hpos : (0 : Int) < (Binary64.unit : Int) := by
    rw [Binary64.unit_eq]
    positivity
  exact Int.mul_eq_mul_right_iff (Int.ne_of_gt hpos)

theorem eqInt_iff {f : Binary64} {i : Int} :
    f.eqInt i = true ↔ (JsonValue.float f).magnitude = some (.inl (i * Binary64.unit)) := by
  cases f with
  | nan => simp [Binary64.eqInt, Binary64.isFinite, magnitude]
  | inf negative => simp [Binary64.eqInt, Binary64.isFinite, magnitude]
  | finite negative mantissa scale canonical =>
    simp only [Binary64.eqInt, Binary64.isFinite, Bool.true_and, decide_eq_true_eq, magnitude, Option.some.injEq, Sum.inl.injEq]

theorem boolInt_inj {a b : Bool} : boolInt a = boolInt b ↔ a = b := by
  cases a <;> cases b <;> decide

/-- A number equals exactly the values of its magnitude. -/
theorem eq_of_magnitude {v w : JsonValue} {m : Int ⊕ Bool} (h : v.magnitude = some m) :
    v.eq w = true ↔ w.magnitude = some m := by
  rw [← h]
  cases v with
  | bool b =>
    cases w with
    | bool c => rw [eq, beq_iff_eq, magnitude, magnitude, Option.some.injEq, Sum.inl.injEq, mul_unit_inj, boolInt_inj, eq_comm]
    | int i => rw [eq, beq_iff_eq, magnitude, magnitude, Option.some.injEq, Sum.inl.injEq, mul_unit_inj, eq_comm]
    | float f => rw [eq, eqInt_iff]; rfl
    | _ => simp [eq, magnitude]
  | int i =>
    cases w with
    | bool c => rw [eq, beq_iff_eq, magnitude, magnitude, Option.some.injEq, Sum.inl.injEq, mul_unit_inj, eq_comm]
    | int j => rw [eq, beq_iff_eq, magnitude, magnitude, Option.some.injEq, Sum.inl.injEq, mul_unit_inj, eq_comm]
    | float f => rw [eq, eqInt_iff]; rfl
    | _ => simp [eq, magnitude]
  | float f =>
    cases w with
    | bool c =>
      rw [eq, eqInt_iff]
      exact eq_comm
    | int j =>
      rw [eq, eqInt_iff]
      exact eq_comm
    | float g =>
      rw [eq]
      cases f with
      | nan => cases h
      | inf a =>
        cases g with
        | inf b => rw [Binary64.eq, beq_iff_eq, magnitude, magnitude, Option.some.injEq, Sum.inr.injEq, eq_comm]
        | _ => simp [Binary64.eq, magnitude]
      | finite =>
        cases g with
        | finite => rw [Binary64.eq, decide_eq_true_eq, magnitude, magnitude, Option.some.injEq, Sum.inl.injEq, eq_comm]
        | _ => simp [Binary64.eq, magnitude]
    | _ =>
      rw [h]
      exact iff_of_false Bool.false_ne_true (Option.some_ne_none m).symm
  | _ => cases h

theorem eq_comm_of_magnitude {v w : JsonValue} {m : Int ⊕ Bool} (hv : v.magnitude = some m) (h : v.eq w = true) :
    w.eq v = true :=
  (eq_of_magnitude ((eq_of_magnitude hv).mp h)).mpr hv

theorem eq_trans_of_magnitude {v w u : JsonValue} {m : Int ⊕ Bool} (hv : v.magnitude = some m) (h : v.eq w = true)
    (h' : w.eq u = true) : v.eq u = true := by
  rw [eq_of_magnitude hv] at h ⊢
  exact (eq_of_magnitude h).mp h'

/-- NaN equals nothing. -/
theorem nan_eq {w : JsonValue} : (JsonValue.float .nan).eq w = false := by
  cases w <;> rfl

/-! ### Lists and objects -/

theorem eqItems_iff {xs ys : List JsonValue} : eqItems xs ys = true ↔ List.Forall₂ (fun x y => x.eq y = true) xs ys := by
  induction xs generalizing ys with
  | nil => cases ys <;> simp [eqItems]
  | cons x xs ih => cases ys <;> simp [eqItems, ih]

theorem eqMembers_iff {ms ns : Members} :
    eqMembers ms ns = true ↔ ∀ m ∈ ms, ∃ w, ns.get? m.1 = some w ∧ m.2.eq w = true := by
  induction ms with
  | nil => simp [eqMembers]
  | cons m ms ih =>
    obtain ⟨k, v⟩ := m
    rw [eqMembers, Bool.and_eq_true, ih, List.forall_mem_cons]
    refine and_congr_left fun _ => ?_
    cases ns.get? k with
    | none => simp
    | some w => simp

/-- Objects are equal when each member of one has its equal in the other, of as many. -/
theorem eq_dict_iff {ms ns : Members} : (JsonValue.dict ms).eq (.dict ns) = true ↔
    ms.length = ns.length ∧ ∀ m ∈ ms, ∃ w, ns.get? m.1 = some w ∧ m.2.eq w = true := by
  rw [eq, Bool.and_eq_true, beq_iff_eq, eqMembers_iff]

/-- Equal objects have the same names. -/
theorem names_perm {ms ns : Members} (hd : ms.names.Nodup) (h : (JsonValue.dict ms).eq (.dict ns) = true) :
    ms.names.Perm ns.names := by
  obtain ⟨hlength, hmembers⟩ := eq_dict_iff.mp h
  have hsubset : ms.names ⊆ ns.names := by
    intro name hname
    obtain ⟨m, hm, rfl⟩ := List.mem_map.mp hname
    obtain ⟨w, hw, _⟩ := hmembers m hm
    exact List.mem_map.mpr ⟨_, Members.mem_of_get? hw, rfl⟩
  refine (List.subperm_of_subset hd hsubset).perm_of_length_le ?_
  rw [Members.names, Members.names, List.length_map, List.length_map, hlength]

theorem eq_symm {v w : JsonValue} (hv : v.Distinct) (h : v.eq w = true) : w.eq v = true := by
  induction hv generalizing w with
  | null => cases w <;> first | rfl | cases h
  | bool => exact eq_comm_of_magnitude rfl h
  | int => exact eq_comm_of_magnitude rfl h
  | @float f =>
    cases f with
    | nan =>
      rw [nan_eq] at h
      cases h
    | inf negative => exact eq_comm_of_magnitude rfl h
    | finite => exact eq_comm_of_magnitude rfl h
  | str =>
    rw [str_eq] at h
    rw [h, str_eq]
  | list _ ih =>
    cases w with
    | list ys =>
      rw [eq, eqItems_iff] at h ⊢
      have hboth := (List.forall₂_and_left _ _).mpr ⟨ih, h⟩
      exact (hboth.imp fun x y hxy => hxy.1 hxy.2).flip
    | _ => cases h
  | dict hd _ ih =>
    cases w with
    | dict ns =>
      have hperm := names_perm hd h
      obtain ⟨hlength, hmembers⟩ := eq_dict_iff.mp h
      refine eq_dict_iff.mpr ⟨hlength.symm, ?_⟩
      intro n hn
      obtain ⟨m, hm, hname⟩ := List.mem_map.mp (hperm.mem_iff.mpr (List.mem_map_of_mem (f := Prod.fst) hn))
      obtain ⟨w, hw, heq⟩ := hmembers m hm
      rw [hname, Members.get?_of_mem (hperm.nodup hd) hn] at hw
      obtain rfl := Option.some.inj hw
      refine ⟨m.2, ?_, ih m hm heq⟩
      rw [← hname, Members.get?_of_mem hd hm]
    | _ => cases h

theorem forall₂_trans {R : JsonValue → JsonValue → Prop} {xs ys zs : List JsonValue}
    (htrans : ∀ x ∈ xs, ∀ y z, R x y → R y z → R x z) (h : List.Forall₂ R xs ys) (h' : List.Forall₂ R ys zs) :
    List.Forall₂ R xs zs := by
  induction h generalizing zs with
  | nil =>
    cases h'
    exact .nil
  | cons hxy _ ih =>
    cases h' with
    | cons hyz hrest =>
      exact .cons (htrans _ List.mem_cons_self _ _ hxy hyz) (ih (fun x hx => htrans x (List.mem_cons_of_mem _ hx)) hrest)

theorem eq_trans {v w u : JsonValue} (h : v.eq w = true) (h' : w.eq u = true) : v.eq u = true := by
  induction v using nodes.induct generalizing w u with
  | case1 items ih =>
    cases w with
    | list ys =>
      cases u with
      | list zs =>
        rw [eq, eqItems_iff] at h h' ⊢
        exact forall₂_trans (fun x hx y z hxy hyz => ih x hx hxy hyz) h h'
      | _ => cases h'
    | _ => cases h
  | case2 members ih =>
    cases w with
    | dict ns =>
      cases u with
      | dict os =>
        obtain ⟨hlength, hmembers⟩ := eq_dict_iff.mp h
        obtain ⟨hlength', hmembers'⟩ := eq_dict_iff.mp h'
        refine eq_dict_iff.mpr ⟨hlength.trans hlength', ?_⟩
        intro m hm
        obtain ⟨w, hw, hvw⟩ := hmembers m hm
        obtain ⟨u, hu, hwu⟩ := hmembers' _ (Members.mem_of_get? hw)
        exact ⟨u, hu, ih m hm hvw hwu⟩
      | _ => cases h'
    | _ => cases h
  | case3 v hlist hdict =>
    cases v with
    | null =>
      cases w with
      | null => exact h'
      | _ => cases h
    | bool => exact eq_trans_of_magnitude rfl h h'
    | int => exact eq_trans_of_magnitude rfl h h'
    | float f =>
      cases f with
      | nan =>
        rw [nan_eq] at h
        cases h
      | inf negative => exact eq_trans_of_magnitude rfl h h'
      | finite => exact eq_trans_of_magnitude rfl h h'
    | str =>
      rw [str_eq] at h
      rwa [h] at h'
    | list items => exact absurd rfl (hlist items)
    | dict members => exact absurd rfl (hdict members)

/-- Equal values compare alike with any third. -/
theorem eq_congr_right {v w u : JsonValue} (hw : w.Distinct) (h : w.eq u = true) : v.eq w = v.eq u := by
  rw [Bool.eq_iff_iff]
  exact ⟨fun hv => eq_trans hv h, fun hv => eq_trans hv (eq_symm hw h)⟩

theorem eq_congr_left {v w u : JsonValue} (hv : v.Distinct) (h : v.eq w = true) : v.eq u = w.eq u := by
  rw [Bool.eq_iff_iff]
  exact ⟨fun hu => eq_trans (eq_symm hv h) hu, fun hu => eq_trans h hu⟩

/-! ### Members and sets -/

/-- Equal objects have equal members. -/
theorem get?_of_eq {ms ns : Members} (hd : ms.names.Nodup) (h : (JsonValue.dict ms).eq (.dict ns) = true) (key : Text) :
    (ms.get? key = none ∧ ns.get? key = none) ∨ ∃ v w, ms.get? key = some v ∧ ns.get? key = some w ∧ v.eq w = true := by
  have hnames : key ∈ ms.names ↔ key ∈ ns.names := (names_perm hd h).mem_iff
  rw [Members.mem_names_iff, Members.mem_names_iff, Members.has, Members.has] at hnames
  cases hv : ms.get? key with
  | none =>
    rw [hv] at hnames
    exact .inl ⟨rfl, Option.not_isSome_iff_eq_none.mp fun hsome => Bool.false_ne_true (hnames.mpr hsome)⟩
  | some v =>
    obtain ⟨w, hw, heq⟩ := (eq_dict_iff.mp h).2 _ (Members.mem_of_get? hv)
    exact .inr ⟨v, w, rfl, hw, heq⟩

theorem get_of_eq {ms ns : Members} (hd : ms.names.Nodup) (h : (JsonValue.dict ms).eq (.dict ns) = true) (key : Text) :
    (ms.get key).eq (ns.get key) = true := by
  rcases get?_of_eq hd h key with ⟨hv, hw⟩ | ⟨v, w, hv, hw, heq⟩
  · rw [Members.get, Members.get, hv, hw]
    rfl
  · rwa [Members.get, Members.get, hv, hw]

theorem isIn_of_forall₂ {xs ys : List JsonValue} (hd : ∀ x ∈ xs, x.Distinct)
    (h : List.Forall₂ (fun x y => x.eq y = true) xs ys) (value : JsonValue) : value.isIn xs = value.isIn ys := by
  rw [isIn, isIn]
  induction h with
  | nil => rfl
  | cons hxy _ ih =>
    obtain ⟨hx, hxs⟩ := List.forall_mem_cons.mp hd
    rw [List.any_cons, List.any_cons, eq_congr_left hx hxy, ih hxs]

theorem hashable_of_eq {v w : JsonValue} (h : v.eq w = true) : v.hashable = w.hashable := by
  cases v <;> cases w <;> first | rfl | cases h

theorem set_eq_ok {value : JsonValue} {items : List JsonValue} :
    value.set = .ok items ↔ value.elements = .ok items ∧ ∀ item ∈ items, item.hashable = true := by
  simp only [set, bind_eq_ok, exists_unit, forEach_eq_ok, raiseIf_eq_ok, Bool.not_eq_false', Except.ok.injEq]
  constructor
  · rintro ⟨found, hfound, hall, rfl⟩
    exact ⟨hfound, hall⟩
  · rintro ⟨hfound, hall⟩
    exact ⟨items, hfound, hall, rfl⟩

/-- The sets of equal values hold equal elements, where there are sets of them. -/
theorem set_of_eq {v w : JsonValue} (hd : v.Distinct) (h : v.eq w = true) :
    (∃ xs ys, v.set = .ok xs ∧ w.set = .ok ys ∧ ∀ value, isIn value xs = isIn value ys) ∨
      (∀ xs, v.set ≠ .ok xs) ∧ ∀ ys, w.set ≠ .ok ys := by
  simp only [ne_eq, set_eq_ok]
  cases v with
  | list xs =>
    cases w with
    | list ys =>
      rw [eq, eqItems_iff] at h
      have hhashable : (∀ x ∈ xs, x.hashable = true) ↔ ∀ y ∈ ys, y.hashable = true := by
        clear hd
        induction h with
        | nil => exact iff_of_true (List.forall_mem_nil _) (List.forall_mem_nil _)
        | cons hxy _ ih => rw [List.forall_mem_cons, List.forall_mem_cons, hashable_of_eq hxy, ih]
      have hitems : ∀ x ∈ xs, x.Distinct := by
        cases hd
        assumption
      by_cases hall : ∀ x ∈ xs, x.hashable = true
      · exact .inl ⟨xs, ys, ⟨rfl, hall⟩, ⟨rfl, hhashable.mp hall⟩, isIn_of_forall₂ hitems h⟩
      · refine .inr ⟨?_, ?_⟩
        · rintro _ ⟨hfound, hxs⟩
          cases hfound
          exact hall hxs
        · rintro _ ⟨hfound, hys⟩
          cases hfound
          exact hall (hhashable.mpr hys)
    | _ => cases h
  | str s =>
    rw [str_eq] at h
    subst h
    refine .inl ⟨_, _, ⟨rfl, ?_⟩, ⟨rfl, ?_⟩, fun _ => rfl⟩ <;>
    · intro item hitem
      obtain ⟨c, _, rfl⟩ := List.mem_map.mp hitem
      rfl
  | dict ms =>
    cases w with
    | dict ns =>
      have hnodup : (Members.names ms).Nodup := by
        cases hd
        assumption
      have hnames := names_perm hnodup h
      have hstrings (members : Members) : ∀ item ∈ members.map fun m => JsonValue.str m.1, item.hashable = true := by
        intro item hitem
        obtain ⟨m, _, rfl⟩ := List.mem_map.mp hitem
        rfl
      refine .inl ⟨_, _, ⟨rfl, hstrings ms⟩, ⟨rfl, hstrings ns⟩, fun value => ?_⟩
      have hmap (members : Members) : members.map (fun m => JsonValue.str m.1) = members.names.map .str := by
        rw [Members.names, List.map_map]
        rfl
      rw [hmap, hmap, isIn, isIn]
      exact (hnames.map _).any_eq
    | _ => cases h
  | _ =>
    refine .inr ⟨?_, ?_⟩
    · rintro _ ⟨hfound, _⟩
      cases hfound
    · rintro _ ⟨hfound, _⟩
      cases w <;> first | (cases h; done) | cases hfound

/-- One value up to the order of members is an equal value. -/
theorem eq_of_same {v w : JsonValue} (hv : v.Exact) (h : v.Same w) : v.eq w = true := by
  induction hv generalizing w with
  | null =>
    cases h
    rfl
  | bool =>
    cases h
    rw [eq, beq_self_eq_true]
  | int =>
    cases h
    rw [eq, beq_self_eq_true]
  | str =>
    cases h
    rw [str_eq]
  | list _ ih =>
    cases h with
    | list hlength hitems =>
      rw [eq, eqItems_iff, List.forall₂_iff_get]
      refine ⟨hlength, fun i hi hj => ih _ (List.getElem_mem hi) (hitems i hi hj)⟩
  | @dict members hd hwell _ ih =>
    cases h with
    | @dict _ others hperm hmembers =>
      refine eq_dict_iff.mpr ⟨?_, ?_⟩
      · have hlength := hperm.length_eq
        rwa [Members.names, Members.names, List.length_map, List.length_map] at hlength
      · intro m hm
        have hname : m.1 ∈ Members.names members := List.mem_map_of_mem (f := Prod.fst) hm
        have hhas : Members.has others m.1 = true := Members.mem_names_iff.mp (hperm.mem_iff.mp hname)
        obtain ⟨w, hw⟩ := Option.isSome_iff_exists.mp hhas
        have hsame := hmembers m.1 hname
        rw [Members.get_of_mem hd hm, Members.get, hw, Option.getD_some] at hsame
        exact ⟨w, hw, ih m hm hsame⟩

end JsonValue

end AitpVerifier
