import AitpVerifier.CertificatePath
import AitpVerifier.RevocationLast

/-!
# Name constraints in another letter case

A trust domain is lowercase, and a constraint is compared with it as it stands.
So a constraint of any other spelling matches nothing: a permitted subtree then
permits nothing, and an excluded one excludes nothing.
-/
namespace AitpVerifier

open PyText Checked

/-! ### ASCII letter case -/

def lowerChar (c : CodePoint) : CodePoint := if 0x41 ≤ c.val ∧ c.val ≤ 0x5A then Fin.ofNat _ (c.val + 0x20) else c

def upperChar (c : CodePoint) : CodePoint := if 0x61 ≤ c.val ∧ c.val ≤ 0x7A then Fin.ofNat _ (c.val - 0x20) else c

def IsLetter (c : CodePoint) : Prop := (0x41 ≤ c.val ∧ c.val ≤ 0x5A) ∨ (0x61 ≤ c.val ∧ c.val ≤ 0x7A)

def HasLetter (s : Text) : Prop := ∃ c ∈ s, IsLetter c

/-- The text in lower case. -/
def lower (s : Text) : Text := s.map lowerChar

/-- The text in upper case. -/
def upper (s : Text) : Text := s.map upperChar

theorem val_lowerChar (c : CodePoint) : (lowerChar c).val = if 0x41 ≤ c.val ∧ c.val ≤ 0x5A then c.val + 0x20 else c.val := by
  rw [lowerChar]
  split
  · rw [Fin.val_ofNat, Nat.mod_eq_of_lt]
    omega
  · rfl

theorem val_upperChar (c : CodePoint) : (upperChar c).val = if 0x61 ≤ c.val ∧ c.val ≤ 0x7A then c.val - 0x20 else c.val := by
  rw [upperChar]
  split
  · rw [Fin.val_ofNat, Nat.mod_eq_of_lt]
    omega
  · rfl

theorem lowerChar_lowerChar (c : CodePoint) : lowerChar (lowerChar c) = lowerChar c := by
  apply Fin.ext
  simp only [val_lowerChar]
  split_ifs <;> omega

theorem lowerChar_upperChar (c : CodePoint) : lowerChar (upperChar c) = lowerChar c := by
  apply Fin.ext
  simp only [val_lowerChar, val_upperChar]
  split_ifs <;> omega

/-- A letter in upper case is not its own lower case. -/
theorem lowerChar_ne_of_upper {c : CodePoint} (h : IsLetter c) : lowerChar (upperChar c) ≠ upperChar c := by
  rw [Ne, Fin.ext_iff]
  simp only [val_lowerChar, val_upperChar]
  rw [IsLetter] at h
  split_ifs <;> omega

theorem lowerChar_eq_of_not_letter {c d : CodePoint} (h : ¬IsLetter c) (hsame : lowerChar d = lowerChar c) : d = c := by
  rw [Fin.ext_iff] at hsame ⊢
  simp only [val_lowerChar] at hsame
  rw [IsLetter] at h
  split_ifs at hsame <;> omega

theorem lower_lower (s : Text) : lower (lower s) = lower s := by
  rw [lower, lower, List.map_map]
  exact List.map_congr_left fun c _ => lowerChar_lowerChar c

theorem lower_upper (s : Text) : lower (upper s) = lower s := by
  rw [lower, upper, List.map_map]
  exact List.map_congr_left fun c _ => lowerChar_upperChar c

theorem eq_of_lower_eq {s t : Text} (h : ¬HasLetter s) (hsame : lower t = lower s) : t = s := by
  induction s generalizing t with
  | nil => exact List.map_eq_nil_iff.mp hsame
  | cons c s ih =>
    cases t with
    | nil => cases hsame
    | cons d t =>
      rw [lower, lower, List.map_cons, List.map_cons, List.cons.injEq] at hsame
      have hc : ¬IsLetter c := fun hletter => h ⟨c, List.mem_cons_self, hletter⟩
      have hs : ¬HasLetter s := by
        rintro ⟨e, he, hletter⟩
        exact h ⟨e, List.mem_cons_of_mem _ he, hletter⟩
      rw [lowerChar_eq_of_not_letter hc hsame.1, ih hs hsame.2]

/-! ### A constraint against a lowercase host -/

section

variable {host constraint : Text}

theorem HostMatches.subset (h : HostMatches host constraint) : ∀ c ∈ constraint, c ∈ host := by
  rcases h with ⟨_, hsuffix⟩ | ⟨_, rfl⟩
  · exact fun c hc => hsuffix.subset hc
  · exact fun c hc => hc

theorem lowerChar_of_mem (hlower : lower host = host) {c : CodePoint} (hc : c ∈ host) : lowerChar c = c :=
  List.map_inj_left.mp (hlower.trans (List.map_id host).symm) c hc

/-- A constraint that matches is spelled in lower case. -/
theorem HostMatches.lower_eq (hlower : lower host = host) (h : HostMatches host constraint) : lower constraint = constraint := by
  have hfixed : ∀ c ∈ constraint, lowerChar c = id c := fun c hc => lowerChar_of_mem hlower (h.subset c hc)
  rw [lower, List.map_congr_left hfixed, List.map_id]

theorem not_matches_upper (hlower : lower host = host) (hletter : HasLetter constraint) : ¬HostMatches host (upper constraint) := by
  intro h
  obtain ⟨c, hc, hletter⟩ := hletter
  exact lowerChar_ne_of_upper hletter (lowerChar_of_mem hlower (h.subset _ (List.mem_map_of_mem hc)))

end

/-! ### Constraints in another case -/

/-- The same name, but for the letter case of a URI. -/
inductive RecasedName : GeneralName → GeneralName → Prop
  | uri {a b : Text} : lower a = lower b → RecasedName (.uri a) (.uri b)
  | other : RecasedName .other .other

/-- The same subtrees, but for the letter case of their URIs. -/
def RecasedTrees (trees trees' : Option (List GeneralName)) : Prop := Option.Rel (List.Forall₂ RecasedName) trees trees'

inductive RecasedValue : ExtensionValue → ExtensionValue → Prop
  | constraints {permitted permitted' excluded excluded' : Option (List GeneralName)} : RecasedTrees permitted permitted' →
      RecasedTrees excluded excluded' → RecasedValue (.nameConstraints permitted excluded) (.nameConstraints permitted' excluded')
  | same (value : ExtensionValue) : RecasedValue value value

structure RecasedExtension (e e' : Extension) : Prop where
  oid : e'.oid = e.oid
  critical : e'.critical = e.critical
  value : RecasedValue e.value e'.value

/-- A certificate that carries the same extensions, but for the letter case of name constraints. -/
inductive RecasedCertificate (cert cert' : Certificate) : Prop
  | read {extensions extensions' : List Extension} : cert.extensions = .ok extensions → cert'.extensions = .ok extensions' →
      List.Forall₂ RecasedExtension extensions extensions' → RecasedCertificate cert cert'
  | refused : cert'.extensions = cert.extensions → RecasedCertificate cert cert'

theorem RecasedName.symm {a b : GeneralName} (h : RecasedName a b) : RecasedName b a := by
  cases h with
  | uri hsame => exact .uri hsame.symm
  | other => exact .other

section

variable {trees trees' permitted permitted' excluded excluded' : Option (List GeneralName)} {host : Text}

/-- A URI of one has its other spelling in the other. -/
theorem RecasedTrees.uri (h : RecasedTrees trees trees') {names' : List GeneralName} (hnames' : trees' = some names')
    {value' : Text} (hm : .uri value' ∈ names') : ∃ names value, trees = some names ∧ .uri value ∈ names ∧ lower value = lower value' := by
  cases h with
  | none => cases hnames'
  | @some names other hall =>
    obtain rfl := Option.some.inj hnames'
    obtain ⟨name, hname, hrecased⟩ := mem_of_forall₂ hall hm
    cases hrecased with
    | @uri a _ hsame => exact ⟨names, a, rfl, hname, hsame⟩

theorem RecasedTrees.symm (h : RecasedTrees trees trees') : RecasedTrees trees' trees := by
  cases h with
  | none => exact .none
  | some hall => exact .some (hall.flip.imp fun _ _ hab => hab.symm)

theorem RecasedTrees.getD (h : RecasedTrees trees trees') : List.Forall₂ RecasedName (trees.getD []) (trees'.getD []) := by
  cases h with
  | none => exact .nil
  | some hall => exact hall

/-- Only URI constraints. -/
def UriForm (permitted excluded : Option (List GeneralName)) : Prop :=
  ∀ name ∈ permitted.getD [] ++ excluded.getD [], ∃ value, name = .uri value

theorem uriForm_recased (hp : RecasedTrees permitted permitted') (he : RecasedTrees excluded excluded')
    (h : UriForm permitted excluded) : UriForm permitted' excluded' := by
  intro name' hm
  obtain ⟨name, hname, hrecased⟩ := mem_of_forall₂ (List.rel_append hp.getD he.getD) hm
  obtain ⟨value, rfl⟩ := h name hname
  cases hrecased with
  | @uri _ b _ => exact ⟨b, rfl⟩

/-- In some letter case the constraints admit the host. -/
structure MayAdmit (permitted excluded : Option (List GeneralName)) (host : Text) : Prop where
  uriForm : UriForm permitted excluded
  permits : ∀ names ∈ permitted, ∃ constraint, .uri constraint ∈ names ∧ HostMatches host (lower constraint)
  notExcluded : ∀ names ∈ excluded, ∀ constraint, .uri constraint ∈ names → HasLetter constraint ∨ ¬HostMatches host constraint

/-- In some letter case they do not. -/
def MayRefuse (permitted excluded : Option (List GeneralName)) (host : Text) : Prop :=
  (∃ names ∈ permitted, ∀ constraint, .uri constraint ∈ names → HasLetter constraint ∨ ¬HostMatches host constraint) ∨
    ∃ names ∈ excluded, ∃ constraint, .uri constraint ∈ names ∧ HostMatches host (lower constraint)

/-- A text without a letter has one spelling. -/
theorem letter_or_not_matches {value value' : Text} (hsame : lower value = lower value') (hnot : ¬HostMatches host value') :
    HasLetter value ∨ ¬HostMatches host value := by
  by_cases hletter : HasLetter value
  · exact .inl hletter
  · rw [← eq_of_lower_eq hletter hsame.symm]
    exact .inr hnot

theorem mayAdmit_of_recased (hlower : lower host = host) (hp : RecasedTrees permitted permitted')
    (he : RecasedTrees excluded excluded') (h : Admits permitted' excluded' host) : MayAdmit permitted excluded host := by
  refine ⟨uriForm_recased hp.symm he.symm h.uriForm, ?_, ?_⟩
  · rintro names rfl
    cases hp with
    | @some _ names' hall =>
      obtain ⟨constraint', hm, hmatches⟩ := h.permits names' rfl
      obtain ⟨other, constraint, hother, hconstraint, hsame⟩ := RecasedTrees.uri (.some hall) rfl hm
      obtain rfl := Option.some.inj hother
      refine ⟨constraint, hconstraint, ?_⟩
      rwa [hsame, hmatches.lower_eq hlower]
  · rintro names rfl constraint hm
    obtain ⟨names', constraint', hnames', hm', hsame⟩ := he.symm.uri rfl hm
    exact letter_or_not_matches hsame.symm (h.notExcluded names' hnames' constraint' hm')

theorem mayRefuse_of_recased (hlower : lower host = host) (hp : RecasedTrees permitted permitted')
    (he : RecasedTrees excluded excluded') (hform : UriForm permitted excluded) (h : ¬Admits permitted' excluded' host) :
    MayRefuse permitted excluded host := by
  by_contra hnone
  rw [MayRefuse, not_or] at hnone
  obtain ⟨hpermits, hexcludes⟩ := hnone
  refine h ⟨uriForm_recased hp he hform, ?_, ?_⟩
  · rintro names' rfl
    by_contra hno
    cases hp with
    | @some names _ hall =>
      refine hpermits ⟨names, rfl, fun constraint hm => ?_⟩
      obtain ⟨other, constraint', hother, hm', hsame⟩ := RecasedTrees.uri (RecasedTrees.symm (.some hall)) rfl hm
      obtain rfl := Option.some.inj hother
      exact letter_or_not_matches hsame.symm fun hmatches => hno ⟨constraint', hm', hmatches⟩
  · rintro names' rfl constraint' hm' hmatches
    obtain ⟨names, constraint, hnames, hm, hsame⟩ := he.uri rfl hm'
    refine hexcludes ⟨names, hnames, constraint, hm, ?_⟩
    rwa [hsame, hmatches.lower_eq hlower]

end

/-! ### Respelling every constraint -/

def respellName (spell : Text → Text) : GeneralName → GeneralName
  | .uri value => .uri (spell value)
  | .other => .other

def respellTrees (spell : Text → Text) (trees : Option (List GeneralName)) : Option (List GeneralName) :=
  trees.map (List.map (respellName spell))

/-- Name constraints with every permitted and every excluded URI respelled. -/
def respellValue (spell spell' : Text → Text) : ExtensionValue → ExtensionValue
  | .nameConstraints permitted excluded => .nameConstraints (respellTrees spell permitted) (respellTrees spell' excluded)
  | value => value

def respell (spell spell' : Text → Text) (cert : Certificate) : Certificate :=
  { cert with
    extensions := (do
      let extensions ← cert.extensions
      .ok (extensions.map (fun e => { e with value := respellValue spell spell' e.value }))) }

section

variable {spell spell' : Text → Text}

theorem recasedName_respell (hspell : ∀ s, lower (spell s) = lower s) (name : GeneralName) : RecasedName name (respellName spell name) := by
  cases name with
  | uri value => exact .uri (hspell value).symm
  | other => exact .other

theorem recasedTrees_respell (hspell : ∀ s, lower (spell s) = lower s) (trees : Option (List GeneralName)) :
    RecasedTrees trees (respellTrees spell trees) := by
  cases trees with
  | none => exact .none
  | some names =>
    refine .some (List.forall₂_map_right_iff.mpr ?_)
    exact List.forall₂_same.mpr fun name _ => recasedName_respell hspell name

theorem recasedTrees_refl (trees : Option (List GeneralName)) : RecasedTrees trees trees := by
  have h := recasedTrees_respell (fun s => rfl : ∀ s, lower (id s) = lower s) trees
  cases trees with
  | none => exact .none
  | some names =>
    have hid : names.map (respellName id) = names :=
      (List.map_congr_left fun name _ => by cases name <;> rfl).trans (List.map_id names)
    rwa [respellTrees, Option.map_some, hid] at h

theorem recasedValue_respell (hspell : ∀ s, lower (spell s) = lower s) (hspell' : ∀ s, lower (spell' s) = lower s)
    (value : ExtensionValue) : RecasedValue value (respellValue spell spell' value) := by
  cases value with
  | nameConstraints permitted excluded =>
    exact .constraints (recasedTrees_respell hspell permitted) (recasedTrees_respell hspell' excluded)
  | _ => exact .same _

theorem recased_respell (hspell : ∀ s, lower (spell s) = lower s) (hspell' : ∀ s, lower (spell' s) = lower s) (cert : Certificate) :
    RecasedCertificate cert (respell spell spell' cert) := by
  cases hread : cert.extensions with
  | error e =>
    refine .refused ?_
    rw [respell, hread]
    rfl
  | ok extensions =>
    refine .read hread (by rw [respell, hread]; rfl) (List.forall₂_map_right_iff.mpr ?_)
    exact List.forall₂_same.mpr fun e _ => ⟨rfl, rfl, recasedValue_respell hspell hspell' e.value⟩

theorem carries_respell {cert : Certificate} {oid : Text} {value : ExtensionValue} (h : cert.Carries oid value) :
    (respell spell spell' cert).Carries oid (respellValue spell spell' value) := by
  obtain ⟨extensions, hread, hfind⟩ := h
  refine ⟨_, by rw [respell, hread]; rfl, ?_⟩
  rw [List.find?_map, Option.map_map]
  change ((extensions.find? fun e => e.oid == oid).map fun e => respellValue spell spell' e.value) = _
  rw [Option.map_eq_some_iff] at hfind ⊢
  obtain ⟨e, he, rfl⟩ := hfind
  exact ⟨e, he, rfl⟩

theorem mem_respellTrees {trees : Option (List GeneralName)} {names' : List GeneralName} (h : respellTrees spell trees = some names')
    {value' : Text} (hm : .uri value' ∈ names') : ∃ names value, trees = some names ∧ .uri value ∈ names ∧ spell value = value' := by
  rw [respellTrees, Option.map_eq_some_iff] at h
  obtain ⟨names, rfl, rfl⟩ := h
  obtain ⟨name, hname, hvalue⟩ := List.mem_map.mp hm
  cases name with
  | uri value => exact ⟨names, value, rfl, hname, GeneralName.uri.inj hvalue⟩
  | other => cases hvalue

end

section

variable {permitted excluded : Option (List GeneralName)} {host : Text}

theorem not_matches_respelled (hlower : lower host = host) {constraint : Text}
    (h : HasLetter constraint ∨ ¬HostMatches host constraint) : ¬HostMatches host (upper constraint) := by
  by_cases hletter : HasLetter constraint
  · exact not_matches_upper hlower hletter
  · rw [eq_of_lower_eq hletter (lower_upper constraint)]
    exact h.resolve_left hletter

/-- Permitted in lower case and excluded in upper case, the constraints admit the host if they may. -/
theorem MayAdmit.respelled (hlower : lower host = host) (h : MayAdmit permitted excluded host) :
    Admits (respellTrees lower permitted) (respellTrees upper excluded) host := by
  refine ⟨uriForm_recased (recasedTrees_respell lower_lower permitted) (recasedTrees_respell lower_upper excluded) h.uriForm, ?_, ?_⟩
  · intro names' hnames'
    obtain ⟨names, rfl, rfl⟩ := Option.map_eq_some_iff.mp (show permitted.map _ = some names' from hnames')
    obtain ⟨constraint, hm, hmatches⟩ := h.permits names rfl
    exact ⟨lower constraint, List.mem_map_of_mem (f := respellName lower) hm, hmatches⟩
  · intro names' hnames' constraint' hm'
    obtain ⟨names, constraint, hnames, hm, rfl⟩ := mem_respellTrees hnames' hm'
    exact not_matches_respelled hlower (h.notExcluded names hnames constraint hm)

/-- Permitted in upper case and excluded in lower case, they refuse it if they may. -/
theorem MayRefuse.respelled (hlower : lower host = host) (h : MayRefuse permitted excluded host) :
    ¬Admits (respellTrees upper permitted) (respellTrees lower excluded) host := by
  intro hadmits
  rcases h with ⟨names, rfl, hnone⟩ | ⟨names, rfl, constraint, hm, hmatches⟩
  · obtain ⟨constraint', hm', hmatches⟩ := hadmits.permits _ rfl
    obtain ⟨other, constraint, hother, hm, rfl⟩ := @mem_respellTrees _ (some names) _ rfl _ hm'
    obtain rfl := Option.some.inj hother
    exact not_matches_respelled hlower (hnone constraint hm) hmatches
  · exact hadmits.notExcluded _ rfl (lower constraint) (List.mem_map_of_mem (f := respellName lower) hm) hmatches

end

/-! ### The decision -/

/-- The decision on the name constraints of a certificate. -/
def admitsDomain (cert : Certificate) (trustDomain what : Text) : Bool := (Spiffe.checkNameConstraints cert trustDomain what).isOk

theorem admitsDomain_iff {cert : Certificate} {trustDomain what : Text} {permitted excluded : Option (List GeneralName)}
    (hcarries : cert.Carries Spiffe.nameConstraintsOid (.nameConstraints permitted excluded)) :
    admitsDomain cert trustDomain what = true ↔ Admits permitted excluded trustDomain := by
  rw [admitsDomain, isOk_iff, ← checkNameConstraints_admits hcarries, exists_unit]

/-- An extension of either certificate has its counterpart in the other. -/
theorem find_recased {oid : Text} {extensions extensions' : List Extension} (h : List.Forall₂ RecasedExtension extensions extensions') :
    Option.Rel RecasedValue ((extensions.find? (fun e => e.oid == oid)).map Extension.value)
      ((extensions'.find? (fun e => e.oid == oid)).map Extension.value) := by
  induction h with
  | nil => exact .none
  | @cons e e' extensions extensions' hsame _ ih =>
    rw [List.find?_cons, List.find?_cons, hsame.oid]
    cases e.oid == oid with
    | true => exact .some hsame.value
    | false => exact ih

/-- A value that constrains no name has one spelling. -/
theorem admitsDomain_unconstrained {cert cert' : Certificate} {trustDomain what : Text} (h : RecasedCertificate cert cert')
    (hnone : ∀ permitted excluded, ¬cert.Carries Spiffe.nameConstraintsOid (.nameConstraints permitted excluded)) :
    admitsDomain cert' trustDomain what = admitsDomain cert trustDomain what := by
  have hsame : Spiffe.ext? cert' Spiffe.nameConstraintsOid = Spiffe.ext? cert Spiffe.nameConstraintsOid := by
    cases h with
    | refused hsame => rw [Spiffe.ext?, hsame, Spiffe.ext?]
    | @read extensions extensions' hread hread' hall =>
      rw [Spiffe.ext?, Spiffe.ext?, hread, hread']
      dsimp only
      have hrel := @find_recased Spiffe.nameConstraintsOid _ _ hall
      generalize hfound : (extensions.find? (fun e => e.oid == Spiffe.nameConstraintsOid)).map Extension.value = found at hrel ⊢
      generalize (extensions'.find? (fun e => e.oid == Spiffe.nameConstraintsOid)).map Extension.value = found' at hrel ⊢
      cases hrel with
      | none => rfl
      | some hvalue =>
        cases hvalue with
        | same => rfl
        | @constraints permitted _ excluded _ => exact absurd ⟨extensions, hread, hfound⟩ (hnone permitted excluded)
  rw [admitsDomain, admitsDomain, Spiffe.checkNameConstraints, Spiffe.checkNameConstraints, hsame]

theorem carries_recased {cert cert' : Certificate} {permitted excluded : Option (List GeneralName)} (h : RecasedCertificate cert cert')
    (hcarries : cert.Carries Spiffe.nameConstraintsOid (.nameConstraints permitted excluded)) :
    ∃ permitted' excluded', cert'.Carries Spiffe.nameConstraintsOid (.nameConstraints permitted' excluded') ∧
      RecasedTrees permitted permitted' ∧ RecasedTrees excluded excluded' := by
  obtain ⟨extensions, hread, hfound⟩ := hcarries
  have hself : (∃ permitted' excluded', cert.Carries Spiffe.nameConstraintsOid (.nameConstraints permitted' excluded') ∧
      RecasedTrees permitted permitted' ∧ RecasedTrees excluded excluded') :=
    ⟨permitted, excluded, ⟨extensions, hread, hfound⟩, recasedTrees_refl permitted, recasedTrees_refl excluded⟩
  cases h with
  | refused hsame =>
    obtain ⟨permitted', excluded', ⟨extensions', hread', hfound'⟩, htrees⟩ := hself
    exact ⟨permitted', excluded', ⟨extensions', hsame.trans hread', hfound'⟩, htrees⟩
  | @read es es' hes hes' hall =>
    obtain rfl := Except.ok.inj (hread.symm.trans hes)
    have hrel := @find_recased Spiffe.nameConstraintsOid _ _ hall
    rw [hfound] at hrel
    generalize hfound' : (es'.find? (fun e => e.oid == Spiffe.nameConstraintsOid)).map Extension.value = found' at hrel
    cases hrel with
    | some hvalue =>
      cases hvalue with
      | same => exact ⟨permitted, excluded, ⟨es', hes', hfound'⟩, recasedTrees_refl permitted, recasedTrees_refl excluded⟩
      | constraints hp he => exact ⟨_, _, ⟨es', hes', hfound'⟩, hp, he⟩

/-- No change of letter case in a certificate's name constraints changes the decision. -/
def CaseFree (cert : Certificate) (trustDomain what : Text) : Prop :=
  ∀ cert', RecasedCertificate cert cert' → admitsDomain cert' trustDomain what = admitsDomain cert trustDomain what

/-- Letter case decides: in one the constraints admit the trust domain, in another they do not. -/
def CaseDecides (cert : Certificate) (trustDomain : Text) : Prop :=
  ∃ permitted excluded, cert.Carries Spiffe.nameConstraintsOid (.nameConstraints permitted excluded) ∧
    MayAdmit permitted excluded trustDomain ∧ MayRefuse permitted excluded trustDomain

/-- The decision is free of letter case exactly where letter case does not decide. -/
theorem caseFree_iff (cert : Certificate) (trustDomain what : Text) (hlower : lower trustDomain = trustDomain) :
    CaseFree cert trustDomain what ↔ ¬CaseDecides cert trustDomain := by
  constructor
  · rintro hfree ⟨permitted, excluded, hcarries, hmay, hrefuse⟩
    have haccepted := hfree _ (recased_respell lower_lower lower_upper cert)
    have hrefused := hfree _ (recased_respell lower_upper lower_lower cert)
    have hyes : admitsDomain (respell lower upper cert) trustDomain what = true :=
      (admitsDomain_iff (carries_respell hcarries)).mpr (hmay.respelled hlower)
    have hno : ¬admitsDomain (respell upper lower cert) trustDomain what = true :=
      fun h => hrefuse.respelled hlower ((admitsDomain_iff (carries_respell hcarries)).mp h)
    rw [hrefused, ← haccepted] at hno
    exact hno hyes
  · intro hnot cert' hrecased
    by_cases hconstrained : ∃ permitted excluded, cert.Carries Spiffe.nameConstraintsOid (.nameConstraints permitted excluded)
    · obtain ⟨permitted, excluded, hcarries⟩ := hconstrained
      obtain ⟨permitted', excluded', hcarries', hp, he⟩ := carries_recased hrecased hcarries
      rw [Bool.eq_iff_iff, admitsDomain_iff hcarries, admitsDomain_iff hcarries']
      constructor
      · intro hadmits'
        by_contra hadmits
        have hmay := mayAdmit_of_recased hlower hp he hadmits'
        exact hnot ⟨permitted, excluded, hcarries, hmay,
          mayRefuse_of_recased hlower (recasedTrees_refl _) (recasedTrees_refl _) hmay.uriForm hadmits⟩
      · intro hadmits
        by_contra hadmits'
        have hmay := mayAdmit_of_recased hlower (recasedTrees_refl _) (recasedTrees_refl _) hadmits
        exact hnot ⟨permitted, excluded, hcarries, hmay, mayRefuse_of_recased hlower hp he hmay.uriForm hadmits'⟩
    · refine admitsDomain_unconstrained hrecased fun permitted excluded hcarries => hconstrained ⟨permitted, excluded, hcarries⟩

/-- A CA that excludes a trust domain, in the given spelling. -/
def excludingCa (constraint : Text) : RecordedCertificate :=
  { issuingCa with
    extensions := caExtensions (some 0) ++
      [⟨Spiffe.nameConstraintsOid, true, .nameConstraints none (some [.uri constraint])⟩] }

theorem caseFree_iff_excluding :
    CaseFree (excludingCa (txt "Example.org")).loaded (txt "example.org") (txt "x5c[1]") ↔
      ¬CaseDecides (excludingCa (txt "Example.org")).loaded (txt "example.org") :=
  caseFree_iff (excludingCa (txt "Example.org")).loaded (txt "example.org") (txt "x5c[1]") (by decide +kernel)

/-- An exclusion that is not spelled in lower case excludes nothing. -/
theorem exclusion_by_case :
    RecasedCertificate (excludingCa (txt "example.org")).loaded (excludingCa (txt "Example.org")).loaded ∧
      lower (txt "example.org") = txt "example.org" ∧
      Raises (Spiffe.checkNameConstraints (excludingCa (txt "example.org")).loaded (txt "example.org") (txt "x5c[1]"))
        "IDENTITY_FAILED" ∧
      Spiffe.checkNameConstraints (excludingCa (txt "Example.org")).loaded (txt "example.org") (txt "x5c[1]") = .ok () ∧
      ¬CaseFree (excludingCa (txt "example.org")).loaded (txt "example.org") (txt "x5c[1]") := by
  have hrecased : RecasedCertificate (excludingCa (txt "example.org")).loaded (excludingCa (txt "Example.org")).loaded := by
    refine .read rfl rfl (.cons ⟨rfl, rfl, .same _⟩ (.cons ⟨rfl, rfl, .same _⟩ (.cons ⟨rfl, rfl, ?_⟩ .nil)))
    exact .constraints .none (.some (.cons (.uri (by decide +kernel)) .nil))
  have hrefused : Raises (Spiffe.checkNameConstraints (excludingCa (txt "example.org")).loaded (txt "example.org") (txt "x5c[1]"))
      "IDENTITY_FAILED" := by
    decide +kernel
  have haccepted : Spiffe.checkNameConstraints (excludingCa (txt "Example.org")).loaded (txt "example.org") (txt "x5c[1]") =
      .ok () := by
    decide +kernel
  refine ⟨hrecased, by decide +kernel, hrefused, haccepted, fun hfree => ?_⟩
  have hsame := hfree _ hrecased
  rw [admitsDomain, admitsDomain, haccepted, not_isOk_of_raises hrefused] at hsame
  cases hsame

end AitpVerifier
