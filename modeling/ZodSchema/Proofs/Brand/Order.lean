import Mathlib.Data.List.Forall2
import Mathlib.Data.List.Nodup
import ZodSchema.Brand.Registry
import ZodSchema.Proofs.Brand.Declared
import ZodSchema.Proofs.Brand.Registry

/-!
# Brands that are declared in another order

Where all declarations of a brand agree, a registry depends on their order only in the order of the
sites of a brand.

* `Unanimous`            all declarations of a brand agree
* `contains_perm`        the same brands are declared, in whatever order
* `SameBrand`            brands with the same sites in another order
* `sorted_perm`          the brands in order, compared one by one
* `lines_brandedFile`    the lines of the brand file, compared one by one
-/

namespace ZodSchema.Brand

open TypeScript

variable {ds ds' : List Declaration} {b : String}

/-- no two declarations of a brand disagree -/
def Unanimous (ds : List Declaration) : Prop :=
  ∀ x ∈ ds, ∀ y ∈ ds, x.brand = y.brand → x.chain = y.chain

theorem conflicts_eq_nil_iff : (declared ds).conflicts = [] ↔ Unanimous ds := by
  show ds.filterMap (disagreement? ds) = [] ↔ _
  rw [List.filterMap_eq_nil_iff]
  have hfirst : ∀ x ∈ ds, ∃ f ∈ ds, first? ds x.brand = some f ∧ f.brand = x.brand := by
    intro x hx
    obtain ⟨f, hf⟩ := Option.isSome_iff_exists.1 (first?_isSome hx)
    exact ⟨f, List.mem_of_find?_eq_some hf, hf, brand_of_first? hf⟩
  constructor
  · intro h
    -- every declaration agrees with the first one of its brand
    have hone : ∀ x ∈ ds, ∀ f, first? ds x.brand = some f → x.chain = f.chain := by
      intro x hx f hf
      have hn := h x hx
      rw [disagreement?, hf, Option.bind_some] at hn
      by_contra hne
      rw [if_neg hne] at hn
      cases hn
    intro x hx y hy hxy
    obtain ⟨f, _, hf, _⟩ := hfirst x hx
    rw [hone x hx f hf, hone y hy f (hxy ▸ hf)]
  · intro h x hx
    obtain ⟨f, hm, hf, hb⟩ := hfirst x hx
    rw [disagreement?, hf, Option.bind_some, if_pos (h x hx f hm hb.symm)]

theorem Unanimous.perm (h : Unanimous ds) (hp : ds.Perm ds') : Unanimous ds' := fun x hx y hy =>
  h x (hp.mem_iff.2 hx) y (hp.mem_iff.2 hy)

/-! ## the brands -/

theorem contains_declared : (declared ds).contains b = true ↔ b ∈ ds.map (·.brand) := by
  rw [Registry.contains, get?_declared, Option.isSome_map, mem_brands]

theorem contains_perm (hp : ds.Perm ds') : (declared ds).contains = (declared ds').contains := by
  funext b
  rw [Bool.eq_iff_iff, contains_declared, contains_declared, (hp.map _).mem_iff]

theorem names_perm (hp : ds.Perm ds') : (declared ds).names = (declared ds').names := by
  refine Text.Str.sortDedup_congr fun b => ?_
  rw [names_declared, names_declared, List.mem_eraseDups, List.mem_eraseDups, (hp.map _).mem_iff]

/-- the brand that stands for a field depends on the brands that there are -/
theorem fieldBrand?_congr {r r' : Registry} (h : r.contains = r'.contains) (m : Model) (f : Field) :
    r.fieldBrand? m f = r'.fieldBrand? m f := by
  unfold Registry.fieldBrand?
  rw [h]

/-! ## their sites -/

/-- brands that differ in the order of their sites alone -/
structure SameBrand (x y : Branded) : Prop where
  name : x.name = y.name
  chain : x.chain = y.chain
  sites : x.sites.Perm y.sites

theorem agreeing_perm (hp : ds.Perm ds') {f g : Declaration} (hb : f.brand = g.brand)
    (hc : f.chain = g.chain) : (agreeing ds f).Perm (agreeing ds' g) := by
  have hnodup : ∀ (xs : List String), xs.eraseDups.Nodup := Text.nodup_eraseDups
  refine (List.perm_ext_iff_of_nodup (hnodup _) (hnodup _)).2 fun s => ?_
  rw [List.mem_eraseDups, List.mem_eraseDups, hb, hc, ((hp.filter _).map _).mem_iff]

theorem get?_perm (hp : ds.Perm ds') (hu : Unanimous ds) (hb : b ∈ ds.map (·.brand)) :
    ∃ x y, (declared ds).get? b = some x ∧ (declared ds').get? b = some y ∧ SameBrand x y := by
  obtain ⟨f, hf⟩ := Option.isSome_iff_exists.1 (mem_brands.1 hb)
  obtain ⟨g, hg⟩ := Option.isSome_iff_exists.1 (mem_brands.1 ((hp.map _).mem_iff.1 hb))
  have hbrand : f.brand = g.brand := (brand_of_first? hf).trans (brand_of_first? hg).symm
  have hchain : f.chain = g.chain :=
    hu f (List.mem_of_find?_eq_some hf) g (hp.mem_iff.2 (List.mem_of_find?_eq_some hg)) hbrand
  refine ⟨branded ds f, branded ds' g, ?_, ?_, hbrand, hchain, agreeing_perm hp hbrand hchain⟩
  · rw [get?_declared, hf, Option.map_some]
  · rw [get?_declared, hg, Option.map_some]

theorem sorted_perm (hp : ds.Perm ds') (hu : Unanimous ds) :
    List.Forall₂ SameBrand (declared ds).sorted (declared ds').sorted := by
  have hmem : ∀ b ∈ (declared ds).names, b ∈ ds.map (·.brand) := fun b hb =>
    contains_declared.1 (Registry.contains_iff_mem_names.2 hb)
  unfold Registry.sorted
  rw [← names_perm hp]
  generalize (declared ds).names = ns at hmem ⊢
  induction ns with
  | nil => exact .nil
  | cons b bs ih =>
    obtain ⟨x, y, hx, hy, hxy⟩ := get?_perm hp hu (hmem b List.mem_cons_self)
    rw [List.filterMap_cons_some hx, List.filterMap_cons_some hy]
    exact .cons hxy (ih fun b hb => hmem b (List.mem_cons_of_mem _ hb))

/-! ## the brand file -/

/-- the comment line with the sites of a brand -/
def usedIn (sites : List String) : String :=
  Text.Str.trimRight ("" ++ " * " ++ breakTerminator ("Used in: " ++ Text.Str.join ", " sites))

/-- one line, or lines with the same sites in another order -/
def SameLine (l l' : String) : Prop :=
  l = l' ∨ ∃ sites sites', sites.Perm sites' ∧ l = usedIn sites ∧ l' = usedIn sites'

theorem sameLine_refl (ls : List String) : List.Forall₂ SameLine ls ls :=
  List.forall₂_same.2 fun _ _ => Or.inl rfl

theorem lines_brandStmts {x y : Branded} (h : SameBrand x y) :
    List.Forall₂ SameLine ((brandStmts x).flatMap Stmt.lines)
      ((brandStmts y).flatMap Stmt.lines) := by
  obtain ⟨n, chain, s⟩ := x
  obtain ⟨n', chain', s'⟩ := y
  obtain ⟨rfl, rfl, hs⟩ := h
  exact .cons (Or.inl rfl) (.cons (Or.inl rfl) (.cons (Or.inr ⟨s, s', hs, rfl, rfl⟩)
    (sameLine_refl _)))

/-- the lines of the brand file -/
theorem lines_brandedFile (c : Config) (hp : ds.Perm ds') (hu : Unanimous ds) :
    List.Forall₂ SameLine ((brandedFile c (declared ds)).stmts.flatMap Stmt.lines)
      ((brandedFile c (declared ds')).stmts.flatMap Stmt.lines) := by
  have hunion : nameUnion (declared ds) = nameUnion (declared ds') := by
    unfold nameUnion
    rw [names_perm hp]
  have hmid : List.Forall₂ SameLine
      (((declared ds).sorted.flatMap brandStmts).flatMap Stmt.lines)
      (((declared ds').sorted.flatMap brandStmts).flatMap Stmt.lines) := by
    rw [List.flatMap_assoc, List.flatMap_assoc]
    exact List.rel_flatMap (sorted_perm hp hu) fun _ _ h => lines_brandStmts h
  unfold brandedFile
  dsimp only
  rw [hunion]
  simp only [List.flatMap_append]
  exact List.rel_append (List.rel_append (sameLine_refl _) hmid) (sameLine_refl _)

end ZodSchema.Brand
