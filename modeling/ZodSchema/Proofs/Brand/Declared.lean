import Mathlib.Data.List.Basic
import Mathlib.Data.List.Induction
import ZodSchema.Brand.Registry
import ZodSchema.Proofs.Text.Chars

/-!
# The registry that a list of declarations describes

A registry is built declaration by declaration.  `declared` says what it holds at the end without
running through the list.

* `first?`, `firsts`     the first declaration of a brand, and of every brand
* `agreeing`             the sites of the declarations that agree with one
* `disagreement?`        the conflict that a declaration makes
* `register_declared`    one step: the registry of a list becomes that of the list with one more
* `foldlM_register`      a whole run, strict or not
-/

namespace ZodSchema.Brand

variable {ds : List Declaration} {x f : Declaration} {b : String}

/-- the first declaration of a brand -/
def first? (ds : List Declaration) (brand : String) : Option Declaration :=
  ds.find? (·.brand == brand)

/-- the first declaration of every brand, in order -/
def firsts (ds : List Declaration) : List Declaration :=
  (ds.map (·.brand)).eraseDups.filterMap (first? ds)

/-- the sites that give the brand of `f` the chain of `f`, in order, each once -/
def agreeing (ds : List Declaration) (f : Declaration) : List String :=
  ((ds.filter fun x => x.brand == f.brand && x.chain == f.chain).map (·.site)).eraseDups

/-- the brand that `f` declares first -/
def branded (ds : List Declaration) (f : Declaration) : Branded := ⟨f.brand, f.chain, agreeing ds f⟩

/-- the conflict of a declaration with the first one of its brand -/
def disagreement? (ds : List Declaration) (x : Declaration) : Option Conflict :=
  (first? ds x.brand).bind fun f =>
    if x.chain = f.chain then none else some ⟨x.brand, f.chain, f.site, x.chain, x.site⟩

/-- the registry that the declarations describe -/
def declared (ds : List Declaration) : Registry :=
  { brands := (firsts ds).map (branded ds)
    conflicts := ds.filterMap (disagreement? ds) }

/-- a declaration comes from an annotation with a brand that has a name -/
theorem exists_of_declarationOf? {p : Provider} {model : String} {field : Field}
    (h : declarationOf? p model field = some x) :
    ∃ a, Annotations.of? field.documentation = some a ∧ a.brand = some x.brand ∧ x.brand ≠ "" := by
  unfold declarationOf? at h
  split at h
  · next a ha =>
    split at h
    · next hb =>
      obtain rfl := Option.some.inj h
      obtain ⟨b, hb, hne⟩ := (Option.any_eq_true _ _).1 hb
      refine ⟨a, ha, ?_⟩
      simpa [declaration, hb] using hne
    · cases h
  · cases h

/-- every declaration is that of a field -/
theorem exists_of_mem_declarations {d : Datamodel} (h : x ∈ declarations d) :
    ∃ m ∈ d.models, ∃ field ∈ m.fields, declarationOf? d.provider.value m.name field = some x := by
  obtain ⟨m, hm, hx⟩ := List.mem_flatMap.1 h
  obtain ⟨field, hf, hx⟩ := List.mem_filterMap.1 hx
  exact ⟨m, hm, field, hf, hx⟩

/-! ## one declaration more -/

theorem first?_concat (ds : List Declaration) (x : Declaration) (b : String) :
    first? (ds ++ [x]) b = (first? ds b).or (if x.brand = b then some x else none) := by
  unfold first?
  rw [List.find?_append, List.find?_singleton]
  simp only [beq_iff_eq]

theorem brand_of_first? (h : first? ds b = some f) : f.brand = b := by
  simpa using List.find?_some h

theorem first?_isSome (hx : x ∈ ds) : (first? ds x.brand).isSome = true :=
  List.find?_isSome.2 ⟨x, hx, beq_self_eq_true _⟩

/-- a later declaration changes no first one -/
theorem first?_concat_of_mem {y : Declaration} (hy : y ∈ ds) (x : Declaration) :
    first? (ds ++ [x]) y.brand = first? ds y.brand := by
  obtain ⟨f, hf⟩ := Option.isSome_iff_exists.1 (first?_isSome hy)
  rw [first?_concat, hf, Option.some_or]

theorem mem_brands : b ∈ ds.map (·.brand) ↔ (first? ds b).isSome = true := by
  rw [first?, List.find?_isSome, List.mem_map]
  simp only [beq_iff_eq]

theorem firsts_concat (ds : List Declaration) (x : Declaration) :
    firsts (ds ++ [x]) = firsts ds ++ (if (first? ds x.brand).isSome then [] else [x]) := by
  have hold : ∀ b ∈ (ds.map (·.brand)).eraseDups, first? (ds ++ [x]) b = first? ds b := by
    intro b hb
    obtain ⟨y, hy, rfl⟩ := List.mem_map.1 (List.mem_eraseDups.1 hb)
    exact first?_concat_of_mem hy x
  unfold firsts
  rw [List.map_append, List.map_singleton, Text.eraseDups_concat, List.filterMap_append,
    List.filterMap_congr hold]
  congr 1
  simp only [mem_brands]
  split
  · rfl
  · next hx =>
    have hn : first? (ds ++ [x]) x.brand = some x := by
      rw [first?_concat, Option.not_isSome_iff_eq_none.1 hx, if_pos rfl, Option.none_or]
    simp [hn]

/-- every brand has its first declaration among the first ones -/
theorem find?_firsts (ds : List Declaration) (b : String) :
    (firsts ds).find? (·.brand == b) = first? ds b := by
  induction ds using List.reverseRecOn with
  | nil => rfl
  | append_singleton ds x ih =>
    rw [firsts_concat, List.find?_append, ih, first?_concat]
    by_cases hx : x.brand = b
    · subst hx
      cases hf : first? ds x.brand with
      | none => simp
      | some f => simp
    · split <;> simp [hx]

theorem get?_declared (ds : List Declaration) (b : String) :
    (declared ds).get? b = (first? ds b).map (branded ds) := by
  unfold Registry.get? declared
  rw [List.find?_map, ← find?_firsts]
  rfl

/-- the sites of a brand begin with the first one -/
theorem head?_agreeing (h : first? ds b = some f) : (agreeing ds f).head? = some f.site := by
  obtain ⟨hb, as, bs, rfl, has⟩ := List.find?_eq_some_iff_append.1 h
  have hnil : as.filter (fun x => x.brand == f.brand && x.chain == f.chain) = [] := by
    rw [List.filter_eq_nil_iff]
    intro y hy hyf
    have hne := has y hy
    simp only [Bool.and_eq_true, beq_iff_eq] at hyf hb
    simp [hyf.1, hb] at hne
  unfold agreeing
  rw [List.filter_append, hnil, List.nil_append, List.filter_cons_of_pos (by simp), List.map_cons,
    List.eraseDups_cons]
  rfl

theorem agreeing_concat (ds : List Declaration) (x f : Declaration) :
    agreeing (ds ++ [x]) f = agreeing ds f ++
      (if x.brand = f.brand ∧ x.chain = f.chain ∧ x.site ∉ agreeing ds f then [x.site] else []) := by
  unfold agreeing
  rw [List.filter_append, List.map_append]
  by_cases hx : x.brand = f.brand ∧ x.chain = f.chain
  · obtain ⟨hb, hc⟩ := hx
    have hf : [x].filter (fun x => x.brand == f.brand && x.chain == f.chain) = [x] := by
      simp [hb, hc]
    rw [hf, List.map_singleton, Text.eraseDups_concat]
    congr 1
    simp only [List.mem_eraseDups, hb, hc, true_and]
    split <;> simp_all
  · have hf : [x].filter (fun x => x.brand == f.brand && x.chain == f.chain) = [] := by
      simpa using hx
    rw [hf, List.map_nil, List.append_nil, if_neg, List.append_nil]
    exact fun h => hx ⟨h.1, h.2.1⟩

theorem first?_of_mem_firsts (hf : f ∈ firsts ds) : first? ds f.brand = some f := by
  obtain ⟨b, _, hb⟩ := List.mem_filterMap.1 hf
  rw [brand_of_first? hb, hb]

/-- the first declaration of a brand, and with it the conflict of a declaration, stays the same -/
theorem disagreement?_concat {y : Declaration} (hy : y ∈ ds ∨ y = x) :
    disagreement? (ds ++ [x]) y = disagreement? ds y := by
  unfold disagreement?
  rcases hy with hy | rfl
  · rw [first?_concat_of_mem hy]
  · rw [first?_concat, if_pos rfl]
    cases first? ds y.brand with
    | none => simp
    | some f => rfl

theorem conflicts_concat (ds : List Declaration) (x : Declaration) :
    (declared (ds ++ [x])).conflicts = (declared ds).conflicts ++ (disagreement? ds x).toList := by
  have hold : ∀ y ∈ ds, disagreement? (ds ++ [x]) y = disagreement? ds y := fun y hy =>
    disagreement?_concat (Or.inl hy)
  have hnew : [x].filterMap (disagreement? (ds ++ [x])) = (disagreement? ds x).toList := by
    have he : disagreement? (ds ++ [x]) x = disagreement? ds x := disagreement?_concat (Or.inr rfl)
    rw [← he]
    cases h : disagreement? (ds ++ [x]) x <;> simp [h]
  unfold declared
  dsimp only
  rw [List.filterMap_append, List.filterMap_congr hold, hnew]

/-- the brands are those that are declared, in the order of their first declarations -/
theorem names_declared (ds : List Declaration) :
    (declared ds).brands.map (·.name) = (ds.map (·.brand)).eraseDups := by
  have hall : ∀ b ∈ (ds.map (·.brand)).eraseDups,
      (first? ds b).map ((fun r : Branded => r.name) ∘ branded ds) = some b := by
    intro b hb
    obtain ⟨f, hf⟩ := Option.isSome_iff_exists.1 (mem_brands.1 (List.mem_eraseDups.1 hb))
    rw [hf, Option.map_some, Function.comp_apply, branded, brand_of_first? hf]
  unfold declared firsts
  rw [List.map_map, List.map_filterMap, List.filterMap_congr hall, List.filterMap_some]

/-- a declaration of another brand or another chain adds no site -/
theorem branded_concat_of_ne (h : ¬(x.brand = f.brand ∧ x.chain = f.chain)) :
    branded (ds ++ [x]) f = branded ds f := by
  unfold branded
  rw [agreeing_concat, if_neg fun hx => h ⟨hx.1, hx.2.1⟩, List.append_nil]

/-! ## the registry of a list -/

section
variable (hx : first? ds x.brand = none)
include hx

theorem branded_new : branded (ds ++ [x]) x = ⟨x.brand, x.chain, [x.site]⟩ := by
  have hnil : agreeing ds x = [] := by
    have hf : ds.filter (fun y => y.brand == x.brand && y.chain == x.chain) = [] := by
      rw [List.filter_eq_nil_iff]
      intro y hy
      have := List.find?_eq_none.1 hx y hy
      simp_all
    unfold agreeing
    rw [hf]
    rfl
  unfold branded
  rw [agreeing_concat, hnil]
  simp

theorem brands_concat_new :
    (declared (ds ++ [x])).brands = (declared ds).brands ++ [⟨x.brand, x.chain, [x.site]⟩] := by
  have hold : ∀ f ∈ firsts ds, branded (ds ++ [x]) f = branded ds f := by
    intro f hf
    refine branded_concat_of_ne fun h => ?_
    rw [h.1, first?_of_mem_firsts hf] at hx
    cases hx
  unfold declared
  dsimp only
  rw [firsts_concat, hx, Option.isSome_none, if_neg (by decide), List.map_append,
    List.map_congr_left hold, List.map_singleton, branded_new hx]

end

section
variable {g : Declaration} (hx : first? ds x.brand = some g)
include hx

theorem brands_concat_agreeing (hc : g.chain = x.chain) :
    (declared (ds ++ [x])).brands = Registry.addSite x.brand x.site (declared ds).brands := by
  have hold : ∀ f ∈ firsts ds, branded (ds ++ [x]) f =
      if (branded ds f).name = x.brand ∧ ¬(branded ds f).sites.contains x.site then
        { branded ds f with sites := (branded ds f).sites ++ [x.site] }
      else branded ds f := by
    intro f hf
    by_cases hb : x.brand = f.brand
    · have hfx : x.chain = f.chain := by
        rw [hb, first?_of_mem_firsts hf] at hx
        rw [← hc, Option.some.inj hx]
      unfold branded
      rw [agreeing_concat]
      simp only [hb, hfx, true_and, List.contains_iff_mem]
      split <;> simp
    · rw [branded_concat_of_ne fun h => hb h.1, if_neg fun h => hb h.1.symm]
  unfold declared Registry.addSite
  dsimp only
  rw [firsts_concat, hx, Option.isSome_some, if_pos rfl, List.append_nil, List.map_map]
  exact List.map_congr_left hold

theorem brands_concat_conflict (hc : g.chain ≠ x.chain) :
    (declared (ds ++ [x])).brands = (declared ds).brands := by
  have hold : ∀ f ∈ firsts ds, branded (ds ++ [x]) f = branded ds f := by
    intro f hf
    refine branded_concat_of_ne fun h => hc ?_
    rw [h.1, first?_of_mem_firsts hf] at hx
    rw [← Option.some.inj hx, h.2]
  unfold declared
  dsimp only
  rw [firsts_concat, hx, Option.isSome_some, if_pos rfl, List.append_nil, List.map_congr_left hold]

end

/-- One step.  Taking up one more declaration gives the registry of the longer list, unless a strict
registry meets a conflict. -/
theorem register_declared (strict : Bool) (ds : List Declaration) (x : Declaration) :
    Registry.register strict (declared ds) x =
      match disagreement? ds x with
      | some c => if strict then .error c else .ok (declared (ds ++ [x]))
      | none => .ok (declared (ds ++ [x])) := by
  have hall : declared (ds ++ [x]) =
      ⟨(declared (ds ++ [x])).brands, (declared ds).conflicts ++ (disagreement? ds x).toList⟩ := by
    rw [← conflicts_concat]
  unfold Registry.register
  rw [get?_declared, hall]
  -- a new brand, one more site of a brand, or a conflict
  cases hx : first? ds x.brand with
  | none => simp [disagreement?, hx, brands_concat_new hx]
  | some g =>
    by_cases hc : g.chain = x.chain
    · simp [disagreement?, hx, branded, hc, brands_concat_agreeing hx hc]
    · simp [disagreement?, hx, branded, hc, Ne.symm hc, brands_concat_conflict hx hc,
        head?_agreeing hx]

/-- what a registry says of its conflicts: a strict one refuses the first -/
def verdict (strict : Bool) (r : Registry) : Except Conflict Registry :=
  match r.conflicts with
  | [] => .ok r
  | c :: _ => if strict then .error c else .ok r

@[simp] theorem verdict_false (r : Registry) : verdict false r = .ok r := by
  unfold verdict
  split <;> rfl

/-- A whole run.  The declarations lead to the registry that they describe, or to the first of its
conflicts. -/
theorem foldlM_register (strict : Bool) (ds : List Declaration) :
    ds.foldlM (Registry.register strict) {} = verdict strict (declared ds) := by
  -- from the right: what has been read decides about the next declaration, and a strict run that
  -- has met a conflict keeps it
  induction ds using List.reverseRecOn with
  | nil => rfl
  | append_singleton ds x ih =>
    simp only [List.foldlM_append, List.foldlM_cons, List.foldlM_nil, bind_pure, ih]
    unfold verdict
    rw [conflicts_concat]
    cases hc : (declared ds).conflicts with
    | nil =>
      show Registry.register strict (declared ds) x = _
      rw [register_declared]
      cases disagreement? ds x <;> rfl
    | cons c cs =>
      cases strict with
      | true => rfl
      | false =>
        show Registry.register false (declared ds) x = _
        rw [register_declared]
        cases disagreement? ds x <;> rfl

theorem ofDatamodel_eq_verdict (d : Datamodel) (strict : Bool) :
    Registry.ofDatamodel d strict = verdict strict (declared (declarations d)) :=
  foldlM_register strict _

/-- **The registry of a data model.**  Without strictness it is the one that the declarations
describe, in their order: every brand that is declared, once, with the chain of its first
declaration and the sites that agree with it; and a conflict for every declaration that does not
agree.  A strict registry is the same when there is no conflict, and stops with the first conflict
otherwise. -/
theorem ofDatamodel_eq_declared (d : Datamodel) :
    let r := declared (declarations d)
    Registry.ofDatamodel d false = .ok r ∧
      r.brands.map (·.name) = ((declarations d).map (·.brand)).eraseDups ∧
      Registry.ofDatamodel d true =
        match r.conflicts with
        | [] => .ok r
        | c :: _ => .error c := by
  intro r
  refine ⟨?_, names_declared _, ?_⟩
  · rw [ofDatamodel_eq_verdict, verdict_false]
  · rw [ofDatamodel_eq_verdict, verdict]
    split <;> simp [r, *]

end ZodSchema.Brand
