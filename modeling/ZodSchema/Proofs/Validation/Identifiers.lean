import ZodSchema.Proofs.Annotations.Rendering
import ZodSchema.Proofs.Text.Property
import ZodSchema.Proofs.Validation.Names

/-!
# Names of what passes validation

The models, enumerations and brands of a data model that passes are named by identifiers, but the
test lets one line feed stand behind the name of a model or an enumeration.  The same test decides
how a property is written, so a property of this kind is read as another one.

* `line_of_mem_names`   the name of a brand is one line
* `passed_names`        names that pass, and the properties that they are written as
* `fed_model_passes`    a model with a line feed in its name
-/

namespace ZodSchema.Validation

open Text

variable {d : Datamodel}

theorem mem_names_declared {n : String} :
    n ∈ (Brand.declared (Brand.declarations d)).names ↔
      ∃ x ∈ Brand.declarations d, x.brand = n := by
  rw [Brand.Registry.names, Text.Str.mem_sortDedup, Brand.names_declared, List.mem_eraseDups,
    List.mem_map]

/-- a chain ends with its line, so no line feed comes into the name of a brand -/
theorem line_of_mem_names {n : String} (h : n ∈ (Brand.declared (Brand.declarations d)).names) :
    '\n' ∉ n.toList := by
  obtain ⟨x, hx, rfl⟩ := mem_names_declared.1 h
  obtain ⟨_, _, f, _, hx⟩ := Brand.exists_of_mem_declarations hx
  obtain ⟨a, ha, hb, _⟩ := Brand.exists_of_declarationOf? hx
  cases hd : f.documentation with
  | none =>
    rw [hd] at ha
    cases ha
  | some doc =>
    rw [hd] at ha
    exact (Annotations.brand_of? ha hb).2

/-! ## names that pass -/

/-- **Names that pass.**  When no finding is an error, the name of every model and every enumeration
is an identifier over its whole length, or one with a line feed behind it; and there is a registry,
in which the name of every brand is an identifier over its whole length.  A text stands bare as a key
and behind a dot under the same condition, line feed included.  Read again, key and access denote
just this text unless it has the line feed, and then the name before it. -/
theorem passed_names (d : Datamodel) (c : Config) (s target : String) :
    ((validate d c).isValid = true →
      (∀ m ∈ d.models, IsName m.name ∨ IsFedName m.name) ∧
      (∀ e ∈ d.enums, IsName e.name ∨ IsFedName e.name) ∧
      ∃ r, Brand.Registry.ofDatamodel d c.strictBrands = .ok r ∧ ∀ n ∈ r.names, IsName n) ∧
    ((key s = s ↔ IsName s ∨ IsFedName s) ∧
      (member target s = target ++ "." ++ s ↔ IsName s ∨ IsFedName s)) ∧
    ((keyName? (key s) = some s ↔ ¬IsFedName s) ∧
      (accessed? target (member target s) = some s ↔ ¬IsFedName s)) ∧
    ∀ t, IsName t → keyName? (key (t ++ "\n")) = some t ∧
      accessed? target (member target (t ++ "\n")) = some t := by
  refine ⟨fun h => ⟨fun m hm => ?_, fun e he => ?_, _, ofDatamodel_of_valid h, fun n hn => ?_⟩,
    ⟨bare_key_iff, dotted_member_iff⟩, ⟨?_, ?_⟩, fun t ht => ⟨?_, ?_⟩⟩
  · exact isIdentifier_iff.1 ((names_of_valid h).2 m hm)
  · exact isIdentifier_iff.1 ((enums_of_valid h).2 e he).1
  · exact (isName_iff_of_isIdentifier (brands_of_valid h n hn).1).2 (line_of_mem_names hn)
  · rw [keyName?_key, Option.some_inj, denoted_eq_self_iff]
  · rw [accessed?_member, Option.some_inj, denoted_eq_self_iff]
  · rw [keyName?_key, denoted_fed ht]
  · rw [accessed?_member, denoted_fed ht]

/-- a model and an enumeration, and a brand that a field names -/
def shop : Datamodel :=
  { models := [{ name := "$Shop", fields := [
      { name := "id", type := "String", isId := true
        documentation := some "@zod.string.brand(\"ShopId\")" },
      { name := "state", type := "_State2", kind := ⟨.enumeration, true⟩ }] }]
    enums := [{ name := "_State2", values := ["OPEN", "SHUT"] }] }

/-- Names with a dollar sign, an underscore and a digit pass; a text with a hyphen is quoted, and
denotes itself. -/
theorem passed_names_shop :
    (validate shop {}).isValid = true ∧ IsName "$Shop" ∧ IsName "_State2" ∧
      (∃ r, Brand.Registry.ofDatamodel shop true = .ok r ∧ r.names = ["ShopId"] ∧ IsName "ShopId") ∧
      key "zip-code" ≠ "zip-code" ∧ keyName? (key "zip-code") = some "zip-code" ∧
      accessed? "row" (member "row" "zip-code") = some "zip-code" := by
  have hv : (validate shop {}).isValid = true := by decide +kernel
  have hf : ∀ {t : String}, '\n' ∉ t.toList → ¬IsFedName t := fun hn hf => hn hf.feed
  obtain ⟨hpassed, ⟨hk, -⟩, ⟨hd, ha⟩, -⟩ := passed_names shop {} "zip-code" "row"
  obtain ⟨hm, he, r, hr, hb⟩ := hpassed hv
  have hnames : r.names = ["ShopId"] := by
    have hreg := Except.ok.inj ((ofDatamodel_of_valid hv).symm.trans hr)
    rw [← hreg]
    decide +kernel
  refine ⟨hv, ?_, ?_, ⟨r, hr, hnames, hb _ (hnames ▸ List.mem_singleton.2 rfl)⟩, ?_, ?_, ?_⟩
  · exact (hm _ List.mem_cons_self).resolve_right (hf (by decide))
  · exact (he _ List.mem_cons_self).resolve_right (hf (by decide))
  · exact fun h => (hk.1 h).elim (by decide) (hf (by decide))
  · exact hd.2 (hf (by decide))
  · exact ha.2 (hf (by decide))

/-- a model with a line feed behind its name -/
def fedModel : Datamodel :=
  { models := [{ name := "User\n", fields := [{ name := "id", type := "Int", isId := true }] }] }

/-- Validation has no error for a name that breaks off a line, and the key `nl`, line feed, denotes
`nl`. -/
theorem fed_model_passes :
    (validate fedModel {}).isValid = true ∧ ¬IsName "User\n" ∧ ¬IsName "nl\n" ∧
      key "nl\n" = "nl\n" ∧ keyName? (key "nl\n") = some "nl" ∧
      member "row" "nl\n" = "row.nl\n" ∧ accessed? "row" (member "row" "nl\n") = some "nl" := by
  decide +kernel

end ZodSchema.Validation
