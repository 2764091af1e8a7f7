import ZodSchema.TypeScript.Module
import ZodSchema.Zod.Expr
import ZodSchema.Zod.Primitive

/-!
# Brands

A brand names a chain of validators; its first declaration fixes the chain.

* `resolveChain`       the chain that a declaration gives its brand
* `Registry.register`  takes up a declaration
* `Registry.ofDatamodel`  all declarations of a data model, in order
* `Registry.fieldBrand?`  the brand that stands for a field
* `brandFiles`  one constant and one type per brand, the union of their names, and the index
-/

namespace ZodSchema

namespace Brand

open Zod

/-- openings of the type selectors that name a primitive -/
def selectorBase? : String → Option String
  | "string" => some "z.string()"
  | "number" => some "z.number()"
  | "boolean" => some "z.boolean()"
  | "bigint" => some "z.bigint()"
  | "date" => some "z.date()"
  | _ => none

/-- opening and members of the schema of a brand; what concerns missing values is left to each
site -/
def resolveChain (p : Provider) (f : Field) (a : Annotations) : String :=
  let keep (vs : List String) := vs.filter fun v => !Annotations.nullabilityMembers.contains v
  match topLevelBase? a with
  | some base => base ++ String.join (keep a.validators.tail)
  | none =>
    let base := (a.typeSelector.bind selectorBase?).getD (baseExpression p f.type)
    base ++ String.join (keep a.validators)

/-- two declarations of a brand with different chains -/
structure Conflict where
  brand : String
  keptChain : String
  keptSite : String
  rejectedChain : String
  rejectedSite : String
  deriving DecidableEq, Repr

def Conflict.describe (c : Conflict) : String :=
  "Brand '" ++ c.brand ++ "' declared as " ++ c.keptChain ++ " at " ++ c.keptSite ++
    " but as " ++ c.rejectedChain ++ " at " ++ c.rejectedSite ++ "."

/-- a brand with its chain and the sites that declare it -/
structure Branded where
  name : String
  chain : String
  sites : List String
  deriving DecidableEq, Repr

def Branded.schema (b : Branded) : String := b.chain ++ ".brand(" ++ Text.quote b.name ++ ")"

/-- a declaration: brand, chain and site -/
structure Declaration where
  brand : String
  chain : String
  site : String
  deriving DecidableEq, Repr

/-- brands in the order of their first declarations, and the conflicts met -/
structure Registry where
  brands : List Branded := []
  conflicts : List Conflict := []
  deriving DecidableEq, Repr

namespace Registry

def get? (r : Registry) (name : String) : Option Branded := r.brands.find? (·.name == name)

def contains (r : Registry) (name : String) : Bool := (r.get? name).isSome

/-- adds a site to the brand of a name -/
def addSite (name site : String) (bs : List Branded) : List Branded :=
  bs.map fun b =>
    if b.name = name ∧ ¬ b.sites.contains site then { b with sites := b.sites ++ [site] } else b

/-- takes up a declaration; one with another chain is a conflict, which a strict registry
refuses -/
def register (strict : Bool) (r : Registry) (decl : Declaration) : Except Conflict Registry :=
  match r.get? decl.brand with
  | none => .ok { r with brands := r.brands ++ [⟨decl.brand, decl.chain, [decl.site]⟩] }
  | some b =>
    if b.chain = decl.chain then
      .ok { r with brands := addSite decl.brand decl.site r.brands }
    else
      let conflict : Conflict :=
        ⟨decl.brand, b.chain, b.sites.headD "", decl.chain, decl.site⟩
      if strict then .error conflict
      else .ok { r with conflicts := r.conflicts ++ [conflict] }

/-- the names in order -/
def names (r : Registry) : List String := Text.Str.sortDedup (r.brands.map (·.name))

/-- the brands in the order of their names -/
def sorted (r : Registry) : List Branded := r.names.filterMap r.get?

end Registry

/-- what a field declares -/
def declaration (p : Provider) (model : String) (f : Field) (a : Annotations) : Declaration :=
  ⟨a.brand.getD "", resolveChain p f a, model ++ "." ++ f.name⟩

/-- the declaration of a field whose annotation names a brand -/
def declarationOf? (p : Provider) (model : String) (f : Field) : Option Declaration :=
  match Annotations.of? f.documentation with
  | some a => if a.brand.any (· ≠ "") then some (declaration p model f a) else none
  | none => none

/-- all declarations, in the order of models and fields -/
def declarations (d : Datamodel) : List Declaration :=
  d.models.flatMap fun m => m.fields.filterMap (declarationOf? d.provider.value m.name)

/-- the registry of a data model; a strict one stops at the first conflict -/
def Registry.ofDatamodel (d : Datamodel) (strict : Bool) : Except Conflict Registry :=
  (declarations d).foldlM (Registry.register strict) {}

/-- the brand that a key implies: its model's for a primary key, its target's for a foreign key -/
def implicit? (m : Model) (f : Field) : Option String :=
  if f.isId then some (m.name ++ "Id") else (m.foreignKeyTarget? f.name).map (· ++ "Id")

/-- the brand that stands for a field: the one it declares, otherwise the implied one -/
def Registry.fieldBrand? (r : Registry) (m : Model) (f : Field) : Option String :=
  match (Annotations.of? f.documentation).bind (·.brand) with
  | some b =>
    if b = "" then (implicit? m f).filter r.contains
    else if r.contains b then some b else none
  | none => (implicit? m f).filter r.contains

open TypeScript

def brandStmts (b : Branded) : List Stmt :=
  [.doc ["Brand: " ++ b.name, "Used in: " ++ Text.Str.join ", " b.sites],
    .const b.name (b.schema ++ ";") [],
    .typeDef b.name ("z.infer<typeof " ++ b.name ++ ">"),
    .blank]

def nameUnion (r : Registry) : String :=
  if r.names.isEmpty then "never" else Text.Str.join " | " (r.names.map Text.quote)

def brandedFile (c : Config) (r : Registry) : SourceFile :=
  { family := Family.brands.name
    path := c.brandsDir ++ "/branded.ts"
    stmts := header ++ [zodImport, .blank] ++ r.sorted.flatMap brandStmts ++
      [.doc ["Union of all brand names"], .typeDef "BrandName" (nameUnion r), .blank] }

def brandFiles (c : Config) (r : Registry) : List SourceFile :=
  [brandedFile c r, indexFile Family.brands.name c.brandsDir ["branded"]]

end Brand

end ZodSchema
