import ZodSchema.Proofs.Assoc
import ZodSchema.Proofs.Crud.Keys

/-!
# The two forms of a create schema

A create schema is derived from its source, by omitting keys and giving defaults to others, or
spelled out entry by entry.  Either form is a chain of calls, and the chain is read here as what it
makes of the shape of the source.

* `Shape`, `Call.apply`       a shape, and what a call makes of one
* `CreateBlock.calls`         the calls of a create schema
* `CreateBlock.stmts_eq`      they are what is written
* `shape_composed`, `shape_rebuilt`   both forms give `createShape`
* `forms_agree`               nothing else depends on the form
-/

namespace ZodSchema

namespace Crud

/-! ## calls -/

/-- what stands under a key of an object schema: a member of the source's shape, with a default
or without -/
structure Slot where
  member : String
  default : Option Value := none

/-- keys with their slots, in order -/
abbrev Shape := List (String × Slot)

/-- a call in the chain of a create schema -/
inductive Call where
  | without (keys : List String)
  | extend (entries : List CreateMember)
  | object (entries : List CreateMember)
  | refine (message : String)

def CreateMember.slot (source : String) (m : CreateMember) : Slot :=
  ⟨shapeMember source m.key, m.default⟩

def CreateMember.entry (source : String) (m : CreateMember) : String × Slot :=
  (m.key, m.slot source)

namespace Call

/-- the shape after a call: an object schema begins anew, a check changes nothing -/
def apply (source : String) (s : Shape) : Call → Shape
  | without ks => s.filter fun e => !ks.contains e.1
  | extend ms => Assoc.putAll (ms.map (·.entry source)) s
  | object ms => Assoc.putAll (ms.map (·.entry source)) []
  | refine _ => s

def message? : Call → Option String
  | refine m => some m
  | _ => none

/-- a call as it is written: nothing for a call without entries, save an object schema -/
def lines (b : CreateBlock) : Call → List String
  | without ks => objectCall "omit" (ks.map trueEntry)
  | extend ms => objectCall "extend" (ms.map b.memberLine)
  | object ms =>
    ["  .object(\x7b"] ++
      ms.flatMap (fun m =>
        (m.target.map fun t => "    // Foreign key to " ++ t).toList ++ ["    " ++ b.memberLine m]) ++
      ["  \x7d)"]
  | refine m => CreateBlock.refineLines m

end Call

namespace CreateBlock

/-- what the chain begins with -/
def opening (b : CreateBlock) : String :=
  match b.form with
  | .composed => b.source
  | .rebuilt => "z"

/-- the checks of the schema -/
def checks (b : CreateBlock) : List String := b.refine.toList.filter (· ≠ "")

def calls (b : CreateBlock) : List Call :=
  (match b.form with
    | .composed => [.without b.omitted, .extend (b.members.filter (·.default.isSome))]
    | .rebuilt => [.object b.members]) ++ b.checks.map .refine

/-- what the chain makes of the shape of its source -/
def shape (b : CreateBlock) (s : Shape) : Shape := b.calls.foldl (Call.apply b.source) s

/-- the statements of a create schema are its calls -/
theorem stmts_eq (b : CreateBlock) :
    b.stmts = [.doc b.doc, closedConst b.schema b.opening (b.calls.flatMap (Call.lines b)),
      inferAlias (argsName "Create" b.model)] := by
  have hr : (b.refine.map fun m => if m = "" then [] else refineLines m).getD [] =
      (b.checks.map Call.refine).flatMap (Call.lines b) := by
    unfold checks
    cases b.refine with
    | none => rfl
    | some m => by_cases h : m = "" <;> simp [h, Call.lines]
  unfold stmts
  rw [hr]
  unfold opening calls
  cases b.form <;> simp [composedLines, rebuiltLines, Call.lines]

theorem foldl_checks (source : String) (ms : List String) (s : Shape) :
    (ms.map Call.refine).foldl (Call.apply source) s = s := by
  induction ms with
  | nil => rfl
  | cons m ms ih => exact ih

theorem message?_calls (b : CreateBlock) : b.calls.filterMap Call.message? = b.checks := by
  have hc : (b.checks.map Call.refine).filterMap Call.message? = b.checks := by
    rw [List.filterMap_map]
    exact List.filterMap_some
  unfold calls
  rw [List.filterMap_append, hc]
  cases b.form <;> rfl

end CreateBlock

/-! ## both forms -/

namespace Context

variable {x : Context}

/-- the context with the other form chosen -/
def withForm (x : Context) (form : CreateForm) : Context := { x with form := form }

/-- the shape of the source: a member under each key of the base schema -/
def sourceShape (x : Context) : Shape := x.keys.map fun k => (k, ⟨shapeMember x.source k, none⟩)

/-- entries that creation asks for -/
def kept (x : Context) : List (Field × Schema.Entry) :=
  x.entries.filter fun p =>
    !x.omitsOnCreate (x.resolve "create.omit" x.rules.create.omitted).value p

/-- the shape of a create schema: a member under each key that is kept, with the entry's default -/
def createShape (x : Context) : Shape :=
  x.kept.map fun p => (p.2.key,
    ⟨shapeMember x.source p.2.key, x.createDefault? x.createDefaults.value p⟩)

theorem entries_members (x : Context) :
    x.createBlock.value.members.map (·.entry x.source) = x.createShape := by
  unfold createBlock
  rw [List.map_map]
  rfl

theorem nodup_kept (hk : x.keys.Nodup) : (x.kept.map (·.2.key)).Nodup :=
  (sublist_keys _).nodup hk

/-- with different keys, an entry is kept when its key is not omitted -/
theorem filter_entries (hk : x.keys.Nodup) :
    (x.entries.filter fun p => !x.createBlock.value.omitted.contains p.2.key) = x.kept := by
  refine List.filter_congr fun p hp => ?_
  rw [Bool.eq_iff_iff, Bool.not_eq_true', Bool.not_eq_true', ← Bool.not_eq_true,
    ← Bool.not_eq_true, List.contains_iff_mem]
  exact not_congr (mem_keys_filter_iff hk hp _)

theorem keys_createShape (hk : x.keys.Nodup) :
    x.createShape.map (·.1) =
      x.keys.filter fun k => !x.createBlock.value.omitted.contains k := by
  unfold createShape keys
  rw [List.map_map, List.filter_map, ← filter_entries hk]
  rfl

/-- spelled out, the schema has the entries that are kept -/
theorem shape_rebuilt (hk : x.keys.Nodup) (s : Shape) :
    (x.withForm .rebuilt).createBlock.value.shape s = x.createShape := by
  let b := (x.withForm .rebuilt).createBlock.value
  have hn : ((([] : Shape) ++ x.createShape).map (·.1)).Nodup := by
    rw [List.nil_append, createShape, List.map_map]
    exact nodup_kept hk
  calc b.shape s = Assoc.putAll (b.members.map (·.entry b.source)) [] :=
        CreateBlock.foldl_checks ..
    _ = Assoc.putAll x.createShape [] := congrArg (Assoc.putAll · []) x.entries_members
    _ = x.createShape := Assoc.putAll_append hn

/-- derived, the schema has them as well: what is omitted is gone from the source, and a default
is given to no other key than its own -/
theorem shape_composed (hk : x.keys.Nodup) :
    (x.withForm .composed).createBlock.value.shape x.sourceShape = x.createShape := by
  let b := (x.withForm .composed).createBlock.value
  let d := x.createDefault? x.createDefaults.value
  have hs : x.sourceShape.filter (fun e => !b.omitted.contains e.1) =
      x.kept.map fun p => (p.2.key, ⟨shapeMember x.source p.2.key, none⟩) := by
    unfold sourceShape keys
    rw [List.map_map, List.filter_map, ← filter_entries hk]
    rfl
  have hd : (b.members.filter (·.default.isSome)).map (·.entry b.source) =
      (x.kept.filter fun p => (d p).isSome).map fun p =>
        (p.2.key, ⟨shapeMember x.source p.2.key, d p⟩) := by
    show ((x.kept.map _).filter _).map _ = _
    rw [List.filter_map, List.map_map]
    rfl
  calc b.shape x.sourceShape
      = Assoc.putAll ((b.members.filter (·.default.isSome)).map (·.entry b.source))
          (x.sourceShape.filter fun e => !b.omitted.contains e.1) := CreateBlock.foldl_checks ..
    _ = x.createShape := by
      rw [hs, hd]
      refine Assoc.putAll_filter (nodup_kept hk) fun p _ hp => ?_
      rw [Option.isSome_eq_false_iff, Option.isNone_iff_eq_none] at hp
      rw [hp]

end Context

/-- **The form of a create schema is a matter of writing.**  When its keys are different, the schema
that is derived from its source and the one that is spelled out have the same entries: the keys
that are not omitted, each with its member of the source and its default.  They have the same
check, and nothing else that is built or reported depends on the form. -/
theorem forms_agree (x : Context) (hk : x.keys.Nodup) :
    let a := (x.withForm .composed).crudSet
    let b := (x.withForm .rebuilt).crudSet
    (∀ c ∈ [a.value.create, b.value.create],
      c.stmts = [.doc c.doc, closedConst c.schema c.opening (c.calls.flatMap (Call.lines c)),
        inferAlias (argsName "Create" c.model)]) ∧
    a.value.create.shape x.sourceShape = x.createShape ∧
    (∀ s, b.value.create.shape s = x.createShape) ∧
    x.createShape.map (·.1) = x.keys.filter (fun k => !a.value.create.omitted.contains k) ∧
    a.value.create.calls.filterMap Call.message? = b.value.create.calls.filterMap Call.message? ∧
    b.value = { a.value with create := { a.value.create with form := .rebuilt } } ∧
    b.warnings = a.warnings := by
  intro a b
  have hm : a.value.create.checks = b.value.create.checks := rfl
  refine ⟨fun c _ => c.stmts_eq, Context.shape_composed hk, Context.shape_rebuilt hk,
    Context.keys_createShape hk, ?_, rfl, rfl⟩
  rw [CreateBlock.message?_calls, CreateBlock.message?_calls, hm]

/-- a model with keys that are generated, omitted, given a default and led to another model -/
def article : Model :=
  { name := "Article"
    documentation := some "@crud.create.omit([\"slug\"]) @crud.create.refine(\"Titles differ\")"
    fields := [
      { name := "id", type := "String", isId := true, hasDefault := true },
      { name := "slug", type := "String", documentation := some "@crud.default(\"new\")" },
      { name := "title", type := "String", documentation := some "@crud.default(\"Untitled\")" },
      { name := "authorId", type := "String" },
      { name := "author", type := "Author", kind := ⟨.object, true⟩
        relationFrom := ["authorId"] }] }

def articleContext : Context :=
  contextOf ⟨{ crudSchemas := true }, { models := [article] }, false, none⟩ article

theorem forms_agree_article :
    articleContext.keys.Nodup ∧
      (articleContext.withForm .composed).crudSet.value.create.shape articleContext.sourceShape =
        (articleContext.withForm .rebuilt).crudSet.value.create.shape [] ∧
      articleContext.createShape.map (·.1) = ["title", "authorId"] := by
  have hk : articleContext.keys.Nodup := by decide +kernel
  obtain ⟨_, hc, hr, hs, _⟩ := forms_agree articleContext hk
  refine ⟨hk, hc.trans (hr []).symm, ?_⟩
  rw [hs]
  decide +kernel

end Crud

end ZodSchema
