import ZodSchema.Datamodel.Basic

/-!
# Primitives

Which Zod constructor opens the schema of a declared type on an engine.

* `primitive`       the kind of primitive
* `baseExpression`  the opening expression
-/

namespace ZodSchema.Zod

/-- kinds of primitives; large numbers are texts on engines that return them so -/
def primitive (p : Provider) (type : String) : String :=
  match type with
  | "String" => "string"
  | "Boolean" => "boolean"
  | "Int" => "number"
  | "Float" => "number"
  | "BigInt" => if p = .postgresql ∨ p = .cockroachdb then "string" else "number"
  | "Decimal" => if p = .sqlite then "number" else "string"
  | "DateTime" => if p = .sqlite then "string" else "date"
  | "Json" => "unknown"
  | "Bytes" => "buffer"
  | _ => "unknown"

/-- primitives with a constructor of their own name -/
def direct : List String := ["string", "number", "boolean", "bigint", "date", "unknown"]

def baseExpression (p : Provider) (type : String) : String :=
  match type with
  | "DateTime" => if p = .sqlite then "z.string()" else "z.coerce.date()"
  | "Json" => "z.unknown()"
  | "Bytes" => "z.instanceof(Buffer)"
  | "Decimal" => "z.string()"
  | _ =>
    if direct.contains (primitive p type) then "z." ++ primitive p type ++ "()" else "z.unknown()"

end ZodSchema.Zod
