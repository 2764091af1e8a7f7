import ZodSchema.Annotations.Chain

/-!
# Chain segments

* `Segment.read`        a part of a chain: `name`, `name(args)` or text of no known shape
* `callMember`          the chain member that a call stands for
* `brandName?`, `description?`, `message?`  the quoted texts that arguments carry
-/

namespace ZodSchema.Annotations

/-- a part of a chain; `args` is `none` without parentheses -/
inductive Segment where
  | named (raw name : String) (args : Option String)
  | verbatim (raw : String)
  deriving DecidableEq, Repr

def isPlainQuote (c : Char) : Bool := c == '\'' || c == '"'

/-- arguments of a text that starts with a parenthesis and ends with one -/
def callArgs? : List Char → Option (List Char)
  | '(' :: rest => if rest.getLast? = some ')' then some rest.dropLast else none
  | _ => none

namespace Segment

def raw : Segment → String
  | named r _ _ => r
  | verbatim r => r

/-- reads a part: word characters, alone or with arguments in parentheses behind them -/
def read (part : List Char) : Segment :=
  let raw := String.ofList part
  match part.takeWhile Text.isWord with
  | [] => .verbatim raw
  | name =>
    let name := String.ofList name
    match Text.dropFinalNewline (part.dropWhile Text.isWord) with
    | [] => .named raw name none
    | rest =>
      match callArgs? rest with
      | some args => .named raw name (some (String.ofList args))
      | none => .verbatim raw

end Segment

/-- a nonempty text between quote marks at the head, and what follows it -/
def quotedAt? : List Char → Option (List Char × List Char)
  | q :: cs =>
    if isPlainQuote q then
      match cs.takeWhile (fun c => !isPlainQuote c), cs.dropWhile (fun c => !isPlainQuote c) with
      | c :: name, _ :: rest => some (c :: name, rest)
      | _, _ => none
    else none
  | [] => none

/-- the first nonempty text between quote marks -/
def firstQuoted? : List Char → Option (List Char)
  | [] => none
  | c :: cs =>
    match quotedAt? (c :: cs) with
    | some (t, _) => some t
    | none => firstQuoted? cs

def brandName? (args : String) : Option String :=
  (firstQuoted? args.toList).map String.ofList

/-- the text between a quote mark at the start and one at the end -/
def wholeQuoted? (cs : List Char) : Option (List Char) :=
  match Text.dropFinalNewline cs with
  | q :: rest =>
    match rest.getLast? with
    | some q' => if isPlainQuote q && isPlainQuote q' then some rest.dropLast else none
    | none => none
  | [] => none

/-- escapes of a description, replaced one kind after the other in this order -/
def unescapes : List (List Char × List Char) :=
  [(['\\', '"'], ['"']), (['\\', '\''], ['\'']), (['\\', 'n'], ['\n']), (['\\', 'r'], ['\r']),
    (['\\', 't'], ['\t']), (['\\', '\\'], ['\\'])]

def unescape (cs : List Char) : List Char :=
  unescapes.foldl (fun t e => Text.replace e.1 e.2 t) cs

def unescapeDescription (s : String) : String := String.ofList (unescape s.toList)

def description? (args : String) : Option String :=
  (wholeQuoted? args.toList).map fun t => String.ofList (unescape t)

/-- the text of a `message` property that starts at the head -/
def messageAt? (cs : List Char) : Option (List Char) :=
  match Text.dropStart? "message".toList cs with
  | some rest =>
    match Text.trimLeft rest with
    | ':' :: rest => (quotedAt? (Text.trimLeft rest)).map Prod.fst
    | _ => none
  | none => none

/-- the text of the first `message` property -/
def message? : List Char → Option (List Char)
  | [] => none
  | c :: cs =>
    match messageAt? (c :: cs) with
    | some t => some t
    | none => message? cs

def isRegexFlag (c : Char) : Bool := "gimuy".toList.contains c

/-- a regular expression literal with an optional quoted message behind a comma, and nothing
else; literal and message -/
def regexArgs? (cs : List Char) : Option (List Char × Option (List Char)) :=
  match cs with
  | '/' :: cs =>
    match cs.takeWhile (· != '/'), cs.dropWhile (· != '/') with
    | c :: body, '/' :: rest =>
      let literal := '/' :: c :: body ++ '/' :: rest.takeWhile isRegexFlag
      match Text.trimLeft (rest.dropWhile isRegexFlag) with
      | [] => some (literal, none)
      | ',' :: rest =>
        match quotedAt? (Text.trimLeft rest) with
        | some (msg, rest) =>
          if Text.dropFinalNewline rest = [] then some (literal, some msg) else none
        | none => none
      | _ => none
    | _, _ => none
  | _ => none

/-- `.name(args)` -/
def call (name args : String) : String := "." ++ name ++ "(" ++ args ++ ")"

/-- arguments with a pair of braces in them -/
def hasBraces (args : String) : Bool :=
  args.toList.contains '\x7b' && args.toList.contains '\x7d'

/-- the member of a call: a regular expression is written anew with its message in double
quotes, all other arguments stay as they are -/
def callMember (name : String) (args : Option String) : String :=
  let args := args.getD ""
  if hasBraces args then call name args
  else if name = "regex" then
    match regexArgs? args.toList with
    | some (literal, some msg) =>
      call name (String.ofList literal ++ ", \"" ++ String.ofList msg ++ "\"")
    | some (literal, none) => call name (String.ofList literal)
    | none => call name args
  else call name args

/-- the error message that the arguments of a call state -/
def customError? (args : Option String) : Option String :=
  match args with
  | some a => if hasBraces a then (message? a.toList).map String.ofList else none
  | none => none

end ZodSchema.Annotations
