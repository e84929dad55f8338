import DamlBindings.Lf.Element

/-!
# Identifiers of the generated code

`renderer_utils.rs`.  Names are quoted as Rust identifiers, which panics where a name is none.  The
case conversions and the check of an identifier are functions of other crates.
-/

namespace DamlBindings.Codegen

/-- What the renderer uses of other crates: `to_snake_case` of `heck`, the upper case of the
Unicode tables, and whether `Ident::new` accepts a text. -/
structure Naming where
  toSnakeCase : String → String
  toUppercase : String → String
  isIdent : String → Bool

/-- The panics of the renderer. -/
inductive RenderPanic
  | unsupportedType (name : String)
  | missingArgField
  | invalidIdent (value : String)

/-- What is rendered, or the panic. -/
abbrev Render := Except RenderPanic

/-- The words that `escape_keyword` takes for keywords. -/
def keywords : List String :=
  ["as", "break", "const", "continue", "else", "enum", "false", "fn", "for", "if", "impl", "in",
    "let", "loop", "match", "mod", "move", "mut", "pub", "ref", "return", "static", "struct",
    "trait", "true", "type", "unsafe", "use", "where", "while", "dyn", "abstract", "become", "box",
    "do", "final", "macro", "override", "priv", "typeof", "unsized", "virtual", "yield", "async",
    "await", "try", "self", "super", "extern", "crate", "gen"]

/-- `escape_keyword` -/
def escapeKeyword (ident : String) : String := if ident ∈ keywords then ident ++ "_" else ident

/-- What `escape_identifier` does to a character. -/
def sanitizeChar (c : Char) : Char := if c = '-' ∨ c = '$' ∨ c = '.' then '_' else c

/-- `escape_identifier` -/
def escapeIdentifier (value : String) : String :=
  let sanitizedIdent := value.toList.map sanitizeChar
  escapeKeyword <| String.ofList <|
    -- an identifier does not start with a digit
    if (sanitizedIdent.head?.map Char.isDigit).getD false then '_' :: sanitizedIdent
    else sanitizedIdent

/-- `to_module_path` -/
def toModulePath (path : List String) : String := ".".intercalate path

/-- `make_ignored_ident` -/
def makeIgnoredIdent (value : String) : String := "_" ++ value

/-- `normalize_generic_param`: the text before the first `_`, or all of it. -/
def normalizeGenericParam (param : String) : String :=
  String.ofList (param.toList.takeWhile (· ≠ '_'))

variable (N : Naming)

/-- `quote_ident` -/
def quoteIdent (value : String) : Render String :=
  if N.isIdent value then .ok value else .error (.invalidIdent value)

/-- `quote_escaped_ident` -/
def quoteEscapedIdent (value : String) : Render String := quoteIdent N (escapeIdentifier value)

/-- `to_rust_identifier` -/
def toRustIdentifier (value : String) : String := escapeIdentifier (N.toSnakeCase value)

/-- The letters, the digits and the underscore of ASCII. -/
def isWordChar (c : Char) : Bool := c.isAlphanum || c == '_'

/-- The case conversions on a single word in ASCII. -/
def wordNaming : Naming where
  toSnakeCase value := String.ofList (value.toList.map Char.toLower)
  toUppercase value := String.ofList (value.toList.map Char.toUpper)
  isIdent value :=
    value.toList.all isWordChar && value.toList.head?.any fun c => !c.isDigit

end DamlBindings.Codegen
