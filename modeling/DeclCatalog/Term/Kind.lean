/-!
# Kinds

A kind says what a type term is: one of the built-in tags, a name, or a sentinel for something that
was not understood. It is written as a plain tag.

- `Kind`: the kinds.
- `Kind.tag`: the bare tag; both sentinels report `unknown`.
- `Kind.text`, `Kind.ofText`: the written form and its reading.
- `Kind.IsCanonical`: the kinds that are read back as they are.
-/

namespace DeclCatalog

/-- What a type term is. -/
inductive Kind where
  | any
  | boolean
  | function
  | intersection
  | literal
  | null
  | number
  | parenthesized
  | string
  | undefined
  | union
  | void
  | never
  | symbol
  | bigint
  | object
  | array
  | tuple
  | set
  | map
  | castAs
  | this
  /-- The keyword type `unknown`, which is understood. -/
  | unknownKeyword
  /-- The sentinel for a type that was not understood. -/
  | unknown
  /-- The sentinel for a value expression that was not understood, with the kind of its node. -/
  | unknownValue (nodeKind : String)
  /-- A referenced type or an identifier. -/
  | named (name : String)
  deriving DecidableEq

namespace Kind

/-- The bare tag. -/
def tag : Kind → String
  | .any => "any"
  | .boolean => "boolean"
  | .function => "function"
  | .intersection => "intersection"
  | .literal => "literal"
  | .null => "null"
  | .number => "number"
  | .parenthesized => "parenthesized"
  | .string => "string"
  | .undefined => "undefined"
  | .union => "union"
  | .void => "void"
  | .never => "never"
  | .symbol => "symbol"
  | .bigint => "bigint"
  | .object => "object"
  | .array => "array"
  | .tuple => "tuple"
  | .set => "Set"
  | .map => "Map"
  | .castAs => "castAs"
  | .this => "this"
  | .unknownKeyword => "unknownKeyword"
  | .unknown => "unknown"
  | .unknownValue _ => "unknown"
  | .named name => name

/-- What the written form of an unknown value starts with. -/
def unknownMark : String :=
  "unknown: "

/-- The written form. -/
def text : Kind → String
  | .unknownValue nodeKind => unknownMark ++ nodeKind
  | kind => kind.tag

/-- The kind of a text that is no built-in tag. -/
def ofOtherText (s : String) : Kind :=
  if unknownMark.toList.isPrefixOf s.toList then
    .unknownValue (String.ofList (s.toList.drop unknownMark.length))
  else .named s

/-- Reads the written form. A name that spells a built-in tag is that tag. -/
def ofText (s : String) : Kind :=
  match s with
  | "any" => .any
  | "boolean" => .boolean
  | "function" => .function
  | "intersection" => .intersection
  | "literal" => .literal
  | "null" => .null
  | "number" => .number
  | "parenthesized" => .parenthesized
  | "string" => .string
  | "undefined" => .undefined
  | "union" => .union
  | "void" => .void
  | "never" => .never
  | "symbol" => .symbol
  | "bigint" => .bigint
  | "object" => .object
  | "array" => .array
  | "tuple" => .tuple
  | "Set" => .set
  | "Map" => .map
  | "castAs" => .castAs
  | "this" => .this
  | "unknownKeyword" => .unknownKeyword
  | "unknown" => .unknown
  | other => ofOtherText other

/-- Whether a kind is one of the two sentinels. -/
def isUnknown : Kind → Bool
  | .unknown => true
  | .unknownValue _ => true
  | _ => false

/-- A kind that is read back as it is. -/
def IsCanonical (kind : Kind) : Prop :=
  ofText kind.text = kind

instance (kind : Kind) : Decidable kind.IsCanonical :=
  inferInstanceAs (Decidable (ofText kind.text = kind))

end Kind

end DeclCatalog
