import DeclCatalog.Json.Decode

/-!
# Paths

A path is a string of bytes with slashes between names, and the bytes need not be those of a text.
What a path says is the list of its steps: slashes in a row count as one, and a name that stands for
the directory itself says nothing unless a relative path begins with it.

- `Path`, `Path.ofText`, `Path.text?`: a path, the path of a text, and the text of a path.
- `Path.shown`: how a path is shown in a message, also where it has no text.
- `Path.ofJson?`: reads a path. It is written as its text, so a path without one cannot be written.
- `Path.names`: what stands between the slashes.
- `Path.Step`, `Path.steps`: what a path says; two spellings of one path have the same steps.
- `Path.fileName`: the name that a path ends with.
- `Path.join`: a path below another.
-/

namespace DeclCatalog

/-- A path. -/
@[ext]
structure Path where
  bytes : ByteArray

namespace Path

/-- Equality of paths can be decided by their bytes. -/
instance : DecidableEq Path := fun a b =>
  @decidable_of_iff _ _ Path.ext_iff.symm (ByteArray.instDecidableEq a.bytes b.bytes)

/-- The path of a text. -/
def ofText (text : String) : Path where
  bytes := text.toUTF8

instance : Coe String Path where
  coe := ofText

/-- The text of a path; nothing when its bytes are no text. -/
def text? (path : Path) : Option String :=
  String.fromUTF8? path.bytes

@[simp] theorem text?_ofText (text : String) : (ofText text).text? = some text :=
  dif_pos text.isValidUTF8

/-- A path with a text is the path of that text. -/
theorem text?_eq_some_iff {path : Path} {text : String} :
    path.text? = some text ↔ path = ofText text := by
  constructor
  · intro h
    unfold text? String.fromUTF8? at h
    split at h
    · obtain rfl := Option.some.inj h
      rfl
    · cases h
  · rintro rfl
    exact text?_ofText text

/-! ## Showing -/

/-- What has to follow a byte that a character starts with: how many bytes, and the least and the
greatest that the first of them may be. No character starts with any other byte. -/
def follow? (first : UInt8) : Option (Nat × UInt8 × UInt8) :=
  if first < 0x80 then some (0, 0x80, 0xBF)
  else if first < 0xC2 then none
  else if first < 0xE0 then some (1, 0x80, 0xBF)
  else if first = 0xE0 then some (2, 0xA0, 0xBF)
  else if first = 0xED then some (2, 0x80, 0x9F)
  else if first < 0xF0 then some (2, 0x80, 0xBF)
  else if first = 0xF0 then some (3, 0x90, 0xBF)
  else if first < 0xF4 then some (3, 0x80, 0xBF)
  else if first = 0xF4 then some (3, 0x80, 0x8F)
  else none

/-- How many of the next bytes go on with a character that still needs some, the first of them one
between `least` and `greatest`. -/
def goesOn (least greatest : UInt8) : Nat → List UInt8 → Nat
  | needed + 1, byte :: rest =>
    if least ≤ byte ∧ byte ≤ greatest then goesOn 0x80 0xBF needed rest + 1 else 0
  | _, _ => 0

/-- Bytes as a text in which one mark stands for bytes that start a character but do not end it, and
for a byte that starts none. -/
def lossyText : List UInt8 → String
  | [] => ""
  | first :: rest =>
    match follow? first with
    | none => "\uFFFD" ++ lossyText rest
    | some (needed, least, greatest) =>
      let taken := goesOn least greatest needed rest
      let char :=
        if taken = needed then String.fromUTF8? ⟨(first :: rest.take taken).toArray⟩ else none
      char.getD "\uFFFD" ++ lossyText (rest.drop taken)
termination_by bytes => bytes.length
decreasing_by all_goals simp only [List.length_cons, List.length_drop]; omega

/-- How a path is shown: as its text, or with marks for what is no text in it. -/
def shown (path : Path) : String :=
  match path.text? with
  | some text => text
  | none => lossyText path.bytes.data.toList

/-- Reads a path. -/
def ofJson? (j : Json) : Option Path :=
  j.asString?.map ofText

/-! ## Names -/

/-- The bytes of a name in a path. -/
abbrev Name := List UInt8

/-- What stands between the slashes of a path. -/
def names (path : Path) : List Name :=
  path.bytes.data.toList.splitOn '/'.toUInt8

/-- Whether a path starts at the root. -/
def isAbsolute (path : Path) : Bool :=
  path.bytes.data.toList.head? == some '/'.toUInt8

/-- The name of a text. -/
def nameOf (text : String) : Name :=
  text.toUTF8.data.toList

/-- The name that stands for the directory itself. -/
def dot : Name :=
  nameOf "."

/-- The name that stands for the directory above. -/
def dots : Name :=
  nameOf ".."

/-! ## Steps -/

/-- A step of a path. -/
inductive Step where
  /-- To the root, before any other step. -/
  | root
  /-- Nowhere, as a relative path may say before any other step. -/
  | here
  /-- To the directory above. -/
  | up
  /-- To what has a name in the directory. -/
  | down (name : Name)
  deriving DecidableEq

/-- The step of a name, unless it stands for the directory itself. -/
def Step.ofName? (name : Name) : Option Step :=
  if name = [] ∨ name = dot then none
  else if name = dots then some .up
  else some (.down name)

/-- The steps of a path. -/
def steps (path : Path) : List Step :=
  match names path with
  | [] => []
  | [[]] => []
  | [] :: rest => .root :: rest.filterMap Step.ofName?
  | first :: rest =>
    if first = dot then .here :: rest.filterMap Step.ofName?
    else (first :: rest).filterMap Step.ofName?

/-- The name that a path ends with. A path whose last step is no name is taken whole. -/
def fileName (path : Path) : String :=
  match (steps path).getLast? with
  | some (.down name) => shown ⟨⟨name.toArray⟩⟩
  | _ => path.shown

/-! ## Joining -/

/-- A path below another, with one slash between them. An absolute path stays as it is, and so does
a path below the empty one. -/
def join (base path : Path) : Path :=
  if isAbsolute path || base.bytes.isEmpty then path
  else if base.bytes.data.back? == some '/'.toUInt8 then ⟨base.bytes ++ path.bytes⟩
  else ⟨base.bytes ++ "/".toUTF8 ++ path.bytes⟩

end Path

end DeclCatalog
