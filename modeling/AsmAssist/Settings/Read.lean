import AsmAssist.Settings.Basic
import AsmAssist.Settings.Value

/-!
# Reading settings

Every part of the settings is a record whose members are all optional, or a list of its members in their
fixed order. Unknown members are ignored. The first value that does not conform is the error.
-/

namespace AsmAssist.Settings

/-- What a place in the settings asks for. -/
inductive Wanted
  | settings
  | formatting
  | hover
  | documentation
  | boolean
  | margin
  | text
  | path
  deriving DecidableEq, Repr

def Wanted.describe : Wanted → String
  | .settings => "struct P4Config"
  | .formatting => "struct FormattingConfig"
  | .hover => "struct HoverConfig"
  | .documentation => "struct DocumentationConfig"
  | .boolean => "a boolean"
  | .margin => "u32"
  | .text => "a string"
  | .path => "path string"

inductive Error
  /-- A value of another type. -/
  | mismatch (found : Value) (wanted : Wanted)
  /-- An integer that no margin can hold. -/
  | outOfRange (n : Int)
  /-- A list with more items than the record has members. -/
  | tooLong (length : Nat)

def Error.message : Error → String
  | .mismatch found wanted =>
    "JSON error: invalid type: " ++ String.ofList found.describe ++ ", expected " ++ wanted.describe
  | .outOfRange n =>
    "JSON error: invalid value: integer `" ++ toString n ++ "`, expected " ++ Wanted.margin.describe
  | .tooLong length =>
    "JSON error: invalid length " ++ toString length ++ ", expected fewer elements in array"

/-- A member of a record: its key and how its value changes the record. -/
structure Member (α : Type) where
  key : Text
  set : α → Value → Except Error α

def setMember {α : Type} (members : List (Member α)) (a : α) (key : Text) (v : Value) : Except Error α :=
  match members.find? fun m => m.key == key with
  | some m => m.set a v
  | none => .ok a

def readRecord {α : Type} (wanted : Wanted) (members : List (Member α)) (start : α) (v : Value) :
    Except Error α :=
  match v with
  | .record given => given.foldlM (fun a (key, v) => setMember members a key v) start
  | .list items => do
    let a ← (members.zip items).foldlM (fun a (m, v) => m.set a v) start
    if members.length < items.length then .error (.tooLong items.length) else .ok a
  | v => .error (.mismatch v wanted)

def readBool : Value → Except Error Bool
  | .bool b => .ok b
  | v => .error (.mismatch v .boolean)

def readText : Value → Except Error Text
  | .text s => .ok s
  | v => .error (.mismatch v .text)

def readPath : Value → Except Error (Option Text)
  | .null => .ok none
  | .text s => .ok (some s)
  | v => .error (.mismatch v .path)

/-- An integer of 32 bits, brought into the range of margins. -/
def readMargin : Value → Except Error Nat
  | .integer n => if 0 ≤ n && n < 0x100000000 then .ok (min (max n.toNat 1) 80) else .error (.outOfRange n)
  | v => .error (.mismatch v .margin)

def formattingMembers : List (Member Formatting) :=
  [⟨"enabled".toList, fun a v => return { a with enabled := ← readBool v }⟩,
    ⟨"left_margin".toList, fun a v => return { a with leftMargin := ← readMargin v }⟩]

def hoverMembers : List (Member Hover) :=
  [⟨"show_definitions".toList, fun a v => return { a with showDefinitions := ← readBool v }⟩,
    ⟨"jump_hint_text".toList, fun a v => return { a with jumpHint := ← readText v }⟩]

def documentationMembers : List (Member Documentation) :=
  [⟨"path".toList, fun a v => return { a with path := ← readPath v }⟩]

def settingsMembers : List (Member Settings) :=
  [⟨"formatting".toList, fun a v =>
      return { a with formatting := ← readRecord .formatting formattingMembers {} v }⟩,
    ⟨"hover".toList, fun a v => return { a with hover := ← readRecord .hover hoverMembers {} v }⟩,
    ⟨"documentation".toList, fun a v =>
      return { a with documentation := ← readRecord .documentation documentationMembers {} v }⟩]

/-- Reads the options of a client; without any the defaults hold. -/
def read (options : Option Value) : Except Error Settings :=
  match options with
  | none => .ok {}
  | some .null => .ok {}
  | some v => readRecord .settings settingsMembers {} v

end AsmAssist.Settings
