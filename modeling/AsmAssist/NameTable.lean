import AsmAssist.Text.Blank
import Std.Data.TreeMap

/-!
# Name tables

Where in a list the items stand that go by a name. Of two items with one name the later counts.
-/

namespace AsmAssist

/-- The place of an item in its list, by name. -/
abbrev NameTable := Std.TreeMap Text Nat

namespace NameTable

variable {α : Type}

/-- Enters a place under each of the names. -/
def enter (table : NameTable) (names : List Text) (place : Nat) : NameTable :=
  names.foldl (fun table name => table.insert name place) table

/-- The table of a list of items, each with its names. -/
def ofItems (names : α → List Text) (items : List α) : NameTable :=
  items.zipIdx.foldl (fun table item => table.enter (names item.1) item.2) ∅

def item? (table : NameTable) (items : List α) (name : Text) : Option α :=
  table[name]?.bind fun place => items[place]?

/-- The items themselves by name. -/
def resolve (table : NameTable) (items : List α) : Std.TreeMap Text α :=
  table.filterMap fun _ place => items[place]?

end NameTable

end AsmAssist
