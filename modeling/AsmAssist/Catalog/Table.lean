import AsmAssist.Catalog.Basic
import AsmAssist.Text.Fields
import AsmAssist.Text.Fold

/-!
# Documentation tables

A catalog is written as two tables, one entry a line, the fields divided by semicolons: name, format,
description, flags and pseudo mark of an instruction; name, description and aliases of a register. Blank
lines count as lines and hold no entry. Fields beyond the last are ignored.
-/

namespace AsmAssist.Catalog

inductive Table
  | instructions
  | registers
  deriving DecidableEq, Repr

def Table.fileName : Table → String
  | .instructions => "instructions.csv"
  | .registers => "registers.csv"

def Table.width : Table → Nat
  | .instructions => 5
  | .registers => 3

/-- A row with too few fields. -/
structure ShortRow where
  table : Table
  line : Nat
  found : Nat
  deriving DecidableEq, Repr

def ShortRow.message (e : ShortRow) : String :=
  "invalid documentation row in " ++ e.table.fileName ++ " at line " ++ toString e.line ++
    ": expected " ++ toString e.table.width ++ " fields, found " ++ toString e.found

structure Row where
  line : Nat
  fields : List Text
  deriving DecidableEq, Repr

def rows (table : Text) : List Row :=
  ((Text.tableLines table).zipIdx 1).filterMap fun (s, line) =>
    if Text.isAllBlank s then none else some ⟨line, Text.fields ';' s⟩

def knownFlags : Text := "ZCNOE".toList

def readInstruction (row : Row) : Except ShortRow InstructionEntry :=
  match row.fields with
  | name :: format :: description :: flags :: pseudo :: _ =>
    .ok {
      name := Text.upper name
      format, description
      flags := knownFlags.filter fun f => (Text.upper flags).contains f
      pseudo := Text.eqAsciiCase (Text.trim pseudo) "true".toList }
  | fields => .error ⟨.instructions, row.line, fields.length⟩

def readRegister (row : Row) : Except ShortRow RegisterEntry :=
  match row.fields with
  | name :: description :: aliases :: _ =>
    .ok {
      name := Text.upper name
      description
      aliases := (((Text.fields ',' aliases).map Text.trim).filter (· ≠ [])).map Text.upper }
  | fields => .error ⟨.registers, row.line, fields.length⟩

/-- Reads both tables; the instruction table is read first. -/
def parse (instructions registers : Text) : Except ShortRow Catalog := do
  let instructionEntries ← (rows instructions).mapM readInstruction
  let registerEntries ← (rows registers).mapM readRegister
  return ofEntries instructionEntries registerEntries

end AsmAssist.Catalog
