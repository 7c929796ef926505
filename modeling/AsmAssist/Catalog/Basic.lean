import AsmAssist.NameTable
import AsmAssist.Text.Upper

/-!
# Documentation catalog

What is known of instructions and registers, looked up by name without regard to case. Of two entries with
one name the later counts.
-/

namespace AsmAssist

structure InstructionEntry where
  name : Text
  format : Text
  description : Text
  /-- The flags it affects, drawn from `ZCNOE` in that order. -/
  flags : Text
  /-- A directive of the assembler. -/
  pseudo : Bool
  deriving DecidableEq, Repr

structure RegisterEntry where
  name : Text
  description : Text
  aliases : List Text
  deriving DecidableEq, Repr

/-- What a register goes by. -/
def RegisterEntry.names (e : RegisterEntry) : List Text := e.aliases ++ [e.name]

structure Catalog where
  instructions : Std.TreeMap Text InstructionEntry
  registers : List RegisterEntry
  /-- The places in `registers` by name and alias. -/
  registerNames : NameTable

namespace Catalog

def addInstruction (table : Std.TreeMap Text InstructionEntry) (e : InstructionEntry) :
    Std.TreeMap Text InstructionEntry :=
  table.insert e.name e

/-- A catalog of entries whose names and aliases are in upper case. -/
def ofEntries (instructions : List InstructionEntry) (registers : List RegisterEntry) : Catalog where
  instructions := instructions.foldl addInstruction ∅
  registers
  registerNames := .ofItems RegisterEntry.names registers

def instruction? (c : Catalog) (name : Text) : Option InstructionEntry :=
  c.instructions[Text.upper name]?

/-- Finds a register by its name or an alias. -/
def register? (c : Catalog) (name : Text) : Option RegisterEntry :=
  c.registerNames.item? c.registers (Text.upper name)

def instructionCount (c : Catalog) : Nat := c.instructions.size

def registerCount (c : Catalog) : Nat := c.registers.length

end Catalog

end AsmAssist
