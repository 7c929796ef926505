import AsmAssist.Text.Blank

/-!
# Settings

What a client can choose: how documents are formatted, what a hover shows, and where the documentation
comes from. The values given here hold where the client chooses nothing.
-/

namespace AsmAssist

namespace Settings

structure Formatting where
  enabled : Bool := true
  /-- The column where mnemonics start, from 1 to 80. -/
  leftMargin : Nat := 16
  deriving DecidableEq, Repr

structure Hover where
  /-- Show the defining line of a label or assigned name. -/
  showDefinitions : Bool := true
  /-- Markdown below a definition; none if empty. -/
  jumpHint : Text := "**Ctrl+click** to jump to the definition".toList
  deriving DecidableEq, Repr

structure Documentation where
  /-- The directory of the documentation tables; the bundled ones are used without it. -/
  path : Option Text := none
  deriving DecidableEq, Repr

end Settings

structure Settings where
  formatting : Settings.Formatting := {}
  hover : Settings.Hover := {}
  documentation : Settings.Documentation := {}
  deriving DecidableEq, Repr

end AsmAssist
