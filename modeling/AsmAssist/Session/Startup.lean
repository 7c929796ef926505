import AsmAssist.Catalog.Table
import AsmAssist.Session.Basic

/-!
# Starting a session

The client's options replace the settings as a whole or not at all. A documentation directory named there
is read once the client is ready; a directory that cannot be read leaves the catalog as it was.
-/

namespace AsmAssist.Session

/-- The files that can be read: directory and file name to contents. -/
abbrev Shelf := Text → String → Option Text

inductive LoadError
  | missingFile
  | shortRow (e : Catalog.ShortRow)
  deriving DecidableEq, Repr

def LoadError.message : LoadError → String
  | .missingFile => "I/O error: No such file or directory (os error 2)"
  | .shortRow e => e.message

inductive Level
  | warning
  | info
  deriving DecidableEq, Repr

/-- The number that clients know a level by. -/
def Level.code : Level → Nat
  | .warning => 2
  | .info => 3

structure Notice where
  level : Level
  message : String
  deriving DecidableEq, Repr

def serverName : String := "p4-lsp"

def serverVersion : String := "0.1.0"

def readyNotice : Notice := ⟨.info, "p4-lsp ready"⟩

def loadFailed (e : LoadError) : Notice := ⟨.warning, "Using built-in documentation: " ++ e.message⟩

/-- Reads both tables of a directory before it parses either. -/
def loadCatalog (shelf : Shelf) (directory : Text) : Except LoadError Catalog :=
  match shelf directory Catalog.Table.instructions.fileName,
      shelf directory Catalog.Table.registers.fileName with
  | some instructions, some registers => (Catalog.parse instructions registers).mapError .shortRow
  | _, _ => .error .missingFile

def configure (s : Session) (options : Option Settings.Value) : Session :=
  match Settings.read options with
  | .ok settings => { s with settings }
  | .error _ => s

def announce (s : Session) (shelf : Shelf) : Session × List Notice :=
  match s.settings.documentation.path with
  | none => (s, [readyNotice])
  | some directory =>
    match loadCatalog shelf directory with
    | .ok catalog => ({ s with catalog }, [readyNotice])
    | .error e => (s, [loadFailed e, readyNotice])

end AsmAssist.Session
