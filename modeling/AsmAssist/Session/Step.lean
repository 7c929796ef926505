import AsmAssist.Session.Startup

/-!
# Session steps

A session is a sequence of steps, each with a reply.
-/

namespace AsmAssist.Session

inductive Step
  | configure (options : Option Settings.Value)
  | ready
  | shutdown
  | openDocument (address languageId text : Text) (version : Int)
  | changeDocument (address : Text) (version : Int) (texts : List Text)
  | closeDocument (address : Text)
  | hover (address : Text) (p : Position)
  | definition (address : Text) (p : Position)
  | symbols (address : Text)
  | formatting (address : Text)
  /-- Keeps the document at an address under a name. -/
  | hold (address name : Text)
  | held (name : Text)
  | cancel (name : Text)
  | setCatalog (instructions registers : Text)
  | lookup (name : Text)

/-- A document as a client sees it. -/
structure View where
  text : Text
  version : Int
  cancelled : Bool
  deriving DecidableEq, Repr

def view (s : Session) (d : Document) : View := ⟨d.text, d.version, s.isCancelled d⟩

inductive Reply
  | capabilities
  | notices (list : List Notice)
  | done
  | refused (e : Catalog.ShortRow)
  /-- The number of open documents and the one at the address of the step. -/
  | documents (count : Nat) (document : Option View)
  | hover (hover : Option Hover)
  | definition (address : Text) (target : Option Position)
  | symbols (symbols : Option (List Outline.Symbol))
  | edits (edits : Option (List Format.Edit))
  | document (document : Option View)
  /-- A held document, the number of lines in its index, and whether the scan was cancelled. -/
  | held (holding : Option (View × Nat × Bool))
  | lookup (instructionCount registerCount : Nat) (instruction : Option InstructionEntry)
      (register : Option RegisterEntry)

def documentsReply (s : Session) (address : Text) : Reply :=
  .documents s.documents.size ((s.document? address).map s.view)

def hold (s : Session) (address name : Text) : Session :=
  match s.document? address with
  | some d => { s with held := s.held.insert name d }
  | none => s

def held? (s : Session) (name : Text) : Option Document := s.held[name]?

/-- Cancels a held document, and the open one it was taken from. -/
def cancelHeld (s : Session) (name : Text) : Session :=
  match s.held? name with
  | some d => s.cancel d
  | none => s

def heldReply (s : Session) (name : Text) : Reply :=
  .held ((s.held? name).map fun d =>
    let index := d.index (s.isCancelled d)
    (s.view d, index.lines.length, index.cancelled))

def lookupReply (s : Session) (name : Text) : Reply :=
  .lookup s.catalog.instructionCount s.catalog.registerCount (s.catalog.instruction? name)
    (s.catalog.register? name)

def step (shelf : Shelf) (s : Session) : Step → Session × Reply
  | .configure options => (s.configure options, .capabilities)
  | .ready =>
    let (s, notices) := s.announce shelf
    (s, .notices notices)
  | .shutdown => (s, .done)
  | .openDocument address languageId text version =>
    let s := s.openDocument address languageId text version
    (s, s.documentsReply address)
  | .changeDocument address version texts =>
    let s := s.changeDocument address version texts
    (s, s.documentsReply address)
  | .closeDocument address =>
    let s := s.closeDocument address
    (s, s.documentsReply address)
  | .hover address p => (s, .hover (s.hover? address p))
  | .definition address p => (s, .definition address (s.definition? address p))
  | .symbols address => (s, .symbols (s.symbols? address))
  | .formatting address => (s, .edits (s.edits? address))
  | .hold address name => (s.hold address name, .document ((s.document? address).map s.view))
  | .held name => (s, s.heldReply name)
  | .cancel name =>
    let s := s.cancelHeld name
    (s, .document ((s.held? name).map s.view))
  | .setCatalog instructions registers =>
    match Catalog.parse instructions registers with
    | .ok catalog => ({ s with catalog }, .done)
    | .error e => (s, .refused e)
  | .lookup name => (s, s.lookupReply name)

/-- The state after some steps, and their replies. -/
def run (shelf : Shelf) (s : Session) : List Step → Session × List Reply
  | [] => (s, [])
  | first :: rest =>
    let (s, reply) := s.step shelf first
    let (s, replies) := s.run shelf rest
    (s, reply :: replies)

end AsmAssist.Session
