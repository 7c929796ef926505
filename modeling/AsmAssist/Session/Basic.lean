import AsmAssist.Address
import AsmAssist.Catalog.Bundled
import AsmAssist.Format
import AsmAssist.Hover
import AsmAssist.Outline
import AsmAssist.Settings.Read

/-!
# Session state

The documents that a client has open, the settings and the catalog. Each text a document ever had carries a
stamp of its own; replacing or closing the document cancels the stamp, and with it every scan of that text.
A held document keeps its stamp, so it is cancelled together with the text it was taken from.
-/

namespace AsmAssist

structure Document where
  text : Text
  version : Int
  stamp : Nat
  deriving DecidableEq, Repr

/-- The index of a document, empty when its stamp is cancelled. -/
def Document.index (d : Document) (cancelled : Bool) : Index :=
  .build (Source.lines d.text) none (.always cancelled)

structure Session where
  documents : Std.TreeMap Text Document
  held : Std.TreeMap Text Document
  /-- The stamps of the texts that were replaced, closed or cancelled. -/
  cancelled : List Nat
  nextStamp : Nat
  catalog : Catalog
  settings : Settings

namespace Session

def start : Session where
  documents := ∅
  held := ∅
  cancelled := []
  nextStamp := 0
  catalog := .bundled
  settings := {}

def isCancelled (s : Session) (d : Document) : Bool := s.cancelled.contains d.stamp

def cancel (s : Session) (d : Document) : Session := { s with cancelled := d.stamp :: s.cancelled }

def document? (s : Session) (address : Text) : Option Document := s.documents[address]?

/-- Cancels the document at an address, if there is one. -/
def cancelAt (s : Session) (address : Text) : Session :=
  match s.document? address with
  | some d => s.cancel d
  | none => s

/-- Puts a new text at an address and cancels the one it replaces. -/
def store (s : Session) (address text : Text) (version : Int) : Session :=
  let s := s.cancelAt address
  { s with
    documents := s.documents.insert address ⟨text, version, s.nextStamp⟩
    nextStamp := s.nextStamp + 1 }

/-- Stores a document that is assembly source. -/
def openDocument (s : Session) (address languageId text : Text) (version : Int) : Session :=
  match Address.supports address languageId with
  | .ok () => s.store address text version
  | .error _ => s

/-- Takes the last of several texts for an open document, unless the document is newer. -/
def changeDocument (s : Session) (address : Text) (version : Int) (texts : List Text) : Session :=
  match texts.getLast?, s.document? address with
  | some text, some d => if version < d.version then s else s.store address text version
  | _, _ => s

def closeDocument (s : Session) (address : Text) : Session :=
  let s := s.cancelAt address
  { s with documents := s.documents.erase address }

/-- The index of an open document whose text is not cancelled. -/
def index? (s : Session) (address : Text) : Option Index :=
  (s.document? address).bind fun d =>
    let index := d.index (s.isCancelled d)
    if index.cancelled then none else some index

def hover? (s : Session) (address : Text) (p : Position) : Option Hover :=
  (s.index? address).bind fun index => Hover.at? index p s.catalog s.settings.hover

def definition? (s : Session) (address : Text) (p : Position) : Option Position :=
  (s.index? address).bind fun index => Definition.find? index p

def symbols? (s : Session) (address : Text) : Option (List Outline.Symbol) :=
  (s.index? address).map Outline.symbols

def edits? (s : Session) (address : Text) : Option (List Format.Edit) :=
  if s.settings.formatting.enabled then
    (s.index? address).map fun index => Format.edits index s.settings.formatting.leftMargin
  else none

end Session

end AsmAssist
