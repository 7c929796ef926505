import AsmAssist.Text.Fields
import AsmAssist.Text.Fold

/-!
# Document addresses

A document is assembly source if its client says so or if its address names an `.as` file.
-/

namespace AsmAssist.Address

def language : Text := "p4".toList

def fileExtension : Text := "as".toList

/-- What lies between the scheme and authority and the query or fragment. -/
def path (address : Text) : Text :=
  match ((address.takeWhile fun c => c != '?' && c != '#').dropWhile (· != ':')).drop 1 with
  | '/' :: '/' :: rest => rest.dropWhile (· != '/')
  | rest => rest

def fileName (address : Text) : Text := (Text.fields '/' (path address)).getLast?.getD []

/-- What follows the last point of the file name. -/
def extension? (address : Text) : Option Text :=
  let name := fileName address
  if name.contains '.' then (Text.fields '.' name).getLast? else none

def isAssembly (address : Text) : Bool :=
  (extension? address).any fun e => Text.eqAsciiCase e fileExtension

structure Unsupported where
  address : Text
  deriving DecidableEq, Repr

def Unsupported.message (e : Unsupported) : String := "unsupported document: " ++ String.ofList e.address

def supports (address languageId : Text) : Except Unsupported Unit :=
  if languageId = language || isAssembly address then .ok () else .error ⟨address⟩

end AsmAssist.Address
