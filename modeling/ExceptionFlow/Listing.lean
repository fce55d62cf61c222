import ExceptionFlow.ClassName
import ExceptionFlow.Text.Alphanumeric
/-!
Printed listings of the form `void run() Exceptions: java.io.IOException, a.B`.
-/
namespace ExceptionFlow.Listing

/-- An entry of the listing that is no qualified name. -/
structure Fault where
  entry : String
  deriving DecidableEq

def Fault.message (fault : Fault) : String :=
  s!"Invalid exception name '{fault.entry}'"

def marker : List Char := "Exceptions:".toList

/-- The text after the first occurrence of the marker. -/
def afterMarker? : List Char → Option (List Char)
  | [] => none
  | char :: rest =>
    if marker.isPrefixOf (char :: rest) then some ((char :: rest).drop marker.length)
    else afterMarker? rest

def isSeparator (char : Char) : Bool :=
  char = ',' || Text.isBlank char

def isNameStart (char : Char) : Bool :=
  Text.isLetter char || char = '_' || char = '$'

def isNamePart (char : Char) : Bool :=
  Text.isLetter char || Text.isNumeral char || char = '_' || char = '$'

def isSimpleName : List Char → Bool
  | [] => false
  | char :: rest => isNameStart char && rest.all isNamePart

/-- Simple names with dots between them. -/
def isQualifiedName (name : List Char) : Bool :=
  (name.splitOn '.').all isSimpleName

/-- The entries, or the first one that is no qualified name. -/
def names : List (List Char) → Except Fault (List ClassName)
  | [] => .ok []
  | entry :: entries =>
    if isQualifiedName entry then
      (names entries).map fun others => ⟨String.ofList entry⟩ :: others
    else .error ⟨String.ofList entry⟩

/-- The names in a listing, in order. A text without the marker has none. -/
def parse (text : String) : Except Fault (List ClassName) :=
  match afterMarker? text.toList with
  | none => .ok []
  | some tail => names ((tail.splitOnP isSeparator).filter fun entry => !entry.isEmpty)

/-- The exceptions that a listing names. A listing with a malformed entry names none. -/
def listed (text : String) : List ClassName :=
  (parse text).toOption.getD []

end ExceptionFlow.Listing
