import Dialogue.Text.Blank

set_option autoImplicit false

namespace Dialogue.Path

open Dialogue.Text

def isAbsolute (path : String) : Bool :=
  path.toList.head? = some '/'

/-- Whether a path ends like that of a folder. -/
def endsOpen (path : String) : Bool :=
  path.toList.getLast? = some '/'

/-- Whether a part of a path says nothing. -/
def isIdle (part : List Char) : Bool :=
  part.isEmpty || part = ['.']

/-- What stands in front of the parts: a root, the current folder, or nothing. -/
def lead : List Char → List Char
  | '/' :: _ => ['/']
  | ['.'] => ['.']
  | '.' :: '/' :: _ => ['.']
  | _ => []

/-- Parts with `/` between neighbours. -/
def joinParts : List (List Char) → List Char
  | [] => []
  | [part] => part
  | part :: rest => part ++ '/' :: joinParts rest

/-- The folder that a path lies in. A path without parts lies nowhere. -/
def parent? (path : String) : Option String :=
  let front := lead path.toList
  let parts := splitAll '/' (path.toList.drop front.length)
  match parts.reverse.dropWhile isIdle with
  | [] => if front = ['.'] then some "" else none
  | _ :: rest => some (String.ofList (front ++ joinParts (rest.dropWhile isIdle).reverse))

/-- A path seen from a folder. -/
def join (folder path : String) : String :=
  if isAbsolute path || folder.isEmpty then path
  else if folder.toList.getLast? = some '/' then folder ++ path
  else folder ++ "/" ++ path

end Dialogue.Path
