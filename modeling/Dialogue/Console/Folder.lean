import Dialogue.Path
import Dialogue.Table
import Dialogue.Text.Utf8

set_option autoImplicit false

namespace Dialogue.Console

/-- Why a file or the input cannot be used. -/
inductive Fault where
  | missing
  | notFolder
  | isFolder
  | nameTooLong
  /-- The path holds a character that no path may hold. -/
  | unnamable
  /-- The bytes encode no text. -/
  | undecodable
  /-- Another reason, in words. -/
  | other (reason : String)
  deriving DecidableEq, Repr

namespace Fault

def message : Fault → String
  | missing => "No such file or directory (os error 2)"
  | notFolder => "Not a directory (os error 20)"
  | isFolder => "Is a directory (os error 21)"
  | nameTooLong => "File name too long (os error 36)"
  | unnamable => "file name contained an unexpected NUL byte"
  | undecodable => "stream did not contain valid UTF-8"
  | other reason => reason

end Fault

/-- A place that a path leads to. -/
structure Place where
  /-- Whether it is seen from a folder around the one that is known. -/
  outer : Bool
  /-- The parts of the path below the folder from which it is seen. -/
  parts : List (List Char)

namespace Place

def name (p : Place) : String :=
  String.ofList (Path.joinParts p.parts)

/-- The folder around a place. -/
def up (p : Place) : Place :=
  if p.parts.isEmpty then ⟨true, []⟩ else { p with parts := p.parts.dropLast }

def below (p : Place) (part : List Char) : Place :=
  { p with parts := p.parts ++ [part] }

end Place

/-- Text files under their paths. A subfolder is there if a file lies in it; of what lies outside
nothing is known but that there are folders around it. -/
structure Folder where
  files : Table String

namespace Folder

def file? (f : Folder) (p : Place) : Option String :=
  if p.outer then none else f.files.get? p.name

def hasFolder (f : Folder) (p : Place) : Bool :=
  p.parts.isEmpty || (!p.outer && f.files.names.any fun name =>
    (p.name.toList ++ ['/']).isPrefixOf name.toList)

/-- How many bytes a part of a path may have. -/
def partLimit : Nat :=
  255

/-- How many bytes a path may have. -/
def pathLimit : Nat :=
  4095

/-- Goes on by one part of a path, which needs a folder to go on from. -/
def enter (f : Folder) (p : Place) (part : List Char) : Except Fault Place :=
  if f.hasFolder p then
    if Path.isIdle part then .ok p
    else if part = ['.', '.'] then .ok p.up
    else if partLimit < Text.byteLength part then .error .nameTooLong
    else .ok (p.below part)
  else if (f.file? p).isSome then .error .notFolder
  else .error .missing

/-- Refuses a path that leads nowhere, whatever there is. -/
def checkPath (path : List Char) : Except Fault Unit :=
  if path.contains '\x00' then .error .unnamable
  else if path.isEmpty then .error .missing
  else if pathLimit < Text.byteLength path then .error .nameTooLong
  else .ok ()

/-- Where parts of a path lead from the start of the path. -/
def follow (f : Folder) (absolute : Bool) (parts : List (List Char)) : Except Fault Place :=
  parts.foldlM f.enter ⟨absolute, []⟩

def read (f : Folder) (path : String) : Except Fault String := do
  checkPath path.toList
  let p ← f.follow (Path.isAbsolute path) (Text.splitAll '/' path.toList)
  match f.file? p with
  | some text => return text
  | none => throw (if f.hasFolder p then .isFolder else .missing)

/-- Makes a file, or replaces its text. What is written outside the folder is not kept. A path that
ends like one of a folder names no file to make. -/
def write (f : Folder) (path text : String) : Except Fault Folder := do
  checkPath path.toList
  let parts := (Text.splitAll '/' path.toList).filter fun part => !part.isEmpty
  let around ← f.follow (Path.isAbsolute path) parts.dropLast
  let last := parts.getLast?.getD []
  let named := !Path.isIdle last && last ≠ ['.', '.']
  let p ← f.enter around (if named && Path.endsOpen path then [] else last)
  if f.hasFolder p then throw .isFolder
  else if p.outer then return f
  else return ⟨f.files.insert p.name text⟩

end Folder

end Dialogue.Console
