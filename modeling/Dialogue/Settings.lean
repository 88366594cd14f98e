import Dialogue.Path
import Dialogue.Runner.Basic
import Dialogue.Toml.Read

set_option autoImplicit false

namespace Dialogue

structure Scene where
  background : Option String
  /-- Images that differ from the usual ones here. -/
  actors : Table String

/-- Which program a player plays, where it starts, and what it shows. -/
structure Settings where
  /-- The path of the stored program. -/
  program : String
  start : String
  vars : Table Value
  /-- The image of each actor. -/
  actors : Table String
  scenes : Table Scene

namespace Settings

/-- Where settings are kept if no other place is named. -/
def defaultPath : String :=
  "parley.toml"

def defaultStart : String :=
  "Start"

def text? : Toml → Option String
  | .text s => some s
  | _ => none

def value? : Toml → Option Value
  | .bool b => some (.bool b)
  | .number x => some (.number x)
  | .text s => some (.text s)
  | _ => none

def table? {α : Type} (decode : Toml → Option α) (v : Toml) : Option (Table α) := do
  let entries ← v.asEntries?
  let decoded ← entries.mapM fun (name, v) => (decode v).map fun a => (name, a)
  return .ofList decoded

/-- An entry that may be missing. -/
def entryOr? {α : Type} (default : α) (decode : Toml → Option α) (found : Option Toml) : Option α :=
  match found with
  | some v => decode v
  | none => some default

/-- A scene: a table with names, or a list of its parts in order. -/
def scene? (v : Toml) : Option Scene := do
  let part (name : String) (index : Nat) : Option Toml :=
    match v.asItems? with
    | some items => items[index]?
    | none => v.asEntries?.bind (Table.lookup name)
  if v.asItems?.isNone && v.asEntries?.isNone then none
  else do
    let background ← entryOr? none (fun v => (text? v).map some) (part "background" 0)
    let actors ← entryOr? .empty (table? text?) (part "actors" 1)
    return ⟨background, actors⟩

def ofEntries? (entries : Toml.Entries) : Option Settings := do
  let entry (name : String) : Option Toml := Table.lookup name entries
  let program ← (entry "program").bind text?
  let start ← entryOr? defaultStart text? (entry "start")
  let vars ← entryOr? .empty (table? value?) (entry "variables")
  let actors ← entryOr? .empty (table? text?) (entry "actors")
  let scenes ← entryOr? .empty (table? scene?) (entry "scenes")
  return ⟨program, start, vars, actors, scenes⟩

/-- The settings that the file at `path` holds, if its text spells any. The program is looked for
in the folder of the file. -/
def ofText? (path text : String) : Option Settings := do
  let entries ← Toml.read? text
  let settings ← ofEntries? entries
  return match Path.parent? path with
    | some folder => { settings with program := Path.join folder settings.program }
    | none => settings

def hasScene (s : Settings) (name : String) : Bool :=
  s.scenes.contains name

def background? (s : Settings) (scene : String) : Option String :=
  (s.scenes.get? scene).bind Scene.background

/-- The image of an actor; the scene's own one comes first. -/
def actorImage? (s : Settings) (scene : Option String) (actor : String) : Option String :=
  match (scene.bind s.scenes.get?).bind fun scene => scene.actors.get? actor with
  | some image => some image
  | none => s.actors.get? actor

/-- How a runner is set up. -/
def setup (s : Settings) : Setup :=
  s.vars.entries.foldl (fun setup e => setup.setVariable e.1 e.2) (.starting s.start)

end Settings

end Dialogue
