import Dialogue.Table

set_option autoImplicit false

namespace Dialogue

/-- A set of names, listed in ascending order. -/
abbrev NameSet := Table Unit

/-- The once blocks that have run, and the nodes that were selected under the condition `once`. -/
structure Ledger where
  blocks : NameSet
  nodes : NameSet

namespace Ledger

def empty : Ledger :=
  ⟨.empty, .empty⟩

def ofLists (blocks nodes : List String) : Ledger :=
  ⟨.ofList (blocks.map fun id => (id, ())), .ofList (nodes.map fun key => (key, ()))⟩

/-- The key of a node: its title and its place in the group. -/
def nodeKey (title : String) (index : Nat) : String :=
  title ++ "#" ++ toString index

def blockSeen (l : Ledger) (id : String) : Bool :=
  l.blocks.contains id

def markBlock (l : Ledger) (id : String) : Ledger :=
  { l with blocks := l.blocks.insert id () }

def nodeSeen (l : Ledger) (title : String) (index : Nat) : Bool :=
  l.nodes.contains (nodeKey title index)

def markNode (l : Ledger) (title : String) (index : Nat) : Ledger :=
  { l with nodes := l.nodes.insert (nodeKey title index) () }

end Ledger

end Dialogue
