import PollHerald.Yaml.Node

set_option autoImplicit false

/-! A document: its node, and the nodes in it that have an anchor. An alias stands for the last node
with the number of its anchor, which may be one that it is part of. -/

namespace PollHerald.Yaml

mutual

/-- The nodes with an anchor in a node, in the order in which they start. -/
def Node.anchoredNodes : Node → List (Nat × Node)
  | .anchored number node => (number, node) :: node.anchoredNodes
  | .sequence items => anchoredItems items
  | .mapping members => anchoredMembers members
  | .scalar _ _ _ => []
  | .alias _ => []

def anchoredItems : List Node → List (Nat × Node)
  | [] => []
  | item :: items => item.anchoredNodes ++ anchoredItems items

def anchoredMembers : List (Node × Node) → List (Nat × Node)
  | [] => []
  | (key, value) :: members =>
    key.anchoredNodes ++ value.anchoredNodes ++ anchoredMembers members

end

structure Document where
  node : Node
  anchored : List (Nat × Node)

namespace Document

def ofNode (node : Node) : Document :=
  { node, anchored := node.anchoredNodes }

def content (document : Document) : Node → Node
  | .anchored _ node => node
  | .alias number =>
    match document.anchored.reverse.lookup number with
    | some node => node
    | none => .alias number
  | node => node

/-- The document that a text writes. Where it writes none, nothing stands in the document. -/
def parse? (text : String) : Option Document := do
  return ofNode ((← Node.ofTokens? (← tokens? text)).getD .empty)

end Document

end PollHerald.Yaml
