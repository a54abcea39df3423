import ComponentAttrs.Graph.Basic

/-!
Graphs as drawings: one statement for each definition and each edge. Quotes in names are written
with a backslash in front; nothing else is.
-/
namespace ComponentAttrs.Graph

variable {δ : Type}

def rootColor : String := "#E3F2FD"

def otherColor : String := "#FAFAFA"

/-- How edges of a kind are drawn. -/
def edgeStyle : LinkKind → String
  | .localMixin => "style=solid, color=\"#4CAF50\""
  | .globalMixin => "style=dashed, color=\"#FF9800\""
  | .extension => "style=bold, color=\"#2196F3\""

/-- The node that edges from an absent root are drawn from. -/
def absentRoot : String := "<global>"

def standardTitle : String := "Component Composition Graph"

def escapeQuotes (cs : List Char) : List Char :=
  cs.flatMap fun c => if c = '"' then ['\\', '"'] else [c]

/-- A name between quotes. -/
def dotName (name : String) : String :=
  "\"" ++ String.ofList (escapeQuotes name.toList) ++ "\""

def nodeLine (name color : String) : String :=
  "    " ++ dotName name ++ " [fillcolor=\"" ++ color ++ "\"];"

def edgeLine (source target : String) (kind : LinkKind) : String :=
  "    " ++ dotName source ++ " -> " ++ dotName target ++ " [" ++ edgeStyle kind ++ ", label=\""
    ++ kind.name ++ "\"];"

/-- The title is written as it is. -/
def titleLine (title : String) : String := "digraph \"" ++ title ++ "\" \x7b"

def toDot [DecidableEq δ] (name : δ → String) (title : String) (g : Graph δ) : String :=
  let nodes := g.nodes.map fun d =>
    nodeLine (name d) (if some d = g.root then rootColor else otherColor)
  let edges := g.edges.map fun e =>
    edgeLine ((e.source.map name).getD absentRoot) (name e.target) e.kind
  "\n".intercalate
    ([titleLine title, "    rankdir=BT;", "    node [shape=box, style=filled];", ""]
      ++ nodes ++ [""] ++ edges ++ ["\x7d"])

end ComponentAttrs.Graph
