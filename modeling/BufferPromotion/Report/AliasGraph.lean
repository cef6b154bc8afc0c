import BufferPromotion.Alias.Analysis

/-! # Alias graphs

The alias graph of a kernel has a node for every tracked value and for every value that is
written through, and an edge to every tracked value from the value it is projected out of.
Promoted pointers are green and blacklisted ones red. The graph is written in the DOT
language.
-/

set_option autoImplicit false

namespace BufferPromotion

/-- The colour of a node, if it has one. -/
inductive NodeColor where
  | plain
  | green
  | red
  deriving DecidableEq, Repr

namespace NodeColor

/-- The attribute of a node of this colour. -/
def attributeText : NodeColor → String
  | plain => ""
  | green => ", color=\"green\""
  | red => ", color=\"red\""

end NodeColor

/-- An element of an alias graph. -/
inductive GraphItem where
  | node (id : ValueId) (label : String) (color : NodeColor)
  | edge (source target : ValueId) (label : String)
  deriving DecidableEq, Repr

namespace GraphItem

/-- The line of an element. -/
def text : GraphItem → String
  | node id label color => s!" n{id} [label=\"" ++ label ++ "\"" ++ color.attributeText ++ "];"
  | edge source target label => s!" n{source} -> n{target} [label=\"" ++ label ++ "\"];"

end GraphItem

namespace AliasGraph

/-- The colour of a value. -/
def color (analysis : Analysis) (id : ValueId) : NodeColor :=
  if analysis.promotion.hasPromoted id then .green
  else if analysis.promotion.hasBlacklisted id then .red
  else .plain

/-- The node of a value, if it belongs to the graph. -/
def nodeItems (kernel : Kernel) (analysis : Analysis) (id : ValueId) : List GraphItem :=
  if analysis.aliases.tracks id || analysis.promotion.hasBlacklisted id then
    [.node id (kernel.shownName id) (color analysis id)]
  else []

/-- The edge to the result of an operation, if it is tracked. -/
def edgeItems (analysis : Analysis) (op : Operation) : List GraphItem :=
  match analysis.aliases.tracks op.id, op.base with
  | true, some base => [.edge base op.id op.kind.keyword]
  | _, _ => []

/-- The elements of the graph: the parameters, then the operations in program order, the
node of each before its edge. -/
def items (kernel : Kernel) (analysis : Analysis) : List GraphItem :=
  kernel.params.flatMap (fun param => nodeItems kernel analysis param.id) ++
    kernel.operations.flatMap fun op => nodeItems kernel analysis op.id ++ edgeItems analysis op

/-- The graph in the DOT language. -/
def text (kernel : Kernel) (analysis : Analysis) : String :=
  "digraph \"" ++ kernel.name ++ "\" \x7b\n" ++
    String.join ((items kernel analysis).map fun item => item.text ++ "\n") ++ "\x7d\n"

end AliasGraph

end BufferPromotion
