import BufferPromotion.Report.AliasGraph
import BufferPromotion.Proofs.Alias.Origins
import BufferPromotion.Proofs.Alias.Promotion

/-! # Alias graphs are forests

The writer of an alias graph goes through the kernel once and never looks back: whether the
source of an edge has a node, and an earlier one, is up to the kernel. In a valid kernel the
base of a tracked operation is tracked itself (`AliasSet.tracks_base`) and stands before the
operation, so its node is already there. An edge goes back along a base, so the edges back from a
value are the way of its chain, and end at the parameter that is stored for it.
-/

set_option autoImplicit false

namespace BufferPromotion

namespace GraphItem

/-- The value whose node an element is. -/
def nodeOf? : GraphItem → Option ValueId
  | node id _ _ => some id
  | edge _ _ _ => none

/-- The value that an element leads into as an edge. -/
def targetOf? : GraphItem → Option ValueId
  | node _ _ _ => none
  | edge _ target _ => some target

end GraphItem

namespace AliasGraph

/-- The values with a node, in the order of the nodes. -/
def nodeIds (items : List GraphItem) : List ValueId := items.filterMap GraphItem.nodeOf?

/-- The values that an edge leads into, in the order of the edges. -/
def targetIds (items : List GraphItem) : List ValueId := items.filterMap GraphItem.targetOf?

/-- The values that belong to the graph: the tracked ones and those written through. -/
def belongs (analysis : Analysis) (id : ValueId) : Bool :=
  analysis.aliases.tracks id || analysis.promotion.hasBlacklisted id

/-- A way against the edges, with the values that it meets after the first. -/
inductive WayBack (items : List GraphItem) : ValueId → List ValueId → ValueId → Prop where
  | here (id : ValueId) : WayBack items id [] id
  | along {source target root : ValueId} {path : List ValueId} {label : String}
      (edge : .edge source target label ∈ items) (rest : WayBack items source path root) :
      WayBack items target (source :: path) root

variable {kernel : Kernel} {analysis : Analysis}

/-! ## Nodes -/

theorem nodeIds_append (items others : List GraphItem) :
    nodeIds (items ++ others) = nodeIds items ++ nodeIds others := List.filterMap_append

theorem targetIds_append (items others : List GraphItem) :
    targetIds (items ++ others) = targetIds items ++ targetIds others := List.filterMap_append

theorem nodeIds_edgeItems (op : Operation) : nodeIds (edgeItems analysis op) = [] := by
  unfold edgeItems
  split <;> rfl

theorem targetIds_nodeItems (id : ValueId) : targetIds (nodeItems kernel analysis id) = [] := by
  unfold nodeItems
  split <;> rfl

theorem nodeIds_nodeItems (id : ValueId) :
    nodeIds (nodeItems kernel analysis id) = [id].filter (belongs analysis) := by
  have hwritten : nodeItems kernel analysis id = if belongs analysis id then
      [.node id (kernel.shownName id) (color analysis id)] else [] := rfl
  by_cases hbelongs : belongs analysis id = true
  · rw [hwritten, if_pos hbelongs, List.filter_cons_of_pos hbelongs]
    rfl
  · rw [hwritten, if_neg hbelongs, List.filter_cons_of_neg hbelongs]
    rfl

theorem nodeIds_params (params : List Parameter) :
    nodeIds (params.flatMap fun param => nodeItems kernel analysis param.id) =
      (params.map (·.id)).filter (belongs analysis) := by
  induction params with
  | nil => rfl
  | cons param params ih =>
      rw [List.flatMap_cons, nodeIds_append, ih, nodeIds_nodeItems, List.map_cons,
        ← List.filter_append]
      rfl

theorem nodeIds_operations (ops : List Operation) :
    nodeIds (ops.flatMap fun op => nodeItems kernel analysis op.id ++ edgeItems analysis op) =
      (ops.map (·.id)).filter (belongs analysis) := by
  induction ops with
  | nil => rfl
  | cons op ops ih =>
      rw [List.flatMap_cons, nodeIds_append, nodeIds_append, ih, nodeIds_nodeItems,
        nodeIds_edgeItems, List.append_nil, List.map_cons, ← List.filter_append]
      rfl

theorem nodeIds_items (kernel : Kernel) (analysis : Analysis) :
    nodeIds (items kernel analysis) = kernel.order.filter (belongs analysis) := by
  unfold items Kernel.order
  rw [nodeIds_append, nodeIds_params, nodeIds_operations, List.filter_append]

/-! ## Edges -/

theorem mem_edgeItems {op : Operation} {item : GraphItem} :
    item ∈ edgeItems analysis op ↔ ∃ base, analysis.aliases.tracks op.id = true ∧
      op.base = some base ∧ item = .edge base op.id op.kind.keyword := by
  unfold edgeItems
  split
  · next base htracks hbase =>
    rw [List.mem_singleton]
    constructor
    · intro hitem
      exact ⟨base, htracks, hbase, hitem⟩
    · rintro ⟨base', -, hbase', hitem⟩
      rw [hbase] at hbase'
      cases hbase'
      exact hitem
  · next hnone =>
    constructor
    · intro hitem
      cases hitem
    · rintro ⟨base, htracks, hbase, -⟩
      exact absurd hbase (hnone base htracks)

theorem edge_not_mem_nodeItems {source target id : ValueId} {label : String} :
    GraphItem.edge source target label ∉ nodeItems kernel analysis id := by
  unfold nodeItems
  split <;> simp

theorem mem_edge_items {source target : ValueId} {label : String} :
    .edge source target label ∈ items kernel analysis ↔
      ∃ op ∈ kernel.operations, op.id = target ∧ analysis.aliases.tracks target = true ∧
        op.base = some source ∧ label = op.kind.keyword := by
  unfold items
  simp only [List.mem_append, List.mem_flatMap, edge_not_mem_nodeItems, and_false, exists_false,
    false_or, mem_edgeItems]
  constructor
  · rintro ⟨op, hop, base, htracks, hbase, hitem⟩
    cases hitem
    exact ⟨op, hop, rfl, htracks, hbase, rfl⟩
  · rintro ⟨op, hop, rfl, htracks, hbase, rfl⟩
    exact ⟨op, hop, source, htracks, hbase, rfl⟩

theorem mem_node_items {id : ValueId} {label : String} {shade : NodeColor}
    (h : .node id label shade ∈ items kernel analysis) :
    label = kernel.shownName id ∧ shade = color analysis id := by
  have hnode : ∀ {value : ValueId}, .node id label shade ∈ nodeItems kernel analysis value →
      label = kernel.shownName id ∧ shade = color analysis id := by
    intro value hmem
    unfold nodeItems at hmem
    split at hmem
    · cases List.mem_singleton.mp hmem
      exact ⟨rfl, rfl⟩
    · cases hmem
  have hedge : ∀ {op : Operation}, .node id label shade ∉ edgeItems analysis op := by
    intro op hmem
    obtain ⟨base, -, -, hitem⟩ := mem_edgeItems.mp hmem
    cases hitem
  unfold items at h
  rcases List.mem_append.mp h with hparam | hop
  · obtain ⟨param, -, hmem⟩ := List.mem_flatMap.mp hparam
    exact hnode hmem
  · obtain ⟨op, -, hmem⟩ := List.mem_flatMap.mp hop
    rcases List.mem_append.mp hmem with hmem | hmem
    · exact hnode hmem
    · exact absurd hmem hedge

/-- An element of two lists in a row is in the first one or in the second one. -/
theorem split_append {front back before after : List GraphItem} {item : GraphItem}
    (h : front ++ back = before ++ item :: after) :
    (∃ rest, front = before ++ item :: rest) ∨
      ∃ middle, before = front ++ middle ∧ back = middle ++ item :: after := by
  rcases List.append_eq_append_iff.mp h with hsplit | ⟨middle, hfront, hback⟩
  · exact Or.inr hsplit
  · cases middle with
    | nil =>
        have hbefore : before = front ++ [] := by rw [hfront, List.append_nil, List.append_nil]
        exact Or.inr ⟨[], hbefore, hback.symm⟩
    | cons first middle =>
        obtain ⟨rfl, -⟩ := List.cons.inj hback
        exact Or.inl ⟨middle, hfront⟩

/-- The elements before an element that the operations lead to: those of all operations before
some operation, and a part of those of this one. -/
theorem exists_operation_of_split {before after : List GraphItem} {item : GraphItem}
    {elements : Operation → List GraphItem} {ops : List Operation}
    (h : ops.flatMap elements = before ++ item :: after) :
    ∃ done op rest front back, ops = done ++ op :: rest ∧ elements op = front ++ item :: back ∧
      before = done.flatMap elements ++ front := by
  induction ops generalizing before with
  | nil => simp at h
  | cons op ops ih =>
      rw [List.flatMap_cons] at h
      rcases split_append h with ⟨back, hop⟩ | ⟨middle, hbefore, hops⟩
      · exact ⟨[], op, ops, before, back, rfl, hop, rfl⟩
      · obtain ⟨done, later, rest, front, back, rfl, helements, hmiddle⟩ := ih hops
        refine ⟨op :: done, later, rest, front, back, rfl, helements, ?_⟩
        rw [hbefore, hmiddle, List.flatMap_cons, List.append_assoc]

theorem targetIds_items (kernel : Kernel) (analysis : Analysis) :
    targetIds (items kernel analysis) =
      kernel.operations.flatMap fun op => targetIds (edgeItems analysis op) := by
  unfold items
  have hparams : targetIds (kernel.params.flatMap fun param =>
      nodeItems kernel analysis param.id) = [] := by
    unfold targetIds
    rw [List.filterMap_flatMap]
    exact List.flatMap_eq_nil_iff.mpr fun param _ => targetIds_nodeItems param.id
  rw [targetIds_append, hparams, List.nil_append]
  unfold targetIds
  rw [List.filterMap_flatMap]
  refine congrArg (List.flatMap · kernel.operations) (funext fun op => ?_)
  rw [List.filterMap_append]
  exact congrArg (· ++ targetIds (edgeItems analysis op)) (targetIds_nodeItems op.id)

/-! ## The graph of a valid kernel -/

theorem color_eq_green_iff {id : ValueId} :
    color analysis id = .green ↔ id ∈ analysis.promotion.promoted := by
  unfold color Promotion.hasPromoted
  rw [← Std.ExtTreeSet.contains_iff_mem]
  split
  · next hpromoted => simp [hpromoted]
  · next hother =>
    refine iff_of_false ?_ hother
    split <;> exact nofun

/-- A value that is written through is not promoted, so its node is red. -/
theorem color_eq_red_iff {id : ValueId} :
    color (Analysis.ofKernel kernel) id = .red ↔
      id ∈ (Analysis.ofKernel kernel).promotion.blacklisted := by
  have hdisjoint : id ∈ (Analysis.ofKernel kernel).promotion.blacklisted →
      id ∉ (Analysis.ofKernel kernel).promotion.promoted := by
    intro hblacklisted hpromoted
    obtain ⟨-, -, hunwritten⟩ := Promotion.mem_promoted_ofOperations.mp hpromoted
    exact hunwritten (Promotion.mem_blacklisted_ofOperations.mp hblacklisted)
  unfold color Promotion.hasPromoted Promotion.hasBlacklisted
  simp only [Std.ExtTreeSet.contains_iff_mem]
  split
  · next hpromoted => exact iff_of_false nofun fun hblacklisted => hdisjoint hblacklisted hpromoted
  · split
    · next hblacklisted => exact iff_of_true rfl hblacklisted
    · next hplain => exact iff_of_false nofun hplain

theorem belongs_of_tracks {id : ValueId} (h : analysis.aliases.tracks id = true) :
    belongs analysis id = true := by
  unfold belongs
  rw [h, Bool.true_or]

theorem mem_blacklisted_iff {id : ValueId} :
    (Analysis.ofKernel kernel).promotion.hasBlacklisted id = true ↔
      ∃ op ∈ kernel.operations, op.WritesThrough id := by
  unfold Promotion.hasBlacklisted
  rw [Std.ExtTreeSet.contains_iff_mem]
  exact Promotion.mem_blacklisted_ofOperations

section Valid

variable (hbuilt : kernel.Built) (hvalid : kernel.check = .ok ())

include hvalid

/-- What belongs to the graph is a parameter or an operation. -/
theorem mem_order_of_belongs {id : ValueId}
    (h : belongs (Analysis.ofKernel kernel) id = true) : id ∈ kernel.order := by
  unfold belongs at h
  rcases Bool.or_eq_true _ _ ▸ h with htracks | hwritten
  · rcases Bool.or_eq_true _ _ ▸ htracks with hreference | hpointer
    · obtain ⟨root, hroot⟩ := AliasSet.hasReference_iff.mp hreference
      exact AliasSet.mem_order_of_references hroot
    · obtain ⟨source, hsource⟩ := AliasSet.hasPointer_iff.mp hpointer
      exact AliasSet.mem_order_of_pointers hsource
  · -- the pointer of a store is an operand, which is defined
    obtain ⟨op, hop, hkind, haccessed⟩ := mem_blacklisted_iff.mp hwritten
    obtain ⟨before, after, hops⟩ := List.append_of_mem hop
    have hoperand : id ∈ op.operands := by
      unfold Node.accessed at haccessed
      rw [hkind] at haccessed
      exact List.mem_of_mem_head? haccessed
    rw [Kernel.order_of_operations hops]
    have hdefined := (Kernel.check_eq_ok_iff.mp hvalid before op after hops).defined id hoperand
    exact List.mem_append_left _ (List.mem_append.mpr hdefined)

include hbuilt

theorem count_nodeIds (id : ValueId) :
    (nodeIds (items kernel (Analysis.ofKernel kernel))).count id =
      if belongs (Analysis.ofKernel kernel) id then 1 else 0 := by
  rw [nodeIds_items]
  by_cases hbelongs : belongs (Analysis.ofKernel kernel) id = true
  · rw [if_pos hbelongs, List.count_filter hbelongs]
    exact List.count_eq_one_of_mem hbuilt.nodup_order (mem_order_of_belongs hvalid hbelongs)
  · rw [if_neg hbelongs, List.count_eq_zero]
    exact fun hmem => hbelongs (List.mem_filter.mp hmem).2

/-- A tracked operation has a base. -/
theorem targetIds_edgeItems {op : Operation} (hop : op ∈ kernel.operations) :
    targetIds (edgeItems (Analysis.ofKernel kernel) op) =
      [op.id].filter (Analysis.ofKernel kernel).aliases.tracks := by
  cases htracks : (Analysis.ofKernel kernel).aliases.tracks op.id with
  | true =>
      obtain ⟨root, hroot⟩ := AliasSet.tracks_iff_exists_paramOf.mp htracks
      obtain ⟨base, hbase, -⟩ := AliasSet.exists_base_of_paramOf hbuilt hvalid hop hroot
      unfold edgeItems
      rw [htracks, hbase, List.filter_cons_of_pos htracks]
      rfl
  | false =>
      unfold edgeItems
      rw [htracks, List.filter_cons_of_neg (Bool.not_eq_true _ ▸ htracks)]
      rfl

theorem targetIds_eq_filter :
    targetIds (items kernel (Analysis.ofKernel kernel)) =
      (kernel.operations.map (·.id)).filter (Analysis.ofKernel kernel).aliases.tracks := by
  have hedges : ∀ ops : List Operation, (∀ op ∈ ops, op ∈ kernel.operations) →
      (ops.flatMap fun op => targetIds (edgeItems (Analysis.ofKernel kernel) op)) =
        (ops.map (·.id)).filter (Analysis.ofKernel kernel).aliases.tracks := by
    intro ops
    induction ops with
    | nil => exact fun _ => rfl
    | cons op ops ih =>
        intro hops
        obtain ⟨hop, hrest⟩ := List.forall_mem_cons.mp hops
        rw [List.flatMap_cons, ih hrest, targetIds_edgeItems hbuilt hvalid hop, List.map_cons,
          ← List.filter_append]
        rfl
  rw [targetIds_items]
  exact hedges kernel.operations fun _ hop => hop

theorem count_targetIds (id : ValueId) :
    (targetIds (items kernel (Analysis.ofKernel kernel))).count id =
      if (Analysis.ofKernel kernel).aliases.tracks id = true ∧ id ∈ kernel.schedule then 1
      else 0 := by
  rw [targetIds_eq_filter hbuilt hvalid, hbuilt.map_id_operations]
  have hnodup : kernel.schedule.Nodup := by
    have hordered := hbuilt.nodup_order
    unfold Kernel.order at hordered
    rw [hbuilt.map_id_operations] at hordered
    exact (List.nodup_append.mp hordered).2.1
  by_cases htracks : (Analysis.ofKernel kernel).aliases.tracks id = true
  · rw [List.count_filter htracks, hnodup.count]
    simp only [htracks, true_and]
  · rw [if_neg fun h => htracks h.1, List.count_eq_zero]
    exact fun hmem => htracks (List.mem_filter.mp hmem).2

/-- When an edge is written, both of its ends have a node. -/
theorem ends_mem_nodeIds {before after : List GraphItem} {source target : ValueId}
    {label : String}
    (h : items kernel (Analysis.ofKernel kernel) = before ++ .edge source target label :: after) :
    source ∈ nodeIds before ∧ target ∈ nodeIds before := by
  unfold items at h
  rcases split_append h with ⟨rest, hparams⟩ | ⟨middle, rfl, hops⟩
  · -- parameters have no edges
    have hedge : .edge source target label ∈ kernel.params.flatMap fun param =>
        nodeItems kernel (Analysis.ofKernel kernel) param.id := by
      rw [hparams]
      simp
    obtain ⟨param, -, hmem⟩ := List.mem_flatMap.mp hedge
    exact absurd hmem edge_not_mem_nodeItems
  · obtain ⟨done, op, rest, front, back, hsplit, helements, rfl⟩ := exists_operation_of_split hops
    have hop : op ∈ kernel.operations := by
      rw [hsplit]
      simp
    rcases split_append helements with ⟨others, hnodes⟩ | ⟨others, rfl, hedges⟩
    · -- nor has a node
      have hedge : .edge source target label ∈
          nodeItems kernel (Analysis.ofKernel kernel) op.id := by
        rw [hnodes]
        simp
      exact absurd hedge edge_not_mem_nodeItems
    · have hedge : .edge source target label ∈ edgeItems (Analysis.ofKernel kernel) op := by
        rw [hedges]
        simp
      obtain ⟨base, htracks, hbase, hitem⟩ := mem_edgeItems.mp hedge
      cases hitem
      have hsource : (Analysis.ofKernel kernel).aliases.tracks source = true := by
        by_contra huntracked
        rw [Bool.not_eq_true] at huntracked
        have hnone := AliasSet.tracks_base hbuilt hvalid hop hbase huntracked
        cases htracks.symm.trans hnone
      -- the source is defined before the operation
      have hdefined := (Kernel.check_eq_ok_iff.mp hvalid done op rest hsplit).defined source
        (Node.mem_operands_of_base hbase)
      rw [nodeIds_append, nodeIds_append, nodeIds_append, nodeIds_params, nodeIds_operations,
        nodeIds_nodeItems]
      simp only [List.mem_append, List.mem_filter, List.mem_singleton]
      constructor
      · rcases hdefined with hparam | hearlier
        · exact Or.inl ⟨hparam, belongs_of_tracks hsource⟩
        · exact Or.inr (Or.inl ⟨hearlier, belongs_of_tracks hsource⟩)
      · exact Or.inr (Or.inr (Or.inl ⟨trivial, belongs_of_tracks htracks⟩))

/-! ## Ways back -/

omit hbuilt in
/-- No edge leads into a parameter. -/
theorem wayBack_param {param : Parameter} (hparam : param ∈ kernel.params) {root : ValueId}
    {path : List ValueId} :
    WayBack (items kernel (Analysis.ofKernel kernel)) param.id path root ↔
      path = [] ∧ root = param.id := by
  constructor
  · intro hway
    generalize htarget : param.id = target at hway
    cases hway with
    | here => exact ⟨rfl, rfl⟩
    | along hedge _ =>
        obtain ⟨op, hop, hid, -⟩ := mem_edge_items.mp hedge
        exact absurd (htarget.trans hid.symm) (Kernel.param_id_ne hvalid hparam hop)
  · rintro ⟨rfl, rfl⟩
    exact .here param.id

omit hbuilt hvalid in
/-- A way back from a tracked operation goes on at its base. -/
theorem wayBack_operation {op : Operation} (hop : op ∈ kernel.operations) {base root : ValueId}
    (hbase : op.base = some base) (htracks : (Analysis.ofKernel kernel).aliases.tracks op.id = true)
    (hroot : root ≠ op.id) {path : List ValueId} :
    WayBack (items kernel (Analysis.ofKernel kernel)) op.id path root ↔
      ∃ rest, path = base :: rest ∧
        WayBack (items kernel (Analysis.ofKernel kernel)) base rest root := by
  constructor
  · intro hway
    generalize htarget : op.id = target at hway
    cases hway with
    | here => exact absurd htarget.symm hroot
    | along hedge hrest =>
        obtain ⟨other, hother, hid, -, hsource, -⟩ := mem_edge_items.mp hedge
        have hsame := Kernel.eq_of_mem_operations hother hop (hid.trans htarget.symm)
        rw [hsame, hbase] at hsource
        cases hsource
        exact ⟨_, rfl, hrest⟩
  · rintro ⟨rest, rfl, hrest⟩
    exact .along (mem_edge_items.mpr ⟨op, hop, rfl, htracks, hbase, rfl⟩) hrest

theorem exists_wayBack_iff {id : ValueId}
    (h : (Analysis.ofKernel kernel).aliases.tracks id = true) :
    ∃ root ∈ kernel.params, (Analysis.ofKernel kernel).aliases.paramOf id = some root.id ∧
      ∃ path, ∀ param ∈ kernel.params, ∀ way,
        WayBack (items kernel (Analysis.ofKernel kernel)) id way param.id ↔
          param = root ∧ way = path := by
  have hall : ∀ id ∈ kernel.order, (Analysis.ofKernel kernel).aliases.tracks id = true →
      ∃ root ∈ kernel.params, (Analysis.ofKernel kernel).aliases.paramOf id = some root.id ∧
        ∃ path, ∀ param ∈ kernel.params, ∀ way,
          WayBack (items kernel (Analysis.ofKernel kernel)) id way param.id ↔
            param = root ∧ way = path := by
    refine Kernel.order_induction hvalid ?_ ?_
    · intro root hparam htracks
      obtain ⟨value, hvalue⟩ := AliasSet.tracks_iff_exists_paramOf.mp htracks
      obtain ⟨rfl, -, -⟩ := AliasSet.paramOf_param hbuilt hvalid hparam hvalue
      refine ⟨root, hparam, hvalue, [], fun param hother way => ?_⟩
      rw [wayBack_param hvalid hparam, and_comm]
      refine and_congr_left fun _ => ?_
      exact ⟨hbuilt.eq_of_id_eq hother hparam, fun hsame => by rw [hsame]⟩
    · intro op hop ih htracks
      obtain ⟨value, hvalue⟩ := AliasSet.tracks_iff_exists_paramOf.mp htracks
      obtain ⟨base, hbase, hsame⟩ := AliasSet.exists_base_of_paramOf hbuilt hvalid hop hvalue
      have htracksBase := AliasSet.tracks_iff_exists_paramOf.mpr ⟨value, hsame⟩
      obtain ⟨root, hparam, hroot, path, hways⟩ :=
        ih base (Node.mem_operands_of_base hbase) htracksBase
      refine ⟨root, hparam, hvalue.trans (hsame.symm.trans hroot), base :: path, ?_⟩
      intro param hother way
      rw [wayBack_operation hop hbase htracks (Kernel.param_id_ne hvalid hother hop)]
      simp only [hways param hother]
      constructor
      · rintro ⟨rest, rfl, rfl, rfl⟩
        exact ⟨rfl, rfl⟩
      · rintro ⟨rfl, rfl⟩
        exact ⟨path, rfl, rfl, rfl⟩
  exact hall id (mem_order_of_belongs hvalid (belongs_of_tracks h)) h

end Valid

end AliasGraph

/-- **The alias graph is a forest over the tracked and the written values.** Its text has a line for
each of its elements, which says the id and the label of a node and its colour, or the ids of the
two ends of an edge and its label. In a valid kernel there is one node for each parameter and operation that is tracked or blacklisted, and no other;
it is green if and only if the value is promoted, and red if and only if it is blacklisted. There
is one edge into each tracked operation, from its base, and no other; it comes after the nodes of
both. So a tracked value has one way back to a parameter, which is the one it comes from. -/
theorem alias_graph_is_forest {kernel : Kernel} (hbuilt : kernel.Built)
    (hvalid : kernel.check = .ok ()) :
    let analysis := Analysis.ofKernel kernel
    let items := AliasGraph.items kernel analysis
    AliasGraph.text kernel analysis = "digraph \"" ++ kernel.name ++ "\" \x7b\n" ++
      String.join (items.map fun item => item.text ++ "\n") ++ "\x7d\n" ∧
    (∀ id label color, (GraphItem.node id label color).text =
      " n" ++ toString id ++ " [label=\"" ++ label ++ "\"" ++ color.attributeText ++ "];") ∧
    NodeColor.plain.attributeText = "" ∧
    NodeColor.green.attributeText = ", color=\"green\"" ∧
    NodeColor.red.attributeText = ", color=\"red\"" ∧
    (∀ source target label, (GraphItem.edge source target label).text =
      " n" ++ toString source ++ " -> n" ++ toString target ++ " [label=\"" ++ label ++ "\"];") ∧
    (∀ id, (AliasGraph.nodeIds items).count id =
      if analysis.aliases.tracks id = true ∨ id ∈ analysis.promotion.blacklisted then 1 else 0) ∧
    (∀ id ∈ AliasGraph.nodeIds items,
      id ∈ kernel.params.map (·.id) ∨ id ∈ kernel.operations.map (·.id)) ∧
    (∀ id label color, .node id label color ∈ items →
      label = kernel.shownName id ∧ (color = .green ↔ id ∈ analysis.promotion.promoted) ∧
        (color = .red ↔ id ∈ analysis.promotion.blacklisted)) ∧
    (∀ id, (AliasGraph.targetIds items).count id =
      if analysis.aliases.tracks id = true ∧ id ∈ kernel.schedule then 1 else 0) ∧
    (∀ source target label, .edge source target label ∈ items ↔
      ∃ op ∈ kernel.operations, op.id = target ∧ analysis.aliases.tracks target = true ∧
        op.base = some source ∧ label = op.kind.keyword) ∧
    (∀ before source target label after, items = before ++ .edge source target label :: after →
      source ∈ AliasGraph.nodeIds before ∧ target ∈ AliasGraph.nodeIds before) ∧
    ∀ id, analysis.aliases.tracks id = true →
      ∃ root ∈ kernel.params, analysis.aliases.paramOf id = some root.id ∧
        ∃ path, ∀ param ∈ kernel.params, ∀ way,
          AliasGraph.WayBack items id way param.id ↔ param = root ∧ way = path := by
  intro analysis items
  refine ⟨rfl, fun _ _ _ => rfl, rfl, rfl, rfl, fun _ _ _ => rfl, fun id => ?_, fun id hid => ?_,
    fun id label shade hnode => ?_,
    AliasGraph.count_targetIds hbuilt hvalid, fun source target label => AliasGraph.mem_edge_items,
    fun before source target label after hitems => AliasGraph.ends_mem_nodeIds hbuilt hvalid hitems,
    fun id htracks => AliasGraph.exists_wayBack_iff hbuilt hvalid htracks⟩
  · have hbelongs : AliasGraph.belongs analysis id = true ↔
        analysis.aliases.tracks id = true ∨ id ∈ analysis.promotion.blacklisted := by
      unfold AliasGraph.belongs Promotion.hasBlacklisted
      rw [Bool.or_eq_true, Std.ExtTreeSet.contains_iff_mem]
    rw [AliasGraph.count_nodeIds hbuilt hvalid id]
    exact if_congr hbelongs rfl rfl
  · rw [AliasGraph.nodeIds_items] at hid
    exact List.mem_append.mp (List.mem_of_mem_filter hid)
  · obtain ⟨hlabel, rfl⟩ := AliasGraph.mem_node_items hnode
    exact ⟨hlabel, AliasGraph.color_eq_green_iff, AliasGraph.color_eq_red_iff⟩

/-- The address that is stored through has a base, but no parameter behind it, so its red node
has no edge. The last address belongs to a parameter that is declared after other operations. -/
theorem written_address_has_no_edge :
    let kernel := (((((((((Kernel.empty "k").addParameter "src" (some .pointer) false).addParameter
      "x" (some .scalar) false).append (.addressOf 0 [1])).append (.loadOf 2)).addParameter
      "late" (some .pointer) false).append (.otherOf "p" [] (some .pointer))).append
      (.addressOf 5 [1])).append (.storeOf 6 3)).append (.addressOf 4 [1])
    let analysis := Analysis.ofKernel kernel
    let items := AliasGraph.items kernel analysis
    kernel.Built ∧ kernel.check = .ok () ∧
      items = [.node 0 "%src" .plain, .node 1 "%x" .plain, .node 4 "%late" .plain,
        .node 2 "%2" .green, .edge 0 2 "lea", .node 6 "%6" .red, .node 8 "%8" .plain,
        .edge 4 8 "lea"] ∧
      AliasGraph.text kernel analysis = "digraph \"k\" \x7b\n n0 [label=\"%src\"];\n" ++
        " n1 [label=\"%x\"];\n n4 [label=\"%late\"];\n" ++
        " n2 [label=\"%2\", color=\"green\"];\n n0 -> n2 [label=\"lea\"];\n" ++
        " n6 [label=\"%6\", color=\"red\"];\n n8 [label=\"%8\"];\n" ++
        " n4 -> n8 [label=\"lea\"];\n\x7d\n" ∧
      (AliasGraph.nodeIds items).count 6 = 1 ∧ (AliasGraph.targetIds items).count 6 = 0 ∧
      ∃ root ∈ kernel.params, analysis.aliases.paramOf 8 = some root.id ∧
        ∃ path, ∀ param ∈ kernel.params, ∀ way,
          AliasGraph.WayBack items 8 way param.id ↔ param = root ∧ way = path := by
  intro kernel analysis items
  have hbuilt : kernel.Built :=
    .append (.append (.append (.append (.addParameter (.append (.append (.addParameter
      (.addParameter (.empty "k") ..) ..) _) _) ..) _) _) _) _
  have hvalid : kernel.check = .ok () := by decide +kernel
  have hitems : items = [.node 0 "%src" .plain, .node 1 "%x" .plain, .node 4 "%late" .plain,
      .node 2 "%2" .green, .edge 0 2 "lea", .node 6 "%6" .red, .node 8 "%8" .plain,
      .edge 4 8 "lea"] := by decide +kernel
  obtain ⟨htext, -, -, -, -, -, hnodes, -, -, hedges, -, -, hways⟩ :=
    alias_graph_is_forest hbuilt hvalid
  refine ⟨hbuilt, hvalid, hitems, htext.trans ?_, (hnodes 6).trans (by decide +kernel),
    (hedges 6).trans (by decide +kernel), hways 8 (by decide +kernel)⟩
  rw [show AliasGraph.items kernel (Analysis.ofKernel kernel) = _ from hitems]
  decide +kernel

end BufferPromotion
