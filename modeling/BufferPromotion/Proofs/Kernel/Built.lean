import BufferPromotion.Kernel.Builder
import Mathlib.Data.List.Basic

/-! # Kernels that are built step by step

A kernel is a record of tables, and not every such record comes from building a kernel. Those
that do are described by `Kernel.Built`; what their tables have in common is proved by induction
on the steps.
-/

set_option autoImplicit false

namespace BufferPromotion

namespace Kernel

/-- The kernels that the steps of a builder lead to. -/
inductive Built : Kernel → Prop where
  | empty (name : String) : Built (empty name)
  | addParameter {kernel : Kernel} (h : Built kernel) (name : String) (type : Option ValueType)
      (isFilter : Bool) : Built (kernel.addParameter name type isFilter)
  | append {kernel : Kernel} (h : Built kernel) (node : Node) : Built (kernel.append node)
  | withName {kernel : Kernel} (h : Built kernel) (id : ValueId) (name : String) :
      Built (kernel.withName id name)

theorem getElem?_push_of_some {nodes : Array Node} {id : ValueId} {node new : Node}
    (h : nodes[id]? = some node) : (nodes.push new)[id]? = some node := by
  rw [Array.getElem?_push, if_neg, h]
  exact Nat.ne_of_lt (Array.getElem?_eq_some_iff.mp h).1

theorem operation?_of_push {kernel later : Kernel} {node : Node} {id : ValueId}
    (hnodes : later.nodes = kernel.nodes.push node) {op : Operation}
    (h : kernel.operation? id = some op) : later.operation? id = some op := by
  obtain ⟨old, hold, rfl⟩ := Option.map_eq_some_iff.mp h
  unfold operation?
  rw [hnodes, getElem?_push_of_some hold]
  rfl

theorem operation?_nextId {kernel later : Kernel} {node : Node}
    (hnodes : later.nodes = kernel.nodes.push node) :
    later.operation? kernel.nextId = some ⟨node, kernel.nextId⟩ := by
  show (later.nodes[kernel.nodes.size]?).map _ = _
  rw [hnodes, Array.getElem?_push_size]
  rfl

theorem size_addParameter (kernel : Kernel) (name : String) (type : Option ValueType)
    (isFilter : Bool) : (kernel.addParameter name type isFilter).size = kernel.size + 1 :=
  Array.size_push _

theorem size_append (kernel : Kernel) (node : Node) :
    (kernel.append node).size = kernel.size + 1 := Array.size_push _

/-- The node of a parameter says that it is one, and of which type. -/
theorem Built.node_of_param {kernel : Kernel} (h : kernel.Built) {param : Parameter}
    (hparam : param ∈ kernel.params) :
    kernel.nodes[param.id]? = some ⟨.param, param.type, []⟩ := by
  induction h with
  | empty name => exact absurd hparam List.not_mem_nil
  | addParameter h name type isFilter ih =>
      rcases List.mem_append.mp hparam with hold | hnew
      · exact getElem?_push_of_some (ih hold)
      · rw [List.mem_singleton.mp hnew]
        exact Array.getElem?_push_size
  | append h node ih => exact getElem?_push_of_some (ih hparam)
  | withName h id name ih => exact ih hparam

/-! ## Ids -/

/-- Every parameter and every scheduled operation has a node. -/
theorem Built.lt_size {kernel : Kernel} (h : kernel.Built) :
    ∀ id ∈ kernel.params.map (·.id) ++ kernel.schedule, id < kernel.size := by
  induction h with
  | empty name => exact fun id hid => absurd hid List.not_mem_nil
  | @addParameter kernel h name type isFilter ih =>
      intro id hid
      rw [size_addParameter]
      rcases List.mem_append.mp hid with hparam | hscheduled
      · -- the new parameter has the new node, all other ids are older
        obtain ⟨param, hmem, rfl⟩ := List.mem_map.mp hparam
        rcases List.mem_append.mp hmem with hold | hnew
        · exact Nat.lt_succ_of_lt (ih param.id (List.mem_append_left _ (List.mem_map_of_mem hold)))
        · rw [List.mem_singleton.mp hnew]
          exact Nat.lt_succ_self _
      · exact Nat.lt_succ_of_lt (ih id (List.mem_append_right _ hscheduled))
  | @append kernel h node ih =>
      intro id hid
      rw [size_append]
      rcases List.mem_append.mp hid with hparam | hscheduled
      · exact Nat.lt_succ_of_lt (ih id (List.mem_append_left _ hparam))
      · rcases List.mem_append.mp hscheduled with hold | hnew
        · exact Nat.lt_succ_of_lt (ih id (List.mem_append_right _ hold))
        · rw [List.mem_singleton.mp hnew]
          exact Nat.lt_succ_self _
  | withName h id name ih => exact ih

/-! ## Operations -/

/-- A new node changes no scheduled operation. -/
theorem Built.filterMap_push {kernel : Kernel} (h : kernel.Built) (node : Node) :
    (kernel.schedule.filterMap fun id =>
      ((kernel.nodes.push node)[id]?).map fun node => (⟨node, id⟩ : Operation)) =
      kernel.operations := by
  refine List.filterMap_congr fun id hid => ?_
  have hlt : id < kernel.nodes.size := h.lt_size id (List.mem_append_right _ hid)
  rw [Array.getElem?_push, if_neg (Nat.ne_of_lt hlt)]
  rfl

theorem Built.operations_addParameter {kernel : Kernel} (h : kernel.Built) (name : String)
    (type : Option ValueType) (isFilter : Bool) :
    (kernel.addParameter name type isFilter).operations = kernel.operations :=
  h.filterMap_push _

theorem Built.operations_append {kernel : Kernel} (h : kernel.Built) (node : Node) :
    (kernel.append node).operations = kernel.operations ++ [⟨node, kernel.nextId⟩] := by
  show List.filterMap _ (kernel.schedule ++ [kernel.nextId]) = _
  rw [List.filterMap_append]
  congr 1
  · exact h.filterMap_push node
  · rw [List.filterMap_cons_some (operation?_nextId rfl)]
    rfl

/-- If all scheduled ids exist, the ids of the operations are those of the schedule. -/
theorem map_id_operations_of_lt {kernel : Kernel} (h : ∀ id ∈ kernel.schedule, id < kernel.size) :
    kernel.operations.map (·.id) = kernel.schedule := by
  unfold operations
  revert h
  induction kernel.schedule with
  | nil => exact fun _ => rfl
  | cons id ids ih =>
      intro h
      obtain ⟨hid, hids⟩ := List.forall_mem_cons.mp h
      -- a scheduled id is only dropped if it has no node
      have hop : kernel.operation? id = some ⟨kernel.nodes[id], id⟩ := by
        unfold operation?
        rw [Array.getElem?_eq_getElem hid]
        rfl
      rw [List.filterMap_cons_some hop, List.map_cons, ih hids]

theorem Built.map_id_operations {kernel : Kernel} (h : kernel.Built) :
    kernel.operations.map (·.id) = kernel.schedule :=
  map_id_operations_of_lt fun id hid => h.lt_size id (List.mem_append_right _ hid)

end Kernel

end BufferPromotion
