import BufferPromotion.Listing.Kernel
import BufferPromotion.Proofs.Listing.Printing

/-! # Sound drafts

The kernel of a draft can be listed at every moment, and the scope of the draft says the same
about its values as their names do: a name stands for a value if and only if it is the name of the
value. All three steps that add a value keep this, as long as a new name is a word that stands
for nothing yet.
-/

set_option autoImplicit false

namespace BufferPromotion

/-- A kernel that can be listed, where exactly the shown values have names and parameters know
theirs. -/
structure Kernel.Named (kernel : Kernel) : Prop where
  listable : kernel.Listable
  shown : ∀ id, (kernel.givenName? id).isSome = true ↔ kernel.Shows id
  param : ∀ param ∈ kernel.params, kernel.givenName? param.id = some param.name

namespace Kernel.Named

variable {kernel : Kernel} {id : ValueId} {name : String}

/-- A name is a word, so it is not empty. -/
theorem name_ne_empty (h : kernel.Named) (hname : kernel.givenName? id = some name) :
    name ≠ "" := by
  have hword := h.listable.words id ((h.shown id).mp (by rw [hname]; rfl))
  unfold Kernel.wordOf at hword
  rw [hname] at hword
  rintro rfl
  exact hword.nonempty rfl

/-- Names tell values apart. -/
theorem eq_of_givenName? (h : kernel.Named) {other : ValueId}
    (hname : kernel.givenName? id = some name) (hother : kernel.givenName? other = some name) :
    id = other := by
  refine h.listable.distinct id other ((h.shown id).mp (by rw [hname]; rfl))
    ((h.shown other).mp (by rw [hother]; rfl)) ?_
  unfold Kernel.wordOf
  rw [hname, hother]
  rfl

end Kernel.Named

/-- The scope of a draft says what the names of the kernel say. -/
structure Draft.Sound (draft : Draft) : Prop where
  named : draft.kernel.Named
  lookup : ∀ name id,
    (draft.lookup name).map (·.id) = some id ↔ draft.kernel.givenName? id = some name

/-! ## A new name -/

section Define

variable {draft : Draft} {kernel : Kernel} {name : String} (h : draft.Sound)
  (hnew : draft.lookup name = none)
  (hgiven : ∀ id, kernel.givenName? id =
    if id = draft.kernel.nextId then some name else draft.kernel.givenName? id)
  (hshows : ∀ id, kernel.Shows id ↔ draft.kernel.Shows id ∨ id = draft.kernel.nextId)

include h

include hgiven hshows in
theorem shown_define (id : ValueId) : (kernel.givenName? id).isSome = true ↔ kernel.Shows id := by
  rw [hgiven, hshows, ← h.named.shown id]
  by_cases hid : id = draft.kernel.nextId
  · rw [if_pos hid]
    exact ⟨fun _ => Or.inr hid, fun _ => rfl⟩
  · rw [if_neg hid, or_iff_left hid]

include hgiven hshows in
theorem isWord_define (hname : IsWord name) (id : ValueId) (hid : kernel.Shows id) :
    IsWord (kernel.wordOf id) := by
  unfold Kernel.wordOf
  rw [hgiven]
  split
  · exact hname
  · next hne =>
    exact h.named.listable.words id (((hshows id).mp hid).resolve_right hne)

include hnew hgiven in
theorem lookup_define (line : Span) (other : String) (id : ValueId) :
    (List.lookup other ((name, (⟨draft.kernel.nextId, line⟩ : Definition)) :: draft.scope)).map
      (·.id) = some id ↔ kernel.givenName? id = some other := by
  -- the next id has no name yet, since only shown values have names
  have hunused : draft.kernel.givenName? draft.kernel.nextId = none := by
    rw [← Option.not_isSome_iff_eq_none, h.named.shown]
    exact h.named.listable.built.not_shows_nextId
  rw [hgiven, List.lookup_cons]
  by_cases hname : other = name
  · subst hname
    rw [beq_self_eq_true]
    show some draft.kernel.nextId = some id ↔ _
    by_cases hid : id = draft.kernel.nextId
    · rw [if_pos hid]
      exact ⟨fun _ => rfl, fun _ => congrArg some hid.symm⟩
    · rw [if_neg hid, ← h.lookup, hnew]
      exact ⟨fun heq => absurd (Option.some.inj heq).symm hid, nofun⟩
  · rw [beq_false_of_ne hname]
    show (draft.lookup other).map _ = _ ↔ _
    rw [h.lookup]
    by_cases hid : id = draft.kernel.nextId
    · rw [if_pos hid, hid, hunused]
      exact ⟨nofun, fun heq => absurd (Option.some.inj heq).symm hname⟩
    · rw [if_neg hid]

end Define

/-- Values are told apart by their names if the names can be looked up. -/
theorem distinct_of_lookup {kernel : Kernel} {lookup : String → Option ValueId}
    (hlookup : ∀ name id, lookup name = some id ↔ kernel.givenName? id = some name)
    (hshown : ∀ id, (kernel.givenName? id).isSome = true ↔ kernel.Shows id) (id other : ValueId)
    (hid : kernel.Shows id) (hother : kernel.Shows other)
    (hword : kernel.wordOf id = kernel.wordOf other) : id = other := by
  have hfound : ∀ id, kernel.Shows id → lookup (kernel.wordOf id) = some id := by
    intro id hid
    obtain ⟨name, hname⟩ := Option.isSome_iff_exists.mp ((hshown id).mpr hid)
    unfold Kernel.wordOf
    rw [hname]
    exact (hlookup name id).mpr hname
  have hsame := hfound other hother
  rw [← hword, hfound id hid] at hsame
  exact Option.some.inj hsame

/-! ## A new operation -/

namespace Kernel.Listable

variable {kernel : Kernel} {node : Node} (h : kernel.Listable)

include h

theorem nodes_append (hnode : node.Listable) :
    ∀ op ∈ (kernel.append node).operations, op.toNode.Listable := by
  intro op hop
  rw [h.built.operations_append] at hop
  rcases List.mem_append.mp hop with hold | hnew
  · exact h.nodes op hold
  · rw [List.mem_singleton.mp hnew]
    exact hnode

theorem operands_append (hoperands : ∀ operand ∈ node.operands, kernel.Shows operand)
    (before : List Operation) (op : Operation) (after : List Operation)
    (hsplit : (kernel.append node).operations = before ++ op :: after) :
    ∀ operand ∈ op.operands, ShownIn kernel.params before operand := by
  rw [h.built.operations_append] at hsplit
  -- the operation is the new one if nothing comes after it, and an old one otherwise
  rcases List.eq_nil_or_concat after with rfl | ⟨between, last, rfl⟩
  · obtain ⟨rfl, hop⟩ := List.append_inj' hsplit rfl
    rw [← List.singleton_inj.mp hop]
    exact hoperands
  · rw [List.concat_eq_append, ← List.cons_append, ← List.append_assoc] at hsplit
    obtain ⟨hops, -⟩ := List.append_inj' hsplit rfl
    exact h.operands before op between hops

end Kernel.Listable

namespace Draft

/-! ## Steps -/

theorem sound_opened {name : String} (hname : IsWord name) (line : Span) :
    (opened name line).Sound := by
  have hshows : ∀ id, ¬ (Kernel.empty name).Shows id := by
    rintro id (hparam | ⟨op, hop, -⟩)
    · exact absurd hparam List.not_mem_nil
    · exact absurd hop List.not_mem_nil
  have hgiven : ∀ id, (Kernel.empty name).givenName? id = none :=
    fun id => Std.ExtTreeMap.getElem?_empty
  refine ⟨⟨⟨.empty name, hname, nofun, nofun, ?_, ?_, ?_⟩, ?_, nofun⟩, ?_⟩
  · exact fun id hid => absurd hid (hshows id)
  · exact fun id other hid => absurd hid (hshows id)
  · intro before op after hops
    exact absurd hops.symm (List.append_ne_nil_of_right_ne_nil _ (List.cons_ne_nil _ _))
  · intro id
    rw [show (opened name line).kernel = Kernel.empty name from rfl, hgiven]
    exact ⟨nofun, fun hid => absurd hid (hshows id)⟩
  · intro other id
    rw [show (opened name line).kernel = Kernel.empty name from rfl, hgiven]
    exact ⟨nofun, nofun⟩

variable {draft : Draft} {name : String} {node : Node} {line : Span}

/-- Only the kernel and the scope of a draft matter. -/
theorem Sound.congr (h : draft.Sound) {other : Draft} (hkernel : other.kernel = draft.kernel)
    (hscope : other.scope = draft.scope) : other.Sound := by
  refine ⟨hkernel ▸ h.named, fun name id => ?_⟩
  unfold Draft.lookup
  rw [hkernel, hscope]
  exact h.lookup name id

theorem Sound.addParameter (h : draft.Sound) {type : Option ValueType} {isFilter : Bool}
    (hname : IsWord name) (htype : ∀ declared, type = some declared → declared.Listable)
    (hnew : draft.lookup name = none) : (draft.addParameter name type isFilter line).Sound := by
  have hbuilt := h.named.listable.built
  have hgiven : ∀ id, (draft.addParameter name type isFilter line).kernel.givenName? id =
      if id = draft.kernel.nextId then some name else draft.kernel.givenName? id := by
    intro id
    show ((draft.kernel.addParameter name type isFilter).withName _ _).givenName? id = _
    rw [Kernel.givenName?_withName, Kernel.givenName?_addParameter]
    by_cases hid : id = draft.kernel.nextId
    · rw [if_pos hid, if_pos hid]
    · rw [if_neg hid]
  have hshows : ∀ id, (draft.addParameter name type isFilter line).kernel.Shows id ↔
      draft.kernel.Shows id ∨ id = draft.kernel.nextId := fun id => hbuilt.shows_addParameter
  have hops : (draft.addParameter name type isFilter line).kernel.operations =
      draft.kernel.operations := hbuilt.operations_addParameter name type isFilter
  have hparams : (draft.addParameter name type isFilter line).kernel.params =
      draft.kernel.params ++ [⟨draft.kernel.nextId, name, type, isFilter⟩] := rfl
  have hlookup := lookup_define h hnew hgiven line
  have hshown := shown_define h hgiven hshows
  -- left are the types of parameters, the operations, their operands and the given names
  refine ⟨⟨⟨(hbuilt.addParameter _ _ _).withName _ _, h.named.listable.name, ?_, ?_,
    isWord_define h hgiven hshows hname, distinct_of_lookup hlookup hshown, ?_⟩, hshown, ?_⟩,
    hlookup⟩
  · intro param hparam
    rw [hparams] at hparam
    rcases List.mem_append.mp hparam with hold | hlast
    · exact h.named.listable.paramType param hold
    · rw [List.mem_singleton.mp hlast]
      exact htype
  · rw [hops]
    exact h.named.listable.nodes
  · rw [hops, hparams]
    intro before op after hsplit operand hoperand
    have hold := h.named.listable.operands before op after hsplit operand hoperand
    exact hold.mono (List.subset_append_left _ _) (List.Subset.refl _)
  · intro param hparam
    rw [hparams] at hparam
    rw [hgiven]
    rcases List.mem_append.mp hparam with hold | hlast
    · rw [if_neg (hbuilt.param_ne_nextId hold)]
      exact h.named.param param hold
    · rw [List.mem_singleton.mp hlast]
      exact if_pos rfl

theorem Sound.addDefinition (h : draft.Sound) (hname : IsWord name) (hnode : node.Listable)
    (htype : node.type.isSome = true)
    (hoperands : ∀ operand ∈ node.operands, draft.kernel.Shows operand)
    (hnew : draft.lookup name = none) : (draft.addDefinition name node line).Sound := by
  have hbuilt := h.named.listable.built
  have hgiven : ∀ id, (draft.addDefinition name node line).kernel.givenName? id =
      if id = draft.kernel.nextId then some name else draft.kernel.givenName? id :=
    fun id => Kernel.givenName?_withName
  have hshows : ∀ id, (draft.addDefinition name node line).kernel.Shows id ↔
      draft.kernel.Shows id ∨ id = draft.kernel.nextId := by
    intro id
    show (draft.kernel.append node).Shows id ↔ _
    rw [hbuilt.shows_append, htype, eq_self, and_true]
  have hlookup := lookup_define h hnew hgiven line
  have hshown := shown_define h hgiven hshows
  refine ⟨⟨⟨(hbuilt.append _).withName _ _, h.named.listable.name, h.named.listable.paramType,
    h.named.listable.nodes_append hnode, isWord_define h hgiven hshows hname,
    distinct_of_lookup hlookup hshown, h.named.listable.operands_append hoperands⟩, hshown, ?_⟩,
    hlookup⟩
  intro param hparam
  rw [hgiven, if_neg (hbuilt.param_ne_nextId hparam)]
  exact h.named.param param hparam

theorem Sound.addEffect (h : draft.Sound) (hnode : node.Listable) (htype : node.type = none)
    (hoperands : ∀ operand ∈ node.operands, draft.kernel.Shows operand) :
    (draft.addEffect node line).Sound := by
  have hbuilt := h.named.listable.built
  -- without a result there is no new value to name, so the scope stays as it is
  have hshows : ∀ id, (draft.kernel.append node).Shows id ↔ draft.kernel.Shows id := by
    intro id
    rw [hbuilt.shows_append, htype]
    exact or_iff_left nofun
  refine ⟨⟨⟨hbuilt.append _, h.named.listable.name, h.named.listable.paramType,
    h.named.listable.nodes_append hnode, ?_, ?_, h.named.listable.operands_append hoperands⟩, ?_,
    h.named.param⟩, h.lookup⟩
  · exact fun id hid => h.named.listable.words id ((hshows id).mp hid)
  · exact fun id other hid hother =>
      h.named.listable.distinct id other ((hshows id).mp hid) ((hshows other).mp hother)
  · exact fun id => (h.named.shown id).trans (hshows id).symm

end Draft

end BufferPromotion
