import BufferPromotion.Proofs.Code.Source
import BufferPromotion.Proofs.Site.Memory
import BufferPromotion.Proofs.Site.TileNames

/-! # Definitions before uses

Every operation of a listed kernel is written as one line. An operation with a result declares the
variable of its value there, and no other line of the schedule declares a variable. What a line reads
are the variables of its operands, besides arrays that are declared at entry and variables that the
surroundings of the code give (`Emission.explains_of_mem_vars`). Since operands are parameters or
results of earlier operations, every variable is declared before it is read
(`code_declares_before_use`).
-/

set_option autoImplicit false

namespace BufferPromotion

/-! ## Variables -/

/-- The variables of an expression. -/
def Expr.vars : Expr → List String
  | var name => [name]
  | given _ | number _ => []
  | binary _ left right => left.vars ++ right.vars
  | element array index => array.vars ++ index.vars
  | deref value | addressOf value | castPointer _ value | member value _ _ => value.vars
  | call _ args => args

/-- The variables that a statement reads. -/
def Stmt.vars : Stmt → List String
  | skip | sharedArray .. => []
  | seq first second => first.vars ++ second.vars
  | declare _ _ value => value.vars
  | assign place value => place.vars ++ value.vars
  | effect expr => expr.vars
  | loop _ _ _ body => body.vars
  | .when condition body => condition.vars ++ body.vars
  | choose condition body otherwise => condition.vars ++ body.vars ++ otherwise.vars

theorem Expr.vars_scaled (index : Expr) (stride : UInt32) :
    (index.scaled stride).vars = index.vars := by
  unfold scaled
  split
  · rfl
  · exact List.append_nil _

theorem SiteContext.vars_localCoordinate (coordinate : Expr) (origin : String)
    (block halo : UInt32) :
    (localCoordinate coordinate origin block halo).vars = coordinate.vars ++ [origin] := by
  simp [localCoordinate, Expr.add, Expr.sub, Expr.mul, Expr.word, Expr.vars]

theorem Node.indices_subset (node : Node) : node.indices ⊆ node.operands := by
  unfold indices
  split
  · exact ((List.take_sublist _ _).trans (List.drop_sublist _ _)).subset
  · exact List.nil_subset _

namespace Emission

variable {emission : Emission} {op : Operation}

/-- A variable on the line of an operation is that of an operand, the name of a tile, or one of
the variables that the surroundings of the code give: the position of the block, and the width of
an image that nobody has described. -/
def Explains (emission : Emission) (op : Operation) (name : String) : Prop :=
  (∃ operand ∈ op.operands, emission.kernel.varName operand = name) ∨
    (∃ tile ∈ emission.tiles, tile.name = name) ∨ name ∈ ["blockIdx.x", "blockIdx.y", "width"]

theorem explains_operand {operand : ValueId} (h : operand ∈ op.operands) :
    emission.Explains op (emission.kernel.varName operand) :=
  Or.inl ⟨operand, h, rfl⟩

theorem explains_of_mem_operand {position : Nat} (h : position < op.operands.length) :
    ∀ name ∈ (emission.operand op position).vars, emission.Explains op name := by
  intro name hname
  unfold operand at hname
  rw [List.getElem?_eq_getElem h] at hname
  rw [List.mem_singleton.mp hname]
  exact explains_operand (List.getElem_mem h)

/-- The variables of an address in global memory. -/
theorem explains_memoryAddress {base : ValueId} (hbase : op.base = some base) :
    ∀ name ∈ (emission.context.memoryAddress op base).expr.vars, emission.Explains op name := by
  have hindex : ∀ index ∈ op.indices, emission.Explains op (emission.kernel.varName index) :=
    fun index h => explains_operand (op.indices_subset h)
  intro name hname
  rcases List.mem_append.mp hname with hbaseName | hoffset
  · rw [List.mem_singleton.mp hbaseName]
    exact explains_operand (Node.mem_operands_of_base hbase)
  -- the offset of two indices, of one, or of any other number
  split at hoffset
  · next x y hindices =>
    rw [hindices] at hindex
    unfold SiteContext.pixelOffset at hoffset
    rw [Expr.vars_scaled] at hoffset
    rcases List.mem_append.mp hoffset with hrow | hcolumn
    · rcases List.mem_append.mp hrow with hy | hwidth
      · rw [List.mem_singleton.mp hy]
        exact hindex y (by simp)
      · -- the width of an image that is described is a text, not a variable
        cases hstart : emission.context.kernel.bufferStart base with
        | none =>
            rw [hstart] at hwidth
            rw [List.mem_singleton.mp hwidth]
            exact Or.inr (Or.inr (by simp))
        | some buffer =>
            rw [hstart] at hwidth
            cases hwidth
    · rw [List.mem_singleton.mp hcolumn]
      exact hindex x (by simp)
  · next x hindices =>
    rw [hindices] at hindex
    rw [List.mem_singleton.mp hoffset]
    exact hindex x (by simp)
  · cases hoffset

theorem explains_address? (hanalysis : emission.analysis = Analysis.ofKernel emission.kernel)
    (hvalid : emission.kernel.check = .ok ()) (hop : op ∈ emission.kernel.operations)
    {address : SiteAddress} (haddress : emission.context.address? op = some address) :
    ∀ name ∈ address.expr.vars, emission.Explains op name := by
  cases address with
  | memory base offset =>
      obtain ⟨base, -, hbase, -, hmemory⟩ := SiteContext.address?_eq_memory_iff.mp haddress
      rw [← hmemory]
      exact explains_memoryAddress hbase
  | cell tile row column =>
      obtain ⟨group, hgroup, -, htile⟩ := exists_group_of_cell hanalysis hvalid hop haddress
      obtain ⟨base, -, -, hcell⟩ := SiteContext.address?_eq_cell_iff.mp haddress
      obtain ⟨hreads, buffer, x, y, -, hindices, heq⟩ := SiteContext.tileCell?_eq_some_iff.mp hcell
      have hindex : ∀ index ∈ op.indices, emission.Explains op (emission.kernel.varName index) :=
        fun index h => explains_operand (op.indices_subset h)
      rw [hindices] at hindex
      have hdeclared : emission.Explains op tile :=
        Or.inr (Or.inl ⟨_, tileOf_mem_tiles (SiteContext.readsTile_iff.mp hreads).2.1 hgroup, htile⟩)
      cases heq
      intro name hname
      simp only [SiteAddress.expr, Expr.vars, SiteContext.vars_localCoordinate, Expr.vars_scaled,
        SiteContext.nameOf, List.mem_append, List.mem_singleton, or_assoc] at hname
      rcases hname with rfl | rfl | rfl | rfl | rfl
      · exact hdeclared
      · exact hindex y (by simp)
      · exact Or.inr (Or.inr (by simp))
      · exact hindex x (by simp)
      · exact Or.inr (Or.inr (by simp))

/-! ## The statement of an operation -/

section Statement

variable (emission)

/-- A store writes its second operand. -/
theorem stored_eq_operand (hkind : op.kind = .store) :
    emission.stored op = emission.operand op 1 := by
  unfold stored operand Node.storedOperand
  rw [hkind]

/-- An operation with a result declares its variable. -/
theorem statement_of_result (h : op.toNode.Listable) (htype : op.type.isSome = true) :
    ∃ value, emission.statement emission.context op =
      .declare "auto" (emission.kernel.varName op.id) value := by
  have hform := h.form
  obtain ⟨type, hsome⟩ := Option.isSome_iff_exists.mp htype
  rw [hsome] at hform
  unfold statement
  cases hkind : op.kind with
  | param | store =>
      rw [hkind] at hform
      exact absurd hform id
  | extract field | reinterpret | load => exact ⟨_, rfl⟩
  | address =>
      have hcount : 2 ≤ op.operands.length := (NodeKind.accepts_iff.mp (hkind ▸ h.count)).1
      obtain ⟨base, hbase⟩ : ∃ base, op.base = some base := by
        unfold Node.base
        rw [hkind]
        cases hoperands : op.operands with
        | nil => simp [hoperands] at hcount
        | cons base rest => exact ⟨base, rfl⟩
      obtain ⟨address, haddress⟩ : ∃ address, emission.context.address? op = some address :=
        SiteContext.exists_address hkind hbase
      rw [haddress]
      exact ⟨_, rfl⟩
  | other name =>
      dsimp only
      rw [if_pos htype]
      exact ⟨_, rfl⟩

/-- An operation without a result writes through a pointer, or calls a function. -/
theorem statement_of_no_result (h : op.toNode.Listable) (htype : op.type = none) :
    emission.statement emission.context op =
        .assign (.deref (emission.operand op 0)) (emission.operand op 1) ∨
      ∃ name, IsWord name ∧ emission.statement emission.context op =
        .effect (.call name (op.operands.map emission.kernel.varName)) := by
  have hform := h.form
  rw [htype] at hform
  unfold statement
  cases hkind : op.kind with
  | param | extract field | reinterpret | address | load =>
      rw [hkind] at hform
      exact absurd hform id
  | store => exact Or.inl (congrArg _ (emission.stored_eq_operand hkind))
  | other name =>
      rw [hkind] at hform
      refine Or.inr ⟨name, hform.1, ?_⟩
      dsimp only
      rw [htype]
      rfl

end Statement

/-- Every variable that an operation reads is explained. -/
theorem explains_of_mem_vars (hanalysis : emission.analysis = Analysis.ofKernel emission.kernel)
    (hvalid : emission.kernel.check = .ok ()) (hop : op ∈ emission.kernel.operations)
    (h : op.toNode.Listable) :
    ∀ name ∈ (emission.statement emission.context op).vars, emission.Explains op name := by
  have hcount := NodeKind.accepts_iff.mp h.count
  unfold statement
  cases hkind : op.kind with
  | param => nofun
  | extract field | reinterpret | load =>
      rw [hkind] at hcount
      exact explains_of_mem_operand hcount.1
  | store =>
      rw [hkind] at hcount
      have hfirst : 0 < op.operands.length := Nat.lt_of_lt_of_le Nat.zero_lt_two hcount.1
      dsimp only
      rw [emission.stored_eq_operand hkind]
      exact List.forall_mem_append.mpr
        ⟨explains_of_mem_operand hfirst, explains_of_mem_operand hcount.1⟩
  | address =>
      cases haddress : emission.context.address? op with
      | none => nofun
      | some address => exact explains_address? hanalysis hvalid hop haddress
  | other function =>
      have hargs : ∀ name ∈ op.operands.map emission.kernel.varName,
          emission.Explains op name := by
        intro name hname
        obtain ⟨operand, hoperand, rfl⟩ := List.mem_map.mp hname
        exact explains_operand hoperand
      cases htype : op.type.isSome <;> exact hargs

/-! ## The line of an operation -/

/-- The text of a line that declares a variable starts with the type that all of them have. -/
def DeclaresVariable (text : String) : Prop := "auto ".toList <+: text.toList

theorem not_declaresVariable_call {name : String} (h : IsWord name) (rest : String) :
    ¬ DeclaresVariable (name ++ "(" ++ rest) := by
  intro hprefix
  have hname : (name.toList ++ ['(']) <+: (name ++ "(" ++ rest).toList := by simp
  -- of two beginnings of one text one is a beginning of the other
  rcases List.prefix_or_prefix_of_prefix hprefix hname with hshort | hlong
  · have hblank : ' ' ∈ name.toList ++ ['('] := hshort.subset (by decide)
    rcases List.mem_append.mp hblank with hmem | hmem
    · exact absurd (h.chars ' ' hmem) (by decide)
    · exact absurd hmem (by decide)
  · have hparenthesis : '(' ∈ "auto ".toList := hlong.subset (by simp)
    exact absurd hparenthesis (by decide)

/-- An operation has one line, which declares its variable if and only if it has a result. -/
theorem exists_linesOf_eq (h : op.toNode.Listable) :
    ∃ text, emission.linesOf op = [⟨1, text⟩] ∧
      (op.type.isSome = true → ∃ value : Expr,
        text = "auto " ++ emission.kernel.varName op.id ++ " = " ++ value.text ++ ";") ∧
      (op.type = none → ¬ DeclaresVariable text) := by
  unfold linesOf
  cases htype : op.type with
  | some type =>
      obtain ⟨value, hstatement⟩ := emission.statement_of_result h (by rw [htype]; rfl)
      rw [hstatement, Stmt.lines_declare]
      exact ⟨_, rfl, fun _ => ⟨value, by simp⟩, nofun⟩
  | none =>
      rcases emission.statement_of_no_result h htype with
        hstatement | ⟨name, hname, hstatement⟩
      · rw [hstatement, Stmt.lines_assign]
        refine ⟨_, rfl, nofun, ?_⟩
        rintro - ⟨rest, hrest⟩
        have hfirst := congrArg List.head? hrest
        simp [Expr.text] at hfirst
      · rw [hstatement, Stmt.lines_effect]
        refine ⟨_, rfl, nofun, fun _ => ?_⟩
        rw [Expr.text, String.append_assoc, String.append_assoc]
        exact not_declaresVariable_call hname _

/-- An operand is a parameter, which has its own name in generated code, or the result of an
earlier operation. -/
theorem operand_declared_before {kernel : Kernel} (hlistable : kernel.Listable)
    {before after : List Operation} (hsplit : kernel.operations = before ++ op :: after)
    {operand : ValueId} (hoperand : operand ∈ op.operands) :
    (∃ param ∈ kernel.params, param.id = operand ∧ kernel.varName operand = param.name) ∨
      ∃ earlier ∈ before, earlier.id = operand ∧ earlier.type.isSome = true := by
  rcases hlistable.operands before op after hsplit operand hoperand with hparam | hearlier
  · obtain ⟨param, hmem, rfl⟩ := List.mem_map.mp hparam
    refine Or.inl ⟨param, hmem, rfl, ?_⟩
    unfold Kernel.varName
    rw [hlistable.built.param?_id hmem]
  · exact Or.inr hearlier

end Emission

/-- **The code of a listed kernel declares before it uses, and its braces match.** The lines of the
code are the one that opens the function, those at entry, one line for every operation in the order
of the schedule, and the brace that closes the function. The line of an operation declares the
variable of its value if and only if there is one. It reads no variables but those of its operands,
arrays that are declared at entry, and variables that the surroundings of the code give; and every
operand is a parameter or has been declared on an earlier line. As many lines open a brace as close
one. The depth of a line is the number of braces around it, and the line is written with four blanks
for each of them, its text and a line break. -/
theorem code_declares_before_use {source : String} {kernels : List ListedKernel}
    {listed : ListedKernel} (hread : (readListing source).value = some kernels)
    (hlisted : listed ∈ kernels) (geometry : TileGeometry) (buffers : BufferTable)
    (settings : LaunchSettings) {code : KernelCode}
    (hrun : (⟨listed.kernel, Analysis.ofKernel listed.kernel, geometry, buffers,
      settings⟩ : Emission).run = .ok code) :
    let kernel := listed.kernel
    let emission : Emission := ⟨kernel, Analysis.ofKernel kernel, geometry, buffers, settings⟩
    let entry := TileCode.entryLines geometry settings.border 1 emission.tiles
    let lines : List CodeLine := ⟨0, emission.headerLine ++ " \x7b"⟩ ::
      (entry ++ kernel.operations.flatMap emission.linesOf ++ [⟨0, "\x7d"⟩])
    code.source = String.join (lines.map fun line =>
      String.join (List.replicate line.depth "    ") ++ line.text ++ "\n") ∧
    (∀ before op after, kernel.operations = before ++ op :: after →
      (∃ text, emission.linesOf op = [⟨1, text⟩] ∧
        (op.type.isSome = true → ∃ value : Expr,
          text = "auto " ++ kernel.varName op.id ++ " = " ++ value.text ++ ";") ∧
        (op.type = none → ¬ Emission.DeclaresVariable text)) ∧
      (∀ name ∈ (emission.statement emission.context op).vars, emission.Explains op name) ∧
      ∀ operand ∈ op.operands,
        (∃ param ∈ kernel.params, param.id = operand ∧ kernel.varName operand = param.name) ∨
          ∃ earlier ∈ before, earlier.id = operand ∧ earlier.type.isSome = true) ∧
    lines.countP CodeLine.opens = lines.countP CodeLine.closes ∧ Indented 0 lines := by
  intro kernel emission entry lines
  have hlistable := (named_of_readListing hread listed hlisted).listable
  have hbraced : Braced 0 lines := emission.braced_codeLines
  refine ⟨?_, fun before op after hsplit => ?_, hbraced.countP_opens, ?_⟩
  · obtain ⟨-, rfl⟩ := Emission.run_eq_ok_iff.mp hrun
    rfl
  · have hop : op ∈ kernel.operations := by
      rw [hsplit]
      exact List.mem_append_right _ List.mem_cons_self
    have hnode := hlistable.nodes op hop
    exact ⟨Emission.exists_linesOf_eq hnode,
      Emission.explains_of_mem_vars rfl hlistable.check_eq_ok hop hnode,
      fun operand => Emission.operand_declared_before hlistable hsplit⟩
  · have hindented := hbraced.indented_append .nil
    rwa [List.append_nil] at hindented

/-- A kernel that reads a tile, and calls a function with what it has read. -/
theorem tile_and_call_declare_before_use :
    let source := "kernel k\nparam %i : struct I\nparam %x : scalar\n" ++
      "%p = extract %i, d : ptr\n%a = lea %p, %x, %x\n%v = load %a\nuse %v\n"
    ∃ kernels listed code, (readListing source).value = some kernels ∧ listed ∈ kernels ∧
      let kernel := listed.kernel
      let emission : Emission :=
        ⟨kernel, Analysis.ofKernel kernel, ⟨⟨4, 4⟩, ⟨1, 1⟩⟩, .empty, .standard⟩
      emission.run = .ok code ∧ emission.tiles.map (·.name) = ["tile_i_d"] ∧
        kernel.operations.flatMap emission.linesOf = [
          ⟨1, "auto v2 = i.d;"⟩,
          ⟨1, "auto v3 = &tile_i_d[x - blockIdx.y * 4 + 1][x - blockIdx.x * 4 + 1];"⟩,
          ⟨1, "auto v4 = *v3;"⟩,
          ⟨1, "use(v4);"⟩] ∧
        code.source = String.join (emission.codeLines.map fun line =>
          String.join (List.replicate line.depth "    ") ++ line.text ++ "\n") ∧
        Indented 0 emission.codeLines := by
  intro source
  let extracted := ((((Kernel.empty "k").addParameter "i" (some (.struct "I")) false
    ).addParameter "x" (some .scalar) false).append (.extractOf 0 "d" .pointer)).withName 2 "p"
  let loaded := (((extracted.append (.addressOf 2 [1, 1])).withName 3 "a").append
    (.loadOf 3)).withName 4 "v"
  let kernel := loaded.append (.otherOf "use" [4] none)
  have hfirst : ((readListing source).value.bind List.head?).map (·.kernel) = some kernel := by
    decide +kernel
  obtain ⟨kernels, listed, hread, hlisted, hkernel⟩ := exists_listed_of_head hfirst
  let emission : Emission :=
    ⟨listed.kernel, Analysis.ofKernel listed.kernel, ⟨⟨4, 4⟩, ⟨1, 1⟩⟩, .empty, .standard⟩
  have htiles : emission.tiles.map (fun tile => (tile.name, tile.buffer.stride)) =
      [("tile_i_d", 1)] := by
    show (Emission.tiles ⟨listed.kernel, _, _, _, _⟩).map _ = _
    rw [hkernel]
    decide +kernel
  have haccepted : ∀ tile ∈ emission.tiles, ∃ row,
      emission.geometry.rowElements tile.buffer.stride = some row := by
    intro tile htile
    have hpair := List.mem_map_of_mem (f := fun tile : Tile => (tile.name, tile.buffer.stride)) htile
    rw [htiles] at hpair
    obtain ⟨-, hstride⟩ := Prod.mk.inj (List.mem_singleton.mp hpair)
    rw [hstride]
    exact ⟨6, rfl⟩
  have hrun := Emission.run_eq_ok_iff.mpr ⟨haccepted, rfl⟩
  obtain ⟨hsource, -, -, hindented⟩ := code_declares_before_use hread hlisted
    ⟨⟨4, 4⟩, ⟨1, 1⟩⟩ .empty .standard hrun
  refine ⟨kernels, listed, _, hread, hlisted, hrun, ?_, ?_, hsource, hindented⟩
  · have hnames := congrArg (List.map Prod.fst) htiles
    rwa [List.map_map] at hnames
  · rw [hkernel]
    decide +kernel

end BufferPromotion
