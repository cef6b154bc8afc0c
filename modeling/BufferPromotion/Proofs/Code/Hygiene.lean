import BufferPromotion.Proofs.Site.TileNames
import Std.Data.String.ToNat
import Mathlib.Data.Set.Function

/-! # Names of generated code

Parameters keep their names in generated code, and a result is called after its id. The copy loop
of a tile has variables of its own, and inside of them stand the expressions of the buffer, which
mention parameters by name. Nothing keeps these names apart: a parameter can have the name of a
result, or that of a variable of the loop. `names_are_hygienic_iff` says when that happens.
-/

set_option autoImplicit false

namespace BufferPromotion

/-! ## Variables around an expression -/

/-- The texts in an expression that are given as expressions. -/
def Expr.givens : Expr → List String
  | given text => [text]
  | var _ | number _ | call _ _ => []
  | binary _ left right => left.givens ++ right.givens
  | element array index => array.givens ++ index.givens
  | deref value | addressOf value | castPointer _ value | member value _ _ => value.givens

namespace Stmt

/-- The variables that a statement declares for the statements after it, the latest first. -/
def declared : Stmt → List String
  | seq first second => second.declared ++ first.declared
  | declare _ name _ => [name]
  | _ => []

/-- The texts in a statement that are given as expressions, each with the variables that are
declared around it; `around` are those declared around the statement. -/
def givensUnder (around : List String) : Stmt → List (List String × String)
  | skip | sharedArray .. => []
  | seq first second => first.givensUnder around ++ second.givensUnder (first.declared ++ around)
  | declare _ _ value => value.givens.map (around, ·)
  | assign place value => (place.givens ++ value.givens).map (around, ·)
  | effect expr => expr.givens.map (around, ·)
  | loop var _ _ body => body.givensUnder (var :: around)
  | .when condition body => condition.givens.map (around, ·) ++ body.givensUnder around
  | choose condition body otherwise =>
      condition.givens.map (around, ·) ++ body.givensUnder around ++ otherwise.givensUnder around

/-- The variable that an expression starts with if it is given as a text: fields follow after a
dot. -/
def headName (text : String) : String := String.ofList (text.toList.takeWhile (· != '.'))

/-- Whether a name, where it stands in an expression that is given as a text, means a variable
that the statement declares around the expression. -/
def Captures (stmt : Stmt) (name : String) : Prop :=
  ∃ around text, (around, text) ∈ stmt.givensUnder [] ∧ headName text = name ∧ name ∈ around

end Stmt

namespace Tile

/-- The variables of a round of the copy loop, the latest first. -/
def roundVars : List String := ["gy", "gx", "ly", "lx", "i", "j"]

/-- The width and the height are tested in every round. The data and the width lead to the element
that is copied, and this stands in one more loop if there are several elements per pixel. -/
theorem mem_givensUnder_copyLoop {geometry : TileGeometry} {border : BorderFill} {tile : Tile}
    {around : List String} {text : String} :
    (around, text) ∈ (tile.copyLoop geometry border).givensUnder [] ↔
      (around = roundVars ∧ (text = tile.buffer.width ∨ text = tile.buffer.height)) ∨
        (around = if tile.buffer.stride == 1 then roundVars else "c" :: roundVars) ∧
          (text = tile.buffer.data ∨ text = tile.buffer.width) := by
  have hcell : ∀ vars, (tile.fillCell tile.sourceElement).givensUnder vars =
      [(if tile.buffer.stride == 1 then vars else "c" :: vars, tile.buffer.data),
        (if tile.buffer.stride == 1 then vars else "c" :: vars, tile.buffer.width)] := by
    intro vars
    unfold fillCell sourceElement targetElement elementIndex sourcePixel
    dsimp only
    cases tile.buffer.stride == 1 <;> rfl
  have hzero : ∀ vars, (tile.fillCell (.number 0)).givensUnder vars = [] := by
    intro vars
    unfold fillCell targetElement elementIndex
    dsimp only
    cases tile.buffer.stride == 1 <;> rfl
  have hfill : (tile.fillFromImage border).givensUnder roundVars =
      [(roundVars, tile.buffer.width), (roundVars, tile.buffer.height)] ++
        (tile.fillCell tile.sourceElement).givensUnder roundVars := by
    cases border with
    | leave => rfl
    | zero =>
        show _ ++ (tile.fillCell (.number 0)).givensUnder roundVars = _
        rw [hzero, List.append_nil]
        rfl
  have hloop : (tile.copyLoop geometry border).givensUnder [] =
      (tile.fillFromImage border).givensUnder roundVars := by
    show _ ++ [] = _
    rw [List.append_nil]
    rfl
  rw [hloop, hfill, hcell]
  simp [Prod.ext_iff, and_or_left, or_assoc]

/-- When a name is captured: it starts an expression of the buffer, and is that of a variable of the
loops around this expression. -/
theorem captures_copyLoop_iff {geometry : TileGeometry} {border : BorderFill} {tile : Tile}
    {name : String} :
    (tile.copyLoop geometry border).Captures name ↔
      (name ∈ ["i", "j", "lx", "ly", "gx", "gy"] ∧
        (Stmt.headName tile.buffer.data = name ∨ Stmt.headName tile.buffer.width = name ∨
          Stmt.headName tile.buffer.height = name)) ∨
      (name = "c" ∧ tile.buffer.stride ≠ 1 ∧
        (Stmt.headName tile.buffer.data = name ∨ Stmt.headName tile.buffer.width = name)) := by
  have hround : name ∈ roundVars ↔ name ∈ ["i", "j", "lx", "ly", "gx", "gy"] := by
    simp only [roundVars, List.mem_cons, List.not_mem_nil, or_false]
    tauto
  have helement : name ∈ (if tile.buffer.stride == 1 then roundVars else "c" :: roundVars) ↔
      name ∈ roundVars ∨ name = "c" ∧ tile.buffer.stride ≠ 1 := by
    by_cases hstride : tile.buffer.stride = 1
    · simp [hstride]
    · simp [hstride, or_comm]
  unfold Stmt.Captures
  simp only [mem_givensUnder_copyLoop]
  rw [← hround]
  constructor
  · rintro ⟨around, text, ⟨rfl, rfl | rfl⟩ | ⟨rfl, rfl | rfl⟩, hhead, hname⟩
    · exact Or.inl ⟨hname, Or.inr (Or.inl hhead)⟩
    · exact Or.inl ⟨hname, Or.inr (Or.inr hhead)⟩
    · rcases helement.mp hname with hname | ⟨hname, hstride⟩
      · exact Or.inl ⟨hname, Or.inl hhead⟩
      · exact Or.inr ⟨hname, hstride, Or.inl hhead⟩
    · rcases helement.mp hname with hname | ⟨hname, hstride⟩
      · exact Or.inl ⟨hname, Or.inr (Or.inl hhead)⟩
      · exact Or.inr ⟨hname, hstride, Or.inr hhead⟩
  · rintro (⟨hname, hhead | hhead | hhead⟩ | ⟨hname, hstride, hhead | hhead⟩)
    · exact ⟨_, _, Or.inr ⟨rfl, Or.inl rfl⟩, hhead, helement.mpr (Or.inl hname)⟩
    · exact ⟨_, _, Or.inl ⟨rfl, Or.inl rfl⟩, hhead, hname⟩
    · exact ⟨_, _, Or.inl ⟨rfl, Or.inr rfl⟩, hhead, hname⟩
    · exact ⟨_, _, Or.inr ⟨rfl, Or.inl rfl⟩, hhead, helement.mpr (Or.inr ⟨hname, hstride⟩)⟩
    · exact ⟨_, _, Or.inr ⟨rfl, Or.inr rfl⟩, hhead, helement.mpr (Or.inr ⟨hname, hstride⟩)⟩

end Tile

/-! ## Names of values -/

namespace Kernel

variable {kernel : Kernel}

theorem varName_param (hbuilt : kernel.Built) {param : Parameter} (hparam : param ∈ kernel.params) :
    kernel.varName param.id = param.name := by
  unfold varName
  rw [hbuilt.param?_id hparam]

/-- A result is called after its id. -/
theorem varName_operation (hvalid : kernel.check = .ok ()) {op : Operation}
    (hop : op ∈ kernel.operations) : kernel.varName op.id = "v" ++ toString op.id := by
  have hnone : kernel.param? op.id = none := by
    refine List.find?_eq_none.mpr fun param hparam => ?_
    rw [beq_iff_eq]
    exact param_id_ne hvalid hparam hop
  unfold varName
  rw [hnone]
  rfl

/-- Two values share a name only if one of them is a parameter that is called like the other one,
a result. -/
theorem injOn_varName_iff (h : kernel.Named) :
    Set.InjOn kernel.varName {id | kernel.Shows id} ↔
      ∀ param ∈ kernel.params, ∀ op ∈ kernel.operations, op.type.isSome = true →
        param.name ≠ "v" ++ toString op.id := by
  have hbuilt := h.listable.built
  have hvalid := h.listable.check_eq_ok
  constructor
  · intro hinj param hparam op hop hresult hname
    refine param_id_ne hvalid hparam hop (hinj ?_ ?_ ?_)
    · exact Or.inl (List.mem_map_of_mem hparam)
    · exact Or.inr ⟨op, hop, rfl, hresult⟩
    · rw [varName_param hbuilt hparam, varName_operation hvalid hop, hname]
  · intro hfree id hid other hother hname
    rcases hid with hid | ⟨op, hop, rfl, hresult⟩
    · obtain ⟨param, hparam, rfl⟩ := List.mem_map.mp hid
      rw [varName_param hbuilt hparam] at hname
      rcases hother with hother | ⟨op, hop, rfl, hresult⟩
      · obtain ⟨second, hsecond, rfl⟩ := List.mem_map.mp hother
        rw [varName_param hbuilt hsecond] at hname
        rw [h.eq_of_name_eq hparam hsecond hname]
      · rw [varName_operation hvalid hop] at hname
        exact absurd hname (hfree param hparam op hop hresult)
    · rw [varName_operation hvalid hop] at hname
      rcases hother with hother | ⟨second, hsecond, rfl, -⟩
      · obtain ⟨param, hparam, rfl⟩ := List.mem_map.mp hother
        rw [varName_param hbuilt hparam] at hname
        exact absurd hname.symm (hfree param hparam op hop hresult)
      · rw [varName_operation hvalid hsecond, String.append_right_inj] at hname
        exact Nat.repr_injective hname

end Kernel

/-- **When generated names are hygienic.** In a kernel that is read from a listing, names tell the
parameters and the results apart if and only if no parameter is called like a result, `v` and the
id. A parameter that an expression of a promoted buffer mentions is captured by a variable of the
copy loop if and only if it has the name of a variable around this expression: `i`, `j`, `lx`, `ly`,
`gx` or `gy` anywhere, and `c` where the data or the width lead to one of several elements. -/
theorem names_are_hygienic_iff {source : String} {kernels : List ListedKernel}
    {listed : ListedKernel} (hread : (readListing source).value = some kernels)
    (hlisted : listed ∈ kernels) (geometry : TileGeometry) (settings : LaunchSettings) :
    let kernel := listed.kernel
    let emission : Emission :=
      ⟨kernel, Analysis.ofKernel kernel, geometry, listed.buffers, settings⟩
    (Set.InjOn kernel.varName {id | kernel.Shows id} ↔
      ∀ param ∈ kernel.params, ∀ op ∈ kernel.operations, op.type.isSome = true →
        param.name ≠ "v" ++ toString op.id) ∧
    ∀ tile ∈ emission.tiles, ∀ param ∈ kernel.params,
      (tile.copyLoop geometry settings.border).Captures param.name ↔
        (param.name ∈ ["i", "j", "lx", "ly", "gx", "gy"] ∧
          (Stmt.headName tile.buffer.data = param.name ∨
            Stmt.headName tile.buffer.width = param.name ∨
            Stmt.headName tile.buffer.height = param.name)) ∨
        (param.name = "c" ∧ tile.buffer.stride ≠ 1 ∧
          (Stmt.headName tile.buffer.data = param.name ∨
            Stmt.headName tile.buffer.width = param.name)) := by
  intro kernel emission
  have hnamed := named_of_readListing hread listed hlisted
  exact ⟨Kernel.injOn_varName_iff hnamed, fun tile _ param _ => Tile.captures_copyLoop_iff⟩

/-- A field of a parameter whose name is no variable of the loops. -/
theorem field_expression_is_hygienic :
    let source := "kernel k\nparam %img : struct Image\nparam %x : scalar\n" ++
      "%p = extract %img, data : ptr\n%a = lea %p, %x, %x\n%v = load %a\n"
    ∃ kernels listed, (readListing source).value = some kernels ∧ listed ∈ kernels ∧
      let kernel := listed.kernel
      let emission : Emission :=
        ⟨kernel, Analysis.ofKernel kernel, ⟨⟨4, 4⟩, ⟨1, 1⟩⟩, listed.buffers, .standard⟩
      emission.tiles.map (fun tile => tile.buffer.data) = ["img.data"] ∧
        Set.InjOn kernel.varName {id | kernel.Shows id} ∧
        ∀ tile ∈ emission.tiles, ∀ param ∈ kernel.params,
          ¬ (tile.copyLoop ⟨⟨4, 4⟩, ⟨1, 1⟩⟩ .leave).Captures param.name := by
  intro source
  let kernel := ((((((((Kernel.empty "k").addParameter "img" (some (.struct "Image")) false
    ).addParameter "x" (some .scalar) false).append (.extractOf 0 "data" .pointer)).withName 2 "p"
      ).append (.addressOf 2 [1, 1])).withName 3 "a").append (.loadOf 3)).withName 4 "v"
  have hfirst : ((readListing source).value.bind List.head?).map
      (fun listed => (listed.kernel, listed.buffers)) = some (kernel, .empty) := by
    decide +kernel
  obtain ⟨kernels, listed, hread, hlisted, hknown⟩ := exists_listed_of_head hfirst
  obtain ⟨hkernel, hbuffers⟩ := Prod.mk.inj hknown
  obtain ⟨hvalues, hcaptures⟩ :=
    names_are_hygienic_iff hread hlisted ⟨⟨4, 4⟩, ⟨1, 1⟩⟩ .standard
  refine ⟨kernels, listed, hread, hlisted, ?_, hvalues.mpr ?_, fun tile htile param hparam => ?_⟩
  · rw [hkernel, hbuffers]
    decide +kernel
  · rw [hkernel]
    decide +kernel
  · refine mt (hcaptures tile htile param hparam).mp ?_
    rw [hkernel] at hparam
    have hnames : param.name ∈ ["img", "x"] := List.mem_map_of_mem hparam
    simp only [List.mem_cons, List.not_mem_nil, or_false] at hnames
    rcases hnames with hname | hname
    · rw [hname]
      simp
    · rw [hname]
      simp

/-- The parameter `i` is the data of a promoted buffer, and the copy loop counts in a variable of
this name. The parameter `v3` is called like the value that is loaded. -/
theorem loop_variable_captures_parameter :
    let source := "kernel k\nparam %i : ptr\nparam %v3 : scalar\n" ++
      "%a = lea %i, %v3, %v3\n%v = load %a\n"
    ∃ kernels listed, (readListing source).value = some kernels ∧ listed ∈ kernels ∧
      let kernel := listed.kernel
      let emission : Emission :=
        ⟨kernel, Analysis.ofKernel kernel, ⟨⟨4, 4⟩, ⟨1, 1⟩⟩, listed.buffers, .standard⟩
      ¬ Set.InjOn kernel.varName {id | kernel.Shows id} ∧
        ∃ tile ∈ emission.tiles, ∃ param ∈ kernel.params,
          (tile.copyLoop ⟨⟨4, 4⟩, ⟨1, 1⟩⟩ .leave).Captures param.name := by
  intro source
  let kernel := ((((((Kernel.empty "k").addParameter "i" (some .pointer) false
    ).addParameter "v3" (some .scalar) false).append (.addressOf 0 [1, 1])).withName 2 "a"
      ).append (.loadOf 2)).withName 3 "v"
  have hfirst : ((readListing source).value.bind List.head?).map
      (fun listed => (listed.kernel, listed.buffers)) = some (kernel, .empty) := by
    decide +kernel
  obtain ⟨kernels, listed, hread, hlisted, hknown⟩ := exists_listed_of_head hfirst
  obtain ⟨hkernel, hbuffers⟩ := Prod.mk.inj hknown
  refine ⟨kernels, listed, hread, hlisted, ?_⟩
  rw [hkernel, hbuffers]
  constructor
  · intro hinj
    have hparam : kernel.Shows 1 := Or.inl (by decide)
    have hresult : kernel.Shows 3 := Or.inr ⟨⟨.loadOf 2, 3⟩, by decide +kernel, rfl, rfl⟩
    have hsame : kernel.varName 1 = kernel.varName 3 := by decide +kernel
    cases hinj hparam hresult hsame
  · refine ⟨Tile.ofKey "i" (ImageBuffer.plain "i" "width" "height"), by decide +kernel,
      ⟨0, "i", some .pointer, false⟩, by decide, ?_⟩
    exact Tile.captures_copyLoop_iff.mpr (Or.inl ⟨by decide, Or.inl (by decide)⟩)

end BufferPromotion
