import BufferPromotion.Proofs.Code.Lines
import BufferPromotion.Tile.Fill

/-! # The code at kernel entry

The lines at kernel entry are those of the arrays, of the copy loops and of the barrier, in this
order (`TileCode.entry_of_accepted`), or only arrays if a tile is refused
(`TileCode.entry_of_refused`). The copy loops of a tile are spelled out line by line in `Tile.nest`,
with all braces that they open and close. Every one of them is closed before the next copy loops or
the barrier comes, so the barrier stands at the depth of the entry, where all threads reach it
(`entry_has_one_barrier`).
-/

set_option autoImplicit false

namespace BufferPromotion

namespace Tile

variable (geometry : TileGeometry) (border : BorderFill) (depth : Nat) (tile : Tile)

/-! ## The lines of a tile -/

/-- The line that declares the array of a tile. -/
def arrayLine : CodeLine :=
  ⟨depth, "__shared__ " ++ tile.buffer.elem.codeName ++ " " ++ tile.name ++ "[" ++
    geometry.extent.y.toNat.repr ++ "][" ++
    ((geometry.rowElements tile.buffer.stride).getD 0).toNat.repr ++ "];"⟩

/-- The element of the buffer that is copied. -/
def sourceText : String :=
  if tile.buffer.stride = 1 then
    tile.buffer.data ++ "[gy * " ++ tile.buffer.width ++ " + gx]"
  else
    tile.buffer.data ++ "[(gy * " ++ tile.buffer.width ++ " + gx) * " ++
      tile.buffer.stride.toNat.repr ++ " + c]"

/-- The lines that write a value to all elements of a cell. -/
def cellLines (value : String) : List CodeLine :=
  let stride := tile.buffer.stride.toNat.repr
  if tile.buffer.stride = 1 then [⟨depth, tile.name ++ "[ly][lx] = " ++ value ++ ";"⟩]
  else [
    ⟨depth, "for (int c = 0; c < " ++ stride ++ "; c++) \x7b"⟩,
    ⟨depth + 1, tile.name ++ "[ly][lx * " ++ stride ++ " + c] = " ++ value ++ ";"⟩,
    ⟨depth, "\x7d"⟩]

/-- The lines for the cells outside of the image. -/
def borderLines : List CodeLine :=
  match border with
  | .leave => []
  | .zero => ⟨depth, "\x7d else \x7b"⟩ :: tile.cellLines (depth + 1) "0"

/-- The lines of the copy loops of a tile. -/
def nest : List CodeLine :=
  let blockX := geometry.block.x.toNat.repr
  let blockY := geometry.block.y.toNat.repr
  let haloX := geometry.halo.x.toNat.repr
  let haloY := geometry.halo.y.toNat.repr
  let extentX := geometry.extent.x.toNat.repr
  let extentY := geometry.extent.y.toNat.repr
  [
    ⟨depth, "for (int j = 0; j < " ++ extentY ++ "; j += " ++ blockY ++ ") \x7b"⟩,
    ⟨depth + 1, "for (int i = 0; i < " ++ extentX ++ "; i += " ++ blockX ++ ") \x7b"⟩,
    ⟨depth + 2, "int lx = threadIdx.x + i;"⟩,
    ⟨depth + 2, "int ly = threadIdx.y + j;"⟩,
    ⟨depth + 2, "int gx = blockIdx.x * " ++ blockX ++ " - " ++ haloX ++ " + lx;"⟩,
    ⟨depth + 2, "int gy = blockIdx.y * " ++ blockY ++ " - " ++ haloY ++ " + ly;"⟩,
    ⟨depth + 2, "if (lx < " ++ extentX ++ " && ly < " ++ extentY ++ ") \x7b"⟩,
    ⟨depth + 3, "if (gx >= 0 && gx < " ++ tile.buffer.width ++ " && gy >= 0 && gy < " ++
      tile.buffer.height ++ ") \x7b"⟩] ++
  (tile.cellLines (depth + 4) tile.sourceText ++ tile.borderLines border (depth + 3)) ++ [
    ⟨depth + 3, "\x7d"⟩,
    ⟨depth + 2, "\x7d"⟩,
    ⟨depth + 1, "\x7d"⟩,
    ⟨depth, "\x7d"⟩]

/-! ## What the statements write -/

theorem lines_declaration? {stmt : Stmt} (h : tile.declaration? geometry = some stmt) :
    stmt.lines depth = [tile.arrayLine geometry depth] := by
  obtain ⟨row, hrow, rfl⟩ := Option.map_eq_some_iff.mp h
  unfold arrayLine
  rw [hrow]
  rfl

theorem text_sourceElement : tile.sourceElement.text = tile.sourceText := by
  unfold sourceElement sourceText sourcePixel elementIndex
  by_cases h : tile.buffer.stride = 1 <;>
    simp [h, Expr.text, Expr.wrap, Expr.level, Expr.atomLevel, BinaryOp.level, BinaryOp.sign,
      Expr.add, Expr.mul, Expr.word, ← String.toList_inj]

theorem lines_fillCell (value : Expr) :
    (tile.fillCell value).lines depth = tile.cellLines depth value.text := by
  unfold fillCell cellLines targetElement elementIndex
  by_cases h : tile.buffer.stride = 1 <;>
    simp [h, LoopStep.text, toString, Expr.text, Expr.wrap, Expr.level, Expr.atomLevel,
      BinaryOp.level, BinaryOp.sign, Expr.add, Expr.mul, Expr.word, ← String.toList_inj]

theorem lines_fillFromImage :
    (tile.fillFromImage border).lines depth =
      ⟨depth, "if (gx >= 0 && gx < " ++ tile.buffer.width ++ " && gy >= 0 && gy < " ++
        tile.buffer.height ++ ") \x7b"⟩ ::
      (tile.cellLines (depth + 1) tile.sourceText ++ tile.borderLines border depth) ++
      [⟨depth, "\x7d"⟩] := by
  have hcondition : "if (" ++ tile.insideImage.text ++ ")" ++ " \x7b" =
      "if (gx >= 0 && gx < " ++ tile.buffer.width ++ " && gy >= 0 && gy < " ++
        tile.buffer.height ++ ") \x7b" := by
    simp [insideImage, Expr.text, Expr.wrap, Expr.level, Expr.atomLevel, BinaryOp.level,
      BinaryOp.sign, Expr.and, Expr.ge, Expr.lt, ← String.toList_inj]
  have hzero : (Expr.number 0).text = "0" := rfl
  cases border with
  | leave =>
      show (Stmt.when _ _).lines depth = _
      rw [Stmt.lines_when, hcondition, lines_fillCell, text_sourceElement]
      simp [borderLines]
  | zero =>
      show (Stmt.choose _ _ _).lines depth = _
      rw [Stmt.lines_choose, hcondition, lines_fillCell, lines_fillCell, text_sourceElement, hzero]
      simp [borderLines]

theorem lines_copyLoop :
    (tile.copyLoop geometry border).lines depth = tile.nest geometry border depth := by
  unfold copyLoop nest
  simp [lines_fillFromImage, insideTile, globalCoordinate, LoopStep.text, toString, Expr.text,
    Expr.wrap, Expr.level, Expr.atomLevel, BinaryOp.level, BinaryOp.sign, Expr.and, Expr.lt,
    Expr.add, Expr.sub, Expr.mul, Expr.word, ← String.toList_inj]

end Tile

/-! ## Only one line is a barrier -/

/-- Whether a statement calls no function for its effect. -/
def Stmt.callFree : Stmt → Bool
  | skip | declare .. | assign .. | sharedArray .. => true
  | effect _ => false
  | seq first second => first.callFree && second.callFree
  | loop _ _ _ body | .when _ body => body.callFree
  | choose _ body otherwise => body.callFree && otherwise.callFree

/-- The line of a barrier. -/
def barrierLine (depth : Nat) : CodeLine := ⟨depth, "__syncthreads();"⟩

theorem lines_barrier (depth : Nat) : Tile.barrier.lines depth = [barrierLine depth] := by
  simp [Tile.barrier, barrierLine, Expr.text]

/-- Whether a line is a barrier. -/
def CodeLine.isBarrier (line : CodeLine) : Bool := line.text == "__syncthreads();"

/-- No line with an assignment, an index or a brace is a barrier. -/
theorem isBarrier_eq_false {depth : Nat} {text : String}
    (h : ∃ c ∈ ['=', '[', '\x7b', '\x7d'], c ∈ text.toList) :
    (CodeLine.mk depth text).isBarrier = false := by
  obtain ⟨c, hc, hmem⟩ := h
  have hnone : ∀ c ∈ ['=', '[', '\x7b', '\x7d'], c ∉ "__syncthreads();".toList := by simp
  refine beq_eq_false_iff_ne.mpr ?_
  rintro rfl
  exact hnone c hc hmem

/-- A statement that calls no function writes no barrier. -/
theorem Stmt.isBarrier_of_callFree {stmt : Stmt} (h : stmt.callFree = true) {depth : Nat} :
    ∀ line ∈ stmt.lines depth, line.isBarrier = false := by
  induction stmt generalizing depth with
  | skip => nofun
  | seq first second hfirst hsecond =>
      obtain ⟨hone, htwo⟩ := Bool.and_eq_true_iff.mp h
      rw [lines_seq]
      exact List.forall_mem_append.mpr ⟨hfirst hone, hsecond htwo⟩
  | declare | assign | sharedArray =>
      simp only [lines_declare, lines_assign, lines_sharedArray, List.forall_mem_singleton]
      exact isBarrier_eq_false (by simp)
  | effect expr => cases h
  | loop var bound step body hbody | «when» condition body hbody =>
      simp only [lines_loop, lines_when, List.forall_mem_cons, List.forall_mem_append]
      exact ⟨isBarrier_eq_false (by simp), hbody h, isBarrier_eq_false (by simp), nofun⟩
  | choose condition body otherwise hbody hotherwise =>
      obtain ⟨hone, htwo⟩ := Bool.and_eq_true_iff.mp h
      simp only [lines_choose, List.forall_mem_cons, List.forall_mem_append]
      exact ⟨isBarrier_eq_false (by simp), hbody hone, isBarrier_eq_false (by simp),
        hotherwise htwo, isBarrier_eq_false (by simp), nofun⟩

theorem Tile.callFree_copyLoop (geometry : TileGeometry) (border : BorderFill) (tile : Tile) :
    (tile.copyLoop geometry border).callFree = true := by
  have hcell : ∀ value, (tile.fillCell value).callFree = true := by
    intro value
    unfold fillCell
    dsimp only
    split <;> rfl
  cases border with
  | leave => simp [copyLoop, fillFromImage, Stmt.all, Stmt.callFree, hcell]
  | zero => simp [copyLoop, fillFromImage, Stmt.all, Stmt.callFree, hcell]

namespace TileCode

variable {geometry : TileGeometry} {border : BorderFill} {writer : LineWriter}
  {tiles before after : List Tile} {tile : Tile}

/-! ## What is written at entry -/

/-- The lines at kernel entry, if no tile is refused. -/
def entryLines (geometry : TileGeometry) (border : BorderFill) (depth : Nat) (tiles : List Tile) :
    List CodeLine :=
  if tiles.isEmpty then []
  else tiles.map (·.arrayLine geometry depth) ++ tiles.flatMap (·.nest geometry border depth) ++
    [barrierLine depth]

/-- Accepted tiles are declared one after the other. -/
theorem declarations_append
    (h : ∀ tile ∈ before, ∃ row, geometry.rowElements tile.buffer.stride = some row) :
    declarations geometry writer (before ++ after) =
      declarations geometry (writer.append (before.map (·.arrayLine geometry writer.depth)))
        after := by
  induction before generalizing writer with
  | nil => rw [List.map_nil, LineWriter.append_nil, List.nil_append]
  | cons tile rest ih =>
      rw [List.forall_mem_cons] at h
      obtain ⟨row, hrow⟩ := h.1
      have hdeclared : ∃ stmt, tile.declaration? geometry = some stmt :=
        ⟨_, Option.map_eq_some_iff.mpr ⟨row, hrow, rfl⟩⟩
      obtain ⟨stmt, hstmt⟩ := hdeclared
      rw [List.cons_append, declarations, hstmt]
      dsimp only
      rw [stmt.write_eq, Tile.lines_declaration? geometry _ tile hstmt, ih h.2,
        LineWriter.append_append]
      rfl

theorem copyLoops_eq : copyLoops geometry border writer tiles =
    writer.append (tiles.flatMap (·.nest geometry border writer.depth)) := by
  unfold copyLoops
  rw [Stmt.foldl_write]
  simp only [Tile.lines_copyLoop]

theorem entry_of_accepted
    (h : ∀ tile ∈ tiles, ∃ row, geometry.rowElements tile.buffer.stride = some row) :
    entry geometry border writer tiles =
      ⟨writer.append (entryLines geometry border writer.depth tiles), none⟩ := by
  have hdeclared : declarations geometry writer tiles =
      ⟨writer.append (tiles.map (·.arrayLine geometry writer.depth)), none⟩ := by
    rw [← List.append_nil tiles, declarations_append h, List.append_nil]
    rfl
  unfold entry entryLines
  split
  · rw [LineWriter.append_nil]
  · rw [hdeclared]
    dsimp only
    rw [copyLoops_eq, Stmt.write_eq, lines_barrier, LineWriter.append_append,
      LineWriter.append_append, ← List.append_assoc]
    rfl

theorem entry_of_refused
    (h : ∀ tile ∈ before, ∃ row, geometry.rowElements tile.buffer.stride = some row)
    (htile : geometry.rowElements tile.buffer.stride = none) :
    entry geometry border writer (before ++ tile :: after) =
      ⟨writer.append (before.map (·.arrayLine geometry writer.depth)), some tile⟩ := by
  have hdeclared : declarations geometry writer (before ++ tile :: after) =
      ⟨writer.append (before.map (·.arrayLine geometry writer.depth)), some tile⟩ := by
    rw [declarations_append h, declarations]
    unfold Tile.declaration?
    rw [htile]
    rfl
  have hne : (before ++ tile :: after).isEmpty = false := by simp
  unfold entry
  rw [hne, hdeclared]
  rfl

/-- Either all tiles are accepted, or there is a first one that is refused. -/
theorem accepted_or_refused (geometry : TileGeometry) (tiles : List Tile) :
    (∀ tile ∈ tiles, ∃ row, geometry.rowElements tile.buffer.stride = some row) ∨
      ∃ before tile after, tiles = before ++ tile :: after ∧
        (∀ earlier ∈ before, ∃ row, geometry.rowElements earlier.buffer.stride = some row) ∧
        geometry.rowElements tile.buffer.stride = none := by
  cases hfind : tiles.find? fun tile => (geometry.rowElements tile.buffer.stride).isNone with
  | none =>
      left
      simpa [Option.ne_none_iff_exists'] using hfind
  | some tile =>
      obtain ⟨htile, before, after, rfl, hbefore⟩ := List.find?_eq_some_iff_append.mp hfind
      right
      refine ⟨before, tile, after, rfl, ?_, Option.isNone_iff_eq_none.mp htile⟩
      simpa [Option.isSome_iff_exists] using hbefore

/-- Whatever is written at entry, all braces are closed again. -/
theorem depth_entry : (entry geometry border writer tiles).writer.depth = writer.depth := by
  rcases accepted_or_refused geometry tiles with haccepted | ⟨before, tile, after, rfl, hbefore, htile⟩
  · rw [entry_of_accepted haccepted]
    rfl
  · rw [entry_of_refused hbefore htile]
    rfl

theorem braced_arrays (depth : Nat) (tiles : List Tile) :
    Braced depth (tiles.map (·.arrayLine geometry depth)) := by
  rw [List.map_eq_flatMap]
  exact .flatMap fun tile _ => Stmt.braced_lines (.sharedArray tile.buffer.elem.codeName tile.name
    geometry.extent.y.toNat ((geometry.rowElements tile.buffer.stride).getD 0).toNat) depth

theorem braced_nests (depth : Nat) (tiles : List Tile) :
    Braced depth (tiles.flatMap (·.nest geometry border depth)) := by
  refine .flatMap fun tile _ => ?_
  rw [← Tile.lines_copyLoop]
  exact Stmt.braced_lines _ depth

theorem braced_entryLines (depth : Nat) (tiles : List Tile) :
    Braced depth (entryLines geometry border depth tiles) := by
  unfold entryLines
  split
  · exact .nil
  · exact ((braced_arrays depth tiles).append (braced_nests depth tiles)).append
      (.plain (by decide) .nil)

/-- The last line at entry is the only barrier. -/
theorem filter_isBarrier_entryLines (depth : Nat) (hne : tiles ≠ []) :
    (entryLines geometry border depth tiles).filter CodeLine.isBarrier = [barrierLine depth] := by
  have harrays : (tiles.map (·.arrayLine geometry depth)).filter CodeLine.isBarrier = [] := by
    refine List.filter_eq_nil_iff.mpr fun line hline => ?_
    obtain ⟨tile, -, rfl⟩ := List.mem_map.mp hline
    rw [Tile.arrayLine, isBarrier_eq_false (by simp)]
    exact Bool.false_ne_true
  have hnests : (tiles.flatMap (·.nest geometry border depth)).filter CodeLine.isBarrier = [] := by
    refine List.filter_eq_nil_iff.mpr fun line hline => ?_
    obtain ⟨tile, -, hline⟩ := List.mem_flatMap.mp hline
    rw [← Tile.lines_copyLoop] at hline
    rw [Stmt.isBarrier_of_callFree (tile.callFree_copyLoop geometry border) line hline]
    exact Bool.false_ne_true
  unfold entryLines
  rw [List.isEmpty_eq_false_iff.mpr hne, if_neg Bool.false_ne_true, List.filter_append,
    List.filter_append, harrays, hnests]
  rfl

end TileCode

/-- **The code at entry has one barrier, after all copies, which all threads reach.** Nothing is
written for no tiles. If all tiles are accepted, then the arrays of all tiles are declared, their
copy loops follow, and then comes the only barrier; everything before it is well nested at the
depth of the writer, so the barrier is inside no loop and no condition. If a tile is refused, then
nothing is written but the arrays of the tiles before it. The writer is left at its depth. -/
theorem entry_has_one_barrier (geometry : TileGeometry) (border : BorderFill)
    (writer : LineWriter) :
    let depth := writer.depth
    let arrays : List Tile → List CodeLine := List.map (·.arrayLine geometry depth)
    let nests : List Tile → List CodeLine := List.flatMap (·.nest geometry border depth)
    TileCode.entry geometry border writer [] = ⟨writer, none⟩ ∧
    (∀ tiles, tiles ≠ [] →
      (∀ tile ∈ tiles, ∃ row, geometry.rowElements tile.buffer.stride = some row) →
        TileCode.entry geometry border writer tiles =
          ⟨writer.append (arrays tiles ++ nests tiles ++ [barrierLine depth]), none⟩ ∧
        (arrays tiles ++ nests tiles ++ [barrierLine depth]).filter CodeLine.isBarrier =
          [barrierLine depth] ∧
        Braced depth (arrays tiles) ∧ Braced depth (nests tiles)) ∧
    (∀ tile : Tile, ∃ body,
      tile.nest geometry border depth =
        ⟨depth, "for (int j = 0; j < " ++ geometry.extent.y.toNat.repr ++ "; j += " ++
          geometry.block.y.toNat.repr ++ ") \x7b"⟩ :: (body ++ [⟨depth, "\x7d"⟩]) ∧
      Braced (depth + 1) body) ∧
    (∀ before tile after,
      (∀ earlier ∈ before, ∃ row, geometry.rowElements earlier.buffer.stride = some row) →
      geometry.rowElements tile.buffer.stride = none →
        TileCode.entry geometry border writer (before ++ tile :: after) =
          ⟨writer.append (arrays before), some tile⟩) ∧
    ∀ tiles, (TileCode.entry geometry border writer tiles).writer.depth = depth := by
  intro depth arrays nests
  refine ⟨rfl, fun tiles hne haccepted => ?_, fun tile => ?_, fun before tile after hbefore htile =>
    TileCode.entry_of_refused hbefore htile, fun tiles => TileCode.depth_entry⟩
  · have hlines : TileCode.entryLines geometry border depth tiles =
        arrays tiles ++ nests tiles ++ [barrierLine depth] := by
      unfold TileCode.entryLines
      rw [List.isEmpty_eq_false_iff.mpr hne, if_neg Bool.false_ne_true]
    rw [← hlines]
    exact ⟨TileCode.entry_of_accepted haccepted, TileCode.filter_isBarrier_entryLines depth hne,
      TileCode.braced_arrays depth tiles, TileCode.braced_nests depth tiles⟩
  · obtain ⟨inner, hloop⟩ : ∃ inner, tile.copyLoop geometry border =
        .loop "j" geometry.extent.y.toNat (.byMany geometry.block.y.toNat) inner := ⟨_, rfl⟩
    have hnest := tile.lines_copyLoop geometry border depth
    rw [hloop, Stmt.lines_loop] at hnest
    -- both ways to write the loops start with the same line
    obtain ⟨hheader, -⟩ := List.cons.inj hnest
    refine ⟨inner.lines (depth + 1), ?_, inner.braced_lines _⟩
    rw [← hnest, hheader]

/-- A tile with one element per pixel, alone, and before one whose rows no array can hold. -/
theorem refused_tile_keeps_first_array :
    let geometry : TileGeometry := ⟨⟨4, 4⟩, ⟨1, 1⟩⟩
    let small : Tile := .ofKey "p" ⟨.f32, "p", "width", "height", 1⟩
    let large : Tile := .ofKey "q" ⟨.f32, "q", "width", "height", 2147483648⟩
    let writer : LineWriter := ⟨#[], 1⟩
    let array : CodeLine := ⟨1, "__shared__ float tile_p[6][6];"⟩
    (∃ row, geometry.rowElements small.buffer.stride = some row) ∧
      geometry.rowElements large.buffer.stride = none ∧
      TileCode.entry geometry .zero writer [small, large] = ⟨writer.append [array], some large⟩ ∧
      ∃ loops, Braced 1 loops ∧
        TileCode.entry geometry .zero writer [small] =
          ⟨writer.append (array :: (loops ++ [barrierLine 1])), none⟩ := by
  intro geometry small large writer array
  have hsmall : ∃ row, geometry.rowElements small.buffer.stride = some row := ⟨6, rfl⟩
  have hlarge : geometry.rowElements large.buffer.stride = none := by decide
  have hall : ∀ tile ∈ [small], ∃ row, geometry.rowElements tile.buffer.stride = some row :=
    List.forall_mem_singleton.mpr hsmall
  have harray : small.arrayLine geometry 1 = array := by decide
  obtain ⟨-, haccepted, -, hrefused, -⟩ := entry_has_one_barrier geometry .zero writer
  obtain ⟨hentry, -, -, hnested⟩ := haccepted [small] (List.cons_ne_nil _ _) hall
  have hboth := hrefused [small] large [] hall hlarge
  rw [List.map_singleton, harray] at hentry hboth
  exact ⟨hsmall, hlarge, hboth, _, hnested, hentry⟩

end BufferPromotion
