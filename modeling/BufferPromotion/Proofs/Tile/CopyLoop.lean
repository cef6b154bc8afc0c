import BufferPromotion.Proofs.Code.Meaning
import BufferPromotion.Tile.Fill
import Mathlib.Data.List.Flatten
import Mathlib.Data.List.ProdSigma

/-! # Runs of the copy loops

The copy loops of a tile run once for every thread of a block. This file works out what such a
run does, without looking at the order in which the threads come: which cells are visited
(`visitedCells`), and what is written when a cell is visited (`cellWrites`). A thread visits the
cells at its own position and at every block size further on. So a cell determines the thread
that visits it, by the remainder of its coordinates, and every cell is visited once.
-/

set_option autoImplicit false

namespace BufferPromotion

/-! ## Threads of a block -/

/-- The positions of the threads of a block. -/
def TileGeometry.threads (geometry : TileGeometry) : List (Nat × Nat) :=
  List.range geometry.block.x.toNat ×ˢ List.range geometry.block.y.toNat

/-- The scope in which a thread of a block starts. `outer` gives all other variables their
values. -/
def threadScope (outer : Scope) (origin : Int × Int) (thread : Nat × Nat) : Scope :=
  (((outer.set "blockIdx.x" origin.1).set "blockIdx.y" origin.2).set
    "threadIdx.x" thread.1).set "threadIdx.y" thread.2

/-- The steps of all threads of a block that run a statement, one thread after the other. -/
def blockSteps (texts outer : Scope) (geometry : TileGeometry) (origin : Int × Int) (stmt : Stmt) :
    List Step :=
  geometry.threads.flatMap fun thread => stmt.steps texts (threadScope outer origin thread)

namespace Tile

/-- The cell that a step visits. A cell is visited where the statement that fills it is reached,
with the coordinates of the cell in `lx` and `ly`. -/
def visit? (border : BorderFill) (tile : Tile) (step : Step) : Option (Int × Int) :=
  if step.stmt = tile.fillFromImage border then some (step.scope "lx", step.scope "ly") else none

/-- The first coordinate of the image pixel of a cell: `origin * block - halo + cell`. -/
def pixelOf (origin : Int) (block halo : UInt32) (cell : Int) : Int :=
  origin * block.toNat - halo.toNat + cell

/-- The content that the element `c` of a cell gets from the pixel of the cell, `none` if it is
not written. -/
def content? (texts : Scope) (border : BorderFill) (tile : Tile) (gx gy : Int) (c : Nat) :
    Option Content :=
  let width := texts tile.buffer.width
  let height := texts tile.buffer.height
  if 0 ≤ gx ∧ gx < width ∧ 0 ≤ gy ∧ gy < height then
    some (.fetched tile.buffer.data ((gy * width + gx) * tile.buffer.stride.toNat + c))
  else if border = .zero then some (.number 0) else none

/-- The writes to the elements of a cell. -/
def cellWrites (texts : Scope) (border : BorderFill) (tile : Tile) (lx ly gx gy : Int) :
    List ElementWrite :=
  (List.range tile.buffer.stride.toNat).flatMap fun c =>
    (tile.content? texts border gx gy c).toList.map fun content =>
      ⟨tile.name, ly, lx * tile.buffer.stride.toNat + c, content⟩

/-! ## Filling one cell -/

section Cell

variable (texts : Scope) {scope : Scope} (tile : Tile) {lx ly gx gy : Int}

/-- The scope in which the element `c` of a cell is written: there is a loop over the elements
only if there are several. -/
def elementScope (scope : Scope) (stride : UInt32) (c : Nat) : Scope :=
  if stride == 1 then scope else scope.set "c" c

theorem elementScope_of_ne {name : String} (h : name ≠ "c") (stride : UInt32) (c : Nat) :
    elementScope scope stride c name = scope name := by
  unfold elementScope
  split
  · rfl
  · exact scope.set_of_ne _ h

theorem value?_elementIndex {pixel : Expr} {stride : UInt32} {p : Int} {c : Nat}
    (hc : c < stride.toNat)
    (hp : pixel.value? texts (elementScope scope stride c) = some p) :
    (elementIndex pixel stride).value? texts (elementScope scope stride c) =
      some (p * stride.toNat + c) := by
  unfold elementIndex
  -- with one element per pixel, neither the product nor the element is written
  by_cases h : stride = 1
  · subst h
    have hc0 : c = 0 := by simpa using hc
    subst hc0
    simpa using hp
  · have hne : (stride == 1) = false := by simpa using h
    rw [hne, if_neg (by simp)]
    refine Expr.value?_add (Expr.value?_mul hp rfl) ?_
    simp [elementScope, hne, Expr.value?, Scope.set_self]

/-- A run that fills a cell writes each of its elements once. -/
theorem writesOf_fillCell (hlx : scope "lx" = lx) (hly : scope "ly" = ly) {value : Expr}
    {content : Nat → Content}
    (hvalue : ∀ c < tile.buffer.stride.toNat,
      value.content? texts (elementScope scope tile.buffer.stride c) = some (content c)) :
    writesOf texts ((tile.fillCell value).steps texts scope) =
      (List.range tile.buffer.stride.toNat).map fun c =>
        ⟨tile.name, ly, lx * tile.buffer.stride.toNat + c, content c⟩ := by
  have hassign : ∀ c < tile.buffer.stride.toNat,
      Step.write? texts
        ⟨.assign tile.targetElement value, elementScope scope tile.buffer.stride c⟩ =
        some ⟨tile.name, ly, lx * tile.buffer.stride.toNat + c, content c⟩ := by
    intro c hc
    have hrow : (Expr.var "ly").value? texts (elementScope scope tile.buffer.stride c) =
        some ly := by
      simp [Expr.value?, elementScope_of_ne, hly]
    have hcolumn : (elementIndex (.var "lx") tile.buffer.stride).value? texts
        (elementScope scope tile.buffer.stride c) =
        some (lx * tile.buffer.stride.toNat + c) :=
      value?_elementIndex texts hc (by simp [Expr.value?, elementScope_of_ne, hlx])
    simp [Step.write?, targetElement, hrow, hcolumn, hvalue c hc]
  unfold fillCell
  by_cases h : tile.buffer.stride = 1
  · -- a single assignment, and no loop around it
    have hone := hassign 0 (by simp [h])
    simp only [h, elementScope, beq_self_eq_true, if_true] at hone
    simp only [h, beq_self_eq_true, if_true, writesOf, Stmt.steps, List.filterMap_cons, hone]
    rfl
  · have hne : (tile.buffer.stride == 1) = false := by simpa using h
    simp only [hne, Bool.false_eq_true, if_false, writesOf, Stmt.steps, LoopStep.values_byOne]
    rw [List.filterMap_cons_none rfl, List.filterMap_flatMap]
    rw [List.map_eq_flatMap]
    refine List.flatMap_congr fun c hc => ?_
    have hstep := hassign c (List.mem_range.mp hc)
    simp only [elementScope, hne, Bool.false_eq_true, if_false] at hstep
    simp [hstep]

/-- The elements of a pixel of the image are read in order. -/
theorem content?_sourceElement (hgx : scope "gx" = gx) (hgy : scope "gy" = gy) :
    ∀ c < tile.buffer.stride.toNat,
      tile.sourceElement.content? texts (elementScope scope tile.buffer.stride c) =
        some (.fetched tile.buffer.data
          ((gy * texts tile.buffer.width + gx) * tile.buffer.stride.toNat + c)) := by
  intro c hc
  have hpixel : tile.sourcePixel.value? texts (elementScope scope tile.buffer.stride c) =
      some (gy * texts tile.buffer.width + gx) := by
    refine Expr.value?_add (Expr.value?_mul ?_ rfl) ?_
    · simp [Expr.value?, elementScope_of_ne, hgy]
    · simp [Expr.value?, elementScope_of_ne, hgx]
  simp [sourceElement, Expr.content?, value?_elementIndex texts hc hpixel]

theorem holds_insideImage (hgx : scope "gx" = gx) (hgy : scope "gy" = gy) :
    tile.insideImage.holds texts scope = true ↔
      0 ≤ gx ∧ gx < texts tile.buffer.width ∧ 0 ≤ gy ∧ gy < texts tile.buffer.height := by
  have hx : (Expr.var "gx").value? texts scope = some gx := congrArg some hgx
  have hy : (Expr.var "gy").value? texts scope = some gy := congrArg some hgy
  rw [insideImage, Expr.holds_and, Expr.holds_and, Expr.holds_and, Expr.holds_ge hx rfl,
    Expr.holds_lt hx rfl, Expr.holds_ge hy rfl, Expr.holds_lt hy rfl]
  simp only [Int.natCast_zero, and_assoc]

/-- What is written when a cell is visited depends on nothing but the cell and its pixel. -/
theorem writesOf_fillFromImage (border : BorderFill) (hlx : scope "lx" = lx)
    (hly : scope "ly" = ly) (hgx : scope "gx" = gx) (hgy : scope "gy" = gy) :
    writesOf texts ((tile.fillFromImage border).steps texts scope) =
      tile.cellWrites texts border lx ly gx gy := by
  have hinside := holds_insideImage texts tile hgx hgy
  have himage := writesOf_fillCell texts tile hlx hly (content?_sourceElement texts tile hgx hgy)
  have hzero := @writesOf_fillCell texts _ tile _ _ hlx hly (.number 0) (fun _ => .number 0)
    (fun _ _ => rfl)
  unfold writesOf at himage hzero
  -- both kinds of border copy from the image, and differ where there is no pixel
  cases border with
  | leave =>
      by_cases h : tile.insideImage.holds texts scope = true
      · simp only [fillFromImage, writesOf, Stmt.steps, h, if_true]
        rw [List.filterMap_cons_none rfl, himage]
        simp [cellWrites, content?, hinside.mp h, List.map_eq_flatMap]
      · simp only [fillFromImage, writesOf, Stmt.steps, h]
        rw [List.filterMap_cons_none rfl]
        simp [cellWrites, content?, mt hinside.mpr h]
  | zero =>
      by_cases h : tile.insideImage.holds texts scope = true
      · simp only [fillFromImage, writesOf, Stmt.steps, h, if_true]
        rw [List.filterMap_cons_none rfl, himage]
        simp [cellWrites, content?, hinside.mp h, List.map_eq_flatMap]
      · simp only [fillFromImage, writesOf, Stmt.steps, h]
        rw [List.filterMap_cons_none rfl]
        simp only [Bool.false_eq_true, if_false, hzero]
        simp [cellWrites, content?, mt hinside.mpr h, List.map_eq_flatMap]

end Cell

/-! ## Visiting the cells

The steps around the filling of a cell open loops, declare variables and test whether the cell
lies in the tile. Whatever is read off a run and passes over these steps is read off the cells
that are visited. -/

/-- The cells that the threads of a block visit: for every thread and every round of its two
loops the cell at hand, if it lies inside the tile. -/
def visitedCells (geometry : TileGeometry) : List (Nat × Nat) :=
  geometry.threads.flatMap fun thread =>
    ((LoopStep.byMany geometry.block.y.toNat).values geometry.extent.y.toNat).flatMap fun j =>
      ((LoopStep.byMany geometry.block.x.toNat).values geometry.extent.x.toNat).flatMap fun i =>
        if thread.1 + i < geometry.extent.x.toNat ∧ thread.2 + j < geometry.extent.y.toNat then
          [(thread.1 + i, thread.2 + j)]
        else []

/-- The scope of a round of the loops, when all of its variables are declared. -/
def roundScope (outer : Scope) (geometry : TileGeometry) (origin : Int × Int) (thread : Nat × Nat)
    (j i : Nat) : Scope :=
  let lx : Int := thread.1 + i
  let ly : Int := thread.2 + j
  ((((((threadScope outer origin thread).set "j" j).set "i" i).set "lx" lx).set "ly" ly).set
    "gx" (pixelOf origin.1 geometry.block.x geometry.halo.x lx)).set
    "gy" (pixelOf origin.2 geometry.block.y geometry.halo.y ly)

/-- The declarations at the start of a round give every variable its value. -/
theorem scopeAfter_declarations (texts outer : Scope) (geometry : TileGeometry)
    (origin : Int × Int) (thread : Nat × Nat) (j i : Nat) :
    let block := geometry.block
    let halo := geometry.halo
    (Stmt.declare "int" "gy" (globalCoordinate "blockIdx.y" block.y halo.y "ly")).scopeAfter texts
      ((Stmt.declare "int" "gx" (globalCoordinate "blockIdx.x" block.x halo.x "lx")).scopeAfter
        texts ((Stmt.declare "int" "ly" ((Expr.var "threadIdx.y").add (.var "j"))).scopeAfter texts
          ((Stmt.declare "int" "lx" ((Expr.var "threadIdx.x").add (.var "i"))).scopeAfter texts
            (((threadScope outer origin thread).set "j" j).set "i" i)))) =
      roundScope outer geometry origin thread j i := by
  simp [Stmt.scopeAfter, globalCoordinate, Expr.add, Expr.sub, Expr.mul, Expr.word, Expr.value?,
    BinaryOp.apply, roundScope, threadScope, pixelOf, Scope.set]

theorem holds_insideTile (texts : Scope) {scope : Scope} (geometry : TileGeometry) {lx ly : Nat}
    (hlx : scope "lx" = lx) (hly : scope "ly" = ly) :
    (insideTile geometry).holds texts scope = true ↔
      lx < geometry.extent.x.toNat ∧ ly < geometry.extent.y.toNat := by
  have hx : (Expr.var "lx").value? texts scope = some (lx : Int) := congrArg some hlx
  have hy : (Expr.var "ly").value? texts scope = some (ly : Int) := congrArg some hly
  rw [insideTile, Expr.holds_and, Expr.holds_lt hx rfl, Expr.holds_lt hy rfl, Int.ofNat_lt,
    Int.ofNat_lt]

/-- What is read off the run of a block is read off the filling of the visited cells. -/
theorem filterMap_blockSteps {β : Type} (texts outer : Scope) (geometry : TileGeometry)
    (border : BorderFill) (tile : Tile) (origin : Int × Int) (read : Step → Option β)
    (hloop : ∀ var bound step body scope, read ⟨.loop var bound step body, scope⟩ = none)
    (hdeclare : ∀ type name value scope, read ⟨.declare type name value, scope⟩ = none)
    (hinside : ∀ body scope, read ⟨.when (insideTile geometry) body, scope⟩ = none)
    (filled : Nat × Nat → List β)
    (hfill : ∀ (scope : Scope) (cell : Nat × Nat), scope "lx" = cell.1 → scope "ly" = cell.2 →
      scope "gx" = pixelOf origin.1 geometry.block.x geometry.halo.x cell.1 →
      scope "gy" = pixelOf origin.2 geometry.block.y geometry.halo.y cell.2 →
      ((tile.fillFromImage border).steps texts scope).filterMap read = filled cell) :
    (blockSteps texts outer geometry origin (tile.copyLoop geometry border)).filterMap read =
      (visitedCells geometry).flatMap filled := by
  -- threads, rows and columns are peeled off one after the other, on both sides
  unfold blockSteps visitedCells copyLoop
  rw [List.filterMap_flatMap, List.flatMap_assoc]
  refine List.flatMap_congr fun thread _ => ?_
  simp only [Stmt.steps]
  rw [List.filterMap_cons_none (hloop _ _ _ _ _), List.filterMap_flatMap, List.flatMap_assoc]
  refine List.flatMap_congr fun j _ => ?_
  rw [List.filterMap_cons_none (hloop _ _ _ _ _), List.filterMap_flatMap, List.flatMap_assoc]
  refine List.flatMap_congr fun i _ => ?_
  simp only [Stmt.all, List.foldr, Stmt.steps, List.append_nil, List.singleton_append]
  rw [List.filterMap_cons_none (hdeclare _ _ _ _), List.filterMap_cons_none (hdeclare _ _ _ _),
    List.filterMap_cons_none (hdeclare _ _ _ _), List.filterMap_cons_none (hdeclare _ _ _ _),
    List.filterMap_cons_none (hinside _ _), scopeAfter_declarations]
  have hlx : roundScope outer geometry origin thread j i "lx" = (thread.1 + i : Nat) := by
    simp [roundScope, Scope.set]
  have hly : roundScope outer geometry origin thread j i "ly" = (thread.2 + j : Nat) := by
    simp [roundScope, Scope.set]
  have htile := holds_insideTile texts geometry hlx hly
  split
  · next h =>
    rw [if_pos (htile.mp h), List.flatMap_singleton]
    exact hfill _ (thread.1 + i, thread.2 + j) hlx hly (by simp [roundScope, Scope.set])
      (by simp [roundScope, Scope.set])
  · next h =>
    rw [if_neg (mt htile.mpr h)]
    rfl

/-- The visits of a block are the visited cells. -/
theorem visits_blockSteps (texts outer : Scope) (geometry : TileGeometry) (border : BorderFill)
    (tile : Tile) (origin : Int × Int) :
    (blockSteps texts outer geometry origin (tile.copyLoop geometry border)).filterMap
        (tile.visit? border) =
      (visitedCells geometry).map fun cell => ((cell.1 : Int), (cell.2 : Int)) := by
  rw [List.map_eq_flatMap]
  refine filterMap_blockSteps texts outer geometry border tile origin _ ?_ ?_ ?_ _ ?_
  · intro var bound step body scope
    cases border <;> simp [visit?, fillFromImage]
  · intro type name value scope
    cases border <;> simp [visit?, fillFromImage]
  · intro body scope
    cases border <;> simp [visit?, fillFromImage, insideTile, insideImage, Expr.and, Expr.lt]
  · intro scope cell hlx hly _ _
    -- the visit is the first step of the filling, and the assignments are no further visits
    have hrest : ∀ value, ((tile.fillCell value).steps texts scope).filterMap (tile.visit? border) =
        [] := by
      intro value
      simp only [fillCell]
      cases border <;> split <;>
        simp [Stmt.steps, visit?, fillFromImage, List.filterMap_flatMap]
    cases border with
    | leave =>
        simp only [fillFromImage, Stmt.steps]
        rw [List.filterMap_cons_some (b := ((cell.1 : Int), (cell.2 : Int)))
          (by simp [visit?, fillFromImage, hlx, hly])]
        split
        · rw [hrest]
        · rfl
    | zero =>
        simp only [fillFromImage, Stmt.steps]
        rw [List.filterMap_cons_some (b := ((cell.1 : Int), (cell.2 : Int)))
          (by simp [visit?, fillFromImage, hlx, hly])]
        split
        · rw [hrest]
        · rw [hrest]

/-- The writes of a block are those of the visited cells. -/
theorem writesOf_blockSteps (texts outer : Scope) (geometry : TileGeometry) (border : BorderFill)
    (tile : Tile) (origin : Int × Int) :
    writesOf texts (blockSteps texts outer geometry origin (tile.copyLoop geometry border)) =
      (visitedCells geometry).flatMap fun cell =>
        tile.cellWrites texts border cell.1 cell.2
          (pixelOf origin.1 geometry.block.x geometry.halo.x cell.1)
          (pixelOf origin.2 geometry.block.y geometry.halo.y cell.2) := by
  refine filterMap_blockSteps texts outer geometry border tile origin _ ?_ ?_ ?_ _ ?_
  · intro var bound step body scope
    rfl
  · intro type name value scope
    rfl
  · intro body scope
    rfl
  · intro scope cell hlx hly hgx hgy
    exact writesOf_fillFromImage texts tile border hlx hly hgx hgy

/-! ## Every cell is visited once -/

/-- A coordinate determines the thread that reaches it, as its remainder by the block size, and
so the round in which it does. -/
theorem mod_thread_add_round {block thread round : Nat} (hthread : thread < block)
    (hround : block ∣ round) : (thread + round) % block = thread := by
  obtain ⟨k, rfl⟩ := hround
  rw [Nat.add_mul_mod_self_left, Nat.mod_eq_of_lt hthread]

theorem mem_visitedCells {geometry : TileGeometry} (hx : 0 < geometry.block.x.toNat)
    (hy : 0 < geometry.block.y.toNat) {lx ly : Nat} :
    (lx, ly) ∈ visitedCells geometry ↔
      lx < geometry.extent.x.toNat ∧ ly < geometry.extent.y.toNat := by
  simp only [visitedCells, List.mem_flatMap]
  constructor
  · rintro ⟨thread, -, j, -, i, -, hcell⟩
    split at hcell
    · next h =>
      cases List.mem_singleton.mp hcell
      exact h
    · cases hcell
  · -- the thread is the remainder of the cell, the rounds are what is left
    rintro ⟨hlx, hly⟩
    have hthread :
        (lx % geometry.block.x.toNat, ly % geometry.block.y.toNat) ∈ geometry.threads := by
      simp [TileGeometry.threads, Nat.mod_lt _ hx, Nat.mod_lt _ hy]
    refine ⟨_, hthread, geometry.block.y.toNat * (ly / geometry.block.y.toNat), ?_,
      geometry.block.x.toNat * (lx / geometry.block.x.toNat), ?_, ?_⟩
    · refine (LoopStep.mem_values_byMany hy).mpr ⟨?_, Nat.dvd_mul_right _ _⟩
      exact Nat.lt_of_le_of_lt (Nat.mul_div_le _ _) hly
    · refine (LoopStep.mem_values_byMany hx).mpr ⟨?_, Nat.dvd_mul_right _ _⟩
      exact Nat.lt_of_le_of_lt (Nat.mul_div_le _ _) hlx
    · simp only [Nat.mod_add_div]
      rw [if_pos ⟨hlx, hly⟩]
      exact List.mem_singleton_self _

/-- Pieces of a list that a key tells apart have no element in common. -/
theorem nodup_flatMap_of_key {α β : Type} {xs : List α} {f : α → List β} (key : β → α)
    (hxs : xs.Nodup) (hf : ∀ x ∈ xs, (f x).Nodup) (hkey : ∀ x ∈ xs, ∀ y ∈ f x, key y = x) :
    (xs.flatMap f).Nodup := by
  refine List.nodup_flatMap.mpr ⟨hf, hxs.imp_of_mem fun {a b} ha hb hne => ?_⟩
  intro y hya hyb
  exact hne ((hkey a ha y hya).symm.trans (hkey b hb y hyb))

theorem nodup_visitedCells {geometry : TileGeometry} (hx : 0 < geometry.block.x.toNat)
    (hy : 0 < geometry.block.y.toNat) : (visitedCells geometry).Nodup := by
  have hthreads : geometry.threads.Nodup := List.nodup_range.product List.nodup_range
  -- a cell tells its thread by its remainders, and then its rounds by the difference
  refine nodup_flatMap_of_key
    (fun cell => (cell.1 % geometry.block.x.toNat, cell.2 % geometry.block.y.toNat)) hthreads
    (fun thread hthread => ?_) ?_
  · obtain ⟨htx, hty⟩ := List.mem_product.mp hthread
    rw [List.mem_range] at htx hty
    refine nodup_flatMap_of_key (fun cell => cell.2 - thread.2) (LoopStep.nodup_values_byMany hy _)
      (fun j hj => ?_) ?_
    · refine nodup_flatMap_of_key (fun cell => cell.1 - thread.1)
        (LoopStep.nodup_values_byMany hx _) (fun i hi => ?_) ?_
      · split
        · exact List.nodup_singleton _
        · exact List.nodup_nil
      · intro i hi cell hcell
        split at hcell
        · cases List.mem_singleton.mp hcell
          exact Nat.add_sub_cancel_left ..
        · cases hcell
    · intro j hj cell hcell
      obtain ⟨i, hi, hcell⟩ := List.mem_flatMap.mp hcell
      split at hcell
      · cases List.mem_singleton.mp hcell
        exact Nat.add_sub_cancel_left ..
      · cases hcell
  · intro thread hthread cell hcell
    obtain ⟨htx, hty⟩ := List.mem_product.mp hthread
    rw [List.mem_range] at htx hty
    obtain ⟨j, hj, hcell⟩ := List.mem_flatMap.mp hcell
    obtain ⟨i, hi, hcell⟩ := List.mem_flatMap.mp hcell
    split at hcell
    · cases List.mem_singleton.mp hcell
      exact Prod.ext (mod_thread_add_round htx ((LoopStep.mem_values_byMany hx).mp hi).2)
        (mod_thread_add_round hty ((LoopStep.mem_values_byMany hy).mp hj).2)
    · cases hcell

end Tile

end BufferPromotion
