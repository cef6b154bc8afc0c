import BufferPromotion.Proofs.Tile.Filling

/-! # Counters of the copy loops

Generated code counts in `int`. The limit on tiles bounds the number of elements, and so the
subscripts of every write. It does not bound the counters: a thread moves on by a whole block
until its loop ends, so the counter of a loop ends at the first multiple of the block size that is
not below the extent, and the last cell that a thread looks at is one less. On an accepted tile
with at least two rows and two columns this is still an `int`; on a single long row it need not
be one.
-/

set_option autoImplicit false

namespace BufferPromotion

/-! ## The value that ends a loop -/

theorem length_countFrom {bound amount fuel first : Nat} (hstep : 0 < amount)
    (hfuel : bound ≤ first + fuel) (hfirst : first < bound + amount) :
    bound ≤ first + (countFrom bound amount fuel first).length * amount ∧
      first + (countFrom bound amount fuel first).length * amount < bound + amount := by
  induction fuel generalizing first with
  | zero => exact ⟨by simpa [countFrom] using hfuel, by simpa [countFrom] using hfirst⟩
  | succ fuel ih =>
      unfold countFrom
      split
      · next hlt =>
        obtain ⟨hreached, hclose⟩ := @ih (first + amount) (by omega) (by omega)
        rw [List.length_cons, Nat.succ_mul]
        omega
      · next hend =>
        simp
        omega

namespace LoopStep

/-- The value of a loop variable that ends the loop: it has moved on once for each round. -/
def last (step : LoopStep) (bound : Nat) : Nat := (step.values bound).length * step.amount

/-- All values that a loop variable takes, the one that ends the loop included. -/
def counters (step : LoopStep) (bound : Nat) : List Nat := step.values bound ++ [step.last bound]

section ByMany

variable {amount bound : Nat} (hstep : 0 < amount)

theorem dvd_last : amount ∣ (byMany amount).last bound := Nat.dvd_mul_left ..

include hstep

theorem bound_le_last : bound ≤ (byMany amount).last bound := by
  have hlength := (@length_countFrom bound amount bound 0 hstep (by omega) (by omega)).1
  rwa [Nat.zero_add] at hlength

theorem last_lt : (byMany amount).last bound < bound + amount := by
  have hlength := (@length_countFrom bound amount bound 0 hstep (by omega) (by omega)).2
  rwa [Nat.zero_add] at hlength

/-- A loop ends at the first multiple of its step that is not below the bound. -/
theorem last_eq : (byMany amount).last bound = (bound + amount - 1) / amount * amount := by
  obtain ⟨rounds, hrounds⟩ := @dvd_last amount bound
  have hreached : bound ≤ (byMany amount).last bound := bound_le_last hstep
  have hclose : (byMany amount).last bound < bound + amount := last_lt hstep
  rw [hrounds] at hreached hclose ⊢
  have hdiv : (bound + amount - 1) / amount = rounds := by
    rw [Nat.div_eq_iff hstep, Nat.mul_comm]
    omega
  rw [hdiv, Nat.mul_comm]

theorem le_last_of_mem {value : Nat} (h : value ∈ (byMany amount).values bound) :
    value + amount ≤ (byMany amount).last bound := by
  -- two multiples of the step are a step apart
  obtain ⟨hlt, rounds, rfl⟩ := (mem_values_byMany hstep).mp h
  obtain ⟨total, htotal⟩ := @dvd_last amount bound
  have hreached : bound ≤ (byMany amount).last bound := bound_le_last hstep
  rw [htotal] at hreached ⊢
  have hrounds : rounds < total := Nat.lt_of_mul_lt_mul_left (Nat.lt_of_lt_of_le hlt hreached)
  calc amount * rounds + amount = amount * (rounds + 1) := (Nat.mul_succ ..).symm
    _ ≤ amount * total := Nat.mul_le_mul_left _ hrounds

theorem zero_mem_values (hbound : 0 < bound) : 0 ∈ (byMany amount).values bound :=
  (mem_values_byMany hstep).mpr ⟨hbound, Nat.dvd_zero _⟩

/-- A thread that stands inside the block stays below the end of the loop. -/
theorem add_le_last_sub_one {thread round : Nat} (hthread : thread < amount)
    (hround : round ∈ (byMany amount).values bound) :
    thread + round ≤ (byMany amount).last bound - 1 := by
  have hnext := le_last_of_mem hstep hround
  omega

/-- The last thread of the block gets there in the last round. -/
theorem exists_add_eq_last_sub_one (hbound : 0 < bound) :
    ∃ thread < amount, ∃ round ∈ (byMany amount).values bound,
      thread + round = (byMany amount).last bound - 1 := by
  have hreached : bound ≤ (byMany amount).last bound := bound_le_last hstep
  have hclose : (byMany amount).last bound < bound + amount := last_lt hstep
  have hround : amount ≤ (byMany amount).last bound :=
    Nat.le_of_dvd (by omega) dvd_last
  refine ⟨amount - 1, by omega, (byMany amount).last bound - amount, ?_, by omega⟩
  rw [mem_values_byMany hstep]
  exact ⟨by omega, Nat.dvd_sub dvd_last (Nat.dvd_refl _)⟩

theorem le_last_of_mem_counters {value : Nat} (h : value ∈ (byMany amount).counters bound) :
    value ≤ (byMany amount).last bound := by
  rcases List.mem_append.mp h with hround | hend
  · have hnext := le_last_of_mem hstep hround
    omega
  · exact Nat.le_of_eq (List.mem_singleton.mp hend)

end ByMany

theorem last_mem_counters {step : LoopStep} {bound : Nat} : step.last bound ∈ step.counters bound :=
  List.mem_append_right _ (List.mem_singleton_self _)

end LoopStep

/-! ## Values of `int` variables -/

/-- The values that a step gives to a variable of type `int`: a loop counts it up to the value
that ends the loop, and a declaration gives it one value. -/
def Step.intValues (texts : Scope) (name : String) (step : Step) : List Int :=
  match step.stmt with
  | .loop var bound move _ => if var = name then (move.counters bound).map Int.ofNat else []
  | .declare type var value =>
      if type = "int" ∧ var = name then (value.value? texts step.scope).toList else []
  | _ => []

/-- The values that a run gives to a variable of type `int`. -/
def intValuesOf (texts : Scope) (name : String) (steps : List Step) : List Int :=
  steps.flatMap (Step.intValues texts name)

namespace Step

variable {texts scope : Scope} {name var : String} {value : Expr}

theorem intValues_declare {v : Int} (h : value.value? texts scope = some v) :
    intValues texts name ⟨.declare "int" var value, scope⟩ = if var = name then [v] else [] := by
  simp [intValues, h]

theorem intValues_declare_of_ne (h : var ≠ name) :
    intValues texts name ⟨.declare "int" var value, scope⟩ = [] := if_neg fun heq => h heq.2

end Step

namespace Tile

variable {texts outer : Scope} {geometry : TileGeometry} {border : BorderFill} {tile : Tile}
  {origin : Int × Int}

/-- Filling a cell counts elements, and nothing else. -/
theorem intValuesOf_fillFromImage {scope : Scope} {name : String} (h : name ≠ "c") :
    intValuesOf texts name ((tile.fillFromImage border).steps texts scope) = [] := by
  have hcell : ∀ value, intValuesOf texts name ((tile.fillCell value).steps texts scope) = [] := by
    intro value
    have hne : ¬ "c" = name := fun hname => h hname.symm
    simp only [fillCell]
    split
    · rfl
    · simp only [intValuesOf, Stmt.steps, List.flatMap_cons, Step.intValues, if_neg hne,
        List.nil_append, List.flatMap_eq_nil_iff, List.mem_flatMap, List.mem_singleton]
      rintro _ ⟨c, -, rfl⟩
      rfl
  cases border with
  | leave =>
      simp only [fillFromImage, Stmt.steps, intValuesOf, List.flatMap_cons, Step.intValues]
      split
      · exact hcell _
      · rfl
  | zero =>
      simp only [fillFromImage, Stmt.steps, intValuesOf, List.flatMap_cons, Step.intValues]
      split
      · exact hcell _
      · exact hcell _

/-- The values of the variables that name a cell of the tile: the counters of the two loops, and
in each round the counters with the position of the thread added to them. -/
theorem intValuesOf_copyLoop {name : String} (hc : name ≠ "c") (hgx : name ≠ "gx")
    (hgy : name ≠ "gy") :
    intValuesOf texts name
        (blockSteps texts outer geometry origin (tile.copyLoop geometry border)) =
      let rows := LoopStep.byMany geometry.block.y.toNat
      let columns := LoopStep.byMany geometry.block.x.toNat
      geometry.threads.flatMap fun thread =>
        (if "j" = name then (rows.counters geometry.extent.y.toNat).map Int.ofNat else []) ++
          (rows.values geometry.extent.y.toNat).flatMap fun j =>
            (if "i" = name then (columns.counters geometry.extent.x.toNat).map Int.ofNat else []) ++
              (columns.values geometry.extent.x.toNat).flatMap fun i =>
                (if "lx" = name then [((thread.1 + i : Nat) : Int)] else []) ++
                  if "ly" = name then [((thread.2 + j : Nat) : Int)] else [] := by
  unfold intValuesOf blockSteps copyLoop
  rw [List.flatMap_assoc]
  refine List.flatMap_congr fun thread _ => ?_
  simp only [Stmt.steps]
  rw [List.flatMap_cons, List.flatMap_assoc]
  refine congrArg₂ (· ++ ·) rfl (List.flatMap_congr fun j _ => ?_)
  rw [List.flatMap_cons, List.flatMap_assoc]
  refine congrArg₂ (· ++ ·) rfl (List.flatMap_congr fun i _ => ?_)
  simp only [Stmt.all, List.foldr, Stmt.steps, List.append_nil, List.singleton_append,
    List.flatMap_cons]
  have hlx : ((Expr.var "threadIdx.x").add (.var "i")).value? texts
      (((threadScope outer origin thread).set "j" j).set "i" i) =
      some ((thread.1 + i : Nat) : Int) := by
    simp [Expr.add, Expr.value?, BinaryOp.apply, threadScope, Scope.set]
  have hly : ((Expr.var "threadIdx.y").add (.var "j")).value? texts
      ((Stmt.declare "int" "lx" ((Expr.var "threadIdx.x").add (.var "i"))).scopeAfter texts
        (((threadScope outer origin thread).set "j" j).set "i" i)) =
      some ((thread.2 + j : Nat) : Int) := by
    simp [Stmt.scopeAfter, Expr.add, Expr.value?, BinaryOp.apply, threadScope, Scope.set]
  rw [Step.intValues_declare hlx, Step.intValues_declare hly,
    Step.intValues_declare_of_ne hgx.symm, Step.intValues_declare_of_ne hgy.symm]
  -- the rest of the round fills the cell, or does nothing
  refine congrArg _ ((congrArg _ ?_).trans (List.append_nil _))
  split
  · exact intValuesOf_fillFromImage hc
  · rfl

theorem mem_threads {tx ty : Nat} :
    (tx, ty) ∈ geometry.threads ↔ tx < geometry.block.x.toNat ∧ ty < geometry.block.y.toNat := by
  simp [TileGeometry.threads]

/-- No counter and no coordinate of a cell is negative. -/
theorem intValue_nonneg {name : String} (hc : name ≠ "c") (hgx : name ≠ "gx")
    (hgy : name ≠ "gy") {value : Int}
    (h : value ∈ intValuesOf texts name
      (blockSteps texts outer geometry origin (tile.copyLoop geometry border))) : 0 ≤ value := by
  have hcounts : ∀ {counts : List Nat}, value ∈ counts.map Int.ofNat → 0 ≤ value := by
    intro counts hmem
    obtain ⟨count, -, rfl⟩ := List.mem_map.mp hmem
    exact Int.natCast_nonneg count
  have hsum : ∀ {count : Nat}, value ∈ [(count : Int)] → 0 ≤ value := by
    intro count hmem
    rw [List.mem_singleton.mp hmem]
    exact Int.natCast_nonneg count
  rw [intValuesOf_copyLoop hc hgx hgy] at h
  obtain ⟨thread, -, h⟩ := List.mem_flatMap.mp h
  rcases List.mem_append.mp h with hj | h
  · split at hj
    · exact hcounts hj
    · cases hj
  · obtain ⟨j, -, h⟩ := List.mem_flatMap.mp h
    rcases List.mem_append.mp h with hi | h
    · split at hi
      · exact hcounts hi
      · cases hi
    · obtain ⟨i, -, h⟩ := List.mem_flatMap.mp h
      rcases List.mem_append.mp h with hlx | hly
      · split at hlx
        · exact hsum hlx
        · cases hlx
      · split at hly
        · exact hsum hly
        · cases hly

section Pixels

variable (hx : 0 < geometry.block.x.toNat) (hy : 0 < geometry.block.y.toNat)
  (hwidth : 0 < geometry.extent.x.toNat) (hheight : 0 < geometry.extent.y.toNat)

include hx hy

theorem isGreatest_j :
    IsGreatest {value | value ∈ intValuesOf texts "j"
        (blockSteps texts outer geometry origin (tile.copyLoop geometry border))}
      ((LoopStep.byMany geometry.block.y.toNat).last geometry.extent.y.toNat : Nat) := by
  have hmem : ∀ value : Int, value ∈ intValuesOf texts "j"
      (blockSteps texts outer geometry origin (tile.copyLoop geometry border)) ↔
      ∃ count ∈ (LoopStep.byMany geometry.block.y.toNat).counters geometry.extent.y.toNat,
        (count : Int) = value := by
    intro value
    rw [intValuesOf_copyLoop (by decide) (by decide) (by decide)]
    have hthread : ∃ tx ty, (tx, ty) ∈ geometry.threads := ⟨0, 0, mem_threads.mpr ⟨hx, hy⟩⟩
    simp [List.mem_flatMap, hthread]
  constructor
  · exact (hmem _).mpr ⟨_, LoopStep.last_mem_counters, rfl⟩
  · intro value hvalue
    obtain ⟨count, hcount, rfl⟩ := (hmem value).mp hvalue
    exact Int.ofNat_le.mpr (LoopStep.le_last_of_mem_counters hy hcount)

include hheight in
theorem isGreatest_i :
    IsGreatest {value | value ∈ intValuesOf texts "i"
        (blockSteps texts outer geometry origin (tile.copyLoop geometry border))}
      ((LoopStep.byMany geometry.block.x.toNat).last geometry.extent.x.toNat : Nat) := by
  have hmem : ∀ value : Int, value ∈ intValuesOf texts "i"
      (blockSteps texts outer geometry origin (tile.copyLoop geometry border)) ↔
      ∃ count ∈ (LoopStep.byMany geometry.block.x.toNat).counters geometry.extent.x.toNat,
        (count : Int) = value := by
    intro value
    rw [intValuesOf_copyLoop (by decide) (by decide) (by decide)]
    have hthread : ∃ tx ty, (tx, ty) ∈ geometry.threads := ⟨0, 0, mem_threads.mpr ⟨hx, hy⟩⟩
    -- the inner loop is reached in the first row
    have hrow : ∃ j, j ∈ (LoopStep.byMany geometry.block.y.toNat).values geometry.extent.y.toNat :=
      ⟨0, LoopStep.zero_mem_values hy hheight⟩
    simp [List.mem_flatMap, hthread, hrow]
  constructor
  · exact (hmem _).mpr ⟨_, LoopStep.last_mem_counters, rfl⟩
  · intro value hvalue
    obtain ⟨count, hcount, rfl⟩ := (hmem value).mp hvalue
    exact Int.ofNat_le.mpr (LoopStep.le_last_of_mem_counters hx hcount)

include hheight hwidth in
theorem isGreatest_lx :
    IsGreatest {value | value ∈ intValuesOf texts "lx"
        (blockSteps texts outer geometry origin (tile.copyLoop geometry border))}
      ((LoopStep.byMany geometry.block.x.toNat).last geometry.extent.x.toNat - 1 : Nat) := by
  have hmem : ∀ value : Int, value ∈ intValuesOf texts "lx"
      (blockSteps texts outer geometry origin (tile.copyLoop geometry border)) ↔
      ∃ thread < geometry.block.x.toNat,
        ∃ i ∈ (LoopStep.byMany geometry.block.x.toNat).values geometry.extent.x.toNat,
          value = (thread + i : Nat) := by
    intro value
    rw [intValuesOf_copyLoop (by decide) (by decide) (by decide)]
    have hrow : ∃ j, j ∈ (LoopStep.byMany geometry.block.y.toNat).values geometry.extent.y.toNat :=
      ⟨0, LoopStep.zero_mem_values hy hheight⟩
    have hline : ∃ ty, ty < geometry.block.y.toNat := ⟨0, hy⟩
    simp [List.mem_flatMap, mem_threads, hrow, hline]
  constructor
  · obtain ⟨thread, hthread, i, hi, hsum⟩ := LoopStep.exists_add_eq_last_sub_one hx hwidth
    exact (hmem _).mpr ⟨thread, hthread, i, hi, by rw [hsum]⟩
  · intro value hvalue
    obtain ⟨thread, hthread, i, hi, rfl⟩ := (hmem value).mp hvalue
    exact Int.ofNat_le.mpr (LoopStep.add_le_last_sub_one hx hthread hi)

include hheight hwidth in
theorem isGreatest_ly :
    IsGreatest {value | value ∈ intValuesOf texts "ly"
        (blockSteps texts outer geometry origin (tile.copyLoop geometry border))}
      ((LoopStep.byMany geometry.block.y.toNat).last geometry.extent.y.toNat - 1 : Nat) := by
  have hmem : ∀ value : Int, value ∈ intValuesOf texts "ly"
      (blockSteps texts outer geometry origin (tile.copyLoop geometry border)) ↔
      ∃ thread < geometry.block.y.toNat,
        ∃ j ∈ (LoopStep.byMany geometry.block.y.toNat).values geometry.extent.y.toNat,
          value = (thread + j : Nat) := by
    intro value
    rw [intValuesOf_copyLoop (by decide) (by decide) (by decide)]
    have hround : ∃ i,
        i ∈ (LoopStep.byMany geometry.block.x.toNat).values geometry.extent.x.toNat :=
      ⟨0, LoopStep.zero_mem_values hx hwidth⟩
    simp only [String.reduceEq, ↓reduceIte, Nat.cast_add, List.nil_append, List.mem_flatMap,
      List.mem_cons, List.not_mem_nil, or_false, exists_and_right, hround, true_and, Prod.exists,
      mem_threads]
    constructor
    · rintro ⟨-, thread, ⟨-, hthread⟩, j, hj, hvalue⟩
      exact ⟨thread, hthread, j, hj, hvalue⟩
    · rintro ⟨thread, hthread, j, hj, hvalue⟩
      exact ⟨0, thread, ⟨hx, hthread⟩, j, hj, hvalue⟩
  constructor
  · obtain ⟨thread, hthread, j, hj, hsum⟩ := LoopStep.exists_add_eq_last_sub_one hy hheight
    exact (hmem _).mpr ⟨thread, hthread, j, hj, by rw [hsum]⟩
  · intro value hvalue
    obtain ⟨thread, hthread, j, hj, rfl⟩ := (hmem value).mp hvalue
    exact Int.ofNat_le.mpr (LoopStep.add_le_last_sub_one hy hthread hj)

end Pixels

end Tile

/-! ## The limit on elements -/

/-- A row of pixels that is not the only row is at most half as long as the limit, and the end of
its loop is less than a block further. -/
theorem LoopStep.last_le_of_two_rows {amount extent other limit : Nat} (hstep : 0 < amount)
    (hamount : amount ≤ extent) (hother : 2 ≤ other) (hlimit : extent * other ≤ limit) :
    (byMany amount).last extent ≤ limit := by
  have hclose : (byMany amount).last extent < extent + amount := last_lt hstep
  have htwice : extent * 2 ≤ extent * other := Nat.mul_le_mul_left _ hother
  omega

section Limit

variable {config : LaunchConfig} {geometry : TileGeometry}
  (hgeometry : TileGeometry.ofLaunch? config = some geometry)

include hgeometry

theorem TileGeometry.pixels_le :
    geometry.extent.x.toNat * geometry.extent.y.toNat ≤ 2 ^ 31 - 1 := by
  obtain ⟨-, row, hrow⟩ := ofLaunch?_eq_some hgeometry
  obtain ⟨hproduct, hle⟩ := toNat_rowElements hgeometry hrow
  rw [hproduct, UInt32.toNat_one, Nat.mul_one] at hle
  exact hle

/-- The subscripts that a thread writes at are those of an element of the tile, and the number of
elements is within the limit. -/
theorem Tile.subscripts_fit (hx : 0 < geometry.block.x.toNat) (hy : 0 < geometry.block.y.toNat)
    (hwidth : 0 < geometry.extent.x.toNat) (hheight : 0 < geometry.extent.y.toNat) {tile : Tile}
    {row : UInt32} (hrow : geometry.rowElements tile.buffer.stride = some row) {border : BorderFill}
    {origin : Int × Int} {texts outer : Scope} {write : ElementWrite}
    (hwrite : write ∈ writesOf texts
      (blockSteps texts outer geometry origin (tile.copyLoop geometry border))) :
    0 ≤ write.row ∧ write.row ≤ 2 ^ 31 - 1 ∧ 0 ≤ write.column ∧ write.column ≤ 2 ^ 31 - 1 := by
  have hlimit : elementLimit.toNat = 2 ^ 31 - 1 := rfl
  have hpixels := TileGeometry.pixels_le hgeometry
  obtain ⟨r, k, -, hr, hk, hrlt, hklt⟩ := Tile.write_inside texts border tile hx hy hwrite
  obtain ⟨hproduct, hle⟩ := TileGeometry.toNat_rowElements hgeometry hrow
  rw [hproduct, hlimit] at hle
  have hrows : geometry.extent.y.toNat ≤ geometry.extent.x.toNat * geometry.extent.y.toNat :=
    Nat.le_mul_of_pos_left _ hwidth
  have hcolumns : geometry.extent.x.toNat * tile.buffer.stride.toNat ≤
      geometry.extent.x.toNat * tile.buffer.stride.toNat * geometry.extent.y.toNat :=
    Nat.le_mul_of_pos_right _ hheight
  rw [hr, hk]
  omega

end Limit

/-- **When the indices of a tile are `int`.** Take an accepted tile of a block with pixels. No
thread writes at a negative subscript, or at one that is not an `int`. The counters `i` and `j`
of the copy loops go up to the first multiple of the block size that is not below the extent, the
coordinates `lx` and `ly` up to one less, and none of them is ever negative. So all of them are
`int` if and only if these multiples are; this is the case as soon as the tile has two rows and
two columns. -/
theorem counters_fit_iff {config : LaunchConfig} {geometry : TileGeometry}
    (hgeometry : TileGeometry.ofLaunch? config = some geometry)
    (hx : 1 ≤ geometry.block.x.toNat) (hy : 1 ≤ geometry.block.y.toNat) (tile : Tile) {row : UInt32}
    (hrow : geometry.rowElements tile.buffer.stride = some row) (border : BorderFill)
    (origin : Int × Int) (texts outer : Scope) :
    let run := blockSteps texts outer geometry origin (tile.copyLoop geometry border)
    let blockX := geometry.block.x.toNat
    let blockY := geometry.block.y.toNat
    let extentX := blockX + 2 * geometry.halo.x.toNat
    let extentY := blockY + 2 * geometry.halo.y.toNat
    let endX := (extentX + blockX - 1) / blockX * blockX
    let endY := (extentY + blockY - 1) / blockY * blockY
    (∀ write ∈ writesOf texts run, 0 ≤ write.row ∧ write.row ≤ 2 ^ 31 - 1 ∧
      0 ≤ write.column ∧ write.column ≤ 2 ^ 31 - 1) ∧
    IsGreatest {value | value ∈ intValuesOf texts "i" run} endX ∧
    IsGreatest {value | value ∈ intValuesOf texts "j" run} endY ∧
    IsGreatest {value | value ∈ intValuesOf texts "lx" run} (endX - 1 : Nat) ∧
    IsGreatest {value | value ∈ intValuesOf texts "ly" run} (endY - 1 : Nat) ∧
    (∀ name ∈ ["i", "j", "lx", "ly"], ∀ value ∈ intValuesOf texts name run, 0 ≤ value) ∧
    ((∀ name ∈ ["i", "j", "lx", "ly"], ∀ value ∈ intValuesOf texts name run,
      value ≤ 2 ^ 31 - 1) ↔ endX ≤ 2 ^ 31 - 1 ∧ endY ≤ 2 ^ 31 - 1) ∧
    (2 ≤ extentX → 2 ≤ extentY → endX ≤ 2 ^ 31 - 1 ∧ endY ≤ 2 ^ 31 - 1) := by
  intro run blockX blockY extentX extentY endX endY
  have hextentX : geometry.extent.x.toNat = extentX := (TileGeometry.toNat_extent hgeometry).1
  have hextentY : geometry.extent.y.toNat = extentY := (TileGeometry.toNat_extent hgeometry).2
  have hwidth : 0 < geometry.extent.x.toNat := by omega
  have hheight : 0 < geometry.extent.y.toNat := by omega
  have hendX : (LoopStep.byMany geometry.block.x.toNat).last geometry.extent.x.toNat = endX := by
    rw [LoopStep.last_eq hx, hextentX]
  have hendY : (LoopStep.byMany geometry.block.y.toNat).last geometry.extent.y.toNat = endY := by
    rw [LoopStep.last_eq hy, hextentY]
  have hpixels := TileGeometry.pixels_le hgeometry
  -- the greatest values, of which the others are bounded
  have hi : IsGreatest {value | value ∈ intValuesOf texts "i" run} endX :=
    hendX ▸ Tile.isGreatest_i hx hy hheight
  have hj : IsGreatest {value | value ∈ intValuesOf texts "j" run} endY :=
    hendY ▸ Tile.isGreatest_j hx hy
  have hlx : IsGreatest {value | value ∈ intValuesOf texts "lx" run} (endX - 1 : Nat) :=
    hendX ▸ Tile.isGreatest_lx hx hy hwidth hheight
  have hly : IsGreatest {value | value ∈ intValuesOf texts "ly" run} (endY - 1 : Nat) :=
    hendY ▸ Tile.isGreatest_ly hx hy hwidth hheight
  refine ⟨fun write hwrite => ?_, hi, hj, hlx, hly, fun name hname value hvalue => ?_, ?_, ?_⟩
  · exact Tile.subscripts_fit hgeometry hx hy hwidth hheight hrow hwrite
  · simp only [List.mem_cons, List.not_mem_nil, or_false] at hname
    rcases hname with rfl | rfl | rfl | rfl
    all_goals exact Tile.intValue_nonneg (by decide) (by decide) (by decide) hvalue
  · constructor
    · intro hall
      have hiFits := hall "i" (by simp) endX hi.1
      have hjFits := hall "j" (by simp) endY hj.1
      omega
    · rintro ⟨hfitsX, hfitsY⟩ name hname value hvalue
      simp only [List.mem_cons, List.not_mem_nil, or_false] at hname
      rcases hname with rfl | rfl | rfl | rfl
      · have hle := hi.2 hvalue
        omega
      · have hle := hj.2 hvalue
        omega
      · have hle := hlx.2 hvalue
        omega
      · have hle := hly.2 hvalue
        omega
  · intro hcolumns hrows
    rw [← hendX, ← hendY]
    rw [← hextentX] at hcolumns
    rw [← hextentY] at hrows
    constructor
    · exact LoopStep.last_le_of_two_rows hx (by omega) hrows hpixels
    · exact LoopStep.last_le_of_two_rows hy (by omega) hcolumns (Nat.mul_comm _ _ ▸ hpixels)

/-- A tile of six by six pixels: the counters end at twice the block. -/
theorem small_tile_fits :
    let geometry : TileGeometry := ⟨⟨4, 4⟩, ⟨1, 1⟩⟩
    let tile := Tile.ofKey "uv" ⟨.f32, "uv", "width", "height", 2⟩
    let run := blockSteps (fun _ => 100) (fun _ => 0) geometry (0, 0)
      (tile.copyLoop geometry .zero)
    TileGeometry.ofLaunch? ⟨⟨4, 4⟩, ⟨3, 3⟩⟩ = some geometry ∧
      geometry.rowElements tile.buffer.stride = some 12 ∧
      IsGreatest {value | value ∈ intValuesOf (fun _ => 100) "i" run} 8 ∧
      IsGreatest {value | value ∈ intValuesOf (fun _ => 100) "lx" run} 7 := by
  intro geometry tile run
  have hgeometry : TileGeometry.ofLaunch? ⟨⟨4, 4⟩, ⟨3, 3⟩⟩ = some geometry := by decide
  have hrow : geometry.rowElements tile.buffer.stride = some 12 := by decide
  obtain ⟨-, hi, -, hlx, -⟩ := counters_fit_iff hgeometry (by decide) (by decide) tile hrow .zero
    (0, 0) (fun _ => 100) (fun _ => 0)
  have hend : (geometry.block.x.toNat + 2 * geometry.halo.x.toNat + geometry.block.x.toNat - 1) /
      geometry.block.x.toNat * geometry.block.x.toNat = 8 := by decide
  rw [hend] at hi hlx
  exact ⟨hgeometry, hrow, hi, hlx⟩

/-- A tile of one long row, with half as many cells as there are numbers of 32 bits, is accepted.
The first thread goes on from cell 2000000000 to 4000000000, where its loop ends, and the last
thread looks at cell 3999999999 in its second round; neither is an `int`. -/
theorem long_row_overflows :
    let geometry : TileGeometry := ⟨⟨2000000000, 1⟩, ⟨1, 0⟩⟩
    let tile := Tile.ofKey "src" ⟨.f32, "src", "width", "height", 1⟩
    let run := blockSteps (fun _ => 100) (fun _ => 0) geometry (0, 0)
      (tile.copyLoop geometry .leave)
    TileGeometry.ofLaunch? ⟨⟨2000000000, 1⟩, ⟨3, 1⟩⟩ = some geometry ∧
      geometry.rowElements tile.buffer.stride = some 2000000002 ∧
      4000000000 ∈ intValuesOf (fun _ => 100) "i" run ∧
      3999999999 ∈ intValuesOf (fun _ => 100) "lx" run ∧ (2 ^ 31 - 1 : Int) < 3999999999 := by
  intro geometry tile run
  have hx : 0 < geometry.block.x.toNat := by decide
  have hy : 0 < geometry.block.y.toNat := by decide
  have hwidth : 0 < geometry.extent.x.toNat := by decide
  have hheight : 0 < geometry.extent.y.toNat := by decide
  have hend : (LoopStep.byMany geometry.block.x.toNat).last geometry.extent.x.toNat =
      4000000000 := by
    rw [LoopStep.last_eq hx]
    decide
  have hi : IsGreatest {value | value ∈ intValuesOf (fun _ => 100) "i" run}
      ((LoopStep.byMany geometry.block.x.toNat).last geometry.extent.x.toNat : Nat) :=
    Tile.isGreatest_i hx hy hheight
  have hlx : IsGreatest {value | value ∈ intValuesOf (fun _ => 100) "lx" run}
      ((LoopStep.byMany geometry.block.x.toNat).last geometry.extent.x.toNat - 1 : Nat) :=
    Tile.isGreatest_lx hx hy hwidth hheight
  rw [hend] at hi hlx
  exact ⟨by decide, by decide, hi.1, hlx.1, by decide⟩

end BufferPromotion
