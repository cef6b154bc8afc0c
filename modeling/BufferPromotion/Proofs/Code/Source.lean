import BufferPromotion.Code.Kernel
import BufferPromotion.Proofs.Tile.Entry

/-! # The code of a kernel, line by line

The code of a kernel consists of the line that opens the function, the lines at entry, the lines of
the operations, and the brace that closes the function (`Emission.run_eq_ok_iff`). It is written if
and only if all tiles are accepted, and it is always well nested.
-/

set_option autoImplicit false

namespace BufferPromotion

theorem LineWriter.text_empty_append (lines : List CodeLine) :
    (empty.append lines).text = String.join (lines.map CodeLine.render) := by
  unfold text
  rw [toList_lines_append]
  rfl

namespace Emission

variable (emission : Emission)

/-- The lines of an operation. -/
def linesOf (op : Operation) : List CodeLine := (emission.statement emission.context op).lines 1

/-- The lines between the braces of the function. -/
def bodyLines : List CodeLine :=
  TileCode.entryLines emission.geometry emission.settings.border 1 emission.tiles ++
    emission.kernel.operations.flatMap emission.linesOf

/-- The lines of the code. -/
def codeLines : List CodeLine :=
  ⟨0, emission.headerLine ++ " \x7b"⟩ :: (emission.bodyLines ++ [⟨0, "\x7d"⟩])

theorem writeOperations_eq (writer : LineWriter) (hdepth : writer.depth = 1) :
    emission.writeOperations writer =
      writer.append (emission.kernel.operations.flatMap emission.linesOf) := by
  unfold writeOperations
  dsimp only
  rw [Stmt.foldl_write, hdepth]
  rfl

variable {emission}

/-- Code is written if and only if all tiles are accepted. -/
theorem run_eq_ok_iff {code : KernelCode} :
    emission.run = .ok code ↔
      (∀ tile ∈ emission.tiles, ∃ row,
        emission.geometry.rowElements tile.buffer.stride = some row) ∧
      code = {
        source := String.join (emission.codeLines.map CodeLine.render)
        tiles := emission.tiles
        unmapped := (emission.kernel.operations.filter
          emission.context.lacksCoordinate).map (·.id) } := by
  rcases TileCode.accepted_or_refused emission.geometry emission.tiles with
    haccepted | ⟨before, tile, after, hsplit, hbefore, htile⟩
  · have hentry : TileCode.entry emission.geometry emission.settings.border
        (LineWriter.empty.openBrace emission.headerLine) emission.tiles = _ :=
      TileCode.entry_of_accepted haccepted
    unfold run
    dsimp only
    rw [hentry]
    dsimp only
    rw [writeOperations_eq _ _ rfl, LineWriter.append_append, LineWriter.closeBrace_openBrace,
      LineWriter.text_empty_append]
    constructor
    · intro h
      exact ⟨haccepted, (Except.ok.inj h).symm⟩
    · rintro ⟨-, rfl⟩
      rfl
  · have hentry : TileCode.entry emission.geometry emission.settings.border
        (LineWriter.empty.openBrace emission.headerLine) emission.tiles = _ :=
      hsplit ▸ TileCode.entry_of_refused hbefore htile
    unfold run
    dsimp only
    rw [hentry]
    refine ⟨nofun, fun h => ?_⟩
    obtain ⟨row, hrow⟩ := h.1 tile (hsplit ▸ List.mem_append_right _ List.mem_cons_self)
    rw [htile] at hrow
    cases hrow

/-- The code of a kernel is well nested. -/
theorem braced_codeLines (emission : Emission) : Braced 0 emission.codeLines := by
  have hheader : emission.headerLine ≠ "\x7d else" := Stmt.header_ne _
  refine .block hheader (.append (TileCode.braced_entryLines 1 _) ?_) .nil
  exact .flatMap fun op _ => Stmt.braced_lines _ 1

end Emission

end BufferPromotion
