import BufferPromotion.Source.Line
import BufferPromotion.Text.Blank
import Mathlib.Data.List.TakeWhile

/-! # Cutting texts into lines

A text that ends its last line can be followed by any other text: the lines of both together are
those of the first and those of the second, which start that much later (`sourceLines_append`). A
part of a text without a line break, from the start of a line up to its end, is one line, and of
the text around it only its length in bytes matters (`sourceLines_segment`).
-/

set_option autoImplicit false

namespace BufferPromotion

/-! ## Lengths in bytes -/

theorem byteLength_append (text more : List Char) :
    byteLength (text ++ more) = byteLength text + byteLength more := by
  induction text with
  | nil => simp [byteLength]
  | cons c text ih =>
      have hcons : ∀ rest, byteLength (c :: rest) = c.utf8Size + byteLength rest := fun _ => rfl
      rw [List.cons_append, hcons, hcons, ih, Nat.add_assoc]

theorem eq_nil_of_byteLength {text : List Char} (h : byteLength text = 0) : text = [] := by
  cases text with
  | nil => rfl
  | cons c text =>
      have hpos : 0 < c.utf8Size := c.utf8Size_pos
      have hsum : c.utf8Size + byteLength text = 0 := h
      omega

/-! ## Line breaks -/

/-- Whether a text is empty or ends in a line break. -/
def endsLine (text : List Char) : Bool := text.getLast?.all (· == '\n')

theorem endsLine_of_cons {c : Char} {rest : List Char} (h : endsLine (c :: rest) = true) :
    endsLine rest = true := by
  cases rest with
  | nil => rfl
  | cons d rest => simpa [endsLine] using h

theorem splitLines_ne_nil {text : List Char} (h : text ≠ []) : splitLines text ≠ [] := by
  cases text with
  | nil => exact absurd rfl h
  | cons c rest =>
      unfold splitLines
      by_cases hc : (c == '\n') = true
      · simp [hc]
      · cases hrest : splitLines rest <;> simp [hc]

/-- What follows the end of a line is cut on its own. -/
theorem splitLines_append {text : List Char} (h : endsLine text = true) (more : List Char) :
    splitLines (text ++ more) = splitLines text ++ splitLines more := by
  induction text with
  | nil => rfl
  | cons c rest ih =>
      have hrest := ih (endsLine_of_cons h)
      by_cases hc : c = '\n'
      · simp [splitLines, hc, hrest]
      · -- the text goes on after `c`, since it ends in a line break
        have hne : rest ≠ [] := by
          rintro rfl
          exact hc (by simpa [endsLine] using h)
        obtain ⟨line, lines, hlines⟩ := List.exists_cons_of_ne_nil (splitLines_ne_nil hne)
        simp [splitLines, hc, hrest, hlines]

theorem splitLines_break {line : List Char} (h : '\n' ∉ line) (rest : List Char) :
    splitLines (line ++ '\n' :: rest) = (line ++ ['\n']) :: splitLines rest := by
  induction line with
  | nil => rfl
  | cons c line ih =>
      have hc : c ≠ '\n' := fun heq => h (heq ▸ List.mem_cons_self)
      have hline : '\n' ∉ line := fun hmem => h (List.mem_cons_of_mem c hmem)
      simp [splitLines, hc, ih hline]

theorem splitLines_last {line : List Char} (h : '\n' ∉ line) (hne : line ≠ []) :
    splitLines line = [line] := by
  induction line with
  | nil => exact absurd rfl hne
  | cons c line ih =>
      have hc : c ≠ '\n' := fun heq => h (heq ▸ List.mem_cons_self)
      have hline : '\n' ∉ line := fun hmem => h (List.mem_cons_of_mem c hmem)
      cases line with
      | nil => simp [splitLines, hc]
      | cons d line =>
          have hrest := ih hline (List.cons_ne_nil d line)
          rw [splitLines, hrest]
          simp [hc]

/-- Nothing is lost by cutting. -/
theorem flatten_splitLines (text : List Char) : (splitLines text).flatten = text := by
  induction text with
  | nil => rfl
  | cons c rest ih =>
      rw [splitLines]
      by_cases hc : (c == '\n') = true
      · simp [hc, ih]
      · cases hrest : splitLines rest with
        | nil =>
            have hnil : rest = [] := by simpa [hrest] using ih.symm
            simp [hc, hnil]
        | cons line lines =>
            have hlines : line ++ lines.flatten = rest := by simpa [hrest] using ih
            simp [hc, ← hlines]

theorem dropLineEnding_break (line : List Char) :
    dropLineEnding (line ++ ['\n']) = dropLineEnding line := by
  have hbreak : isLineEnding '\n' = true := rfl
  unfold dropLineEnding
  rw [List.reverse_append, List.reverse_singleton, List.singleton_append,
    List.dropWhile_cons_of_pos hbreak]

/-- A line is the front of its piece of the source. -/
theorem exists_dropLineEnding (line : List Char) :
    ∃ ending, line = dropLineEnding line ++ ending ∧ ∀ c ∈ ending, isLineEnding c = true := by
  refine ⟨(line.reverse.takeWhile isLineEnding).reverse, ?_, fun c hc => ?_⟩
  · unfold dropLineEnding
    rw [← List.reverse_append, List.takeWhile_append_dropWhile, List.reverse_reverse]
  · exact List.mem_takeWhile_imp (List.mem_reverse.mp hc)

theorem dropLineEnding_subset (text : List Char) : dropLineEnding text ⊆ text := by
  obtain ⟨ending, htext, -⟩ := exists_dropLineEnding text
  intro c hc
  rw [htext]
  exact List.mem_append_left _ hc

/-! ## Lines of a source -/

/-- A line that starts later. -/
def SourceLine.shift (bytes : Nat) (line : SourceLine) : SourceLine :=
  { line with offset := bytes + line.offset }

theorem linesFrom_append (offset : Nat) (pieces more : List (List Char)) :
    linesFrom offset (pieces ++ more) =
      linesFrom offset pieces ++ linesFrom (offset + byteLength pieces.flatten) more := by
  induction pieces generalizing offset with
  | nil => rfl
  | cons piece pieces ih =>
      rw [List.cons_append, linesFrom, linesFrom, ih, List.flatten_cons, byteLength_append,
        Nat.add_assoc]
      rfl

theorem linesFrom_add (bytes offset : Nat) (pieces : List (List Char)) :
    linesFrom (bytes + offset) pieces = (linesFrom offset pieces).map (SourceLine.shift bytes) := by
  induction pieces generalizing offset with
  | nil => rfl
  | cons piece pieces ih =>
      rw [linesFrom, linesFrom, List.map_cons, Nat.add_assoc, ih]
      rfl

/-- The lines of two texts, the first of which ends its last line. -/
theorem linesFrom_splitLines_append {text : List Char} (h : endsLine text = true) (more : List Char) :
    linesFrom 0 (splitLines (text ++ more)) =
      linesFrom 0 (splitLines text) ++ linesFrom (byteLength text) (splitLines more) := by
  rw [splitLines_append h, linesFrom_append, flatten_splitLines, Nat.zero_add]

theorem sourceLines_append {first : String} (h : endsLine first.toList = true) (second : String) :
    sourceLines (first ++ second) =
      sourceLines first ++
        (sourceLines second).map (SourceLine.shift (byteLength first.toList)) := by
  unfold sourceLines
  rw [String.toList_append, linesFrom_splitLines_append h, ← linesFrom_add, Nat.add_zero]

/-- The lines of a text that starts with a line, up to its line break or the end. -/
theorem linesFrom_segment {segment rest : List Char} (hsegment : '\n' ∉ segment)
    (hne : segment ≠ []) (hrest : rest = [] ∨ rest.head? = some '\n') (offset : Nat) :
    linesFrom offset (splitLines (segment ++ rest)) =
      ⟨offset, dropLineEnding segment⟩ ::
        linesFrom (offset + byteLength segment + 1) (splitLines rest.tail) := by
  rcases hrest with rfl | hhead
  · rw [List.append_nil, splitLines_last hsegment hne]
    rfl
  · obtain ⟨more, rfl⟩ : ∃ more, rest = '\n' :: more := List.head?_eq_some_iff.mp hhead
    have hlength : byteLength (segment ++ ['\n']) = byteLength segment + 1 :=
      byteLength_append segment ['\n']
    rw [splitLines_break hsegment, linesFrom, dropLineEnding_break, hlength, Nat.add_assoc]
    rfl

/-- One line of a text, between those before it and those after it. -/
theorem sourceLines_segment {before segment rest : String} (hbefore : endsLine before.toList = true)
    (hsegment : '\n' ∉ segment.toList) (hne : segment.toList ≠ [])
    (hrest : rest.toList = [] ∨ rest.toList.head? = some '\n') :
    sourceLines (before ++ segment ++ rest) =
      sourceLines before ++ ⟨byteLength before.toList, dropLineEnding segment.toList⟩ ::
        linesFrom (byteLength before.toList + byteLength segment.toList + 1)
          (splitLines rest.toList.tail) := by
  unfold sourceLines
  rw [String.toList_append, String.toList_append, List.append_assoc,
    linesFrom_splitLines_append hbefore, linesFrom_segment hsegment hne hrest]

end BufferPromotion
