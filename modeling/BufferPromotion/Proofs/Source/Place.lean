import BufferPromotion.Proofs.Source.Line
import BufferPromotion.Source.Span

/-! # Places in a source

A place is given by bytes, and a source is made of characters. A place is one *in* a source if it
holds whole characters of a single line. It is enough to know that it starts and stops at characters
of one line (`SourceLine.isPlaceIn_of_covers`), since the lines of a source are parts of it that have
no line break and start where their offsets say (`exists_around_of_mem_sourceLines`).
-/

set_option autoImplicit false

namespace BufferPromotion

/-! ## Bytes and characters -/

theorem byteLength_toList (text : String) : byteLength text.toList = text.utf8ByteSize := by
  have hlist : ∀ text : List Char, byteLength text = (String.ofList text).utf8ByteSize := by
    intro text
    induction text with
    | nil => rfl
    | cons c text ih =>
        have hcons : byteLength (c :: text) = c.utf8Size + byteLength text := rfl
        rw [hcons, ih, ← List.singleton_append, String.ofList_append, String.utf8ByteSize_append,
          ← String.singleton_eq_ofList, String.utf8ByteSize_singleton]
  rw [hlist, String.ofList_toList]

/-- Of two fronts of a text, the one with fewer bytes is a front of the other. -/
theorem exists_between_of_byteLength_le {text before after front back : List Char}
    (htext : text = before ++ after) (htext' : text = front ++ back)
    (hle : byteLength before ≤ byteLength front) :
    ∃ between, front = before ++ between ∧ after = between ++ back := by
  rcases List.append_eq_append_iff.mp (htext.symm.trans htext') with
    ⟨between, hfront, hafter⟩ | ⟨between, hbefore, hback⟩
  · exact ⟨between, hfront, hafter⟩
  · -- what the shorter front has in addition is empty
    rw [hbefore, byteLength_append] at hle
    have hnil : between = [] := eq_nil_of_byteLength (by omega)
    subst hnil
    exact ⟨[], by simpa using hbefore.symm, by simpa using hback.symm⟩

/-! ## Places -/

namespace Span

theorem ext_bounds {a b : Span} (hstart : a.start = b.start) (hstop : a.stop = b.stop) : a = b := by
  unfold stop at hstop
  obtain ⟨start, length⟩ := a
  obtain ⟨start', length'⟩ := b
  rw [mk.injEq]
  dsimp only at hstart hstop
  omega

/-- A span marks a text in a source: it starts where the text does, and is as long. -/
def Marks (source : List Char) (span : Span) (text : List Char) : Prop :=
  ∃ before after, source = before ++ text ++ after ∧ span.start = byteLength before ∧
    span.length = byteLength text

/-- A place in a source: whole characters of a single line. -/
structure IsPlaceIn (source : String) (span : Span) : Prop where
  ordered : span.start ≤ span.stop
  inside : span.stop ≤ source.utf8ByteSize
  startsAtChar : String.Pos.Raw.IsValid source ⟨span.start⟩
  stopsAtChar : String.Pos.Raw.IsValid source ⟨span.stop⟩
  oneLine : ∃ text, span.Marks source.toList text ∧ '\n' ∉ text

/-- A text without a line break is at a place of the source. -/
theorem Marks.isPlaceIn {source : String} {span : Span} {text : List Char}
    (h : span.Marks source.toList text) (hbreak : '\n' ∉ text) : span.IsPlaceIn source := by
  obtain ⟨before, after, hsource, hstart, hlength⟩ := h
  have hparts : source = String.ofList before ++ String.ofList text ++ String.ofList after := by
    rw [← String.ofList_append, ← String.ofList_append, ← hsource, String.ofList_toList]
  have hsize : ∀ part : List Char, (String.ofList part).utf8ByteSize = byteLength part := by
    intro part
    rw [← byteLength_toList, String.toList_ofList]
  have hstop : span.stop = byteLength before + byteLength text := by
    unfold stop
    rw [hstart, hlength]
  refine ⟨Nat.le_add_right _ _, ?_, ?_, ?_, text, ⟨before, after, hsource, hstart, hlength⟩, hbreak⟩
  · calc span.stop
        = byteLength before + byteLength text := hstop
      _ ≤ byteLength before + byteLength text + byteLength after := Nat.le_add_right _ _
      _ = byteLength source.toList := by rw [hsource, byteLength_append, byteLength_append]
      _ = source.utf8ByteSize := byteLength_toList source
  · refine String.Pos.Raw.isValid_iff_exists_append.mpr
      ⟨String.ofList before, String.ofList (text ++ after), ?_, ?_⟩
    · rw [String.ofList_append, ← String.append_assoc]
      exact hparts
    · exact String.Pos.Raw.ext (hstart.trans (hsize before).symm)
  · refine String.Pos.Raw.isValid_iff_exists_append.mpr
      ⟨String.ofList (before ++ text), String.ofList after, ?_, ?_⟩
    · rw [String.ofList_append]
      exact hparts
    · refine String.Pos.Raw.ext (hstop.trans ?_)
      rw [← byteLength_append]
      exact (hsize (before ++ text)).symm

end Span

/-! ## Lines -/

/-- Every piece that a text is cut into is a line, with or without its line break. -/
theorem break_of_mem_splitLines {text piece : List Char} (h : piece ∈ splitLines text) :
    ∃ line, '\n' ∉ line ∧ (piece = line ∨ piece = line ++ ['\n']) := by
  induction text generalizing piece with
  | nil => cases h
  | cons c rest ih =>
      unfold splitLines at h
      by_cases hc : c = '\n'
      · rw [if_pos (beq_iff_eq.mpr hc)] at h
        rcases List.mem_cons.mp h with rfl | hmem
        · exact ⟨[], List.not_mem_nil, Or.inr (by rw [hc]; rfl)⟩
        · exact ih hmem
      · rw [if_neg (by simpa using hc)] at h
        have hfirst : ∀ line, '\n' ∉ line → '\n' ∉ c :: line := fun line hline hmem =>
          (List.mem_cons.mp hmem).elim (fun heq => hc heq.symm) hline
        cases hrest : splitLines rest with
        | nil =>
            rw [hrest] at h
            rw [List.mem_singleton.mp h]
            exact ⟨[c], hfirst [] List.not_mem_nil, Or.inl rfl⟩
        | cons first more =>
            rw [hrest] at h ih
            rcases List.mem_cons.mp h with rfl | hmem
            · -- the first piece has one more character at its front
              obtain ⟨line, hline, hpiece⟩ := ih List.mem_cons_self
              refine ⟨c :: line, hfirst line hline, ?_⟩
              rcases hpiece with rfl | rfl
              · exact Or.inl rfl
              · exact Or.inr rfl
            · exact ih (List.mem_cons_of_mem _ hmem)

theorem break_not_mem_dropLineEnding {text piece : List Char} (h : piece ∈ splitLines text) :
    '\n' ∉ dropLineEnding piece := by
  obtain ⟨line, hline, rfl | rfl⟩ := break_of_mem_splitLines h
  · exact fun hmem => hline (dropLineEnding_subset piece hmem)
  · rw [dropLineEnding_break]
    exact fun hmem => hline (dropLineEnding_subset line hmem)

theorem exists_around_of_mem_linesFrom {offset : Nat} {pieces : List (List Char)}
    {line : SourceLine} (h : line ∈ linesFrom offset pieces) :
    ∃ before piece after, pieces = before ++ piece :: after ∧
      line = ⟨offset + byteLength before.flatten, dropLineEnding piece⟩ := by
  induction pieces generalizing offset with
  | nil => cases h
  | cons first pieces ih =>
      rcases List.mem_cons.mp h with rfl | hmem
      · exact ⟨[], first, pieces, rfl, rfl⟩
      · obtain ⟨before, piece, after, rfl, rfl⟩ := ih hmem
        refine ⟨first :: before, piece, after, rfl, ?_⟩
        rw [List.flatten_cons, byteLength_append, Nat.add_assoc]

/-- A line is a part of its source, starts at its offset, and has no line break. -/
theorem exists_around_of_mem_sourceLines {source : String} {line : SourceLine}
    (h : line ∈ sourceLines source) :
    '\n' ∉ line.text ∧ ∃ before after, source.toList = before ++ line.text ++ after ∧
      line.offset = byteLength before := by
  obtain ⟨before, piece, after, hpieces, rfl⟩ := exists_around_of_mem_linesFrom h
  have hmem : piece ∈ splitLines source.toList := by
    rw [hpieces]
    exact List.mem_append_right _ List.mem_cons_self
  obtain ⟨ending, hending, -⟩ := exists_dropLineEnding piece
  refine ⟨break_not_mem_dropLineEnding hmem, before.flatten, ending ++ after.flatten, ?_,
    Nat.zero_add _⟩
  calc source.toList
      = (before ++ piece :: after).flatten := by rw [← hpieces, flatten_splitLines]
    _ = before.flatten ++ (dropLineEnding piece ++ ending ++ after.flatten) := by
        rw [List.flatten_append, List.flatten_cons, ← hending]
    _ = before.flatten ++ dropLineEnding piece ++ (ending ++ after.flatten) := by
        simp only [List.append_assoc]

namespace SourceLine

/-- A byte of the source where a character of a line starts, or where the line stops. -/
def Bounds (line : SourceLine) (byte : Nat) : Prop :=
  ∃ before after, line.text = before ++ after ∧ byte = line.offset + byteLength before

/-- A line covers a place if it is made of characters of the line. -/
def Covers (line : SourceLine) (span : Span) : Prop :=
  line.Bounds span.start ∧ line.Bounds span.stop

variable {source : String} {line : SourceLine} {span : Span}

/-- What a line covers is a part of the line. -/
theorem Covers.exists_around (h : line.Covers span) :
    ∃ before text after, line.text = before ++ text ++ after ∧
      span.start = line.offset + byteLength before ∧ span.length = byteLength text := by
  obtain ⟨⟨before, rest, hrest, hstart⟩, front, after, hfront, hstop⟩ := h
  have hsum : span.stop = span.start + span.length := rfl
  obtain ⟨text, rfl, -⟩ := exists_between_of_byteLength_le hrest hfront (by omega)
  rw [byteLength_append] at hstop
  exact ⟨before, text, after, hfront, hstart, by omega⟩

/-- A text of a line is the same text of the source. -/
theorem marks_of_around (hline : line ∈ sourceLines source) {before text after : List Char}
    (htext : line.text = before ++ text ++ after)
    (hstart : span.start = line.offset + byteLength before) (hlength : span.length = byteLength text) :
    span.Marks source.toList text := by
  obtain ⟨-, front, back, hsource, hoffset⟩ := exists_around_of_mem_sourceLines hline
  refine ⟨front ++ before, after ++ back, ?_, ?_, hlength⟩
  · rw [hsource, htext]
    simp only [List.append_assoc]
  · rw [hstart, hoffset, byteLength_append]

/-- What a line of a source covers is a place in the source. -/
theorem isPlaceIn_of_covers (hline : line ∈ sourceLines source) (h : line.Covers span) :
    span.IsPlaceIn source := by
  obtain ⟨before, text, after, htext, hstart, hlength⟩ := h.exists_around
  have hbreak : '\n' ∉ text := by
    intro hmem
    refine (exists_around_of_mem_sourceLines hline).1 ?_
    rw [htext]
    exact List.mem_append_left _ (List.mem_append_right _ hmem)
  exact (marks_of_around hline htext hstart hlength).isPlaceIn hbreak

/-! ### Places that a line covers -/

theorem covers_char {before after : List Char} {c : Char}
    (htext : line.text = before ++ c :: after) :
    line.Covers ⟨line.offset + byteLength before, c.utf8Size⟩ := by
  refine ⟨⟨before, c :: after, htext, rfl⟩, before ++ [c], after, by simp [htext], ?_⟩
  have hone : byteLength [c] = c.utf8Size := Nat.add_zero _
  rw [byteLength_append, hone, ← Nat.add_assoc]
  rfl

theorem Covers.atEnd (h : line.Covers span) : line.Covers span.atEnd :=
  ⟨h.2, h.2⟩

theorem Covers.cover {other : Span} (h : line.Covers span) (hother : line.Covers other) :
    line.Covers (span.cover other) := by
  have hstop : (span.cover other).stop = max span.stop other.stop := by
    simp only [Span.cover, Span.ofBounds, Span.stop]
    omega
  constructor
  · show line.Bounds (min span.start other.start)
    rcases Nat.le_total span.start other.start with hle | hle
    · rw [Nat.min_eq_left hle]
      exact h.1
    · rw [Nat.min_eq_right hle]
      exact hother.1
  · rw [hstop]
    rcases Nat.le_total span.stop other.stop with hle | hle
    · rw [Nat.max_eq_right hle]
      exact hother.2
    · rw [Nat.max_eq_left hle]
      exact h.2

end SourceLine

end BufferPromotion
