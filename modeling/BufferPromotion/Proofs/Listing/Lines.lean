import BufferPromotion.Proofs.Listing.Lexing
import BufferPromotion.Proofs.Source.Line

/-! # Lines of a printed listing

A text that is printed line by line is cut into these lines again, and none of them has a
comment, since plain lexemes have neither line endings nor slashes.
-/

set_option autoImplicit false

namespace BufferPromotion

/-- A text with neither line endings nor slashes. -/
def IsClean (text : List Char) : Prop := ∀ c ∈ text, isLineEnding c = false ∧ c ≠ '/'

/-! ## Cutting -/

theorem IsClean.break_not_mem {line : List Char} (h : IsClean line) : '\n' ∉ line :=
  fun hmem => Bool.noConfusion (h '\n' hmem).1

theorem dropLineEnding_of_clean {line : List Char} (h : IsClean line) :
    dropLineEnding line = line := by
  have hlast : line.reverse.dropWhile isLineEnding = line.reverse := by
    cases hreverse : line.reverse with
    | nil => rfl
    | cons c rest =>
        have hc : isLineEnding c = false :=
          (h c (List.mem_reverse.mp (hreverse ▸ List.mem_cons_self))).1
        rw [List.dropWhile_cons_of_neg (by rw [hc]; exact Bool.false_ne_true)]
  unfold dropLineEnding
  rw [hlast, List.reverse_reverse]

/-- Lines that are printed one after the other are the lines of the text. -/
theorem map_text_linesFrom {lines : List (List Char)} (h : ∀ line ∈ lines, IsClean line)
    (offset : Nat) :
    (linesFrom offset (splitLines (lines.flatMap (· ++ ['\n'])))).map (·.text) = lines := by
  induction lines generalizing offset with
  | nil => rfl
  | cons line lines ih =>
      have hline := h line List.mem_cons_self
      rw [List.flatMap_cons, List.append_assoc, List.singleton_append,
        splitLines_break hline.break_not_mem, linesFrom, List.map_cons, dropLineEnding_break,
        dropLineEnding_of_clean hline, ih fun other hother => h other (List.mem_cons_of_mem _ hother)]

/-- A character that does not start a comment is kept. -/
theorem dropComment_cons {c : Char} {rest : List Char}
    (h : ¬ (c = '/' ∧ rest.head? = some '/')) :
    dropComment (c :: rest) = c :: dropComment rest := by
  rw [dropComment]
  rintro more rfl rfl
  exact h ⟨rfl, rfl⟩

theorem dropComment_append {front : List Char} (hfront : '/' ∉ front) (rest : List Char) :
    dropComment (front ++ rest) = front ++ dropComment rest := by
  induction front with
  | nil => rfl
  | cons c front ih =>
      rw [List.mem_cons, not_or] at hfront
      rw [List.cons_append, dropComment_cons fun h => hfront.1 h.1.symm, ih hfront.2]
      rfl

theorem dropComment_of_clean {line : List Char} (h : IsClean line) : dropComment line = line := by
  have hslash : '/' ∉ line := fun hmem => (h '/' hmem).2 rfl
  have hdrop := dropComment_append hslash []
  rw [List.append_nil] at hdrop
  exact hdrop.trans (List.append_nil line)

/-- What is added behind a text goes with its comment, if it has one. -/
theorem dropComment_append_or (text : List Char) {back : List Char} (hback : '/' ∉ back) :
    dropComment (text ++ back) = dropComment text ∨
      dropComment (text ++ back) = dropComment text ++ back := by
  fun_induction dropComment text with
  | case1 =>
      have hdrop := dropComment_append hback []
      rw [List.append_nil] at hdrop
      exact Or.inr (hdrop.trans (List.append_nil back))
  | case2 rest => exact Or.inl rfl
  | case3 c rest hslash ih =>
      have hcomment : ¬ (c = '/' ∧ (rest ++ back).head? = some '/') := by
        rintro ⟨rfl, hhead⟩
        cases rest with
        | nil => exact hback (List.mem_of_mem_head? hhead)
        | cons d rest =>
            have hd : d = '/' := Option.some.inj hhead
            exact hslash rest rfl (by rw [hd])
      rw [List.cons_append, dropComment_cons hcomment]
      exact ih.imp (congrArg (List.cons c)) (congrArg (List.cons c))

/-! ## Lexemes are clean -/

theorem IsClean.append {first second : List Char} (h : IsClean first) (h' : IsClean second) :
    IsClean (first ++ second) := by
  intro c hc
  rcases List.mem_append.mp hc with hc | hc
  · exact h c hc
  · exact h' c hc

theorem isClean_of_belongsToWord {text : List Char}
    (h : ∀ c ∈ text, Lexeme.belongsToWord c = true) : IsClean text := by
  intro c hc
  have hword := h c hc
  have hne : ∀ sign : Char, Lexeme.belongsToWord sign = false → c ≠ sign := by
    rintro sign hsign rfl
    rw [hword] at hsign
    cases hsign
  refine ⟨?_, hne '/' (by decide)⟩
  simp [isLineEnding, hne '\n' (by decide), hne '\r' (by decide)]

theorem Lexeme.Plain.isClean {lexeme : Lexeme} (h : lexeme.Plain) :
    IsClean lexeme.text.toList := by
  have hsign : ∀ sign : Char, isLineEnding sign = false → sign ≠ '/' → IsClean [sign] := by
    intro sign hending hslash c hc
    rw [List.mem_singleton.mp hc]
    exact ⟨hending, hslash⟩
  cases lexeme with
  | word text => exact isClean_of_belongsToWord h.chars
  | value name =>
      show IsClean ("%" ++ name).toList
      rw [String.toList_append]
      exact (hsign '%' (by decide) (by decide)).append (isClean_of_belongsToWord h)
  | comma => exact hsign ',' (by decide) (by decide)
  | colon => exact hsign ':' (by decide) (by decide)
  | equals => exact hsign '=' (by decide) (by decide)
  | question => exact hsign '?' (by decide) (by decide)

theorem Lexeme.Plain.isClean_spaced {lexeme : Lexeme} (h : lexeme.Plain) :
    IsClean lexeme.spaced := by
  have hblank : IsClean [' '] := by
    intro c hc
    rw [List.mem_singleton.mp hc]
    decide
  cases lexeme with
  | comma => exact h.isClean
  | word text | value name | colon | equals | question => exact hblank.append h.isClean

/-- A line of plain lexemes is clean. -/
theorem isClean_line {first : Lexeme} {rest : List Lexeme} (hfirst : first.Plain)
    (hrest : ∀ lexeme ∈ rest, lexeme.Plain) :
    IsClean (first.text.toList ++ rest.flatMap Lexeme.spaced) := by
  refine hfirst.isClean.append fun c hc => ?_
  obtain ⟨lexeme, hlexeme, hc⟩ := List.mem_flatMap.mp hc
  exact (hrest lexeme hlexeme).isClean_spaced c hc

end BufferPromotion
