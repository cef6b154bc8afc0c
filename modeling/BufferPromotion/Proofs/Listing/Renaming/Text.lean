import BufferPromotion.Proofs.Listing.Places
import Mathlib.Data.Set.Function

/-! # Sources with renamed values

A renaming replaces the name in every token `%name` and leaves everything else in a source as it
is, comments included. Texts in front of and behind a name move, and words are as long as possible,
so it is not obvious that the tokens are the same but for the names. The part of it that is about
texts is here: the lines of the new source are the old lines with their names replaced
(`forall₂_sourceLines`), and their comments start where the old ones did (`dropComment_line`).
-/

set_option autoImplicit false

namespace BufferPromotion

/-- Other words in place of the words that name values; no two words become the same. -/
structure Renaming where
  word : String → String
  isWord : ∀ name, IsWord name → IsWord (word name)
  injOn : Set.InjOn word {name | IsWord name}

namespace Renaming

variable (r : Renaming)

/-! ## Names -/

/-- The new name of a value. What is no word stays, in particular the empty name. -/
def name (name : String) : String := if IsWord name then r.word name else name

variable {r} {name other : String}

theorem isWord_name_iff : IsWord (r.name name) ↔ IsWord name := by
  unfold Renaming.name
  split
  · next hword => exact iff_of_true (r.isWord name hword) hword
  · exact Iff.rfl

/-- Different names stay different. -/
theorem name_injective : Function.Injective r.name := by
  intro first second heq
  have hword : IsWord first ↔ IsWord second := by
    rw [← @isWord_name_iff r first, heq, isWord_name_iff]
  unfold Renaming.name at heq
  by_cases hfirst : IsWord first
  · rw [if_pos hfirst, if_pos (hword.mp hfirst)] at heq
    exact r.injOn hfirst (hword.mp hfirst) heq
  · rw [if_neg hfirst, if_neg (mt hword.mpr hfirst)] at heq
    exact heq

theorem name_empty : r.name "" = "" := if_neg fun h => h.nonempty rfl

theorem isEmpty_name : (r.name name).isEmpty = name.isEmpty := by
  have hiff : r.name name = "" ↔ name = "" := by
    constructor
    · exact fun h => name_injective (h.trans name_empty.symm)
    · rintro rfl
      exact name_empty
  rw [Bool.eq_iff_iff, String.isEmpty_iff, String.isEmpty_iff, hiff]

/-- A new name has the characters of words if the old name has. -/
theorem chars_name (h : ∀ c ∈ name.toList, Lexeme.belongsToWord c = true) :
    ∀ c ∈ (r.name name).toList, Lexeme.belongsToWord c = true := by
  by_cases hempty : name.toList = []
  · rw [String.toList_eq_nil_iff.mp hempty, name_empty]
    exact nofun
  · exact (isWord_name_iff.mpr ⟨hempty, h⟩).chars

variable (r)

/-! ## Lexemes and texts -/

/-- A lexeme with its name replaced, if it is a value. -/
def lexeme : Lexeme → Lexeme
  | .value name => .value (r.name name)
  | lexeme => lexeme

/-- A line with its names replaced. The characters of an old name are left out once the new one
has been written. -/
def line (inName : Bool) : List Char → List Char
  | [] => []
  | '/' :: '/' :: comment => '/' :: '/' :: comment
  | c :: rest =>
      if c = '%' then
        let old := rest.takeWhile Lexeme.belongsToWord
        '%' :: (r.name (String.ofList old)).toList ++ line true rest
      else if inName && Lexeme.belongsToWord c then line true rest
      else c :: line false rest

/-- A source with the names of all its values replaced. -/
def source (source : String) : String :=
  String.ofList ((splitLines source.toList).flatMap (r.line false))

variable {r} {c : Char} {word rest text : List Char}

/-! ## Parts of a line -/

theorem line_cons {inName : Bool} (h : ¬ (c = '/' ∧ rest.head? = some '/')) :
    r.line inName (c :: rest) =
      if c = '%' then
        '%' :: (r.name (String.ofList (rest.takeWhile Lexeme.belongsToWord))).toList ++
          r.line true rest
      else if inName && Lexeme.belongsToWord c then r.line true rest
      else c :: r.line false rest := by
  rw [line]
  rintro more rfl rfl
  exact h ⟨rfl, rfl⟩

/-- A character that starts neither a name nor a comment is kept. -/
theorem line_char (hc : c ≠ '%') (h : ¬ (c = '/' ∧ rest.head? = some '/')) :
    r.line false (c :: rest) = c :: r.line false rest := by
  rw [line_cons h, if_neg hc]
  rfl

/-- The characters of a name are left out, up to the first one that does not belong to it. -/
theorem line_inName (hword : ∀ c ∈ word, Lexeme.belongsToWord c = true)
    (hrest : Interrupts rest) : r.line true (word ++ rest) = r.line false rest := by
  induction word with
  | nil =>
      cases rest with
      | nil => rfl
      | cons c rest =>
          have hc : Lexeme.belongsToWord c = false := hrest c rfl
          by_cases hcomment : c = '/' ∧ rest.head? = some '/'
          · obtain ⟨rfl, hhead⟩ := hcomment
            obtain ⟨comment, rfl⟩ := List.head?_eq_some_iff.mp hhead
            rfl
          · rw [List.nil_append, line_cons hcomment, line_cons hcomment, hc, Bool.and_false,
              Bool.and_false]
  | cons c word ih =>
      rw [List.forall_mem_cons] at hword
      have hne : ∀ sign, Lexeme.belongsToWord sign = false → c ≠ sign := by
        rintro sign hsign rfl
        rw [hword.1] at hsign
        cases hsign
      rw [List.cons_append, line_cons fun h => hne '/' (by decide) h.1,
        if_neg (hne '%' (by decide)), hword.1, Bool.and_true, if_pos rfl, ih hword.2]

theorem line_value (hword : ∀ c ∈ word, Lexeme.belongsToWord c = true) (hrest : Interrupts rest) :
    r.line false ('%' :: word ++ rest) =
      '%' :: (r.name (String.ofList word)).toList ++ r.line false rest := by
  have hold : (word ++ rest).takeWhile Lexeme.belongsToWord = word := by
    rw [List.takeWhile_append_of_pos hword]
    cases rest with
    | nil => exact List.append_nil word
    | cons c rest =>
        have hc : ¬ Lexeme.belongsToWord c = true := Bool.eq_false_iff.mp (hrest c rfl)
        rw [List.takeWhile_cons_of_neg hc, List.append_nil]
  rw [List.cons_append, line_cons fun h => absurd h.1 (by decide), if_pos rfl, hold,
    line_inName hword hrest]

/-- A text is read from its front: it is empty or a comment, or it starts with a value, or with any
other character. -/
theorem line_induction {motive : List Char → Prop} (nil : motive [])
    (comment : ∀ rest, motive ('/' :: '/' :: rest))
    (value : ∀ word rest, (∀ c ∈ word, Lexeme.belongsToWord c = true) → Interrupts rest →
      motive rest → motive ('%' :: word ++ rest))
    (char : ∀ c rest, c ≠ '%' → ¬ (c = '/' ∧ rest.head? = some '/') → motive rest →
      motive (c :: rest)) (text : List Char) : motive text := by
  -- a name is read at once, so the induction is on the length
  induction hlength : text.length using Nat.strongRecOn generalizing text with
  | ind length ih =>
      cases text with
      | nil => exact nil
      | cons c rest =>
          have hrest : ∀ other : List Char, other.length ≤ rest.length → motive other := by
            intro other hother
            refine ih other.length ?_ other rfl
            rw [List.length_cons] at hlength
            omega
          by_cases hvalue : c = '%'
          · subst hvalue
            have hsplit : rest.takeWhile Lexeme.belongsToWord ++
                rest.dropWhile Lexeme.belongsToWord = rest := List.takeWhile_append_dropWhile
            have hinterrupts : Interrupts (rest.dropWhile Lexeme.belongsToWord) := by
              intro d hd
              have hhead := List.head?_dropWhile_not Lexeme.belongsToWord rest
              rw [Option.mem_def.mp hd] at hhead
              exact hhead
            rw [← hsplit]
            exact value _ _ (fun d hd => List.mem_takeWhile_imp hd) hinterrupts
              (hrest _ (List.dropWhile_suffix _).length_le)
          · by_cases hcomment : c = '/' ∧ rest.head? = some '/'
            · obtain ⟨rfl, hhead⟩ := hcomment
              obtain ⟨more, rfl⟩ := List.head?_eq_some_iff.mp hhead
              exact comment more
            · exact char c rest hvalue hcomment (hrest rest (Nat.le_refl _))

theorem head?_line (text : List Char) : (r.line false text).head? = text.head? := by
  induction text using line_induction with
  | nil | comment rest => rfl
  | value word rest hword hrest ih =>
      rw [line_value hword hrest]
      rfl
  | char c rest hc hcomment ih =>
      rw [line_char hc hcomment]
      rfl

theorem interrupts_line (h : Interrupts text) : Interrupts (r.line false text) := by
  unfold Interrupts
  rw [head?_line]
  exact h

/-- Characters of other kinds than those of words are not added. -/
theorem mem_line (h : c ∈ r.line false text) :
    c ∈ text ∨ Lexeme.belongsToWord c = true := by
  induction text using line_induction with
  | nil | comment rest => exact Or.inl h
  | value word rest hword hrest ih =>
      rw [line_value hword hrest, List.cons_append, List.mem_cons, List.mem_append] at h
      rcases h with rfl | hname | hrest
      · exact Or.inl List.mem_cons_self
      · refine Or.inr (chars_name ?_ c hname)
        rw [String.toList_ofList]
        exact hword
      · refine (ih hrest).imp_left fun hmem => ?_
        exact List.mem_append_right _ hmem
  | char d rest hd hcomment ih =>
      rw [line_char hd hcomment] at h
      rcases List.mem_cons.mp h with rfl | hrest
      · exact Or.inl List.mem_cons_self
      · exact (ih hrest).imp_left (List.mem_cons_of_mem d)

/-! ## Comments -/

theorem interrupts_dropComment (h : Interrupts text) : Interrupts (dropComment text) := by
  cases text with
  | nil => exact h
  | cons c rest =>
      by_cases hcomment : c = '/' ∧ rest.head? = some '/'
      · obtain ⟨rfl, hhead⟩ := hcomment
        obtain ⟨comment, rfl⟩ := List.head?_eq_some_iff.mp hhead
        exact nofun
      · rw [dropComment_cons hcomment]
        exact h

/-- A comment stays, and nothing else becomes one. -/
theorem dropComment_line (text : List Char) :
    dropComment (r.line false text) = r.line false (dropComment text) := by
  have hslash : ∀ name : List Char, (∀ c ∈ name, Lexeme.belongsToWord c = true) →
      '/' ∉ '%' :: name := by
    intro name hname hmem
    rcases List.mem_cons.mp hmem with heq | hmem
    · exact absurd heq (by decide)
    · exact absurd (hname '/' hmem) (by decide)
  induction text using line_induction with
  | nil | comment rest => rfl
  | value word rest hword hrest ih =>
      have hnew : ∀ c ∈ (r.name (String.ofList word)).toList, Lexeme.belongsToWord c = true := by
        refine chars_name ?_
        rw [String.toList_ofList]
        exact hword
      rw [line_value hword hrest, dropComment_append (hslash _ hnew), ih,
        dropComment_append (hslash _ hword), line_value hword (interrupts_dropComment hrest)]
  | char c rest hc hcomment ih =>
      have hcomment' : ¬ (c = '/' ∧ (dropComment rest).head? = some '/') := by
        rintro ⟨rfl, hhead⟩
        cases rest with
        | nil => cases hhead
        | cons d rest =>
            by_cases hd : d = '/' ∧ rest.head? = some '/'
            · exact hcomment ⟨rfl, congrArg some hd.1⟩
            · rw [dropComment_cons hd] at hhead
              exact hcomment ⟨rfl, hhead⟩
      rw [line_char hc hcomment, dropComment_cons, ih, dropComment_cons hcomment,
        line_char hc hcomment']
      rw [head?_line]
      exact hcomment

/-! ## Lines of a source -/

theorem line_append_break (text : List Char) :
    r.line false (text ++ ['\n']) = r.line false text ++ ['\n'] := by
  induction text using line_induction with
  | nil | comment rest => rfl
  | value word rest hword hrest ih =>
      have hbreak : Interrupts (rest ++ ['\n']) := by
        intro c hc
        cases rest with
        | nil =>
            rw [← Option.some.inj hc]
            decide
        | cons d rest => exact hrest c hc
      rw [List.append_assoc, line_value hword hbreak, ih, line_value hword hrest, List.append_assoc]
  | char c rest hc hcomment ih =>
      have hcomment' : ¬ (c = '/' ∧ (rest ++ ['\n']).head? = some '/') := by
        rintro ⟨rfl, hhead⟩
        cases rest with
        | nil => exact absurd (Option.some.inj hhead) (by decide)
        | cons d rest => exact hcomment ⟨rfl, hhead⟩
      rw [List.cons_append, line_char hc hcomment', ih, line_char hc hcomment]
      rfl

theorem break_not_mem_line (h : '\n' ∉ text) : '\n' ∉ r.line false text := fun hmem =>
  (mem_line hmem).elim h fun hword => absurd hword (by decide)

/-- The renamed source is cut where the source is. -/
theorem splitLines_line (text : List Char) :
    splitLines ((splitLines text).flatMap (r.line false)) =
      (splitLines text).map (r.line false) := by
  -- the first line is cut off the front, so the induction is on the length
  induction hlength : text.length using Nat.strongRecOn generalizing text with
  | ind length ih =>
      by_cases hbreak : '\n' ∈ text
      · obtain ⟨first, rest, rfl, hfirst⟩ := List.eq_append_cons_of_mem hbreak
        have hshorter : rest.length < length := by
          rw [List.length_append, List.length_cons] at hlength
          omega
        rw [splitLines_break hfirst, List.flatMap_cons, List.map_cons, line_append_break,
          List.append_assoc, List.singleton_append, splitLines_break (break_not_mem_line hfirst),
          ih rest.length hshorter rest rfl]
      · by_cases hnil : text = []
        · subst hnil
          rfl
        · have hne : r.line false text ≠ [] := by
            intro heq
            rw [← List.head?_eq_none_iff, head?_line, List.head?_eq_none_iff] at heq
            exact hnil heq
          rw [splitLines_last hbreak hnil, List.flatMap_singleton, List.map_singleton,
            splitLines_last (break_not_mem_line hbreak) hne]

theorem forall₂_linesFrom (pieces : List (List Char)) (offset offset' : Nat) :
    List.Forall₂ (fun line line' => ∃ piece, line.text = dropLineEnding piece ∧
        line'.text = dropLineEnding (r.line false piece))
      (linesFrom offset pieces) (linesFrom offset' (pieces.map (r.line false))) := by
  induction pieces generalizing offset offset' with
  | nil => exact .nil
  | cons piece pieces ih => exact .cons ⟨piece, rfl, rfl⟩ (ih _ _)

/-- The renamed source has a line for every line of the source. -/
theorem forall₂_sourceLines (source : String) :
    List.Forall₂ (fun line line' => ∃ piece, line.text = dropLineEnding piece ∧
        line'.text = dropLineEnding (r.line false piece))
      (sourceLines source) (sourceLines (r.source source)) := by
  unfold sourceLines Renaming.source
  rw [String.toList_ofList, splitLines_line]
  exact forall₂_linesFrom _ _ _

end Renaming

end BufferPromotion
