import BufferPromotion.Proofs.Listing.Relocation.Line
import BufferPromotion.Proofs.Listing.Report

/-! # What a moved line does

A line that has been moved does what it did before, at its new place (`lineEffect_relocate`). This
has two uses. A line that starts later does the same later (`lineEffect_shift`). And a line points
at places of its own: if all its characters are at good places, then a move that keeps good places
where they are, and no others, changes neither the line nor what it reports
(`good_of_mem_entries`). The same is said of the places that are remembered from lines before it
(`places_of_mem_entries`, `Remembers.readLine`).
-/

set_option autoImplicit false

namespace BufferPromotion

/-- The effect of a line at another place. -/
def LineEffect.relocate (now past : Span → Span) : LineEffect → LineEffect
  | .nothing => .nothing
  | .refused warnings diagnostic =>
      .refused (warnings.map (Diagnostic.relocate now past)) (diagnostic.relocate now past)
  | .opened name line => .opened name (past line)
  | .accepted warnings draft =>
      .accepted (warnings.map (Diagnostic.relocate now past)) (draft.relocate past)

/-- An entry of a report at another place. -/
def relocateEntry (now past : Span → Span) (entry : Severity × Diagnostic) :
    Severity × Diagnostic :=
  (entry.1, entry.2.relocate now past)

theorem LineEffect.entries_relocate (now past : Span → Span) (effect : LineEffect) :
    (effect.relocate now past).entries = effect.entries.map (relocateEntry now past) := by
  cases effect with
  | nothing | opened name line => rfl
  | refused warnings diagnostic => simp [relocate, entries, relocateEntry]
  | accepted warnings draft => simp [relocate, entries, relocateEntry]

namespace Reading

variable {now past : Span → Span}

/-! ## Any move -/

section Tokens

variable {line : Span} (hend : now line.atEnd = (now line).atEnd) (hline : past line = now line)

include hend

theorem readKernelName_relocate (tokens : List Token) :
    readKernelName (now line) (tokens.map (Token.relocate now)) =
      relocated now past (Word.relocate now) (readKernelName line tokens) := by
  unfold readKernelName
  rw [expectWord_relocate hend]
  refine relocated_bind_rest fun name tokens => ?_
  dsimp only
  rw [Draft.expectEnd_relocate]
  exact relocated_bind fun _ => rfl

include hline

theorem effect_relocate (draft : Draft) (first : Token) (tokens : List Token) :
    (draft.relocate past).effect (now line) (first.relocate now)
        (tokens.map (Token.relocate now)) =
      (draft.effect line first tokens).relocate now past := by
  have hread : Draft.readLine (now line) (first.relocate now) (tokens.map (Token.relocate now))
      ⟨draft.relocate past, []⟩ = _ := Draft.readLine_relocate hend hline ⟨draft, []⟩ first tokens
  unfold Draft.effect
  rw [hread]
  cases Draft.readLine line first tokens ⟨draft, []⟩ <;> rfl

theorem tokensEffect_relocate (current : Option Draft) (first : Token) (tokens : List Token) :
    tokensEffect (current.map (Draft.relocate past)) (now line) (first.relocate now)
        (tokens.map (Token.relocate now)) =
      (tokensEffect current line first tokens).relocate now past := by
  have hlexeme : (first.relocate now).lexeme = first.lexeme := rfl
  have hname : readKernelName (now line) (tokens.map (Token.relocate now)) =
      relocated now past (Word.relocate now) (readKernelName line tokens) :=
    readKernelName_relocate hend tokens
  unfold tokensEffect
  rw [hlexeme, hname]
  by_cases hkernel : first.lexeme = .word "kernel"
  · rw [if_pos hkernel, if_pos hkernel]
    cases readKernelName line tokens with
    | error diagnostic => rfl
    | ok name => exact congrArg (LineEffect.opened name.text) hline.symm
  · rw [if_neg hkernel, if_neg hkernel]
    cases current with
    | none => rfl
    | some draft => exact effect_relocate hend hline draft first tokens

end Tokens

/-- What a line does at its new place, if that is where its tokens and the line have moved to. -/
theorem lineEffect_relocate {line line' : SourceLine}
    (htokens : tokensOfLine line' =
      relocated now past (List.map (Token.relocate now)) (tokensOfLine line))
    (hspan : ∀ first tokens, tokensOfLine line = .ok (first :: tokens) →
      let span := lineSpan first tokens
      lineSpan (first.relocate now) (tokens.map (Token.relocate now)) = now span ∧
        now span.atEnd = (now span).atEnd ∧ past span = now span)
    (current : Option Draft) :
    lineEffect (current.map (Draft.relocate past)) line' =
      (lineEffect current line).relocate now past := by
  unfold lineEffect
  rw [htokens]
  cases hread : tokensOfLine line with
  | error diagnostic => rfl
  | ok tokens =>
      cases tokens with
      | nil => rfl
      | cons first tokens =>
          obtain ⟨hmoved, hend, hline⟩ := hspan first tokens hread
          show tokensEffect _ (lineSpan (first.relocate now) (tokens.map (Token.relocate now))) _ _ =
            _
          rw [hmoved]
          exact tokensEffect_relocate hend hline current first tokens

/-! ## Lines that start later -/

/-- A line that starts later does the same later. -/
theorem lineEffect_shift (bytes : Nat) (current : Option Draft) (line : SourceLine) :
    lineEffect (current.map (Draft.relocate (Span.shift bytes))) (line.shift bytes) =
      (lineEffect current line).relocate (Span.shift bytes) (Span.shift bytes) :=
  lineEffect_relocate (tokensOfLine_shift _ line)
    (fun first tokens _ => ⟨lineSpan_shift first tokens, Span.atEnd_shift _, rfl⟩) current

/-! ## Good places -/

/-- A property of places that also holds of the places that are made of them. -/
structure KeepsPlaces (good : Span → Prop) : Prop where
  cover : ∀ a b, good a → good b → good (a.cover b)
  atEnd : ∀ a, good a → good a.atEnd

theorem KeepsPlaces.lineSpan {good : Span → Prop} (h : KeepsPlaces good) {first : Token}
    {tokens : List Token} (hfirst : good first.span) (htokens : ∀ token ∈ tokens, good token.span) :
    good (lineSpan first tokens) := by
  have hall : ∀ token ∈ first :: tokens, good token.span :=
    List.forall_mem_cons.mpr ⟨hfirst, htokens⟩
  exact h.cover _ _ hfirst (hall _ List.getLastD_mem_cons)

open Classical in
/-- A move that keeps good places, and no others. -/
noncomputable def keepGood (good : Span → Prop) (span : Span) : Span :=
  if good span then span else span.shift 1

theorem keepGood_eq_iff {good : Span → Prop} {span : Span} :
    keepGood good span = span ↔ good span := by
  unfold keepGood
  by_cases hgood : good span
  · rw [if_pos hgood]
    exact iff_of_true rfl hgood
  · rw [if_neg hgood]
    refine iff_of_false (fun heq => ?_) hgood
    have hstart : 1 + span.start = span.start := congrArg Span.start heq
    omega

/-- A diagnostic stays as it is if and only if what it points at is good, and what its labels point
at is known. -/
theorem relocate_keepGood_iff {good known : Span → Prop} {diagnostic : Diagnostic} :
    diagnostic.relocate (keepGood good) (keepGood known) = diagnostic ↔
      good diagnostic.span ∧ ∀ label ∈ diagnostic.labels, known label.1 := by
  obtain ⟨problem, span, extraLabels⟩ := diagnostic
  have hproblem : problem.relocate (keepGood known) = problem ↔
      ∀ label ∈ problem.ownLabels, known label.1 := by
    cases problem with
    | repeatedName name first => simp [Problem.relocate, Problem.ownLabels, keepGood_eq_iff]
    | _ => simp [Problem.relocate, Problem.ownLabels]
  have hextra : extraLabels.map (fun label => (keepGood known label.1, label.2)) = extraLabels ↔
      ∀ label ∈ extraLabels, known label.1 := by
    have hself : extraLabels.map (fun label => (keepGood known label.1, label.2)) = extraLabels ↔
        extraLabels.map (fun label => (keepGood known label.1, label.2)) = extraLabels.map id := by
      rw [List.map_id]
    rw [hself, List.map_inj_left]
    refine forall₂_congr fun label _ => ?_
    rw [← @keepGood_eq_iff known label.1, Prod.ext_iff]
    exact and_iff_left rfl
  simp only [Diagnostic.relocate, Diagnostic.mk.injEq, hproblem, hextra, keepGood_eq_iff,
    Diagnostic.labels, List.mem_append, or_imp, forall_and]
  tauto

/-- A line does the same after a move that keeps the places of its characters, and the places that
are remembered from lines before it. -/
theorem relocate_keepGood_lineEffect {good known : Span → Prop} (h : KeepsPlaces good)
    (hknown : ∀ span, good span → known span) {line : SourceLine}
    (hchars : ∀ before c after, dropComment line.text = before ++ c :: after →
      good ⟨line.offset + byteLength before, c.utf8Size⟩) {current : Option Draft}
    (hcurrent : current.map (Draft.relocate (keepGood known)) = current) :
    (lineEffect current line).relocate (keepGood good) (keepGood known) =
      lineEffect current line := by
  obtain ⟨htokens, herror⟩ := places_of_tokensFrom h.cover hchars
  have hfixed : ∀ token : Token, good token.span → token.relocate (keepGood good) = token := by
    intro token hgood
    unfold Token.relocate
    rw [keepGood_eq_iff.mpr hgood]
  have hfixedAll : ∀ tokens : List Token, (∀ token ∈ tokens, good token.span) →
      tokens.map (Token.relocate (keepGood good)) = tokens := fun tokens hgood =>
    (List.map_congr_left fun token htoken => hfixed token (hgood token htoken)).trans
      (List.map_id tokens)
  -- neither the line nor the open kernel is moved, so neither is what the line does
  rw [← @lineEffect_relocate (keepGood good) (keepGood known) line line ?_ ?_ current, hcurrent]
  · unfold tokensOfLine
    cases hread : tokensFrom line.offset (dropComment line.text) with
    | error diagnostic =>
        obtain ⟨hgood, hlabels⟩ := herror _ hread
        have hsame : diagnostic.relocate (keepGood good) (keepGood known) = diagnostic :=
          relocate_keepGood_iff.mpr ⟨hgood, by rw [hlabels]; exact List.forall_mem_nil _⟩
        exact congrArg Except.error hsame.symm
    | ok tokens => exact congrArg Except.ok (hfixedAll tokens (htokens tokens hread)).symm
  · intro first tokens hread
    obtain ⟨hfirst, hrest⟩ := List.forall_mem_cons.mp (htokens _ hread)
    have hgood : good (lineSpan first tokens) := h.lineSpan hfirst hrest
    have hspan := keepGood_eq_iff.mpr hgood
    have hatEnd := keepGood_eq_iff.mpr (h.atEnd _ hgood)
    refine ⟨?_, ?_, ?_⟩
    · rw [hfixed first hfirst, hfixedAll tokens hrest, hspan]
    · rw [hspan, hatEnd]
    · rw [hspan]
      exact keepGood_eq_iff.mpr (hknown _ hgood)

/-- A line reports problems at good places, if its characters are at good places, and the labels
point at places that are known. -/
theorem places_of_mem_entries {good known : Span → Prop} (h : KeepsPlaces good)
    (hknown : ∀ span, good span → known span) {line : SourceLine}
    (hchars : ∀ before c after, dropComment line.text = before ++ c :: after →
      good ⟨line.offset + byteLength before, c.utf8Size⟩) {current : Option Draft}
    (hcurrent : current.map (Draft.relocate (keepGood known)) = current) :
    ∀ entry ∈ (lineEffect current line).entries,
      good entry.2.span ∧ ∀ label ∈ entry.2.labels, known label.1 := by
  intro entry hentry
  have hentries : (lineEffect current line).entries.map
      (relocateEntry (keepGood good) (keepGood known)) =
        (lineEffect current line).entries.map id := by
    rw [← LineEffect.entries_relocate, relocate_keepGood_lineEffect h hknown hchars hcurrent,
      List.map_id]
  exact relocate_keepGood_iff.mp (congrArg Prod.snd (List.map_inj_left.mp hentries entry hentry))

/-- A line reports problems at good places, if its characters are at good places. -/
theorem good_of_mem_entries {good : Span → Prop} (h : KeepsPlaces good) {line : SourceLine}
    (hchars : ∀ before c after, dropComment line.text = before ++ c :: after →
      good ⟨line.offset + byteLength before, c.utf8Size⟩) (current : Option Draft) :
    ∀ entry ∈ (lineEffect current line).entries, good entry.2.span := by
  -- every place is known, so no open kernel is moved
  have hall : keepGood (fun _ => True) = id := funext fun _ => keepGood_eq_iff.mpr trivial
  have hcurrent : current.map (Draft.relocate (keepGood fun _ => True)) = current := by
    rw [hall]
    cases current with
    | none => rfl
    | some draft => exact congrArg some draft.relocate_id
  intro entry hentry
  exact (places_of_mem_entries h (fun _ _ => trivial) hchars hcurrent entry hentry).1

/-! ### Readings that remember known places -/

/-- The places that the open kernel remembers are all known. -/
def Remembers (known : Span → Prop) (reading : Reading) : Prop :=
  reading.current.map (Draft.relocate (keepGood known)) = reading.current

theorem remembers_start (known : Span → Prop) : start.Remembers known := rfl

/-- A line whose characters are at known places adds no other places to those remembered. -/
theorem Remembers.readLine {good known : Span → Prop} {reading : Reading}
    (hremembers : reading.Remembers known) (hsound : reading.Sound) (h : KeepsPlaces good)
    (hknown : ∀ span, good span → known span) {line : SourceLine}
    (hchars : ∀ before c after, dropComment line.text = before ++ c :: after →
      good ⟨line.offset + byteLength before, c.utf8Size⟩) :
    (reading.readLine line).Remembers known := by
  have hsame := relocate_keepGood_lineEffect h hknown hchars hremembers
  unfold Remembers at hremembers ⊢
  rw [readLine_eq hsound]
  cases heffect : lineEffect reading.current line with
  | nothing | refused warnings diagnostic => exact hremembers
  | opened name span =>
      rw [heffect] at hsame
      have hspan : keepGood known span = span := (LineEffect.opened.inj hsame).2
      have hdraft := @Draft.opened_relocate (keepGood known) name span
      rw [hspan] at hdraft
      exact congrArg some hdraft.symm
  | accepted warnings draft =>
      rw [heffect] at hsame
      exact congrArg some (LineEffect.accepted.inj hsame).2

end Reading

end BufferPromotion
