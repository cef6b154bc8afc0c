import BufferPromotion.Code.Stmt

/-! # The lines of a statement

A statement adds lines to what is written already, and leaves the writer at the depth at which it
was (`Stmt.write_eq`). So code can be described by its lines, and the lines of a statement by those
of its parts. They are well nested: between a line that opens a brace and the one that closes it,
everything is one level deeper (`Stmt.braced_lines`). For code that is well nested, the depth of a
line is the number of braces around it (`Braced.indented_append`).
-/

set_option autoImplicit false

namespace BufferPromotion

/-! ## Writing lines -/

namespace LineWriter

variable (writer : LineWriter)

/-- Some more lines, and no brace left open. -/
def append (lines : List CodeLine) : LineWriter :=
  { writer with lines := writer.lines ++ lines.toArray }

@[simp]
theorem depth_append (lines : List CodeLine) : (writer.append lines).depth = writer.depth := rfl

@[simp]
theorem append_nil : writer.append [] = writer := by simp [append]

@[simp]
theorem append_append (first second : List CodeLine) :
    (writer.append first).append second = writer.append (first ++ second) := by
  simp [append]

theorem toList_lines_append (lines : List CodeLine) :
    (writer.append lines).lines.toList = writer.lines.toList ++ lines := by
  simp [append]

theorem line_eq (text : String) : writer.line text = writer.append [⟨writer.depth, text⟩] := by
  simp [line, append]

/-- Lines between braces. -/
theorem closeBrace_openBrace (header : String) (body : List CodeLine) :
    ((writer.openBrace header).append body).closeBrace =
      writer.append (⟨writer.depth, header ++ " \x7b"⟩ :: (body ++ [⟨writer.depth, "\x7d"⟩])) := by
  simp [openBrace, closeBrace, outdent, line, append]

/-- Lines between braces, and others for the opposite case. -/
theorem closeBrace_otherwise (header : String) (body others : List CodeLine) :
    (((writer.openBrace header).append body).otherwise.append others).closeBrace =
      writer.append (⟨writer.depth, header ++ " \x7b"⟩ :: (body ++
        ⟨writer.depth, "\x7d else \x7b"⟩ :: (others ++ [⟨writer.depth, "\x7d"⟩]))) := by
  simp [openBrace, otherwise, closeBrace, outdent, line, append]

end LineWriter

namespace Stmt

/-- The lines of a statement that is written at a depth. -/
def lines (stmt : Stmt) (depth : Nat) : List CodeLine := (stmt.write ⟨#[], depth⟩).lines.toList

/-- A statement adds its lines, and closes all braces that it opens. -/
theorem write_eq (stmt : Stmt) (writer : LineWriter) :
    stmt.write writer = writer.append (stmt.lines writer.depth) := by
  -- the parts of a statement add the same to any writer as to one that is empty
  induction stmt generalizing writer with
  | skip => exact writer.append_nil.symm
  | seq first second hfirst hsecond =>
      show second.write (first.write writer) =
        writer.append (second.write (first.write ⟨#[], writer.depth⟩)).lines.toList
      rw [hfirst writer, hsecond, hfirst ⟨#[], writer.depth⟩, hsecond, LineWriter.append_append,
        LineWriter.append_append, LineWriter.toList_lines_append]
      rfl
  | declare | assign | effect | sharedArray => exact writer.line_eq _
  | loop var bound step body hbody | «when» condition body hbody =>
      show (body.write (writer.openBrace _)).closeBrace =
        writer.append (body.write (LineWriter.openBrace ⟨#[], writer.depth⟩ _)).closeBrace.lines.toList
      rw [hbody (writer.openBrace _), hbody (LineWriter.openBrace ⟨#[], writer.depth⟩ _),
        LineWriter.closeBrace_openBrace, LineWriter.closeBrace_openBrace,
        LineWriter.toList_lines_append]
      rfl
  | choose condition body otherwise hbody hotherwise =>
      show (otherwise.write (body.write (writer.openBrace _)).otherwise).closeBrace =
        writer.append (otherwise.write
          (body.write (LineWriter.openBrace ⟨#[], writer.depth⟩ _)).otherwise).closeBrace.lines.toList
      rw [hbody (writer.openBrace _), hotherwise,
        hbody (LineWriter.openBrace ⟨#[], writer.depth⟩ _), hotherwise,
        LineWriter.closeBrace_otherwise, LineWriter.closeBrace_otherwise,
        LineWriter.toList_lines_append]
      rfl

section Lines

variable (depth : Nat)

@[simp]
theorem lines_skip : skip.lines depth = [] := rfl

@[simp]
theorem lines_seq (first second : Stmt) :
    (seq first second).lines depth = first.lines depth ++ second.lines depth := by
  show (second.write (first.write _)).lines.toList = _
  rw [first.write_eq, second.write_eq, LineWriter.append_append, LineWriter.toList_lines_append]
  rfl

@[simp]
theorem lines_declare (type name : String) (value : Expr) :
    (declare type name value).lines depth =
      [⟨depth, type ++ " " ++ name ++ " = " ++ value.text ++ ";"⟩] := rfl

@[simp]
theorem lines_assign (place value : Expr) :
    (assign place value).lines depth = [⟨depth, place.text ++ " = " ++ value.text ++ ";"⟩] := rfl

@[simp]
theorem lines_effect (expr : Expr) :
    (effect expr).lines depth = [⟨depth, expr.text ++ ";"⟩] := rfl

@[simp]
theorem lines_sharedArray (elem name : String) (rows columns : Nat) :
    (sharedArray elem name rows columns).lines depth =
      [⟨depth, "__shared__ " ++ elem ++ " " ++ name ++ "[" ++ rows.repr ++ "][" ++ columns.repr ++
        "];"⟩] := rfl

@[simp]
theorem lines_loop (var : String) (bound : Nat) (step : LoopStep) (body : Stmt) :
    (loop var bound step body).lines depth =
      ⟨depth, "for (int " ++ var ++ " = 0; " ++ var ++ " < " ++ bound.repr ++ "; " ++
          step.text var ++ ")" ++ " \x7b"⟩ ::
        (body.lines (depth + 1) ++ [⟨depth, "\x7d"⟩]) := by
  show (body.write (LineWriter.openBrace _ _)).closeBrace.lines.toList = _
  rw [body.write_eq, LineWriter.closeBrace_openBrace, LineWriter.toList_lines_append]
  rfl

@[simp]
theorem lines_when (condition : Expr) (body : Stmt) :
    (Stmt.when condition body).lines depth =
      ⟨depth, "if (" ++ condition.text ++ ")" ++ " \x7b"⟩ ::
        (body.lines (depth + 1) ++ [⟨depth, "\x7d"⟩]) := by
  show (body.write (LineWriter.openBrace _ _)).closeBrace.lines.toList = _
  rw [body.write_eq, LineWriter.closeBrace_openBrace, LineWriter.toList_lines_append]
  rfl

@[simp]
theorem lines_choose (condition : Expr) (body otherwise : Stmt) :
    (choose condition body otherwise).lines depth =
      ⟨depth, "if (" ++ condition.text ++ ")" ++ " \x7b"⟩ :: (body.lines (depth + 1) ++
        ⟨depth, "\x7d else \x7b"⟩ ::
          (otherwise.lines (depth + 1) ++ [⟨depth, "\x7d"⟩])) := by
  show (otherwise.write
    (body.write (LineWriter.openBrace _ _)).otherwise).closeBrace.lines.toList = _
  rw [body.write_eq, otherwise.write_eq, LineWriter.closeBrace_otherwise,
    LineWriter.toList_lines_append]
  rfl

/-- A sequence of statements has the lines of all of them. -/
@[simp]
theorem lines_all (stmts : List Stmt) :
    (all stmts).lines depth = stmts.flatMap fun stmt => stmt.lines depth := by
  induction stmts with
  | nil => rfl
  | cons stmt stmts ih =>
      rw [List.flatMap_cons, ← ih]
      exact lines_seq depth stmt (all stmts)

end Lines

/-- Statements that are written one after the other add all their lines. -/
theorem foldl_write {α : Type} (stmtOf : α → Stmt) (items : List α) (writer : LineWriter) :
    items.foldl (fun writer item => (stmtOf item).write writer) writer =
      writer.append (items.flatMap fun item => (stmtOf item).lines writer.depth) := by
  induction items generalizing writer with
  | nil => exact writer.append_nil.symm
  | cons item items ih =>
      rw [List.foldl_cons, ih, write_eq, LineWriter.append_append, LineWriter.depth_append,
        List.flatMap_cons]

end Stmt

/-! ## Nesting -/

namespace CodeLine

/-- Whether a line opens a brace: it is the last character of the line. -/
def opens (line : CodeLine) : Bool := line.text.toList.getLast? == some '\x7b'

/-- Whether a line closes a brace: it is one of the two lines by which a brace is closed. -/
def closes (line : CodeLine) : Bool := line.text == "\x7d" || line.text == "\x7d else \x7b"

variable (depth : Nat)

@[simp]
theorem opens_plain {text : String} (h : text.toList.getLast? = some ';') :
    (mk depth text).opens = false := by
  simp [opens, h]

@[simp]
theorem closes_plain {text : String} (h : text.toList.getLast? = some ';') :
    (mk depth text).closes = false := by
  have hbrace : text ≠ "\x7d" := by
    rintro rfl
    simp at h
  have helse : text ≠ "\x7d else \x7b" := by
    rintro rfl
    simp at h
  simp [closes, hbrace, helse]

@[simp]
theorem opens_header (header : String) : (mk depth (header ++ " \x7b")).opens = true := by
  simp [opens]

@[simp]
theorem closes_header {header : String} (h : header ≠ "\x7d else") :
    (mk depth (header ++ " \x7b")).closes = false := by
  have hbrace : header ++ " \x7b" ≠ "\x7d" := by
    intro heq
    have hlast := congrArg (fun text => text.toList.getLast?) heq
    simp at hlast
  have helse : header ++ " \x7b" ≠ "\x7d else \x7b" := fun heq =>
    h ((String.append_left_inj (t := " \x7b")).mp heq)
  simp [closes, hbrace, helse]

@[simp]
theorem opens_brace : (mk depth "\x7d").opens = false := by simp [opens]

@[simp]
theorem closes_brace : (mk depth "\x7d").closes = true := by simp [closes]

@[simp]
theorem opens_otherwise : (mk depth "\x7d else \x7b").opens = true := by simp [opens]

@[simp]
theorem closes_otherwise : (mk depth "\x7d else \x7b").closes = true := by simp [closes]

end CodeLine

/-- Well nested lines at a depth: statements that end with a semicolon, and blocks between braces
whose content is well nested one level deeper. A block may have another one for the opposite
case. -/
inductive Braced : Nat → List CodeLine → Prop where
  | nil {depth : Nat} : Braced depth []
  | plain {depth : Nat} {text : String} {rest : List CodeLine}
      (htext : text.toList.getLast? = some ';') (hrest : Braced depth rest) :
      Braced depth (⟨depth, text⟩ :: rest)
  | block {depth : Nat} {header : String} {body rest : List CodeLine}
      (hheader : header ≠ "\x7d else") (hbody : Braced (depth + 1) body)
      (hrest : Braced depth rest) :
      Braced depth (⟨depth, header ++ " \x7b"⟩ :: (body ++ ⟨depth, "\x7d"⟩ :: rest))
  | choice {depth : Nat} {header : String} {body others rest : List CodeLine}
      (hheader : header ≠ "\x7d else") (hbody : Braced (depth + 1) body)
      (hothers : Braced (depth + 1) others) (hrest : Braced depth rest) :
      Braced depth (⟨depth, header ++ " \x7b"⟩ :: (body ++ ⟨depth, "\x7d else \x7b"⟩ ::
        (others ++ ⟨depth, "\x7d"⟩ :: rest)))

namespace Braced

variable {depth : Nat} {lines rest : List CodeLine}

theorem append (h : Braced depth lines) (hrest : Braced depth rest) :
    Braced depth (lines ++ rest) := by
  induction h with
  | nil => exact hrest
  | plain htext _ ih => exact .plain htext (ih hrest)
  | block hheader hbody _ _ ih =>
      rw [List.cons_append, List.append_assoc, List.cons_append]
      exact .block hheader hbody (ih hrest)
  | choice hheader hbody hothers _ _ _ ih =>
      rw [List.cons_append, List.append_assoc, List.cons_append, List.append_assoc,
        List.cons_append]
      exact .choice hheader hbody hothers (ih hrest)

theorem flatMap {α : Type} {linesOf : α → List CodeLine} {items : List α}
    (h : ∀ item ∈ items, Braced depth (linesOf item)) : Braced depth (items.flatMap linesOf) := by
  induction items with
  | nil => exact .nil
  | cons item items ih =>
      rw [List.forall_mem_cons] at h
      rw [List.flatMap_cons]
      exact h.1.append (ih h.2)

end Braced

/-- Every line stands as deep as the braces say that are open around it: those that were open at
the beginning or have been opened, and have not been closed before the line or by it. -/
def Indented (depth : Nat) (lines : List CodeLine) : Prop :=
  ∀ before line after, lines = before ++ line :: after →
    line.depth + (before ++ [line]).countP CodeLine.closes = depth + before.countP CodeLine.opens

namespace Indented

variable {depth : Nat} {line : CodeLine} {rest : List CodeLine}

theorem nil : Indented depth [] := by
  intro before line after hsplit
  exact absurd hsplit.symm (List.append_ne_nil_of_right_ne_nil _ (List.cons_ne_nil _ _))

theorem cons (hline : line.depth + (if line.closes then 1 else 0) = depth)
    (hrest : Indented (line.depth + if line.opens then 1 else 0) rest) :
    Indented depth (line :: rest) := by
  intro before other after hsplit
  cases before with
  | nil =>
      obtain ⟨rfl, -⟩ := List.cons.inj hsplit
      simpa [List.countP_cons] using hline
  | cons first before =>
      obtain ⟨rfl, hrestSplit⟩ := List.cons.inj hsplit
      have hother := hrest before other after hrestSplit
      rw [List.cons_append, List.countP_cons, List.countP_cons]
      omega

end Indented

namespace Braced

variable {depth : Nat} {lines : List CodeLine}

/-- The braces of well nested lines match, whatever comes after the lines. -/
theorem indented_append (h : Braced depth lines) {rest : List CodeLine}
    (hrest : Indented depth rest) : Indented depth (lines ++ rest) := by
  -- a line that opens a brace takes what follows one level deeper, until the brace is closed
  induction h generalizing rest with
  | nil => exact hrest
  | plain htext _ ih => exact .cons (by simp [htext]) (by simpa [htext] using ih hrest)
  | block hheader _ _ hbody ih =>
      rw [List.cons_append, List.append_assoc, List.cons_append]
      refine .cons (by simp [hheader]) ?_
      rw [CodeLine.opens_header]
      refine hbody (.cons (by simp) ?_)
      simpa using ih hrest
  | choice hheader _ _ _ hbody hothers ih =>
      rw [List.cons_append, List.append_assoc, List.cons_append, List.append_assoc,
        List.cons_append]
      refine .cons (by simp [hheader]) ?_
      rw [CodeLine.opens_header]
      refine hbody (.cons (by simp) ?_)
      rw [CodeLine.opens_otherwise]
      refine hothers (.cons (by simp) ?_)
      simpa using ih hrest

theorem countP_opens (h : Braced depth lines) :
    lines.countP CodeLine.opens = lines.countP CodeLine.closes := by
  induction h with
  | nil => rfl
  | plain htext _ ih => simpa [htext] using ih
  | block hheader _ _ hbody ih =>
      simp [hheader, hbody, ih]
      omega
  | choice hheader _ _ _ hbody hothers ih =>
      simp [hheader, hbody, hothers, ih]
      omega

end Braced

namespace Stmt

theorem header_ne (text : String) : text ++ ")" ≠ "\x7d else" := by
  intro heq
  have hlast := congrArg (fun text => text.toList.getLast?) heq
  simp at hlast

/-- The lines of a statement are well nested. -/
theorem braced_lines (stmt : Stmt) (depth : Nat) : Braced depth (stmt.lines depth) := by
  have hplain : ∀ text : String, (text ++ ";").toList.getLast? = some ';' := by simp
  induction stmt generalizing depth with
  | skip => exact .nil
  | seq first second hfirst hsecond =>
      rw [lines_seq]
      exact (hfirst depth).append (hsecond depth)
  | declare type name value => exact .plain (hplain _) .nil
  | assign place value => exact .plain (hplain _) .nil
  | effect expr => exact .plain (hplain _) .nil
  | sharedArray elem name rows columns =>
      refine .plain ?_ .nil
      show (_ ++ "];").toList.getLast? = _
      simp
  | loop var bound step body hbody =>
      rw [lines_loop]
      exact .block (header_ne _) (hbody _) .nil
  | «when» condition body hbody =>
      rw [lines_when]
      exact .block (header_ne _) (hbody _) .nil
  | choose condition body otherwise hbody hotherwise =>
      rw [lines_choose]
      exact .choice (header_ne _) (hbody _) (hotherwise _) .nil

end Stmt

end BufferPromotion
