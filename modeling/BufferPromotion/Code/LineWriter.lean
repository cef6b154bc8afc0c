/-! # Lines of generated code

Generated code is written line by line. A writer remembers how many braces are open; a line
is indented by four blanks for each of them.
-/

set_option autoImplicit false

namespace BufferPromotion

/-- A line of code and the number of braces around it. -/
structure CodeLine where
  depth : Nat
  text : String
  deriving DecidableEq, Repr

namespace CodeLine

/-- A line with its indentation and line break. -/
def render (line : CodeLine) : String :=
  String.join (List.replicate line.depth "    ") ++ line.text ++ "\n"

end CodeLine

/-- The code written so far and the number of open braces. -/
structure LineWriter where
  lines : Array CodeLine
  depth : Nat
  deriving DecidableEq, Repr

namespace LineWriter

/-- Nothing written. -/
def empty : LineWriter := ⟨#[], 0⟩

/-- The code written so far. -/
def text (writer : LineWriter) : String := String.join (writer.lines.toList.map CodeLine.render)

/-- Writes a line. -/
def line (writer : LineWriter) (text : String) : LineWriter :=
  { writer with lines := writer.lines.push ⟨writer.depth, text⟩ }

/-- Writes a line that opens a brace. -/
def openBrace (writer : LineWriter) (text : String) : LineWriter :=
  let written := writer.line (text ++ " \x7b")
  { written with depth := writer.depth + 1 }

/-- Goes one brace out, if there is one. -/
def outdent (writer : LineWriter) : LineWriter := { writer with depth := writer.depth - 1 }

/-- Closes a brace and opens one for the opposite case. -/
def otherwise (writer : LineWriter) : LineWriter :=
  writer.outdent.openBrace "\x7d else"

/-- Closes a brace. -/
def closeBrace (writer : LineWriter) : LineWriter := writer.outdent.line "\x7d"

end LineWriter

end BufferPromotion
