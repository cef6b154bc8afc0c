import BufferPromotion.Code.Expr
import BufferPromotion.Code.LineWriter

/-! # Statements of generated code

The statements that generated code is made of. A statement writes its lines at the depth of
the writer and leaves the writer at that depth.
-/

set_option autoImplicit false

namespace BufferPromotion

/-- How a loop variable moves on. -/
inductive LoopStep where
  | byOne
  | byMany (amount : Nat)
  deriving DecidableEq, Repr

namespace LoopStep

/-- The step of a loop over a variable. -/
def text (step : LoopStep) (var : String) : String :=
  match step with
  | byOne => s!"{var}++"
  | byMany amount => s!"{var} += {amount}"

end LoopStep

/-- A statement, or a sequence of statements. -/
inductive Stmt where
  /-- No statement. -/
  | skip
  /-- One statement after the other. -/
  | seq (first second : Stmt)
  /-- A variable with a declared type. -/
  | declare (type name : String) (value : Expr)
  /-- A write to a place. -/
  | assign (place value : Expr)
  /-- An expression that is evaluated for its effect. -/
  | effect (expr : Expr)
  /-- An array in the memory of the block. -/
  | sharedArray (elem name : String) (rows columns : Nat)
  /-- A loop over an `int` from zero up to a bound, the bound excluded. -/
  | loop (var : String) (bound : Nat) (step : LoopStep) (body : Stmt)
  /-- Runs the body if the condition holds. -/
  | when (condition : Expr) (body : Stmt)
  /-- Runs one of two bodies. -/
  | choose (condition : Expr) (body otherwise : Stmt)
  deriving DecidableEq, Repr

namespace Stmt

/-- Statements one after the other. -/
def all (stmts : List Stmt) : Stmt := stmts.foldr seq skip

/-- Writes a statement. -/
def write : Stmt → LineWriter → LineWriter
  | skip, writer => writer
  | seq first second, writer => second.write (first.write writer)
  | declare type name value, writer => writer.line s!"{type} {name} = {value.text};"
  | assign place value, writer => writer.line s!"{place.text} = {value.text};"
  | effect expr, writer => writer.line s!"{expr.text};"
  | sharedArray elem name rows columns, writer =>
      writer.line s!"__shared__ {elem} {name}[{rows}][{columns}];"
  | loop var bound step body, writer =>
      let header := s!"for (int {var} = 0; {var} < {bound}; {step.text var})"
      (body.write (writer.openBrace header)).closeBrace
  | when condition body, writer =>
      (body.write (writer.openBrace s!"if ({condition.text})")).closeBrace
  | choose condition body otherwise, writer =>
      let taken := body.write (writer.openBrace s!"if ({condition.text})")
      (otherwise.write taken.otherwise).closeBrace

end Stmt

end BufferPromotion
