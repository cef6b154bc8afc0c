/-! # Expressions of generated code

Generated code is C-like. Its expressions are built from variables, numbers, and the texts
by which a listing describes a buffer; the latter are taken as they are. An expression is
written with the fewest parentheses: operators group to the left, `*` binds tighter than `+`
and `-`, these tighter than comparisons, and these tighter than `&&`.
-/

set_option autoImplicit false

namespace BufferPromotion

/-- An operator between two expressions. -/
inductive BinaryOp where
  | add
  | sub
  | mul
  | lt
  | ge
  | and
  deriving DecidableEq, Repr

namespace BinaryOp

/-- The sign of an operator. -/
def sign : BinaryOp → String
  | add => "+"
  | sub => "-"
  | mul => "*"
  | lt => "<"
  | ge => ">="
  | and => "&&"

/-- How tight an operator binds. -/
def level : BinaryOp → Nat
  | and => 1
  | lt | ge => 2
  | add | sub => 3
  | mul => 4

end BinaryOp

/-- An expression. -/
inductive Expr where
  /-- A variable of the generated code. -/
  | var (name : String)
  /-- An expression given as text. -/
  | given (text : String)
  | number (value : Nat)
  | binary (op : BinaryOp) (left right : Expr)
  /-- An element of an array. -/
  | element (array index : Expr)
  /-- The value a pointer points to. -/
  | deref (pointer : Expr)
  /-- The address of an element. -/
  | addressOf (place : Expr)
  /-- A pointer seen as a pointer to elements of a type. -/
  | castPointer (elem : String) (value : Expr)
  /-- A field of a struct, or of the struct a pointer points to. -/
  | member (value : Expr) (throughPointer : Bool) (field : String)
  /-- A call with variables as arguments. -/
  | call (function : String) (args : List String)
  deriving DecidableEq, Repr

namespace Expr

/-- The level of a unary operator: tighter than any operator between two expressions. -/
def unaryLevel : Nat := 5

/-- The level of variables, elements, fields and calls. -/
def atomLevel : Nat := 6

/-- How tight the outermost operator of an expression binds. -/
def level : Expr → Nat
  | binary op _ _ => op.level
  | deref _ | addressOf _ | castPointer _ _ => unaryLevel
  | _ => atomLevel

/-- A text in parentheses if it is the text of an expression that binds less tight than its
surroundings ask for. -/
def wrap (needed level : Nat) (text : String) : String :=
  if level < needed then "(" ++ text ++ ")" else text

/-- The text of an expression. -/
def text : Expr → String
  | var name => name
  | given text => text
  | number value => toString value
  | binary op left right =>
      wrap op.level left.level left.text ++ " " ++ op.sign ++ " " ++
        wrap (op.level + 1) right.level right.text
  | element array index => wrap atomLevel array.level array.text ++ "[" ++ index.text ++ "]"
  | deref pointer => "*" ++ wrap unaryLevel pointer.level pointer.text
  | addressOf place => "&" ++ wrap unaryLevel place.level place.text
  | castPointer elem value => "(" ++ elem ++ "*)" ++ wrap unaryLevel value.level value.text
  | member value throughPointer field =>
      wrap atomLevel value.level value.text ++ (if throughPointer then "->" else ".") ++ field
  | call function args => function ++ "(" ++ String.intercalate ", " args ++ ")"

/-- The text of an expression where it is added to something on its left. -/
def textAsAddend (expr : Expr) : String := wrap (BinaryOp.add.level + 1) expr.level expr.text

/-- The sum of two expressions. -/
def add (a b : Expr) : Expr := binary .add a b

/-- The difference of two expressions. -/
def sub (a b : Expr) : Expr := binary .sub a b

/-- The product of two expressions. -/
def mul (a b : Expr) : Expr := binary .mul a b

/-- The comparison "less than". -/
def lt (a b : Expr) : Expr := binary .lt a b

/-- The comparison "at least". -/
def ge (a b : Expr) : Expr := binary .ge a b

/-- Both conditions hold. -/
def and (a b : Expr) : Expr := binary .and a b

/-- A number of 32 bits. -/
def word (value : UInt32) : Expr := number value.toNat

/-- The index of an element of a pixel: the number of the pixel, times the number of elements
per pixel. The product is left out if there is one element per pixel. -/
def scaled (index : Expr) (stride : UInt32) : Expr :=
  if stride == 1 then index else index.mul (word stride)

end Expr

end BufferPromotion
