import BufferPromotion.Code.Stmt
import Mathlib.Data.List.Nodup
import Mathlib.Data.List.Range

/-! # The meaning of generated code

Generated statements are read as C code over exact integers. A *scope* gives the variables
their values; the texts that describe a buffer stand for numbers that do not change while the
statements run. A run is the list of its steps: each statement that is reached, in order, with
the scope in which it is reached. Arrays are not part of a scope. What a run does to them is
read off its steps, as the list of the elements that are written (`writesOf`); an element of an
array that a run only reads is not looked up but named (`Content.fetched`).
-/

set_option autoImplicit false

namespace BufferPromotion

/-! ## Scopes -/

/-- The values of variables. -/
abbrev Scope := String → Int

namespace Scope

/-- The scope in which a variable has got a new value. -/
def set (scope : Scope) (name : String) (value : Int) : Scope :=
  fun other => if other = name then value else scope other

theorem set_self (scope : Scope) (name : String) (value : Int) :
    scope.set name value name = value := if_pos rfl

theorem set_of_ne (scope : Scope) {name other : String} (value : Int) (h : other ≠ name) :
    scope.set name value other = scope other := if_neg h

end Scope

/-! ## Expressions -/

/-- The result of an operator on integers. A comparison gives one or zero, and any number but
zero counts as true. -/
def BinaryOp.apply (op : BinaryOp) (a b : Int) : Int :=
  match op with
  | add => a + b
  | sub => a - b
  | mul => a * b
  | lt => if a < b then 1 else 0
  | ge => if b ≤ a then 1 else 0
  | and => if a ≠ 0 ∧ b ≠ 0 then 1 else 0

namespace Expr

/-- The value of an expression, `none` if it is not an integer. `texts` says what the texts
that describe a buffer stand for. -/
def value? (texts scope : Scope) : Expr → Option Int
  | var name => some (scope name)
  | given text => some (texts text)
  | number value => some value
  | binary op left right =>
      match left.value? texts scope, right.value? texts scope with
      | some a, some b => some (op.apply a b)
      | _, _ => none
  | _ => none

/-- Whether an expression holds as a condition. -/
def holds (texts scope : Scope) (condition : Expr) : Bool :=
  (condition.value? texts scope).any (· ≠ 0)

section Values

variable {texts scope : Scope} {left right : Expr} {a b : Int}

theorem value?_add (ha : left.value? texts scope = some a)
    (hb : right.value? texts scope = some b) :
    (left.add right).value? texts scope = some (a + b) := by
  simp [add, value?, ha, hb, BinaryOp.apply]

theorem value?_sub (ha : left.value? texts scope = some a)
    (hb : right.value? texts scope = some b) :
    (left.sub right).value? texts scope = some (a - b) := by
  simp [sub, value?, ha, hb, BinaryOp.apply]

theorem value?_mul (ha : left.value? texts scope = some a)
    (hb : right.value? texts scope = some b) :
    (left.mul right).value? texts scope = some (a * b) := by
  simp [mul, value?, ha, hb, BinaryOp.apply]

theorem holds_lt (ha : left.value? texts scope = some a) (hb : right.value? texts scope = some b) :
    (left.lt right).holds texts scope = true ↔ a < b := by
  by_cases h : a < b <;> simp [lt, holds, value?, ha, hb, BinaryOp.apply, h]

theorem holds_ge (ha : left.value? texts scope = some a) (hb : right.value? texts scope = some b) :
    (left.ge right).holds texts scope = true ↔ b ≤ a := by
  by_cases h : b ≤ a <;> simp [ge, holds, value?, ha, hb, BinaryOp.apply, h]

end Values

theorem holds_and {texts scope : Scope} {left right : Expr} :
    (left.and right).holds texts scope = true ↔
      left.holds texts scope = true ∧ right.holds texts scope = true := by
  simp only [holds, and, value?]
  cases left.value? texts scope with
  | none => simp
  | some a =>
      cases right.value? texts scope with
      | none => simp
      | some b => by_cases ha : a = 0 <;> by_cases hb : b = 0 <;> simp [BinaryOp.apply, ha, hb]

/-- A scaled index is the index times the scale, also where the product is left out. -/
theorem value?_scaled {texts scope : Scope} {index : Expr} {stride : UInt32} {a : Int}
    (h : index.value? texts scope = some a) :
    (index.scaled stride).value? texts scope = some (a * stride.toNat) := by
  unfold scaled
  split
  · next hone =>
    have : stride = 1 := by simpa using hone
    subst this
    simpa using h
  · exact value?_mul h rfl

end Expr

/-! ## Loops -/

/-- The values of a loop variable from a first one on, at most `fuel` of them. -/
def countFrom (bound amount : Nat) : Nat → Nat → List Nat
  | 0, _ => []
  | fuel + 1, value =>
      if value < bound then value :: countFrom bound amount fuel (value + amount) else []

namespace LoopStep

/-- By how much a loop variable moves on. -/
def amount : LoopStep → Nat
  | byOne => 1
  | byMany amount => amount

/-- The values that a loop variable takes below a bound. A loop that moves on by at least one
has no more rounds than its bound says. -/
def values (step : LoopStep) (bound : Nat) : List Nat := countFrom bound step.amount bound 0

end LoopStep

theorem mem_countFrom {bound amount fuel first value : Nat} (hstep : 0 < amount)
    (hfuel : bound ≤ first + fuel) :
    value ∈ countFrom bound amount fuel first ↔
      value < bound ∧ ∃ rounds, value = first + rounds * amount := by
  induction fuel generalizing first with
  | zero =>
      simp only [countFrom, List.not_mem_nil, false_iff, not_and, not_exists]
      intro hlt rounds heq
      omega
  | succ fuel ih =>
      unfold countFrom
      split
      · next hlt =>
        rw [List.mem_cons, ih (by omega)]
        -- the first value is that of round zero, the others are one round further on
        constructor
        · rintro (rfl | ⟨hv, rounds, rfl⟩)
          · exact ⟨hlt, 0, by omega⟩
          · exact ⟨hv, rounds + 1, by rw [Nat.succ_mul]; omega⟩
        · rintro ⟨hv, rounds, rfl⟩
          cases rounds with
          | zero => exact Or.inl (by omega)
          | succ rounds =>
              exact Or.inr ⟨hv, rounds, by rw [Nat.succ_mul]; omega⟩
      · next hge =>
        simp only [List.not_mem_nil, false_iff, not_and, not_exists]
        intro hlt rounds heq
        omega

theorem nodup_countFrom {bound amount : Nat} (hstep : 0 < amount) (fuel first : Nat) :
    (countFrom bound amount fuel first).Nodup := by
  -- later values are larger, since the variable moves on
  have hle : ∀ (fuel first : Nat), ∀ value ∈ countFrom bound amount fuel first, first ≤ value := by
    intro fuel
    induction fuel with
    | zero => intro first value h; simp [countFrom] at h
    | succ fuel ih =>
        intro first value h
        unfold countFrom at h
        split at h
        · rcases List.mem_cons.mp h with rfl | h
          · exact Nat.le_refl _
          · have := ih _ value h
            omega
        · simp at h
  induction fuel generalizing first with
  | zero => simp [countFrom]
  | succ fuel ih =>
      unfold countFrom
      split
      · refine List.nodup_cons.mpr ⟨fun h => ?_, ih _⟩
        have := hle _ _ _ h
        omega
      · exact List.nodup_nil

theorem countFrom_one (bound fuel first : Nat) (h : first + fuel = bound) :
    countFrom bound 1 fuel first = List.range' first fuel := by
  induction fuel generalizing first with
  | zero => rfl
  | succ fuel ih =>
      unfold countFrom
      rw [if_pos (by omega), ih (first + 1) (by omega), List.range'_succ]

namespace LoopStep

theorem mem_values_byMany {amount bound value : Nat} (hstep : 0 < amount) :
    value ∈ (byMany amount).values bound ↔ value < bound ∧ amount ∣ value := by
  show value ∈ countFrom bound amount bound 0 ↔ _
  rw [mem_countFrom hstep (by omega)]
  refine and_congr_right fun _ => ⟨?_, ?_⟩
  · rintro ⟨rounds, rfl⟩
    exact ⟨rounds, by rw [Nat.zero_add, Nat.mul_comm]⟩
  · rintro ⟨rounds, rfl⟩
    exact ⟨rounds, by rw [Nat.zero_add, Nat.mul_comm]⟩

theorem nodup_values_byMany {amount : Nat} (hstep : 0 < amount) (bound : Nat) :
    ((byMany amount).values bound).Nodup := nodup_countFrom hstep bound 0

theorem values_byOne (bound : Nat) : byOne.values bound = List.range bound := by
  rw [values, List.range_eq_range']
  exact countFrom_one bound bound 0 (Nat.zero_add bound)

end LoopStep

/-! ## Runs of statements -/

/-- A statement that is reached in a run, and the scope in which it is reached. -/
structure Step where
  stmt : Stmt
  scope : Scope

namespace Stmt

/-- The scope after a statement. The variables that a loop or a condition declares are gone
after it, and assignments go to memory. -/
def scopeAfter (texts : Scope) : Stmt → Scope → Scope
  | seq first second, scope => second.scopeAfter texts (first.scopeAfter texts scope)
  | declare _ name value, scope => scope.set name ((value.value? texts scope).getD 0)
  | _, scope => scope

/-- The steps of a statement that runs in a scope. -/
def steps (texts : Scope) : Stmt → Scope → List Step
  | skip, _ => []
  | seq first second, scope =>
      first.steps texts scope ++ second.steps texts (first.scopeAfter texts scope)
  | loop var bound step body, scope =>
      ⟨loop var bound step body, scope⟩ ::
        (step.values bound).flatMap fun (value : Nat) => body.steps texts (scope.set var value)
  | when condition body, scope =>
      ⟨when condition body, scope⟩ ::
        if condition.holds texts scope then body.steps texts scope else []
  | choose condition body otherwise, scope =>
      ⟨choose condition body otherwise, scope⟩ ::
        if condition.holds texts scope then body.steps texts scope
        else otherwise.steps texts scope
  | stmt, scope => [⟨stmt, scope⟩]

end Stmt

/-! ## What a run writes -/

/-- What an array element holds: a number, or what an array that is only read holds at an
index. -/
inductive Content where
  | number (value : Nat)
  | fetched (array : String) (index : Int)
  deriving DecidableEq, Repr

/-- A write to an element of an array with rows and columns. -/
structure ElementWrite where
  array : String
  row : Int
  column : Int
  content : Content
  deriving DecidableEq, Repr

/-- Whether a write goes to an element. -/
def ElementWrite.isAt (write : ElementWrite) (array : String) (row column : Int) : Bool :=
  write.array = array ∧ write.row = row ∧ write.column = column

/-- The content that an expression gives to an element. -/
def Expr.content? (texts scope : Scope) : Expr → Option Content
  | number value => some (.number value)
  | element (given array) index => (index.value? texts scope).map (.fetched array)
  | _ => none

/-- The write of a step, if the step assigns to an element of an array with rows and columns. -/
def Step.write? (texts : Scope) (step : Step) : Option ElementWrite :=
  match step.stmt with
  | .assign (.element (.element (.var array) row) column) value =>
      match row.value? texts step.scope, column.value? texts step.scope,
          value.content? texts step.scope with
      | some row, some column, some content => some ⟨array, row, column, content⟩
      | _, _, _ => none
  | _ => none

/-- The writes of a run, in order. -/
def writesOf (texts : Scope) (steps : List Step) : List ElementWrite :=
  steps.filterMap (Step.write? texts)

/-- What an element holds after some writes, `none` if it was not written: the content of the
last write to it. -/
def contentAfter (writes : List ElementWrite) (array : String) (row column : Int) :
    Option Content :=
  ((writes.filter (·.isAt array row column)).map (·.content)).getLast?

end BufferPromotion
