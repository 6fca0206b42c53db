import Mathlib.Algebra.BigOperators.Group.List.Basic
import TimelineExport.Filter.Basic
import TimelineExport.Proofs.Number.Rational

/-!
# Formulas as expressions

The engine evaluates a formula for every frame, or for every pixel of a frame: it puts values for
the variables and computes. `Expression` is what such a formula says, `Expression.text` how it is
written, with the parentheses that the precedence of the operators needs, and `Expression.value`
what it comes to at a moment of a clip. So a formula is understood once an expression is found
whose text it is (`HasValue`). Numbers and times stay whole in a text (`Token`), as they do in
a formula; a time is given in milliseconds, written in seconds and read as seconds.

Distances and the opacity that a pixel had before are left open: a `Moment` brings them along with
the values of the variables.
-/

namespace TimelineExport

/-! ### Texts -/

/-- A character, or a number or a time that is written as a whole. -/
inductive Token where
  | char (c : Char)
  | number (x : Rat)
  | seconds (ms : Rat)
  deriving DecidableEq

/-- The tokens of a text. -/
def tokensOfText (s : String) : List Token := s.toList.map Token.char

/-- The tokens of a piece of a formula. -/
def Piece.tokens : Piece Rat → List Token
  | text s => tokensOfText s
  | number x => [.number x]
  | seconds ms => [.seconds ms]

/-- The tokens of a formula. -/
def tokensOf (f : Formula Rat) : List Token := f.flatMap Piece.tokens

/-! ### Expressions -/

/-- A variable of a formula: the time of the frame, under the names that it has for different
filters, the place of the pixel, and the size of the frame. -/
inductive Variable where
  | T | t | it | X | Y | W | H
  deriving DecidableEq, Repr

/-- A function of two arguments. -/
inductive Call where
  | lt | gt | lte | least | greatest | hypot | alpha
  deriving DecidableEq, Repr

/-- An arithmetic operator. -/
inductive Operator where
  | add | sub | mul | div
  deriving DecidableEq, Repr

/-- What a formula says. -/
inductive Expression where
  | whole (n : Nat)
  | number (x : Rat)
  | seconds (ms : Rat)
  | var (v : Variable)
  | call (f : Call) (a b : Expression)
  | choose (condition a b : Expression)
  | operate (o : Operator) (a b : Expression)

/-- What a formula is evaluated with: the time since the start of the clip, a pixel and a frame, and
the functions that are left open. -/
structure Moment where
  ms : Rat
  x : Rat
  y : Rat
  width : Rat
  height : Rat
  hypot : Rat → Rat → Rat
  alpha : Rat → Rat → Rat

/-- The name of a variable. -/
def Variable.name : Variable → String
  | T => "T" | t => "t" | it => "it" | X => "X" | Y => "Y" | W => "W" | H => "H"

/-- The value of a variable. -/
def Variable.value (m : Moment) : Variable → Rat
  | T | t | it => m.ms / 1000
  | X => m.x | Y => m.y | W => m.width | H => m.height

/-- The name of a function. -/
def Call.name : Call → String
  | lt => "lt" | gt => "gt" | lte => "lte" | least => "min" | greatest => "max"
  | hypot => "hypot" | alpha => "alpha"

/-- The value of a function; a comparison is one if it holds. -/
def Call.value (m : Moment) : Call → Rat → Rat → Rat
  | lt, a, b => if a < b then 1 else 0
  | gt, a, b => if b < a then 1 else 0
  | lte, a, b => if a ≤ b then 1 else 0
  | least, a, b => min a b
  | greatest, a, b => max a b
  | hypot, a, b => m.hypot a b
  | alpha, a, b => m.alpha a b

namespace Operator

/-- The sign of an operator. -/
def sign : Operator → Char
  | add => '+' | sub => '-' | mul => '*' | div => '/'

/-- How tightly an operator binds. -/
def level : Operator → Nat
  | add | sub => 1
  | mul | div => 2

/-- The value of an operation. -/
def value : Operator → Rat → Rat → Rat
  | add => (· + ·) | sub => (· - ·) | mul => (· * ·) | div => (· / ·)

end Operator

namespace Expression

instance : Add Expression := ⟨operate .add⟩

instance : Sub Expression := ⟨operate .sub⟩

instance : Mul Expression := ⟨operate .mul⟩

instance : Div Expression := ⟨operate .div⟩

@[simp]
theorem add_eq (a b : Expression) : a + b = operate .add a b := rfl

@[simp]
theorem sub_eq (a b : Expression) : a - b = operate .sub a b := rfl

@[simp]
theorem mul_eq (a b : Expression) : a * b = operate .mul a b := rfl

@[simp]
theorem div_eq (a b : Expression) : a / b = operate .div a b := rfl

/-- The text of an expression where an operator of some level may stand. Operators of one level are
read from the left, so the right operand has to bind more tightly. -/
def textAt : Nat → Expression → List Token
  | _, whole n => tokensOfText (toString n)
  | _, number x => [.number x]
  | _, seconds ms => [.seconds ms]
  | _, var v => tokensOfText v.name
  | _, call f a b =>
    tokensOfText f.name ++ tokensOfText "(" ++ a.textAt 0 ++ tokensOfText "," ++ b.textAt 0 ++
      tokensOfText ")"
  | _, choose c a b =>
    tokensOfText "if(" ++ c.textAt 0 ++ tokensOfText "," ++ a.textAt 0 ++ tokensOfText "," ++
      b.textAt 0 ++ tokensOfText ")"
  | level, operate o a b =>
    let plain := a.textAt o.level ++ [.char o.sign] ++ b.textAt (o.level + 1)
    if o.level < level then tokensOfText "(" ++ plain ++ tokensOfText ")" else plain

/-- The text of an expression. -/
def text (x : Expression) : List Token := x.textAt 0

example : tokensOf ["lte(X,W*(1-max(0,(T-", .seconds 500, ")/", .seconds 250, ")))"] =
    (call .lte (.var .X) (.var .W * (.whole 1 - .call .greatest (.whole 0)
      ((.var .T - .seconds 500) / .seconds 250)))).text := by decide +kernel

/-- The value of an expression at a moment. -/
def value (m : Moment) : Expression → Rat
  | whole n => n
  | number x => x
  | seconds ms => ms / 1000
  | var v => v.value m
  | call f a b => f.value m (a.value m) (b.value m)
  | choose c a b => if c.value m ≠ 0 then a.value m else b.value m
  | operate o a b => o.value (a.value m) (b.value m)

end Expression

/-- **What a formula comes to** at every moment: it is the text of an expression that has these
values. -/
def HasValue (f : Formula Rat) (value : Moment → Rat) : Prop :=
  ∃ x : Expression, tokensOf f = x.text ∧ ∀ m : Moment, x.value m = value m

/-! ### Products -/

theorem tokensOf_append (f g : Formula Rat) : tokensOf (f ++ g) = tokensOf f ++ tokensOf g :=
  List.flatMap_append

/-- What a formula comes to that may stand as a factor. -/
def IsFactor (f : Formula Rat) (value : Moment → Rat) : Prop :=
  ∃ x : Expression, tokensOf f = x.textAt 3 ∧ ∀ m : Moment, x.value m = value m

/-- Factors that are written one after another come to their product. -/
theorem hasValue_product {fs : List (Formula Rat)} {values : List (Moment → Rat)}
    (hfs : List.Forall₂ IsFactor fs values) {f : Formula Rat} {x : Expression}
    (hf : ∀ level ≤ 2, tokensOf f = x.textAt level) :
    HasValue (f ++ fs.flatMap fun g => .text "*" :: g)
      fun m => x.value m * (values.map (· m)).prod := by
  -- products are read from the left, so the factors so far are the left operand of the next one
  induction hfs generalizing f x with
  | nil => exact ⟨x, by simpa [Expression.text] using hf 0, fun m => by simp⟩
  | @cons g value fs values hg _ ih =>
    obtain ⟨z, hz, hvalue⟩ := hg
    have hstep : ∀ level ≤ 2,
        tokensOf (f ++ .text "*" :: g) = (Expression.operate .mul x z).textAt level := by
      intro level hlevel
      rw [Expression.textAt, if_neg (by simpa [Operator.level] using hlevel), tokensOf_append,
        hf 2 le_rfl]
      change x.textAt 2 ++ (tokensOfText "*" ++ tokensOf g) = _
      rw [hz, ← List.append_assoc]
      rfl
    obtain ⟨y, hy, hproduct⟩ := ih hstep
    refine ⟨y, ?_, fun m => ?_⟩
    · rw [List.flatMap_cons, ← List.append_assoc]
      exact hy
    · have hvalue' : (Expression.operate .mul x z).value m = x.value m * z.value m := rfl
      rw [hproduct m]
      dsimp only
      rw [hvalue', hvalue m, List.map_cons, List.prod_cons, mul_assoc]

end TimelineExport
