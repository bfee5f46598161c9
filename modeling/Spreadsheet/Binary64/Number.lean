import Spreadsheet.Binary64.Exact

/-!
# Floats with the sign of a NaN

Sorting puts a NaN below or above all numbers by its sign, which `Float` does not tell. A `Number` is a
float, whose NaN is the positive one, or the negative NaN.

* `Number.float` : the number without that sign;
* arithmetic : a NaN passes through with its sign, of two the first one; an operation without a result,
  such as `∞ - ∞`, gives the negative NaN;
* `Number.totalLe` : the order of sorting;
* `Number.larger`, `Number.smaller` : of two numbers, a NaN giving way to the other one.
-/

namespace Spreadsheet.Binary64

def nan : Float := 0.0 / 0.0

inductive Number where
  | ofFloat (x : Float)
  | negativeNaN

namespace Number

instance : Coe Float Number := ⟨ofFloat⟩

def float : Number → Float
  | ofFloat x => x
  | negativeNaN => nan

@[simp] theorem float_ofFloat (x : Float) : (ofFloat x).float = x := rfl

def isNaN (x : Number) : Bool := x.float.isNaN

/-! ## Arithmetic -/

/-- The result `z` of an operation on numbers of which none is a NaN. -/
def ofResult (z : Float) : Number := if z.isNaN then negativeNaN else ofFloat z

/-- An operation on two numbers. -/
def combine (op : Float → Float → Float) (x y : Number) : Number :=
  if x.isNaN then x else if y.isNaN then y else ofResult (op x.float y.float)

instance : Add Number := ⟨combine (· + ·)⟩

instance : Sub Number := ⟨combine (· - ·)⟩

instance : Mul Number := ⟨combine (· * ·)⟩

instance : Div Number := ⟨combine (· / ·)⟩

/-- The opposite number; a NaN changes its sign as well. -/
def neg : Number → Number
  | ofFloat x => if x.isNaN then negativeNaN else ofFloat (-x)
  | negativeNaN => ofFloat nan

instance : Neg Number := ⟨neg⟩

def sqrt (x : Number) : Number := if x.isNaN then x else ofResult x.float.sqrt

/-! ## Order -/

/-- The key of sorting: the negative NaN comes before minus infinity. -/
def totalKey : Number → Int
  | ofFloat x => Binary64.totalKey x
  | negativeNaN => -2 ^ 63

def totalLe (x y : Number) : Bool := x.totalKey ≤ y.totalKey

/-- The larger of two numbers, or the one that is a number. -/
def larger (x y : Number) : Number := if x.isNaN then y else if x.float < y.float then y else x

/-- The smaller of two numbers, or the one that is a number. -/
def smaller (x y : Number) : Number := if x.isNaN then y else if y.float < x.float then y else x

end Number

end Spreadsheet.Binary64
