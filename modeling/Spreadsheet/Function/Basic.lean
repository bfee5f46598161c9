import Spreadsheet.Evaluation.Reading
import Spreadsheet.Formula.Expr
import Spreadsheet.Options

/-!
# Functions and registries

A function is known by its name and says how many arguments it takes. An eager one is given the values
of its arguments, a lazy one the arguments themselves, of which it evaluates what it needs.

* `Argument` : an argument before it is evaluated;
* `Function`, `Implementation`, `Category` : what a registry holds;
* `Registry` : functions by name in upper case, at most one of each name.
-/

namespace Spreadsheet

open Formula (Expr)

/-- An argument as it is written, and its evaluation. -/
structure Argument where
  expr : Expr
  evaluate : Unit → Readings Value

inductive Implementation where
  | eager (apply : Surroundings → List Value → Except FormulaError Value)
  | lazy (apply : Surroundings → List Argument → Readings Value)

inductive Category where
  | statistical
  | math
  | logical
  | text
  | lookup
  | financial
  | date
deriving DecidableEq, Repr

structure Function where
  name : String
  category : Category
  least : Nat
  /-- No limit when it is left out. -/
  most : Option Nat
  implementation : Implementation
  /-- Whether blank cells make no difference, so that ranges are read only as far as the data of a
  sheet reaches. -/
  ignoresBlanks : Bool := false

def Function.isLazy (f : Function) : Bool :=
  match f.implementation with
  | .lazy _ => true
  | .eager _ => false

/-- The error for a wrong number of arguments, if it is wrong. -/
def Function.arityError? (f : Function) (count : Nat) : Option FormulaError :=
  if count < f.least then some (.argumentCount f.name (.atLeast f.least) count)
  else match f.most with
    | some most => if most < count then some (.argumentCount f.name (.atMost most) count) else none
    | none => none

/-! ## Registries -/

/-- Functions with the names they are found by. -/
structure Registry where
  entries : List (String × Function)

namespace Registry

def empty : Registry := ⟨[]⟩

/-- The function of a name in any case. -/
def get? (r : Registry) (name : String) : Option Function := r.entries.lookup (Text.upper name)

def contains (r : Registry) (name : String) : Bool := (r.get? name).isSome

/-- Replaces the entry of a name, or adds one. -/
def put (key : String) (f : Function) : List (String × Function) → List (String × Function)
  | [] => [(key, f)]
  | entry :: rest => if entry.1 = key then (key, f) :: rest else entry :: put key f rest

/-- Adds a function in place of the one with its name, if there is one. -/
def register (r : Registry) (f : Function) : Registry := ⟨put (Text.upper f.name) f r.entries⟩

def ofList (fs : List Function) : Registry := fs.foldl register empty

def size (r : Registry) : Nat := r.entries.length

def isEmpty (r : Registry) : Bool := r.entries.isEmpty

/-- Whether a name comes before another one or is the same. -/
def nameLe (s t : String) : Bool := Text.compareText s t != .gt

/-- All names in order. -/
def names (r : Registry) : List String := (r.entries.map (·.1)).mergeSort nameLe

/-- The names of one category in order. -/
def namesIn (r : Registry) (category : Category) : List String :=
  ((r.entries.filter fun entry => entry.2.category = category).map (·.1)).mergeSort nameLe

end Registry

end Spreadsheet
