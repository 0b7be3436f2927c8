import Mathlib.Data.List.DropRight
import Mathlib.Data.Rat.Encodable
import VSwarm.Lib.Binary64
import VSwarm.Lib.OrderedDict
import VSwarm.Lib.Text

namespace VSwarm.Analysis

open VSwarm.Lib

inductive Value
  | str (s : List Char)
  | int (n : Int)
  | float (x : Binary64)
  deriving DecidableEq

inductive DType | str | int | float
  deriving DecidableEq

inductive PyFloat
  | rat (q : Rat)
  | nan
  | inf (negative : Bool)
  deriving DecidableEq

/-- Zeros of either sign are equal. -/
inductive Cell
  | str (s : List Char)
  | int (n : Int)
  | float (x : PyFloat)
  deriving DecidableEq

/-- The zeros of the blocks of decimal digits of Unicode. -/
def zeros : List Nat :=
  [0x30, 0x660, 0x6F0, 0x7C0, 0x966, 0x9E6, 0xA66, 0xAE6, 0xB66, 0xBE6, 0xC66, 0xCE6, 0xD66, 0xDE6,
    0xE50, 0xED0, 0xF20, 0x1040, 0x1090, 0x17E0, 0x1810, 0x1946, 0x19D0, 0x1A80, 0x1A90, 0x1B50,
    0x1BB0, 0x1C40, 0x1C50, 0xA620, 0xA8D0, 0xA900, 0xA9D0, 0xA9F0, 0xAA50, 0xABF0, 0xFF10, 0x104A0,
    0x10D30, 0x11066, 0x110F0, 0x11136, 0x111D0, 0x112F0, 0x11450, 0x114D0, 0x11650, 0x116C0,
    0x11730, 0x118E0, 0x11950, 0x11C50, 0x11D50, 0x11DA0, 0x11F50, 0x16A60, 0x16AC0, 0x16B50,
    0x1D7CE, 0x1D7D8, 0x1D7E2, 0x1D7EC, 0x1D7F6, 0x1E140, 0x1E2F0, 0x1E4F0, 0x1E950, 0x1FBF0]

def digit? (c : Char) : Option Nat :=
  (zeros.find? fun z => z ≤ c.toNat ∧ c.toNat < z + 10).map (c.toNat - ·)

def isPySpace (c : Char) : Bool :=
  c ∈ [' ', '\t', '\n', '\x0b', '\x0c', '\r', '\u0085', '\u00a0', '\u1680', '\u2028', '\u2029',
    '\u202f', '\u205f', '\u3000'] || (0x2000 ≤ c.toNat && c.toNat ≤ 0x200a)

def digitsFrom (acc : Nat) : List Char → Option Nat
  | [] => some acc
  | '_' :: c :: cs => (digit? c).bind fun d => digitsFrom (10 * acc + d) cs
  | c :: cs => (digit? c).bind fun d => digitsFrom (10 * acc + d) cs

def digits : List Char → Option Nat
  | [] => none
  | c :: cs => (digit? c).bind fun d => digitsFrom d cs

def intOfStr (s : List Char) : Option Int :=
  match (s.dropWhile isPySpace).rdropWhile isPySpace with
  | '-' :: cs => (digits cs).map Int.negOfNat
  | '+' :: cs => (digits cs).map Int.ofNat
  | cs => (digits cs).map Int.ofNat

def Value.toInt : Value → Option Int
  | .str s => intOfStr s
  | .int n => some n
  | .float x => some x.trunc

def fitsInt64 (n : Int) : Bool := -2 ^ 63 ≤ n && n < 2 ^ 63

/-- Python's floats: `ofInt` is `float` of an integer, without a result if that is
too large. -/
structure Floats where
  ofInt : Int → Option Binary64
  ofInt_of_value : ∀ (x : Binary64) (n : Int),
    x.negativeZero = false → x.value = n → ofInt n = some x
  ofStr : List Char → Option PyFloat
  ofStr_int : ∀ s n x, intOfStr s = some n → ofInt n = some x → ofStr s = some (.rat x.value)
  repr : Binary64 → List Char
  repr_injective : Function.Injective repr
  intOfStr_repr : ∀ x, intOfStr (repr x) = none
  repr_ne : ∀ x n, repr x ≠ (toString (n : Int)).toList

def Floats.convert (p : Floats) : DType → Value → Option Cell
  | .str, .str s => some (.str s)
  | .str, .int n => some (.str (toString n).toList)
  | .str, .float x => some (.str (p.repr x))
  | .int, v => v.toInt.bind fun n => if fitsInt64 n then some (.int n) else none
  | .float, .str s => (p.ofStr s).map .float
  | .float, .int n => (p.ofInt n).map fun x => .float (.rat x.value)
  | .float, .float x => some (.float (.rat x.value))

section Inference

variable (p : Floats) (column : List Value)

def Floats.huge : Bool := column.any fun | .int n => (p.ofInt n).isNone | _ => false

def wide : Bool :=
  column.any (fun | .int n => n < -2 ^ 63 || 2 ^ 64 ≤ n | _ => false) ||
    column.any (fun | .int n => 2 ^ 63 ≤ n | _ => false) &&
      column.any fun | .int n => n < 0 | _ => false

/-- Numbers of which one at least is a float: the column is stored as floats. -/
def Floats.floating : Bool :=
  column.any (fun | .float _ => true | _ => false) &&
    !column.any (fun | .str _ => true | _ => false) && !wide column && !p.huge column

def Floats.widen : Value → Value
  | .int n => ((p.ofInt n).map Value.float).getD (.int n)
  | v => v

end Inference

/-- What `to_pandas` uses of pandas: a column of the constructed frame, and `astype`
on one element of it. -/
structure Pandas extends Floats where
  construct : List Value → Option (List Value)
  construct_floating : ∀ column, toFloats.floating column = true →
    construct column = some (column.map toFloats.widen)
  construct_other : ∀ column, toFloats.floating column = false →
    construct column = some column ∨ toFloats.huge column = true ∧ construct column = none
  astype : DType → Value → Option Cell
  astype_of_convert : ∀ t v c, toFloats.convert t v = some c → astype t v = some c
  astype_of_huge : ∀ n, toFloats.ofInt n = none → astype .float (.int n) = none
  astype_of_not_fits : ∀ x : Binary64, fitsInt64 x.trunc = false →
    astype .int (.float x) = none ∨ astype .int (.float x) = some (.int (-2 ^ 63))

structure Field (ρ : Type) where
  name : String
  extract : ρ → Value
  type : DType

section Frame

variable {ρ : Type} (p : Pandas) (fields : List (Field ρ))

/-- The row that is added for one result: `int` of every value, or the values
themselves if it raises for one of them. -/
def row (r : ρ) : List Value :=
  match fields.mapM fun f => (f.extract r).toInt with
  | some ns => ns.map .int
  | none => fields.map fun f => f.extract r

end Frame

structure Extraction (ρ : Type) (p : Pandas) where
  results : List ρ
  fields : List (Field ρ)
  distinct : (fields.map Field.name).Nodup
  convertible : ∀ r ∈ results, ∀ f ∈ fields, (p.convert f.type (f.extract r)).isSome

section Condition

variable {ρ : Type}

def accepted (fields : List (Field ρ)) (r : ρ) : Bool :=
  fields.all fun f => ((f.extract r).toInt).isSome

def given (fields : List (Field ρ)) (f : Field ρ) (r : ρ) : Value :=
  if accepted fields r then ((f.extract r).toInt.map .int).getD (f.extract r) else f.extract r

def Extraction.column {p : Pandas} (e : Extraction ρ p) (f : Field ρ) : List Value :=
  e.results.map (given e.fields f)

end Condition

section Lists

variable {α β γ : Type}

end Lists

section Cells

variable {p : Pandas} {n : Int} {floating : Bool}

def Floats.store (p : Floats) (floating : Bool) (v : Value) : Value :=
  if floating then p.widen v else v

end Cells

section Columns

variable {ρ : Type} {p : Pandas} {fields : List (Field ρ)} {r : ρ}

variable (e : Extraction ρ p)

end Columns

def place (x : Binary64) : List Char :=
  '.' :: (if x.negativeZero then '-' else '+') ::
    (List.replicate (Encodable.encode x.value) '0' ++ ['.'])

end VSwarm.Analysis
