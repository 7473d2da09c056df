import Mathlib.Data.List.Basic
import Mathlib.Data.Rat.Defs

/-!
# VoipTests.PyStr

The string operations of the source that Lean's own do not reproduce:
`str.lower()` in comparisons with ASCII words, `strip`, `split` and `rsplit`,
and `int()` and `float()` of a decimal string.  They work on the list of
characters, so that they evaluate in the kernel.
-/

namespace VoipTests

/-- `str.lower()` as far as a comparison with ASCII words goes: no character
outside ASCII lowers to a letter of the words the suite compares with. -/
def lower (s : String) : String := String.ofList (s.toList.map Char.toLower)

/-- `s.endswith(suf)` -/
def endswith (s suf : String) : Bool := suf.toList.isSuffixOf s.toList

/-- `s.split(',')` -/
def splitComma (s : String) : List String := (s.toList.splitOn ',').map String.ofList

/-- `s.split(c, 1)`: the first part, and the second one if there is a `c`. -/
def splitOnce (c : Char) (s : String) : String × Option String :=
  match s.toList.dropWhile (· ≠ c) with
  | [] => (s, none)
  | _ :: cs => (String.ofList (s.toList.takeWhile (· ≠ c)), some (String.ofList cs))

/-- `s.rsplit(c, 1)` -/
def rsplitOnce (c : Char) (s : String) : String × Option String :=
  match s.toList.reverse.dropWhile (· ≠ c) with
  | [] => (s, none)
  | _ :: cs => (String.ofList cs.reverse,
      some (String.ofList (s.toList.reverse.takeWhile (· ≠ c)).reverse))

/-- `c.isspace()` -/
def isspace (c : Char) : Bool :=
  let n := c.toNat
  (9 ≤ n && n ≤ 13) || (28 ≤ n && n ≤ 32) || (8192 ≤ n && n ≤ 8202) ||
    n ∈ [133, 160, 5760, 8232, 8233, 8239, 8287, 12288]

/-- `s.strip()` -/
def strip (s : String) : String :=
  String.ofList ((s.toList.dropWhile isspace).reverse.dropWhile isspace).reverse

/-- The digits of a decimal literal; single underscores between them are skipped. -/
def pyDigits (acc : Nat) : List Char → Option Nat
  | [] => some acc
  | '_' :: c :: cs => if c.isDigit then pyDigits (10 * acc + (c.toNat - '0'.toNat)) cs else none
  | c :: cs => if c.isDigit then pyDigits (10 * acc + (c.toNat - '0'.toNat)) cs else none

/-- A literal that has at least one digit, and starts with it. -/
def pyNat : List Char → Option Nat
  | [] => none
  | c :: cs => if c.isDigit then pyDigits (c.toNat - '0'.toNat) cs else none

/-- `int(s)` over ASCII; `none` is a `ValueError`. -/
def pyInt (s : String) : Option Int :=
  match (strip s).toList with
  | '-' :: cs => (pyNat cs).map fun n => -(n : Int)
  | '+' :: cs => (pyNat cs).map fun n => (n : Int)
  | cs => (pyNat cs).map fun n => (n : Int)

/-- The digits before or after the point, and how many there are. -/
def pyDigitPart (cs : List Char) : Option (Nat × Nat) :=
  if cs.isEmpty then some (0, 0) else (pyNat cs).map fun n => (n, cs.countP Char.isDigit)

/-- The mantissa of a float literal. -/
def pyMantissa (cs : List Char) : Option ℚ :=
  match cs.dropWhile (· ≠ '.') with
  | [] => (pyNat cs).map fun n => (n : ℚ)
  | _ :: frac =>
    let whole := cs.takeWhile (· ≠ '.')
    if whole.isEmpty && frac.isEmpty then none
    else match pyDigitPart whole, pyDigitPart frac with
      | some (n, _), some (m, k) => some (n + m / 10 ^ k)
      | _, _ => none

/-- A float literal without a sign. -/
def pyUnsigned (cs : List Char) : Option ℚ :=
  let isExp : Char → Bool := fun c => c = 'e' || c = 'E'
  match cs.dropWhile fun c => !isExp c with
  | [] => pyMantissa cs
  | _ :: exp => (pyMantissa (cs.takeWhile fun c => !isExp c)).bind fun m => match exp with
    | '-' :: exp => (pyNat exp).map fun n => m / 10 ^ n
    | '+' :: exp => (pyNat exp).map fun n => m * 10 ^ n
    | exp => (pyNat exp).map fun n => m * 10 ^ n

/-- `float(s)` over ASCII, without rounding; `none` is a `ValueError`, an
infinity or no number. -/
def pyFloat (s : String) : Option ℚ :=
  match (strip s).toList with
  | '-' :: cs => (pyUnsigned cs).map fun x => -x
  | '+' :: cs => pyUnsigned cs
  | cs => pyUnsigned cs

/-! ## hosts -/

/-- `host.startswith('[') and host.endswith(']')` -/
def bracketed (host : String) : Bool :=
  host.toList.head? = some '[' && host.toList.getLast? = some ']'

/-- `host[1:-1]` -/
def unbracket (host : String) : String := String.ofList host.toList.tail.dropLast

end VoipTests
