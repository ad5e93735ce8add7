import Mathlib.Algebra.Order.Ring.Int
import Mathlib.Tactic.Common

namespace istream

/-- What is left to read of an input stream, or `none` in the fail state. -/
abbrev InStream := Option (List UInt8)

def is_space (c : UInt8) : Bool := c == 32 || 9 ≤ c && c ≤ 13

def is_digit (c : UInt8) : Bool := 48 ≤ c && c ≤ 57

/-- What `>>` into a string reads: the next characters that are no white space. -/
def word (s : List UInt8) : Option (List UInt8 × List UInt8) :=
  let s := s.dropWhile is_space
  if s.isEmpty then none else some (s.takeWhile (!is_space ·), s.dropWhile (!is_space ·))

/-- A sign, if there is one. -/
def sign : List UInt8 → Bool × List UInt8
  | 43 :: rest => (false, rest)
  | 45 :: rest => (true, rest)
  | s => (false, s)

def decimal (digits : List UInt8) : ℕ := digits.foldl (fun n c => 10 * n + (c.toNat - 48)) 0

/-- What `>>` into an integer reads. A number that does not fit its type is read to
its end and fails. -/
def number (fits : ℤ → Bool) (s : List UInt8) : Option (ℤ × List UInt8) :=
  let (negative, s) := sign (s.dropWhile is_space)
  let digits := s.takeWhile is_digit
  let value : ℤ := if negative then -decimal digits else decimal digits
  if digits.isEmpty || !fits value then none else some (value, s.dropWhile is_digit)

/-- The range of `int`. -/
def fits_int (value : ℤ) : Bool := -2 ^ 31 ≤ value && value < 2 ^ 31

/-- The range of `uint64_t`. A number with a minus sign wraps around. -/
def fits_uint64 (value : ℤ) : Bool := value.natAbs < 2 ^ 64

variable {α : Type}

/-- An extraction: the stream and the target behind it. In the fail state nothing is
read, and a string that cannot be read keeps its value. -/
def extract (read : List UInt8 → Option (α × List UInt8)) (stream : InStream) (target : α) : InStream × α :=
  match stream.bind read with
  | none => (none, target)
  | some (value, rest) => (some rest, value)

variable {read : List UInt8 → Option (α × List UInt8)} {stream : InStream}

theorem extract_of_none (h : stream.bind read = none) (target : α) : extract read stream target = (none, target) := by
  rw [extract, h]

theorem extract_some {s rest : List UInt8} {value : α} (h : read s = some (value, rest)) (target : α) :
    extract read (some s) target = (some rest, value) := by
  rw [extract, Option.bind_some, h]

end istream
