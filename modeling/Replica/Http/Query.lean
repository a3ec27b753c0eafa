/-
# Query strings

A query string holds parameters `name=value` between ampersands, as `application/x-www-form-urlencoded`
has them: a plus sign stands for a space, and `%` with two hexadecimal digits for the byte of that
number.  Names and values are bytes first and texts last, and bytes that are no UTF-8 are repaired.
A `%` without two digits behind it stands for itself, and of parameters with one name the last counts.

* `percentDecode_escape`, `percentDecode_cons`: what each byte of a component becomes.
-/
import Replica.Bytes
import Replica.Text.Cut
import Replica.Text.Utf8

namespace Replica.Http.Query

/-! ## 1. Components -/

/-- The value of a hexadecimal digit, in either case. -/
def hexDigit? (b : UInt8) : Option Nat :=
  let n := b.toNat
  if 0x30 ≤ n ∧ n ≤ 0x39 then some (n - 0x30)
  else if 0x41 ≤ n ∧ n ≤ 0x46 then some (n - 0x41 + 10)
  else if 0x61 ≤ n ∧ n ≤ 0x66 then some (n - 0x61 + 10)
  else none

/-- The byte that two digits spell. -/
def escaped? (high low : UInt8) : Option UInt8 :=
  match hexDigit? high, hexDigit? low with
  | some h, some l => some (.ofNat (16 * h + l))
  | _, _ => none

/-- Puts the byte of each escape in its place; `done` holds the finished bytes, the latest first. -/
def percentDecodeFrom (done : Bytes) : Bytes → Bytes
  | 0x25 :: high :: low :: rest =>
    match escaped? high low with
    | some b => percentDecodeFrom (b :: done) rest
    | none => percentDecodeFrom (0x25 :: done) (high :: low :: rest)
  | b :: rest => percentDecodeFrom (b :: done) rest
  | [] => done.reverse

/-- The bytes of a component without its escapes. -/
def percentDecode (b : Bytes) : Bytes := percentDecodeFrom [] b

/-- The text of a component. -/
def component (b : Bytes) : String :=
  Utf8.repair (percentDecode (b.map fun c => if c = 0x2B then 0x20 else c))

/-! ## 2. Parameters -/

/-- The name and the value of a parameter; without a `=` the value is empty. -/
def parameter (b : Bytes) : String × String :=
  match Text.cut? 0x3D b with
  | some (name, value) => (component name, component value)
  | none => (component b, "")

/-- The parameters of a query string in order; empty pieces are none. -/
def parameters (query : Bytes) : List (String × String) :=
  ((Text.pieces 0x26 query).filter (!·.isEmpty)).map parameter

/-- The value of a parameter, the last one of its name. -/
def value? (name : String) (query : Bytes) : Option String :=
  ((parameters query).reverse.find? (·.1 = name)).map (·.2)

/-! ## 3. What each byte becomes -/

theorem percentDecodeFrom_eq (done b : Bytes) :
    percentDecodeFrom done b = done.reverse ++ percentDecode b := by
  suffices ∀ n (done b : Bytes), b.length ≤ n →
      percentDecodeFrom done b = done.reverse ++ percentDecodeFrom [] b from
    this b.length done b (Nat.le_refl _)
  intro n
  induction n with
  | zero =>
    intro done b h
    obtain rfl : b = [] := by simpa using h
    simp [percentDecodeFrom]
  | succ n ih =>
    intro done b h
    unfold percentDecodeFrom
    split
    · next high low rest =>
      simp only [List.length_cons] at h
      split
      · next c _ => rw [ih (c :: done) rest (by omega), ih [c] rest (by omega)]; simp
      · rw [ih (0x25 :: done) _ (by simp; omega), ih [0x25] _ (by simp; omega)]; simp
    · next c rest _ =>
      simp only [List.length_cons] at h
      rw [ih (c :: done) rest (by omega), ih [c] rest (by omega)]
      simp
    · simp

/-- An escape becomes its byte. -/
theorem percentDecode_escape {high low b : UInt8} (h : escaped? high low = some b) (rest : Bytes) :
    percentDecode (0x25 :: high :: low :: rest) = b :: percentDecode rest := by
  rw [percentDecode, percentDecodeFrom, h]
  simp [percentDecodeFrom_eq]

/-- A byte other than a percent sign stays. -/
theorem percentDecode_cons {b : UInt8} (h : b ≠ 0x25) (rest : Bytes) :
    percentDecode (b :: rest) = b :: percentDecode rest := by
  rw [percentDecode, percentDecodeFrom]
  · simp [percentDecodeFrom_eq]
  · intro high low rest' e
    simp_all

end Replica.Http.Query
