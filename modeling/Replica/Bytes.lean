/-
# Byte strings

A byte string is a list of bytes.  Two operations on it are used by every binary format of the
library: taking a stretch of a given length from the front, and reading or writing a number as a
word with its most significant byte first.

* `take?_eq_some`: a stretch is taken exactly when the bytes start with one of that length;
* `bigEndian_toBigEndian`: a number that fits its word is read back.
-/

namespace Replica

/-- A byte string. -/
abbrev Bytes := List UInt8

namespace Bytes

/-! ## 1. Taking a stretch from the front -/

/-- The first `n` bytes and what follows them, or nothing where there are fewer. -/
def take? (n : Nat) (b : Bytes) : Option (Bytes × Bytes) :=
  let front := b.take n
  if front.length = n then some (front, b.drop n) else none

theorem take?_eq_some {n : Nat} {b front rest : Bytes} :
    take? n b = some (front, rest) ↔ front.length = n ∧ b = front ++ rest := by
  constructor
  · intro h
    simp only [take?, Option.ite_none_right_eq_some, Option.some.injEq, Prod.mk.injEq] at h
    obtain ⟨hn, rfl, rfl⟩ := h
    exact ⟨hn, (List.take_append_drop n b).symm⟩
  · rintro ⟨rfl, rfl⟩
    simp [take?]

/-! ## 2. Words, most significant byte first -/

/-- The number that a word spells. -/
def bigEndian (word : Bytes) : Nat :=
  word.foldl (fun n b => n * 256 + b.toNat) 0

/-- The word of `width` bytes that spells a number; higher digits are dropped. -/
def toBigEndian : (width : Nat) → Nat → Bytes
  | 0, _ => []
  | width + 1, n => toBigEndian width (n / 256) ++ [UInt8.ofNat n]

@[simp] theorem length_toBigEndian (width n : Nat) : (toBigEndian width n).length = width := by
  induction width generalizing n with
  | zero => rfl
  | succ width ih => simp [toBigEndian, ih]

theorem bigEndian_concat (word : Bytes) (b : UInt8) :
    bigEndian (word ++ [b]) = bigEndian word * 256 + b.toNat := by
  simp [bigEndian]

/-- A number that fits is read back. -/
theorem bigEndian_toBigEndian {width n : Nat} (h : n < Nat.pow 256 width) :
    bigEndian (toBigEndian width n) = n := by
  induction width generalizing n with
  | zero =>
    obtain rfl : n = 0 := Nat.lt_one_iff.mp h
    rfl
  | succ width ih =>
    have hq : n / 256 < Nat.pow 256 width := by
      have hn : n < Nat.pow 256 width * 256 := h
      exact Nat.div_lt_of_lt_mul (by omega)
    rw [toBigEndian, bigEndian_concat, ih hq, UInt8.toNat_ofNat']
    omega

end Bytes
end Replica
