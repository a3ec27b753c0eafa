/-
# UTF-8

Writing: each character becomes one to four bytes (`encodeChar`), a text the bytes of its characters
in order (`encode`).

Reading: `scan` runs over any byte string once and cuts it into pieces, each a character or a broken
stretch.  A broken stretch is as long as some well-formed sequence starts the same way, and one byte
long where none does, so the byte that shows the damage may itself start the next piece.  Strict
reading (`decode`) refuses the first broken stretch and says where it is; repair (`repair`) puts one
replacement character in the place of each.

* `scan_append`: a scan may stop between any two bytes and go on later;
* `scan_encode`: the scan of a written text is its characters, so `decode_encode` and
  `repair_encode` give the text back.
-/
import Replica.Bytes

namespace Replica.Utf8

/-! ## 1. Writing -/

/-- The bytes of one character. -/
def encodeChar (c : Char) : Bytes :=
  let n := c.toNat
  if n < 0x80 then [.ofNat n]
  else if n < 0x800 then [.ofNat (0xC0 + n / 64), .ofNat (0x80 + n % 64)]
  else if n < 0x10000 then
    [.ofNat (0xE0 + n / 4096), .ofNat (0x80 + n / 64 % 64), .ofNat (0x80 + n % 64)]
  else
    [.ofNat (0xF0 + n / 262144), .ofNat (0x80 + n / 4096 % 64), .ofNat (0x80 + n / 64 % 64),
      .ofNat (0x80 + n % 64)]

/-- The bytes of a text. -/
def encode (s : String) : Bytes := s.toList.flatMap encodeChar

/-! ## 2. Cutting a byte string into pieces -/

/-- What a scan finds: a character, or a stretch of bytes that spells none. -/
inductive Piece where
  | char (c : Char)
  | broken (length : Nat)
  deriving DecidableEq, Repr

/-- A sequence under way: the bits gathered, the bytes read and still owed, and the range in which
the next byte has to lie. -/
structure Sequence where
  bits : Nat
  read : Nat
  owed : Nat
  low : Nat
  high : Nat
  deriving DecidableEq, Repr

/-- The sequence that a first byte above `0x7F` begins, if any does.  The second byte of some
sequences has a narrower range, which keeps out overlong forms, surrogates and numbers above
`0x10FFFF`. -/
def lead (b : UInt8) : Option Sequence :=
  let n := b.toNat
  if n < 0xC2 then none
  else if n < 0xE0 then some ⟨n - 0xC0, 1, 1, 0x80, 0xBF⟩
  else if n = 0xE0 then some ⟨0, 1, 2, 0xA0, 0xBF⟩
  else if n = 0xED then some ⟨0xD, 1, 2, 0x80, 0x9F⟩
  else if n < 0xF0 then some ⟨n - 0xE0, 1, 2, 0x80, 0xBF⟩
  else if n = 0xF0 then some ⟨0, 1, 3, 0x90, 0xBF⟩
  else if n < 0xF4 then some ⟨n - 0xF0, 1, 3, 0x80, 0xBF⟩
  else if n = 0xF4 then some ⟨4, 1, 3, 0x80, 0x8F⟩
  else none

/-- Where a scan stands: the pieces found so far, the latest first, and the sequence under way. -/
structure Scan where
  found : List Piece
  pending : Option Sequence
  deriving DecidableEq, Repr

namespace Scan

/-- A byte between two pieces. -/
def start (found : List Piece) (b : UInt8) : Scan :=
  if b.toNat < 0x80 then ⟨.char (Char.ofNat b.toNat) :: found, none⟩
  else match lead b with
    | some q => ⟨found, some q⟩
    | none => ⟨.broken 1 :: found, none⟩

/-- A byte anywhere.  One that does not continue the sequence under way breaks it and starts anew. -/
def step (s : Scan) (b : UInt8) : Scan :=
  match s.pending with
  | none => start s.found b
  | some q =>
    if q.low ≤ b.toNat ∧ b.toNat ≤ q.high then
      let bits := q.bits * 64 + (b.toNat - 0x80)
      if q.owed = 1 then ⟨.char (Char.ofNat bits) :: s.found, none⟩
      else ⟨s.found, some ⟨bits, q.read + 1, q.owed - 1, 0x80, 0xBF⟩⟩
    else start (.broken q.read :: s.found) b

/-- The pieces in order; a sequence still under way is broken by the end. -/
def pieces (s : Scan) : List Piece :=
  match s.pending with
  | none => s.found.reverse
  | some q => (Piece.broken q.read :: s.found).reverse

end Scan

/-- The scan of some bytes, from where another one stands. -/
def scanFrom (s : Scan) (b : Bytes) : Scan := b.foldl Scan.step s

/-- The scan of a byte string. -/
def scan (b : Bytes) : Scan := scanFrom ⟨[], none⟩ b

theorem scanFrom_append (s : Scan) (a b : Bytes) :
    scanFrom s (a ++ b) = scanFrom (scanFrom s a) b := by
  simp [scanFrom]

theorem scan_append (a b : Bytes) : scan (a ++ b) = scanFrom (scan a) b :=
  scanFrom_append _ a b

/-! ## 3. Strict reading and repair -/

/-- Why some bytes are no text: a broken stretch of some length, or an end within a sequence; both
with the number of bytes in front that are text. -/
inductive Fault where
  | malformed (length index : Nat)
  | incomplete (index : Nat)
  deriving DecidableEq, Repr

/-- The message of a fault. -/
def Fault.message : Fault → String
  | .malformed n i => "invalid utf-8 sequence of " ++ toString n ++ " bytes from index " ++ toString i
  | .incomplete i => "incomplete utf-8 byte sequence from index " ++ toString i

/-- How many bytes a piece takes up. -/
def Piece.size : Piece → Nat
  | .char c => (encodeChar c).length
  | .broken n => n

def Piece.char? : Piece → Option Char
  | .char c => some c
  | .broken _ => none

/-- The first broken stretch among pieces that start at an index, or else the index after them. -/
def firstBroken (index : Nat) : List Piece → Except Fault Nat
  | [] => .ok index
  | .broken n :: _ => .error (.malformed n index)
  | .char c :: rest => firstBroken (index + (Piece.char c).size) rest

/-- The first fault of a scan. -/
def Scan.fault? (s : Scan) : Option Fault :=
  match firstBroken 0 s.found.reverse, s.pending with
  | .error f, _ => some f
  | .ok index, some _ => some (.incomplete index)
  | .ok _, none => none

/-- The text that some bytes spell, or the first fault in them. -/
def decode (b : Bytes) : Except Fault String :=
  let s := scan b
  match s.fault? with
  | some f => .error f
  | none => .ok (String.ofList (s.found.reverse.filterMap Piece.char?))

/-- The replacement character stands for a broken stretch. -/
def Piece.repaired : Piece → Char
  | .char c => c
  | .broken _ => '\uFFFD'

/-- The text of any bytes, with one replacement character for each broken stretch. -/
def repair (b : Bytes) : String :=
  String.ofList ((scan b).pieces.map Piece.repaired)

/-! ## 4. A written text is read back -/

theorem byte_toNat {n : Nat} (h : n < 256) : (UInt8.ofNat n).toNat = n := by
  rw [UInt8.toNat_ofNat']; omega

/-- A continuation byte that is not the last one owed. -/
theorem step_owed {found : List Piece} {q : Sequence} {b : UInt8}
    (hb : q.low ≤ b.toNat ∧ b.toNat ≤ q.high) (ho : q.owed ≠ 1) :
    Scan.step ⟨found, some q⟩ b =
      ⟨found, some ⟨q.bits * 64 + (b.toNat - 0x80), q.read + 1, q.owed - 1, 0x80, 0xBF⟩⟩ := by
  simp [Scan.step, hb, ho]

/-- The last continuation byte owed. -/
theorem step_last {found : List Piece} {q : Sequence} {b : UInt8}
    (hb : q.low ≤ b.toNat ∧ b.toNat ≤ q.high) (ho : q.owed = 1) :
    Scan.step ⟨found, some q⟩ b =
      ⟨.char (Char.ofNat (q.bits * 64 + (b.toNat - 0x80))) :: found, none⟩ := by
  simp [Scan.step, hb, ho]

theorem step_lead {found : List Piece} {q : Sequence} {b : UInt8} (hb : 0x80 ≤ b.toNat)
    (hq : lead b = some q) : Scan.step ⟨found, none⟩ b = ⟨found, some q⟩ := by
  simp [Scan.step, Scan.start, hq, Nat.not_lt.mpr hb]

/-- The bytes of a character take a scan that stands between pieces past that character. -/
theorem scanFrom_encodeChar (found : List Piece) (c : Char) :
    scanFrom ⟨found, none⟩ (encodeChar c) = ⟨.char c :: found, none⟩ := by
  have hc : c.toNat < 0xD800 ∨ (0xDFFF < c.toNat ∧ c.toNat < 0x110000) := c.valid
  have hn : Char.ofNat c.toNat = c := Char.ofNat_toNat c
  unfold encodeChar
  generalize c.toNat = n at hc hn
  have ht : (UInt8.ofNat (0x80 + n % 64)).toNat = 0x80 + n % 64 := byte_toNat (by omega)
  have ht2 : (UInt8.ofNat (0x80 + n / 64 % 64)).toNat = 0x80 + n / 64 % 64 := byte_toNat (by omega)
  have ht3 : (UInt8.ofNat (0x80 + n / 4096 % 64)).toNat = 0x80 + n / 4096 % 64 :=
    byte_toNat (by omega)
  by_cases h1 : n < 0x80
  · simp [scanFrom, h1, Scan.step, Scan.start, byte_toNat (show n < 256 by omega), hn]
  by_cases h2 : n < 0x800
  · have e0 : (UInt8.ofNat (0xC0 + n / 64)).toNat = 0xC0 + n / 64 := byte_toNat (by omega)
    have hl : lead (.ofNat (0xC0 + n / 64)) = some ⟨n / 64, 1, 1, 0x80, 0xBF⟩ := by
      simp only [lead, e0]
      rw [if_neg (by omega), if_pos (by omega), Nat.add_sub_cancel_left]
    simp only [h1, h2, if_false, if_true, scanFrom, List.foldl]
    rw [step_lead (by omega) hl, step_last (by simp only; omega) rfl, ht,
      show n / 64 * 64 + (0x80 + n % 64 - 0x80) = n by omega, hn]
  by_cases h3 : n < 0x10000
  · have e0 : (UInt8.ofNat (0xE0 + n / 4096)).toNat = 0xE0 + n / 4096 := byte_toNat (by omega)
    obtain ⟨low, high, hl, h4⟩ : ∃ low high, lead (.ofNat (0xE0 + n / 4096)) =
        some ⟨n / 4096, 1, 2, low, high⟩ ∧ low ≤ 0x80 + n / 64 % 64 ∧ 0x80 + n / 64 % 64 ≤ high := by
      simp only [lead, e0]
      rw [if_neg (by omega), if_neg (by omega)]
      split
      · exact ⟨_, _, by rw [show n / 4096 = 0 by omega], by omega, by omega⟩
      split
      · exact ⟨_, _, by rw [show n / 4096 = 0xD by omega], by omega, by omega⟩
      rw [if_pos (by omega), Nat.add_sub_cancel_left]
      exact ⟨_, _, rfl, by omega, by omega⟩
    simp only [h1, h2, h3, if_false, if_true, scanFrom, List.foldl]
    rw [step_lead (by omega) hl, step_owed (by simp only; omega) (by simp),
      step_last (by simp only; omega) rfl, ht, ht2]
    simp only
    rw [show (n / 4096 * 64 + (0x80 + n / 64 % 64 - 0x80)) * 64 + (0x80 + n % 64 - 0x80) = n by omega,
      hn]
  · have e0 : (UInt8.ofNat (0xF0 + n / 262144)).toNat = 0xF0 + n / 262144 := byte_toNat (by omega)
    obtain ⟨low, high, hl, h4⟩ : ∃ low high, lead (.ofNat (0xF0 + n / 262144)) =
        some ⟨n / 262144, 1, 3, low, high⟩ ∧ low ≤ 0x80 + n / 4096 % 64 ∧
          0x80 + n / 4096 % 64 ≤ high := by
      simp only [lead, e0]
      rw [if_neg (by omega), if_neg (by omega), if_neg (by omega), if_neg (by omega),
        if_neg (by omega)]
      split
      · exact ⟨_, _, by rw [show n / 262144 = 0 by omega], by omega, by omega⟩
      split
      · exact ⟨_, _, by rw [Nat.add_sub_cancel_left], by omega, by omega⟩
      rw [if_pos (by omega)]
      exact ⟨_, _, by rw [show n / 262144 = 4 by omega], by omega, by omega⟩
    simp only [h1, h2, h3, if_false, scanFrom, List.foldl]
    rw [step_lead (by omega) hl, step_owed (by simp only; omega) (by simp),
      step_owed (by simp only; omega) (by simp), step_last (by simp only; omega) rfl, ht, ht2, ht3]
    simp only
    rw [show ((n / 262144 * 64 + (0x80 + n / 4096 % 64 - 0x80)) * 64 +
      (0x80 + n / 64 % 64 - 0x80)) * 64 + (0x80 + n % 64 - 0x80) = n by omega, hn]
theorem scanFrom_encode (found : List Piece) (cs : List Char) :
    scanFrom ⟨found, none⟩ (cs.flatMap encodeChar) =
      ⟨(cs.map Piece.char).reverse ++ found, none⟩ := by
  induction cs generalizing found with
  | nil => rfl
  | cons c cs ih => simp [scanFrom_append, scanFrom_encodeChar, ih]

/-- **The scan of a written text is its characters.** -/
theorem scan_encode (s : String) : scan (encode s) = ⟨(s.toList.map Piece.char).reverse, none⟩ := by
  simp [scan, encode, scanFrom_encode]

theorem firstBroken_map_char (index : Nat) (cs : List Char) :
    firstBroken index (cs.map Piece.char) = .ok (index + (cs.flatMap encodeChar).length) := by
  induction cs generalizing index with
  | nil => rfl
  | cons c cs ih => simp [firstBroken, ih, Piece.size, Nat.add_assoc]

/-- A written text is read back. -/
theorem decode_encode (s : String) : decode (encode s) = .ok s := by
  have h : (s.toList.map Piece.char).filterMap Piece.char? = s.toList := by
    simp [List.filterMap_map, Function.comp_def, Piece.char?]
  simp [decode, scan_encode, Scan.fault?, firstBroken_map_char, h]

/-- Repair leaves a written text as it is. -/
theorem repair_encode (s : String) : repair (encode s) = s := by
  simp [repair, scan_encode, Scan.pieces, Function.comp_def, Piece.repaired]

end Replica.Utf8
