/-
# How headers are spelled

The same number may be announced in several ways: some by a byte that says it all, and every one that
fits by a marker and a word, most significant byte first.  This file writes the formats down as they
are given to other programs and shows that reading takes all of their spellings and nothing else.

* `Format`: how the numbers of one kind of header are spelled;
* `Header.Spelled`: the bytes of each header;
* `Header.read_eq_ok_iff`: a header is read exactly where one of its spellings stands.
-/
import Mathlib.Data.List.Induction
import Replica.Msgpack

namespace Replica

/-! ## 1. Words -/

namespace Bytes

theorem bigEndian_lt (word : Bytes) : bigEndian word < Nat.pow 256 word.length := by
  induction word using List.reverseRecOn with
  | nil => exact Nat.one_pos
  | append_singleton word b ih =>
    have hb := b.toNat_lt
    rw [bigEndian_concat, List.length_append, List.length_singleton]
    show _ < Nat.pow 256 word.length * 256
    omega

/-- The word of a number that a word spells is that word. -/
theorem toBigEndian_bigEndian (word : Bytes) : toBigEndian word.length (bigEndian word) = word := by
  induction word using List.reverseRecOn with
  | nil => rfl
  | append_singleton word b ih =>
    have hb := b.toNat_lt
    have hfront : (bigEndian word * 256 + b.toNat) / 256 = bigEndian word := by omega
    have hlast : UInt8.ofNat (bigEndian word * 256 + b.toNat) = b := by
      apply UInt8.toNat_inj.mp
      rw [UInt8.toNat_ofNat']
      omega
    rw [List.length_append, List.length_singleton, bigEndian_concat, toBigEndian, hfront, hlast, ih]

end Bytes

namespace Msgpack

/-! ## 2. Formats -/

/-- How the numbers of one kind of header are spelled. -/
structure Format where
  /-- The byte that says a number by itself, where there is one. -/
  byte : Nat → Option UInt8
  /-- The markers with a word behind them, each with the width of the word. -/
  words : List (UInt8 × Nat)

namespace Format

/-- The numbers below `count` have consecutive bytes of their own. -/
def upTo (base count : Nat) (n : Nat) : Option UInt8 :=
  if n < count then some (.ofNat (base + n)) else none

theorem upTo_eq_some {base count n : Nat} {b : UInt8} :
    upTo base count n = some b ↔ n < count ∧ UInt8.ofNat (base + n) = b := by
  simp [upTo]

def unsigned : Format := ⟨upTo 0x00 128, [(0xCC, 1), (0xCD, 2), (0xCE, 4), (0xCF, 8)]⟩

def str : Format := ⟨upTo 0xA0 32, [(0xD9, 1), (0xDA, 2), (0xDB, 4)]⟩

def bin : Format := ⟨fun _ => none, [(0xC4, 1), (0xC5, 2), (0xC6, 4)]⟩

def array : Format := ⟨upTo 0x90 16, [(0xDC, 2), (0xDD, 4)]⟩

def map : Format := ⟨upTo 0x80 16, [(0xDE, 2), (0xDF, 4)]⟩

/-- Extensions of some lengths have markers of their own. -/
def ext : Format :=
  { byte := fun n => match n with
      | 1 => some 0xD4
      | 2 => some 0xD5
      | 4 => some 0xD6
      | 8 => some 0xD7
      | 16 => some 0xD8
      | _ => none
    words := [(0xC7, 1), (0xC8, 2), (0xC9, 4)] }

/-- The bytes that spell a number in a format. -/
inductive Spells (f : Format) (n : Nat) : Bytes → Prop where
  | byte {b : UInt8} : f.byte n = some b → Spells f n [b]
  | word {marker : UInt8} {width : Nat} : (marker, width) ∈ f.words → n < Nat.pow 256 width →
      Spells f n (marker :: Bytes.toBigEndian width n)

end Format

/-- The bytes of a header. -/
inductive Header.Spelled : Header → Bytes → Prop where
  | nil : Spelled .nil [0xC0]
  | no : Spelled (.boolean false) [0xC2]
  | yes : Spelled (.boolean true) [0xC3]
  | unsigned {n : Nat} {b : Bytes} : Format.unsigned.Spells n b → Spelled (.unsigned n) b
  | negative {n : Nat} : n < 32 → Spelled (.signed ((n : Int) - 32)) [.ofNat (0xE0 + n)]
  | signed {marker : UInt8} {width n : Nat} :
      (marker, width) ∈ [((0xD0 : UInt8), 1), (0xD1, 2), (0xD2, 4), (0xD3, 8)] →
      n < Nat.pow 256 width →
      Spelled (.signed (twosComplement (8 * width) n)) (marker :: Bytes.toBigEndian width n)
  | single {n : Nat} : n < Nat.pow 256 4 →
      Spelled (.float (.ofSingle n)) (0xCA :: Bytes.toBigEndian 4 n)
  | double {n : Nat} : n < Nat.pow 256 8 →
      Spelled (.float (.ofDouble n)) (0xCB :: Bytes.toBigEndian 8 n)
  | str {n : Nat} {b : Bytes} : Format.str.Spells n b → Spelled (.str n) b
  | bin {n : Nat} {b : Bytes} : Format.bin.Spells n b → Spelled (.bin n) b
  | array {n : Nat} {b : Bytes} : Format.array.Spells n b → Spelled (.array n) b
  | map {n : Nat} {b : Bytes} : Format.map.Spells n b → Spelled (.map n) b
  | ext {n : Nat} {b : Bytes} : Format.ext.Spells n b → Spelled (.ext n) b

/-! ## 3. What is read is spelled -/

/-- A marker that says it all is the spelling of its header. -/
theorem Marker.spelled_of_whole {m : UInt8} {h : Header} (hm : Marker.ofByte m = .whole h) :
    h.Spelled [m] := by
  have hbyte : UInt8.ofNat m.toNat = m := UInt8.ofNat_toNat
  have hlt := m.toNat_lt
  unfold Marker.ofByte at hm
  generalize m.toNat = n at hm hbyte hlt
  subst hbyte
  simp only at hm
  split at hm
  · cases hm
    exact .unsigned (.byte (Format.upTo_eq_some.mpr ⟨by omega, by rw [Nat.zero_add]⟩))
  split at hm
  · obtain ⟨k, rfl⟩ : ∃ k, n = 0x80 + k := ⟨n - 0x80, by omega⟩
    rw [Nat.add_sub_cancel_left] at hm
    cases hm
    exact .map (.byte (Format.upTo_eq_some.mpr ⟨by omega, rfl⟩))
  split at hm
  · obtain ⟨k, rfl⟩ : ∃ k, n = 0x90 + k := ⟨n - 0x90, by omega⟩
    rw [Nat.add_sub_cancel_left] at hm
    cases hm
    exact .array (.byte (Format.upTo_eq_some.mpr ⟨by omega, rfl⟩))
  split at hm
  · obtain ⟨k, rfl⟩ : ∃ k, n = 0xA0 + k := ⟨n - 0xA0, by omega⟩
    rw [Nat.add_sub_cancel_left] at hm
    cases hm
    exact .str (.byte (Format.upTo_eq_some.mpr ⟨by omega, rfl⟩))
  split at hm
  · obtain ⟨k, rfl⟩ : ∃ k, n = 0xE0 + k := ⟨n - 0xE0, by omega⟩
    have hvalue : ((0xE0 + k : Nat) : Int) - 256 = (k : Int) - 32 := by omega
    rw [hvalue] at hm
    cases hm
    exact .negative (by omega)
  · split at hm <;> cases hm
    · exact .nil
    · exact .no
    · exact .yes
    · exact .ext (.byte rfl)
    · exact .ext (.byte rfl)
    · exact .ext (.byte rfl)
    · exact .ext (.byte rfl)
    · exact .ext (.byte rfl)

/-- A marker with its word is a spelling of the header that they give. -/
theorem Marker.spelled_of_followed {m : UInt8} {width : Nat} {header : Nat → Header}
    (hm : Marker.ofByte m = .followed width header) {n : Nat} (hn : n < Nat.pow 256 width) :
    (header n).Spelled (m :: Bytes.toBigEndian width n) := by
  have hbyte : UInt8.ofNat m.toNat = m := UInt8.ofNat_toNat
  unfold Marker.ofByte at hm
  generalize m.toNat = k at hm hbyte
  subst hbyte
  simp only at hm
  split at hm
  · cases hm
  split at hm
  · cases hm
  split at hm
  · cases hm
  split at hm
  · cases hm
  split at hm
  · cases hm
  · split at hm <;> cases hm
    · exact .bin (.word (by decide) hn)
    · exact .bin (.word (by decide) hn)
    · exact .bin (.word (by decide) hn)
    · exact .ext (.word (by decide) hn)
    · exact .ext (.word (by decide) hn)
    · exact .ext (.word (by decide) hn)
    · exact .single hn
    · exact .double hn
    · exact .unsigned (.word (by decide) hn)
    · exact .unsigned (.word (by decide) hn)
    · exact .unsigned (.word (by decide) hn)
    · exact .unsigned (.word (by decide) hn)
    · exact .signed (by decide) hn
    · exact .signed (by decide) hn
    · exact .signed (by decide) hn
    · exact .signed (by decide) hn
    · exact .str (.word (by decide) hn)
    · exact .str (.word (by decide) hn)
    · exact .str (.word (by decide) hn)
    · exact .array (.word (by decide) hn)
    · exact .array (.word (by decide) hn)
    · exact .map (.word (by decide) hn)
    · exact .map (.word (by decide) hn)

/-! ## 4. What is spelled is read -/

theorem Header.read_of_whole {m : UInt8} {h : Header} (hm : Marker.ofByte m = .whole h)
    (rest : Bytes) : Header.read (m :: rest) = .ok (h, rest) := by
  rw [Header.read, hm]

theorem Header.read_of_followed {m : UInt8} {width : Nat} {header : Nat → Header}
    (hm : Marker.ofByte m = .followed width header) {n : Nat} (hn : n < Nat.pow 256 width)
    (rest : Bytes) :
    Header.read (m :: (Bytes.toBigEndian width n ++ rest)) = .ok (header n, rest) := by
  have htake : Bytes.take? width (Bytes.toBigEndian width n ++ rest) =
      some (Bytes.toBigEndian width n, rest) :=
    Bytes.take?_eq_some.mpr ⟨Bytes.length_toBigEndian width n, rfl⟩
  rw [Header.read, hm]
  simp only [htake, Bytes.bigEndian_toBigEndian hn]

namespace Format

/-- The bytes and markers of a format are those of one kind of header. -/
structure Gives (f : Format) (header : Nat → Header) : Prop where
  byte : ∀ n b, f.byte n = some b → Marker.ofByte b = .whole (header n)
  words : ∀ w ∈ f.words, Marker.ofByte w.1 = .followed w.2 header

theorem Spells.read {f : Format} {header : Nat → Header} (hf : f.Gives header) {n : Nat}
    {front : Bytes} (h : f.Spells n front) (rest : Bytes) :
    Header.read (front ++ rest) = .ok (header n, rest) := by
  cases h with
  | byte hb => exact Header.read_of_whole (hf.byte n _ hb) rest
  | word hw hn => exact Header.read_of_followed (hf.words _ hw) hn rest

theorem toNat_upTo {base count n : Nat} {b : UInt8} (hb : upTo base count n = some b)
    (hcount : base + count ≤ 256) : n < count ∧ b.toNat = base + n := by
  obtain ⟨hn, rfl⟩ := upTo_eq_some.mp hb
  exact ⟨hn, by rw [UInt8.toNat_ofNat']; omega⟩

theorem unsigned_gives : unsigned.Gives .unsigned where
  byte n b hb := by
    obtain ⟨hn, hbyte⟩ := toNat_upTo hb (by decide)
    simp only [Marker.ofByte, hbyte]
    rw [if_pos (by omega), Nat.zero_add]
  words := by
    simp only [unsigned, List.forall_mem_cons]
    exact ⟨rfl, rfl, rfl, rfl, List.forall_mem_nil _⟩

theorem map_gives : map.Gives .map where
  byte n b hb := by
    obtain ⟨hn, hbyte⟩ := toNat_upTo hb (by decide)
    simp only [Marker.ofByte, hbyte]
    rw [if_neg (by omega), if_pos (by omega), Nat.add_sub_cancel_left]
  words := by
    simp only [map, List.forall_mem_cons]
    exact ⟨rfl, rfl, List.forall_mem_nil _⟩

theorem array_gives : array.Gives .array where
  byte n b hb := by
    obtain ⟨hn, hbyte⟩ := toNat_upTo hb (by decide)
    simp only [Marker.ofByte, hbyte]
    rw [if_neg (by omega), if_neg (by omega), if_pos (by omega), Nat.add_sub_cancel_left]
  words := by
    simp only [array, List.forall_mem_cons]
    exact ⟨rfl, rfl, List.forall_mem_nil _⟩

theorem str_gives : str.Gives .str where
  byte n b hb := by
    obtain ⟨hn, hbyte⟩ := toNat_upTo hb (by decide)
    simp only [Marker.ofByte, hbyte]
    rw [if_neg (by omega), if_neg (by omega), if_neg (by omega), if_pos (by omega),
      Nat.add_sub_cancel_left]
  words := by
    simp only [str, List.forall_mem_cons]
    exact ⟨rfl, rfl, rfl, List.forall_mem_nil _⟩

theorem bin_gives : bin.Gives .bin where
  byte _ _ hb := by cases hb
  words := by
    simp only [bin, List.forall_mem_cons]
    exact ⟨rfl, rfl, rfl, List.forall_mem_nil _⟩

theorem ext_gives : ext.Gives .ext where
  byte n b hb := by
    simp only [ext] at hb
    split at hb <;> cases hb <;> rfl
  words := by
    simp only [ext, List.forall_mem_cons]
    exact ⟨rfl, rfl, rfl, List.forall_mem_nil _⟩

end Format

theorem Marker.ofByte_negative {n : Nat} (h : n < 32) :
    Marker.ofByte (.ofNat (0xE0 + n)) = .whole (.signed ((n : Int) - 32)) := by
  have hbyte : (UInt8.ofNat (0xE0 + n)).toNat = 0xE0 + n := by rw [UInt8.toNat_ofNat']; omega
  simp only [Marker.ofByte, hbyte]
  rw [if_neg (by omega), if_neg (by omega), if_neg (by omega), if_neg (by omega), if_pos (by omega)]
  congr 2
  omega

/-- **Every spelling of a header is read**, whatever stands behind it. -/
theorem Header.Spelled.read {h : Header} {front : Bytes} (hs : h.Spelled front) (rest : Bytes) :
    Header.read (front ++ rest) = .ok (h, rest) := by
  cases hs with
  | nil | no | yes => exact Header.read_of_whole rfl rest
  | unsigned hn => exact hn.read Format.unsigned_gives rest
  | negative hn => exact Header.read_of_whole (Marker.ofByte_negative hn) rest
  | signed hw hn =>
    have hm : ∀ w ∈ [((0xD0 : UInt8), 1), (0xD1, 2), (0xD2, 4), (0xD3, 8)], Marker.ofByte w.1 =
        .followed w.2 fun n => .signed (twosComplement (8 * w.2) n) := by
      simp only [List.forall_mem_cons]
      exact ⟨rfl, rfl, rfl, rfl, List.forall_mem_nil _⟩
    exact Header.read_of_followed (hm _ hw) hn rest
  | single hn =>
    have hm : Marker.ofByte 0xCA = .followed 4 fun w => .float (.ofSingle w) := rfl
    exact Header.read_of_followed hm hn rest
  | double hn =>
    have hm : Marker.ofByte 0xCB = .followed 8 fun w => .float (.ofDouble w) := rfl
    exact Header.read_of_followed hm hn rest
  | str hn => exact hn.read Format.str_gives rest
  | bin hn => exact hn.read Format.bin_gives rest
  | array hn => exact hn.read Format.array_gives rest
  | map hn => exact hn.read Format.map_gives rest
  | ext hn => exact hn.read Format.ext_gives rest

/-- **A header is read exactly where one of its spellings stands.** -/
theorem Header.read_eq_ok_iff {b rest : Bytes} {h : Header} :
    Header.read b = .ok (h, rest) ↔ ∃ front, h.Spelled front ∧ b = front ++ rest := by
  constructor
  · intro hr
    cases b with
    | nil => cases hr
    | cons m b =>
      rw [Header.read] at hr
      cases hm : Marker.ofByte m with
      | whole h' =>
        simp only [hm, Except.ok.injEq, Prod.mk.injEq] at hr
        obtain ⟨rfl, rfl⟩ := hr
        exact ⟨[m], Marker.spelled_of_whole hm, rfl⟩
      | reserved => simp [hm] at hr
      | followed width header =>
        simp only [hm] at hr
        split at hr
        · next word rest' htake =>
          obtain ⟨hwidth, rfl⟩ := Bytes.take?_eq_some.mp htake
          cases hr
          subst width
          have hspelled := Marker.spelled_of_followed hm (Bytes.bigEndian_lt word)
          rw [Bytes.toBigEndian_bigEndian] at hspelled
          exact ⟨m :: word, hspelled, rfl⟩
        · cases hr
  · rintro ⟨front, hs, rfl⟩
    exact hs.read rest

end Msgpack
end Replica
