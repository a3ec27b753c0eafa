/-
# Bytes that are a text

Strict reading takes the bytes that writing gives and no others: a character has one spelling, and
what spells no character (an overlong form, a surrogate, a number above the last code point, a
sequence cut short) is refused.

* `Utf8.Begun`: the bytes that led a scan into the sequence under way;
* `Utf8.Scan.Accounts`: a scan without a broken stretch accounts for every byte that it has read;
* `Utf8.decode_eq_ok_iff`: so bytes are read as a text exactly when they are its bytes.
-/
import Mathlib.Data.List.Induction
import Replica.Text.Utf8

namespace Replica.Utf8

/-! ## 1. Sequences under way -/

/-- The sequences that a first byte can begin, by the number of bytes that they owe. -/
theorem lead_cases {b : UInt8} {q : Sequence} (h : lead b = some q) :
    (0xC2 ≤ b.toNat ∧ b.toNat < 0xE0 ∧ q = ⟨b.toNat - 0xC0, 1, 1, 0x80, 0xBF⟩) ∨
    (∃ low high, 0xE0 ≤ b.toNat ∧ b.toNat < 0xF0 ∧ q = ⟨b.toNat - 0xE0, 1, 2, low, high⟩ ∧
      0x80 ≤ low ∧ high ≤ 0xBF ∧
      (b.toNat = 0xE0 → 0xA0 ≤ low) ∧ (b.toNat = 0xED → high ≤ 0x9F)) ∨
    (∃ low high, 0xF0 ≤ b.toNat ∧ b.toNat < 0xF5 ∧ q = ⟨b.toNat - 0xF0, 1, 3, low, high⟩ ∧
      0x80 ≤ low ∧ high ≤ 0xBF ∧
      (b.toNat = 0xF0 → 0x90 ≤ low) ∧ (b.toNat = 0xF4 → high ≤ 0x8F)) := by
  unfold lead at h
  generalize b.toNat = n at h ⊢
  simp only at h
  split at h
  · cases h
  split at h
  · exact .inl ⟨by omega, by omega, (Option.some.inj h).symm⟩
  right
  split at h
  · subst n
    exact .inl ⟨_, _, by omega, by omega, (Option.some.inj h).symm,
      by omega, by omega, by omega, by omega⟩
  split at h
  · subst n
    exact .inl ⟨_, _, by omega, by omega, (Option.some.inj h).symm,
      by omega, by omega, by omega, by omega⟩
  split at h
  · exact .inl ⟨_, _, by omega, by omega, (Option.some.inj h).symm,
      by omega, by omega, by omega, by omega⟩
  right
  split at h
  · subst n
    exact ⟨_, _, by omega, by omega, (Option.some.inj h).symm,
      by omega, by omega, by omega, by omega⟩
  split at h
  · exact ⟨_, _, by omega, by omega, (Option.some.inj h).symm,
      by omega, by omega, by omega, by omega⟩
  split at h
  · subst n
    exact ⟨_, _, by omega, by omega, (Option.some.inj h).symm,
      by omega, by omega, by omega, by omega⟩
  · cases h

/-- The bytes that led into a sequence under way: a first byte, and then bytes in the range that was
open to each. -/
inductive Begun : Sequence → Bytes → Prop where
  | lead {b : UInt8} {q : Sequence} : lead b = some q → Begun q [b]
  | more {q : Sequence} {front : Bytes} {b : UInt8} : Begun q front →
      q.low ≤ b.toNat → b.toNat ≤ q.high → q.owed ≠ 1 →
      Begun ⟨q.bits * 64 + (b.toNat - 0x80), q.read + 1, q.owed - 1, 0x80, 0xBF⟩ (front ++ [b])

theorem Begun.read_add_owed {q : Sequence} {front : Bytes} (h : Begun q front) :
    1 ≤ q.read ∧ 1 ≤ q.owed ∧ q.read + q.owed ≤ 4 := by
  induction h with
  | lead hq =>
    rcases lead_cases hq with ⟨-, -, rfl⟩ | ⟨low, high, -, -, rfl, -⟩ | ⟨low, high, -, -, rfl, -⟩ <;>
      simp
  | more _ _ _ _ ih => simp only; omega

theorem ofNat_eq {n : Nat} {b : UInt8} (h : n = b.toNat) : UInt8.ofNat n = b := by
  rw [h, UInt8.ofNat_toNat]

theorem toNat_ofNat_of_valid {n : Nat} (h : n < 0xD800 ∨ (0xDFFF < n ∧ n < 0x110000)) :
    (Char.ofNat n).toNat = n := by
  rw [Char.ofNat, dif_pos h]
  rfl

theorem encodeChar_two {a b : UInt8} {n : Nat} (hn : n = (a.toNat - 0xC0) * 64 + (b.toNat - 0x80))
    (ha : 0xC2 ≤ a.toNat ∧ a.toNat < 0xE0) (hb : 0x80 ≤ b.toNat ∧ b.toNat ≤ 0xBF) :
    encodeChar (Char.ofNat n) = [a, b] := by
  have h0 : UInt8.ofNat (0xC0 + n / 64) = a := ofNat_eq (by omega)
  have h1 : UInt8.ofNat (0x80 + n % 64) = b := ofNat_eq (by omega)
  rw [encodeChar, toNat_ofNat_of_valid (by omega)]
  rw [if_neg (by omega), if_pos (by omega), h0, h1]

theorem encodeChar_three {a b c : UInt8} {n : Nat}
    (hn : n = ((a.toNat - 0xE0) * 64 + (b.toNat - 0x80)) * 64 + (c.toNat - 0x80))
    (ha : 0xE0 ≤ a.toNat ∧ a.toNat < 0xF0) (hb : 0x80 ≤ b.toNat ∧ b.toNat ≤ 0xBF)
    (hc : 0x80 ≤ c.toNat ∧ c.toNat ≤ 0xBF) (hshort : a.toNat = 0xE0 → 0xA0 ≤ b.toNat)
    (hsurrogate : a.toNat = 0xED → b.toNat ≤ 0x9F) : encodeChar (Char.ofNat n) = [a, b, c] := by
  have h0 : UInt8.ofNat (0xE0 + n / 4096) = a := ofNat_eq (by omega)
  have h1 : UInt8.ofNat (0x80 + n / 64 % 64) = b := ofNat_eq (by omega)
  have h2 : UInt8.ofNat (0x80 + n % 64) = c := ofNat_eq (by omega)
  rw [encodeChar, toNat_ofNat_of_valid (by omega)]
  rw [if_neg (by omega), if_neg (by omega), if_pos (by omega), h0, h1, h2]

theorem encodeChar_four {a b c d : UInt8} {n : Nat}
    (hn : n = (((a.toNat - 0xF0) * 64 + (b.toNat - 0x80)) * 64 + (c.toNat - 0x80)) * 64 +
      (d.toNat - 0x80))
    (ha : 0xF0 ≤ a.toNat ∧ a.toNat < 0xF5) (hb : 0x80 ≤ b.toNat ∧ b.toNat ≤ 0xBF)
    (hc : 0x80 ≤ c.toNat ∧ c.toNat ≤ 0xBF) (hd : 0x80 ≤ d.toNat ∧ d.toNat ≤ 0xBF)
    (hshort : a.toNat = 0xF0 → 0x90 ≤ b.toNat) (hlast : a.toNat = 0xF4 → b.toNat ≤ 0x8F) :
    encodeChar (Char.ofNat n) = [a, b, c, d] := by
  have h0 : UInt8.ofNat (0xF0 + n / 262144) = a := ofNat_eq (by omega)
  have h1 : UInt8.ofNat (0x80 + n / 4096 % 64) = b := ofNat_eq (by omega)
  have h2 : UInt8.ofNat (0x80 + n / 64 % 64) = c := ofNat_eq (by omega)
  have h3 : UInt8.ofNat (0x80 + n % 64) = d := ofNat_eq (by omega)
  rw [encodeChar, toNat_ofNat_of_valid (by omega)]
  rw [if_neg (by omega), if_neg (by omega), if_neg (by omega), h0, h1, h2, h3]

/-- **A sequence that comes to its end spells a character**, and its bytes are those that the
character is written with. -/
theorem Begun.encodeChar_eq {q : Sequence} {front : Bytes} {b : UInt8} (h : Begun q front)
    (hlow : q.low ≤ b.toNat) (hhigh : b.toNat ≤ q.high) (howed : q.owed = 1) :
    encodeChar (Char.ofNat (q.bits * 64 + (b.toNat - 0x80))) = front ++ [b] := by
  cases h with
  | lead hq =>
    rcases lead_cases hq with ⟨h1, h2, rfl⟩ | ⟨low, high, -, -, rfl, -⟩ | ⟨low, high, -, -, rfl, -⟩
    · exact encodeChar_two rfl ⟨h1, h2⟩ ⟨hlow, hhigh⟩
    · cases howed
    · cases howed
  | more h hlow' hhigh' howed' =>
    cases h with
    | lead hq =>
      rcases lead_cases hq with ⟨-, -, rfl⟩ | ⟨low, high, h1, h2, rfl, h3, h4, h5, h6⟩ |
        ⟨low, high, -, -, rfl, -⟩
      · exact absurd rfl howed'
      · have hrange := And.intro (Nat.le_trans h3 hlow') (Nat.le_trans hhigh' h4)
        exact encodeChar_three rfl ⟨h1, h2⟩ hrange ⟨hlow, hhigh⟩
          (fun h => Nat.le_trans (h5 h) hlow') (fun h => Nat.le_trans hhigh' (h6 h))
      · cases howed
    | more h hlow'' hhigh'' howed'' =>
      cases h with
      | lead hq =>
        rcases lead_cases hq with ⟨-, -, rfl⟩ | ⟨low, high, -, -, rfl, -⟩ |
          ⟨low, high, h1, h2, rfl, h3, h4, h5, h6⟩
        · exact absurd rfl howed''
        · exact absurd rfl howed'
        · have hrange := And.intro (Nat.le_trans h3 hlow'') (Nat.le_trans hhigh'' h4)
          exact encodeChar_four rfl ⟨h1, h2⟩ hrange ⟨hlow', hhigh'⟩ ⟨hlow, hhigh⟩
            (fun h => Nat.le_trans (h5 h) hlow'') (fun h => Nat.le_trans hhigh'' (h6 h))
      | more h _ _ _ =>
        -- No sequence has a fifth byte.
        have hlength := h.read_add_owed
        simp only at howed howed' howed''
        omega

/-! ## 2. What a scan has read -/

/-- A scan accounts for some bytes if it has found a broken stretch in them, or else they are the
bytes of the characters found with those of the sequence under way. -/
def Scan.Accounts (s : Scan) (b : Bytes) : Prop :=
  (∃ n, Piece.broken n ∈ s.found) ∨
  ∃ front, b = (s.found.reverse.filterMap Piece.char?).flatMap encodeChar ++ front ∧
    match s.pending with
    | none => front = []
    | some q => Begun q front

theorem Scan.Accounts.start {found : List Piece} {read : Bytes} (h : Accounts ⟨found, none⟩ read)
    (b : UInt8) : (Scan.start found b).Accounts (read ++ [b]) := by
  have hb := b.toNat_lt
  rcases h with ⟨n, hn⟩ | ⟨front, hread, rfl⟩
  · refine .inl ⟨n, ?_⟩
    unfold Scan.start
    split
    · exact List.mem_cons_of_mem _ hn
    · split
      · exact hn
      · exact List.mem_cons_of_mem _ hn
  · rw [List.append_nil] at hread
    unfold Scan.start
    split
    · next hascii =>
      refine .inr ⟨[], ?_, rfl⟩
      have hchar : encodeChar (Char.ofNat b.toNat) = [b] := by
        rw [encodeChar, toNat_ofNat_of_valid (by omega), if_pos hascii, ofNat_eq rfl]
      simp [hread, List.filterMap_append, Piece.char?, hchar]
    · split
      · next q hq => exact .inr ⟨[b], by rw [hread], .lead hq⟩
      · exact .inl ⟨1, List.mem_cons_self⟩

theorem Scan.Accounts.step {s : Scan} {read : Bytes} (h : s.Accounts read) (b : UInt8) :
    (s.step b).Accounts (read ++ [b]) := by
  obtain ⟨found, pending⟩ := s
  cases pending with
  | none => exact h.start b
  | some q =>
    by_cases hrange : q.low ≤ b.toNat ∧ b.toNat ≤ q.high
    · rcases h with ⟨n, hn⟩ | ⟨front, hread, hbegun⟩
      · by_cases howed : q.owed = 1
        · rw [step_last hrange howed]
          exact .inl ⟨n, List.mem_cons_of_mem _ hn⟩
        · rw [step_owed hrange howed]
          exact .inl ⟨n, hn⟩
      · by_cases howed : q.owed = 1
        · rw [step_last hrange howed]
          refine .inr ⟨[], ?_, rfl⟩
          have hchar := hbegun.encodeChar_eq hrange.1 hrange.2 howed
          simp [hread, List.filterMap_append, Piece.char?, hchar]
        · rw [step_owed hrange howed]
          exact .inr ⟨front ++ [b], by rw [hread, List.append_assoc],
            hbegun.more hrange.1 hrange.2 howed⟩
    · have hbroken : Scan.step ⟨found, some q⟩ b = Scan.start (.broken q.read :: found) b := by
        simp [Scan.step, hrange]
      rw [hbroken]
      exact Scan.Accounts.start (.inl ⟨q.read, List.mem_cons_self⟩) b

theorem accounts_scan (b : Bytes) : (scan b).Accounts b := by
  induction b using List.reverseRecOn with
  | nil => exact .inr ⟨[], rfl, rfl⟩
  | append_singleton front b ih =>
    rw [scan_append]
    exact ih.step b

/-! ## 3. Texts and their bytes -/

theorem firstBroken_of_mem {n : Nat} {pieces : List Piece} (h : .broken n ∈ pieces) (index : Nat) :
    ∃ f, firstBroken index pieces = .error f := by
  induction pieces generalizing index with
  | nil => cases h
  | cons p pieces ih =>
    cases p with
    | broken m => exact ⟨_, rfl⟩
    | char c =>
      rcases List.mem_cons.mp h with h | h
      · cases h
      · exact ih h _

/-- A scan without a fault has found no broken stretch and stands between characters. -/
theorem Scan.intact_of_fault? {s : Scan} (h : s.fault? = none) :
    (∀ n, Piece.broken n ∉ s.found) ∧ s.pending = none := by
  unfold Scan.fault? at h
  constructor
  · intro n hn
    obtain ⟨f, hf⟩ := firstBroken_of_mem (List.mem_reverse.mpr hn) 0
    rw [hf] at h
    cases h
  · cases hpending : s.pending with
    | none => rfl
    | some q =>
      rw [hpending] at h
      split at h
      · cases h
      · cases h
      · next hnone => cases hnone

/-- **Bytes are read as a text exactly when they are its bytes.** -/
theorem decode_eq_ok_iff {b : Bytes} {s : String} : decode b = .ok s ↔ b = encode s := by
  constructor
  · intro h
    unfold decode at h
    simp only at h
    split at h
    · cases h
    · next hfault =>
      obtain ⟨hnone, hpending⟩ := Scan.intact_of_fault? hfault
      rcases accounts_scan b with ⟨n, hn⟩ | ⟨front, hread, hfront⟩
      · exact absurd hn (hnone n)
      · rw [hpending] at hfront
        rw [← Except.ok.inj h, encode, String.toList_ofList, ← List.append_nil (List.flatMap ..),
          ← hfront]
        exact hread
  · rintro rfl
    exact decode_encode s

end Replica.Utf8
