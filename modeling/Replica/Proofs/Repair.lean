/-
# Where repaired characters come from

Repair runs over a whole byte string before anything else is done with it, and a broken stretch may be
several bytes long.  It still keeps damage in its place: an ASCII byte is never taken into a sequence,
as the bytes that continue one are all above `0x7F`.

* `Utf8.Scan.Spells`: every character found has its own bytes in what was read, in a row;
* `Utf8.mem_of_mem_repair`: so a repaired text has an ASCII character only where the byte is;
* `Utf8.toList_repair_append`: and a text may be cut at any ASCII byte before it is repaired.
-/
import Replica.Proofs.StrictText

namespace Replica.Utf8

/-! ## 1. Every character found is spelled -/

/-- What a scan has found is spelled in the bytes it has read, and they end in those of the sequence
under way. -/
def Scan.Spells (s : Scan) (read : Bytes) : Prop :=
  (∀ c, Piece.char c ∈ s.found → encodeChar c <:+: read) ∧
    ∀ q, s.pending = some q → ∃ front, Begun q front ∧ front <:+ read

theorem encodeChar_of_ascii {b : UInt8} (h : b.toNat < 0x80) : encodeChar (Char.ofNat b.toNat) = [b] := by
  rw [encodeChar, toNat_ofNat_of_valid (by omega), if_pos h, ofNat_eq rfl]

/-- What was spelled stays spelled when more is read. -/
theorem spelled_concat {found : List Piece} {read : Bytes}
    (h : ∀ c, Piece.char c ∈ found → encodeChar c <:+: read) (b : UInt8) :
    ∀ c, Piece.char c ∈ found → encodeChar c <:+: read ++ [b] := by
  intro c hc
  exact (h c hc).trans (List.prefix_append read [b]).isInfix

theorem spelled_broken {found : List Piece} {read : Bytes} (n : Nat)
    (h : ∀ c, Piece.char c ∈ found → encodeChar c <:+: read) :
    ∀ c, Piece.char c ∈ Piece.broken n :: found → encodeChar c <:+: read := by
  intro c hc
  rcases List.mem_cons.mp hc with hc | hc
  · cases hc
  · exact h c hc

theorem spelled_char {found : List Piece} {read : Bytes} {c : Char} (hc : encodeChar c <:+ read)
    (h : ∀ c, Piece.char c ∈ found → encodeChar c <:+: read) :
    ∀ c', Piece.char c' ∈ Piece.char c :: found → encodeChar c' <:+: read := by
  intro c' hc'
  rcases List.mem_cons.mp hc' with hc' | hc'
  · cases hc'
    exact hc.isInfix
  · exact h c' hc'

theorem Scan.Spells.start {found : List Piece} {read : Bytes}
    (h : ∀ c, Piece.char c ∈ found → encodeChar c <:+: read) (b : UInt8) :
    (Scan.start found b).Spells (read ++ [b]) := by
  have hfound := spelled_concat h b
  unfold Scan.start
  split
  · next hascii =>
    have hlast : encodeChar (Char.ofNat b.toNat) <:+ read ++ [b] := by
      rw [encodeChar_of_ascii hascii]
      exact List.suffix_append read [b]
    exact ⟨spelled_char hlast hfound, by simp⟩
  · split
    · next q hq =>
      refine ⟨hfound, ?_⟩
      intro q' hq'
      cases hq'
      exact ⟨[b], .lead hq, List.suffix_append read [b]⟩
    · exact ⟨spelled_broken 1 hfound, by simp⟩

theorem Scan.Spells.step {s : Scan} {read : Bytes} (h : s.Spells read) (b : UInt8) :
    (s.step b).Spells (read ++ [b]) := by
  obtain ⟨found, pending⟩ := s
  obtain ⟨hfound, hpending⟩ := h
  cases pending with
  | none => exact Scan.Spells.start hfound b
  | some q =>
    obtain ⟨front, hbegun, hfront⟩ := hpending q rfl
    have hmore : front ++ [b] <:+ read ++ [b] := by
      obtain ⟨before, rfl⟩ := hfront
      exact ⟨before, (List.append_assoc before front [b]).symm⟩
    by_cases hrange : q.low ≤ b.toNat ∧ b.toNat ≤ q.high
    · by_cases howed : q.owed = 1
      · have hchar := hbegun.encodeChar_eq hrange.1 hrange.2 howed
        rw [step_last hrange howed]
        exact ⟨spelled_char (hchar ▸ hmore) (spelled_concat hfound b), by simp⟩
      · rw [step_owed hrange howed]
        refine ⟨spelled_concat hfound b, ?_⟩
        intro q' hq'
        rw [← Option.some.inj hq']
        exact ⟨front ++ [b], hbegun.more hrange.1 hrange.2 howed, hmore⟩
    · have hbroken : Scan.step ⟨found, some q⟩ b = Scan.start (.broken q.read :: found) b := by
        simp [Scan.step, hrange]
      rw [hbroken]
      exact Scan.Spells.start (spelled_broken q.read hfound) b

theorem spells_scan (b : Bytes) : (scan b).Spells b := by
  induction b using List.reverseRecOn with
  | nil => exact ⟨by simp [scan, scanFrom], by simp [scan, scanFrom]⟩
  | append_singleton front b ih =>
    rw [scan_append]
    exact ih.step b

theorem char_of_mem_pieces {s : Scan} {c : Char} (h : Piece.char c ∈ s.pieces) :
    Piece.char c ∈ s.found := by
  obtain ⟨found, pending⟩ := s
  cases pending with
  | none => exact List.mem_reverse.mp h
  | some q =>
    rcases List.mem_cons.mp (List.mem_reverse.mp h) with h | h
    · cases h
    · exact h

/-- **A repaired text has an ASCII character only where its byte is.** -/
theorem mem_of_mem_repair {c : Char} (hc : c.toNat < 0x80) {b : Bytes} (h : c ∈ (repair b).toList) :
    UInt8.ofNat c.toNat ∈ b := by
  rw [repair, String.toList_ofList] at h
  obtain ⟨p, hp, hrepaired⟩ := List.mem_map.mp h
  cases p with
  | broken n =>
    -- The replacement character is not ASCII.
    obtain rfl : '\uFFFD' = c := hrepaired
    exact absurd hc (by decide)
  | char c' =>
    obtain rfl : c' = c := hrepaired
    have hspelled := (spells_scan b).1 c' (char_of_mem_pieces hp)
    have hbytes : encodeChar c' = [UInt8.ofNat c'.toNat] := if_pos hc
    rw [hbytes] at hspelled
    exact hspelled.subset List.mem_cons_self

/-! ## 2. Cutting before repair -/

theorem Begun.low_le {q : Sequence} {front : Bytes} (h : Begun q front) : 0x80 ≤ q.low := by
  cases h with
  | lead hq =>
    rcases lead_cases hq with ⟨-, -, rfl⟩ | ⟨low, high, -, -, rfl, hlow, -⟩ |
      ⟨low, high, -, -, rfl, hlow, -⟩
    · exact Nat.le_refl _
    · exact hlow
    · exact hlow
  | more => exact Nat.le_refl _

/-- An ASCII byte ends whatever sequence is under way. -/
theorem step_ascii {s : Scan} {read : Bytes} (h : s.Spells read) {b : UInt8} (hb : b.toNat < 0x80) :
    s.step b = ⟨.char (Char.ofNat b.toNat) :: s.pieces.reverse, none⟩ := by
  obtain ⟨found, pending⟩ := s
  cases pending with
  | none => simp [Scan.step, Scan.start, Scan.pieces, hb]
  | some q =>
    obtain ⟨front, hbegun, -⟩ := h.2 q rfl
    have hlow := hbegun.low_le
    have hout : ¬ (q.low ≤ b.toNat ∧ b.toNat ≤ q.high) := by omega
    simp [Scan.step, Scan.start, Scan.pieces, hout, hb]

/-- What was found before stays below what is found later. -/
theorem step_found (s : Scan) (found : List Piece) (b : UInt8) :
    Scan.step ⟨s.found ++ found, s.pending⟩ b = ⟨(s.step b).found ++ found, (s.step b).pending⟩ := by
  have hstart (before : List Piece) :
      Scan.start (before ++ found) b =
        ⟨(Scan.start before b).found ++ found, (Scan.start before b).pending⟩ := by
    unfold Scan.start
    split
    · rfl
    · split <;> rfl
  obtain ⟨before, pending⟩ := s
  cases pending with
  | none => exact hstart before
  | some q =>
    simp only [Scan.step]
    split
    · split <;> rfl
    · exact hstart (.broken q.read :: before)

theorem scanFrom_found (b : Bytes) (s : Scan) (found : List Piece) :
    scanFrom ⟨s.found ++ found, s.pending⟩ b =
      ⟨(scanFrom s b).found ++ found, (scanFrom s b).pending⟩ := by
  induction b generalizing s with
  | nil => rfl
  | cons x b ih =>
    have hstep := ih (s.step x)
    rw [← step_found] at hstep
    exact hstep

theorem pieces_found (s : Scan) (found : List Piece) :
    Scan.pieces ⟨s.found ++ found, s.pending⟩ = found.reverse ++ s.pieces := by
  obtain ⟨before, pending⟩ := s
  cases pending <;> simp [Scan.pieces]

/-- A scan may be cut at an ASCII byte. -/
theorem pieces_scan_append {b : UInt8} (hb : b.toNat < 0x80) (front back : Bytes) :
    (scan (front ++ b :: back)).pieces =
      (scan front).pieces ++ .char (Char.ofNat b.toNat) :: (scan back).pieces := by
  have hstep := step_ascii (spells_scan front) hb
  calc (scan (front ++ b :: back)).pieces
      = (scanFrom ((scan front).step b) back).pieces := by rw [scan_append]; rfl
    _ = (scanFrom ⟨[] ++ .char (Char.ofNat b.toNat) :: (scan front).pieces.reverse, none⟩ back).pieces := by
        rw [hstep]; rfl
    _ = (.char (Char.ofNat b.toNat) :: (scan front).pieces.reverse).reverse ++ (scan back).pieces := by
        rw [scanFrom_found back ⟨[], none⟩, pieces_found]; rfl
    _ = (scan front).pieces ++ .char (Char.ofNat b.toNat) :: (scan back).pieces := by simp

/-- **A text may be cut at an ASCII byte before it is repaired.** -/
theorem toList_repair_append {b : UInt8} (hb : b.toNat < 0x80) (front back : Bytes) :
    (repair (front ++ b :: back)).toList =
      (repair front).toList ++ Char.ofNat b.toNat :: (repair back).toList := by
  simp [repair, pieces_scan_append hb, Piece.repaired]

end Replica.Utf8
