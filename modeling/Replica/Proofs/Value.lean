/-
# Well-formed values

A value is a header with what it announces: nothing more, a payload, or values inside it.  A reader
that passes over values it has no use for should take all of them up to its limit of nesting, stop
exactly at their end, and take nothing that is no value.

* `Value`: the bytes of a value, with a bound on its nesting;
* `skip_eq_ok_iff`: the bytes that are passed over are exactly those of one value.
-/
import Replica.Msgpack
import Replica.Proofs.Spelling

namespace Replica.Msgpack

/-! ## 1. The format of values -/

/-- The bytes of a text or byte string with some payload. -/
inductive Chars (payload : Bytes) : Bytes → Prop where
  | str {header : Bytes} : Format.str.Spells payload.length header → Chars payload (header ++ payload)
  | bin {header : Bytes} : Format.bin.Spells payload.length header → Chars payload (header ++ payload)

/-- Whether a header is all there is of its value. -/
def Header.isWhole : Header → Bool
  | .str _ | .bin _ | .array _ | .map _ | .ext _ => false
  | .nil | .boolean _ | .unsigned _ | .signed _ | .float _ => true

/-- The bytes of a value with at most `levels` lists, maps and extensions inside each other.  A map of
`n` entries holds `2 * n` values; an extension has a byte for its tag in front of its payload. -/
inductive Value : (levels : Nat) → Bytes → Prop where
  | whole {levels : Nat} {h : Header} {b : Bytes} : h.isWhole = true → h.Spelled b → Value levels b
  | chars {levels : Nat} {payload b : Bytes} : Chars payload b → Value levels b
  | array {levels : Nat} {header : Bytes} {items : List Bytes} :
      Format.array.Spells items.length header → (∀ v ∈ items, Value levels v) →
      Value (levels + 1) (header ++ items.flatten)
  | map {levels n : Nat} {header : Bytes} {items : List Bytes} :
      Format.map.Spells n header → items.length = 2 * n → (∀ v ∈ items, Value levels v) →
      Value (levels + 1) (header ++ items.flatten)
  | ext {levels : Nat} {header payload : Bytes} {tag : UInt8} :
      Format.ext.Spells payload.length header → Value (levels + 1) (header ++ tag :: payload)

/-! ## 2. Payloads and repetition -/

theorem payload_eq_ok_iff {n : Nat} {b front rest : Bytes} :
    payload n b = .ok (front, rest) ↔ front.length = n ∧ b = front ++ rest := by
  rw [← Bytes.take?_eq_some, payload]
  cases Bytes.take? n b with
  | none => simp
  | some p => simp

theorem skipPayload_eq_ok_iff {n : Nat} {b rest : Bytes} :
    skipPayload n b = .ok rest ↔ ∃ front, front.length = n ∧ b = front ++ rest := by
  simp only [← payload_eq_ok_iff, skipPayload]
  cases payload n b with
  | error f => simp
  | ok p => obtain ⟨front, rest'⟩ := p; simp

/-- Repeated reading takes what is a row of the things read. -/
theorem repeatedly_sound {read : Bytes → Except Fault Bytes} {P : Bytes → Prop}
    (hread : ∀ b rest, read b = .ok rest → ∃ v, P v ∧ b = v ++ rest) {n : Nat} {b rest : Bytes}
    (h : repeatedly read n b = .ok rest) :
    ∃ items : List Bytes, items.length = n ∧ (∀ v ∈ items, P v) ∧ b = items.flatten ++ rest := by
  induction n generalizing b with
  | zero =>
    cases h
    exact ⟨[], rfl, fun _ hv => absurd hv List.not_mem_nil, rfl⟩
  | succ n ih =>
    rw [repeatedly] at h
    cases hr : read b with
    | error f => simp [hr] at h
    | ok r =>
      simp only [hr] at h
      obtain ⟨v, hv, rfl⟩ := hread b r hr
      obtain ⟨items, rfl, hitems, rfl⟩ := ih h
      refine ⟨v :: items, rfl, List.forall_mem_cons.mpr ⟨hv, hitems⟩, ?_⟩
      rw [List.flatten_cons, List.append_assoc]

theorem repeatedly_complete {read : Bytes → Except Fault Bytes} {items : List Bytes}
    (hread : ∀ v ∈ items, ∀ rest, read (v ++ rest) = .ok rest) (rest : Bytes) :
    repeatedly read items.length (items.flatten ++ rest) = .ok rest := by
  induction items with
  | nil => rfl
  | cons v items ih =>
    obtain ⟨hv, hitems⟩ := List.forall_mem_cons.mp hread
    rw [List.length_cons, repeatedly, List.flatten_cons, List.append_assoc, hv]
    exact ih hitems

/-- A text or byte string is its header and the payload behind it. -/
theorem chars_of_read {n : Nat} {h : Header} {front b payload rest : Bytes}
    (hh : h = .str n ∨ h = .bin n) (hs : h.Spelled front)
    (hp : Msgpack.payload n b = .ok (payload, rest)) :
    ∃ v, Chars payload v ∧ front ++ b = v ++ rest := by
  obtain ⟨rfl, rfl⟩ := payload_eq_ok_iff.mp hp
  refine ⟨front ++ payload, ?_, (List.append_assoc ..).symm⟩
  rcases hh with rfl | rfl
  · cases hs with | str hs => exact .str hs
  · cases hs with | bin hs => exact .bin hs

/-! ## 3. What is passed over is a value -/

theorem skipWith_whole {inner : Option (Bytes → Except Fault Bytes)} {h : Header} {front : Bytes}
    (hwhole : h.isWhole = true) (hs : h.Spelled front) (rest : Bytes) :
    skipWith inner (front ++ rest) = .ok rest := by
  rw [skipWith, hs.read rest]
  cases h with
  | nil | boolean | unsigned | signed | float => cases inner <;> rfl
  | str | bin | array | map | ext => cases hwhole

theorem skipWith_sound {inner : Option (Bytes → Except Fault Bytes)} {levels : Nat}
    (hinner : ∀ read ∈ inner, ∃ deeper, levels = deeper + 1 ∧
      ∀ b rest, read b = .ok rest → ∃ v, Value deeper v ∧ b = v ++ rest)
    {b rest : Bytes} (h : skipWith inner b = .ok rest) : ∃ v, Value levels v ∧ b = v ++ rest := by
  cases hh : Header.read b with
  | error f => simp [skipWith, hh] at h
  | ok p =>
    obtain ⟨header, r⟩ := p
    obtain ⟨front, hfront, rfl⟩ := Header.read_eq_ok_iff.mp hh
    cases hwhole : header.isWhole with
    | true =>
      rw [skipWith_whole hwhole hfront] at h
      cases h
      exact ⟨front, .whole hwhole hfront, rfl⟩
    | false =>
      simp only [skipWith, hh] at h
      cases header with
      | nil | boolean | unsigned | signed | float => cases hwhole
      | str n | bin n =>
        obtain ⟨payload, hn, rfl⟩ := skipPayload_eq_ok_iff.mp h
        obtain ⟨v, hv, hb⟩ :=
          chars_of_read (by simp) hfront (payload_eq_ok_iff.mpr ⟨hn, rfl⟩)
        exact ⟨v, .chars hv, hb⟩
      | array n =>
        cases hfront with | array hs =>
        cases inner with
        | none => cases h
        | some read =>
          obtain ⟨deeper, rfl, hread⟩ := hinner read rfl
          obtain ⟨items, rfl, hitems, rfl⟩ := repeatedly_sound hread h
          exact ⟨_, .array hs hitems, (List.append_assoc ..).symm⟩
      | map n =>
        cases hfront with | map hs =>
        cases inner with
        | none => cases h
        | some read =>
          obtain ⟨deeper, rfl, hread⟩ := hinner read rfl
          obtain ⟨items, hlength, hitems, rfl⟩ := repeatedly_sound hread h
          exact ⟨_, .map hs hlength hitems, (List.append_assoc ..).symm⟩
      | ext n =>
        cases hfront with | ext hs =>
        cases inner with
        | none => cases h
        | some read =>
          obtain ⟨deeper, rfl, -⟩ := hinner read rfl
          cases r with
          | nil => cases h
          | cons tag r =>
            obtain ⟨payload, rfl, rfl⟩ := skipPayload_eq_ok_iff.mp h
            exact ⟨_, .ext hs, by rw [List.append_assoc, List.cons_append]⟩

theorem skip_sound {levels : Nat} {b rest : Bytes} (h : skip levels b = .ok rest) :
    ∃ v, Value levels v ∧ b = v ++ rest := by
  induction levels generalizing b rest with
  | zero => exact skipWith_sound (fun _ hread => absurd hread (by simp)) h
  | succ levels ih =>
    refine skipWith_sound ?_ h
    intro read hread
    obtain rfl : skip levels = read := by simpa using hread
    exact ⟨levels, rfl, fun b rest => ih⟩

/-! ## 4. Every value is passed over -/

theorem skip_eq_skipWith (levels : Nat) : ∃ inner, skip levels = skipWith inner := by
  cases levels with
  | zero => exact ⟨_, rfl⟩
  | succ levels => exact ⟨_, rfl⟩

theorem skipWith_chars {inner : Option (Bytes → Except Fault Bytes)} {payload b : Bytes}
    (hc : Chars payload b) (rest : Bytes) : skipWith inner (b ++ rest) = .ok rest := by
  have hpayload : skipPayload payload.length (payload ++ rest) = .ok rest :=
    skipPayload_eq_ok_iff.mpr ⟨payload, rfl, rfl⟩
  cases hc with
  | str hs =>
    rw [List.append_assoc, skipWith, (Header.Spelled.str hs).read]
    cases inner <;> exact hpayload
  | bin hs =>
    rw [List.append_assoc, skipWith, (Header.Spelled.bin hs).read]
    cases inner <;> exact hpayload

theorem Value.skip {levels : Nat} {v : Bytes} (hv : Value levels v) (rest : Bytes) :
    Msgpack.skip levels (v ++ rest) = .ok rest := by
  induction hv generalizing rest with
  | @whole levels _ _ hwhole hs =>
    obtain ⟨inner, hskip⟩ := skip_eq_skipWith levels
    rw [hskip, skipWith_whole hwhole hs]
  | @chars levels _ _ hc =>
    obtain ⟨inner, hskip⟩ := skip_eq_skipWith levels
    rw [hskip, skipWith_chars hc]
  | array hs _ ih =>
    rw [List.append_assoc, Msgpack.skip, skipWith, (Header.Spelled.array hs).read]
    exact repeatedly_complete ih rest
  | map hs hlength _ ih =>
    rw [List.append_assoc, Msgpack.skip, skipWith, (Header.Spelled.map hs).read]
    simp only [← hlength]
    exact repeatedly_complete ih rest
  | ext hs =>
    rw [List.append_assoc, Msgpack.skip, skipWith, (Header.Spelled.ext hs).read]
    exact skipPayload_eq_ok_iff.mpr ⟨_, rfl, rfl⟩

/-- **What is passed over is exactly one value**, of at most the nesting that is followed. -/
theorem skip_eq_ok_iff {levels : Nat} {b rest : Bytes} :
    Msgpack.skip levels b = .ok rest ↔ ∃ v, Value levels v ∧ b = v ++ rest := by
  constructor
  · exact skip_sound
  · rintro ⟨v, hv, rfl⟩
    exact hv.skip rest

end Replica.Msgpack
