/-
# Verdicts that no later byte changes

Bytes may arrive in pieces.  Reading goes from left to right and looks at no byte before it needs it,
so what is decided of some bytes stays decided when more come: only a reading that ran out of bytes may
end otherwise.  And a command that was cut short anywhere is seen to be cut short; it is never taken
for another, shorter command.

* `Stable`: the law for one reading; `Stable.bind` takes it through steps;
* `Stable.truncated_of_cut`: a stable reading that takes all of its bytes runs out on fewer;
* `Command.stable_decode`: the law for commands;
* `Command.decided_append`: what it means to those who deliver commands.
-/
import Replica.Proofs.Written

namespace Replica

/-! ## 1. Stable readings -/

/-- What a reading starts from or ends with, where bytes may be left to read; `more r s` has `s`
behind them. -/
class Leftover (ρ : Type) where
  more : ρ → Bytes → ρ

instance : Leftover Bytes := ⟨fun rest s => rest ++ s⟩

instance {α : Type} : Leftover (α × Bytes) := ⟨fun p s => (p.1, p.2 ++ s)⟩

/-- Behind a whole command nothing is read. -/
instance : Leftover Command := ⟨fun c _ => c⟩

open Leftover (more)

variable {ε σ τ ρ α : Type} [Leftover σ] [Leftover τ] [Leftover ρ] {short : ε → Bool}

/-- A reading on which more bytes have no effect, but for being left over, unless it fell short. -/
def Stable (short : ε → Bool) (read : σ → Except ε ρ) : Prop :=
  ∀ x s, (∃ f, read x = .error f ∧ short f = true) ∨
    read (more x s) = (read x).map fun r => more r s

namespace Stable

theorem append_ok {read : σ → Except ε ρ} (h : Stable short read) {x : σ} {r : ρ}
    (hr : read x = .ok r) (s : Bytes) : read (more x s) = .ok (more r s) := by
  rcases h x s with ⟨f, hf, -⟩ | heq
  · rw [hr] at hf
    cases hf
  · rw [heq, hr]
    rfl

theorem append_error {read : σ → Except ε ρ} (h : Stable short read) {x : σ} {f : ε}
    (hr : read x = .error f) (hf : short f = false) (s : Bytes) : read (more x s) = .error f := by
  rcases h x s with ⟨f', hf', hshort⟩ | heq
  · rw [hr] at hf'
    cases hf'
    rw [hf] at hshort
    cases hshort
  · rw [heq, hr]
    rfl

theorem ok {g : σ → ρ} (h : ∀ x s, g (more x s) = more (g x) s) :
    Stable short fun x => .ok (g x) :=
  fun x s => .inr (congrArg Except.ok (h x s))

theorem error (f : ε) : Stable short fun _ : σ => (.error f : Except ε ρ) := fun _ _ => .inr rfl

/-- One reading after another. -/
theorem bind {read : σ → Except ε τ} {k : τ → Except ε ρ} (h : Stable short read)
    (hk : Stable short k) : Stable short fun x => read x >>= k := by
  intro x s
  rcases h x s with ⟨f, hf, hshort⟩ | heq
  · exact .inl ⟨f, by simp only [hf]; rfl, hshort⟩
  · simp only [heq]
    cases read x with
    | error f => exact .inr rfl
    | ok r => exact hk r s

theorem ite {p : Prop} [Decidable p] {a b : σ → Except ε ρ} (ha : Stable short a)
    (hb : Stable short b) : Stable short fun x => if p then a x else b x := by
  by_cases hp : p
  · simp only [hp, if_true]; exact ha
  · simp only [hp, if_false]; exact hb

/-- A reading that goes on by what was read. -/
theorem pair {k : α × Bytes → Except ε ρ} (h : ∀ a, Stable short fun b => k (a, b)) :
    Stable short k :=
  fun p s => h p.1 p.2 s

/-- **A stable reading that takes all of its bytes runs out on any fewer.** -/
theorem truncated_of_cut {read : Bytes → Except ε (α × Bytes)} (h : Stable short read)
    {front tail : Bytes} {a : α} (hr : read (front ++ tail) = .ok (a, [])) (hne : tail ≠ []) :
    ∃ f, read front = .error f ∧ short f = true := by
  rcases h front tail with hshort | heq
  · exact hshort
  · have hmap : (read front).map (fun r => (r.1, r.2 ++ tail)) = .ok (a, []) := heq.symm.trans hr
    cases hfront : read front with
    | error f => rw [hfront] at hmap; cases hmap
    | ok r =>
      rw [hfront] at hmap
      have hnil : r.2 ++ tail = [] := congrArg Prod.snd (Except.ok.inj hmap)
      exact absurd (List.append_eq_nil_iff.mp hnil).2 hne

end Stable

/-! ## 2. Values -/

namespace Msgpack

def Fault.isTruncation : Fault → Bool
  | .truncated _ => true
  | _ => false

theorem stable_read : Stable Fault.isTruncation Header.read := by
  intro b s
  cases b with
  | nil => exact .inl ⟨_, rfl, rfl⟩
  | cons m b =>
    cases hm : Marker.ofByte m with
    | whole h =>
      right
      rw [Header.read_of_whole hm]
      exact Header.read_of_whole hm (b ++ s)
    | reserved =>
      have hread : ∀ rest, Header.read (m :: rest) = .error .reserved := by
        intro rest
        rw [Header.read, hm]
      right
      rw [hread]
      exact hread (b ++ s)
    | followed width header =>
      cases htake : Bytes.take? width b with
      | none => exact .inl ⟨.truncated .number, by simp [Header.read, hm, htake], rfl⟩
      | some p =>
        have hread : Header.read (m :: b) = .ok (header (Bytes.bigEndian p.1), p.2) := by
          simp [Header.read, hm, htake]
        obtain ⟨front, hs, hb⟩ := Header.read_eq_ok_iff.mp hread
        right
        rw [hread, hb]
        show Header.read (front ++ p.2 ++ s) = _
        rw [List.append_assoc]
        exact hs.read (p.2 ++ s)

theorem stable_payload (n : Nat) : Stable Fault.isTruncation (payload n) := by
  intro b s
  cases htake : Bytes.take? n b with
  | none => exact .inl ⟨.truncated .payload, by simp [payload, htake], rfl⟩
  | some p =>
    have hpayload : payload n b = .ok p := by simp [payload, htake]
    obtain ⟨hn, hb⟩ := payload_eq_ok_iff.mp hpayload
    right
    rw [hpayload]
    refine payload_eq_ok_iff.mpr ⟨hn, ?_⟩
    rw [hb]
    exact List.append_assoc ..

theorem stable_skipPayload (n : Nat) : Stable Fault.isTruncation (skipPayload n) := by
  have hbind : skipPayload n = fun b => payload n b >>= fun p => .ok p.2 := by
    funext b
    rw [skipPayload]
    cases payload n b <;> rfl
  rw [hbind]
  exact (stable_payload n).bind (.ok fun _ _ => rfl)

theorem stable_skipExtension (n : Nat) : Stable Fault.isTruncation (skipExtension n) := by
  intro b s
  cases b with
  | nil => exact .inl ⟨_, rfl, rfl⟩
  | cons tag b => exact stable_skipPayload n b s

theorem stable_repeatedly {read : Bytes → Except Fault Bytes}
    (hread : Stable Fault.isTruncation read) (n : Nat) :
    Stable Fault.isTruncation (repeatedly read n) := by
  induction n with
  | zero => exact .ok fun _ _ => rfl
  | succ n ih =>
    have hbind : repeatedly read (n + 1) = fun b => read b >>= repeatedly read n := by
      funext b
      rw [repeatedly]
      cases read b <;> rfl
    rw [hbind]
    exact hread.bind ih

theorem stable_skipWith {inner : Option (Bytes → Except Fault Bytes)}
    (hinner : ∀ read ∈ inner, Stable Fault.isTruncation read) :
    Stable Fault.isTruncation (skipWith inner) := by
  intro b s
  rcases stable_read b s with ⟨f, hf, hshort⟩ | heq
  · exact .inl ⟨f, by rw [skipWith, hf], hshort⟩
  · have hread : Header.read (b ++ s) = _ := heq
    show _ ∨ skipWith inner (b ++ s) = _
    rw [skipWith, skipWith, hread]
    cases hb : Header.read b with
    | error f => exact .inr rfl
    | ok p =>
      obtain ⟨header, rest⟩ := p
      cases inner with
      | none =>
        cases header with
        | str n | bin n => exact stable_skipPayload n rest s
        | _ => exact .inr rfl
      | some read =>
        cases header with
        | str n | bin n => exact stable_skipPayload n rest s
        | array n => exact stable_repeatedly (hinner read rfl) n rest s
        | map n => exact stable_repeatedly (hinner read rfl) (2 * n) rest s
        | ext n => exact stable_skipExtension n rest s
        | _ => exact .inr rfl

theorem stable_skip (levels : Nat) : Stable Fault.isTruncation (skip levels) := by
  induction levels with
  | zero => exact stable_skipWith fun _ hread => absurd hread (by simp)
  | succ levels ih =>
    refine stable_skipWith ?_
    intro read hread
    obtain rfl : skip levels = read := by simpa using hread
    exact ih

end Msgpack

/-! ## 3. Commands -/

namespace Command

open Msgpack (Header)

theorem stable_lift {read : σ → Except Msgpack.Fault ρ}
    (h : Stable Msgpack.Fault.isTruncation read) :
    Stable Fault.isTruncation fun x => lift (read x) := by
  intro x s
  rcases h x s with ⟨f, hf, hshort⟩ | heq
  · refine .inl ⟨.value f, by simp only [hf]; rfl, ?_⟩
    cases f with
    | truncated part => rfl
    | reserved | tooDeep => cases hshort
  · simp only [heq]
    cases read x with
    | ok r => exact .inr rfl
    | error f => exact .inr rfl

theorem stable_readText : Stable Fault.isTruncation readText := by
  refine (stable_lift Msgpack.stable_read).bind (.pair fun header => ?_)
  cases header with
  | str n | bin n =>
    refine (stable_lift (Msgpack.stable_payload n)).bind (.pair fun payload => ?_)
    cases htext : Utf8.decode payload with
    | ok s => simp only [htext]; exact .ok fun _ _ => rfl
    | error f => simp only [htext]; exact .error _
  | _ => exact .error _

theorem stable_readName : Stable Fault.isTruncation readName := by
  refine (stable_lift Msgpack.stable_read).bind (.pair fun header => ?_)
  cases header with
  | str n | bin n =>
    exact (stable_lift (Msgpack.stable_payload n)).bind (.pair fun _ => .ok fun _ _ => rfl)
  | unsigned n => exact .ok fun _ _ => rfl
  | _ => exact .error _

theorem stable_readEntry (fields : Fields) : Stable Fault.isTruncation (readEntry fields) := by
  refine stable_readName.bind (.pair fun name => ?_)
  cases name with
  | none => exact (stable_lift (Msgpack.stable_skip maxLevels)).bind (.ok fun _ _ => rfl)
  | some field =>
    exact .ite (.error _) (stable_readText.bind (.pair fun text => .ok fun _ _ => rfl))

theorem stable_readEntries (n : Nat) (fields : Fields) :
    Stable Fault.isTruncation (readEntries n fields) := by
  induction n generalizing fields with
  | zero => exact .ok fun _ _ => rfl
  | succ n ih =>
    have hbind : readEntries (n + 1) fields =
        fun b => readEntry fields b >>= fun p => readEntries n p.1 p.2 := by
      funext b
      rw [readEntries]
      cases readEntry fields b <;> rfl
    rw [hbind]
    exact (stable_readEntry fields).bind (.pair fun fields' => ih fields')

/-- What does not depend on the bytes left over. -/
theorem stable_command (c : Except Fault Command) :
    Stable Fault.isTruncation fun _ : Bytes => c := by
  cases c with
  | ok c => exact .ok fun _ _ => rfl
  | error f => exact .error f

theorem stable_readList (n : Nat) : Stable Fault.isTruncation (readList n) := by
  refine .ite (.error _) (stable_readText.bind (.pair fun op => ?_))
  refine .ite (.error _) (stable_readText.bind (.pair fun key => ?_))
  refine .ite (stable_command _) (stable_readText.bind (.pair fun value => ?_))
  exact .ite (stable_command _) (.error _)

/-- **Reading a command is stable**, in whatever form it comes. -/
theorem stable_decode : Stable Fault.isTruncation decode := by
  refine (stable_lift Msgpack.stable_read).bind (.pair fun header => ?_)
  cases header with
  | map n =>
    exact (stable_readEntries n .empty).bind (.pair fun fields => stable_command fields.command)
  | array n => exact stable_readList n
  | bin n =>
    refine (stable_lift (Msgpack.stable_payload n)).bind (.pair fun payload => ?_)
    cases payload with
    | nil => exact .error _
    | cons first payload => exact .error _
  | str n =>
    refine (stable_lift (Msgpack.stable_payload n)).bind (.pair fun payload => ?_)
    cases htext : Utf8.decode payload with
    | ok s => simp only [htext]; exact .error _
    | error f => simp only [htext]; exact .error _
  | _ => exact .error _

/-! ## 4. What is decided stays decided -/

/-- The reason of any other fault begins with a small letter. -/
theorem Fault.head?_reason_ne {f : Fault} (h : f.isTruncation = false) :
    f.reason.toList.head? ≠ some 'I' := by
  -- `delta`, since the equations of `reason` are slow to come by
  delta reason
  cases f with
  | value f =>
    cases f with
    | truncated part => cases h
    | reserved | tooDeep => simp [Msgpack.Fault.message]
  | _ => simp

/-- The faults that say in words that the bytes end too early. -/
theorem Fault.isTruncation_iff_reason {f : Fault} :
    f.isTruncation = true ↔ ∃ detail, f.reason = "IO error while reading marker: " ++ detail ∨
      f.reason = "IO error while reading data: " ++ detail := by
  constructor
  · intro h
    cases f with
    | value f =>
      cases f with
      | truncated part =>
        cases part with
        | marker => exact ⟨"failed to fill whole buffer", .inl (by decide)⟩
        | number => exact ⟨"failed to fill whole buffer", .inr (by decide)⟩
        | payload => exact ⟨"unexpected end of file", .inr (by decide)⟩
      | reserved | tooDeep => cases h
    | _ => cases h
  · rintro ⟨detail, h⟩
    have hfirst : f.reason.toList.head? = some 'I' := by
      rcases h with h | h <;> simp [h]
    cases hshort : f.isTruncation with
    | true => rfl
    | false => exact absurd hfirst (head?_reason_ne hshort)

/-- A command that is cut short anywhere is seen to be cut short. -/
theorem truncated_encode {c : Command} (h : c.Writable) {front tail : Bytes}
    (hcut : encode c = front ++ tail) (hne : tail ≠ []) :
    ∃ f, decode front = .error f ∧ f.isTruncation = true := by
  cases front with
  | nil => exact ⟨.value (.truncated .marker), rfl, rfl⟩
  | cons m front =>
    rw [encode_eq, List.cons_append, List.cons.injEq] at hcut
    obtain ⟨rfl, hbody⟩ := hcut
    have hfresh : Fields.empty.Fresh (known (entriesOf c)) :=
      ⟨nodup_entriesOf c, fun p _ => Fields.get?_empty p.1⟩
    have hread := readEntries_complete h.entries hfresh []
    rw [List.append_nil, hbody] at hread
    obtain ⟨f, hf, hshort⟩ := (stable_readEntries 3 .empty).truncated_of_cut hread hne
    have hheader : Msgpack.Header.Spelled (.map 3) [0x83] := .map (.byte rfl)
    refine ⟨f, ?_, hshort⟩
    rw [← List.singleton_append, decode, bind_read hheader]
    simp only [hf]
    rfl

/-- **What is decided stays decided, and a cut is seen.**  Bytes that make a command make the same one
with any bytes behind them; a fault that does not say that the bytes end too early stays the same
fault; and a written command that lacks its last bytes is found to end too early. -/
theorem decided_append (b s : Bytes) :
    (∀ c, decode b = .ok c → decode (b ++ s) = .ok c) ∧
      (∀ f, decode b = .error f → f.isTruncation = false → decode (b ++ s) = .error f) ∧
      (∀ c : Command, c.Writable → ∀ front, front <+: encode c → front ≠ encode c →
        ∃ f, decode front = .error f ∧ f.isTruncation = true) ∧
      ∀ f : Fault, f.isTruncation = true ↔ ∃ detail,
        f.reason = "IO error while reading marker: " ++ detail ∨
          f.reason = "IO error while reading data: " ++ detail := by
  refine ⟨?_, ?_, ?_, fun f => Fault.isTruncation_iff_reason⟩
  · intro c hc
    exact stable_decode.append_ok hc s
  · intro f hf hshort
    exact stable_decode.append_error hf hshort s
  · rintro c hc front ⟨tail, hcut⟩ hne
    refine truncated_encode hc hcut.symm ?_
    rintro rfl
    exact hne (by rw [← hcut, List.append_nil])

/-- A command with a stray byte behind it, bytes that lack a field, and a command cut in a name. -/
theorem decided_append_stray :
    decode (encode (.set "k" "v") ++ [0xC1]) = .ok (.set "k" "v") ∧
      decode ([0x81, 0x02, 0xA0] ++ [0xC1]) = .error (.missing .op) ∧
      ∃ f, decode [0x83, 0xA2, 0x6F] = .error f ∧ f.isTruncation = true := by
  have hwritable : Writable (.set "k" "v") := by decide
  obtain ⟨hok, -, hcut, -⟩ := decided_append (encode (.set "k" "v")) [0xC1]
  obtain ⟨-, herror, -, -⟩ := decided_append [0x81, 0x02, 0xA0] [0xC1]
  exact ⟨hok _ (by decide), herror _ (by decide) rfl, hcut _ hwritable _ (by decide) (by decide)⟩

end Command
end Replica
