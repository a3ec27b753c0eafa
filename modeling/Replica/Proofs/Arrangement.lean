/-
# Command lines in any arrangement

A command line gives the three ports and the file by their places, so that any number of them may be
left out from the end, and the rest by options, each of which may be given once or not at all.  The two
kinds of arguments may be mixed in any way.

None of this matters for what is read.  While the arguments are taken one by one, the value that came
last may still be held back; the invariant is on what the scan has once it has taken that one too, and
says that it has what was given so far and nothing else.

* `Numeral.port?`, `Numeral.word?`: a number is read from all its texts;
* `Scan.step_gives`, `Scan.step_sets`: what one positional and one option do to a scan;
* `Scan.steps_of_shuffle`: what a mixture of both does;
* `CommandLine.config_of_arranged`: the setup that a command line asks for.
-/
import Mathlib.Data.List.Forall2
import Mathlib.Tactic.SplitIfs
import Replica.Config

namespace Replica.CommandLine

/-! ## 1. Numerals -/

/-- The decimal digits of a number, behind some zeros. -/
def padded (zeros n : Nat) : List Char := List.replicate zeros '0' ++ Nat.toDigits 10 n

/-- The texts of a number: its digits, behind any number of zeros, behind a plus sign or none. -/
def Numeral (n : Nat) (text : String) : Prop :=
  ∃ zeros, text.toList = padded zeros n ∨ text.toList = '+' :: padded zeros n

theorem isDigit_of_mem_padded {zeros n : Nat} {c : Char} (h : c ∈ padded zeros n) :
    c.isDigit = true := by
  rcases List.mem_append.mp h with h | h
  · rw [List.eq_of_mem_replicate h]
    rfl
  · exact Nat.isDigit_of_mem_toDigits (by decide) (by decide) h

theorem padded_ne_nil (zeros n : Nat) : padded zeros n ≠ [] := by simp [padded, Nat.toDigits_ne_nil]

theorem digits?_padded (zeros n : Nat) : digits? (padded zeros n) = some n := by
  have hfold : ∀ cs : List Char,
      cs.foldl (fun n c => n * 10 + (c.toNat - 48)) 0 = Nat.ofDigitChars 10 cs 0 := by
    intro cs
    simp only [Nat.mul_comm _ 10]
    exact Nat.ofDigitChars_eq_foldl.symm
  have hall : (padded zeros n).all Char.isDigit = true :=
    List.all_eq_true.mpr fun c hc => isDigit_of_mem_padded hc
  rw [digits?, if_pos (by simp [hall, padded_ne_nil]), hfold, padded, Nat.ofDigitChars_append,
    Nat.ofDigitChars_replicate_zero, Nat.mul_zero, Nat.ofDigitChars_ten_toDigits]

/-- Without a sign a numeral starts with a digit. -/
theorem exists_padded_eq_cons (zeros n : Nat) :
    ∃ c cs, padded zeros n = c :: cs ∧ c ≠ '+' ∧ c ≠ '-' := by
  obtain ⟨c, cs, hcons⟩ := List.exists_cons_of_ne_nil (padded_ne_nil zeros n)
  have hdigit : c.isDigit = true := isDigit_of_mem_padded (hcons ▸ List.mem_cons_self)
  refine ⟨c, cs, hcons, ?_, ?_⟩
  · rintro rfl
    exact absurd hdigit (by decide)
  · rintro rfl
    exact absurd hdigit (by decide)

/-- A port is read from all its texts. -/
theorem Numeral.port? {p : UInt16} {text : String} (h : Numeral p.toNat text) :
    port? text = some p := by
  have hsize : p.toNat < UInt16.size := p.toNat_lt
  obtain ⟨zeros, htext | htext⟩ := h
  · obtain ⟨c, cs, hcons, hplus, hminus⟩ := exists_padded_eq_cons zeros p.toNat
    have hdigits := hcons ▸ digits?_padded zeros p.toNat
    simp [CommandLine.port?, htext, hcons, hdigits, hplus, hminus, hsize]
  · simp [CommandLine.port?, htext, digits?_padded, hsize]

/-- A number of 64 bits is read from all its texts. -/
theorem Numeral.word? {w : UInt64} {text : String} (h : Numeral w.toNat text) :
    word? text = some w := by
  have hsize : w.toNat < UInt64.size := w.toNat_lt
  obtain ⟨zeros, htext | htext⟩ := h
  · obtain ⟨c, cs, hcons, hplus, -⟩ := exists_padded_eq_cons zeros w.toNat
    have hdigits := hcons ▸ digits?_padded zeros w.toNat
    simp [CommandLine.word?, htext, hcons, hdigits, hplus, hsize]
  · simp [CommandLine.word?, htext, digits?_padded, hsize]

/-- A numeral is no option. -/
theorem Numeral.head?_ne {n : Nat} {text : String} (h : Numeral n text) :
    text.toList.head? ≠ some '-' := by
  obtain ⟨zeros, htext | htext⟩ := h
  · obtain ⟨c, cs, hcons, -, hminus⟩ := exists_padded_eq_cons zeros n
    simpa [htext, hcons] using hminus
  · simp [htext]

/-! ## 2. What a command line says -/

/-- A value for each argument that takes one. -/
structure Values where
  httpPort : UInt16
  grpcPort : UInt16
  sidecarPort : UInt16
  dbFile : String
  sidecarHost : String
  proposeTimeoutMs : UInt64

/-- The options that a command line may give. -/
inductive Setting where
  | sidecarHost
  | proposeTimeout
  | noSync
  deriving DecidableEq

/-- One list is a mixture of two others, each in its order. -/
inductive Shuffle {α : Type} : List α → List α → List α → Prop where
  | nil : Shuffle [] [] []
  | left {x : α} {xs ys zs : List α} (h : Shuffle xs ys zs) : Shuffle (x :: xs) ys (x :: zs)
  | right {y : α} {xs ys zs : List α} (h : Shuffle xs ys zs) : Shuffle xs (y :: ys) (y :: zs)

namespace Values

/-- A text gives the value for a slot.  That of a file is not empty, and cannot be taken for an option. -/
def Gives (v : Values) : Slot → String → Prop
  | .httpPort, text => Numeral v.httpPort.toNat text
  | .grpcPort, text => Numeral v.grpcPort.toNat text
  | .sidecarPort, text => Numeral v.sidecarPort.toNat text
  | .dbFile, text => text = v.dbFile ∧ text ≠ "" ∧ text.toList.head? ≠ some '-'
  | .sidecarHost, text => text = v.sidecarHost
  | .proposeTimeout, text => Numeral v.proposeTimeoutMs.toNat text

/-- An argument is an option with its value. -/
def Sets (v : Values) : Setting → String → Prop
  | .sidecarHost, arg => ∃ text, v.Gives .sidecarHost text ∧ arg = "--sidecar-host=" ++ text
  | .proposeTimeout, arg => ∃ text, v.Gives .proposeTimeout text ∧ arg = "--propose-timeout-ms=" ++ text
  | .noSync, arg => arg = "--no-sync"

/-- Some arguments give the values of some slots by their places, and some options, in any
arrangement. -/
def Arranged (v : Values) (slots : List Slot) (settings : List Setting) (args : List String) : Prop :=
  ∃ positionals options, List.Forall₂ v.Gives slots positionals ∧
    List.Forall₂ v.Sets settings options ∧ Shuffle positionals options args

/-- The setup with the values that are given, and the defaults in all other places. -/
def config (v : Values) (slots : List Slot) (settings : List Setting) : Config :=
  let d := Config.default
  { httpPort := if .httpPort ∈ slots then v.httpPort else d.httpPort
    grpcPort := if .grpcPort ∈ slots then v.grpcPort else d.grpcPort
    sidecarPort := if .sidecarPort ∈ slots then v.sidecarPort else d.sidecarPort
    sidecarHost := if .sidecarHost ∈ settings then v.sidecarHost else d.sidecarHost
    dbFile := if .dbFile ∈ slots then v.dbFile else d.dbFile
    syncOnWrite := if .noSync ∈ settings then false else d.syncOnWrite
    proposeTimeout :=
      if .proposeTimeout ∈ settings then .ofMillis v.proposeTimeoutMs.toNat else d.proposeTimeout }

/-- The arguments with the values that are given. -/
def arguments (v : Values) (slots : List Slot) (settings : List Setting) : Arguments where
  httpPort := if .httpPort ∈ slots then some v.httpPort else none
  grpcPort := if .grpcPort ∈ slots then some v.grpcPort else none
  sidecarPort := if .sidecarPort ∈ slots then some v.sidecarPort else none
  dbFile := if .dbFile ∈ slots then some v.dbFile else none
  sidecarHost := if .sidecarHost ∈ settings then some v.sidecarHost else none
  proposeTimeoutMs := if .proposeTimeout ∈ settings then some v.proposeTimeoutMs else none
  noSync := decide (.noSync ∈ settings)

theorem config_arguments (v : Values) (slots : List Slot) (settings : List Setting) :
    (v.arguments slots settings).config = v.config slots settings := by
  simp only [Arguments.config, arguments, config, Config.mk.injEq]
  -- place by place, whether the value is given or not
  refine ⟨?_, ?_, ?_, ?_, ?_, ?_, ?_⟩
  all_goals split_ifs with h
  all_goals first | rfl | simp [h, Config.default]

/-- A value that is given is taken. -/
theorem put_gives {v : Values} {slot : Slot} {text : String} (hslot : slot ∈ Slot.positionals)
    (h : v.Gives slot text) (given : List Slot) (taken : List Setting) :
    slot.put text (v.arguments given taken) = .ok (v.arguments (slot :: given) taken) := by
  cases slot with
  | httpPort =>
    have hport : port? text = some v.httpPort := Numeral.port? h
    simp [Slot.put, hport, checked, arguments, bind, Except.bind]
  | grpcPort =>
    have hport : port? text = some v.grpcPort := Numeral.port? h
    simp [Slot.put, hport, checked, arguments, bind, Except.bind]
  | sidecarPort =>
    have hport : port? text = some v.sidecarPort := Numeral.port? h
    simp [Slot.put, hport, checked, arguments, bind, Except.bind]
  | dbFile =>
    obtain ⟨rfl, hne, -⟩ := h
    simp [Slot.put, hne, arguments]
  | sidecarHost => exact absurd hslot (by decide)
  | proposeTimeout => exact absurd hslot (by decide)

theorem Gives.head?_ne {v : Values} {slot : Slot} {text : String} (h : v.Gives slot text)
    (hslot : slot ∈ Slot.positionals) : text.toList.head? ≠ some '-' := by
  cases slot with
  | httpPort => exact Numeral.head?_ne h
  | grpcPort => exact Numeral.head?_ne h
  | sidecarPort => exact Numeral.head?_ne h
  | dbFile => exact h.2.2
  | sidecarHost => exact absurd hslot (by decide)
  | proposeTimeout => exact absurd hslot (by decide)

end Values

/-! ## 3. One argument -/

namespace Scan

variable {v : Values} {s : Scan} {given free : List Slot} {taken : List Setting}

/-- A scan has the values given so far, once it has taken the one that it holds back. -/
def Has (v : Values) (given free : List Slot) (taken : List Setting) (s : Scan) : Prop :=
  s.settle = .ok ⟨v.arguments given taken, free, none, false⟩

/-- Taking a value leaves the rest of a scan. -/
theorem settle_eq_ok {s s' : Scan} (h : s.settle = .ok s') :
    s'.free = s.free ∧ s'.literal = s.literal ∧ ∀ slot, s.pending ≠ some (slot, none) := by
  unfold settle at h
  split at h
  · next hpending =>
    cases h
    exact ⟨rfl, rfl, by simp [hpending]⟩
  · cases h
  · next slot value hpending =>
    cases hput : slot.put value s.taken with
    | error e =>
      rw [hput] at h
      cases h
    | ok a =>
      rw [hput] at h
      cases h
      exact ⟨rfl, rfl, by simp [hpending]⟩

/-- An argument that does not look like an option is a positional, unless a value is still to come. -/
theorem step_eq_positional {arg : String} (hliteral : s.literal = false)
    (hpending : ∀ slot, s.pending ≠ some (slot, none)) (harg : arg.toList.head? ≠ some '-') :
    s.step arg = s.positional arg := by
  have hno : ∀ cs, arg.toList ≠ '-' :: cs := fun cs hcs => harg (congrArg List.head? hcs)
  unfold step
  rw [if_neg (by simp [hliteral])]
  split
  · next hlist => exact absurd hlist (hno _)
  · next hlist => exact absurd hlist (hno _)
  · next hlist => exact absurd hlist (hno _)
  · next hlist => exact absurd hlist (hno _)
  · split
    · next slot hnone => exact absurd hnone (hpending slot)
    · rfl

/-- **A positional.**  Its value is held back, and has its slot once it is taken. -/
theorem step_gives {slot : Slot} {arg : String} (hs : s.Has v given (slot :: free) taken)
    (hslot : slot ∈ Slot.positionals) (h : v.Gives slot arg) :
    ∃ s', s.step arg = .ok s' ∧ s'.Has v (slot :: given) free taken := by
  have hsettle : s.settle = .ok ⟨v.arguments given taken, slot :: free, none, false⟩ := hs
  obtain ⟨hfree, hliteral, hpending⟩ := settle_eq_ok hsettle
  have hstep := step_eq_positional hliteral.symm hpending (h.head?_ne hslot)
  refine ⟨⟨v.arguments given taken, free, some (slot, some arg), false⟩, ?_, ?_⟩
  · rw [hstep, positional, ← hfree]
    simp [hsettle, bind, Except.bind]
  · simp [Has, settle, Values.put_gives hslot h, bind, Except.bind]

/-- An option with a value behind a `=`. -/
theorem step_eq_option {arg name value : String} (hliteral : s.literal = false)
    (harg : arg.toList = '-' :: '-' :: (name.toList ++ '=' :: value.toList))
    (hname : '=' ∉ name.toList) : s.step arg = s.option name (some value) := by
  have hcut := Text.cut?_append (b := value.toList) hname
  unfold step
  rw [if_neg (by simp [hliteral]), harg]
  split
  · next heq => simp at heq
  · next long _ heq =>
    have hlong : name.toList ++ '=' :: value.toList = long := by simpa using heq
    rw [← hlong, hcut]
    simp
  · next heq => simp at heq
  · next hdash _ heq => exact (hdash (List.cons.inj (List.cons.inj heq).2).1.symm).elim
  · next hlong _ _ => exact (hlong _ rfl).elim

/-- **An option.**  Its value is taken at once. -/
theorem step_sets {setting : Setting} {arg : String} (hs : s.Has v given free taken)
    (hnew : setting ∉ taken) (h : v.Sets setting arg) :
    ∃ s', s.step arg = .ok s' ∧ s'.Has v given free (setting :: taken) := by
  have hsettle : s.settle = .ok ⟨v.arguments given taken, free, none, false⟩ := hs
  obtain ⟨-, hliteral, -⟩ := settle_eq_ok hsettle
  refine ⟨⟨v.arguments given (setting :: taken), free, none, false⟩, ?_, rfl⟩
  cases setting with
  | sidecarHost =>
    obtain ⟨text, rfl, rfl⟩ := h
    have hstep : s.step ("--sidecar-host=" ++ v.sidecarHost) =
        s.option "sidecar-host" (some v.sidecarHost) :=
      step_eq_option hliteral.symm (by simp) (by decide)
    rw [hstep, option, if_pos rfl]
    simp [valued, hsettle, Slot.put, Values.arguments, hnew, bind, Except.bind]
  | proposeTimeout =>
    obtain ⟨text, htext, rfl⟩ := h
    have hstep : s.step ("--propose-timeout-ms=" ++ text) = s.option "propose-timeout-ms" (some text) :=
      step_eq_option hliteral.symm (by simp) (by decide)
    have hword : word? text = some v.proposeTimeoutMs := Numeral.word? htext
    rw [hstep, option, if_neg (by decide), if_pos rfl]
    simp [valued, hsettle, Slot.put, hword, checked, Values.arguments, hnew, bind, Except.bind]
  | noSync =>
    obtain rfl := h
    have hstep : s.step "--no-sync" = s.option "no-sync" none := by
      unfold step
      rw [if_neg (by simp [← hliteral])]
      rfl
    rw [hstep, option, if_neg (by decide), if_neg (by decide), if_pos rfl]
    simp [hsettle, Values.arguments, hnew, bind, Except.bind]

/-! ## 4. A mixture of arguments -/

/-- **A mixture of positionals and options.**  Each argument leaves a scan that has one value more, so in
the end it has them all. -/
theorem steps_of_shuffle {positionals options args : List String}
    (hargs : Shuffle positionals options args) {slots : List Slot} {settings : List Setting}
    (hslots : slots <+: free) (hfree : ∀ slot ∈ free, slot ∈ Slot.positionals)
    (hpositionals : List.Forall₂ v.Gives slots positionals)
    (hoptions : List.Forall₂ v.Sets settings options) (honce : settings.Nodup)
    (hnew : ∀ setting ∈ settings, setting ∉ taken) (hs : s.Has v given free taken) :
    ∃ s' free', args.foldlM step s = .ok s' ∧
      s'.Has v (slots.reverse ++ given) free' (settings.reverse ++ taken) := by
  induction hargs generalizing s given free taken slots settings with
  | nil =>
    cases hpositionals
    cases hoptions
    exact ⟨s, free, rfl, hs⟩
  | left _ ih =>
    cases hpositionals with
    | @cons slot _ slots _ hgives hpositionals =>
      obtain ⟨rest, rfl, hrest⟩ := List.cons_prefix_iff.mp hslots
      obtain ⟨hslot, hfree⟩ := List.forall_mem_cons.mp hfree
      obtain ⟨s₁, hstep, hs₁⟩ := step_gives hs hslot hgives
      obtain ⟨s', free', hsteps, hs'⟩ := ih hrest hfree hpositionals hoptions honce hnew hs₁
      refine ⟨s', free', ?_, ?_⟩
      · rw [List.foldlM_cons, hstep]
        exact hsteps
      · rw [List.reverse_cons, List.append_assoc]
        exact hs'
  | right _ ih =>
    cases hoptions with
    | @cons setting _ settings _ hsets hoptions =>
      obtain ⟨hnew, hnews⟩ := List.forall_mem_cons.mp hnew
      obtain ⟨hfresh, honce⟩ := List.nodup_cons.mp honce
      obtain ⟨s₁, hstep, hs₁⟩ := step_sets hs hnew hsets
      have hnew₁ : ∀ other ∈ settings, other ∉ setting :: taken := by
        intro other hother hmem
        rcases List.mem_cons.mp hmem with rfl | hmem
        · exact hfresh hother
        · exact hnews other hother hmem
      obtain ⟨s', free', hsteps, hs'⟩ := ih hslots hfree hpositionals hoptions honce hnew₁ hs₁
      refine ⟨s', free', ?_, ?_⟩
      · rw [List.foldlM_cons, hstep]
        exact hsteps
      · rw [List.reverse_cons, List.append_assoc]
        exact hs'

end Scan

/-- A reading that ends with a scan has the values of that scan. -/
theorem parse_of_has {v : Values} {s : Scan} {args : List String} {given free : List Slot}
    {taken : List Setting} (h : args.foldlM Scan.step .start = .ok s)
    (hs : s.Has v given free taken) : parse args = .ok (v.arguments given taken) := by
  have hsettle : s.settle = .ok ⟨v.arguments given taken, free, none, false⟩ := hs
  simp [parse, h, hsettle, bind, Except.bind]

/-- **The setup does not depend on the arrangement.**  The arguments give values for some of the places,
from the first on, and some of the options, none of them twice.  In whatever order they stand, they are
taken, and the setup has these values, and in all other places what a node has that is told nothing. -/
theorem config_of_arranged {v : Values} {slots : List Slot} {settings : List Setting}
    {args : List String} (hslots : slots <+: Slot.positionals) (hsettings : settings.Nodup)
    (hargs : v.Arranged slots settings args) :
    (parse args).map Arguments.config = .ok (v.config slots settings) := by
  obtain ⟨positionals, options, hpositionals, hoptions, hshuffle⟩ := hargs
  have hstart : Scan.start.Has v [] Slot.positionals [] := by
    simp [Scan.Has, Scan.start, Scan.settle, Values.arguments, Arguments.none]
  obtain ⟨s, free, hsteps, hs⟩ := Scan.steps_of_shuffle hshuffle hslots (fun _ h => h) hpositionals
    hoptions hsettings (fun _ _ => List.not_mem_nil) hstart
  rw [parse_of_has hsteps hs, Except.map, Values.config_arguments]
  simp [Values.config]

/-- Two ports between two options; the host has an equals sign in it. -/
theorem config_of_arranged_mixed :
    (parse ["--no-sync", "+0080", "--sidecar-host=a=b", "65535"]).map Arguments.config =
      .ok { Config.default with
        httpPort := 80, grpcPort := 65535, sidecarHost := "a=b", syncOnWrite := false } := by
  let v : Values := ⟨80, 65535, 0, "node.db", "a=b", 0⟩
  have hhttp : v.Gives .httpPort "+0080" := ⟨2, .inr (by decide)⟩
  have hgrpc : v.Gives .grpcPort "65535" := ⟨0, .inl (by decide)⟩
  have hsync : v.Sets .noSync "--no-sync" := rfl
  have hhost : v.Sets .sidecarHost "--sidecar-host=a=b" := ⟨"a=b", rfl, rfl⟩
  have hargs : v.Arranged [.httpPort, .grpcPort] [.noSync, .sidecarHost]
      ["--no-sync", "+0080", "--sidecar-host=a=b", "65535"] :=
    ⟨_, _, .cons hhttp (.cons hgrpc .nil), .cons hsync (.cons hhost .nil),
      .right (.left (.right (.left .nil)))⟩
  exact config_of_arranged (by decide) (by decide) hargs

end Replica.CommandLine
