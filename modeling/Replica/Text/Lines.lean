/-
# Lines of a text

A line ends at a line feed; a carriage return directly before that line feed belongs to the line
end.  A carriage return anywhere else is an ordinary character of its line, also at the end of the
text, and the last line needs no line end.

* `lines_append`: a text may be cut after any line feed, and its lines are those of both parts.
-/

namespace Replica.Text

/-- Where the reading of lines stands: the finished lines, the latest first, and the characters of
the line under way, the latest first. -/
structure LineScan where
  finished : List (List Char)
  current : List Char

namespace LineScan

/-- The line whose reversed characters were followed by a line feed. -/
def chomp : List Char → List Char
  | '\r' :: rest => rest.reverse
  | cs => cs.reverse

def step (s : LineScan) (c : Char) : LineScan :=
  if c = '\n' then ⟨chomp s.current :: s.finished, []⟩ else ⟨s.finished, c :: s.current⟩

/-- All lines in order; an unfinished one counts if it is not empty. -/
def lines (s : LineScan) : List (List Char) :=
  if s.current.isEmpty then s.finished.reverse else (s.current.reverse :: s.finished).reverse

end LineScan

/-- The lines of a text, without their ends. -/
def lines (cs : List Char) : List (List Char) :=
  (cs.foldl LineScan.step ⟨[], []⟩).lines

theorem foldl_step_finished (cs : List Char) (finished : List (List Char)) (current : List Char) :
    cs.foldl LineScan.step ⟨finished, current⟩ =
      ⟨(cs.foldl LineScan.step ⟨[], current⟩).finished ++ finished,
        (cs.foldl LineScan.step ⟨[], current⟩).current⟩ := by
  induction cs generalizing finished current with
  | nil => rfl
  | cons c cs ih =>
    simp only [List.foldl_cons, LineScan.step]
    split
    · rw [ih, ih [LineScan.chomp current]]
      simp
    · rw [ih]

/-- **A text may be cut after a line feed.** -/
theorem lines_append (a b : List Char) :
    lines (a ++ '\n' :: b) = lines (a ++ ['\n']) ++ lines b := by
  have h (s : LineScan) : (LineScan.mk s.finished []).lines = s.finished.reverse := rfl
  simp only [lines, List.foldl_append, List.foldl_cons, List.foldl_nil]
  generalize a.foldl LineScan.step ⟨[], []⟩ = s
  simp only [LineScan.step, if_true]
  rw [foldl_step_finished b]
  generalize b.foldl LineScan.step ⟨[], []⟩ = t
  simp only [LineScan.lines]
  cases t.current <;> simp

theorem foldl_step_of_notMem {cs : List Char} (h : '\n' ∉ cs) (current : List Char) :
    cs.foldl LineScan.step ⟨[], current⟩ = ⟨[], cs.reverse ++ current⟩ := by
  induction cs generalizing current with
  | nil => rfl
  | cons c cs ih =>
    simp only [List.mem_cons, not_or] at h
    simp [LineScan.step, Ne.symm h.1, ih h.2]

/-- A line without a line feed in it, ended by one. -/
theorem lines_singleton {cs : List Char} (h : '\n' ∉ cs) :
    lines (cs ++ ['\n']) = [LineScan.chomp cs.reverse] := by
  simp [lines, foldl_step_of_notMem h, LineScan.step, LineScan.lines]

/-- A line without a line feed in it, ended by the end of the text. -/
theorem lines_of_notMem {cs : List Char} (h : '\n' ∉ cs) : lines cs = if cs = [] then [] else [cs] := by
  simp [lines, foldl_step_of_notMem h, LineScan.lines]

end Replica.Text
