/-
# A save that stops

A save may stop anywhere: between two steps, in the middle of writing, or at a step that fails.  Until the
move only the temporary file has changed, and the path of a state file never leads through it; so what is
loaded afterwards is the old snapshot or the new one.  The temporary file that was left behind is emptied
before it is used again, so it makes no difference to what comes later.

* `StateFile.withoutTemp_agrees`: a new instance works as if nothing had been left behind;
* `StateFile.save_stopped`: the old snapshot or the new one, and nothing in between.
-/
import Replica.Proofs.Saving

namespace Replica.StateFile

/-! ## 1. What was left behind -/

/-- The disk without a temporary file. -/
def withoutTemp (f : StateFile) (d : Disk) : Disk :=
  match d.find f.tempPath with
  | .ok (t, .file _) => d.remove t
  | _ => d

theorem withoutTemp_cases (f : StateFile) (d : Disk) :
    f.withoutTemp d = d ∨ ∃ t b, d.place? f.tempPath = some t ∧ d.get? t = some (.file b) ∧
      f.withoutTemp d = d.remove t := by
  unfold withoutTemp
  split
  · next t b hfind =>
    obtain ⟨hplace, hfile⟩ := Disk.place?_of_find_file hfind
    exact .inr ⟨t, b, hplace, hfile, rfl⟩
  · exact .inl rfl

theorem prepare_of_place?_temp {f : StateFile} {d : Disk} {t : Location}
    (h : d.place? f.tempPath = some t) : prepare f.path d = (.ok (), d) := by
  obtain ⟨dirs, last, hpath, htemp⟩ := f.names_temp
  obtain ⟨hlegible, -, loc, hwalk, -⟩ := (Disk.place?_concat_iff htemp (isName_temp last)).mp h
  by_cases hempty : f.path = ""
  · rw [hempty]
    rfl
  · exact prepare_of_walk (hlegible.of_append hempty) hpath hwalk

/-- **A temporary file that was left behind makes no difference.**  A new instance is set up the same way,
loads the same, and saves to the same disk, as if the file were not there. -/
theorem withoutTemp_agrees (f : StateFile) (d : Disk) :
    ∃ r d₁ d₂, prepare f.path d = (r, d₁) ∧ prepare f.path (f.withoutTemp d) = (r, d₂) ∧
      f.load d₂ = f.load d₁ ∧ ∀ b, f.save b d₂ = f.save b d₁ := by
  rcases f.withoutTemp_cases d with hsame | ⟨t, content, hplace, hfile, hremove⟩
  · rw [hsame]
    exact ⟨_, _, _, rfl, rfl, rfl, fun _ => rfl⟩
  have ht : d.get? t ≠ some .directory := by simp [hfile]
  have hget := Disk.get?_remove_below d (Disk.place?_ne_nil hplace)
  have ht' : (d.remove t).get? t ≠ some .directory := by simp [hget]
  have hoff : ∀ l, l ≠ t → (d.remove t).get? l = d.get? l := fun l hl => by rw [hget, if_neg hl]
  have hplace' : (d.remove t).place? f.tempPath = some t :=
    ((Disk.sameDirectories_of_eq_off hoff ht ht').place? f.tempPath).trans hplace
  refine ⟨.ok (), d, d.remove t, prepare_of_place?_temp hplace, ?_, ?_, ?_⟩
  · rw [hremove]
    exact prepare_of_place?_temp hplace'
  · exact load_congr (find_path_eq hplace hoff ht ht')
  · intro b
    have hcreate : d.create f.tempPath = .ok (t, d.put t (.file [])) :=
      Disk.create_eq_ok_iff.mpr ⟨hplace, ht, rfl⟩
    have hcreate' : (d.remove t).create f.tempPath = .ok (t, d.put t (.file [])) :=
      Disk.create_eq_ok_iff.mpr ⟨hplace', ht', (Disk.put_remove d t _).symm⟩
    simp only [save, saveSteps, runSteps, SaveStep.run, hcreate, hcreate']

/-! ## 2. The old snapshot or the new one -/

/-- A save of a snapshot stops after these steps, of which the last one may be a part of the writing. -/
def Stopped (f : StateFile) (b : Bytes) (steps : List SaveStep) : Prop :=
  steps <+: f.saveSteps b ∨ ∃ part, part <+: b ∧ steps = [.create, .write part]

/-- Only a save that stops at its end has come to the move. -/
theorem Stopped.cases {f : StateFile} {b : Bytes} {steps : List SaveStep} (h : f.Stopped b steps) :
    .rename ∉ steps ∨ steps = f.saveSteps b := by
  rcases h with hsteps | ⟨part, -, rfl⟩
  · have hsave : f.saveSteps b =
        [.create, .write b, if f.sync then .sync else .flush] ++ [.rename] := rfl
    rw [hsave] at hsteps ⊢
    rcases List.prefix_concat_iff.mp hsteps with hall | hfront
    · exact .inr hall
    · refine .inl ?_
      intro hmem
      have hrename := hfront.subset hmem
      cases hsync : f.sync <;> simp [hsync] at hrename
  · exact .inl (by simp)

/-- **What a save leaves where it stops**: the disk as it was, a temporary file with some content, or the
new snapshot in place, and the last only after all steps. -/
theorem runSteps_cases {f : StateFile} {b : Bytes} {steps : List SaveStep} (h : f.Stopped b steps)
    {d : Disk} {r : Except Failure Unit} {s : Progress} (hrun : f.runSteps ⟨d, []⟩ steps = (r, s)) :
    (¬ (.rename ∈ steps ∧ r = .ok ()) ∧ f.Pending d s) ∨
    (.rename ∈ steps ∧ r = .ok () ∧ ∃ t p, f.Moved d t p b s.disk) := by
  rcases h.cases with hnot | rfl
  · exact .inl ⟨fun hdone => hnot hdone.1, Pending.runSteps (.inl rfl) hnot hrun⟩
  · have hlast : SaveStep.rename ∈ f.saveSteps b := by simp [saveSteps]
    rcases runSteps_saveSteps hrun with ⟨hr, hpending⟩ | ⟨hr, hmoved⟩
    · exact .inl ⟨fun hdone => hr hdone.2, hpending⟩
    · exact .inr ⟨hlast, hr, hmoved⟩

/-- **A save that stops leaves the old snapshot or the new one.**  Wherever a save stops, and whichever
step failed, the path gives what it gave before, or exactly the new bytes if the move was done; nothing
changes but what the two paths lead to.  From there on a new instance on the same path works as if there
were no temporary file, and saves if neither path leads to a directory. -/
theorem save_stopped {f : StateFile} {b : Bytes} {steps : List SaveStep} (h : f.Stopped b steps)
    (d : Disk) :
    ∃ r s, f.runSteps ⟨d, []⟩ steps = (r, s) ∧
      (SaveStep.rename ∈ steps ∧ r = .ok () → f.load s.disk = .ok (some b)) ∧
      (¬ (SaveStep.rename ∈ steps ∧ r = .ok ()) → f.load s.disk = f.load d) ∧
      (∀ l, d.place? f.path ≠ some l → d.place? f.tempPath ≠ some l → s.disk.get? l = d.get? l) ∧
      ∃ q d₁ d₂, prepare f.path s.disk = (q, d₁) ∧ prepare f.path (f.withoutTemp s.disk) = (q, d₂) ∧
        f.load d₂ = f.load d₁ ∧
        (∀ b', f.save b' d₂ = f.save b' d₁) ∧
        ∀ b' t p, d₁.place? f.tempPath = some t → d₁.get? t ≠ some .directory →
          d₁.place? f.path = some p → d₁.get? p ≠ some .directory →
          ∃ d', f.save b' d₁ = (.ok (), d') ∧ f.load d' = .ok (some b') := by
  cases hrun : f.runSteps ⟨d, []⟩ steps with
  | mk r s =>
  refine ⟨r, s, rfl, ?_, ?_, ?_, ?_⟩
  · intro hdone
    rcases runSteps_cases h hrun with ⟨hnot, -⟩ | ⟨-, -, t, p, hmoved⟩
    · exact absurd hdone hnot
    · exact hmoved.load
  · intro hnot
    rcases runSteps_cases h hrun with ⟨-, hpending⟩ | ⟨hmem, hr, -⟩
    · exact hpending.load
    · exact absurd ⟨hmem, hr⟩ hnot
  · intro l hpath htemp
    rcases runSteps_cases h hrun with ⟨-, hpending⟩ | ⟨-, -, t, p, hmoved⟩
    · exact hpending.get?_eq htemp
    · exact hmoved.get?_eq hpath htemp
  · obtain ⟨q, d₁, d₂, hready, hready', hload, hsave⟩ := f.withoutTemp_agrees s.disk
    refine ⟨q, d₁, d₂, hready, hready', hload, hsave, ?_⟩
    intro b' t p htemp hfree hplace hp
    obtain ⟨d', hsaved, hmoved⟩ := save_of_free htemp hfree hplace hp
    exact ⟨d', hsaved, hmoved.load⟩

/-- A save that stops in the middle of writing over what an earlier one left behind: the old snapshot is
loaded, and the next save goes through. -/
theorem save_stopped_in_writing :
    ∃ s d', (⟨"kv.db", true⟩ : StateFile).runSteps
        ⟨⟨[(["kv.db"], .file (Utf8.encode "old=1\n")), (["kv.db.tmp"], .file [0xFF])]⟩, []⟩
        [.create, .write (Utf8.encode "k=")] = (.ok (), s) ∧
      (⟨"kv.db", true⟩ : StateFile).load s.disk = .ok (some (Utf8.encode "old=1\n")) ∧
      (⟨"kv.db", true⟩ : StateFile).save (Utf8.encode "k=v\n") s.disk = (.ok (), d') ∧
      (⟨"kv.db", true⟩ : StateFile).load d' = .ok (some (Utf8.encode "k=v\n")) := by
  obtain ⟨r, s, hrun, -, hold, -, q, d₁, d₂, hready, -, -, -, hsaves⟩ :=
    save_stopped (f := ⟨"kv.db", true⟩) (b := Utf8.encode "k=v\n")
      (.inr ⟨Utf8.encode "k=", by decide, rfl⟩)
      ⟨[(["kv.db"], .file (Utf8.encode "old=1\n")), (["kv.db.tmp"], .file [0xFF])]⟩
  cases hrun
  cases hready
  obtain ⟨d', hsaved, hloaded⟩ := hsaves (Utf8.encode "k=v\n") ["kv.db.tmp"] ["kv.db"] (by decide)
    (by decide) (by decide) (by decide)
  exact ⟨_, d', rfl, hold (by simp), hsaved, hloaded⟩

end Replica.StateFile
