/-
# A store over a file and a store over memory

What a store over memory is for a test, a store over a state file is for a replica that runs.  The two
are driven side by side: changes, lookups, and opening the store anew, while a directory in the place of
the temporary file comes and goes.  Memory that refuses saves exactly while the directory is there gives
the same answers, up to the text of an error, and holds what the state file holds.

* `Store.act`, `Store.perform`: actions on a store over either kind of storage;
* `Store.Mirrors.act`: one action keeps file and memory alike, and gives the same answer;
* `Store.file_refines_memory`: so does every run.
-/
import Replica.Proofs.Obstruction

namespace Replica

/-! ## 1. Actions -/

/-- A failure without its text. -/
def Failure.withoutText : Failure → Failure
  | .decode _ => .decode ""
  | .encode _ => .encode ""
  | .persistence _ => .persistence ""
  | .timeout deadline => .timeout deadline
  | .transport _ => .transport ""
  | .unknownOperation _ => .unknownOperation ""
  | .invalidCommand _ => .invalidCommand ""
  | .io _ => .io ""

/-- Storages whose saves can be made to fail, and on which a store can be opened anew. -/
class Medium (σ : Type) extends Storage σ where
  reopen : σ → Except Failure (Store σ) × σ
  obstruct : Bool → σ → σ

instance : Medium Memory where
  reopen m := (Store.load m, m)
  obstruct := Memory.failWrites

instance : Medium FileStorage where
  reopen s :=
    let (result, disk) := Store.openFile s.file s.disk
    (result, { s with disk })
  obstruct on s := { s with disk := s.file.obstruct on s.disk }

namespace Store

/-- What is done to a store or to its storage. -/
inductive Action where
  | set (key value : String)
  | remove (key : String)
  | get (key : String)
  | contains (key : String)
  /-- Drop the store and open it anew. -/
  | reopen
  /-- From now on saves are obstructed, or no longer. -/
  | obstruct (on : Bool)
  deriving DecidableEq, Repr

/-- What an action gave. -/
inductive Response where
  | done
  | removed (present : Bool)
  | value (value : Option String)
  | contains (present : Bool)
  | failed (failure : Failure)
  deriving DecidableEq, Repr

namespace Response

def withoutText : Response → Response
  | .failed failure => .failed failure.withoutText
  | r => r

end Response

variable {σ : Type} [Medium σ]

/-- Does an action; a store that cannot be opened anew stays as it was. -/
def act (s : Store σ) : Action → Response × Store σ
  | .set key value =>
    match s.set key value with
    | (.ok (), s) => (.done, s)
    | (.error failure, s) => (.failed failure, s)
  | .remove key =>
    match s.remove key with
    | (.ok present, s) => (.removed present, s)
    | (.error failure, s) => (.failed failure, s)
  | .get key => (.value (s.get? key), s)
  | .contains key => (.contains (s.contains key), s)
  | .reopen =>
    match Medium.reopen s.storage with
    | (.ok s, _) => (.done, s)
    | (.error failure, storage) => (.failed failure, { s with storage })
  | .obstruct on => (.done, { s with storage := Medium.obstruct on s.storage })

/-- Does actions one after the other, whatever they give. -/
def perform (s : Store σ) : List Action → List Response × Store σ
  | [] => ([], s)
  | a :: acts => ((s.act a).1 :: ((s.act a).2.perform acts).1, ((s.act a).2.perform acts).2)

end Store

/-- Whether an action saved the table, by what it gave. -/
def Store.Action.saved : Store.Action → Store.Response → Bool
  | .set _ _, .done => true
  | .remove _, .removed present => present
  | _, _ => false

/-- The action on memory for one on a state file: where the temporary path is too long, saves are always
refused. -/
def StateFile.onMemory (f : StateFile) : Store.Action → Store.Action
  | .obstruct on => .obstruct (on || !f.tempFits)
  | a => a

/-! ## 2. Side by side -/

namespace Store

/-- A store over a state file and one over memory that hold the same table and the same snapshot, and
whose next saves both succeed or both fail. -/
structure Mirrors (f : StateFile) (p : Location) (t? : Option Location) (s : Store FileStorage)
    (m : Store Memory) : Prop where
  table : s.table = m.table
  file : s.storage.file = f
  stands : f.Stands p t? s.storage.disk
  snapshot : f.load s.storage.disk = .ok m.storage.snapshot
  failing : m.storage.failing = f.obstructed s.storage.disk

open Disk (Legible IsName names)

variable {f : StateFile} {p : Location} {t? : Option Location} {s : Store FileStorage} {m : Store Memory}

/-- Both sides start from the table that the same snapshot holds. -/
theorem mirrors_load {d : Disk} {memory : Memory} (hstands : f.Stands p t? d)
    (hsnapshot : f.load d = .ok memory.snapshot) (hfailing : memory.failing = f.obstructed d) :
    ∃ s m, Store.load (⟨f, d⟩ : FileStorage) = .ok s ∧ Store.load memory = .ok m ∧
      Mirrors f p t? s m := by
  obtain ⟨snapshot, saves, failing⟩ := memory
  cases snapshot with
  | none =>
    refine ⟨⟨.empty, ⟨f, d⟩⟩, ⟨.empty, _⟩, ?_, rfl, rfl, rfl, hstands, hsnapshot, hfailing⟩
    simp only [Store.load, Storage.load, hsnapshot]
  | some b =>
    refine ⟨⟨Snapshot.decode b, ⟨f, d⟩⟩, ⟨Snapshot.decode b, _⟩, ?_, rfl, rfl, rfl, hstands, hsnapshot,
      hfailing⟩
    simp only [Store.load, Storage.load, hsnapshot]

/-- A new table is saved on both sides, or on neither. -/
theorem Mirrors.replace (h : Mirrors f p t? s m) (table : Table) :
    ∃ s' m', Mirrors f p t? s' m' ∧
      ((∃ text text', s.replace table = (.error (.persistence text), s') ∧
          m.replace table = (.error (.persistence text'), m')) ∨
        (s.replace table = (.ok (), s') ∧ m.replace table = (.ok (), m') ∧
          s'.storage.disk.find f.tempPath = .error .notFound)) := by
  obtain ⟨held, file, disk⟩ := s
  obtain ⟨held', snapshot, saves, failing⟩ := m
  obtain ⟨rfl, rfl, hstands, hsnapshot, rfl⟩ := h
  -- Memory refuses saves exactly where the file does, so there are two cases and not four.
  rcases hstands.save (Snapshot.encode table) with
    ⟨hobstructed, text, hsave⟩ | ⟨hobstructed, d', hsave, hstands', hload, hclear, hgone⟩
  · refine ⟨⟨table, file, disk⟩, ⟨table, snapshot, saves, true⟩, ?_,
      .inl ⟨text, "injected write failure", ?_, ?_⟩⟩
    · exact ⟨rfl, rfl, hstands, hsnapshot, hobstructed.symm⟩
    · simp only [Store.replace, Storage.save, hsave]
    · simp only [Store.replace, Storage.save, Memory.save, hobstructed, if_true]
  · refine ⟨⟨table, file, d'⟩, ⟨table, some (Snapshot.encode table), saves + 1, false⟩, ?_,
      .inr ⟨?_, ?_, hgone⟩⟩
    · exact ⟨rfl, rfl, hstands', hload, hclear.symm⟩
    · simp only [Store.replace, Storage.save, hsave]
    · simp only [Store.replace, Storage.save, Memory.save, hobstructed, Bool.false_eq_true, if_false]

/-- **One action keeps file and memory alike**, and gives the same answer on both sides. -/
theorem Mirrors.act (h : Mirrors f p t? s m) (hname : f.EndsInName) (a : Action) :
    (s.act a).1.withoutText = (m.act (f.onMemory a)).1.withoutText ∧
      Mirrors f p t? (s.act a).2 (m.act (f.onMemory a)).2 := by
  cases a with
  | set key value =>
    obtain ⟨s', m', hmirrors, hresult⟩ := h.replace (s.table.insert key value)
    simp only [StateFile.onMemory, Store.act, Store.set, ← h.table]
    rcases hresult with ⟨text, text', hs, hm⟩ | ⟨hs, hm, -⟩
    · simp only [hs, hm]
      exact ⟨rfl, hmirrors⟩
    · simp only [hs, hm]
      exact ⟨trivial, hmirrors⟩
  | remove key =>
    obtain ⟨s', m', hmirrors, hresult⟩ := h.replace (s.table.erase key)
    simp only [StateFile.onMemory, Store.act, Store.remove, ← h.table]
    by_cases hpresent : s.table.contains key = true
    · simp only [if_pos hpresent]
      rcases hresult with ⟨text, text', hs, hm⟩ | ⟨hs, hm, -⟩
      · simp only [hs, hm]
        exact ⟨rfl, hmirrors⟩
      · simp only [hs, hm]
        exact ⟨trivial, hmirrors⟩
    · simp only [if_neg hpresent]
      exact ⟨trivial, h⟩
  | get key =>
    refine ⟨?_, h⟩
    simp only [StateFile.onMemory, Store.act, Store.get?, h.table]
  | contains key =>
    refine ⟨?_, h⟩
    simp only [StateFile.onMemory, Store.act, Store.contains, h.table]
  | reopen =>
    obtain ⟨s', m', hs, hm, hmirrors⟩ := mirrors_load h.stands h.snapshot h.failing
    have hopen : Store.openFile s.storage.file s.storage.disk = (.ok s', s.storage.disk) := by
      rw [Store.openFile, h.file, h.stands.prepare hname, ← hs]
    simp only [StateFile.onMemory, Store.act, Medium.reopen, hopen, hm]
    exact ⟨trivial, hmirrors⟩
  | obstruct on =>
    obtain ⟨hstands, hload, hobstructed⟩ := h.stands.obstruct on
    refine ⟨rfl, h.table, h.file, ?_, ?_, ?_⟩
    · simpa only [StateFile.onMemory, Store.act, Medium.obstruct, h.file] using hstands
    · simpa only [StateFile.onMemory, Store.act, Medium.obstruct, Memory.failWrites, h.file, hload]
        using h.snapshot
    · simpa only [StateFile.onMemory, Store.act, Medium.obstruct, Memory.failWrites, h.file]
        using hobstructed.symm

/-- An action that saved the table leaves no temporary file. -/
theorem Mirrors.find_temp_of_saved (h : Mirrors f p t? s m) {a : Action}
    (hsaved : a.saved (s.act a).1 = true) :
    (s.act a).2.storage.disk.find f.tempPath = .error .notFound := by
  cases a with
  | set key value =>
    obtain ⟨s', m', -, ⟨text, text', hs, -⟩ | ⟨hs, -, hgone⟩⟩ := h.replace (s.table.insert key value)
    · simp only [Store.act, Store.set, hs] at hsaved
      cases hsaved
    · simpa only [Store.act, Store.set, hs] using hgone
  | remove key =>
    simp only [Store.act, Store.remove] at hsaved ⊢
    by_cases hpresent : s.table.contains key = true
    · simp only [if_pos hpresent] at hsaved ⊢
      obtain ⟨s', m', -, ⟨text, text', hs, -⟩ | ⟨hs, -, hgone⟩⟩ := h.replace (s.table.erase key)
      · simp only [hs] at hsaved
        cases hsaved
      · simpa only [hs] using hgone
    · simp only [if_neg hpresent] at hsaved
      cases hsaved
  | get key => cases hsaved
  | contains key => cases hsaved
  | obstruct on => cases hsaved
  | reopen =>
    simp only [Store.act] at hsaved
    split at hsaved <;> cases hsaved

/-- Every run keeps them alike. -/
theorem Mirrors.perform (h : Mirrors f p t? s m) (hname : f.EndsInName) (acts : List Action) :
    (s.perform acts).1.map Response.withoutText =
        (m.perform (acts.map f.onMemory)).1.map Response.withoutText ∧
      Mirrors f p t? (s.perform acts).2 (m.perform (acts.map f.onMemory)).2 := by
  induction acts generalizing s m with
  | nil => exact ⟨rfl, h⟩
  | cons a acts ih =>
    obtain ⟨hanswer, hnext⟩ := h.act hname a
    obtain ⟨hanswers, hlast⟩ := ih hnext
    refine ⟨?_, hlast⟩
    simp only [Store.perform, List.map_cons, hanswer, hanswers]

/-- **A store over a state file is a store over memory.**  Let the path end in a name, lead to a file or to
nothing once its directory was prepared, and not lead through its temporary file.  Then the store opens,
and in any run it gives the answers of a store over memory that started from the same bytes and refuses
saves while the temporary path is obstructed.  All along the two hold the same entries, and the state file
the snapshot in memory; and a save that succeeds leaves no temporary file. -/
theorem file_refines_memory {f : StateFile} {d₀ d : Disk} (hname : f.EndsInName)
    (hready : StateFile.prepare f.path d₀ = (.ok (), d))
    (hfile : d.find f.path = .error .notFound ∨ ∃ l b, d.find f.path = .ok (l, .file b))
    (hapart : f.Apart d) :
    ∃ snapshot s m, f.load d = .ok snapshot ∧ Store.openFile f d₀ = (.ok s, d) ∧
      Store.load (⟨snapshot, 0, f.obstructed d⟩ : Memory) = .ok m ∧
      ∀ acts s' m' answers answers', s.perform acts = (answers, s') →
        m.perform (acts.map f.onMemory) = (answers', m') →
        answers.map Response.withoutText = answers'.map Response.withoutText ∧
        s'.entries = m'.entries ∧
        f.load s'.storage.disk = .ok m'.storage.snapshot ∧
        m'.storage.failing = f.obstructed s'.storage.disk ∧
        ∀ a, a.saved (s'.act a).1 = true →
          (s'.act a).2.storage.disk.find f.tempPath = .error .notFound := by
  obtain ⟨p, t?, hstands⟩ := StateFile.stands_of_prepare hname hready hfile hapart
  obtain ⟨snapshot, hsnapshot⟩ : ∃ snapshot, f.load d = .ok snapshot := ⟨_, hstands.load_eq⟩
  have hmemory : f.load d = .ok (⟨snapshot, 0, f.obstructed d⟩ : Memory).snapshot := hsnapshot
  obtain ⟨s, m, hs, hm, hmirrors⟩ := mirrors_load hstands hmemory rfl
  refine ⟨snapshot, s, m, hsnapshot, ?_, hm, ?_⟩
  · rw [Store.openFile, hready, ← hs]
  · intro acts s' m' answers answers' hrun hrun'
    obtain ⟨hanswers, hlast⟩ := hmirrors.perform hname acts
    rw [hrun, hrun'] at hanswers hlast
    refine ⟨hanswers, ?_, hlast.snapshot, hlast.failing, ?_⟩
    · rw [Store.entries, Store.entries, hlast.table]
    · intro a hsaved
      exact hlast.find_temp_of_saved hsaved

/-- A directory in the place of the temporary file during the second of three changes. -/
theorem file_refines_memory_obstructed :
    let acts : List Action := [.set "k" "1", .obstruct true, .set "k" "2", .obstruct false, .remove "k"]
    ∃ s m, Store.openFile ⟨"data/kv.db", true⟩ .empty = (.ok s, ⟨[(["data"], .directory)]⟩) ∧
      Store.load (⟨none, 0, false⟩ : Memory) = .ok m ∧
      (s.perform acts).1 =
        [.done, .done,
          .failed (.persistence "Failed to create temp snapshot file: Is a directory (os error 21)"),
          .done, .removed true] ∧
      (m.perform (acts.map (StateFile.onMemory ⟨"data/kv.db", true⟩))).1.map Response.withoutText =
        [.done, .done, .failed (.persistence ""), .done, .removed true] := by
  intro acts
  have hnames : names "data/kv.db" = ["data"] ++ ["kv.db"] := by decide
  have hready : StateFile.prepare "data/kv.db" .empty = (.ok (), ⟨[(["data"], .directory)]⟩) := rfl
  obtain ⟨snapshot, s, m, hsnapshot, hopen, hload, hrun⟩ :=
    file_refines_memory (f := ⟨"data/kv.db", true⟩) ⟨["data"], "kv.db", hnames, by decide⟩ hready
      (.inl rfl) (StateFile.apart_of_notMem hnames (by decide) (by decide) _)
  obtain ⟨hanswers, -⟩ := hrun acts _ _ (s.perform acts).1 (m.perform (acts.map _)).1 rfl rfl
  cases hsnapshot
  cases hopen
  have hfile : (Store.perform (⟨.empty, ⟨⟨"data/kv.db", true⟩, ⟨[(["data"], .directory)]⟩⟩⟩ :
      Store FileStorage) acts).1 =
      [.done, .done,
        .failed (.persistence "Failed to create temp snapshot file: Is a directory (os error 21)"),
        .done, .removed true] := by
    decide +kernel
  exact ⟨_, m, rfl, hload, hfile, hanswers.symm.trans (congrArg _ hfile)⟩

/-! ## 3. Paths that lead elsewhere -/

/-- Whether a state file opens, and its store gives the answers of one over empty memory. -/
def agrees (f : StateFile) (d : Disk) (acts : List Action) : Bool :=
  match Store.openFile f d with
  | (.error _, _) => false
  | (.ok s, _) =>
    let m : Store Memory := ⟨.empty, .ofSnapshot none⟩
    (s.perform acts).1.map Response.withoutText = (m.perform acts).1.map Response.withoutText

/-- Where the temporary name is too long, a store that opens fails at its first save. -/
theorem agrees_of_long {f : StateFile} (hlegible : Legible f.path) (hslash : '/' ∉ f.path.toList)
    (hname : IsName f.path) (hlong : 252 ≤ f.path.utf8ByteSize) (key value : String) :
    agrees f .empty [.set key value] = false := by
  have hnames : names f.path = [] ++ [f.path] := Disk.names_of_notMem hslash
  have hready : StateFile.prepare f.path .empty = (.ok (), .empty) :=
    StateFile.prepare_of_walk hlegible hnames rfl
  have hwalk : Disk.empty.walk [] [] = .ok [] := rfl
  have hnone : Disk.empty.get? ([] ++ [f.path]) = none := rfl
  have hfind := Disk.find_concat hlegible hnames hname .empty
  have htemp : f.tempFits = false := by
    have htmp : (".tmp" : String).utf8ByteSize = 4 := by decide
    simp only [StateFile.tempFits, StateFile.names_tempPath hnames, List.getLastD_concat,
      String.utf8ByteSize_append, htmp, Disk.maxNameBytes, Bool.and_eq_false_iff, decide_eq_false_iff_not]
    omega
  rw [hwalk] at hfind
  simp only [bind, Except.bind, hnone] at hfind
  by_cases hshort : f.path.utf8ByteSize ≤ Disk.maxNameBytes
  · have hload : f.load .empty = .ok none := by
      rw [StateFile.load, Disk.read, hfind, if_neg (Nat.not_lt.mpr hshort)]
      rfl
    have hplace : Disk.empty.place? f.tempPath = none := by
      rw [StateFile.place?_tempPath hlegible hnames hwalk, htemp]
      rfl
    obtain ⟨e, hcreate⟩ : ∃ e, Disk.empty.create f.tempPath = .error e :=
      Disk.exists_create_eq_error (by simp [hplace])
    simp [agrees, Store.openFile, hready, Store.load, Storage.load, hload, Store.perform, Store.act,
      Store.set, Store.replace, Storage.save, StateFile.save_of_blocked hcreate, Memory.save,
      Memory.ofSnapshot, Response.withoutText]
  · have hload : ∃ e, f.load .empty = .error e := by
      rw [StateFile.load, Disk.read, hfind, if_pos (Nat.not_le.mp hshort)]
      exact ⟨_, rfl⟩
    obtain ⟨e, hload⟩ := hload
    simp [agrees, Store.openFile, hready, Store.load, Storage.load, hload]

/-- **What a path must not do.**  A name of 252 bytes leaves no room for that of its temporary file, and
one of 256 is too long itself.  A slash at the end puts the temporary file into a directory that is not
there.  A path through its own temporary file ends where that is taken away, and a path through itself is
made a directory when its directories are. -/
theorem file_departs_from_memory :
    agrees ⟨String.ofList (List.replicate 252 'a'), false⟩ .empty [.set "k" "v"] = false ∧
    agrees ⟨String.ofList (List.replicate 256 'a'), false⟩ .empty [.set "k" "v"] = false ∧
    agrees ⟨"kv.db/", false⟩ .empty [.set "k" "v"] = false ∧
    agrees ⟨"k.tmp/../k", false⟩ .empty [.obstruct false, .set "k" "v"] = false ∧
    agrees ⟨"x/../x", false⟩ .empty [.set "k" "v"] = false := by
  have hnul (n : Nat) : '\x00' ∉ (String.ofList (List.replicate n 'a')).toList := by
    simp [List.mem_replicate]
  have hslash (n : Nat) : '/' ∉ (String.ofList (List.replicate n 'a')).toList := by
    simp [List.mem_replicate]
  refine ⟨?_, ?_, by decide +kernel, by decide +kernel, by decide +kernel⟩
  · refine agrees_of_long (f := ⟨String.ofList (List.replicate 252 'a'), false⟩)
      ⟨?_, hnul 252, ?_⟩ (hslash 252) ?_ ?_ "k" "v"
    · decide +kernel
    · decide +kernel
    · decide +kernel
    · decide +kernel
  · refine agrees_of_long (f := ⟨String.ofList (List.replicate 256 'a'), false⟩)
      ⟨?_, hnul 256, ?_⟩ (hslash 256) ?_ ?_ "k" "v"
    · decide +kernel
    · decide +kernel
    · decide +kernel
    · decide +kernel

end Store
end Replica
