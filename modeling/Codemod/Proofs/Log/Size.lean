/-
The size that a log counts. It is that of the file it writes to when this is opened, and grows with every line. But a
rotation starts to count at nothing, whatever the file that it begins with holds; so what could not be moved aside
is missing from the count for as long as that file is in use (`stream_size`), and the file may grow past its limit.
-/
import Codemod.Proofs.Log.Outages

namespace Codemod.Log

open Disk

/-- What a rotation finds in the file that it begins with, which has not been moved aside. -/
def left (l : Log) : Nat :=
  match l.base? with
  | none => 0
  | some base => match (openAppend (makeRoom base l.config.maxRotated l.flush.close.disk) base).1 with
    | some (_, size) => size
    | none => 0

/-- What of the file in use is not counted once a line is written, where so much was not before. A sink that is
given up takes this with it: the next file is counted from its first byte. -/
def uncountedLine : Nat → Log → String → Nat → Nat
  | 0, _, _, k => k
  | n + 1, l, line, k =>
    match (l.ready line).emit line with
    | some _ => if l.isDue line then l.left else k
    | none => uncountedLine n (l.ready line).degrade line 0

/-- What of the file in use is not counted after so many calls. -/
def uncounted : Log → List Call → Nat → Nat
  | _, [], k => k
  | l, .write e :: calls, k => uncounted (l.writeEntry e) calls (uncountedLine 4 l e.line k)
  | l, .flush :: calls, k => uncounted l.flush calls k

/-- The count of a log that writes to a file falls short by so much. -/
structure Counts (l : Log) (k : Nat) : Prop where
  attached : l.Attached
  size : isFile l.sink = true → l.stream.size = l.written + k

variable {l m : Log} {line : String} {k : Nat} {base p : Path} {d e : Disk} {place : Location} {size : Nat}

theorem size_stream {f : LogFile} (h : l.file = some f) :
    l.stream.size = l.disk.size f.place + f.buffer.size := by
  rw [stream_of_file h, ByteArray.size_append, size_eq]

/-! ## Steps -/

/-- A file that is opened and not rotated is counted. -/
theorem FallsBack.counts {good : Disk → Location → Prop} (h : FallsBack good l m) (hfile : l.file = none) :
    Counts m 0 := by
  refine ⟨(h.renews hfile).1.attached, fun hsink => ?_⟩
  cases h with
  | opened hp h =>
    rw [stream_of_opened rfl]
    exact h.file.2.1.symm
  | unset | refused => cases hsink

theorem counts_start (config : LogConfig) (disk : Disk) : Counts (start config disk) 0 := by
  have h := begins_anything config disk
  generalize start config disk = l at h ⊢
  refine ⟨h.renews.1.attached, fun hsink => ?_⟩
  cases h with
  | opened h =>
    rw [stream_of_opened rfl]
    exact h.file.2.1.symm
  | refused h hback => exact (hback.counts rfl).size hsink

theorem Degrades.counts {good : Disk → Location → Prop} (h : Degrades good l m) : Counts m 0 := by
  refine ⟨h.renews.1.attached, fun hsink => ?_⟩
  cases h with
  | primary _ h => exact (h.counts (close_file l)).size hsink
  | fallback => cases hsink
  | last => cases hsink

theorem counts_degrade (l : Log) : Counts l.degrade 0 := (degrades_anything l).counts

/-- **A rotation** begins to count at nothing. -/
theorem counts_rotate (hbase : l.base? = some base) : Counts l.rotate l.left := by
  have hleft : l.left = match (openAppend (makeRoom base l.config.maxRotated l.flush.close.disk) base).1 with
      | some (_, size) => size
      | none => 0 := by rw [left, hbase]
  rcases rotate_cases hbase with ⟨place, size, e, hopen, h⟩ | ⟨e, hopen, h⟩
  · refine ⟨((rotates_anything l).renews (by simp [hbase])).1.attached, fun _ => ?_⟩
    rw [hleft, hopen, h, stream_of_opened rfl]
    exact (exists_opened hopen).2.symm.trans (Nat.zero_add size).symm
  · rw [hleft, hopen, h]
    exact counts_degrade _

namespace Counts

theorem flush (h : Counts l k) : Counts l.flush k := by
  obtain ⟨hattached, hfollows⟩ := h.attached.flush
  refine ⟨hattached, fun hsink => ?_⟩
  rw [hfollows.stream, ByteArray.append_empty, flush_written]
  exact h.size (hfollows.sink ▸ hsink)

theorem emit (h : Counts l k) (hemit : l.emit line = some m) : Counts m k := by
  obtain ⟨hattached, hsame, -⟩ := h.attached.of_emit hemit
  refine ⟨hattached, fun hsink => ?_⟩
  rw [hsame] at hsink
  obtain ⟨-, hfollows, hwritten⟩ := h.attached.emit hsink hemit
  have hline : line.toUTF8.size = line.utf8ByteSize := rfl
  rw [hfollows.stream, ByteArray.size_append, h.size hsink, hwritten, hline]
  omega

theorem ready (h : Counts l k) (line : String) : Counts (l.ready line) (if l.isDue line then l.left else k) := by
  rw [Log.ready]
  by_cases hdue : l.isDue line = true
  · obtain ⟨-, p, -, hbase, -⟩ := h.attached.exists_file (isDue_isFile hdue)
    rw [if_pos hdue, if_pos hdue]
    exact counts_rotate hbase
  · rw [if_neg hdue, if_neg hdue]
    exact h

theorem writeLine (h : Counts l k) (n : Nat) (line : String) :
    Counts (Log.writeLine n l line) (uncountedLine n l line k) := by
  induction n generalizing l k with
  | zero => exact h
  | succ n ih =>
    rw [writeLine_succ, uncountedLine]
    cases hemit : (l.ready line).emit line with
    | some m => exact (h.ready line).emit hemit
    | none => exact ih (counts_degrade _)

theorem calls (h : Counts l k) (calls : List Call) : Counts (calls.foldl Log.call l) (uncounted l calls k) := by
  induction calls generalizing l k with
  | nil => exact h
  | cons c calls ih =>
    cases c with
    | write e => exact ih (h.writeLine 4 e.line)
    | flush => exact ih h.flush

/-- **The rotation test** goes by the size that is counted. -/
theorem isDue_iff (h : Counts l k) (hsink : isFile l.sink = true) (line : String) : l.isDue line = true
    ↔ k < l.stream.size ∧ l.config.maxSize + k < l.stream.size + line.utf8ByteSize := by
  have hsize := h.size hsink
  simp only [isDue, hsink, Bool.true_and, Bool.and_eq_true, decide_eq_true_eq]
  omega

end Counts

/-- **The size that a log counts** falls short of that of its file by what the last rotation has left in it. -/
theorem stream_size (config : LogConfig) (disk : Disk) (calls : List Call) :
    let l := calls.foldl call (start config disk)
    let missing := uncounted (start config disk) calls 0
    isFile l.sink = true → ∃ f p, l.file = some f ∧ l.base? = some p ∧ l.disk.Opened p f.place
      ∧ l.disk.size f.place + f.buffer.size = l.written + missing
      -- So this is what the test for a rotation leaves out.
      ∧ ∀ line, l.isDue line = true ↔ missing < l.disk.size f.place + f.buffer.size
        ∧ config.maxSize + missing < l.disk.size f.place + f.buffer.size + line.utf8ByteSize := by
  intro l missing hsink
  have hcounts : Counts l missing := (counts_start config disk).calls calls
  obtain ⟨hstart, hconfig⟩ := attached_start config disk
  obtain ⟨-, hsame⟩ := attached_calls hstart calls
  obtain ⟨f, p, hfile, hbase, hopened⟩ := hcounts.attached.exists_file hsink
  refine ⟨f, p, hfile, hbase, hopened, ?_, fun line => ?_⟩
  · rw [← size_stream hfile]
    exact hcounts.size hsink
  · rw [← size_stream hfile, ← show l.config = config from hsame.trans hconfig]
    exact hcounts.isDue_iff hsink line

/-! ## A file that cannot be moved aside -/

section Blocked

/-- A directory has the first numbered name of the log. -/
def blockedDisk : Disk := ⟨.dir 0o755 [("log.1", .dir 0o755 [])], []⟩

/-- The same disk, with the file of the log. -/
def blockedFile (c : ByteArray) : Disk := ⟨.dir 0o755 [("log.1", .dir 0o755 []), ("log", .file c fileMode)], []⟩

variable (c : ByteArray)

theorem resolve_blocked_numbered :
    (blockedFile c).resolve false ⟨"log.1"⟩ = .ok (.node ["log.1"] (.dir 0o755 [])) := by
  rw [blockedFile, resolve_numbered]
  simp +decide [walk, Node.get?, Entries.get?]

theorem resolve_blocked (follow : Bool) :
    (blockedFile c).resolve follow ⟨"log"⟩ = .ok (.node ["log"] (.file c fileMode)) := by
  rw [blockedFile, resolve_log]
  simp +decide [walk, Node.get?, Entries.get?]

theorem openFile_blocked : (blockedFile c).openFile false ⟨"log"⟩ = .ok (["log"], blockedFile c) := by
  rw [Disk.openFile, resolve_blocked]
  rfl

theorem makeRoom_blocked : makeRoom ⟨"log"⟩ 1 (blockedFile c) = blockedFile c := by
  have hname : rotatedName ⟨"log"⟩ 1 = ⟨"log.1"⟩ := by decide
  have hremove : (blockedFile c).remove ⟨"log.1"⟩ = .error .isDirectory := by
    rw [Disk.remove, Disk.find, resolve_blocked_numbered]
    rfl
  have hrename : (blockedFile c).rename ⟨"log"⟩ ⟨"log.1"⟩ = .error .isDirectory := by
    rw [Disk.rename, Disk.find, resolve_blocked, resolve_blocked_numbered]
    rfl
  simp only [makeRoom, hname, hremove, orKeep, shift, Nat.sub_self, gt_iff_lt, Nat.zero_lt_one, if_true,
    hrename]

/-- The log with so many bytes in its file, and others in its buffer. -/
def blockedLog (c b : ByteArray) (written : Nat) : Log where
  config := smallLog
  disk := blockedFile c
  sink := .primary
  file := some { place := ["log"], buffer := b }
  written := written

theorem rotate_blocked (b : ByteArray) (written : Nat) :
    (blockedLog c b written).rotate = blockedLog (c ++ b ++ .empty) .empty 0 := by
  have hopen : (makeRoom ⟨"log"⟩ 1 (blockedFile (c ++ b ++ .empty))).openFile false ⟨"log"⟩
      = .ok (["log"], blockedFile (c ++ b ++ .empty)) := by
    rw [makeRoom_blocked]
    exact openFile_blocked _
  exact rotate_log rfl hopen

/-- The second line begins a new file, which is the old one. -/
theorem blocked_twice : [Call.write runStarted, .write runStarted].foldl call (start smallLog blockedDisk)
    = blockedLog runStarted.line.toUTF8 runStarted.line.toUTF8 68 := by
  have hstart : start smallLog blockedDisk = blockedLog .empty .empty 0 :=
    start_new 0o755 _ ⟨by decide, by decide, by decide, by decide⟩ (by decide) rfl rfl
  have hnot : (blockedLog .empty .empty 0).isDue runStarted.line = false := rfl
  have hdue : (blockedLog .empty runStarted.line.toUTF8 68).isDue runStarted.line = true := by decide
  have hsize : runStarted.line.toUTF8.size = 68 := by decide
  have hfirst : (blockedLog .empty .empty 0).writeEntry runStarted = blockedLog .empty runStarted.line.toUTF8 68 := by
    rw [(writeEntry_small (l := blockedLog .empty .empty 0) (if_neg (by simp [hnot])) rfl rfl rfl).2,
      ByteArray.empty_append, hsize]
    rfl
  have hsecond : (blockedLog .empty runStarted.line.toUTF8 68).writeEntry runStarted
      = blockedLog runStarted.line.toUTF8 runStarted.line.toUTF8 68 := by
    rw [(writeEntry_small ((if_pos hdue).trans (rotate_blocked .empty _ 68)) rfl rfl rfl).2, ByteArray.empty_append,
      ByteArray.append_empty, hsize]
    rfl
  show ((start smallLog blockedDisk).writeEntry runStarted).writeEntry runStarted = _
  rw [hstart, hfirst, hsecond]

end Blocked

/-- The log of a file that cannot be moved aside counts the bytes of one line, and the file holds two. -/
theorem stream_size_blocked :
    let l := [Call.write runStarted, .write runStarted].foldl call (start smallLog blockedDisk)
    isFile l.sink = true ∧ ∃ f p, l.file = some f ∧ l.base? = some p ∧ l.disk.Opened p f.place
      ∧ l.disk.size f.place + f.buffer.size
        = l.written + uncounted (start smallLog blockedDisk) [.write runStarted, .write runStarted] 0 := by
  have hsink : isFile ([Call.write runStarted, .write runStarted].foldl call (start smallLog blockedDisk)).sink := by
    rw [blocked_twice]
    rfl
  obtain ⟨f, p, hfile, hbase, hopened, hsize, -⟩ :=
    stream_size smallLog blockedDisk [.write runStarted, .write runStarted] hsink
  exact ⟨hsink, f, p, hfile, hbase, hopened, hsize⟩

/-- **A rotation that moves nothing aside** makes the count wrong. -/
theorem rotation_not_counted :
    let l := [Call.write runStarted, .write runStarted].foldl call (start smallLog blockedDisk)
    l.sink = .primary ∧ ∃ f, l.file = some f ∧ l.written = 68 ∧ l.disk.size f.place + f.buffer.size = 136 := by
  have hsize : runStarted.line.toUTF8.size = 68 := by decide
  intro l
  have hl : l = _ := blocked_twice
  rw [hl]
  refine ⟨rfl, _, rfl, rfl, ?_⟩
  rw [hsize]
  show runStarted.line.toUTF8.size + 68 = 136
  rw [hsize]

end Codemod.Log
