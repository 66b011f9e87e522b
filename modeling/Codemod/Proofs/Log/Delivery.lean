/-
Every entry is written once. As long as the files that a log opens take what is put to them, the log has a sink for
its lines (`Serving`), whatever openings and renamings are refused: each line gets to the end of the open file or to
the error output, and between two lines the file in use may be left, written out, for another one (`Emits`). The sinks
come in their order, so the entries fall into those of the first file, those of the second, and those of the error
output (`Goes.emits`).
-/
import Codemod.Proofs.Log.Outages

namespace Codemod.Log

open Disk Relation

/-! ## Lines and files -/

/-- All that the open file has been given is written out, and nothing else on the disk has changed. -/
def WrittenOut (l : Log) (d : Disk) : Prop :=
  match l.file with
  | none => d = l.disk
  | some f => d.contentAt f.place = l.stream ∧ l.disk.SameBeside d f.place

/-- A line gets to the sink that is in use: to the end of the open file, or to the error output. -/
inductive Delivers (line : String) (l : Log) : Sink → Log → Prop
  | file {m : Log} (hfile : isFile l.sink = true) (hattached : m.Attached) (h : Follows l m line.toUTF8) :
      Delivers line l l.sink m
  | stderr (hsink : l.sink = .stderr) : Delivers line l .stderr { l with stderr := l.stderr ++ "[SRW-JSONL] " ++ line }

/-- Lines are delivered one after the other, each with its sink; in between a file may be left for another one. -/
inductive Emits (good : Disk → Location → Prop) : Log → List (Sink × String) → Log → Prop
  | nil (l : Log) : Emits good l [] l
  | line {l k m : Log} {s : Sink} {line : String} {out : List (Sink × String)} (h : Delivers line l s k)
      (hrest : Emits good k out m) : Emits good l ((s, line) :: out) m
  | renew {l k m : Log} {d : Disk} {out : List (Sink × String)} (hout : WrittenOut l d) (h : Renews good l d k)
      (hrest : Emits good k out m) : Emits good l out m

/-- A log with a sink that takes lines. -/
structure Serving (l : Log) : Prop where
  attached : l.Attached
  takes : ∀ f ∈ l.file, HasFile l.disk f.place
  sink : l.sink ≠ .discard

variable {good : Disk → Location → Prop} {config : LogConfig} {d e : Disk} {place : Location} {b : ByteArray}
  {f g : LogFile} {l k m : Log} {line : String} {es : List LogEntry} {out : List (Sink × String)} {n : Nat}

theorem Emits.trans {more : List (Sink × String)} (h : Emits good l out k) (h' : Emits good k more m) :
    Emits good l (out ++ more) m := by
  induction h with
  | nil l => exact h'
  | line h _ ih => exact .line h (ih h')
  | renew hout h _ ih => exact .renew hout h (ih h')

/-! ## Files that take what is put to them -/

theorem HasFile.of_append (h : HasFile d place) (happend : d.append place b = .ok e) : HasFile e place := by
  obtain ⟨c, mode, hfile⟩ := h
  rw [Disk.append, hfile] at happend
  cases happend
  exact ⟨c ++ b, mode, Disk.Node.get?_put_self hfile _⟩

theorem HasFile.of_appends (h : HasFile d place) (happends : Appends place d b e) : HasFile e place := by
  induction happends with
  | none d => exact h
  | more happend _ ih => exact ih (h.of_append happend)

theorem HasFile.exists_put (h : HasFile d f.place) (b : ByteArray) : ∃ g e, Log.put d f b = .ok (g, e) := by
  have hrest (f : LogFile) {d : Disk} (h : HasFile d f.place) :
      ∃ g e, (if b.size ≥ bufferSize then do return (f, ← d.append f.place b)
        else return ({ f with buffer := f.buffer ++ b }, d)) = (.ok (g, e) : Except OsError (LogFile × Disk)) := by
    obtain ⟨e, happend⟩ := h.append b
    by_cases hlarge : b.size ≥ bufferSize
    · rw [if_pos hlarge, happend]
      exact ⟨f, e, rfl⟩
    · rw [if_neg hlarge]
      exact ⟨_, _, rfl⟩
  rw [Log.put]
  by_cases hover : f.buffer.size + b.size > bufferSize
  · obtain ⟨e, happend⟩ := h.append f.buffer
    rw [if_pos hover, happend]
    exact hrest { f with buffer := .empty } (h.of_append happend)
  · rw [if_neg hover]
    exact hrest f h

namespace Serving

variable (h : l.Serving)

include h

theorem flush : l.flush.Serving := by
  refine ⟨h.attached.flush.1, ?_, by simpa using h.sink⟩
  rcases flush_cases l with hsame | ⟨f, e, hf, happend, hflush⟩
  · rw [hsame]
    exact h.takes
  · rw [hflush]
    rintro g ⟨⟩
    exact (h.takes f hf).of_append happend

/-- **A file is written out** when it is closed. -/
theorem writtenOut_close : WrittenOut l l.close.disk := by
  obtain ⟨-, hfollows⟩ := h.attached.flush
  rw [WrittenOut, close_disk]
  cases hf : l.file with
  | none =>
    show l.flush.disk = l.disk
    rw [Log.flush, hf]
  | some f =>
    obtain ⟨e, happend⟩ := (h.takes f hf).append f.buffer
    have hflush : l.flush = { l with disk := e, file := some { place := f.place } } := by
      rw [Log.flush, hf]
      simp only [happend]
    refine ⟨?_, hfollows.beside f hf⟩
    have hstream := hfollows.stream
    rw [ByteArray.append_empty] at hstream
    rw [← hstream, hflush]
    exact (stream_of_opened (l := { l with disk := e, file := some { place := f.place } }) rfl).symm

theorem writtenOut_flush_close : WrittenOut l l.flush.close.disk := by
  obtain ⟨-, hfollows⟩ := h.attached.flush
  have hclose := h.flush.writtenOut_close
  have hstream := hfollows.stream
  rw [ByteArray.append_empty] at hstream
  rw [WrittenOut] at hclose ⊢
  cases hf : l.file with
  | none =>
    have hsame : l.flush = l := by rw [Log.flush, hf]
    rw [hsame, hf] at hclose
    rw [hsame]
    exact hclose
  | some f =>
    have hplace := hfollows.place
    rw [hf] at hplace
    obtain ⟨g, hg, hsame⟩ := Option.map_eq_some_iff.1 hplace
    rw [hg, hstream] at hclose
    exact ⟨hsame ▸ hclose.1, (hfollows.beside f hf).trans (hsame ▸ hclose.2)⟩

/-- **A line is taken**, and gets to the sink in use. -/
theorem emit (line : String) : ∃ m, l.emit line = some m ∧ m.Serving ∧ Delivers line l l.sink m ∧ m.sink = l.sink := by
  by_cases hsink : isFile l.sink = true
  · obtain ⟨f, p, hf, hbase, ho⟩ := h.attached.exists_file hsink
    obtain ⟨g, e, hput⟩ := (h.takes f hf).exists_put line.toUTF8
    obtain ⟨m, hemit⟩ : ∃ m, l.emit line = some m := by
      rw [Log.emit]
      cases hs : l.sink with
      | primary | fallback =>
        simp only [hf, hput]
        exact ⟨_, rfl⟩
      | stderr | discard => simp [hs, isFile] at hsink
    obtain ⟨hattached, hfollows, -⟩ := h.attached.emit hsink hemit
    refine ⟨m, hemit, ⟨hattached, ?_, hfollows.sink ▸ h.sink⟩, .file hsink hattached hfollows, hfollows.sink⟩
    obtain ⟨f', g', e', hf', hput', rfl⟩ := emit_file hsink hemit
    obtain ⟨hplace, out, happends, hout⟩ := put_appends hput'
    obtain ⟨hattached', -⟩ := h.attached.of_appends hf' happends hplace hout (l.written + line.utf8ByteSize)
    have hserving : Serving { l with disk := e', file := some g', written := l.written + line.utf8ByteSize } := by
      refine ⟨hattached', ?_, h.sink⟩
      rintro j ⟨⟩
      exact hplace ▸ (h.takes f' hf').of_appends happends
    split
    · exact hserving.flush.takes
    · exact hserving.takes
  · have hs : l.sink = .stderr := (eq_of_not_isFile hsink).resolve_right h.sink
    refine ⟨_, emit_stderr hs line, ⟨⟨h.attached.isSome, h.attached.opened⟩, h.takes, h.sink⟩, ?_, rfl⟩
    have hdelivers : Delivers line l .stderr { l with stderr := l.stderr ++ "[SRW-JSONL] " ++ line } := .stderr hs
    rwa [← hs] at hdelivers

end Serving

theorem Renews.serving (h : Renews HasFile l d m) (hsink : m.sink ≠ .discard) : m.Serving :=
  ⟨h.attached, fun f hf => (h.fresh f hf).2, hsink⟩

/-! ## Courses -/

theorem Readies.emits (h : Readies HasFile line l m) (hl : l.Serving) :
    m.Serving ∧ Emits HasFile l [] m ∧ l.sink.rank ≤ m.sink.rank := by
  obtain ⟨hsame | ⟨-, hrenews⟩, hrank, hnext⟩ := h.renews hl.attached
  · rw [hsame]
    exact ⟨hl, .nil l, Nat.le_refl _⟩
  · exact ⟨hrenews.serving (hnext hl.sink), .renew hl.writtenOut_flush_close hrenews (.nil m), hrank⟩

/-- A line is never tried again. -/
theorem Serving.not_retries (hl : l.Serving) : ¬ Retries HasFile line l m := by
  rintro ⟨k, hready, hemit, -⟩
  obtain ⟨hk, -, -⟩ := hready.emits hl
  obtain ⟨j, hj, -⟩ := hk.emit line
  exact absurd (hemit.symm.trans hj) nofun

/-- **A line is delivered once**, to a sink that is not an earlier one. -/
theorem Records.emits (h : Records HasFile line l m) (hl : l.Serving) :
    m.Serving ∧ Emits HasFile l [(m.sink, line)] m ∧ l.sink.rank ≤ m.sink.rank := by
  cases h with
  | again h => exact absurd h hl.not_retries
  | done hready h =>
    obtain ⟨hk, hemits, hrank⟩ := hready.emits hl
    obtain ⟨j, hj, hserving, hdelivers, hsink⟩ := hk.emit line
    obtain rfl := Option.some.inj (h.symm.trans hj)
    rw [hsink]
    exact ⟨hserving, hemits.trans (.line hdelivers (.nil m)), hrank⟩

/-- The lines of entries, and the sink that they go to. -/
def sentTo (s : Sink) (es : List LogEntry) : List (Sink × String) := es.map fun entry => (s, entry.line)

/-- **Entries are delivered one by one**, and no sink is gone back to. -/
theorem Goes.emits (h : Goes HasFile l es m) (hl : l.Serving) : m.Serving ∧ ∃ ps fs ss, es = ps ++ fs ++ ss
    ∧ Emits HasFile l (sentTo .primary ps ++ sentTo .fallback fs ++ sentTo .stderr ss) m
    ∧ (0 < l.sink.rank → ps = []) ∧ (1 < l.sink.rank → fs = []) := by
  induction h with
  | nil l => exact ⟨hl, [], [], [], rfl, .nil l, fun _ => rfl, fun _ => rfl⟩
  | @cons l k m entry es h _ ih =>
    obtain ⟨hk, hemits, hrank⟩ := h.emits hl
    obtain ⟨hm, ps, fs, ss, rfl, hrest, hps, hfs⟩ := ih hk
    refine ⟨hm, ?_⟩
    have hboth := hemits.trans hrest
    -- Once a sink has been left, no entry is behind it.
    cases hs : k.sink with
    | primary =>
      rw [hs] at hboth hrank
      have hl : l.sink.rank = 0 := Nat.le_zero.1 hrank
      exact ⟨entry :: ps, fs, ss, rfl, hboth, by omega, by omega⟩
    | fallback =>
      rw [hs] at hboth hrank hps
      obtain rfl := hps Nat.one_pos
      have hl : l.sink.rank ≤ 1 := hrank
      exact ⟨[], entry :: fs, ss, rfl, hboth, fun _ => rfl, by omega⟩
    | stderr =>
      rw [hs] at hboth hps hfs
      obtain rfl := hps (by decide)
      obtain rfl := hfs (by decide)
      exact ⟨[], [], entry :: ss, rfl, hboth, fun _ => rfl, fun _ => rfl⟩
    | discard => exact absurd hs hk.sink

/-! ## What the log does itself -/

theorem retries_degrade (h : (l.ready line).emit line = none) : Retries anything line l (l.ready line).degrade :=
  ⟨_, readies_anything l line, h, degrades_anything _⟩

theorem writeLine_add_one (h : 2 - l.sink.rank < n) : writeLine (n + 1) l line = writeLine n l line := by
  induction n generalizing l with
  | zero => omega
  | succ n ih =>
    rw [writeLine_succ (n + 1) l line, writeLine_succ n l line]
    cases hemit : (l.ready line).emit line with
    | some m => rfl
    | none =>
      have hlt := (retries_degrade hemit).rank_lt
      have hready : l.sink.rank ≤ (l.ready line).sink.rank := (readies_anything l line).rank_le
      have hfile := isFile_of_emit_none hemit
      have hle : (l.ready line).sink.rank ≤ 1 := by
        cases hs : (l.ready line).sink <;> simp [hs, isFile, Sink.rank] at hfile ⊢
      exact ih (show 2 - (l.ready line).degrade.sink.rank < n by omega)

/-- **Two attempts more are enough**, whatever becomes of the first one. -/
theorem writeLine_three (n : Nat) (l : Log) (line : String) : writeLine (n + 3) l line = writeLine 3 l line := by
  induction n with
  | zero => rfl
  | succ n ih => exact (writeLine_add_one (by omega)).trans ih

/-- Whatever is opened for the entries is a file, and no device. -/
def OpensFiles : Log → List LogEntry → Prop
  | _, [] => True
  | l, entry :: es =>
    (∀ f ∈ (l.ready entry.line).file, HasFile (l.ready entry.line).disk f.place) ∧ OpensFiles (l.writeEntry entry) es

theorem goes_entries (hl : l.Serving) (h : l.OpensFiles es) : Goes HasFile l es (es.foldl writeEntry l) := by
  induction es generalizing l with
  | nil => exact .nil l
  | cons entry es ih =>
    have hready := readies_ready h.1
    obtain ⟨hk, -, -⟩ := hready.emits hl
    obtain ⟨m, hemit, -⟩ := hk.emit entry.line
    have hwrite : l.writeEntry entry = m := by rw [writeEntry, writeLine_succ, hemit]
    have hrecords : Records HasFile entry.line l m := .done hready hemit
    obtain ⟨hm, -, -⟩ := hrecords.emits hl
    rw [List.foldl_cons, hwrite]
    exact .cons hrecords (ih hm (hwrite ▸ h.2))

/-- **Every entry is delivered once**, in the order of the sinks, whatever is refused. -/
theorem entries_delivered (config : LogConfig) (disk : Disk) :
    (∀ l es m, Begins HasFile config disk l → Goes HasFile l es m → l.sink ≠ .discard ∧ m.sink ≠ .discard
        ∧ ∃ ps fs ss, es = ps ++ fs ++ ss ∧ Emits HasFile { config, disk, sink := .primary }
          (sentTo .primary ps ++ sentTo .fallback fs ++ sentTo .stderr ss) m)
      -- What the log does itself is such a course.
      ∧ (∀ es, (∀ f ∈ (start config disk).file, HasFile (start config disk).disk f.place) →
        (start config disk).OpensFiles es → Begins HasFile config disk (start config disk)
          ∧ Goes HasFile (start config disk) es (es.foldl writeEntry (start config disk)))
      -- No sink is gone back to, also where files do not take what is put to them.
      ∧ (∀ (good : Disk → Location → Prop) l es m, Goes good l es m → l.sink.rank ≤ m.sink.rank)
      -- Nor is a line tried again for ever.
      ∧ (∀ (good : Disk → Location → Prop) line, WellFounded fun m l => Retries good line l m)
      ∧ ∀ l entry n, writeLine (n + 3) l entry.line = l.writeEntry entry := by
  refine ⟨fun l es m hbegins hgoes => ?_, fun es hstart hopens => ?_, fun good l es m hgoes => hgoes.rank_le,
    wellFounded_retries, fun l entry n => ?_⟩
  · obtain ⟨hrenews, hsink⟩ := hbegins.renews
    obtain ⟨hm, ps, fs, ss, hes, hemits, -⟩ := hgoes.emits (hrenews.serving hsink)
    exact ⟨hsink, hm.sink, ps, fs, ss, hes, .renew rfl hrenews hemits⟩
  · have hbegins := begins_start hstart
    exact ⟨hbegins, goes_entries (hbegins.renews.1.serving hbegins.renews.2) hopens⟩
  · exact (writeLine_three n l entry.line).trans (writeLine_three 1 l entry.line).symm

/-! ## A log with a second file -/

section Spare

/-- The small log, with a second file to go on with. -/
def spareLog : LogConfig := { smallLog with fallback := some ⟨"spare"⟩ }

variable (a b c : ByteArray)

/-- The file of the log. -/
def oneFile : Disk := ⟨.dir 0o755 [("log", .file a fileMode)], []⟩

/-- A new file of the log beside the old one. -/
def twoFiles : Disk := ⟨.dir 0o755 [("log.1", .file a fileMode), ("log", .file b fileMode)], []⟩

/-- Both files and the second one. -/
def threeFiles : Disk :=
  ⟨.dir 0o755 [("log.1", .file a fileMode), ("log", .file b fileMode), ("spare", .file c fileMode)], []⟩

/-- The log on a disk, with so many bytes in its buffer. -/
def primaryLog (disk : Disk) : Log where
  config := spareLog
  disk := disk
  sink := .primary
  file := some { place := ["log"], buffer := a }
  written := a.size

/-- The log that has gone on with its second file. -/
def secondLog (stderr : String) : Log where
  config := spareLog
  disk := threeFiles a b .empty
  sink := .fallback
  file := some { place := ["spare"], buffer := c }
  written := c.size
  stderr := stderr

theorem makeRoom_one : makeRoom ⟨"log"⟩ 1 (oneFile a) = ⟨.dir 0o755 [("log.1", .file a fileMode)], []⟩ := by
  have hname : rotatedName ⟨"log"⟩ 1 = ⟨"log.1"⟩ := by decide
  have hnumbered : (oneFile a).resolve false ⟨"log.1"⟩ = .ok (.free [] "log.1") := by
    rw [oneFile, resolve_numbered]
    simp +decide [walk, Node.get?, Entries.get?]
  have hlog : (oneFile a).resolve false ⟨"log"⟩ = .ok (.node ["log"] (.file a fileMode)) := by
    rw [oneFile, resolve_log]
    simp +decide [walk, Node.get?, Entries.get?]
  have hremove : (oneFile a).remove ⟨"log.1"⟩ = .error .notFound := by
    rw [Disk.remove, Disk.find, hnumbered]
    rfl
  have hrename : (oneFile a).rename ⟨"log"⟩ ⟨"log.1"⟩ = .ok ⟨.dir 0o755 [("log.1", .file a fileMode)], []⟩ := by
    rw [Disk.rename, Disk.find, hlog, hnumbered]
    rfl
  simp only [makeRoom, hname, hremove, orKeep, shift, Nat.sub_self, gt_iff_lt, Nat.zero_lt_one, if_true, hrename]

theorem rotate_one : (primaryLog a (oneFile b)).rotate = primaryLog .empty (twoFiles (b ++ a ++ .empty) .empty) := by
  have hopen : (makeRoom ⟨"log"⟩ 1 (oneFile (b ++ a ++ .empty))).openFile false ⟨"log"⟩
      = .ok (["log"], twoFiles (b ++ a ++ .empty) .empty) := by
    have hfree : Disk.resolve ⟨.dir 0o755 [("log.1", .file (b ++ a ++ .empty) fileMode)], []⟩ true ⟨"log"⟩
        = .ok (.free [] "log") := by
      rw [resolve_log]
      simp +decide [walk, Node.get?, Entries.get?]
    rw [makeRoom_one, Disk.openFile, hfree]
    rfl
  exact rotate_log rfl hopen

theorem openAppend_spare : openAppend (twoFiles a b) ⟨"spare"⟩ = (some (["spare"], 0), threeFiles a b .empty) := by
  have hopen : (twoFiles a b).openFile false ⟨"spare"⟩ = .ok (["spare"], threeFiles a b .empty) := by
    have hfree : (twoFiles a b).resolve true ⟨"spare"⟩ = .ok (.free [] "spare") := by
      rw [twoFiles, resolve_eq, show textRefusal? ⟨"spare"⟩ = none by decide,
        show pathPieces "spare" = ["spare"] by decide, ite_self]
      simp +decide [walk, Node.get?, Entries.get?]
    rw [Disk.openFile, hfree]
    rfl
  exact openAppend_bare (by decide) hopen

/-- No file is renamed and the log is not opened, so that lines go to the second file. -/
theorem exists_rotates_second :
    ∃ s, Rotates HasFile (primaryLog a (twoFiles b .empty)) (secondLog b (.empty ++ a ++ .empty) .empty s) := by
  have hroom : MakesWay ⟨"log"⟩ 1 (twoFiles b (.empty ++ a ++ .empty)) (twoFiles b (.empty ++ a ++ .empty)) :=
    ⟨_, _, .refused, rfl, .refused⟩
  have hfile : HasFile (threeFiles b (.empty ++ a ++ .empty) .empty) ["spare"] := ⟨_, _, rfl⟩
  have hspare : spareLog.fallback = some ⟨"spare"⟩ := rfl
  exact ⟨_, .refused rfl hroom (.refused .refl) (.primary rfl (.opened hspare (.opened (openAppend_spare ..) hfile)))⟩

/-- Nor is the second file opened again, and lines go to the error output. -/
theorem exists_rotates_stderr (s : String) : ∃ m, Rotates HasFile (secondLog a b c s) m ∧ m.sink = .stderr
    ∧ m.disk = threeFiles a b (.empty ++ c ++ .empty) := by
  have hroom : MakesWay ⟨"spare"⟩ 1 (threeFiles a b (.empty ++ c ++ .empty)) (threeFiles a b (.empty ++ c ++ .empty)) :=
    ⟨_, _, .refused, rfl, .refused⟩
  exact ⟨_, .refused rfl hroom (.refused .refl) (.fallback rfl), rfl, rfl⟩

end Spare

/-- Two entries go to the file of a log, the second of them to a new one. When no file is opened any more but the
second one, once, the third entry goes there and the fourth to the error output; each line is in its place. -/
theorem entries_delivered_once :
    let disk : Disk := ⟨.dir 0o755 [], []⟩
    let l := start spareLog disk
    let k := [runStarted, runStarted].foldl writeEntry l
    let line := runStarted.line.toUTF8
    Begins HasFile spareLog disk l ∧ (l.writeEntry runStarted).isDue runStarted.line = true
      ∧ Goes HasFile l [runStarted, runStarted] k ∧ k.sink = .primary
      ∧ ∃ m n, Goes HasFile k [runStarted] m ∧ m.sink = .fallback ∧ Goes HasFile m [runStarted] n ∧ n.sink = .stderr
        ∧ (∃ ps fs ss, [runStarted, runStarted, runStarted, runStarted] = ps ++ fs ++ ss
          ∧ Emits HasFile { config := spareLog, disk, sink := .primary }
            (sentTo .primary ps ++ sentTo .fallback fs ++ sentTo .stderr ss) n)
        ∧ n.disk.contentAt ["log.1"] = line ∧ n.disk.contentAt ["log"] = line ∧ n.disk.contentAt ["spare"] = line
        ∧ ∃ notices, n.stderr = notices ++ "[SRW-JSONL] " ++ runStarted.line := by
  intro disk l k line
  obtain ⟨hcourses, hself, -⟩ := entries_delivered spareLog disk
  have hsame : ByteArray.empty ++ line ++ .empty = line := by rw [ByteArray.empty_append, ByteArray.append_empty]
  have hl : l = primaryLog .empty (oneFile .empty) :=
    start_new 0o755 [] ⟨by decide, by decide, by decide, by decide⟩ (by decide) rfl rfl
  have hnot : (primaryLog .empty (oneFile .empty)).isDue runStarted.line = false := rfl
  -- What is on the disk is no part of what makes a line due.
  have hdue (disk : Disk) : (primaryLog line disk).isDue runStarted.line = true := by
    show (primaryLog line (oneFile .empty)).isDue runStarted.line = true
    decide
  have hdue' (s : String) : (secondLog line line line s).isDue runStarted.line = true := by
    show (secondLog line line line "").isDue runStarted.line = true
    decide
  have hfirst : l.writeEntry runStarted = primaryLog line (oneFile .empty) := by
    rw [hl, (writeEntry_small (if_neg (by simp [hnot])) rfl rfl rfl).2, ByteArray.empty_append, primaryLog, primaryLog,
      ByteArray.size_empty, Nat.zero_add]
  have hsecond : (primaryLog line (oneFile .empty)).ready runStarted.line = primaryLog .empty (twoFiles line .empty) := by
    rw [ready, if_pos (hdue _), rotate_one, hsame]
  have hk : k = primaryLog line (twoFiles line .empty) := by
    show (l.writeEntry runStarted).writeEntry runStarted = _
    rw [hfirst, (writeEntry_small hsecond rfl rfl rfl).2, ByteArray.empty_append, primaryLog, primaryLog,
      ByteArray.size_empty, Nat.zero_add]
  have hfile : HasFile (oneFile .empty) ["log"] := ⟨_, _, rfl⟩
  have hopens : l.OpensFiles [runStarted, runStarted] := by
    refine ⟨?_, ?_, True.intro⟩
    · rw [hl, ready, if_neg (by simp [hnot])]
      rintro f ⟨⟩
      exact hfile
    · rw [hfirst, hsecond]
      rintro f ⟨⟩
      exact ⟨_, _, rfl⟩
  have hstart : ∀ f ∈ l.file, HasFile l.disk f.place := by
    rw [hl]
    rintro f ⟨⟩
    exact hfile
  obtain ⟨hbegins, hkept⟩ := hself [runStarted, runStarted] hstart hopens
  obtain ⟨s, hrotates⟩ := exists_rotates_second line line
  rw [hsame] at hrotates
  have hthird : Goes HasFile k [runStarted] (secondLog line line line s) := by
    rw [hk]
    have hemit := emit_small (m := secondLog line line .empty s) rfl rfl rfl
    rw [ByteArray.empty_append] at hemit
    exact .cons (.done (.turn (hdue _) hrotates) hemit) (.nil _)
  obtain ⟨n, hgivenUp, hsink, hdisk⟩ := exists_rotates_stderr line line line s
  have hfourth : Goes HasFile (secondLog line line line s) [runStarted] _ :=
    .cons (.done (.turn (hdue' s) hgivenUp) (emit_stderr hsink _)) (.nil _)
  have hgoes := (hkept.append hthird).append hfourth
  refine ⟨hbegins, ?_, hkept, ?_, _, _, hthird, rfl, hfourth, hsink, (hcourses _ _ _ hbegins hgoes).2.2, ?_⟩
  · rw [hfirst]
    exact hdue _
  · rw [hk]
    rfl
  · show n.disk.contentAt _ = _ ∧ n.disk.contentAt _ = _ ∧ n.disk.contentAt _ = _ ∧ _
    rw [hdisk, hsame]
    exact ⟨rfl, rfl, rfl, n.stderr, rfl⟩

end Codemod.Log
