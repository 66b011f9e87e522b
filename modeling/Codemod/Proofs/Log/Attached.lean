/-
The file of a log. While lines go to a file, it is open, and the path that lines go to leads to it (`Attached`).
What it has been given is on the disk or in the buffer (`stream`): flushing changes nothing of that, and a line that
is emitted is added at the end. Each operation comes with a lemma that says all it can do (`rotate_cases` and
the like), and what all of them keep is kept by writing a line (`writeLine_rec`).
-/
import Codemod.Proofs.Disk.Frame
import Codemod.Proofs.Log.Retention

namespace Codemod

open Disk

variable {d e : Disk} {p base : Path} {place : Location} {a b : ByteArray} {f g : LogFile} {l m : Log} {line : String}

namespace Disk

/-- Bytes are added to the end of a file in so many steps. -/
inductive Appends (place : Location) : Disk → ByteArray → Disk → Prop
  | none (d : Disk) : Appends place d .empty d
  | more {d k e : Disk} {a b : ByteArray} :
      d.append place a = .ok k → Appends place k b e → Appends place d (a ++ b) e

theorem Appends.one (h : d.append place b = .ok e) : Appends place d b e := by
  have hstep := Appends.more h (.none e)
  rwa [ByteArray.append_empty] at hstep

theorem Opened.appends (ho : d.Opened p place) (h : Appends place d b e) :
    Opened e p place ∧ e.contentAt place = d.contentAt place ++ b ∧ SameBeside d e place := by
  induction h with
  | none d => exact ⟨ho, ByteArray.append_empty.symm, .refl d place⟩
  | more hstep _ ih =>
    obtain ⟨ho', hcontent, hsame⟩ := ho.append hstep
    obtain ⟨ho'', hcontent', hsame'⟩ := ih ho'
    exact ⟨ho'', by rw [hcontent', hcontent, ByteArray.append_assoc], hsame.trans hsame'⟩

end Disk

namespace Log

/-! ## Operations -/

/-- What is put to a file is added to it, or stays in its buffer. -/
theorem put_appends (h : put d f b = .ok (g, e)) :
    g.place = f.place ∧ ∃ out, Appends f.place d out e ∧ out ++ g.buffer = f.buffer ++ b := by
  -- What does not fit into the buffer goes straight to the file, when the buffer is empty.
  have hrest {f : LogFile} {d : Disk} (hfit : bufferSize ≤ b.size → f.buffer = .empty)
      (h : (if b.size ≥ bufferSize then do return (f, ← d.append f.place b)
        else return ({ f with buffer := f.buffer ++ b }, d)) = Except.ok (g, e)) :
      g.place = f.place ∧ ∃ out, Appends f.place d out e ∧ out ++ g.buffer = f.buffer ++ b := by
    by_cases hlarge : b.size ≥ bufferSize
    · rw [if_pos hlarge] at h
      obtain ⟨k, happend, hpure⟩ := exists_of_bind h
      cases hpure
      exact ⟨rfl, b, .one happend, by rw [hfit hlarge, ByteArray.append_empty, ByteArray.empty_append]⟩
    · rw [if_neg hlarge] at h
      cases h
      exact ⟨rfl, .empty, .none _, ByteArray.empty_append⟩
  rw [put] at h
  by_cases hover : f.buffer.size + b.size > bufferSize
  · rw [if_pos hover] at h
    obtain ⟨k, happend, h⟩ := exists_of_bind h
    obtain ⟨hplace, out, hout, hbytes⟩ := hrest (f := { f with buffer := .empty }) (fun _ => rfl) h
    refine ⟨hplace, f.buffer ++ out, .more happend hout, ?_⟩
    rw [ByteArray.append_assoc, hbytes, ByteArray.empty_append]
  · rw [if_neg hover] at h
    refine hrest (fun hlarge => ?_) h
    have hsize : f.buffer.size = 0 := by omega
    exact ByteArray.size_eq_zero_iff.1 hsize

theorem flush_cases (l : Log) : l.flush = l ∨ ∃ f e, l.file = some f ∧ l.disk.append f.place f.buffer = .ok e
    ∧ l.flush = { l with disk := e, file := some { place := f.place } } := by
  rw [flush]
  cases hfile : l.file with
  | none => exact .inl rfl
  | some f =>
    cases happend : l.disk.append f.place f.buffer with
    | error err => exact .inl (by simp only [happend])
    | ok e => exact .inr ⟨f, e, rfl, happend, by simp only [happend]⟩

@[simp] theorem flush_config (l : Log) : l.flush.config = l.config := by
  rcases flush_cases l with h | ⟨_, _, _, _, h⟩ <;> rw [h]

@[simp] theorem flush_sink (l : Log) : l.flush.sink = l.sink := by
  rcases flush_cases l with h | ⟨_, _, _, _, h⟩ <;> rw [h]

@[simp] theorem flush_written (l : Log) : l.flush.written = l.written := by
  rcases flush_cases l with h | ⟨_, _, _, _, h⟩ <;> rw [h]

@[simp] theorem flush_stderr (l : Log) : l.flush.stderr = l.stderr := by
  rcases flush_cases l with h | ⟨_, _, _, _, h⟩ <;> rw [h]

@[simp] theorem close_file (l : Log) : l.close.file = none := rfl

@[simp] theorem close_disk (l : Log) : l.close.disk = l.flush.disk := rfl

@[simp] theorem close_config (l : Log) : l.close.config = l.config := flush_config l

@[simp] theorem close_sink (l : Log) : l.close.sink = l.sink := flush_sink l

@[simp] theorem close_stderr (l : Log) : l.close.stderr = l.stderr := flush_stderr l

theorem eq_of_not_isFile {s : Sink} (h : ¬ isFile s = true) : s = .stderr ∨ s = .discard := by
  cases s <;> simp [isFile] at h ⊢

theorem isFile_of_base? (h : l.base? = some p) : isFile l.sink = true := by
  cases hs : l.sink <;> simp [base?, hs, isFile] at h ⊢

theorem base?_congr (hsink : m.sink = l.sink) (hconfig : m.config = l.config) : m.base? = l.base? := by
  rw [base?, base?, hsink, hconfig]

theorem close_of_closed (h : l.file = none) : l.close = l := by
  have hflush : l.flush = l := by rw [flush, h]
  rw [close, hflush, ← h]

/-- A log that has closed its file goes on to the next sink. -/
theorem degrade_of_closed (h : l.file = none) : l.degrade = match l.sink with
    | .primary => l.openFallback
    | .fallback => { l.report "fallback log write failed, logging to stderr" with sink := .stderr }
    | .stderr | .discard => { l with sink := .discard } := by
  cases hs : l.sink <;> simp only [degrade, close_of_closed h, hs]

theorem degrade_close (l : Log) : l.close.degrade = l.degrade := by
  rw [degrade, degrade, close_of_closed (close_file l)]

theorem rotate_cases (hbase : l.base? = some base) :
    (∃ place size e, openAppend (makeRoom base l.config.maxRotated l.flush.close.disk) base = (some (place, size), e)
        ∧ l.rotate = { l.flush.close with disk := e, file := some { place }, written := 0 })
      ∨ ∃ e, openAppend (makeRoom base l.config.maxRotated l.flush.close.disk) base = (none, e)
        ∧ l.rotate = { l.flush.close with disk := e }.degrade := by
  have hsame : l.flush.close.base? = some base := (base?_congr (by simp) (by simp)).trans hbase
  have hconfig : l.flush.close.config = l.config := by simp
  rw [rotate]
  simp only [hsame, hconfig]
  rcases hopen : openAppend (makeRoom base l.config.maxRotated l.flush.close.disk) base with ⟨_ | ⟨place, size⟩, e⟩
  · exact .inr ⟨e, rfl, rfl⟩
  · exact .inl ⟨place, size, e, rfl, rfl⟩

/-- Where the file is in the working directory, nothing is needed for it but that it can be opened. -/
theorem rotate_log (hbase : l.base? = some ⟨"log"⟩)
    (hopen : (makeRoom ⟨"log"⟩ l.config.maxRotated l.flush.close.disk).openFile false ⟨"log"⟩ = .ok (place, e)) :
    l.rotate = { l.flush.close with disk := e, file := some { place }, written := 0 } := by
  have happend := openAppend_bare (by decide) hopen
  rcases rotate_cases hbase with ⟨place', size, e', h, hrotate⟩ | ⟨e', h, -⟩
  · cases happend.symm.trans h
    exact hrotate
  · cases happend.symm.trans h

theorem emit_stderr (h : l.sink = .stderr) (line : String) :
    l.emit line = some { l with stderr := l.stderr ++ "[SRW-JSONL] " ++ line } := by
  rw [emit, h]

theorem emit_discard (h : l.sink = .discard) (line : String) : l.emit line = some l := by
  rw [emit, h]

/-- A line that is emitted to a file is put to it; it may be written out at once. -/
theorem emit_file (hsink : isFile l.sink = true) (h : l.emit line = some m) :
    ∃ f g e, l.file = some f ∧ put l.disk f line.toUTF8 = .ok (g, e)
      ∧ m = if l.config.syncInterval == 0
        then flush { l with disk := e, file := some g, written := l.written + line.utf8ByteSize }
        else { l with disk := e, file := some g, written := l.written + line.utf8ByteSize } := by
  rw [emit] at h
  cases hs : l.sink with
  | stderr | discard => simp [hs, isFile] at hsink
  | primary | fallback =>
    simp only [hs] at h
    cases hfile : l.file with
    | none => simp [hfile] at h
    | some f =>
      simp only [hfile] at h
      rcases hput : put l.disk f line.toUTF8 with err | ⟨g, e⟩
      · simp only [hput] at h
        cases h
      · simp only [hput] at h
        exact ⟨f, g, e, rfl, hput, (Option.some.inj h).symm⟩

theorem emit_sink (h : l.emit line = some m) : m.sink = l.sink := by
  by_cases hsink : isFile l.sink = true
  · obtain ⟨f, g, e, -, -, rfl⟩ := emit_file hsink h
    split <;> simp
  · rcases eq_of_not_isFile hsink with hs | hs
    · rw [emit_stderr hs] at h
      cases h
      rfl
    · rw [emit_discard hs] at h
      cases h
      rfl

/-! ## The open file -/

/-- What the open file has been given and held before: what is on the disk, and what is still in the buffer. -/
def stream (l : Log) : ByteArray :=
  match l.file with
  | none => .empty
  | some f => l.disk.contentAt f.place ++ f.buffer

theorem stream_of_file (h : l.file = some f) : l.stream = l.disk.contentAt f.place ++ f.buffer := by
  rw [stream, h]

theorem stream_of_opened (h : l.file = some { place }) : l.stream = l.disk.contentAt place := by
  rw [stream_of_file h, ByteArray.append_empty]

/-- The file that lines go to is open, and their path leads to it; if they go to no file, none is open. -/
structure Attached (l : Log) : Prop where
  isSome : l.file.isSome = isFile l.sink
  opened : ∀ f ∈ l.file, ∃ p, l.base? = some p ∧ l.disk.Opened p f.place

/-- One log has the file of another, with so much more in it, and nothing else on the disk has changed. -/
structure Follows (l m : Log) (b : ByteArray) : Prop where
  config : m.config = l.config
  sink : m.sink = l.sink
  stderr : m.stderr = l.stderr
  place : m.file.map LogFile.place = l.file.map LogFile.place
  stream : m.stream = l.stream ++ b
  beside : ∀ f ∈ l.file, l.disk.SameBeside m.disk f.place

theorem Follows.trans {k : Log} (h : Follows l m a) (h' : Follows m k b) : Follows l k (a ++ b) := by
  refine ⟨h'.config.trans h.config, h'.sink.trans h.sink, h'.stderr.trans h.stderr, h'.place.trans h.place, ?_, ?_⟩
  · rw [h'.stream, h.stream, ByteArray.append_assoc]
  · intro f hf
    have hplace : m.file.map LogFile.place = some f.place := by rw [h.place, hf, Option.map_some]
    obtain ⟨g, hg, hsame⟩ := Option.map_eq_some_iff.1 hplace
    exact (h.beside f hf).trans (hsame ▸ h'.beside g hg)

namespace Attached

variable (h : l.Attached)

include h

theorem exists_file (hsink : isFile l.sink = true) : ∃ f p, l.file = some f ∧ l.base? = some p
    ∧ l.disk.Opened p f.place := by
  obtain ⟨f, hf⟩ := Option.isSome_iff_exists.1 (h.isSome.trans hsink)
  obtain ⟨p, hbase, ho⟩ := h.opened f hf
  exact ⟨f, p, hf, hbase, ho⟩

/-- Bytes that are added to the file are behind all that it has been given. -/
theorem of_appends {out rest : ByteArray} (hf : l.file = some f) (happends : Appends f.place l.disk out e)
    (hplace : g.place = f.place) (hout : out ++ g.buffer = f.buffer ++ rest) (written : Nat) :
    Attached { l with disk := e, file := some g, written }
      ∧ Follows l { l with disk := e, file := some g, written } rest := by
  obtain ⟨p, hbase, ho⟩ := h.opened f hf
  obtain ⟨ho', hcontent, hsame⟩ := ho.appends happends
  refine ⟨⟨?_, ?_⟩, rfl, rfl, rfl, ?_, ?_, ?_⟩
  · rw [← h.isSome, hf]
    rfl
  · rintro k ⟨⟩
    exact ⟨p, hbase, hplace ▸ ho'⟩
  · rw [hf, Option.map_some, Option.map_some, hplace]
  · rw [stream_of_file hf, stream_of_file rfl, hplace]
    show e.contentAt f.place ++ g.buffer = _
    rw [hcontent, ByteArray.append_assoc, hout, ByteArray.append_assoc]
  · intro k hk
    obtain rfl := Option.some.inj (hf.symm.trans hk)
    exact hsame

/-- **Writing out the buffer** changes nothing but where its bytes are. -/
theorem flush : l.flush.Attached ∧ Follows l l.flush .empty := by
  rcases flush_cases l with hsame | ⟨f, e, hf, happend, hflush⟩
  · rw [hsame]
    exact ⟨h, rfl, rfl, rfl, rfl, ByteArray.append_empty.symm, fun f _ => .refl _ f.place⟩
  · rw [hflush]
    exact h.of_appends (g := { place := f.place }) hf (.one happend) rfl rfl l.written

/-- **A line that is emitted to a file** is at its end. -/
theorem emit (hsink : isFile l.sink = true) (hemit : l.emit line = some m) :
    m.Attached ∧ Follows l m line.toUTF8 ∧ m.written = l.written + line.utf8ByteSize := by
  obtain ⟨f, g, e, hf, hput, rfl⟩ := emit_file hsink hemit
  obtain ⟨hplace, out, happends, hout⟩ := put_appends hput
  obtain ⟨hattached, hfollows⟩ := h.of_appends hf happends hplace hout (l.written + line.utf8ByteSize)
  split
  · obtain ⟨hattached', hfollows'⟩ := hattached.flush
    have htrans := hfollows.trans hfollows'
    rw [ByteArray.append_empty] at htrans
    exact ⟨hattached', htrans, by simp⟩
  · exact ⟨hattached, hfollows, rfl⟩

end Attached

theorem exists_opened {size : Nat} (h : openAppend d p = (some (place, size), e)) :
    e.Opened p place ∧ size = (e.contentAt place).size := by
  obtain ⟨k, hopen, rfl⟩ := exists_openFile h
  exact ⟨(Opened.of_openFile hopen).1, e.size_eq place⟩

theorem isDue_isFile (h : l.isDue line = true) : isFile l.sink = true := by
  simp only [isDue, Bool.and_eq_true] at h
  exact h.1.1

theorem Attached.of_emit (h : l.Attached) (hemit : l.emit line = some m) :
    m.Attached ∧ m.sink = l.sink ∧ m.config = l.config := by
  by_cases hsink : isFile l.sink = true
  · obtain ⟨hattached, hfollows, -⟩ := h.emit hsink hemit
    exact ⟨hattached, hfollows.sink, hfollows.config⟩
  · rcases eq_of_not_isFile hsink with hs | hs
    · rw [emit_stderr hs] at hemit
      cases hemit
      exact ⟨⟨h.isSome, h.opened⟩, rfl, rfl⟩
    · rw [emit_discard hs] at hemit
      cases hemit
      exact ⟨h, rfl, rfl⟩

/-! ## Runs -/

/-- What is kept by the steps that writing a line takes is kept by writing it. -/
theorem writeLine_rec {motive : Log → Prop} (hready : ∀ l, motive l → motive (l.ready line))
    (hemit : ∀ l m, motive l → l.emit line = some m → motive m) (hdegrade : ∀ l, motive l → motive l.degrade)
    (n : Nat) (h : motive l) : motive (writeLine n l line) := by
  induction n generalizing l with
  | zero => exact h
  | succ n ih =>
    rw [writeLine_succ]
    cases hm : (l.ready line).emit line with
    | some m => exact hemit _ m (hready l h) hm
    | none => exact ih (hdegrade _ (hready l h))

end Log

end Codemod
