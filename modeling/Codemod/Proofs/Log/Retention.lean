/-
What a log keeps. Writing a line adds to the newest of the files or begins a new one, before which all of them
move up by one and the oldest goes (`Keeps.write`). So after a run of writes in which nothing fails the files are
the newest of all that there have been (`Keeps.run`), each with whole lines only.
-/
import Codemod.Proofs.Disk.Read
import Codemod.Proofs.Log.Generations

namespace Codemod

open Disk Node

namespace Log

/-! ## Files as a list -/

/-- The files of a log, the newest first; a name that is not in use holds nothing. -/
def generations (d : Disk) (base : Path) (count : Nat) : List (Option ByteArray) :=
  held d base none :: (List.range count).map fun k => held d base (some (k + 1))

/-- The files with more at the end of the newest. -/
def extend (b : ByteArray) (files : List (Option ByteArray)) : List (Option ByteArray) :=
  files.modifyHead (Option.map (· ++ b))

theorem extend_extend (a b : ByteArray) (files : List (Option ByteArray)) :
    extend b (extend a files) = extend (a ++ b) files := by
  cases files with
  | nil => rfl
  | cons o files => cases o <;> simp [extend, ByteArray.append_assoc]

@[simp]
theorem extend_empty (files : List (Option ByteArray)) : extend .empty files = files := by
  cases files with
  | nil => rfl
  | cons o files => cases o <;> simp [extend]

variable {d e : Disk} {base : Path} {loc : Location} {x : String} {b c : ByteArray} {l : Log} {line : String}

/-- All files but the oldest move up when a new one begins. -/
theorem generations_turn {count : Nat} (hbase : held e base none = some .empty)
    (hrest : ∀ k < count, held e base (some (k + 1)) = held d base (if k = 0 then none else some k)) :
    generations e base count = some .empty :: (generations d base count).take count := by
  rw [generations, hbase, generations]
  congr 1
  cases count with
  | zero => rfl
  | succ count =>
    rw [List.take_succ_cons, ← List.map_take, List.take_range, List.range_succ_eq_map, List.map_cons, List.map_map,
      hrest 0 (by omega), if_pos rfl, Nat.min_eq_left (by omega)]
    congr 1
    refine List.map_congr_left fun k hk => ?_
    rw [List.mem_range] at hk
    exact (hrest (k + 1) (by omega)).trans (by rw [if_neg (by simp)])

/-! ## Writing to the newest file -/

/-- One disk is the other with more at the end of the newest file. -/
structure Adds (d e : Disk) (base : Path) (loc : Location) (x : String) (b : ByteArray) : Prop where
  shelf : Shelf e base loc x
  held_eq : ∀ o, held e base o = if o = none then (held d base none).map (· ++ b) else held d base o
  file : HasFile d (loc ++ [x]) → HasFile e (loc ++ [x])

namespace Adds

theorem held_base (h : Adds d e base loc x b) (hc : held d base none = some c) : held e base none = some (c ++ b) := by
  rw [h.held_eq, if_pos rfl, hc]
  rfl

theorem refl (h : Shelf d base loc x) : Adds d d base loc x .empty := by
  refine ⟨h, fun o => ?_, id⟩
  by_cases ho : o = none
  · subst ho
    cases held d base none <;> simp
  · rw [if_neg ho]

theorem trans {f : Disk} {a : ByteArray} (h : Adds d e base loc x a) (h' : Adds e f base loc x b) :
    Adds d f base loc x (a ++ b) := by
  refine ⟨h'.shelf, fun o => ?_, h'.file ∘ h.file⟩
  rw [h'.held_eq, h.held_eq, h.held_eq, if_pos rfl]
  by_cases ho : o = none
  · simp only [if_pos ho, Option.map_map]
    congr 1
    funext c
    exact ByteArray.append_assoc
  · simp only [if_neg ho]

theorem generations_eq (h : Adds d e base loc x b) (count : Nat) :
    generations e base count = extend b (generations d base count) := by
  have hbase := h.held_eq none
  have hrest (k : Nat) := h.held_eq (some (k + 1))
  simp only [if_true, reduceCtorEq, if_false] at hbase hrest
  simp only [generations, hbase, hrest]
  rfl

end Adds

/-- What is added to a file is at its end; a device takes nothing. -/
theorem Shelf.append (h : Shelf d base loc x) (hc : held d base none = some c)
    (happend : d.append (loc ++ [x]) b = .ok e) : Adds d e base loc x b := by
  have hheld := h.held_eq none
  cases hr : refusal? (namePath base none) with
  | some err =>
    rw [hheld, hr] at hc
    cases hc
  | none =>
    rw [hheld, hr] at hc
    obtain ⟨n, hn, rfl⟩ := Option.map_eq_some_iff.1 hc
    have hleaf := h.leaf none hr n hn
    rw [Disk.append, show d.root.get? (loc ++ [x]) = some n from hn] at happend
    rw [hr, hn] at hheld
    cases n with
    | file c k =>
      have hnew (m : Node) (hm : m ∈ some (Node.file (c ++ b) k)) : m.isLeaf = true := by
        cases hm
        rfl
      obtain rfl : d.setEntry (loc ++ [entryName x none]) (some (.file (c ++ b) k)) = e := Except.ok.inj happend
      refine ⟨h.setEntry hr hnew, fun o => ?_, fun _ => ?_⟩
      · rw [h.held_setEntry (o := none) hr hnew, hheld]
        rfl
      · obtain ⟨mode, es, hdir⟩ := (h.names none).get?
        exact ⟨_, _, get?_alter_self hdir⟩
    | full =>
      by_cases hb : b.isEmpty
      · obtain rfl : d = e := Except.ok.inj ((if_pos hb).symm.trans happend)
        obtain rfl : b = .empty := by simpa [ByteArray.isEmpty] using hb
        exact .refl h
      · simp [hb] at happend
    | link | dir => simp [isLeaf] at hleaf

/-- Nothing can always be added. -/
theorem Shelf.append_empty (h : Shelf d base loc x) (hc : held d base none = some c) :
    ∃ e, d.append (loc ++ [x]) .empty = .ok e := by
  rw [h.held_eq] at hc
  split at hc
  · cases hc
  · next hr =>
    obtain ⟨n, hn, -⟩ := Option.map_eq_some_iff.1 hc
    have hleaf := h.leaf none hr n hn
    rw [Disk.append, show d.root.get? (loc ++ [x]) = some n from hn]
    cases n with
    | file | full => exact ⟨_, rfl⟩
    | link | dir => simp [isLeaf] at hleaf

section Put

variable {f g : LogFile} (h : Shelf d base loc x) (hc : held d base none = some c) (hplace : f.place = loc ++ [x])

include h hc hplace

/-- What does not fit into the buffer goes straight to the file, when the buffer is empty. -/
theorem Shelf.put_fitting (hfit : bufferSize ≤ b.size → f.buffer = .empty)
    (hput : (if b.size ≥ bufferSize then do return (f, ← d.append f.place b)
      else return ({ f with buffer := f.buffer ++ b }, d)) = Except.ok (g, e)) :
    g.place = loc ++ [x] ∧ ∃ out, out ++ g.buffer = f.buffer ++ b ∧ Adds d e base loc x out := by
  by_cases hlarge : b.size ≥ bufferSize
  · rw [if_pos hlarge] at hput
    obtain ⟨d', happend, hpure⟩ := exists_of_bind hput
    cases hpure
    rw [hplace] at happend
    refine ⟨hplace, b, ?_, h.append hc happend⟩
    rw [hfit hlarge, ByteArray.append_empty, ByteArray.empty_append]
  · rw [if_neg hlarge] at hput
    cases hput
    exact ⟨hplace, .empty, ByteArray.empty_append, .refl h⟩

/-- What is put to a file in use is at its end, the buffer counted in. -/
theorem Shelf.put (hput : Log.put d f b = .ok (g, e)) :
    g.place = loc ++ [x] ∧ ∃ out, out ++ g.buffer = f.buffer ++ b ∧ Adds d e base loc x out := by
  rw [Log.put] at hput
  by_cases hover : f.buffer.size + b.size > bufferSize
  · rw [if_pos hover] at hput
    obtain ⟨d', happend, hrest⟩ := exists_of_bind hput
    rw [hplace] at happend
    have hadds := h.append hc happend
    obtain ⟨hplace', out, hout, hmore⟩ :=
      Shelf.put_fitting (f := { f with buffer := .empty }) hadds.shelf (hadds.held_base hc) hplace (fun _ => rfl) hrest
    refine ⟨hplace', f.buffer ++ out, ?_, hadds.trans hmore⟩
    rw [ByteArray.append_assoc, hout, ByteArray.empty_append]
  · rw [if_neg hover] at hput
    refine Shelf.put_fitting h hc hplace (fun hlarge => ?_) hput
    have hsize : f.buffer.size = 0 := by omega
    exact ByteArray.size_eq_zero_iff.1 hsize

end Put

/-! ## Steps -/

/-- What the buffer holds can be written out. -/
def Flushes (l : Log) : Prop := ∀ f ∈ l.file, ∃ e, l.disk.append f.place f.buffer = .ok e

/-- A line is taken: each write that it leads to succeeds. -/
def Takes (l : Log) (line : String) : Prop :=
  ∃ f g e, l.file = some f ∧ put l.disk f line.toUTF8 = .ok (g, e)
    ∧ (l.config.syncInterval = 0 → ∃ e', e.append g.place g.buffer = .ok e')

/-- A new file begins: what the buffer holds is written out, and every removal and renaming of a file succeeds. -/
def Turns (l : Log) : Prop :=
  l.Flushes ∧ MakesRoom l.config.path l.config.maxRotated l.flush.close.disk

/-- Whether a line would make the file too large. -/
def isDue (l : Log) (line : String) : Bool :=
  isFile l.sink && l.written > 0 && l.written + line.utf8ByteSize > l.config.maxSize

/-- The log that a line goes to, after a new file has begun if it must. -/
def ready (l : Log) (line : String) : Log := if l.isDue line then l.rotate else l

/-- A line is written, and nothing that this takes fails. -/
def Writes (l : Log) (line : String) : Prop := (l.isDue line = true → l.Turns) ∧ (l.ready line).Takes line

/-- Entries are written one after the other and the buffer is written out at the end, and nothing that this
takes fails. -/
def Runs : Log → List LogEntry → Prop
  | l, [] => l.Flushes
  | l, e :: es => l.Writes e.line ∧ Runs (l.writeEntry e) es

/-- How often a new file begins while entries are written. -/
def turns : Log → List LogEntry → Nat
  | _, [] => 0
  | l, e :: es => (if l.isDue e.line then 1 else 0) + turns (l.writeEntry e) es

theorem writeLine_succ (fuel : Nat) (l : Log) (line : String) : writeLine (fuel + 1) l line =
    match (l.ready line).emit line with
    | some l => l
    | none => writeLine fuel (l.ready line).degrade line := rfl

/-- What the files hold once the buffer is written out. -/
def kept (l : Log) : List (Option ByteArray) :=
  extend ((l.file.map LogFile.buffer).getD .empty) (generations l.disk l.config.path l.config.maxRotated)

/-- A log that writes to its path. -/
structure Keeps (l : Log) (loc : Location) (x : String) : Prop where
  sink : l.sink = .primary
  shelf : Shelf l.disk l.config.path loc x
  file : ∃ f c, l.file = some f ∧ f.place = loc ++ [x] ∧ held l.disk l.config.path none = some c
    ∧ l.written = (c ++ f.buffer).size

namespace Keeps

variable (h : Keeps l loc x)

include h

/-- Writing out the buffer changes nothing but where its bytes are. -/
theorem flush (hf : l.Flushes) : ∃ e, l.flush = { l with disk := e, file := some { place := loc ++ [x] } }
    ∧ Keeps l.flush loc x ∧ generations e l.config.path l.config.maxRotated = l.kept
    ∧ (HasFile l.disk (loc ++ [x]) → HasFile e (loc ++ [x])) := by
  obtain ⟨hsink, hshelf, f, c, hfile, hplace, hc, hwritten⟩ := h
  obtain ⟨e, happend⟩ := hf f hfile
  have hflush : l.flush = { l with disk := e, file := some { place := loc ++ [x] } } := by
    rw [Log.flush, hfile]
    simp only [happend]
    rw [hplace]
  rw [hplace] at happend
  have hadds := hshelf.append hc happend
  refine ⟨e, hflush, ?_, ?_, hadds.file⟩
  · rw [hflush]
    exact ⟨hsink, hadds.shelf, _, _, rfl, rfl, hadds.held_base hc, by rw [hwritten, ByteArray.append_empty]⟩
  · rw [hadds.generations_eq, kept, hfile]
    rfl

omit h in
theorem refusal_of_held (hshelf : Shelf d base loc x) (hc : held d base none = some c) : refusal? base = none := by
  rw [hshelf.held_eq] at hc
  split at hc
  · cases hc
  · assumption

/-- Closing the file, after its buffer has been written out, changes nothing more. -/
theorem flush_close (hf : l.Flushes) : ∃ e, l.flush.close = { l with disk := e, file := none }
    ∧ Shelf e l.config.path loc x ∧ generations e l.config.path l.config.maxRotated = l.kept := by
  obtain ⟨e, hflush, hkeeps, hgen, -⟩ := h.flush hf
  have hf' : l.flush.Flushes := by
    obtain ⟨-, hshelf, f, c, hfile, hplace, hc, -⟩ := hkeeps
    intro f' hf'
    rw [hflush] at hf' hshelf hc ⊢
    cases hf'
    exact hshelf.append_empty hc
  obtain ⟨e', hflush', hkeeps', hgen', -⟩ := hkeeps.flush hf'
  have hshelf := hkeeps'.shelf
  rw [hflush', hflush] at hshelf
  refine ⟨e', by rw [close, hflush', hflush], hshelf, ?_⟩
  have hkept : l.flush.kept = l.kept := by
    rw [hflush, kept]
    exact (extend_empty _).trans hgen
  rw [← hkept, ← hgen', hflush]

/-- **A new file begins**: the others move up, and the oldest of them goes. -/
theorem turn (ht : l.Turns) : Keeps l.rotate loc x ∧ l.rotate.config = l.config ∧ l.rotate.written = 0
    ∧ l.rotate.kept = some .empty :: l.kept.take l.config.maxRotated ∧ HasFile l.rotate.disk (loc ++ [x]) := by
  obtain ⟨hf, hroom⟩ := ht
  obtain ⟨e, hclose, hshelf, hgen⟩ := h.flush_close hf
  obtain ⟨hsink, hshelf₀, f, c, -, -, hc, -⟩ := h
  rw [hclose] at hroom
  obtain ⟨hmade, hbase, hrest⟩ := hshelf.makeRoom hroom
  obtain ⟨e', hopen, hshelf', hheld, hfile⟩ := hmade.openAppend (refusal_of_held hshelf₀ hc)
  have hrotate : l.rotate = { l with disk := e', file := some { place := loc ++ [x] }, written := 0 } := by
    rw [Log.rotate, hclose]
    simp only [base?, hsink, hopen]
  have hnew : held e' l.config.path none = some .empty := by
    rw [hheld, if_pos rfl, hbase]
    rfl
  have hturn : generations e' l.config.path l.config.maxRotated = some .empty :: l.kept.take l.config.maxRotated := by
    rw [← hgen]
    refine generations_turn hnew fun k hk => ?_
    rw [hheld, if_neg (by simp), hrest k hk]
  rw [hrotate]
  exact ⟨⟨hsink, hshelf', _, _, rfl, rfl, hnew, rfl⟩, rfl, rfl, (extend_empty _).trans hturn, hfile hbase⟩

/-- **A line that is taken** is at the end of the newest file. -/
theorem take (ht : l.Takes line) : ∃ l', l.emit line = some l' ∧ Keeps l' loc x ∧ l'.config = l.config
    ∧ l'.written = l.written + line.utf8ByteSize ∧ l'.kept = extend line.toUTF8 l.kept
    ∧ (HasFile l.disk (loc ++ [x]) → HasFile l'.disk (loc ++ [x])) := by
  obtain ⟨hsink, hshelf, f, c, hfile, hplace, hc, hwritten⟩ := h
  obtain ⟨f', g, e, hfile', hput, hsync⟩ := ht
  obtain rfl : f = f' := Option.some.inj (hfile.symm.trans hfile')
  obtain ⟨hplace', out, hout, hadds⟩ := hshelf.put hc hplace hput
  -- The log with the line, before it may be written out at once.
  let m : Log := { l with disk := e, file := some g, written := l.written + line.toUTF8.size }
  have hkeeps : Keeps m loc x := by
    refine ⟨hsink, hadds.shelf, g, c ++ out, rfl, hplace', hadds.held_base hc, ?_⟩
    show l.written + line.toUTF8.size = _
    rw [hwritten, ByteArray.append_assoc, hout, ← ByteArray.append_assoc, ByteArray.size_append (a := c ++ f.buffer)]
  have hkept : m.kept = extend line.toUTF8 l.kept := by
    rw [kept, kept, hfile, extend_extend]
    show extend g.buffer (generations e l.config.path l.config.maxRotated) = _
    rw [hadds.generations_eq, extend_extend, hout]
    rfl
  have hemit : l.emit line = some (if l.config.syncInterval == 0 then m.flush else m) := by
    simp only [emit, hsink, hfile, hput, m]
  by_cases hzero : l.config.syncInterval = 0
  · have hf : m.Flushes := by
      intro g' hg'
      cases hg'
      exact hsync hzero
    obtain ⟨e', hflush, hkeeps', hgen, hfile'⟩ := hkeeps.flush hf
    refine ⟨m.flush, by rw [hemit, if_pos (by simpa using hzero)], hkeeps', ?_⟩
    rw [hflush]
    exact ⟨rfl, rfl, (extend_empty _).trans (hgen.trans hkept), hfile' ∘ hadds.file⟩
  · exact ⟨m, by rw [hemit, if_neg (by simpa using hzero)], hkeeps, rfl, rfl, hkept, hadds.file⟩

/-- **One write**: the line is added to the newest file, or is the first of a new one. -/
theorem write {entry : LogEntry} (hw : l.Writes entry.line) : Keeps (l.writeEntry entry) loc x
    ∧ (l.writeEntry entry).config = l.config
    ∧ (l.writeEntry entry).written = (if l.isDue entry.line then 0 else l.written) + entry.line.utf8ByteSize
    ∧ (l.writeEntry entry).kept = (if l.isDue entry.line then some entry.line.toUTF8 :: l.kept.take l.config.maxRotated
      else extend entry.line.toUTF8 l.kept)
    ∧ (HasFile l.disk (loc ++ [x]) → HasFile (l.writeEntry entry).disk (loc ++ [x])) := by
  obtain ⟨hturns, htakes⟩ := hw
  have hready : Keeps (l.ready entry.line) loc x ∧ (l.ready entry.line).config = l.config
      ∧ (l.ready entry.line).written = (if l.isDue entry.line then 0 else l.written)
      ∧ (l.ready entry.line).kept
        = (if l.isDue entry.line then some .empty :: l.kept.take l.config.maxRotated else l.kept)
      ∧ (HasFile l.disk (loc ++ [x]) → HasFile (l.ready entry.line).disk (loc ++ [x])) := by
    by_cases hdue : l.isDue entry.line = true
    · rw [ready, if_pos hdue, if_pos hdue, if_pos hdue]
      obtain ⟨hkeeps, hconfig, hwritten, hkept, hfile⟩ := h.turn (hturns hdue)
      exact ⟨hkeeps, hconfig, hwritten, hkept, fun _ => hfile⟩
    · rw [ready, if_neg hdue, if_neg hdue, if_neg hdue]
      exact ⟨h, rfl, rfl, rfl, id⟩
  obtain ⟨hkeeps, hconfig, hwritten, hkept, hfile⟩ := hready
  obtain ⟨l', hemit, hkeeps', hconfig', hwritten', hkept', hfile'⟩ := hkeeps.take htakes
  have hwrite : l.writeEntry entry = l' := by rw [writeEntry, writeLine_succ, hemit]
  rw [hwrite, hwritten', hkept', hwritten, hkept]
  refine ⟨hkeeps', hconfig'.trans hconfig, rfl, ?_, hfile' ∘ hfile⟩
  by_cases hdue : l.isDue entry.line = true
  · simp [hdue, extend]
  · simp [hdue]

end Keeps

/-! ## Runs -/

/-- The lines of entries, one after the other. -/
def linesOf (es : List LogEntry) : String := String.join (es.map LogEntry.line)

/-- Lines of entries have room behind what is in a file, or there is just one of them in it. -/
def Fits (max written : Nat) (es : List LogEntry) : Prop :=
  written + (linesOf es).utf8ByteSize ≤ max ∨ es = [] ∨ written = 0 ∧ ∃ e, es = [e]

variable {es : List LogEntry} {entry : LogEntry} {max written : Nat}

theorem toUTF8_linesOf_cons (entry : LogEntry) (es : List LogEntry) :
    (linesOf (entry :: es)).toUTF8 = entry.line.toUTF8 ++ (linesOf es).toUTF8 := by
  simp [linesOf]

theorem toUTF8_linesOf_append (es es' : List LogEntry) :
    (linesOf (es ++ es')).toUTF8 = (linesOf es).toUTF8 ++ (linesOf es').toUTF8 := by
  simp [linesOf]

theorem utf8ByteSize_line_pos (e : LogEntry) : 0 < e.line.utf8ByteSize := by
  have hline : e.line.utf8ByteSize = (Data.Json.write e.toValue).utf8ByteSize + 1 := by
    rw [LogEntry.line, String.utf8ByteSize_append]
    rfl
  omega

theorem Fits.cons (h : Fits max (written + entry.line.utf8ByteSize) es)
    (hroom : written = 0 ∨ written + entry.line.utf8ByteSize ≤ max) : Fits max written (entry :: es) := by
  have hpos := utf8ByteSize_line_pos entry
  have hsize : (linesOf (entry :: es)).utf8ByteSize = entry.line.utf8ByteSize + (linesOf es).utf8ByteSize := by
    simp [linesOf]
  rcases h with hmore | rfl | ⟨hzero, -⟩
  · exact .inl (by omega)
  · rcases hroom with hzero | hroom
    · exact .inr (.inr ⟨hzero, entry, rfl⟩)
    · exact .inl (by rw [hsize]; simpa [linesOf] using hroom)
  · omega

theorem extend_nil (files : List (Option ByteArray)) : extend (linesOf []).toUTF8 files = files := extend_empty files

theorem length_kept (l : Log) : l.kept.length = l.config.maxRotated + 1 := by
  simp [kept, extend, generations]

/-- Behind a file that is kept, no more than so many are needed. -/
theorem take_append_take {α : Type} (front rest : List α) (a : α) (n : Nat) :
    (front ++ a :: rest.take n).take (n + 1) = (front ++ a :: rest).take (n + 1) := by
  rw [List.take_append, List.take_append]
  congr 1
  cases hk : n + 1 - front.length with
  | zero => rfl
  | succ k => rw [List.take_succ_cons, List.take_succ_cons, List.take_take, Nat.min_eq_left (by omega)]

/-- The files that entries are written to: the first of them go to the file that is there, and each of the other
groups to one that begins with it. -/
structure Written (l l' : Log) (es first : List LogEntry) (begun : List (List LogEntry)) : Prop where
  entries : es = first ++ begun.flatten
  turns : begun.length = l.turns es
  fits_begun : ∀ g ∈ begun, g ≠ [] ∧ Fits l.config.maxSize 0 g
  fits_first : Fits l.config.maxSize l.written first
  kept : l'.kept = ((begun.reverse.map fun g => some (linesOf g).toUTF8)
    ++ extend (linesOf first).toUTF8 l.kept).take (l.config.maxRotated + 1)

/-- **A run of writes.** -/
theorem Keeps.run (h : Keeps l loc x) (hr : l.Runs es) :
    Keeps (es.foldl writeEntry l) loc x ∧ (es.foldl writeEntry l).Flushes
      ∧ (es.foldl writeEntry l).config = l.config ∧ ∃ first begun, Written l (es.foldl writeEntry l) es first begun := by
  induction es generalizing l with
  | nil =>
    refine ⟨h, hr, rfl, [], [], rfl, rfl, by simp, .inr (.inl rfl), ?_⟩
    rw [← length_kept l]
    show l.kept = (extend .empty l.kept).take l.kept.length
    rw [extend_empty, List.take_length]
  | cons entry es ih =>
    obtain ⟨hwrite, hrest⟩ := hr
    obtain ⟨hkeeps, hconfig, hwritten, hkept, -⟩ := h.write hwrite
    obtain ⟨hlast, hflush, hsame, first, begun, hw⟩ := ih hkeeps hrest
    obtain ⟨hentries, hturns, hbegun, hfirst, hfinal⟩ := hw
    refine ⟨hlast, hflush, hsame.trans hconfig, ?_⟩
    rw [hconfig] at hbegun hfirst hfinal
    rw [hwritten] at hfirst
    by_cases hdue : l.isDue entry.line = true
    · -- The entry is the first of a new file, with those that follow it there.
      rw [if_pos hdue] at hfirst hkept
      refine ⟨[], (entry :: first) :: begun, ⟨?_, ?_, ?_, .inr (.inl rfl), ?_⟩⟩
      · simp [hentries]
      · rw [List.length_cons, hturns, turns, if_pos hdue, Nat.add_comm]
      · rw [List.forall_mem_cons]
        exact ⟨⟨by simp, hfirst.cons (.inl rfl)⟩, hbegun⟩
      · show (es.foldl writeEntry (l.writeEntry entry)).kept = _
        rw [hfinal, hkept, extend_nil]
        show (_ ++ some (entry.line.toUTF8 ++ (linesOf first).toUTF8) :: _).take _ = _
        rw [take_append_take, ← toUTF8_linesOf_cons]
        simp
    · rw [if_neg hdue] at hfirst hkept
      have hroom : l.written = 0 ∨ l.written + entry.line.utf8ByteSize ≤ l.config.maxSize := by
        have hsink : isFile l.sink = true := by
          rw [h.sink]
          rfl
        simp only [isDue, hsink, Bool.true_and, Bool.and_eq_true, decide_eq_true_eq] at hdue
        omega
      refine ⟨entry :: first, begun, ⟨by rw [hentries, List.cons_append], ?_, hbegun, hfirst.cons hroom, ?_⟩⟩
      · rw [hturns, turns, if_neg hdue, Nat.zero_add]
      · show (es.foldl writeEntry (l.writeEntry entry)).kept = _
        rw [hfinal, hkept, extend_extend, toUTF8_linesOf_cons]

theorem Keeps.run_front {front back : List LogEntry} (h : Keeps l loc x) (hr : l.Runs (front ++ back)) :
    Keeps (front.foldl writeEntry l) loc x ∧ (front.foldl writeEntry l).config = l.config
      ∧ (front.foldl writeEntry l).Runs back := by
  induction front generalizing l with
  | nil => exact ⟨h, rfl, hr⟩
  | cons entry front ih =>
    obtain ⟨hkeeps, hconfig, -⟩ := h.write hr.1
    obtain ⟨hlast, hsame, hrest⟩ := ih hkeeps hr.2
    exact ⟨hlast, hsame.trans hconfig, hrest⟩

theorem Keeps.exists_newest (h : Keeps l loc x) : ∃ c older, l.kept = some c :: older ∧ c.size = l.written := by
  obtain ⟨-, -, f, c, hfile, -, hc, hsize⟩ := h
  have hkept : l.kept = some (c ++ f.buffer) :: (generations l.disk l.config.path l.config.maxRotated).tail := by
    rw [kept, generations, hc, hfile]
    rfl
  exact ⟨c ++ f.buffer, _, hkept, hsize.symm⟩

/-- **A line is in the files until so many new ones have begun behind it**, in one of them and whole. -/
theorem Keeps.line_kept {front back : List LogEntry} (h : Keeps l loc x) (hr : l.Runs (front ++ entry :: back))
    (hturns : ((front ++ [entry]).foldl writeEntry l).turns back ≤ l.config.maxRotated) : ∃ pre post,
      ((front ++ entry :: back).foldl writeEntry l).kept[((front ++ [entry]).foldl writeEntry l).turns back]?
        = some (some (pre ++ entry.line.toUTF8 ++ post)) := by
  obtain ⟨hkeeps, hconfig, hrest⟩ := h.run_front hr
  rw [List.foldl_append, List.foldl_append, List.foldl_cons, List.foldl_cons, List.foldl_nil] at *
  generalize front.foldl writeEntry l = m at *
  obtain ⟨c, older, hnewest, -⟩ := hkeeps.exists_newest
  obtain ⟨hkeeps', hconfig', -, hkept, -⟩ := hkeeps.write hrest.1
  obtain ⟨pre, older', hkept⟩ : ∃ pre older, (m.writeEntry entry).kept = some (pre ++ entry.line.toUTF8) :: older := by
    rw [hkept, hnewest]
    by_cases hdue : m.isDue entry.line = true
    · rw [if_pos hdue]
      exact ⟨.empty, _, by rw [ByteArray.empty_append]⟩
    · rw [if_neg hdue]
      exact ⟨c, older, rfl⟩
  obtain ⟨-, -, -, first, begun, hw⟩ := hkeeps'.run hrest.2
  refine ⟨pre, (linesOf first).toUTF8, ?_⟩
  rw [hw.kept, hconfig', hconfig, hkept, ← hw.turns]
  rw [← hw.turns] at hturns
  rw [List.getElem?_take_of_lt (by omega), List.getElem?_append_right (by simp)]
  simp [extend]

/-! ## Runs in which nothing fails -/

theorem HasFile.append (h : HasFile d loc) (b : ByteArray) : ∃ e, d.append loc b = .ok e := by
  obtain ⟨c, k, hfile⟩ := h
  rw [Disk.append, hfile]
  exact ⟨_, rfl⟩

theorem HasFile.put {f : LogFile} (h : Shelf d base loc x) (hc : held d base none = some c)
    (hplace : f.place = loc ++ [x]) (hfile : HasFile d (loc ++ [x])) (b : ByteArray) :
    ∃ r, Log.put d f b = .ok r := by
  obtain ⟨e, happend⟩ := hfile.append f.buffer
  obtain ⟨e₁, happend₁⟩ := hfile.append b
  obtain ⟨e₂, happend₂⟩ := ((h.append hc happend).file hfile).append b
  simp only [Log.put, hplace]
  by_cases hover : f.buffer.size + b.size > bufferSize <;> by_cases hlarge : b.size ≥ bufferSize
  · simp only [if_pos hover, if_pos hlarge, happend, happend₂, bind, Except.bind, pure, Except.pure]
    exact ⟨_, rfl⟩
  · simp only [if_pos hover, if_neg hlarge, happend, bind, Except.bind, pure, Except.pure]
    exact ⟨_, rfl⟩
  · simp only [if_neg hover, if_pos hlarge, hplace, happend₁, bind, Except.bind, pure, Except.pure]
    exact ⟨_, rfl⟩
  · simp only [if_neg hover, if_neg hlarge, bind, Except.bind, pure, Except.pure]
    exact ⟨_, rfl⟩

theorem Keeps.flushes (h : Keeps l loc x) (hfile : HasFile l.disk (loc ++ [x])) : l.Flushes := by
  obtain ⟨-, -, f, c, hf, hplace, -, -⟩ := h
  intro g hg
  obtain rfl : f = g := Option.some.inj (hf.symm.trans hg)
  rw [hplace]
  exact hfile.append f.buffer

theorem Keeps.takes (h : Keeps l loc x) (hfile : HasFile l.disk (loc ++ [x])) (line : String) : l.Takes line := by
  obtain ⟨-, hshelf, f, c, hf, hplace, hc, -⟩ := h
  obtain ⟨⟨g, e⟩, hput⟩ := hfile.put hshelf hc hplace line.toUTF8
  obtain ⟨hplace', out, -, hadds⟩ := hshelf.put hc hplace hput
  refine ⟨f, g, e, hf, hput, fun _ => ?_⟩
  rw [hplace']
  exact (hadds.file hfile).append g.buffer

/-- **Nothing fails** where the newest file is no device and no numbered name is refused. -/
theorem Keeps.runs (h : Keeps l loc x) (hfile : HasFile l.disk (loc ++ [x]))
    (hr : ∀ k ≤ l.config.maxRotated, refusal? (rotatedName l.config.path k) = none) (es : List LogEntry) :
    l.Runs es := by
  induction es generalizing l with
  | nil => exact h.flushes hfile
  | cons entry es ih =>
    have hturns : l.Turns := by
      obtain ⟨e, hclose, hshelf, -⟩ := h.flush_close (h.flushes hfile)
      refine ⟨h.flushes hfile, ?_⟩
      rw [hclose]
      exact hshelf.makesRoom hr
    have htakes : (l.ready entry.line).Takes entry.line := by
      by_cases hdue : l.isDue entry.line = true
      · obtain ⟨hkeeps, -, -, -, hfile⟩ := h.turn hturns
        rw [ready, if_pos hdue]
        exact hkeeps.takes hfile _
      · rw [ready, if_neg hdue]
        exact h.takes hfile _
    have hwrites : l.Writes entry.line := ⟨fun _ => hturns, htakes⟩
    obtain ⟨hkeeps, hconfig, -, -, hfile'⟩ := h.write hwrites
    exact ⟨hwrites, ih hkeeps (hfile' hfile) (hconfig ▸ hr)⟩

/-! ## What is kept -/

/-- Files one after the other, from the oldest on; what is not there adds nothing. -/
def joined : List (Option ByteArray) → ByteArray
  | [] => .empty
  | o :: files => joined files ++ o.getD .empty

theorem joined_append (files older : List (Option ByteArray)) : joined (files ++ older) = joined older ++ joined files := by
  induction files with
  | nil => exact ByteArray.append_empty.symm
  | cons o files ih => rw [List.cons_append, joined, joined, ih, ByteArray.append_assoc]

theorem joined_groups (begun : List (List LogEntry)) :
    joined (begun.reverse.map fun g => some (linesOf g).toUTF8) = (linesOf begun.flatten).toUTF8 := by
  induction begun with
  | nil => rfl
  | cons g begun ih =>
    rw [List.reverse_cons, List.map_append, joined_append, ih, List.flatten_cons, toUTF8_linesOf_append]
    simp [joined]

theorem sink_openFallback (l : Log) : l.openFallback.sink ≠ .primary := by
  rw [openFallback]
  split
  · simp
  · split <;> simp

/-- A log whose path could be opened writes to it. -/
theorem keeps_start {config : LogConfig} {disk : Disk} (hsink : (start config disk).sink = .primary)
    (hroot : (start config disk).disk.root.isDir = true)
    (hplain : ∀ o n, (start config disk).disk.lstat (namePath config.path o) = .ok n → n.isDir = false ∧ n.isLink = false) :
    (start config disk).config = config
      ∧ (start config disk).kept = generations (start config disk).disk config.path config.maxRotated
      ∧ ∃ loc x, Keeps (start config disk) loc x := by
  have hopened : ∃ place size e, openAppend disk config.path = (some (place, size), e)
      ∧ start config disk = { config, disk := e, sink := .primary, file := some { place }, written := size } := by
    rw [start] at hsink ⊢
    split at hsink
    · next place size e hopen => exact ⟨place, size, e, hopen, rfl⟩
    · exact absurd hsink (sink_openFallback _)
  obtain ⟨place, size, e, hopen, hstart⟩ := hopened
  rw [hstart] at hroot hplain ⊢
  obtain ⟨-, loc, x, rfl, hshelf, c, hc, hsize⟩ := exists_shelf_of_openAppend hopen hroot hplain
  refine ⟨rfl, extend_empty _, loc, x, rfl, hshelf, _, c, rfl, rfl, hc, ?_⟩
  rw [ByteArray.append_empty]
  exact hsize

/-! ## A log in the root directory -/

section Root

variable (mode : Nat) (es : Entries) {config : LogConfig}

theorem get?_root (x : String) : (Node.dir mode es).get? [x] = Entries.get? x es :=
  get?_concat (show (Node.dir mode es).get? [] = some (.dir mode es) from rfl) x

theorem names_root (hx : IsName x) : Disk.Names ⟨.dir mode es, []⟩ ⟨x⟩ [] x := by
  have hpieces : pathPieces x = [x] := by
    rw [Path.pathPieces_eq, Path.solid_piece hx.no_separator hx.toList_ne_nil, if_neg (by simp [hx.getLast_ne])]
    simp
  refine ⟨hx, [], hpieces, mode, es, ?_⟩
  rw [ite_self]
  exact .stop rfl

theorem exists_entry_of_lstat (hx : IsName x) {o : Option Nat} {n : Node}
    (h : Disk.lstat ⟨.dir mode es, []⟩ (namePath ⟨x⟩ o) = .ok n) : ∃ key, Entries.get? key es = some n := by
  have hname := numbered (names_root mode es hx) o
  rw [lstat, Disk.find, hname.resolve false (absurd · Bool.false_ne_true)] at h
  cases hr : refusal? (namePath ⟨x⟩ o) with
  | some err =>
    rw [hr] at h
    cases h
  | none =>
    cases hn : (Node.dir mode es).get? ([] ++ [entryName x o]) with
    | none =>
      simp only [hr, hn] at h
      cases h
    | some m =>
      simp only [hr, hn] at h
      cases h
      rw [List.nil_append, get?_root] at hn
      exact ⟨_, hn⟩

/-- A log whose file is not there yet makes it. -/
theorem start_new (hx : IsName x) (hr : refusal? ⟨x⟩ = none) (hpath : config.path = ⟨x⟩)
    (hfree : Entries.get? x es = none) : start config ⟨.dir mode es, []⟩ =
      { config, disk := ⟨.dir mode (Entries.put x (.file .empty fileMode) es), []⟩, sink := .primary,
        file := some { place := [x] }, written := 0 } := by
  have hname := names_root mode es hx
  have hget : (Node.dir mode es).get? ([] ++ [x]) = none := (get?_root ..).trans hfree
  have hopen := hname.openFile fun _ n hn => absurd (hget.symm.trans hn) nofun
  have htext : textRefusal? ⟨x⟩ = none := by
    rw [refusal?] at hr
    split at hr
    · cases hr
    · assumption
  rw [hr, hget] at hopen
  have hput : (Node.dir mode (Entries.put x (.file .empty fileMode) es)).get? [x] = some (.file .empty fileMode) :=
    (get?_root ..).trans (Entries.get?_put_self ..)
  have hopened : openAppend ⟨.dir mode es, []⟩ config.path
      = (some ([x], 0), ⟨.dir mode (Entries.put x (.file .empty fileMode) es), []⟩) := by
    rw [hpath, openAppend_eq hname htext hopen]
    show (some ([x], Disk.size ⟨.dir mode (Entries.put x (.file .empty fileMode) es), []⟩ [x]), _) = _
    rw [Disk.size, hput]
    rfl
  rw [start, hopened]

end Root

def runStarted : LogEntry := { time := "2024-01-01T00:00:00Z", kind := .runStart, severity := .info }

def smallLog : LogConfig := { path := ⟨"log"⟩, maxSize := 100, maxRotated := 1 }

/-- **A log keeps the newest of its files.** -/
theorem newest_files_kept {config : LogConfig} {disk : Disk} {es : List LogEntry}
    (hsink : (start config disk).sink = .primary) (hroot : (start config disk).disk.root.isDir = true)
    (hplain : ∀ o n, (start config disk).disk.lstat (namePath config.path o) = .ok n → n.isDir = false ∧ n.isLink = false)
    (hruns : (start config disk).Runs es) :
    let l := start config disk
    let before := generations l.disk config.path config.maxRotated
    let after := generations (es.foldl writeEntry l).flush.disk config.path config.maxRotated
    -- The entries that went to the file that was open at first, and to each of those begun later.
    ∃ (first : List LogEntry) (begun : List (List LogEntry)),
      let files := (begun.reverse.map fun g => some (linesOf g).toUTF8) ++ extend (linesOf first).toUTF8 before
      es = first ++ begun.flatten ∧ begun.length = l.turns es
        ∧ after = files.take (config.maxRotated + 1)
        ∧ joined before ++ (linesOf es).toUTF8 = joined (files.drop (config.maxRotated + 1)) ++ joined after
        ∧ (∀ g ∈ begun, (linesOf g).utf8ByteSize ≤ config.maxSize ∨ ∃ e, g = [e])
        ∧ (l.written = 0 → (linesOf first).utf8ByteSize ≤ config.maxSize ∨ ∃ e, first = [e])
        ∧ ∀ front entry back, es = front ++ entry :: back →
          ((front ++ [entry]).foldl writeEntry l).turns back ≤ config.maxRotated →
          ∃ pre post, after[((front ++ [entry]).foldl writeEntry l).turns back]?
            = some (some (pre ++ entry.line.toUTF8 ++ post)) := by
  intro l before after
  obtain ⟨hconfig, hstart, loc, x, hkeeps⟩ := keeps_start hsink hroot hplain
  obtain ⟨hlast, hflush, hsame, first, begun, hentries, hturns, hbegun, hfirst, hkept⟩ := hkeeps.run hruns
  obtain ⟨e, hflushed, -, hgen, -⟩ := hlast.flush hflush
  rw [hconfig] at hsame hbegun hfirst hkept
  rw [hstart] at hkept
  rw [hsame] at hgen
  have hafter : after = (es.foldl writeEntry l).kept := by
    show generations (es.foldl writeEntry l).flush.disk config.path config.maxRotated = _
    rw [hflushed]
    exact hgen
  have hfits {g : List LogEntry} (h : Fits config.maxSize 0 g) :
      (linesOf g).utf8ByteSize ≤ config.maxSize ∨ ∃ e, g = [e] := by
    rcases h with h | rfl | ⟨-, h⟩
    · exact .inl (by omega)
    · exact .inl (by simp [linesOf])
    · exact .inr h
  refine ⟨first, begun, hentries, hturns, hafter.trans hkept, ?_, fun g hg => hfits (hbegun g hg).2,
    fun hzero => hfits (hzero ▸ hfirst), ?_⟩
  · rw [hafter, hkept, ← joined_append, List.take_append_drop, joined_append, joined_groups, hentries,
      toUTF8_linesOf_append, ← ByteArray.append_assoc]
    congr 1
    obtain ⟨c, older, hnewest, -⟩ := hkeeps.exists_newest
    rw [hstart] at hnewest
    show joined (generations _ _ _) ++ _ = _
    rw [hnewest]
    exact ByteArray.append_assoc
  · intro front entry back hes hle
    subst hes
    rw [hafter]
    exact hkeeps.line_kept hruns (by rw [hconfig]; exact hle)

theorem newest_files_kept_of_three :
    let l := start smallLog ⟨.dir 0o755 [], []⟩
    let entries := [runStarted, runStarted, runStarted]
    l.sink = .primary ∧ l.disk.root.isDir = true
      ∧ (∀ o n, l.disk.lstat (namePath smallLog.path o) = .ok n → n.isDir = false ∧ n.isLink = false) ∧ l.Runs entries
      ∧ ∃ (first : List LogEntry) (begun : List (List LogEntry)), entries = first ++ begun.flatten
        ∧ begun.length = l.turns entries
        ∧ generations (entries.foldl writeEntry l).flush.disk smallLog.path 1
          = ((begun.reverse.map fun g => some (linesOf g).toUTF8)
            ++ extend (linesOf first).toUTF8 (generations l.disk smallLog.path 1)).take 2 := by
  intro l entries
  have hx : IsName "log" := ⟨by decide, by decide, by decide, by decide⟩
  have hl : l = _ := start_new 0o755 [] hx (by decide) rfl rfl
  have hsink : l.sink = .primary := by rw [hl]
  have hroot : l.disk.root.isDir = true := by
    rw [hl]
    rfl
  have hplain (o : Option Nat) (n : Node) (h : l.disk.lstat (namePath smallLog.path o) = .ok n) :
      n.isDir = false ∧ n.isLink = false := by
    rw [hl] at h
    obtain ⟨key, hkey⟩ := exists_entry_of_lstat _ _ hx h
    obtain ⟨_, hmem, rfl⟩ := Option.map_eq_some_iff.1 hkey
    obtain rfl := List.mem_singleton.1 (List.mem_of_find?_eq_some hmem)
    exact ⟨rfl, rfl⟩
  have hruns : l.Runs entries := by
    obtain ⟨hconfig, -, loc, x, hkeeps⟩ := keeps_start hsink hroot hplain
    have hfile : HasFile l.disk (loc ++ [x]) := by
      obtain ⟨f, c, hf, hplace, -⟩ := hkeeps.file
      have hf : l.file = some f := hf
      rw [hl] at hf
      cases hf
      rw [← hplace, hl]
      exact ⟨_, _, rfl⟩
    refine hkeeps.runs hfile (fun k hk => ?_) entries
    rw [hconfig] at hk ⊢
    have hk : k = 0 ∨ k = 1 := by
      have : smallLog.maxRotated = 1 := rfl
      omega
    rcases hk with rfl | rfl <;> decide
  obtain ⟨first, begun, hentries, hturns, hkept, -⟩ := newest_files_kept hsink hroot hplain hruns
  exact ⟨hsink, hroot, hplain, hruns, first, begun, hentries, hturns, hkept⟩

/-! ## Links between the names of a log -/

section Linked

/-- The path of the log is a link to the first numbered name. -/
def linkedDisk : Disk := ⟨.dir 0o755 [("log", .link "log.1")], []⟩

/-- The same disk, with the file that the path leads to. -/
def linkedFile (c : ByteArray) : Disk := ⟨.dir 0o755 [("log", .link "log.1"), ("log.1", .file c fileMode)], []⟩

/-- The link alone, under the name that it leads to. -/
def loopedDisk : Disk := ⟨.dir 0o755 [("log.1", .link "log.1")], []⟩

/-- The same disk with a new file for the log. -/
def loopedFile (c : ByteArray) : Disk := ⟨.dir 0o755 [("log.1", .link "log.1"), ("log", .file c fileMode)], []⟩

theorem pathPieces_numbered : pathPieces "log.1" = ["log.1"] := by decide

theorem resolve_log (es : Entries) (follow : Bool) :
    Disk.resolve ⟨.dir 0o755 es, []⟩ follow ⟨"log"⟩ = walk (.dir 0o755 es) follow maxLinks [] ["log"] := by
  rw [resolve_eq, show textRefusal? ⟨"log"⟩ = none by decide, show pathPieces "log" = ["log"] by decide, ite_self]

theorem resolve_numbered (es : Entries) (follow : Bool) :
    Disk.resolve ⟨.dir 0o755 es, []⟩ follow ⟨"log.1"⟩ = walk (.dir 0o755 es) follow maxLinks [] ["log.1"] := by
  rw [resolve_eq, show textRefusal? ⟨"log.1"⟩ = none by decide, pathPieces_numbered, ite_self]

theorem openFile_linked : linkedDisk.openFile false ⟨"log"⟩ = .ok (["log.1"], linkedFile .empty) := by
  have h : linkedDisk.resolve true ⟨"log"⟩ = .ok (.free [] "log.1") := by
    rw [linkedDisk, resolve_log]
    simp +decide [walk, Node.get?, Entries.get?, maxLinks, pathPieces_numbered]
  rw [Disk.openFile, h]
  rfl

theorem remove_linked (c : ByteArray) : (linkedFile c).remove ⟨"log.1"⟩ = .ok linkedDisk := by
  have h : (linkedFile c).resolve false ⟨"log.1"⟩ = .ok (.node ["log.1"] (.file c fileMode)) := by
    rw [linkedFile, resolve_numbered]
    simp +decide [walk, Node.get?, Entries.get?]
  rw [Disk.remove, Disk.find, h]
  rfl

theorem rename_linked : linkedDisk.rename ⟨"log"⟩ ⟨"log.1"⟩ = .ok loopedDisk := by
  have h : linkedDisk.resolve false ⟨"log"⟩ = .ok (.node ["log"] (.link "log.1")) := by
    rw [linkedDisk, resolve_log]
    simp +decide [walk, Node.get?, Entries.get?]
  have h' : linkedDisk.resolve false ⟨"log.1"⟩ = .ok (.free [] "log.1") := by
    rw [linkedDisk, resolve_numbered]
    simp +decide [walk, Node.get?, Entries.get?]
  rw [Disk.rename, Disk.find, h, h']
  rfl

theorem openFile_looped : loopedDisk.openFile false ⟨"log"⟩ = .ok (["log"], loopedFile .empty) := by
  have h : loopedDisk.resolve true ⟨"log"⟩ = .ok (.free [] "log") := by
    rw [loopedDisk, resolve_log]
    simp +decide [walk, Node.get?, Entries.get?]
  rw [Disk.openFile, h]
  rfl

theorem generations_looped (c : ByteArray) : generations (loopedFile c) ⟨"log"⟩ 1 = [some c, none] := by
  have hlog : (loopedFile c).read ⟨"log"⟩ = .ok c := by
    have h : (loopedFile c).resolve true ⟨"log"⟩ = .ok (.node ["log"] (.file c fileMode)) := by
      rw [loopedFile, resolve_log]
      simp +decide [walk, Node.get?, Entries.get?]
    rw [Disk.read, stat, Disk.find, h]
    rfl
  have hnumbered : (loopedFile c).read ⟨"log.1"⟩ = .error .linkLoop := by
    have h : (loopedFile c).resolve true ⟨"log.1"⟩ = .error .linkLoop := by
      rw [loopedFile, resolve_numbered]
      simp +decide [walk, Node.get?, Entries.get?, maxLinks, pathPieces_numbered]
    rw [Disk.read, stat, Disk.find, h]
    rfl
  show [held _ _ none, held _ _ (some 1)] = _
  rw [held, held, show namePath ⟨"log"⟩ none = ⟨"log"⟩ from rfl, hlog, show namePath ⟨"log"⟩ (some 1) = ⟨"log.1"⟩ from rfl,
    hnumbered]
  rfl

/-- A name in the working directory needs nothing for it but to be opened. -/
theorem openAppend_bare {p : Path} {place : Location} (hparent : p.parent? = some ⟨""⟩)
    (h : d.openFile false p = .ok (place, e)) : openAppend d p = (some (place, e.size place), e) := by
  have hempty : (⟨""⟩ : Path).text.isEmpty = true := by decide
  simp only [openAppend, hparent, hempty, if_true, h]

theorem put_small {f : LogFile} (h : f.buffer.size + b.size < bufferSize) :
    Log.put d f b = .ok ({ f with buffer := f.buffer ++ b }, d) := by
  have hover : ¬ f.buffer.size + b.size > bufferSize := by omega
  have hlarge : ¬ b.size ≥ bufferSize := by omega
  rw [Log.put, if_neg hover]
  simp only [bind, Except.bind, pure, Except.pure, if_neg hlarge]

/-- A short line goes to an empty buffer. -/
theorem emit_small {m : Log} {place : Location} (hsink : isFile m.sink = true) (hfile : m.file = some { place })
    (hsync : m.config.syncInterval = 10) : m.emit runStarted.line =
      some { m with file := some { place, buffer := .empty ++ runStarted.line.toUTF8 },
                    written := m.written + runStarted.line.toUTF8.size } := by
  have hput : Log.put m.disk { place } runStarted.line.toUTF8
      = .ok ({ place, buffer := .empty ++ runStarted.line.toUTF8 }, m.disk) :=
    put_small (show 0 + runStarted.line.toUTF8.size < bufferSize by decide)
  cases hs : m.sink with
  | primary | fallback =>
    simp only [emit, hs, hfile, hput, hsync]
    rfl
  | stderr | discard => simp [hs, isFile] at hsink

theorem writeEntry_small {m : Log} {place : Location} (hready : l.ready runStarted.line = m) (hsink : m.sink = .primary)
    (hfile : m.file = some { place }) (hsync : m.config.syncInterval = 10) :
    (l.ready runStarted.line).Takes runStarted.line ∧ l.writeEntry runStarted =
      { m with file := some { place, buffer := .empty ++ runStarted.line.toUTF8 },
               written := m.written + runStarted.line.toUTF8.size } := by
  constructor
  · rw [hready]
    have hshort : 0 + runStarted.line.toUTF8.size < bufferSize := by decide
    exact ⟨_, _, _, hfile, put_small hshort, fun hzero => absurd (hsync.symm.trans hzero) (by decide)⟩
  · rw [writeEntry, writeLine_succ, hready, emit_small (by rw [hsink]; rfl) hfile hsync]

/-- The log with a line in its buffer that goes to the file which the path leads to. -/
def linkedLog (b : ByteArray) : Log where
  config := smallLog
  disk := linkedFile .empty
  sink := .primary
  file := some { place := ["log.1"], buffer := b }
  written := b.size

/-- The log after a new file has begun. -/
def loopedLog (b : ByteArray) : Log where
  config := smallLog
  disk := loopedFile .empty
  sink := .primary
  file := some { place := ["log"], buffer := b }
  written := b.size

theorem start_linked : start smallLog linkedDisk = linkedLog .empty := by
  rw [start, show smallLog.path = ⟨"log"⟩ from rfl, openAppend_bare (by decide) openFile_linked]
  rfl

theorem makeRoom_linked (c : ByteArray) :
    MakesRoom ⟨"log"⟩ 1 (linkedFile c) ∧ makeRoom ⟨"log"⟩ 1 (linkedFile c) = loopedDisk := by
  have hname : rotatedName ⟨"log"⟩ 1 = ⟨"log.1"⟩ := by decide
  have hshift : shift ⟨"log"⟩ (1 - 1) linkedDisk = linkedDisk := rfl
  have hkeep : orKeep (linkedFile c) (.ok linkedDisk) = linkedDisk := rfl
  constructor
  · simp only [MakesRoom, hname, remove_linked, hkeep, hshift, rename_linked]
    exact ⟨fun _ => ⟨_, rfl⟩, True.intro, fun _ _ => ⟨_, rfl⟩, nofun⟩
  · simp only [Log.makeRoom, hname, remove_linked, hkeep, hshift, rename_linked]
    rfl

theorem turns_linked (b : ByteArray) : (linkedLog b).Turns ∧ (linkedLog b).rotate = loopedLog .empty := by
  have hclose : (linkedLog b).flush.close =
      { linkedLog b with disk := linkedFile (.empty ++ b ++ .empty), file := none } := rfl
  obtain ⟨hmakes, hroom⟩ := makeRoom_linked (.empty ++ b ++ .empty)
  refine ⟨⟨?_, ?_⟩, ?_⟩
  · intro f hf
    cases hf
    exact ⟨_, rfl⟩
  · rw [hclose]
    exact hmakes
  · have hopen := (congrArg (openAppend · ⟨"log"⟩) hroom).trans (openAppend_bare (by decide) openFile_looped)
    have hbase : Log.base? { linkedLog b with disk := linkedFile (.empty ++ b ++ .empty), file := none } = some ⟨"log"⟩ :=
      rfl
    have hcount : (linkedLog b).config.maxRotated = 1 := rfl
    rw [Log.rotate, hclose]
    simp only [hbase, hcount, hopen]
    rfl

end Linked

/-- **A line can be lost through a link**: it is in the file that the link leads to, which goes as the oldest. -/
theorem linked_file_lost :
    let l := start smallLog linkedDisk
    let entries := [runStarted, runStarted]
    let after := generations (entries.foldl writeEntry l).flush.disk smallLog.path smallLog.maxRotated
    l.sink = .primary ∧ (∀ o n, l.disk.lstat (namePath smallLog.path o) = .ok n → n.isDir = false) ∧ l.Runs entries
      ∧ l.turns entries ≤ smallLog.maxRotated
      ∧ joined after ≠ joined (generations l.disk smallLog.path smallLog.maxRotated) ++ (linesOf entries).toUTF8 := by
  intro l entries after
  have hl : l = linkedLog .empty := start_linked
  have hplain (o : Option Nat) (n : Node) (h : l.disk.lstat (namePath smallLog.path o) = .ok n) : n.isDir = false := by
    rw [hl] at h
    obtain ⟨key, hkey⟩ := exists_entry_of_lstat _ _ ⟨by decide, by decide, by decide, by decide⟩ h
    obtain ⟨entry, hmem, rfl⟩ := Option.map_eq_some_iff.1 hkey
    have hmem := List.mem_of_find?_eq_some hmem
    simp only [List.mem_cons, List.not_mem_nil, or_false] at hmem
    rcases hmem with rfl | rfl <;> rfl
  have hnot : (linkedLog .empty).isDue runStarted.line = false := rfl
  have hdue : (linkedLog runStarted.line.toUTF8).isDue runStarted.line = true := by decide
  obtain ⟨hturns, hrotate⟩ := turns_linked runStarted.line.toUTF8
  obtain ⟨htakes, hfirst⟩ := writeEntry_small (l := linkedLog .empty) (if_neg (by simp [hnot])) rfl rfl rfl
  obtain ⟨htakes', hsecond⟩ := writeEntry_small ((if_pos hdue).trans hrotate) rfl rfl rfl
  have hfirst : (linkedLog .empty).writeEntry runStarted = linkedLog runStarted.line.toUTF8 := by
    rw [hfirst, ByteArray.empty_append, linkedLog, linkedLog, ByteArray.size_empty, Nat.zero_add]
  have hsecond : (linkedLog runStarted.line.toUTF8).writeEntry runStarted = loopedLog runStarted.line.toUTF8 := by
    rw [hsecond, ByteArray.empty_append, loopedLog, loopedLog, ByteArray.size_empty, Nat.zero_add]
  have hruns : l.Runs entries := by
    rw [hl]
    refine ⟨⟨fun hdue => absurd hdue (by simp [hnot]), htakes⟩, ?_⟩
    rw [hfirst]
    refine ⟨⟨fun _ => hturns, htakes'⟩, ?_⟩
    rw [hsecond]
    intro f hf
    cases hf
    exact ⟨_, rfl⟩
  refine ⟨by rw [hl]; rfl, hplain, hruns, ?_, ?_⟩
  · rw [hl]
    show (if _ then 1 else 0) + ((if _ then 1 else 0) + 0) ≤ 1
    rw [hfirst, hdue, hnot]
    decide
  · have hafter : after = [some (.empty ++ runStarted.line.toUTF8), none] := by
      show generations (((l.writeEntry runStarted).writeEntry runStarted).flush).disk _ _ = _
      rw [hl, hfirst, hsecond]
      exact generations_looped _
    intro h
    have hsize := congrArg ByteArray.size h
    rw [hafter, ByteArray.size_append, toUTF8_linesOf_cons, toUTF8_linesOf_cons] at hsize
    have hpos := utf8ByteSize_line_pos runStarted
    simp [joined] at hsize
    omega

end Log

end Codemod
