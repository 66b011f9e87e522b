/-
What a log touches. The operations that it makes use of change nothing but what has one of its names, the files that
its paths lead to, and the missing directories above these (`Works.touches`); and they are all that it does, whatever
is asked of it (`touches_own`). With no older files to keep, the name that is dropped ends in zero, and is none of a
log's own.
-/
import Codemod.Proofs.Log.Outages

namespace Codemod.Log

open Disk Relation

/-- The places that a log touches. -/
inductive Touches (config : LogConfig) (d e : Disk) (l : Location) : Prop
  /-- What has one of its names, or is below that. -/
  | named {p : Path} {spot : Spot} (hp : p ∈ config.names) (h : d.resolve false p = .ok spot) (hl : spot.place <+: l)
  /-- The file that one of its paths leads to. -/
  | opened {p : Path} {spot : Spot} (hp : p ∈ config.bases) (h : d.resolve true p = .ok spot) (hl : spot.place = l)
  /-- A missing directory above one of its paths. -/
  | above {p q : Path} {spot : Spot} (hp : p ∈ config.bases) (hq : Above q p) (h : d.resolve false q = .ok spot)
      (hl : spot.place = l) (hfree : d.root.at? l = none) (hmade : e.root.at? l = some (.dir dirMode))
  /-- Where no older files are kept, what has the name that ends in zero. -/
  | zero {p : Path} {n : Node} (hp : p ∈ config.bases) (hcount : config.maxRotated = 0)
      (h : d.resolve false (rotatedName p 0) = .ok (.node l n)) (hn : n.isDir = false) (hgone : e.root.at? l = none)

variable {config : LogConfig} {d e : Disk} {p : Path} {place : Location} {b : ByteArray} {l m : Log} {line : String}

/-- **One operation** touches nothing else. -/
theorem Works.touches (h : Works config d e) :
    e.workDir = d.workDir ∧ ∀ l, e.root.at? l ≠ d.root.at? l → Touches config d e l := by
  have hrename {p q : Path} (hp : p ∈ config.names) (hq : q ∈ config.names) (h : d.rename p q = .ok e) :
      e.workDir = d.workDir ∧ ∀ l, e.root.at? l ≠ d.root.at? l → Touches config d e l := by
    obtain ⟨hwork, htouched⟩ := at?_rename h
    refine ⟨hwork, fun l hl => ?_⟩
    obtain ⟨r, spot, rfl | rfl, hres, hplace⟩ := htouched l hl
    · exact .named hp hres hplace
    · exact .named hq hres hplace
  have hremove {p : Path} (hp : p ∈ config.names) (h : d.remove p = .ok e) :
      e.workDir = d.workDir ∧ ∀ l, e.root.at? l ≠ d.root.at? l → Touches config d e l := by
    obtain ⟨loc, n, hres, hn, rfl⟩ := exists_of_remove h
    refine ⟨rfl, fun l hl => .named hp hres ?_⟩
    obtain ⟨rfl, -⟩ := at?_erase (get?_of_resolve hres) hn hl
    exact List.prefix_refl _
  cases h with
  | append hp ho h =>
    obtain ⟨-, -, hsame⟩ := ho.append h
    obtain ⟨n, hres, -⟩ := ho
    exact ⟨hsame.workDir, fun l hl => .opened hp hres (not_not.1 fun hne => hl (hsame.same l (Ne.symm hne)))⟩
  | arrange h =>
    cases h with
    | makeDir hp hq h =>
      obtain ⟨hwork, hmade⟩ := at?_makeDir h
      rw [hq.bare_eq] at hmade
      refine ⟨hwork, fun l hl => ?_⟩
      obtain ⟨⟨spot, hres, hplace⟩, hfree, hdir⟩ := hmade l hl
      exact .above hp hq hres hplace hfree hdir
    | openFile hp h =>
      obtain ⟨-, -, hsame, spot, hres, rfl⟩ := Opened.of_openFile h
      exact ⟨hsame.workDir, fun l hl => .opened hp hres (not_not.1 fun hne => hl (hsame.same l (Ne.symm hne)))⟩
    | moveAside hp hcount h =>
      exact hrename (LogConfig.names_of_base hp) (LogConfig.names_of_numbered hp Nat.one_pos hcount) h
    | moveUp hp hpos hk h =>
      have hfrom := LogConfig.names_of_numbered hp hpos (by omega)
      exact hrename hfrom (LogConfig.names_of_numbered hp (by omega) (by omega)) h
    | dropOldest hp hcount h => exact hremove (LogConfig.names_of_numbered hp hcount (Nat.le_refl _)) h
    | dropFile hp hcount h => exact hremove (LogConfig.names_of_base hp) h
    | dropZero hp hcount h =>
      obtain ⟨loc, n, hres, hn, rfl⟩ := exists_of_remove h
      refine ⟨rfl, fun l hl => ?_⟩
      obtain ⟨rfl, hgone⟩ := at?_erase (get?_of_resolve hres) hn hl
      exact .zero hp hcount hres hn hgone

/-! ## Operations of the log -/

theorem works_appends (hp : p ∈ config.bases) (ho : d.Opened p place) (h : Appends place d b e) :
    ReflTransGen (Works config) d e := by
  induction h with
  | none d => exact .refl
  | more hstep _ ih => exact .head (.append hp ho hstep) (ih (ho.append hstep).1)

theorem works_flush (h : l.Attached) : ReflTransGen (Works l.config) l.disk l.flush.disk := by
  rcases flush_cases l with hsame | ⟨f, e, hf, happend, hflush⟩
  · rw [hsame]
  · obtain ⟨p, hbase, ho⟩ := h.opened f hf
    rw [hflush]
    exact .single (.append (mem_bases hbase) ho happend)

theorem works_emit (h : l.Attached) (hemit : l.emit line = some m) : ReflTransGen (Works l.config) l.disk m.disk := by
  by_cases hsink : isFile l.sink = true
  · obtain ⟨f, g, e, hf, hput, rfl⟩ := emit_file hsink hemit
    obtain ⟨p, hbase, ho⟩ := h.opened f hf
    obtain ⟨hplace, out, happends, hout⟩ := put_appends hput
    have hworks := works_appends (mem_bases hbase) ho happends
    obtain ⟨hattached, -⟩ := h.of_appends hf happends hplace hout (l.written + line.utf8ByteSize)
    split
    · exact hworks.trans (works_flush hattached)
    · exact hworks
  · rcases eq_of_not_isFile hsink with hs | hs
    · rw [emit_stderr hs] at hemit
      cases hemit
      exact .refl
    · rw [emit_discard hs] at hemit
      cases hemit
      exact .refl

/-- A log whose file is closed and another one opened. -/
theorem Renews.works {good : Disk → Location → Prop} (h : Renews good l d m)
    (hclose : ReflTransGen (Works l.config) l.disk d) : ReflTransGen (Works l.config) l.disk m.disk :=
  hclose.trans (works_of_arranges h.arranges)

theorem works_degrade (h : l.Attached) : ReflTransGen (Works l.config) l.disk l.degrade.disk :=
  (degrades_anything l).renews.1.works (works_flush h)

theorem works_ready (h : l.Attached) (line : String) : ReflTransGen (Works l.config) l.disk (l.ready line).disk := by
  obtain ⟨hsame | ⟨-, hrenews⟩, -⟩ := (readies_anything l line).renews h
  · rw [hsame]
  · have hagain := works_flush h.flush.1
    rw [flush_config] at hagain
    exact hrenews.works ((works_flush h).trans hagain)

theorem works_call (h : l.Attached) (c : Call) : ReflTransGen (Works l.config) l.disk (l.call c).disk := by
  cases c with
  | flush => exact works_flush h
  | write entry =>
    have hwrite : (l.writeEntry entry).Attached ∧ (l.writeEntry entry).config = l.config
        ∧ ReflTransGen (Works l.config) l.disk (l.writeEntry entry).disk := by
      refine writeLine_rec (motive := fun m => m.Attached ∧ m.config = l.config
        ∧ ReflTransGen (Works l.config) l.disk m.disk) ?_ ?_ ?_ 4 ⟨h, rfl, .refl⟩
      · rintro k ⟨hk, hconfig, hworks⟩
        exact ⟨(attached_ready hk entry.line).1, (attached_ready hk entry.line).2.trans hconfig,
          hworks.trans (hconfig ▸ works_ready hk entry.line)⟩
      · rintro k m ⟨hk, hconfig, hworks⟩ hemit
        obtain ⟨hm, -, hsame⟩ := hk.of_emit hemit
        exact ⟨hm, hsame.trans hconfig, hworks.trans (hconfig ▸ works_emit hk hemit)⟩
      · rintro k ⟨hk, hconfig, hworks⟩
        exact ⟨(attached_degrade k).1, (attached_degrade k).2.trans hconfig,
          hworks.trans (hconfig ▸ works_degrade hk)⟩
    exact hwrite.2.2

theorem works_calls (h : l.Attached) (calls : List Call) :
    ReflTransGen (Works l.config) l.disk (calls.foldl call l).disk := by
  induction calls generalizing l with
  | nil => exact .refl
  | cons c calls ih =>
    obtain ⟨hcall, hconfig⟩ := attached_call h c
    have hrest := ih hcall
    rw [hconfig] at hrest
    exact (works_call h c).trans hrest

/-- **A log touches nothing but its own files**, and what has the name that ends in zero. -/
theorem touches_own (config : LogConfig) (disk : Disk) (calls : List Call) :
    ReflTransGen (fun d e => Works config d e ∧ e.workDir = d.workDir
        ∧ ∀ l, e.root.at? l ≠ d.root.at? l → Touches config d e l)
      disk (calls.foldl call (start config disk)).disk := by
  have hworks : ReflTransGen (Works config) disk (calls.foldl call (start config disk)).disk := by
    obtain ⟨hattached, hconfig⟩ := attached_start config disk
    have hcalls := works_calls hattached calls
    rw [hconfig] at hcalls
    exact (works_of_arranges (begins_anything config disk).renews.1.arranges).trans hcalls
  exact ReflTransGen.mono (fun d e (h : Works config d e) => ⟨h, h.touches⟩) disk _ hworks

/-! ## A log that keeps no older files -/

section Zero

/-- The log with no older files to keep. -/
def zeroConfig : LogConfig := { smallLog with maxRotated := 0 }

/-- A file has the name that ends in zero. -/
def zeroDisk : Disk := ⟨.dir 0o755 [("log.0", .file .empty fileMode)], []⟩

/-- The same disk, with the file of the log. -/
def zeroFile (c : ByteArray) : Disk := ⟨.dir 0o755 [("log.0", .file .empty fileMode), ("log", .file c fileMode)], []⟩

/-- The file of the log alone. -/
def bareFile (c : ByteArray) : Disk := ⟨.dir 0o755 [("log", .file c fileMode)], []⟩

theorem pathPieces_zero : pathPieces "log.0" = ["log.0"] := by decide

theorem resolve_zero (c : ByteArray) :
    (zeroFile c).resolve false ⟨"log.0"⟩ = .ok (.node ["log.0"] (.file .empty fileMode)) := by
  rw [zeroFile, resolve_eq, show textRefusal? ⟨"log.0"⟩ = none by decide, pathPieces_zero, ite_self]
  simp +decide [walk, Node.get?, Entries.get?]

theorem makeRoom_zero (c : ByteArray) : makeRoom ⟨"log"⟩ 0 (zeroFile c) = ⟨.dir 0o755 [], []⟩ := by
  have hname : rotatedName ⟨"log"⟩ 0 = ⟨"log.0"⟩ := by decide
  have hzero : (zeroFile c).remove ⟨"log.0"⟩ = .ok (bareFile c) := by
    rw [Disk.remove, Disk.find, resolve_zero]
    rfl
  have hshift : shift ⟨"log"⟩ (0 - 1) (bareFile c) = bareFile c := rfl
  have hfile : (bareFile c).remove ⟨"log"⟩ = .ok ⟨.dir 0o755 [], []⟩ := by
    have hres : (bareFile c).resolve false ⟨"log"⟩ = .ok (.node ["log"] (.file c fileMode)) := by
      rw [bareFile, resolve_log]
      simp +decide [walk, Node.get?, Entries.get?]
    rw [Disk.remove, Disk.find, hres]
    rfl
  simp only [makeRoom, hname, hzero, orKeep, hshift, gt_iff_lt, Nat.lt_irrefl, if_false, hfile]

theorem openFile_bare : Disk.openFile ⟨.dir 0o755 [], []⟩ false ⟨"log"⟩ = .ok (["log"], bareFile .empty) := by
  have hres : Disk.resolve ⟨.dir 0o755 [], []⟩ true ⟨"log"⟩ = .ok (.free [] "log") := by
    rw [resolve_log]
    simp +decide [walk, Node.get?, Entries.get?]
  rw [Disk.openFile, hres]
  rfl

/-- The log on a disk, with so many bytes in its buffer. -/
def zeroLog (disk : Disk) (b : ByteArray) : Log where
  config := zeroConfig
  disk := disk
  sink := .primary
  file := some { place := ["log"], buffer := b }
  written := b.size

theorem rotate_zero (b : ByteArray) : (zeroLog (zeroFile .empty) b).rotate = zeroLog (bareFile .empty) .empty := by
  have hopen : (makeRoom ⟨"log"⟩ 0 (zeroFile (.empty ++ b ++ .empty))).openFile false ⟨"log"⟩
      = .ok (["log"], bareFile .empty) := by
    rw [makeRoom_zero]
    exact openFile_bare
  exact rotate_log rfl hopen

end Zero

/-- **A name that is not the log's own** is dropped by the second line. -/
theorem zero_dropped :
    let l := [Call.write runStarted, .write runStarted].foldl call (start zeroConfig zeroDisk)
    zeroConfig.names = [⟨"log"⟩] ∧ zeroDisk.root.at? ["log.0"] = some (.file .empty fileMode)
      ∧ l.disk.root.at? ["log.0"] = none := by
  have hopen : zeroDisk.openFile false ⟨"log"⟩ = .ok (["log"], zeroFile .empty) := by
    have hres : zeroDisk.resolve true ⟨"log"⟩ = .ok (.free [] "log") := by
      rw [zeroDisk, resolve_log]
      simp +decide [walk, Node.get?, Entries.get?]
    rw [Disk.openFile, hres]
    rfl
  have hstart : start zeroConfig zeroDisk = zeroLog (zeroFile .empty) .empty := by
    rw [start, show zeroConfig.path = ⟨"log"⟩ from rfl, openAppend_bare (by decide) hopen]
    rfl
  have hnot : (zeroLog (zeroFile .empty) .empty).isDue runStarted.line = false := rfl
  have hdue : (zeroLog (zeroFile .empty) runStarted.line.toUTF8).isDue runStarted.line = true := by decide
  have hfirst : (zeroLog (zeroFile .empty) .empty).writeEntry runStarted
      = zeroLog (zeroFile .empty) runStarted.line.toUTF8 := by
    rw [(writeEntry_small (l := zeroLog (zeroFile .empty) .empty) (if_neg (by simp [hnot])) rfl rfl rfl).2, zeroLog,
      zeroLog, ByteArray.empty_append, ByteArray.size_empty, Nat.zero_add]
  refine ⟨by decide, rfl, ?_⟩
  show (((start zeroConfig zeroDisk).writeEntry runStarted).writeEntry runStarted).disk.root.at? ["log.0"] = none
  rw [hstart, hfirst, (writeEntry_small ((if_pos hdue).trans (rotate_zero _)) rfl rfl rfl).2]
  rfl

end Codemod.Log
