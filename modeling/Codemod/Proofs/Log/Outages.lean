/-
A log whose files may be refused at any time. Where the disk is asked to open or to rename a file, it may do so or
not: `Begins`, `Rotates`, `Degrades` and `Records` are the courses that a log then takes, and what it does where
nothing is refused without a reason is one of them. Each of them closes the file in use, arranges what has the names of
the log, and has a new file open or none (`Renews`). A sink is left for a later one, and since the last of them takes
every line, there is an end to trying again (`wellFounded_retries`).
-/
import Codemod.Proofs.Log.Attached
import Codemod.Proofs.Log.Operations

namespace Codemod

open Disk Relation

/-- How far lines have come on their way from sink to sink. -/
def Sink.rank : Sink → Nat
  | .primary => 0
  | .fallback => 1
  | .stderr => 2
  | .discard => 3

namespace Log

/-- What a log says on the error output about itself. -/
inductive Notice (config : LogConfig) : String → Prop
  | noFallback : Notice config ("cannot open " ++ config.path.text ++ " and no fallback configured, logging to stderr")
  | usingFallback (p : Path) : Notice config ("cannot open " ++ config.path.text ++ ", using fallback " ++ p.text)
  | unavailable : Notice config "primary and fallback logs unavailable, logging to stderr"
  | fallbackFailed : Notice config "fallback log write failed, logging to stderr"

/-- Notices are added to what is on the error output, and nothing else. -/
def Reports (config : LogConfig) : String → String → Prop :=
  ReflTransGen fun s t => ∃ notice, Notice config notice ∧ t = s ++ "[SRW-JSONL] " ++ notice ++ "\n"

variable (good : Disk → Location → Prop)

/-! ## Courses -/

/-- The second file is opened, or lines go to the error output. -/
inductive FallsBack (l : Log) : Log → Prop
  | opened {p : Path} {place : Location} {size : Nat} {e : Disk} (hp : l.config.fallback = some p)
      (h : Opens good l.disk p (some (place, size)) e) :
      FallsBack l { l.report ("cannot open " ++ l.config.path.text ++ ", using fallback " ++ p.text) with
        disk := e, file := some { place }, written := size, sink := .fallback }
  | unset (hp : l.config.fallback = none) :
      FallsBack l
        { l.report ("cannot open " ++ l.config.path.text ++ " and no fallback configured, logging to stderr") with
          sink := .stderr }
  | refused {p : Path} {e : Disk} (hp : l.config.fallback = some p) (h : Opens good l.disk p none e) :
      FallsBack l
        { l.report "primary and fallback logs unavailable, logging to stderr" with disk := e, sink := .stderr }

/-- The log is opened. -/
inductive Begins (config : LogConfig) (disk : Disk) : Log → Prop
  | opened {place : Location} {size : Nat} {e : Disk} (h : Opens good disk config.path (some (place, size)) e) :
      Begins config disk { config, disk := e, sink := .primary, file := some { place }, written := size }
  | refused {e : Disk} {m : Log} (h : Opens good disk config.path none e)
      (hback : FallsBack good { config, disk := e, sink := .discard } m) : Begins config disk m

/-- A sink is given up for the next one. -/
inductive Degrades (l : Log) : Log → Prop
  | primary {m : Log} (hsink : l.sink = .primary) (h : FallsBack good l.close m) : Degrades l m
  | fallback (hsink : l.sink = .fallback) :
      Degrades l { l.close.report "fallback log write failed, logging to stderr" with sink := .stderr }
  | last (hsink : isFile l.sink = false) : Degrades l { l.close with sink := .discard }

/-- Room is made, as far as that goes, and a new file begins, or the sink is given up. -/
inductive Rotates (l : Log) : Log → Prop
  | opened {base : Path} {d e : Disk} {place : Location} {size : Nat} (hbase : l.base? = some base)
      (hroom : MakesWay base l.config.maxRotated l.flush.close.disk d) (h : Opens good d base (some (place, size)) e) :
      Rotates l { l.flush.close with disk := e, file := some { place }, written := 0 }
  | refused {base : Path} {d e : Disk} {m : Log} (hbase : l.base? = some base)
      (hroom : MakesWay base l.config.maxRotated l.flush.close.disk d) (h : Opens good d base none e)
      (hdegrade : Degrades good { l.flush.close with disk := e } m) : Rotates l m
  | nowhere (hbase : l.base? = none) : Rotates l l.flush.close

/-- A new file begins where the line would make the old one too large. -/
inductive Readies (line : String) (l : Log) : Log → Prop
  | turn {m : Log} (hdue : l.isDue line = true) (h : Rotates good l m) : Readies line l m
  | stay (hdue : l.isDue line = false) : Readies line l l

/-- The sink that a line does not get to is given up, and the line is tried again. -/
def Retries (line : String) (l m : Log) : Prop := ∃ k, Readies good line l k ∧ k.emit line = none ∧ Degrades good k m

/-- A line is written, after so many sinks have been given up. -/
inductive Records (line : String) : Log → Log → Prop
  | done {l k m : Log} (hready : Readies good line l k) (h : k.emit line = some m) : Records line l m
  | again {l k m : Log} (h : Retries good line l k) (hrest : Records line k m) : Records line l m

/-- Entries are written one after the other. -/
inductive Goes : Log → List LogEntry → Log → Prop
  | nil (l : Log) : Goes l [] l
  | cons {l k m : Log} {entry : LogEntry} {es : List LogEntry} (h : Records good entry.line l k) (hrest : Goes k es m) :
      Goes l (entry :: es) m

/-! ## What a course does -/

/-- With the file closed, which leaves so much of a disk, names are arranged on it; a file that is open then has been
given nothing. -/
structure Renews (l : Log) (d : Disk) (m : Log) : Prop where
  config : m.config = l.config
  notices : Reports l.config l.stderr m.stderr
  arranges : ReflTransGen (Arranges l.config) d m.disk
  attached : m.Attached
  fresh : ∀ f ∈ m.file, f.buffer = .empty ∧ good m.disk f.place

variable {good} {config : LogConfig} {d e : Disk} {p base : Path} {place : Location} {size : Nat} {l k m : Log}
  {line : String}

theorem Reports.one {notice : String} (h : Notice config notice) (s : String) :
    Reports config s (s ++ "[SRW-JSONL] " ++ notice ++ "\n") :=
  .single ⟨notice, h, rfl⟩

theorem Opens.file (h : Opens good d p (some (place, size)) e) :
    e.Opened p place ∧ size = (e.contentAt place).size ∧ good e place := by
  cases h with
  | opened h hgood => exact ⟨(exists_opened h).1, (exists_opened h).2, hgood⟩

/-- A log that has opened a file is attached to it. -/
theorem Opens.attached (h : Opens good d p (some (place, size)) e) (hdisk : m.disk = e)
    (hfile : m.file = some { place }) (hbase : m.base? = some p) : m.Attached := by
  refine ⟨by rw [hfile, isFile_of_base? hbase]; rfl, fun f hf => ?_⟩
  obtain rfl := Option.some.inj (hfile.symm.trans hf)
  exact ⟨p, hbase, hdisk ▸ h.file.1⟩

/-- A file that has just been opened has been given nothing. -/
theorem Opens.fresh (h : Opens good d p (some (place, size)) e) (hdisk : m.disk = e)
    (hfile : m.file = some { place }) : ∀ f ∈ m.file, f.buffer = .empty ∧ good m.disk f.place := by
  intro f hf
  obtain rfl := Option.some.inj (hfile.symm.trans hf)
  exact ⟨rfl, hdisk ▸ h.file.2.2⟩

/-- What comes after more has been arranged. -/
theorem Renews.of_arranges (h : Renews good k d m) (hconfig : k.config = l.config) (hstderr : k.stderr = l.stderr)
    (harranges : ReflTransGen (Arranges l.config) e d) : Renews good l e m where
  config := h.config.trans hconfig
  notices := hconfig ▸ hstderr ▸ h.notices
  arranges := harranges.trans (hconfig ▸ h.arranges)
  attached := h.attached
  fresh := h.fresh

theorem attached_closed (hfile : l.file = none) (hsink : isFile l.sink = false) : l.Attached :=
  ⟨by rw [hfile, hsink]; rfl, by simp [hfile]⟩

theorem FallsBack.renews (h : FallsBack good l m) (hfile : l.file = none) :
    Renews good l l.disk m ∧ (m.sink = .fallback ∨ m.sink = .stderr) := by
  cases h with
  | @opened p place size e hp h =>
    have harranges := h.arranges (List.mem_cons_of_mem _ (Option.mem_toList.2 hp))
    exact ⟨⟨rfl, .one (.usingFallback p) _, harranges, h.attached rfl rfl hp, h.fresh rfl rfl⟩, .inl rfl⟩
  | unset hp => exact ⟨⟨rfl, .one .noFallback _, .refl, attached_closed hfile rfl, by simp [report, hfile]⟩, .inr rfl⟩
  | @refused p e hp h =>
    have harranges := h.arranges (List.mem_cons_of_mem _ (Option.mem_toList.2 hp))
    exact ⟨⟨rfl, .one .unavailable _, harranges, attached_closed hfile rfl, by simp [report, hfile]⟩, .inr rfl⟩

/-- **Opening a log** finds a sink for its lines. -/
theorem Begins.renews {disk : Disk} (h : Begins good config disk m) :
    Renews good { config, disk, sink := .primary } disk m ∧ m.sink ≠ .discard := by
  cases h with
  | opened h =>
    exact ⟨⟨rfl, .refl, h.arranges (List.mem_cons_self ..), h.attached rfl rfl rfl, h.fresh rfl rfl⟩, nofun⟩
  | refused h hback =>
    obtain ⟨hrenews, hsink⟩ := hback.renews rfl
    refine ⟨hrenews.of_arranges rfl rfl (h.arranges (List.mem_cons_self ..)), ?_⟩
    rcases hsink with hsink | hsink <;> simp [hsink]

/-- **A sink that is given up** is followed by a later one, and a file is not followed by nothing. -/
theorem Degrades.renews (h : Degrades good l m) : Renews good l l.close.disk m ∧ l.sink.rank ≤ m.sink.rank
    ∧ (isFile l.sink = true → l.sink.rank < m.sink.rank ∧ m.sink ≠ .discard) := by
  cases h with
  | primary hsink h =>
    obtain ⟨hrenews, hm⟩ := h.renews (close_file l)
    refine ⟨hrenews.of_arranges (close_config l) (close_stderr l) .refl, ?_⟩
    rcases hm with hm | hm <;> simp [hsink, hm, Sink.rank]
  | fallback hsink =>
    refine ⟨⟨close_config l, ?_, .refl, attached_closed rfl rfl, nofun⟩, ?_⟩
    · rw [← close_stderr l]
      exact .one .fallbackFailed _
    · simp [hsink, Sink.rank]
  | last hsink =>
    refine ⟨⟨close_config l, by rw [close_stderr]; exact .refl, .refl, attached_closed rfl rfl, nofun⟩, ?_⟩
    cases hs : l.sink <;> simp_all [isFile, Sink.rank]

/-- **A rotation** goes back to no earlier sink. -/
theorem Rotates.renews (h : Rotates good l m) (hbase : l.base? ≠ none) :
    Renews good l l.flush.close.disk m ∧ l.sink.rank ≤ m.sink.rank ∧ (l.sink ≠ .discard → m.sink ≠ .discard) := by
  have hconfig : l.flush.close.config = l.config := by simp
  have hstderr : l.flush.close.stderr = l.stderr := by simp
  have hsink : l.flush.close.sink = l.sink := by simp
  cases h with
  | @opened base d e place size hbase hroom h =>
    have hp := mem_bases hbase
    refine ⟨⟨hconfig, ?_, (hroom.arranges hp).trans (h.arranges hp), h.attached rfl rfl ?_, h.fresh rfl rfl⟩, by simp⟩
    · rw [hstderr]
      exact .refl
    · exact (base?_congr hsink hconfig).trans hbase
  | @refused base d e m hbase hroom h hdegrade =>
    have hp := mem_bases hbase
    obtain ⟨hrenews, hrank, hnext⟩ := hdegrade.renews
    have hfile : isFile l.flush.close.sink = true := hsink ▸ isFile_of_base? hbase
    exact ⟨hrenews.of_arranges hconfig hstderr ((hroom.arranges hp).trans (h.arranges hp)), hsink ▸ hrank,
      fun _ => (hnext hfile).2⟩
  | nowhere h => exact absurd h hbase

theorem Attached.base?_ne_none (h : l.Attached) (hsink : isFile l.sink = true) : l.base? ≠ none := by
  obtain ⟨f, p, -, hbase, -⟩ := h.exists_file hsink
  simp [hbase]

theorem Readies.renews (h : Readies good line l m) (hl : l.Attached) :
    (m = l ∨ isFile l.sink = true ∧ Renews good l l.flush.close.disk m) ∧ l.sink.rank ≤ m.sink.rank
      ∧ (l.sink ≠ .discard → m.sink ≠ .discard) := by
  cases h with
  | turn hdue h =>
    obtain ⟨hrenews, hrank, hnext⟩ := h.renews (hl.base?_ne_none (isDue_isFile hdue))
    exact ⟨.inr ⟨isDue_isFile hdue, hrenews⟩, hrank, hnext⟩
  | stay => exact ⟨.inl rfl, Nat.le_refl _, id⟩

/-! ## Trying again -/

/-- A file that is due has a path, or the log goes on without one; its sink is not an earlier one. -/
theorem Readies.rank_le (h : Readies good line l m) : l.sink.rank ≤ m.sink.rank := by
  cases h with
  | stay => exact Nat.le_refl _
  | turn hdue h =>
    by_cases hbase : l.base? = none
    · cases h with
      | opened h | refused h => simp [h] at hbase
      | nowhere => simp
    · exact (h.renews hbase).2.1

theorem isFile_of_emit_none (h : l.emit line = none) : isFile l.sink = true := by
  cases hs : l.sink with
  | primary | fallback => rfl
  | stderr => simp [emit_stderr hs] at h
  | discard => simp [emit_discard hs] at h

theorem Retries.rank_lt (h : Retries good line l m) : l.sink.rank < m.sink.rank := by
  obtain ⟨k, hready, hemit, hdegrade⟩ := h
  exact Nat.lt_of_le_of_lt hready.rank_le (hdegrade.renews.2.2 (isFile_of_emit_none hemit)).1

theorem Records.rank_le (h : Records good line l m) : l.sink.rank ≤ m.sink.rank := by
  induction h with
  | done hready h => exact emit_sink h ▸ hready.rank_le
  | again h _ ih => exact h.rank_lt.le.trans ih

/-- **No sink is gone back to**, whatever is refused. -/
theorem Goes.rank_le {es : List LogEntry} (h : Goes good l es m) : l.sink.rank ≤ m.sink.rank := by
  induction h with
  | nil l => exact Nat.le_refl _
  | cons h _ ih => exact h.rank_le.trans ih

theorem Goes.append {es more : List LogEntry} (h : Goes good l es k) (h' : Goes good k more m) :
    Goes good l (es ++ more) m := by
  induction h with
  | nil l => exact h'
  | cons h _ ih => exact .cons h (ih h')

theorem rank_le_three (s : Sink) : s.rank ≤ 3 := by
  cases s <;> simp [Sink.rank]

/-- **There is an end to trying again**, whatever is refused. -/
theorem wellFounded_retries (good : Disk → Location → Prop) (line : String) :
    WellFounded fun m l => Retries good line l m := by
  refine Subrelation.wf ?_ (InvImage.wf (fun l : Log => 3 - l.sink.rank) Nat.lt_wfRel.wf)
  intro m l h
  have hlt := h.rank_lt
  have hle := rank_le_three m.sink
  show 3 - m.sink.rank < 3 - l.sink.rank
  omega

/-! ## What the log does itself -/

theorem fallsBack_openFallback (hgood : ∀ f ∈ l.openFallback.file, good l.openFallback.disk f.place) :
    FallsBack good l l.openFallback := by
  rw [openFallback] at hgood ⊢
  cases hfallback : l.config.fallback with
  | none => exact .unset hfallback
  | some p =>
    rcases hopen : openAppend l.disk p with ⟨_ | ⟨place, size⟩, e⟩
    · simp only [hopen]
      exact .refused hfallback (opens_of_none hopen)
    · simp only [hfallback, hopen] at hgood ⊢
      exact .opened hfallback (.opened hopen (hgood _ rfl))

theorem begins_start {disk : Disk} (hgood : ∀ f ∈ (start config disk).file, good (start config disk).disk f.place) :
    Begins good config disk (start config disk) := by
  rw [start] at hgood ⊢
  rcases hopen : openAppend disk config.path with ⟨_ | ⟨place, size⟩, e⟩
  · simp only [hopen] at hgood ⊢
    exact .refused (opens_of_none hopen) (fallsBack_openFallback hgood)
  · simp only [hopen] at hgood ⊢
    exact .opened (.opened hopen (hgood _ rfl))

theorem degrades_degrade (hgood : ∀ f ∈ l.degrade.file, good l.degrade.disk f.place) : Degrades good l l.degrade := by
  have hdegrade := degrade_of_closed (close_file l)
  rw [degrade_close, close_sink] at hdegrade
  rw [hdegrade] at hgood ⊢
  cases hsink : l.sink with
  | primary =>
    rw [hsink] at hgood
    exact .primary hsink (fallsBack_openFallback hgood)
  | fallback => exact .fallback hsink
  | stderr | discard => exact .last (by rw [hsink]; rfl)

theorem rotates_rotate (hgood : ∀ f ∈ l.rotate.file, good l.rotate.disk f.place) : Rotates good l l.rotate := by
  cases hbase : l.base? with
  | none =>
    have hclosed : l.flush.close.base? = none := (base?_congr (by simp) (by simp)).trans hbase
    have hrotate : l.rotate = l.flush.close := by
      rw [rotate]
      simp only [hclosed]
    rw [hrotate]
    exact .nowhere hbase
  | some base =>
    have hroom := makesWay_makeRoom base l.config.maxRotated l.flush.close.disk
    rcases rotate_cases hbase with ⟨place, size, e, hopen, h⟩ | ⟨e, hopen, h⟩
    · rw [h] at hgood ⊢
      exact .opened hbase hroom (.opened hopen (hgood _ rfl))
    · rw [h] at hgood ⊢
      exact .refused hbase hroom (opens_of_none hopen) (degrades_degrade hgood)

theorem readies_ready (hgood : ∀ f ∈ (l.ready line).file, good (l.ready line).disk f.place) :
    Readies good line l (l.ready line) := by
  rw [ready] at hgood ⊢
  by_cases hdue : l.isDue line = true
  · rw [if_pos hdue] at hgood ⊢
    exact .turn hdue (rotates_rotate hgood)
  · rw [if_neg hdue]
    exact .stay (by simpa using hdue)

/-- Whatever is opened counts. -/
def anything : Disk → Location → Prop := fun _ _ => True

theorem begins_anything (config : LogConfig) (disk : Disk) : Begins anything config disk (start config disk) :=
  begins_start fun _ _ => True.intro

theorem degrades_anything (l : Log) : Degrades anything l l.degrade := degrades_degrade fun _ _ => True.intro

theorem rotates_anything (l : Log) : Rotates anything l l.rotate := rotates_rotate fun _ _ => True.intro

theorem readies_anything (l : Log) (line : String) : Readies anything line l (l.ready line) :=
  readies_ready fun _ _ => True.intro

theorem attached_start (config : LogConfig) (disk : Disk) :
    (start config disk).Attached ∧ (start config disk).config = config := by
  have h := (begins_anything config disk).renews.1
  exact ⟨h.attached, h.config⟩

theorem attached_degrade (l : Log) : l.degrade.Attached ∧ l.degrade.config = l.config := by
  have h := (degrades_anything l).renews.1
  exact ⟨h.attached, h.config⟩

theorem attached_ready (h : l.Attached) (line : String) :
    (l.ready line).Attached ∧ (l.ready line).config = l.config := by
  obtain ⟨hsame | ⟨-, hrenews⟩, -⟩ := (readies_anything l line).renews h
  · rw [hsame]
    exact ⟨h, rfl⟩
  · exact ⟨hrenews.attached, hrenews.config⟩

/-! ## Calls -/

/-- What is asked of a log in use. -/
inductive Call where
  | write (e : LogEntry)
  | flush

def call (l : Log) : Call → Log
  | .write e => l.writeEntry e
  | .flush => l.flush

theorem attached_call (h : l.Attached) (c : Call) : (l.call c).Attached ∧ (l.call c).config = l.config := by
  cases c with
  | write entry =>
    refine writeLine_rec (motive := fun m => m.Attached ∧ m.config = l.config) ?_ ?_ ?_ 4 ⟨h, rfl⟩
    · rintro k ⟨hk, hconfig⟩
      obtain ⟨hready, hsame⟩ := attached_ready hk entry.line
      exact ⟨hready, hsame.trans hconfig⟩
    · rintro k m ⟨hk, hconfig⟩ hemit
      obtain ⟨hm, -, hsame⟩ := hk.of_emit hemit
      exact ⟨hm, hsame.trans hconfig⟩
    · rintro k ⟨-, hconfig⟩
      exact ⟨(attached_degrade k).1, (attached_degrade k).2.trans hconfig⟩
  | flush => exact ⟨h.flush.1, flush_config l⟩

theorem attached_calls (h : l.Attached) (calls : List Call) :
    (calls.foldl call l).Attached ∧ (calls.foldl call l).config = l.config := by
  induction calls generalizing l with
  | nil => exact ⟨h, rfl⟩
  | cons c calls ih =>
    obtain ⟨hcall, hconfig⟩ := attached_call h c
    obtain ⟨hlast, hsame⟩ := ih hcall
    exact ⟨hlast, hsame.trans hconfig⟩

end Log

end Codemod
