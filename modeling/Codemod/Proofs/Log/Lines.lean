/-
A log that is read back. Its files are lines one after the other; taken apart at the line breaks, they decode to
the entries that were written, in their order.
-/
import Codemod.Proofs.Log.Entry
import Codemod.Proofs.Log.Retention
import Codemod.Proofs.Run.Again

namespace Codemod

open Disk Text

namespace Log

/-- The bytes of a file are lines, each with a break at its end, that decode to these entries. -/
def Decodes (content : ByteArray) (es : List LogEntry) : Prop :=
  ∃ (s : String) (texts : List String), Utf8.decode content = .ok s
    ∧ s.toList.splitOn '\n' = texts.map String.toList ++ [[]] ∧ texts.map LogEntry.ofLine? = es.map some

theorem toList_linesOf (es : List LogEntry) : (linesOf es).toList = es.flatMap fun e => e.line.toList := by
  induction es with
  | nil => rfl
  | cons e es ih => simpa [linesOf] using ih

theorem decodes_linesOf {es : List LogEntry} (h : ∀ e ∈ es, e.Valid) : Decodes (linesOf es).toUTF8 es := by
  refine ⟨linesOf es, es.map LogEntry.text, decode_toUTF8 _, ?_, ?_⟩
  · rw [toList_linesOf, LogEntry.splitOn_lines, List.map_map]
    rfl
  · rw [List.map_map]
    refine List.map_congr_left fun e he => ?_
    rw [Function.comp_apply, LogEntry.ofLine?_text (h e he)]

/-- **What is written to a log is read back from it.** -/
theorem entries_read_back {es : List LogEntry} (hvalid : ∀ e ∈ es, e.Valid) :
    (∀ e ∈ es, ∃ text : String, e.line = text ++ "\n" ∧ '\n' ∉ text.toList ∧ LogEntry.ofLine? text = some e)
      ∧ Decodes (linesOf es).toUTF8 es
      -- The same of the file that a log has written them to.
      ∧ ∀ (config : LogConfig) (disk : Disk), (start config disk).sink = .primary →
        (start config disk).disk.root.isDir = true →
        (∀ o n, (start config disk).disk.lstat (namePath config.path o) = .ok n → n.isDir = false ∧ n.isLink = false) →
        (start config disk).written = 0 → (start config disk).Runs es → (start config disk).turns es = 0 →
        ∃ content, (es.foldl writeEntry (start config disk)).flush.disk.read config.path = .ok content
          ∧ Decodes content es := by
  refine ⟨fun e he => ⟨e.text, rfl, e.not_newline_text, LogEntry.ofLine?_text (hvalid e he)⟩, decodes_linesOf hvalid, ?_⟩
  intro config disk hsink hroot hplain hwritten hruns hturns
  obtain ⟨hconfig, -, loc, x, hkeeps⟩ := keeps_start hsink hroot hplain
  obtain ⟨hlast, hflush, hsame, first, begun, hw⟩ := hkeeps.run hruns
  obtain ⟨e, hflushed, -, hgen, -⟩ := hlast.flush hflush
  -- No file has begun behind the first, and that one was empty.
  obtain rfl : begun = [] := List.eq_nil_of_length_eq_zero (hw.turns.trans hturns)
  obtain rfl : es = first := by simpa using hw.entries
  refine ⟨(linesOf es).toUTF8, ?_, decodes_linesOf hvalid⟩
  obtain ⟨c, older, hnewest, hsize⟩ := hkeeps.exists_newest
  obtain rfl : c = .empty := ByteArray.size_eq_zero_iff.1 (hsize.trans hwritten)
  have hkept := hw.kept
  rw [hnewest, ← hgen, hsame, hconfig, generations] at hkept
  have hheld : held e config.path none = some (.empty ++ (linesOf es).toUTF8) := (List.cons.inj hkept).1
  rw [ByteArray.empty_append, held, namePath] at hheld
  rw [hflushed]
  cases hread : e.read config.path with
  | error err =>
    rw [hread] at hheld
    cases hheld
  | ok content =>
    rw [hread] at hheld
    exact congrArg Except.ok (Option.some.inj hheld)

/-- An entry with every field, and one with none but what it has to have. -/
def fullEntry : LogEntry where
  time := "2024-01-01T00:00:00Z"
  kind := .fileRewrite
  severity := .warning
  path := some "a\"b\\c\n\t\x7f é.ts"
  ruleId := some ""
  hits := some [("", 0), ("a\nb", 18446744073709551615)]
  before := some "00"
  after := some "ff"
  scanned := some 0
  modified := some 18446744073709551615
  dryRun := some true
  duration := some 12
  ok := some false
  errorCode := some "rule"
  errorMessage := some "\x01"
  details := some "[]"

theorem full_entry_read_back : (∀ e ∈ [fullEntry, runStarted], e.Valid)
    ∧ Decodes (linesOf [fullEntry, runStarted]).toUTF8 [fullEntry, runStarted] := by
  have hvalid : ∀ e ∈ [fullEntry, runStarted], e.Valid := by
    intro e he
    simp only [List.mem_cons, List.not_mem_nil, or_false] at he
    rcases he with rfl | rfl
    · refine ⟨fun h hh => ?_, by decide, by decide, by decide⟩
      cases hh
      exact ⟨.cons (by decide) (.cons nofun .nil), by decide⟩
    · exact ⟨nofun, nofun, nofun, nofun⟩
  exact ⟨hvalid, (entries_read_back hvalid).2.1⟩

end Log

end Codemod
