/-
Rewriting one file of a tree. What comes of it can be told from the content and the permissions of the
file and from the text of its path (`rewritten`), and the disk changes in that file alone
(`rewriteFile_join`), if nothing stands at the name of the second file. Whatever but a link stands there,
the two names are all that changes (`rewriteFile_elsewhere`).
-/
import Codemod.Proofs.Run.Replace

namespace Codemod

open Disk Node Codemod.Path Text

/-- What comes of rewriting a file with this content and these permissions. -/
def rewritten (rules : RuleSet) (dryRun : Bool) (p temp : Path) (content : ByteArray) (mode : Nat) :
    Except Error FileRecord :=
  match refusal? p with
  | some e => .error (.ofOs p e)
  | none => match Utf8.decode content with
    | .error fault => .error (.decode p fault.message)
    | .ok text =>
      let r := FileRecord.of p text rules
      if r.isModified && !dryRun then
        match writeRefusal? p temp (.file content mode) with
        | some e => .error e
        | none => .ok { r with written := true }
      else .ok r

variable {d : Disk} {p : Path} {loc : Location} {x : String} {k mode : Nat} {es : Entries} {c : ByteArray}
  {rules : RuleSet} {dryRun : Bool}

/-- The disk is changed by replacing the file, or not at all. -/
theorem rewriteFile_disk (d : Disk) (p : Path) (rules : RuleSet) (dryRun : Bool) :
    (rewriteFile d p rules dryRun).2 = d
      ∨ ∃ b, (rewriteFile d p rules dryRun).2 = (d.replaceFile p b).2 := by
  rw [rewriteFile]
  cases d.readText p with
  | error e => exact .inl rfl
  | ok text =>
    simp only
    by_cases h : ((FileRecord.of p text rules).isModified && !dryRun) = true
    · rw [if_pos h]
      refine .inr ⟨(FileRecord.of p text rules).content.toUTF8, ?_⟩
      split <;> rename_i heq <;> rw [heq]
    · rw [if_neg h]
      exact .inl rfl

section Entry

variable (hlead : d.LeadsTo p loc) (hx : IsName x)

include hlead hx

theorem readText_entry (hget : d.root.get? (loc ++ [x]) = some (.file c k)) :
    d.readText (p.join ⟨x⟩) = match refusal? (p.join ⟨x⟩) with
      | some e => .error (.ofOs (p.join ⟨x⟩) e)
      | none => match Utf8.decode c with
        | .error fault => .error (.decode (p.join ⟨x⟩) fault.message)
        | .ok text => .ok text := by
  rw [readText, Disk.read, stat_entry hlead hx hget rfl]
  cases refusal? (p.join ⟨x⟩) with
  | some e => rfl
  | none => cases h : Utf8.decode c <;> simp [bind, Except.bind, pure, Except.pure, h]

variable (hdir : d.root.get? loc = some (.dir mode es)) (hfile : Entries.get? x es = some (.file c k))

include hdir hfile

/-- **Rewriting a file changes this file alone**, and only if it ends well. -/
theorem rewriteFile_join (hfree : Entries.get? (tempName x) es = none) :
    rewriteFile d (p.join ⟨x⟩) rules dryRun =
      match rewritten rules dryRun (p.join ⟨x⟩) (p.tidy.join ⟨tempName x⟩) c k with
      | .ok r =>
        (.ok r, if r.written then d.withNode (loc ++ [x]) (.file r.content.toUTF8 k) else d)
      | .error e => (.error e, d) := by
  have hget : d.root.get? (loc ++ [x]) = some (.file c k) := (get?_concat hdir x).trans hfile
  have hnone : d.root.get? (loc ++ [tempName x]) = none := (get?_concat hdir _).trans hfree
  rw [rewriteFile, readText_entry hlead hx hget, rewritten]
  cases refusal? (p.join ⟨x⟩) with
  | some e => rfl
  | none =>
    cases Utf8.decode c with
    | error fault => rfl
    | ok text =>
      simp only
      split
      · cases hr : writeRefusal? (p.join ⟨x⟩) (p.tidy.join ⟨tempName x⟩) (.file c k) with
        | some e => rw [replaceFile_refused hlead hx hdir hfile (by simp [hfree]) hr]
        | none =>
          rw [replaceFile_eq hlead hx hdir hfile (by simp [hfree]) hr, without_of_get? hnone]
          rfl
      · rfl

/-- Whatever stands at the name of the second file, if it is no link, nothing changes but at the two
names. -/
theorem rewriteFile_elsewhere (hlink : ∀ t, Entries.get? (tempName x) es ≠ some (.link t)) :
    d.AgreeBut (rewriteFile d (p.join ⟨x⟩) rules dryRun).2
      [loc ++ [tempName x], loc ++ [x]] := by
  obtain h | ⟨b, h⟩ := rewriteFile_disk d (p.join ⟨x⟩) rules dryRun
  · rw [h]
    exact .refl d _
  · rw [h]
    exact replaceFile_elsewhere hlead hx hdir hfile hlink

/-- But for the file, what is not as it was is gone. -/
theorem rewriteFile_others (hlink : ∀ t, Entries.get? (tempName x) es ≠ some (.link t)) {l : Location}
    (hl : l ≠ loc ++ [x]) : (rewriteFile d (p.join ⟨x⟩) rules dryRun).2.root.at? l = none
      ∨ (rewriteFile d (p.join ⟨x⟩) rules dryRun).2.root.at? l = d.root.at? l := by
  obtain h | ⟨b, h⟩ := rewriteFile_disk d (p.join ⟨x⟩) rules dryRun
  · rw [h]
    exact .inr rfl
  · rw [h]
    exact replaceFile_others hlead hx hdir hfile hlink hl

end Entry

theorem rewriteFile_eq {l : Location} (hlead : d.LeadsTo (pathOf l) loc) (hl : ∀ s ∈ l, IsName s)
    (hx : IsName x) (hdir : d.root.get? loc = some (.dir mode es))
    (hfile : Entries.get? x es = some (.file c k)) (hfree : Entries.get? (tempName x) es = none) :
    rewriteFile d (pathOf (l ++ [x])) rules dryRun =
      match rewritten rules dryRun (pathOf (l ++ [x])) (pathOf (l ++ [tempName x])) c k with
      | .ok r =>
        (.ok r, if r.written then d.withNode (loc ++ [x]) (.file r.content.toUTF8 k) else d)
      | .error e => (.error e, d) := by
  have h : rewriteFile d ((pathOf l).join ⟨x⟩) rules dryRun = _ :=
    rewriteFile_join hlead hx hdir hfile hfree
  rwa [tidy_pathOf hl, join_name hl hx, join_name hl hx.temp] at h

end Codemod
