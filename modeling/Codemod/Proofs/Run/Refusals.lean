/-
Why entries of the list of files to remove are refused. Some are refused for their text, wherever a run takes place
(`textFault?`); the others for what is at their place (`placeFaults`), which is never told in the same words
(`textFault?_ne_place`). What a run lists as refused is one of its entries, and its words tell which of the two it is
(`refused_places`).
-/
import Codemod.Proofs.Run.Account
import Codemod.Proofs.Run.Removals

namespace Codemod

theorem Error.code_eq_refused {err : Error} : err.code = "SRW-2004" ↔ ∃ p reason, err = .deletionRefused p reason := by
  cases err <;> simp [code]

theorem Error.ofOs_ne_refused (path : Path) (cause : OsError) (p : Path) (reason : String) :
    ofOs path cause ≠ .deletionRefused p reason := by
  rw [ofOs]
  split <;> nofun

namespace Deletion

/-- Why the place of an entry is refused. -/
def placeFaults : List String := ["resolves outside the run root", "is a symbolic link", "not a regular file"]

variable {s : Settings} {real full p q : Path} {d : Disk} {ps : List Path} {r : Removal} {reason : String}
  {excluded : List String}

/-- **Faults of the text and of the place** are told apart by their words. -/
theorem textFault?_ne_place (h : textFault? excluded p = some reason) : reason ∉ placeFaults := by
  have hword (name : String) : "inside excluded directory " ++ name ∉ placeFaults := by
    have hstart (fault : String) (hne : fault.toList.take 2 ≠ ['i', 'n']) :
        "inside excluded directory " ++ name ≠ fault := by
      rintro rfl
      exact hne (by rw [String.toList_append]; rfl)
    simp only [placeFaults, List.mem_cons, List.not_mem_nil, or_false, not_or]
    exact ⟨hstart _ (by decide), hstart _ (by decide), hstart _ (by decide)⟩
  rw [textFault?] at h
  split at h
  · next e _ =>
    obtain rfl := Option.some.inj h
    cases e <;> decide
  · obtain ⟨name, -, rfl⟩ := Option.map_eq_some_iff.1 h
    exact hword _

theorem checkPlace_refused (h : checkPlace d real full p = .error (.deletionRefused q reason)) :
    q = p ∧ reason ∈ placeFaults := by
  rw [checkPlace] at h
  cases hparent : full.parent? with
  | none => simp [hparent] at h
  | some parent =>
    simp only [hparent] at h
    cases hreal : d.canonical parent with
    | error e =>
      simp only [hreal] at h
      exact absurd (Except.error.inj h) (Error.ofOs_ne_refused parent e q reason)
    | ok place =>
      simp only [hreal] at h
      split at h
      · cases h
      · cases h
        exact ⟨rfl, List.mem_cons_self ..⟩

/-- **An entry whose text is no fault** is refused for its place. -/
theorem removeOne_refused (htext : textFault? s.excluded p = none)
    (h : (removeOne s real d p).1 = .failed (.deletionRefused q reason)) : q = p ∧ reason ∈ placeFaults := by
  have hos (path : Path) (cause : OsError) :
      (if cause == .notFound then Removal.missing else .failed (.ofOs path cause))
        ≠ .failed (.deletionRefused q reason) := by
    split
    · rintro ⟨⟩
    · exact fun h => Error.ofOs_ne_refused _ _ _ _ (Removal.failed.inj h)
  simp only [removeOne, htext] at h
  split at h
  · exact absurd h (hos _ _)
  · split at h
    · next err hplace =>
      cases h
      exact checkPlace_refused hplace
    · split at h
      · cases h
        exact ⟨rfl, by simp [placeFaults]⟩
      · split at h
        · cases h
          exact ⟨rfl, by simp [placeFaults]⟩
        · split at h
          · cases h
          · split at h
            · cases h
            · exact absurd h (hos _ _)

/-- What a report tells of an entry has become of it on the disk that the entries before it left. -/
theorem mem_removeAll (h : (p, r) ∈ (removeAll s real ps d).1) : p ∈ ps ∧ ∃ e, (removeOne s real e p).1 = r := by
  induction ps generalizing d with
  | nil => cases h
  | cons q ps ih =>
    rcases List.mem_cons.1 h with heq | hrest
    · obtain ⟨rfl, rfl⟩ := Prod.mk.inj heq
      exact ⟨List.mem_cons_self .., d, rfl⟩
    · obtain ⟨hmem, e, he⟩ := ih hrest
      exact ⟨List.mem_cons_of_mem _ hmem, e, he⟩

end Deletion

variable {d : Disk} {p q : Path} {rules : RuleSet} {dryRun : Bool} {reason : String}

theorem Disk.readText_ne_refused : d.readText p ≠ .error (.deletionRefused q reason) := by
  rw [readText]
  split
  · exact fun h => Error.ofOs_ne_refused _ _ _ _ (Except.error.inj h)
  · split <;> rintro ⟨⟩

theorem Disk.replaceFile_ne_refused {b : ByteArray} : (d.replaceFile p b).1 ≠ .error (.deletionRefused q reason) := by
  rw [replaceFile]
  split
  · exact fun h => Error.ofOs_ne_refused _ _ _ _ (Except.error.inj h)
  · split
    · rintro ⟨⟩
    · split
      · rintro ⟨⟩
      · dsimp only
        split
        · rintro ⟨⟩
        · exact fun h => Error.ofOs_ne_refused _ _ _ _ (Except.error.inj h)

/-- No file is refused as an entry is. -/
theorem rewriteFile_ne_refused : (rewriteFile d p rules dryRun).1 ≠ .error (.deletionRefused q reason) := by
  rw [rewriteFile]
  split
  · next e hfail =>
    rintro ⟨⟩
    exact Disk.readText_ne_refused hfail
  · dsimp only
    split
    · split
      · rintro ⟨⟩
      · next e _ hfail =>
        rintro ⟨⟩
        exact Disk.replaceFile_ne_refused (congrArg Prod.fst hfail)
    · rintro ⟨⟩

namespace RunRequest

variable {q : RunRequest} {s : Summary} {configHash : String} {duration : Nat}

/-- **Where no entry is at fault by its text**, those that a run refuses it refuses for their places, in words that are
told of no text. -/
theorem refused_places (htext : ∀ p ∈ q.deletions, Deletion.textFault? q.excludedDirs p = none)
    (h : (q.execute configHash duration d).outcome = .ok s) {f : FileError} (hf : f ∈ s.errors)
    (hcode : f.code = "SRW-2004") : ∃ p ∈ q.deletions, ∃ reason ∈ Deletion.placeFaults,
      (∀ excluded r, Deletion.textFault? excluded r ≠ some reason)
        ∧ f = ⟨s.relative p, f.code, (Error.deletionRefused p reason).message⟩ := by
  obtain ⟨-, rs, htrace⟩ := execute_trace h
  rw [htrace.errors] at hf
  rcases List.mem_append.1 hf with hf | hf
  · obtain ⟨⟨p, err⟩, hmem, rfl⟩ := List.mem_map.1 hf
    have hp : p ∈ q.deletions := mem_of_mem_errors hmem
    obtain ⟨r, reason, rfl⟩ := Error.code_eq_refused.1 hcode
    obtain ⟨-, e, hone⟩ := Deletion.mem_removeAll (Deletion.mem_errors.1 hmem)
    obtain ⟨rfl, hreason⟩ := Deletion.removeOne_refused (htext p hp) hone
    exact ⟨r, hp, reason, hreason, fun excluded q hfault => Deletion.textFault?_ne_place hfault hreason, rfl⟩
  · obtain ⟨⟨p, result⟩, hmem, hfailed⟩ := List.mem_filterMap.1 hf
    obtain ⟨front, now, -, -, hresult⟩ := htrace.rewrites.exists_turn hmem
    cases result with
    | ok r => cases hfailed
    | error err =>
      cases hfailed
      obtain ⟨r, reason, rfl⟩ := Error.code_eq_refused.1 hcode
      exact absurd hresult.symm rewriteFile_ne_refused

end RunRequest

end Codemod
