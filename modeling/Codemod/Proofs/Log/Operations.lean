/-
The operations that a log makes use of. Its names are its two paths, and for each of them so many numbered ones. It
makes directories, opens files, and drops and renames what has one of its names (`Arranges`); bytes are added to the
file that one of its paths leads to (`Works`). Each removal and renaming in making room may be refused, and so may the
opening of a file (`MakesWay`, `Opens`); what the log does itself is one of these courses.
-/
import Codemod.Log.Writer
import Codemod.Proofs.Disk.Frame

namespace Codemod

open Disk Relation

namespace LogConfig

/-- The paths of a log. -/
def bases (c : LogConfig) : List Path := c.path :: c.fallback.toList

/-- The names of a log: its paths, and for each of them those of the older files that are kept. -/
def names (c : LogConfig) : List Path :=
  c.bases.flatMap fun p => p :: (List.range' 1 c.maxRotated).map (Log.rotatedName p)

variable {c : LogConfig} {p : Path} {k : Nat}

theorem names_of_base (hp : p ∈ c.bases) : p ∈ c.names :=
  List.mem_flatMap.2 ⟨p, hp, List.mem_cons_self ..⟩

theorem names_of_numbered (hp : p ∈ c.bases) (hpos : 0 < k) (hk : k ≤ c.maxRotated) :
    Log.rotatedName p k ∈ c.names := by
  refine List.mem_flatMap.2 ⟨p, hp, List.mem_cons_of_mem _ (List.mem_map_of_mem ?_)⟩
  rw [List.mem_range'_1]
  omega

end LogConfig

namespace Log

/-- An operation that adds nothing to a file. -/
inductive Arranges (config : LogConfig) (d e : Disk) : Prop
  | makeDir {p q : Path} (hp : p ∈ config.bases) (hq : Above q p) (h : d.makeDir q = .ok e)
  | openFile {p : Path} {place : Location} (hp : p ∈ config.bases) (h : d.openFile false p = .ok (place, e))
  | moveAside {p : Path} (hp : p ∈ config.bases) (hcount : 0 < config.maxRotated)
      (h : d.rename p (rotatedName p 1) = .ok e)
  | moveUp {p : Path} {k : Nat} (hp : p ∈ config.bases) (hpos : 0 < k) (hk : k < config.maxRotated)
      (h : d.rename (rotatedName p k) (rotatedName p (k + 1)) = .ok e)
  | dropOldest {p : Path} (hp : p ∈ config.bases) (hcount : 0 < config.maxRotated)
      (h : d.remove (rotatedName p config.maxRotated) = .ok e)
  | dropFile {p : Path} (hp : p ∈ config.bases) (hcount : config.maxRotated = 0) (h : d.remove p = .ok e)
  /-- A name that is not the log's own. -/
  | dropZero {p : Path} (hp : p ∈ config.bases) (hcount : config.maxRotated = 0)
      (h : d.remove (rotatedName p 0) = .ok e)

/-- Any operation of a log. -/
inductive Works (config : LogConfig) (d e : Disk) : Prop
  | arrange (h : Arranges config d e)
  | append {p : Path} {place : Location} {b : ByteArray} (hp : p ∈ config.bases) (ho : d.Opened p place)
      (h : d.append place b = .ok e)

variable {config : LogConfig} {d e : Disk} {p base : Path} {place : Location} {n count : Nat} {l : Log}

theorem works_of_arranges (h : ReflTransGen (Arranges config) d e) : ReflTransGen (Works config) d e :=
  ReflTransGen.mono (fun _ _ => .arrange) d e h

theorem mem_bases (h : l.base? = some p) : p ∈ l.config.bases := by
  cases hs : l.sink with
  | primary =>
    simp only [base?, hs] at h
    cases h
    exact List.mem_cons_self ..
  | fallback =>
    simp only [base?, hs] at h
    exact List.mem_cons_of_mem _ (Option.mem_toList.2 h)
  | stderr | discard => simp [base?, hs] at h

/-! ## Operations that may be refused -/

/-- What is tried is done, or the disk is left as it is; an operation may be refused at any time. -/
inductive Tries (d : Disk) (r : Except OsError Disk) : Disk → Prop
  | refused : Tries d r d
  | done {e : Disk} (h : r = .ok e) : Tries d r e

theorem tries_orKeep (d : Disk) (r : Except OsError Disk) : Tries d r (orKeep d r) := by
  cases r with
  | error err => exact .refused
  | ok e => exact .done rfl

theorem Tries.arranges {r : Except OsError Disk} (h : Tries d r e) (hr : ∀ k, r = .ok k → Arranges config d k) :
    ReflTransGen (Arranges config) d e := by
  cases h with
  | refused => exact .refl
  | done h => exact .single (hr e h)

/-- The older files are moved up by one, each or not. -/
def MovesUp (base : Path) : Nat → Disk → Disk → Prop
  | 0, d, e => e = d
  | n + 1, d, e => ∃ k, Tries d (d.rename (rotatedName base (n + 1)) (rotatedName base (n + 2))) k ∧ MovesUp base n k e

/-- Room is made for a new file, as far as nothing is refused. -/
def MakesWay (base : Path) (count : Nat) (d e : Disk) : Prop :=
  ∃ k k', Tries d (d.remove (rotatedName base count)) k ∧ MovesUp base (count - 1) k k'
    ∧ Tries k' (if count > 0 then k'.rename base (rotatedName base 1) else k'.remove base) e

theorem movesUp_shift (base : Path) (n : Nat) (d : Disk) : MovesUp base n d (shift base n d) := by
  induction n generalizing d with
  | zero => rfl
  | succ n ih => exact ⟨_, tries_orKeep d _, ih _⟩

theorem makesWay_makeRoom (base : Path) (count : Nat) (d : Disk) : MakesWay base count d (makeRoom base count d) := by
  refine ⟨_, _, tries_orKeep d _, movesUp_shift base (count - 1) _, ?_⟩
  rw [makeRoom]
  split <;> exact tries_orKeep _ _

theorem MovesUp.arranges (h : MovesUp base n d e) (hp : base ∈ config.bases) (hn : n = 0 ∨ n < config.maxRotated) :
    ReflTransGen (Arranges config) d e := by
  induction n generalizing d with
  | zero =>
    obtain rfl : e = d := h
    exact .refl
  | succ n ih =>
    obtain ⟨k, hmove, hrest⟩ := h
    exact (hmove.arranges fun j h => .moveUp hp (by omega) (by omega) h).trans (ih hrest (by omega))

/-- **Making room** drops and renames names of the log. -/
theorem MakesWay.arranges (h : MakesWay base config.maxRotated d e) (hp : base ∈ config.bases) :
    ReflTransGen (Arranges config) d e := by
  obtain ⟨k, k', hdrop, hup, hmove⟩ := h
  have hshift : ReflTransGen (Arranges config) k k' := hup.arranges hp (by omega)
  by_cases hcount : config.maxRotated > 0
  · rw [if_pos hcount] at hmove
    exact ((hdrop.arranges fun j h => .dropOldest hp hcount h).trans hshift).trans
      (hmove.arranges fun j h => .moveAside hp hcount h)
  · have hzero : config.maxRotated = 0 := by omega
    rw [if_neg hcount] at hmove
    rw [hzero] at hdrop
    exact ((hdrop.arranges fun j h => .dropZero hp hzero h).trans hshift).trans
      (hmove.arranges fun j h => .dropFile hp hzero h)

/-- Opening a file is refused at any time, when some of the directories above it may have been made. Files count as
opened that are good for what is asked here. -/
inductive Opens (good : Disk → Location → Prop) (d : Disk) (p : Path) : Option (Location × Nat) → Disk → Prop
  | refused {e : Disk} (h : ReflTransGen (fun d e => ∃ q, Above q p ∧ d.makeDir q = .ok e) d e) : Opens good d p none e
  | opened {place : Location} {size : Nat} {e : Disk} (h : openAppend d p = (some (place, size), e))
      (hgood : good e place) : Opens good d p (some (place, size)) e

theorem openAppend_cases (d : Disk) (p : Path) : ∃ k, ReflTransGen (fun d e => ∃ q, Above q p ∧ d.makeDir q = .ok e) d k
    ∧ (openAppend d p = (none, k)
      ∨ ∃ place e, k.openFile false p = .ok (place, e) ∧ openAppend d p = (some (place, e.size place), e)) := by
  have hopen {k : Disk} {r : Option (Location × Nat) × Disk}
      (hrefused : ∀ err, k.openFile false p = .error err → r = (none, k))
      (hopened : ∀ place e, k.openFile false p = .ok (place, e) → r = (some (place, e.size place), e)) :
      r = (none, k) ∨ ∃ place e, k.openFile false p = .ok (place, e) ∧ r = (some (place, e.size place), e) := by
    cases h : k.openFile false p with
    | error err => exact .inl (hrefused err h)
    | ok opened => exact .inr ⟨opened.1, opened.2, rfl, hopened opened.1 opened.2 h⟩
  rw [openAppend]
  cases hparent : p.parent? with
  | none => exact ⟨d, .refl, hopen (fun _ h => by simp only [h]) (fun _ _ h => by simp only [h])⟩
  | some q =>
    by_cases hempty : q.text.isEmpty
    · simp only [hempty, if_true]
      exact ⟨d, .refl, hopen (fun _ h => by rw [h]) (fun _ _ h => by rw [h])⟩
    · have hmade : ReflTransGen (fun d e => ∃ q, Above q p ∧ d.makeDir q = .ok e) d (d.makeDirs q).2 :=
        makeDirs_rec (fun r hr k e hk h => hk.tail ⟨r, .head' hparent hr, h⟩) .refl
      rcases hmake : d.makeDirs q with ⟨made, k⟩
      rw [hmake] at hmade
      simp only [hempty, hmake, Bool.false_eq_true, if_false]
      cases made with
      | error err => exact ⟨k, hmade, .inl rfl⟩
      | ok _ => exact ⟨k, hmade, hopen (fun _ h => by rw [h]) (fun _ _ h => by rw [h])⟩

variable {good : Disk → Location → Prop}

theorem opens_of_none (h : openAppend d p = (none, e)) : Opens good d p none e := by
  obtain ⟨k, hmade, hrefused | ⟨place, e', -, hopened⟩⟩ := openAppend_cases d p
  · rw [h] at hrefused
    cases hrefused
    exact .refused hmade
  · rw [h] at hopened
    cases hopened

/-- **Opening a file** makes the directories above it. -/
theorem Opens.arranges {r : Option (Location × Nat)} (h : Opens good d p r e) (hp : p ∈ config.bases) :
    ReflTransGen (Arranges config) d e := by
  have hmade {k : Disk} (h : ReflTransGen (fun d e => ∃ q, Above q p ∧ d.makeDir q = .ok e) d k) :
      ReflTransGen (Arranges config) d k :=
    ReflTransGen.mono (fun _ _ ⟨_, hq, h⟩ => .makeDir hp hq h) d k h
  cases h with
  | refused h => exact hmade h
  | @opened place size e h =>
    obtain ⟨k, hdirs, hrefused | ⟨place', e', hopen, hopened⟩⟩ := openAppend_cases d p
    · rw [h] at hrefused
      cases hrefused
    · rw [h] at hopened
      cases hopened
      exact (hmade hdirs).tail (.openFile hp hopen)

end Log

end Codemod
