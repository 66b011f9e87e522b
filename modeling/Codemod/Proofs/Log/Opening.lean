/-
What a log adds to a disk when it is opened. Directories are made where they are missing, and then a file; what was
there before is as it was (`extends_start`), so that a path that led somewhere leads there still, and is resolved to
the same path (`Extends.absolute`).
-/
import Codemod.Proofs.Log.Outages

namespace Codemod

namespace Disk

open Node Codemod.Path

/-- A disk with all that is on another. What it has besides are directories, and what is at some places. -/
structure Extends (made : Location → Prop) (d e : Disk) : Prop where
  workDir : e.workDir = d.workDir
  added : ∀ l, e.root.at? l ≠ d.root.at? l → d.root.at? l = none ∧ (made l ∨ e.root.at? l = some (.dir dirMode))
  wellNamed : d.WellNamed → e.WellNamed

variable {d e : Disk} {p : Path} {loc place parent : Location} {x : String} {n : Node} {made more : Location → Prop}
  {c : ByteArray} {k : Nat}

/-- A name that is free at the end of a way can be given to an entry. -/
theorem Walks.isName_of_free {root : Node} {follow : Bool} {links : Nat} {here : Location} {ps : List String}
    (h : Walks root follow links here ps (.free parent x)) (hps : ∀ y ∈ ps, y ≠ "." → y ≠ ".." → IsName y) :
    IsName x := by
  generalize hs : Spot.free parent x = spot at h
  induction h with
  | stop | link => cases hs
  | free _ hx =>
    cases hs
    exact hps _ List.mem_cons_self hx.ne_here hx.ne_up
  | stay _ _ ih | up _ _ ih | down _ _ _ _ ih => exact ih (List.forall_mem_cons.1 hps).2 hs
  | follow _ _ _ _ ih =>
    exact ih (List.forall_mem_append.2 ⟨fun y => isName_of_mem_pathPieces, (List.forall_mem_cons.1 hps).2⟩) hs

theorem isName_of_free {follow : Bool} (h : d.resolve follow p = .ok (.free parent x)) : IsName x :=
  (resolve_eq_ok.1 h).2.isName_of_free fun _ => isName_of_mem_pathPieces

/-- Something at a place whose names can be spelled is well named, if all else is. -/
theorem WellNamed.of_added (hd : d.WellNamed) (hplace : ∀ s ∈ place, IsName s)
    (hsame : ∀ l, l ≠ place → e.root.at? l = d.root.at? l) : e.WellNamed := by
  intro l n hn
  by_cases hl : l = place
  · rwa [hl]
  · have hat := hsame l hl
    rw [at?, at?, hn] at hat
    obtain ⟨m, hm, -⟩ := Option.map_eq_some_iff.1 hat.symm
    exact hd l m hm

namespace Extends

theorem refl (made : Location → Prop) (d : Disk) : d.Extends made d :=
  ⟨rfl, fun _ hl => absurd rfl hl, id⟩

theorem same (h : Extends made d e) (hthere : d.root.at? loc ≠ none) : e.root.at? loc = d.root.at? loc := by
  by_contra hne
  exact hthere (h.added loc hne).1

theorem trans {f : Disk} (h : Extends made d e) (h' : Extends made e f) : Extends made d f where
  workDir := h'.workDir.trans h.workDir
  added l hl := by
    by_cases he : e.root.at? l = d.root.at? l
    · rw [← he] at hl ⊢
      exact h'.added l hl
    · refine ⟨(h.added l he).1, (h.added l he).2.imp_right fun hdir => ?_⟩
      rw [h'.same (by rw [hdir]; simp), hdir]
  wellNamed hd := h'.wellNamed (h.wellNamed hd)

theorem mono (h : Extends made d e) (hsub : ∀ l, made l → more l) : Extends more d e :=
  ⟨h.workDir, fun l hl => ⟨(h.added l hl).1, (h.added l hl).2.imp_left (hsub l)⟩, h.wellNamed⟩

/-- A file that has not been made was there. -/
theorem file (h : Extends made d e) (hfile : e.root.get? loc = some (.file c k)) (hnot : ¬ made loc) :
    d.root.get? loc = some (.file c k) := by
  rw [← at?_eq_file] at hfile ⊢
  rw [← hfile]
  by_contra hne
  rcases (h.added loc (Ne.symm hne)).2 with hmade | hdir
  · exact hnot hmade
  · rw [hfile] at hdir
    cases hdir

theorem dir {mode : Nat} {es : Entries} (h : Extends made d e) (hdir : d.root.get? loc = some (.dir mode es)) :
    ∃ es', e.root.get? loc = some (.dir mode es') := by
  have hthere : d.root.at? loc ≠ none := by simp [at?, hdir]
  have hat := h.same hthere
  rw [at?, at?, hdir] at hat
  obtain ⟨m, hm, hlabel⟩ := Option.map_eq_some_iff.1 hat
  cases m with
  | dir mode' es' =>
    obtain rfl : mode' = mode := Label.dir.inj hlabel
    exact ⟨es', hm⟩
  | file | link | full => cases hlabel

theorem link {t : String} (h : Extends made d e) (hlink : d.root.get? loc = some (.link t)) :
    e.root.get? loc = some (.link t) := by
  have hthere : d.root.at? loc ≠ none := by simp [at?, hlink]
  have hat := h.same hthere
  rw [at?, at?, hlink] at hat
  obtain ⟨m, hm, hlabel⟩ := Option.map_eq_some_iff.1 hat
  cases m with
  | link t' =>
    obtain rfl : t' = t := Label.link.inj hlabel
    exact hm
  | file | full | dir => cases hlabel

theorem exists_node (h : Extends made d e) (hn : d.root.get? loc = some n) :
    ∃ m, e.root.get? loc = some m ∧ m.isLink = n.isLink := by
  have hthere : d.root.at? loc ≠ none := by simp [at?, hn]
  have hat := h.same hthere
  rw [at?, at?, hn] at hat
  obtain ⟨m, hm, hlabel⟩ := Option.map_eq_some_iff.1 hat
  refine ⟨m, hm, ?_⟩
  cases m <;> cases n <;> simp_all [label, isLink]

/-! ## What leads somewhere -/

/-- A way that leads to something leads there still. -/
theorem walks {links : Nat} {here : Location} {ps : List String} (h : Extends made d e)
    (hway : Walks d.root true links here ps (.node loc n)) : ∃ m, Walks e.root true links here ps (.node loc m) := by
  generalize hs : Spot.node loc n = spot at hway
  induction hway with
  | free => cases hs
  | link _ _ hf => cases hf
  | stop hn =>
    cases hs
    obtain ⟨m, hm, -⟩ := h.exists_node hn
    exact ⟨m, .stop hm⟩
  | stay hdir _ ih =>
    obtain ⟨es', hdir⟩ := h.dir hdir
    exact (ih hs).imp fun m => .stay hdir
  | up hdir _ ih =>
    obtain ⟨es', hdir⟩ := h.dir hdir
    exact (ih hs).imp fun m => .up hdir
  | follow hx hlink hrest _ ih => exact (ih hs).imp fun m => .follow hx (h.link hlink) hrest
  | down hx hn hnot _ ih =>
    obtain ⟨m, hm, hsame⟩ := h.exists_node hn
    exact (ih hs).imp fun _ => .down hx hm (hsame.trans hnot)

/-- **What led somewhere is resolved to the same path.** -/
theorem absolute (h : Extends made d e) (hthere : d.exists? (d.here.join p) = true) :
    e.absolute p = d.absolute p := by
  have hhere : e.here = d.here := congrArg pathOf h.workDir
  cases hfind : d.find true (d.here.join p) with
  | error err =>
    rw [exists?, stat, hfind] at hthere
    cases hthere
  | ok found =>
    obtain ⟨loc, n⟩ := found
    obtain ⟨hr, hway⟩ := resolve_eq_ok.1 (find_eq_ok.1 hfind)
    obtain ⟨m, hway'⟩ := h.walks hway
    rw [← h.workDir] at hway'
    have hfind' : e.find true (d.here.join p) = .ok (loc, m) := find_eq_ok.2 (resolve_eq_ok.2 ⟨hr, hway'⟩)
    rw [Disk.absolute, Disk.absolute, hhere, canonical, canonical, hfind, hfind']

/-! ## What is made -/

theorem of_makeDir (h : d.makeDir p = .ok e) : Extends made d e := by
  obtain ⟨hwork, hmade⟩ := at?_makeDir h
  refine ⟨hwork, fun l hl => ⟨(hmade l hl).2.1, .inr (hmade l hl).2.2⟩, fun hd => ?_⟩
  obtain ⟨parent, x, mode, es, hres, hdir, hnone, rfl⟩ := exists_of_makeDir h
  exact hd.of_added ((isName_of_free hres).concat (hd parent _ hdir)) fun l hl =>
    (at?_put_empty hdir hnone dirMode l).trans (if_neg hl)

theorem of_openFile (h : d.openFile false p = .ok (place, e)) : Extends (· = place) d e := by
  obtain ⟨-, -, hsame, -⟩ := Opened.of_openFile h
  rcases openFile_cases h with ⟨parent, x, hres, rfl⟩ | ⟨n, -, -, rfl⟩
  · obtain rfl : parent ++ [x] = place := by
      rw [openFile, hres] at h
      exact congrArg Prod.fst (Except.ok.inj h)
    obtain ⟨mode, es, hdir, hnone⟩ := (resolve_eq_ok.1 hres).2.entry_of_free
    refine ⟨rfl, fun l hl => ?_, fun hd =>
      hd.of_added ((isName_of_free hres).concat (hd parent _ hdir)) hsame.same⟩
    obtain rfl : l = parent ++ [x] := not_not.1 fun hne => hl (hsame.same l hne)
    exact ⟨at?_eq_none.2 ((get?_concat hdir x).trans hnone), .inl rfl⟩
  · exact refl _ _

end Extends

end Disk

namespace Log

open Disk Relation

variable {config : LogConfig} {d e : Disk} {p : Path} {good : Disk → Location → Prop} {l : Log}

theorem Opens.extends {r : Option (Location × Nat)} (h : Opens good d p r e) :
    d.Extends (fun place => r.map (·.1) = some place) e := by
  have hdirs {k : Disk} (made : Location → Prop)
      (h : ReflTransGen (fun d e => ∃ q, Above q p ∧ d.makeDir q = .ok e) d k) : d.Extends made k := by
    induction h with
    | refl => exact .refl made d
    | tail _ hstep ih =>
      obtain ⟨q, -, hmade⟩ := hstep
      exact ih.trans (.of_makeDir hmade)
  cases h with
  | refused h => exact hdirs _ h
  | @opened place size e h =>
    obtain ⟨k, hmade, hrefused | ⟨place', e', hopen, hopened⟩⟩ := openAppend_cases d p
    · rw [h] at hrefused
      cases hrefused
    · rw [h] at hopened
      cases hopened
      exact (hdirs _ hmade).trans ((Extends.of_openFile hopen).mono fun l hl => congrArg some hl.symm)

/-- **A log that is opened** adds its file to the disk, and the directories above it. -/
theorem extends_start (config : LogConfig) (d : Disk) (hfallback : config.fallback = none) :
    d.Extends (fun place => ∃ f ∈ (start config d).file, f.place = place) (start config d).disk := by
  have hbegins := begins_anything config d
  generalize start config d = l at hbegins ⊢
  cases hbegins with
  | opened h => exact h.extends.mono fun l hl => ⟨_, rfl, Option.some.inj hl⟩
  | refused h hback =>
    cases hback with
    | unset => exact h.extends.mono fun l hl => nomatch hl
    | opened hp => exact absurd (hp.symm.trans hfallback) (by simp)
    | refused hp => exact absurd (hp.symm.trans hfallback) (by simp)

end Log

end Codemod
