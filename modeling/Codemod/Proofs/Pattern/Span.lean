/-
Where matches lie. A walk along a plan only goes forward, so a match that a search finds starts at or
behind the place where the search starts, ends at or behind its own start, and lies on the same text
(`find?_le`). It is the leftmost one from there on: up to its start, the search may start anywhere
(`find?_eq_of_le`), and one that finds nothing has no match behind it (`find?_some_iff`, `find?_none_iff`).
-/
import Codemod.Pattern.Basic
import Codemod.Proofs.Text.Cursor
import Codemod.Proofs.Text.Places

namespace Codemod.Pattern

open Text

/-! ## Walks go forward -/

theorem Outcome.finish_orElse {o : Outcome} {f : Marks → Outcome} {r : Trail}
    (h : (o.orElse f).finish = some r) : o.finish = some r ∨ ∃ marks, (f marks).finish = some r := by
  cases o with
  | dead marks => exact .inr ⟨marks, h⟩
  | moved rest => exact .inl h
  | done t => exact .inl h

theorem pass_finish {mark : Option Nat} {marks : Marks} {go : Marks → Outcome} {r : Trail}
    (h : (pass mark marks go).finish = some r) : ∃ marks', (go marks').finish = some r := by
  unfold pass at h
  split at h
  · exact ⟨marks, h⟩
  · split at h
    · simp [Outcome.finish] at h
    · exact ⟨_, h⟩

theorem within_finish {live : Option Places.Index} {t : Trail} {go : Marks → Outcome}
    {marks : Marks} {r : Trail} (h : (within live t go marks).finish = some r) :
    (go marks).finish = some r := by
  unfold within at h
  split at h
  · exact h
  · simp [Outcome.finish] at h

/-- A part of a walk hands every trail that reaches the end on to what follows it, at a place that
is not before its own. -/
def GoesForward (part : Trail → Marks → (Trail → Marks → Outcome) → Outcome) : Prop :=
  ∀ t marks out r, (part t marks out).finish = some r →
    ∃ u marks', t.place ≤ u.place ∧ (out u marks').finish = some r

theorem between_forward {turn : Option Nat} {again leave : Places.Index} {greedy : Bool}
    {round : Trail → Marks → (Trail → Marks → Outcome) → Outcome} (hround : GoesForward round) :
    GoesForward fun t marks out => between turn again leave greedy round out t marks := by
  intro t
  induction hn : t.place.left using Nat.strongRecOn generalizing t with
  | ind n ih =>
  intro marks out r h
  dsimp only at h
  rw [between] at h
  obtain ⟨marks', h⟩ := pass_finish h
  -- the two ways on, in whichever order they are tried
  have on : ∀ m, (within again t (fun marks => round t marks fun u marks =>
      if u.place.left < t.place.left then between turn again leave greedy round out u marks
      else .dead marks) m).finish = some r →
      ∃ u marks', t.place ≤ u.place ∧ (out u marks').finish = some r := by
    intro m hm
    obtain ⟨u, m', hu, hm⟩ := hround _ _ _ _ (within_finish hm)
    split at hm
    · rename_i hlt
      obtain ⟨v, m'', hv, hm⟩ := ih _ (hn ▸ hlt) u rfl _ _ _ hm
      exact ⟨v, m'', hu.trans hv, hm⟩
    · simp [Outcome.finish] at hm
  have off : ∀ m, (within leave t (out t) m).finish = some r →
      ∃ u marks', t.place ≤ u.place ∧ (out u marks').finish = some r :=
    fun m hm => ⟨t, m, le_refl _, within_finish hm⟩
  dsimp only at h
  split at h
  · rcases Outcome.finish_orElse h with h | ⟨m, h⟩
    · exact on _ h
    · exact off _ h
  · rcases Outcome.finish_orElse h with h | ⟨m, h⟩
    · exact off _ h
    · exact on _ h

theorem walk_forward (x : Plan) : GoesForward (walk x) := by
  induction x with
  | empty => exact fun t marks out r h => ⟨t, marks, le_refl _, h⟩
  | word cs =>
    intro t marks out r h
    simp only [walk] at h
    split at h
    · exact ⟨_, _, Cursor.le_advance _ _, h⟩
    · simp [Outcome.finish] at h
  | chars s =>
    intro t marks out r h
    simp only [walk] at h
    split at h
    · rename_i hnext
      split at h
      · exact ⟨_, _, Cursor.le_of_next? hnext, h⟩
      · simp [Outcome.finish] at h
    · simp [Outcome.finish] at h
  | look l =>
    intro t marks out r h
    simp only [walk] at h
    split at h
    · exact ⟨t, marks, le_refl _, h⟩
    · simp [Outcome.finish] at h
  | group i x ih =>
    intro t marks out r h
    simp only [walk] at h
    obtain ⟨u, m, hu, h⟩ := ih _ _ _ _ h
    exact ⟨{ u with groups := (i, t.place, u.place) :: u.groups }, m, hu, h⟩
  | seq x y ihx ihy =>
    intro t marks out r h
    simp only [walk] at h
    obtain ⟨u, m, hu, h⟩ := ihx _ _ _ _ h
    obtain ⟨v, m', hv, h⟩ := ihy _ _ _ _ h
    exact ⟨v, m', hu.trans hv, h⟩
  | alt mark first second x y ihx ihy =>
    intro t marks out r h
    simp only [walk] at h
    obtain ⟨m, h⟩ := pass_finish h
    rcases Outcome.finish_orElse h with h | ⟨m', h⟩
    · exact ihx _ _ _ _ (within_finish h)
    · exact ihy _ _ _ _ (within_finish h)
  | loop once entry turn again leave greedy x ih =>
    intro t marks out r h
    have hround : GoesForward fun t marks out => pass entry marks fun marks => walk x t marks out := by
      intro t marks out r h
      obtain ⟨m, h⟩ := pass_finish h
      exact ih _ _ _ _ h
    simp only [walk] at h
    split at h
    · obtain ⟨u, m, hu, h⟩ := hround _ _ _ _ h
      obtain ⟨v, m', hv, h⟩ := between_forward hround _ _ _ _ h
      exact ⟨v, m', hu.trans hv, h⟩
    · exact between_forward hround _ _ _ _ h

/-! ## Searches -/

theorem matchAt?_eq_some {s : Scan} {c : Cursor} {m : Match} (h : s.matchAt? c = some m) :
    m.start = c ∧ c ≤ m.stop := by
  simp only [Scan.matchAt?, Option.map_eq_some_iff] at h
  obtain ⟨t, ht, rfl⟩ := h
  obtain ⟨u, marks, hu, ht⟩ := walk_forward _ _ _ _ _ ht
  simp only [Outcome.finish, Option.some.injEq] at ht
  subst ht
  exact ⟨rfl, hu⟩

/-- A search looks at the first place that can start a match, and else goes on behind it. -/
theorem find?_eq (s : Scan) (c : Cursor) :
    s.find? c = (s.starts.first? c.left).bind fun left =>
      (s.matchAt? (c.advance (c.left - left))).or
        ((c.advance (c.left - left)).next?.bind fun p => s.find? p.2) := by
  rw [Scan.find?]
  cases s.starts.first? c.left with
  | none => rfl
  | some left =>
    simp only [Option.bind_some]
    cases s.matchAt? (c.advance (c.left - left)) with
    | some m => rfl
    | none =>
      simp only [Option.none_or]
      split
      · next h => rw [h, Option.bind_some]
      · next h => rw [h, Option.bind_none]

theorem find?_eq_some {s : Scan} {c : Cursor} {m : Match} (h : s.find? c = some m) :
    c ≤ m.start ∧ s.matchAt? m.start = some m := by
  fun_induction Scan.find? s c with
  | case1 c hfirst => cases h
  | case2 c left hfirst d m' hm =>
    obtain rfl := Option.some.inj h
    have hstart := (matchAt?_eq_some hm).1
    exact ⟨hstart ▸ Cursor.le_advance _ _, hstart ▸ hm⟩
  | case3 c left hfirst d hm a e hnext ih =>
    obtain ⟨hle, hmatch⟩ := ih h
    exact ⟨(Cursor.le_advance c _).trans ((Cursor.le_of_next? hnext).trans hle), hmatch⟩
  | case4 c left hfirst d hm hnext => cases h

theorem find?_le {s : Scan} {c : Cursor} {m : Match} (h : s.find? c = some m) :
    c ≤ m.start ∧ m.start ≤ m.stop := by
  obtain ⟨hle, hm⟩ := find?_eq_some h
  exact ⟨hle, (matchAt?_eq_some hm).2⟩

/-! ## The leftmost place -/

/-- A match begins at its start: a search from there finds it. -/
def Scan.Begins (s : Scan) (m : Match) : Prop := s.find? m.start = some m

/-- The leftmost of the matches that begin at a place or behind it. -/
structure Scan.Next (s : Scan) (c : Cursor) (m : Match) : Prop where
  begins : s.Begins m
  le : c ≤ m.start
  first : ∀ m', s.Begins m' → c ≤ m'.start → m.start ≤ m'.start

section

variable {s : Scan} (hs : s.starts.Even) {c d : Cursor} {m : Match}
include hs

/-- From a place where a match starts, a search finds that. -/
theorem find?_of_matchAt? (hin : s.starts.contains c.left = true) (hm : s.matchAt? c = some m) :
    s.find? c = some m := by
  rw [find?_eq, Places.first?_self hs hin, Option.bind_some, Nat.sub_self, Cursor.advance_zero, hm, Option.some_or]

/-- A place where no match starts is passed over. -/
theorem find?_next {a : Char} (hnext : c.next? = some (a, d))
    (hnone : s.starts.contains c.left = false ∨ s.matchAt? c = none) : s.find? c = s.find? d := by
  have hleft := Cursor.left_of_next? hnext
  cases hin : s.starts.contains c.left with
  | true =>
    have hm := hnone.resolve_left (by simp [hin])
    rw [find?_eq, Places.first?_self hs hin, Option.bind_some, Nat.sub_self, Cursor.advance_zero, hm,
      Option.none_or, hnext, Option.bind_some]
  | false =>
    have hfirst : s.starts.first? c.left = s.starts.first? d.left := by
      rw [hleft]
      exact Places.first?_succ hs (hleft ▸ hin)
    rw [find?_eq, hfirst, find?_eq s d]
    cases hd : s.starts.first? d.left with
    | none => rfl
    | some left =>
      have hle : left ≤ d.left := Places.first?_le hs hd
      have hsub : c.left - left = d.left - left + 1 := by omega
      rw [Option.bind_some, Option.bind_some, hsub, Cursor.advance_succ hnext]

/-- **Up to the match that it finds, a search may start anywhere.** -/
theorem find?_eq_of_le (hle : c ≤ d) (hd : ∀ m, s.find? c = some m → d ≤ m.start) :
    s.find? d = s.find? c := by
  obtain ⟨n, rfl⟩ := hle
  induction n generalizing c with
  | zero => rfl
  | succ n ih =>
    cases hnext : c.next? with
    | none => rw [Cursor.advance_of_next?_none hnext]
    | some p =>
      obtain ⟨a, e⟩ := p
      rw [Cursor.advance_succ hnext] at hd ⊢
      have hskip : s.find? c = s.find? e := by
        refine find?_next hs hnext ?_
        by_contra hboth
        simp only [not_or, Bool.not_eq_false, ← Option.isSome_iff_ne_none] at hboth
        obtain ⟨hin, hsome⟩ := hboth
        obtain ⟨m, hm⟩ := Option.isSome_iff_exists.1 hsome
        have hback := hd m (find?_of_matchAt? hs hin hm)
        rw [(matchAt?_eq_some hm).1] at hback
        have h1 := Cursor.left_le_of_le hback
        have h2 := Cursor.left_le_of_le (Cursor.le_advance e n)
        have h3 := Cursor.left_lt_of_next? hnext
        omega
      rw [ih (hskip ▸ hd), hskip]

/-- **A search is repeatable**: from the start of the match it finds, it finds the match again. -/
theorem find?_start (h : s.find? c = some m) : s.find? m.start = some m := by
  rw [find?_eq_of_le hs (find?_le h).1 fun m' hm' => (Option.some.inj (h.symm.trans hm')) ▸ le_refl _, h]

/-- **A search finds the next match.** -/
theorem find?_some_iff : s.find? c = some m ↔ s.Next c m := by
  have next_of {m : Match} (h : s.find? c = some m) : s.Next c m := by
    refine ⟨find?_start hs h, (find?_le h).1, fun m' hm' hle => ?_⟩
    by_contra hnot
    have hlt := (Cursor.le_or_lt_of_le (find?_le h).1 hle).resolve_left hnot
    have hsame := find?_eq_of_le hs hle fun m'' hm'' => Option.some.inj (h.symm.trans hm'') ▸ hlt.le
    obtain rfl : m' = m := Option.some.inj (hm'.symm.trans (hsame.trans h))
    exact hlt.ne rfl
  refine ⟨next_of, fun ⟨hbegins, hle, hfirst⟩ => ?_⟩
  have hsame := find?_eq_of_le hs hle fun m' hm' =>
    hfirst m' (next_of hm').begins (next_of hm').le
  rw [← hsame, hbegins]

/-- A search finds nothing exactly if no match begins from there on. -/
theorem find?_none_iff : s.find? c = none ↔ ∀ m, s.Begins m → ¬ c ≤ m.start := by
  constructor
  · intro hnone m hm hle
    have hsame := find?_eq_of_le hs hle (by simp [hnone])
    rw [hm, hnone] at hsame
    cases hsame
  · intro hall
    rw [Option.eq_none_iff_forall_ne_some]
    intro m hm
    exact hall m (find?_start hs hm) (find?_le hm).1

end

theorem Node.scan_even (x : Node) (text : List Char) : (x.scan text).starts.Even := Places.index_even _

theorem scan_even (p : Pattern) (text : List Char) : (p.scan text).starts.Even := p.node.scan_even text

theorem Match.isEmpty_iff {m : Match} (h : m.start ≤ m.stop) : m.isEmpty = true ↔ m.start = m.stop := by
  simp only [Match.isEmpty, beq_iff_eq]
  exact ⟨Cursor.eq_of_left_eq (le_refl _) h, fun h => by rw [h]⟩

theorem search?_le {s : Scan} {c : Cursor} {barred : Bool} {m : Match}
    (h : s.search? c barred = some m) : c ≤ m.start ∧ m.start ≤ m.stop := by
  unfold Scan.search? at h
  split at h
  · rename_i m' hm
    split at h
    · simp only [Option.bind_eq_some_iff] at h
      obtain ⟨⟨a, d⟩, hd, h⟩ := h
      obtain ⟨h1, h2⟩ := find?_le h
      exact ⟨(Cursor.le_of_next? hd).trans h1, h2⟩
    · simp only [Option.some.injEq] at h
      exact h ▸ find?_le hm
  · simp at h

end Codemod.Pattern
