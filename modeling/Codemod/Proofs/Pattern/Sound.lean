/-
What a search finds is a match, for every pattern: whatever a walk along its plan comes to, the pattern
leads there (`leads_of_matchAt`). Loops may stand inside loops here, rounds may be empty, and choices may
be marked; that a search finds a match where there is one is known of simple patterns only.
-/
import Codemod.Proofs.Pattern.Groups
import Codemod.Proofs.Pattern.Span

namespace Codemod.Pattern

open Text

/-- A part of a walk that hands on only the trails that some way leads to. -/
def Follows (way : Trail → Trail → Prop) (part : Trail → Marks → (Trail → Marks → Outcome) → Outcome) : Prop :=
  ∀ t marks out r, (part t marks out).finish = some r →
    ∃ u marks', way t u ∧ (out u marks').finish = some r

section

variable {way way' : Trail → Trail → Prop} {part : Trail → Marks → (Trail → Marks → Outcome) → Outcome}

theorem Follows.mono (h : Follows way part) (hway : ∀ t u, way t u → way' t u) : Follows way' part := by
  intro t marks out r hr
  obtain ⟨u, marks', hu, hr⟩ := h t marks out r hr
  exact ⟨u, marks', hway t u hu, hr⟩

/-- Between two rounds, a loop goes on for some number of further ones. -/
theorem follows_between (h : Follows way part) (turn : Option Nat) (again leave : Places.Index) (greedy : Bool) :
    Follows (fun t u => ∃ n, Rounds way n t u)
      (fun t marks out => between turn again leave greedy part out t marks) := by
  intro t
  induction hn : t.place.left using Nat.strongRecOn generalizing t with
  | ind n ih =>
  intro marks out r hr
  dsimp only at hr
  rw [between] at hr
  obtain ⟨marks', hr⟩ := pass_finish hr
  have on (m : Marks) (hm : (within again t (fun marks => part t marks fun u marks =>
      if u.place.left < t.place.left then between turn again leave greedy part out u marks
      else .dead marks) m).finish = some r) :
      ∃ u marks', (∃ n, Rounds way n t u) ∧ (out u marks').finish = some r := by
    obtain ⟨u, m', hu, hm⟩ := h _ _ _ _ (within_finish hm)
    split at hm
    · next hlt =>
      obtain ⟨v, m'', ⟨k, hv⟩, hm⟩ := ih _ (hn ▸ hlt) u rfl _ _ _ hm
      exact ⟨v, m'', ⟨k + 1, u, hu, hv⟩, hm⟩
    · cases hm
  have off (m : Marks) (hm : (within leave t (out t) m).finish = some r) :
      ∃ u marks', (∃ n, Rounds way n t u) ∧ (out u marks').finish = some r :=
    ⟨t, m, ⟨0, rfl⟩, within_finish hm⟩
  dsimp only at hr
  split at hr
  · rcases Outcome.finish_orElse hr with hr | ⟨m, hr⟩
    · exact on _ hr
    · exact off _ hr
  · rcases Outcome.finish_orElse hr with hr | ⟨m, hr⟩
    · exact off _ hr
    · exact on _ hr

end

/-! ## Parts of a plan -/

section

variable {p q : Plan} {way way' : Trail → Trail → Prop}

theorem follows_seq (hp : Follows way (walk p)) (hq : Follows way' (walk q)) :
    Follows (fun t v => ∃ u, way t u ∧ way' u v) (walk (.seq p q)) := by
  intro t marks out r hr
  simp only [walk] at hr
  obtain ⟨u, marks', hu, hr⟩ := hp t marks _ r hr
  obtain ⟨v, marks'', hv, hr⟩ := hq u marks' out r hr
  exact ⟨v, marks'', ⟨u, hu, hv⟩, hr⟩

theorem follows_alt (hp : Follows way (walk p)) (hq : Follows way' (walk q)) (mark : Option Nat)
    (first : Places.Index) (second : Option Places.Index) :
    Follows (fun t u => way t u ∨ way' t u) (walk (.alt mark first second p q)) := by
  intro t marks out r hr
  simp only [walk] at hr
  obtain ⟨marks', hr⟩ := pass_finish hr
  rcases Outcome.finish_orElse hr with hr | ⟨marks'', hr⟩
  · obtain ⟨u, m, hu, hr⟩ := hp t _ out r (within_finish hr)
    exact ⟨u, m, .inl hu, hr⟩
  · obtain ⟨u, m, hu, hr⟩ := hq t _ out r (within_finish hr)
    exact ⟨u, m, .inr hu, hr⟩

/-- A loop makes some number of rounds, and at least one where the first is not optional. -/
theorem follows_loop (hp : Follows way (walk p)) (once : Bool) (entry turn : Option Nat)
    (again leave : Places.Index) (greedy : Bool) :
    Follows (fun t u => ∃ n, (once = true → 1 ≤ n) ∧ Rounds way n t u)
      (walk (.loop once entry turn again leave greedy p)) := by
  have hround : Follows way fun t marks out => pass entry marks fun marks => walk p t marks out := by
    intro t marks out r hr
    obtain ⟨marks', hr⟩ := pass_finish hr
    exact hp t marks' out r hr
  have hbetween := follows_between hround turn again leave greedy
  intro t marks out r hr
  simp only [walk] at hr
  split at hr
  · obtain ⟨u, marks', hu, hr⟩ := hround t marks _ r hr
    obtain ⟨v, marks'', ⟨n, hv⟩, hr⟩ := hbetween u marks' out r hr
    exact ⟨v, marks'', ⟨n + 1, fun _ => Nat.le_add_left 1 n, u, hu, hv⟩, hr⟩
  · next honce =>
    obtain ⟨u, marks', ⟨n, hu⟩, hr⟩ := hbetween t marks out r hr
    exact ⟨u, marks', ⟨n, fun h => absurd h honce, hu⟩, hr⟩

end

/-! ## Drafts -/

namespace Draft

variable {part : Places → Nat → Draft} {d : Draft} {way way' : Trail → Trail → Prop}

theorem follows_copies (hpart : ∀ k n, Follows way (walk (part k n).plan)) (hd : Follows way' (walk d.plan))
    (m : Nat) :
    Follows (fun t v => ∃ u, Rounds way m t u ∧ way' u v) (walk (copies part m d).plan) := by
  induction m generalizing d way' with
  | zero => exact hd.mono fun t u hu => ⟨t, rfl, hu⟩
  | succ m ih =>
    refine (ih (follows_seq (hpart d.start d.next) hd)).mono fun t v => ?_
    rintro ⟨u, hu, w, hw, hv⟩
    exact ⟨w, hu.concat hw, hv⟩

theorem follows_optional (hd : Follows way (walk d.plan)) (marked greedy : Bool) (k : Places)
    (leave : Places.Index) :
    Follows (fun t u => u = t ∨ way t u) (walk (d.optional marked greedy k leave).plan) := by
  have hempty : Follows (fun t u => u = t) (walk .empty) := fun t marks out r hr => ⟨t, marks, rfl, hr⟩
  unfold Draft.optional
  cases greedy with
  | true => exact (follows_alt hd hempty _ _ _).mono fun _ _ => Or.symm
  | false => exact follows_alt hempty hd _ _ _

/-- Optional copies add as many rounds as there are of them at most. -/
theorem follows_optionals (hpart : ∀ k n, Follows way (walk (part k n).plan)) {most : Nat}
    (hd : Follows (fun t u => ∃ n ≤ most, Rounds way n t u) (walk d.plan)) (marked greedy : Bool) (k : Places)
    (leave : Places.Index) (m : Nat) :
    Follows (fun t u => ∃ n ≤ most + m, Rounds way n t u)
      (walk (optionals part marked greedy k leave m d).plan) := by
  induction m generalizing d most with
  | zero => exact hd
  | succ m ih =>
    have hnext : Follows (fun t u => ∃ n ≤ most + 1, Rounds way n t u)
        (walk ((d.prepend part).optional marked greedy k leave).plan) := by
      refine (follows_optional (follows_seq (hpart d.start d.next) hd) marked greedy k leave).mono fun t v => ?_
      rintro (rfl | ⟨u, hu, n, hn, hv⟩)
      · exact ⟨0, Nat.zero_le _, rfl⟩
      · exact ⟨n + 1, Nat.succ_le_succ hn, u, hu, hv⟩
    refine (ih hnext).mono fun t u => ?_
    rintro ⟨n, hn, hu⟩
    exact ⟨n, by omega, hu⟩

end Draft

/-! ## Whole plans -/

section

variable (h : Sheet) {x : Node}

/-- A loop without upper limit. -/
theorem follows_endless (hx : ∀ marked size k n, Follows x.Leads (walk ((h.lay x).plan size marked k n).plan))
    (low size n : Nat) (greedy marked : Bool) (k : Places) :
    Follows (Node.loop x low none greedy).Leads
      (walk ((h.lay (.loop x low none greedy)).plan size marked k n).plan) := by
  -- with as many copies before it as the first rounds, less one for the round that the loop itself makes
  have hcopies {d : Draft} (hlow : low ≠ 0)
      (hd : Follows (fun t u => ∃ n, (true = true → 1 ≤ n) ∧ Rounds x.Leads n t u) (walk d.plan)) :
      Follows (Node.loop x low none greedy).Leads
        (walk (Draft.copies ((h.lay x).plan size marked) (low - 1) d).plan) := by
    refine (Draft.follows_copies (hx marked size) hd (low - 1)).mono fun t v => ?_
    rintro ⟨u, hu, m, hm, hv⟩
    have hm := hm rfl
    exact ⟨low - 1 + m, by omega, nofun, hu.append hv⟩
  simp only [Sheet.lay, Course.plan]
  split
  · split
    · next hlow =>
      rw [beq_iff_eq] at hlow
      subst hlow
      refine (Draft.follows_optional (follows_loop (hx true size _ _) true _ _ _ _ _) _ _ _ _).mono fun t u => ?_
      rintro (rfl | ⟨m, -, hu⟩)
      · exact ⟨0, Nat.le_refl 0, nofun, rfl⟩
      · exact ⟨m, Nat.zero_le m, nofun, hu⟩
    · next hlow => exact hcopies (by simpa using hlow) (follows_loop (hx true size _ _) true _ _ _ _ _)
  · split
    · next hlow =>
      rw [beq_iff_eq] at hlow
      subst hlow
      refine (follows_loop (hx marked size _ _) false _ _ _ _ _).mono fun t u => ?_
      rintro ⟨m, -, hu⟩
      exact ⟨m, Nat.zero_le m, nofun, hu⟩
    · next hlow => exact hcopies (by simpa using hlow) (follows_loop (hx marked size _ _) true _ _ _ _ _)

/-- A loop with an upper limit. -/
theorem follows_bounded (hx : ∀ marked size k n, Follows x.Leads (walk ((h.lay x).plan size marked k n).plan))
    {low high : Nat} (hle : low ≤ high) (size n : Nat) (greedy marked : Bool) (k : Places) :
    Follows (Node.loop x low (some high) greedy).Leads
      (walk ((h.lay (.loop x low (some high) greedy)).plan size marked k n).plan) := by
  have hnone : Follows (fun t u => ∃ n ≤ 0, Rounds x.Leads n t u) (walk .empty) :=
    fun t marks out r hr => ⟨t, marks, ⟨0, Nat.le_refl 0, rfl⟩, hr⟩
  have hmore := Draft.follows_optionals (d := ⟨.empty, k, n⟩) (hx marked size) hnone marked greedy k k.index
    (high - low)
  simp only [Sheet.lay, Course.plan]
  refine (Draft.follows_copies (hx marked size) hmore low).mono fun t v => ?_
  rintro ⟨u, hu, m, hm, hv⟩
  refine ⟨low + m, Nat.le_add_right low m, fun limit hlimit => ?_, hu.append hv⟩
  obtain rfl := Option.some.inj hlimit
  omega

/-- **A walk along the plan of a pattern goes where the pattern leads.** -/
theorem follows_plan {p : Nat → Prop} (hx : x.Grouped p) (marked : Bool) (size : Nat) (k : Places) (n : Nat) :
    Follows x.Leads (walk ((h.lay x).plan size marked k n).plan) := by
  induction x generalizing marked size k n with
  | empty =>
    intro t marks out r hr
    exact ⟨t, marks, rfl, hr⟩
  | word cs =>
    intro t marks out r hr
    simp only [Sheet.lay, Course.plan, walk] at hr
    split at hr
    · next hpre => exact ⟨_, [], ⟨hpre, rfl⟩, hr⟩
    · cases hr
  | chars s =>
    intro t marks out r hr
    simp only [Sheet.lay, Course.plan, walk] at hr
    split at hr
    · next c d hnext =>
      split at hr
      · next hs => exact ⟨_, [], ⟨c, d, hnext, hs, rfl⟩, hr⟩
      · cases hr
    · cases hr
  | look l =>
    intro t marks out r hr
    simp only [Sheet.lay, Course.plan, walk] at hr
    split at hr
    · next hl => exact ⟨t, marks, ⟨hl, rfl⟩, hr⟩
    · cases hr
  | group i x ih =>
    intro t marks out r hr
    simp only [Sheet.lay, Course.plan, walk] at hr
    obtain ⟨v, marks', hv, hr⟩ := ih hx.2 marked size k n t marks _ r hr
    exact ⟨_, marks', ⟨v, hv, rfl⟩, hr⟩
  | seq x y ihx ihy => exact follows_seq (ihx hx.1 marked size _ _) (ihy hx.2 marked size _ _)
  | alt x y ihx ihy => exact follows_alt (ihx hx.1 marked size _ _) (ihy hx.2 marked size _ _) _ _ _
  | loop x low high greedy ih =>
    cases high with
    | none => exact follows_endless h (ih hx.1) low size n greedy marked k
    | some high => exact follows_bounded h (ih hx.1) (hx.2 high rfl) size n greedy marked k

end

/-! ## Searches -/

section

variable {x : Node} {text : List Char} {s : Scan} {c : Cursor} {m : Match}

theorem leads_of_matchAt {p : Nat → Prop} (hx : x.Grouped p) (h : (x.scan text).matchAt? c = some m) :
    x.Leads ⟨c, []⟩ ⟨m.stop, m.groups⟩ := by
  rw [Scan.matchAt?, Option.map_eq_some_iff] at h
  obtain ⟨t, ht, rfl⟩ := h
  obtain ⟨u, marks, hu, hdone⟩ := follows_plan _ hx false _ _ _ _ _ _ _ ht
  obtain rfl : u = t := Option.some.inj hdone
  exact hu

theorem matchAt?_of_search? {barred : Bool} (h : s.search? c barred = some m) : s.matchAt? m.start = some m := by
  have hfound : ∃ d, s.find? d = some m := by
    unfold Scan.search? at h
    split at h
    · next m' hm =>
      split at h
      · obtain ⟨⟨a, d⟩, -, h⟩ := Option.bind_eq_some_iff.1 h
        exact ⟨d, h⟩
      · exact ⟨c, Option.some.inj h ▸ hm⟩
    · cases h
  obtain ⟨d, hd⟩ := hfound
  exact (find?_eq_some hd).2

theorem matchAt?_of_mem_searchAll {barred : Bool} (h : m ∈ s.searchAll c barred) :
    s.matchAt? m.start = some m := by
  fun_induction Scan.searchAll s c barred with
  | case1 c barred hm => cases h
  | case2 c barred m' hm hlt ih =>
    rcases List.mem_cons.1 h with rfl | h
    · exact matchAt?_of_search? hm
    · exact ih h
  | case3 c m' hlt hm =>
    obtain rfl := List.mem_singleton.1 h
    exact matchAt?_of_search? hm
  | case4 c barred m' hm hlt _ ih =>
    rcases List.mem_cons.1 h with rfl | h
    · exact matchAt?_of_search? hm
    · exact ih h

/-- **Every match that is found is one of the pattern.** -/
theorem leads_of_mem_findAll {p : Nat → Prop} (hx : x.Grouped p) (h : m ∈ (x.scan text).findAll c) :
    x.Leads ⟨m.start, []⟩ ⟨m.stop, m.groups⟩ :=
  leads_of_matchAt hx (matchAt?_of_mem_searchAll h)

end

end Codemod.Pattern
