/-
What a search finds. Along the plan of a simple pattern, a walk is never led to a dead end once it has
stepped over a character: the choices are noted with the places from which they lead on. So a search finds
a match if there is one at all, no place before its start has one, and the pattern leads from its start to
its end (`find?_some`, `find?_none`). Which of several ways from one place a match takes is left open.
-/
import Codemod.Proofs.Pattern.Course
import Codemod.Proofs.Pattern.Span

namespace Codemod.Pattern

open Text

/-! ## Parts of a walk -/

theorem Outcome.isSome_orElse {o : Outcome} (f : Marks → Outcome) (h : o.finish.isSome = true) :
    (o.orElse f).finish.isSome = true := by
  cases o with
  | dead marks => cases h
  | moved rest => exact h
  | done t => exact h

theorem within_index (s : Places) (t : Trail) (go : Marks → Outcome) :
    within (some s.index) t go
      = fun marks => if s.contains t.place.left then go marks else .dead marks := by
  funext marks
  rw [within, Option.all_some, Places.contains_index]

/-- A draft serves a way to a set: it starts at the places from which the way leads there, its walk goes
that way, and it comes to an end if what follows does so everywhere in the set. -/
structure Draft.Serves (text : List Char) (d : Draft) (way : Trail → Trail → Prop) (k : Places) : Prop where
  start : ∀ t : Trail, .start text ≤ t.place →
    (d.start.contains t.place.left = true ↔ ∃ u, way t u ∧ k.contains u.place.left = true)
  sound : ∀ t marks out r, (walk d.plan t marks out).finish = some r →
    ∃ u marks', way t u ∧ (out u marks').finish = some r
  complete : ∀ (t : Trail) marks out, .start text ≤ t.place → d.start.contains t.place.left = true →
    (∀ u marks', way t u → k.contains u.place.left = true → (out u marks').finish.isSome = true) →
    (walk d.plan t marks out).finish.isSome = true

namespace Draft

variable {text : List Char} {d e : Draft} {way way' : Trail → Trail → Prop} {k : Places}

theorem Serves.congr (h : d.Serves text way k) (hway : ∀ t u, way t u ↔ way' t u) :
    d.Serves text way' k := by
  obtain rfl : way = way' := funext fun t => funext fun u => propext (hway t u)
  exact h

theorem serves_empty (n : Nat) : (⟨.empty, k, n⟩ : Draft).Serves text (fun t u => u = t) k where
  start := by
    intro t _
    simp
  sound := by
    intro t marks out r h
    exact ⟨t, marks, rfl, h⟩
  complete := by
    intro t marks out _ hin hout
    exact hout t marks rfl hin

/-- A part before a draft: the way of the one, then that of the other. -/
theorem Serves.prepend {part : Places → Nat → Draft} (hle : ∀ t u, way t u → t.place ≤ u.place)
    (hpart : ∀ k n, (part k n).Serves text way k) (hd : d.Serves text way' k) :
    (d.prepend part).Serves text (fun t v => ∃ u, way t u ∧ way' u v) k where
  start := by
    intro t ht
    have he := hpart d.start d.next
    rw [Draft.prepend, he.start t ht]
    constructor
    · rintro ⟨u, hu, hin⟩
      obtain ⟨v, hv, hk⟩ := (hd.start u (ht.trans (hle t u hu))).1 hin
      exact ⟨v, ⟨u, hu, hv⟩, hk⟩
    · rintro ⟨v, ⟨u, hu, hv⟩, hk⟩
      exact ⟨u, hu, (hd.start u (ht.trans (hle t u hu))).2 ⟨v, hv, hk⟩⟩
  sound := by
    intro t marks out r h
    simp only [Draft.prepend, walk] at h
    obtain ⟨u, marks', hu, h⟩ := (hpart d.start d.next).sound t marks _ r h
    obtain ⟨v, marks'', hv, h⟩ := hd.sound u marks' out r h
    exact ⟨v, marks'', ⟨u, hu, hv⟩, h⟩
  complete := by
    intro t marks out ht hin hout
    simp only [Draft.prepend, walk] at hin ⊢
    refine (hpart d.start d.next).complete t marks _ ht hin fun u marks' hu hu' => ?_
    refine hd.complete u marks' out (ht.trans (hle t u hu)) hu' fun v marks'' hv hk => ?_
    exact hout v marks'' ⟨u, hu, hv⟩ hk

theorem Serves.copies {part : Places → Nat → Draft} (hle : ∀ t u, way t u → t.place ≤ u.place)
    (hpart : ∀ k n, (part k n).Serves text way k) (hd : d.Serves text way' k) (m : Nat) :
    (copies part m d).Serves text (fun t v => ∃ u, Rounds way m t u ∧ way' u v) k := by
  induction m generalizing d way' with
  | zero =>
    refine hd.congr fun t v => ⟨fun h => ⟨t, rfl, h⟩, ?_⟩
    rintro ⟨u, hu, h⟩
    rwa [show u = t from hu] at h
  | succ m ih =>
    refine (ih (hd.prepend hle hpart)).congr fun t v => ⟨?_, ?_⟩
    · rintro ⟨u, hu, w, hw, hv⟩
      exact ⟨w, hu.concat hw, hv⟩
    · rintro ⟨w, hw, hv⟩
      obtain ⟨u, hu, w', hw', hend⟩ := Rounds.split hw
      obtain rfl : w = w' := hend
      exact ⟨u, hu, w, hw', hv⟩

end Draft

/-! ## Rounds -/

section

variable {text : List Char} {b : Draft} {x : Node} {places k : Places} {greedy : Bool}

/-- Between two rounds of a loop whose choices are not marked. -/
def turns (b : Draft) (k : Places) (greedy : Bool) : (Trail → Marks → Outcome) → Trail → Marks → Outcome :=
  between none b.start.index k.index greedy fun t marks out => walk b.plan t marks out

/-- A further round, if it moves on. -/
def turnOn (b : Draft) (k : Places) (greedy : Bool) (out : Trail → Marks → Outcome) (t : Trail)
    (marks : Marks) : Outcome :=
  if b.start.contains t.place.left then
    walk b.plan t marks fun u marks =>
      if u.place.left < t.place.left then turns b k greedy out u marks else .dead marks
  else .dead marks

def turnOff (k : Places) (out : Trail → Marks → Outcome) (t : Trail) (marks : Marks) : Outcome :=
  if k.contains t.place.left then out t marks else .dead marks

theorem turns_eq (out : Trail → Marks → Outcome) (t : Trail) (marks : Marks) :
    turns b k greedy out t marks
      = if greedy then (turnOn b k greedy out t marks).orElse (turnOff k out t)
        else (turnOff k out t marks).orElse (turnOn b k greedy out t) := by
  rw [turns, between, pass]
  simp only [within_index]
  rfl

variable (hb : b.Serves text x.Leads places)
include hb

theorem turns_sound (out : Trail → Marks → Outcome) {r : Trail} : ∀ (t : Trail) (marks : Marks),
    (turns b k greedy out t marks).finish = some r →
      ∃ n u marks', Rounds x.Leads n t u ∧ (out u marks').finish = some r := by
  intro t
  induction hn : t.place.left using Nat.strongRecOn generalizing t with
  | ind n ih =>
  have on (marks : Marks) (h : (turnOn b k greedy out t marks).finish = some r) :
      ∃ n u marks', Rounds x.Leads n t u ∧ (out u marks').finish = some r := by
    unfold turnOn at h
    split at h
    · obtain ⟨u, marks', hu, h⟩ := hb.sound _ _ _ _ h
      split at h
      · next hlt =>
        obtain ⟨m, v, marks'', hv, h⟩ := ih _ (hn ▸ hlt) u rfl marks' h
        exact ⟨m + 1, v, marks'', ⟨u, hu, hv⟩, h⟩
      · cases h
    · cases h
  have off (marks : Marks) (h : (turnOff k out t marks).finish = some r) :
      ∃ n u marks', Rounds x.Leads n t u ∧ (out u marks').finish = some r := by
    unfold turnOff at h
    split at h
    · exact ⟨0, t, marks, rfl, h⟩
    · cases h
  intro marks h
  rw [turns_eq] at h
  split at h
  · rcases Outcome.finish_orElse h with h | ⟨m, h⟩
    · exact on _ h
    · exact off _ h
  · rcases Outcome.finish_orElse h with h | ⟨m, h⟩
    · exact off _ h
    · exact on _ h

variable (hsolid : x.nullable = false)
  (hplaces : ∀ t : Trail, .start text ≤ t.place → (places.contains t.place.left = true ↔
    ∃ n u, Rounds x.Leads n t u ∧ k.contains u.place.left = true))
include hsolid hplaces

omit hsolid in
/-- Where rounds lead on to the set, either the place is in it or one more round can be made. -/
theorem places_cases {t : Trail} (ht : .start text ≤ t.place) (hin : places.contains t.place.left = true) :
    k.contains t.place.left = true ∨ b.start.contains t.place.left = true := by
  obtain ⟨n, u, hrounds, hk⟩ := (hplaces t ht).1 hin
  cases n with
  | zero =>
    rw [show u = t from hrounds] at hk
    exact .inl hk
  | succ n =>
    obtain ⟨w, hw, hrest⟩ := hrounds
    refine .inr ((hb.start t ht).2 ⟨w, hw, ?_⟩)
    exact (hplaces w (ht.trans hw.le)).2 ⟨n, u, hrest, hk⟩

theorem turns_complete (out : Trail → Marks → Outcome) : ∀ (t : Trail) (marks : Marks),
    .start text ≤ t.place → places.contains t.place.left = true →
    (∀ n u marks', Rounds x.Leads n t u → k.contains u.place.left = true →
      (out u marks').finish.isSome = true) →
    (turns b k greedy out t marks).finish.isSome = true := by
  intro t
  induction hn : t.place.left using Nat.strongRecOn generalizing t with
  | ind n ih =>
  intro marks ht hin hout
  have on (marks : Marks) (hstart : b.start.contains t.place.left = true) :
      (turnOn b k greedy out t marks).finish.isSome = true := by
    rw [turnOn, if_pos hstart]
    refine hb.complete t marks _ ht hstart fun u marks' hu hu' => ?_
    have hlt := hu.left_lt hsolid
    rw [if_pos hlt]
    exact ih _ (hn ▸ hlt) u rfl marks' (ht.trans hu.le) hu'
      fun m v marks'' hv hk => hout (m + 1) v marks'' ⟨u, hu, hv⟩ hk
  have off (marks : Marks) (hk : k.contains t.place.left = true) :
      (turnOff k out t marks).finish.isSome = true := by
    rw [turnOff, if_pos hk]
    exact hout 0 t marks rfl hk
  rw [← hn] at hin
  have hcases := places_cases hb hplaces ht hin
  rw [turns_eq]
  split
  · by_cases hstart : b.start.contains t.place.left = true
    · exact Outcome.isSome_orElse _ (on marks hstart)
    · rw [turnOn, if_neg hstart]
      exact off marks (hcases.resolve_right hstart)
  · by_cases hk : k.contains t.place.left = true
    · exact Outcome.isSome_orElse _ (off marks hk)
    · rw [turnOff, if_neg hk]
      exact on marks (hcases.resolve_left hk)

/-- A loop that may be left at once. -/
theorem serves_loop (greedy : Bool) (n : Nat) :
    (⟨.loop false none none b.start.index k.index greedy b.plan, places, n⟩ : Draft).Serves text
      (fun t u => ∃ m, Rounds x.Leads m t u) k where
  start := by
    intro t ht
    rw [hplaces t ht]
    constructor
    · rintro ⟨m, u, hu, hk⟩
      exact ⟨u, ⟨m, hu⟩, hk⟩
    · rintro ⟨u, ⟨m, hu⟩, hk⟩
      exact ⟨m, u, hu, hk⟩
  sound := by
    intro t marks out r h
    simp only [walk, Bool.false_eq_true, if_false] at h
    obtain ⟨m, u, marks', hu, h⟩ := turns_sound hb out t marks h
    exact ⟨u, marks', ⟨m, hu⟩, h⟩
  complete := by
    intro t marks out ht hin hout
    simp only [walk, Bool.false_eq_true, if_false]
    exact turns_complete hb hsolid hplaces out t marks ht hin
      fun m u marks' hu hk => hout u marks' ⟨m, hu⟩ hk

/-- A loop that takes one round at least. -/
theorem serves_loop_once (greedy : Bool) (n : Nat) :
    (⟨.loop true none none b.start.index k.index greedy b.plan, b.start, n⟩ : Draft).Serves text
      (fun t u => ∃ m, Rounds x.Leads (m + 1) t u) k where
  start := by
    intro t ht
    show b.start.contains t.place.left = true ↔ _
    rw [hb.start t ht]
    constructor
    · rintro ⟨w, hw, hin⟩
      obtain ⟨m, u, hu, hk⟩ := (hplaces w (ht.trans hw.le)).1 hin
      exact ⟨u, ⟨m, w, hw, hu⟩, hk⟩
    · rintro ⟨u, ⟨m, w, hw, hu⟩, hk⟩
      exact ⟨w, hw, (hplaces w (ht.trans hw.le)).2 ⟨m, u, hu, hk⟩⟩
  sound := by
    intro t marks out r h
    simp only [walk, if_true] at h
    obtain ⟨w, marks', hw, h⟩ := hb.sound t marks _ r h
    obtain ⟨m, u, marks'', hu, h⟩ := turns_sound hb out w marks' h
    exact ⟨u, marks'', ⟨m, w, hw, hu⟩, h⟩
  complete := by
    intro t marks out ht hin hout
    simp only [walk, if_true]
    refine hb.complete t marks _ ht hin fun w marks' hw hw' => ?_
    exact turns_complete hb hsolid hplaces out w marks' (ht.trans hw.le) hw'
      fun m u marks'' hu hk => hout u marks'' ⟨m, w, hw, hu⟩ hk

end

/-! ## Plans -/

theorem nullable_lay (h : Sheet) (x : Node) : (h.lay x).nullable = x.nullable := by
  induction x with
  | empty | word | chars | look => rfl
  | group i x ih => exact ih
  | seq x y ihx ihy => simp only [Sheet.lay, Course.nullable, Node.nullable, ihx, ihy]
  | alt x y ihx ihy => simp only [Sheet.lay, Course.nullable, Node.nullable, ihx, ihy]
  | loop x low high greedy ih => simp only [Sheet.lay, Course.nullable, Node.nullable, ih]

section

variable {h : Sheet} {text : List Char} (hof : h.Of text) {x y : Node} {k : Places}
include hof

theorem serves_word (cs : List Char) (size n : Nat) :
    ((h.lay (.word cs)).plan size false k n).Serves text (Node.word cs).Leads k where
  start := by
    intro t ht
    rw [Sheet.lay, Course.plan, contains_word hof cs ht]
    constructor
    · rintro ⟨hpre, hk⟩
      exact ⟨_, ⟨hpre, rfl⟩, hk⟩
    · rintro ⟨u, ⟨hpre, rfl⟩, hk⟩
      exact ⟨hpre, hk⟩
  sound := by
    intro t marks out r hr
    simp only [Sheet.lay, Course.plan, walk] at hr
    split at hr
    · next hpre => exact ⟨_, [], ⟨hpre, rfl⟩, hr⟩
    · cases hr
  complete := by
    intro t marks out ht hin hout
    obtain ⟨hpre, hk⟩ := (contains_word hof cs ht).1 hin
    simp only [Sheet.lay, Course.plan, walk, hpre, if_true]
    exact hout _ [] ⟨hpre, rfl⟩ hk

theorem serves_chars (s : Unicode.CharSet) (size n : Nat) :
    ((h.lay (.chars s)).plan size false k n).Serves text (Node.chars s).Leads k where
  start := by
    intro t ht
    rw [Sheet.lay, Course.plan, contains_before hof ht]
    constructor
    · rintro ⟨a, d, hnext, hs, hk⟩
      exact ⟨_, ⟨a, d, hnext, hs, rfl⟩, hk⟩
    · rintro ⟨u, ⟨a, d, hnext, hs, rfl⟩, hk⟩
      exact ⟨a, d, hnext, hs, hk⟩
  sound := by
    intro t marks out r hr
    simp only [Sheet.lay, Course.plan, walk] at hr
    split at hr
    · next a d hnext =>
      split at hr
      · next hs => exact ⟨_, [], ⟨a, d, hnext, hs, rfl⟩, hr⟩
      · cases hr
    · cases hr
  complete := by
    intro t marks out ht hin hout
    obtain ⟨a, d, hnext, hs, hk⟩ := (contains_before hof ht s).1 hin
    simp only [Sheet.lay, Course.plan, walk, hnext, hs, if_true]
    exact hout _ [] ⟨a, d, hnext, hs, rfl⟩ hk

theorem serves_look (l : Look) (size n : Nat) :
    ((h.lay (.look l)).plan size false k n).Serves text (Node.look l).Leads k where
  start := by
    intro t ht
    rw [Sheet.lay, Course.plan, Places.contains_inter, contains_look hof l ht, Bool.and_eq_true]
    constructor
    · rintro ⟨hk, hl⟩
      exact ⟨t, ⟨hl, rfl⟩, hk⟩
    · rintro ⟨u, ⟨hl, rfl⟩, hk⟩
      exact ⟨hk, hl⟩
  sound := by
    intro t marks out r hr
    simp only [Sheet.lay, Course.plan, walk] at hr
    split at hr
    · next hl => exact ⟨t, marks, ⟨hl, rfl⟩, hr⟩
    · cases hr
  complete := by
    intro t marks out ht hin hout
    rw [Sheet.lay, Course.plan, Places.contains_inter, contains_look hof l ht, Bool.and_eq_true] at hin
    simp only [Sheet.lay, Course.plan, walk, hin.2, if_true]
    exact hout t marks ⟨hin.2, rfl⟩ hin.1

omit hof in
theorem serves_group (i size n : Nat)
    (hx : ∀ k n, ((h.lay x).plan size false k n).Serves text x.Leads k) :
    ((h.lay (.group i x)).plan size false k n).Serves text (Node.group i x).Leads k where
  start := by
    intro t ht
    rw [Sheet.lay, Course.plan, (hx k n).start t ht]
    constructor
    · rintro ⟨v, hv, hk⟩
      exact ⟨_, ⟨v, hv, rfl⟩, hk⟩
    · rintro ⟨u, ⟨v, hv, rfl⟩, hk⟩
      exact ⟨v, hv, hk⟩
  sound := by
    intro t marks out r hr
    simp only [Sheet.lay, Course.plan, walk] at hr
    obtain ⟨v, marks', hv, hr⟩ := (hx k n).sound t marks _ r hr
    exact ⟨_, marks', ⟨v, hv, rfl⟩, hr⟩
  complete := by
    intro t marks out ht hin hout
    simp only [Sheet.lay, Course.plan, walk]
    exact (hx k n).complete t marks _ ht hin fun v marks' hv hk => hout _ marks' ⟨v, hv, rfl⟩ hk

omit hof in
theorem serves_alt (size n : Nat)
    (hx : ∀ k n, ((h.lay x).plan size false k n).Serves text x.Leads k)
    (hy : ∀ k n, ((h.lay y).plan size false k n).Serves text y.Leads k) :
    ((h.lay (.alt x y)).plan size false k n).Serves text (Node.alt x y).Leads k where
  start := by
    intro t ht
    rw [Sheet.lay, Course.plan, Places.contains_union, Bool.or_eq_true, (hx _ _).start t ht,
      (hy _ _).start t ht]
    constructor
    · rintro (⟨u, hu, hk⟩ | ⟨u, hu, hk⟩)
      · exact ⟨u, .inl hu, hk⟩
      · exact ⟨u, .inr hu, hk⟩
    · rintro ⟨u, hu | hu, hk⟩
      · exact .inl ⟨u, hu, hk⟩
      · exact .inr ⟨u, hu, hk⟩
  sound := by
    intro t marks out r hr
    simp only [Sheet.lay, Course.plan, walk] at hr
    obtain ⟨marks, hr⟩ := pass_finish hr
    rcases Outcome.finish_orElse hr with hr | ⟨marks', hr⟩
    · obtain ⟨u, marks'', hu, hr⟩ := (hx _ _).sound t _ out r (within_finish hr)
      exact ⟨u, marks'', .inl hu, hr⟩
    · obtain ⟨u, marks'', hu, hr⟩ := (hy _ _).sound t _ out r (within_finish hr)
      exact ⟨u, marks'', .inr hu, hr⟩
  complete := by
    intro t marks out ht hin hout
    rw [Sheet.lay, Course.plan, Places.contains_union, Bool.or_eq_true] at hin
    simp only [Sheet.lay, Course.plan, walk, pass, Bool.false_eq_true, if_false, within_index]
    split
    · next hstart =>
      exact Outcome.isSome_orElse _ ((hx _ _).complete t marks out ht hstart
        fun u marks' hu hk => hout u marks' (.inl hu) hk)
    · next hstart =>
      exact (hy _ _).complete t marks out ht (hin.resolve_left hstart)
        fun u marks' hu hk => hout u marks' (.inr hu) hk

/-- A loop without upper limit. -/
theorem serves_endless {size : Nat} (hsize : text.length ≤ size) (hflat : x.flat = true)
    (hsolid : x.nullable = false) (low n : Nat) (greedy : Bool)
    (hx : ∀ k n, ((h.lay x).plan size false k n).Serves text x.Leads k) :
    ((h.lay (.loop x low none greedy)).plan size false k n).Serves text
      (Node.loop x low none greedy).Leads k := by
  have hplaces (t : Trail) (ht : .start text ≤ t.place) :=
    contains_rounds hof hflat hsolid hsize (k := k) ht
  simp only [Sheet.lay, Course.plan, nullable_lay, hsolid, Bool.false_eq_true, if_false]
  split
  · next hlow =>
    rw [beq_iff_eq] at hlow
    refine (serves_loop (hx _ _) hsolid hplaces greedy _).congr fun t u => ⟨?_, ?_⟩
    · rintro ⟨m, hu⟩
      exact ⟨m, by omega, by simp, hu⟩
    · rintro ⟨m, -, -, hu⟩
      exact ⟨m, hu⟩
  · next hlow =>
    rw [beq_iff_eq] at hlow
    have hloop := serves_loop_once (hx _ (n + 1)) hsolid hplaces greedy
    refine ((hloop _).copies (fun _ _ => Node.Leads.le) hx (low - 1)).congr fun t v => ⟨?_, ?_⟩
    · rintro ⟨u, hu, m, hv⟩
      exact ⟨low - 1 + (m + 1), by omega, by simp, hu.append hv⟩
    · rintro ⟨m, hm, -, hv⟩
      have hsum : low - 1 + ((m - low) + 1) = m := by omega
      rw [← hsum] at hv
      obtain ⟨u, hu, hv⟩ := Rounds.split hv
      exact ⟨u, hu, m - low, hv⟩

omit hof in
/-- A loop with a fixed number of rounds. -/
theorem serves_repeat (size count n : Nat) (greedy : Bool)
    (hx : ∀ k n, ((h.lay x).plan size false k n).Serves text x.Leads k) :
    ((h.lay (.loop x count (some count) greedy)).plan size false k n).Serves text
      (Node.loop x count (some count) greedy).Leads k := by
  simp only [Sheet.lay, Course.plan, Nat.sub_self, Draft.optionals]
  refine ((Draft.serves_empty n).copies (fun _ _ => Node.Leads.le) hx count).congr fun t v => ⟨?_, ?_⟩
  · rintro ⟨u, hu, hv⟩
    obtain rfl : v = u := hv
    exact ⟨count, Nat.le_refl _, by simp, hu⟩
  · rintro ⟨m, hlow, hhigh, hv⟩
    obtain rfl : m = count := Nat.le_antisymm (hhigh count rfl) hlow
    exact ⟨v, hv, rfl⟩

/-- The plan of a simple pattern serves the way of the pattern. -/
theorem serves_plan (hx : x.simple = true) {size : Nat} (hsize : text.length ≤ size) :
    ∀ k n, ((h.lay x).plan size false k n).Serves text x.Leads k := by
  induction x with
  | empty =>
    intro k n
    exact Draft.serves_empty n
  | word cs =>
    intro k n
    exact serves_word hof cs size n
  | chars s =>
    intro k n
    exact serves_chars hof s size n
  | look l =>
    intro k n
    exact serves_look hof l size n
  | group i x ih =>
    intro k n
    exact serves_group i size n (ih hx)
  | seq x y ihx ihy =>
    intro k n
    simp only [Node.simple, Bool.and_eq_true] at hx
    exact (ihy hx.2 k n).prepend (fun _ _ => Node.Leads.le) (ihx hx.1)
  | alt x y ihx ihy =>
    intro k n
    simp only [Node.simple, Bool.and_eq_true] at hx
    exact serves_alt size n (ihx hx.1) (ihy hx.2)
  | loop x low high greedy ih =>
    intro k n
    cases high with
    | none =>
      simp only [Node.simple, Bool.and_eq_true, Bool.not_eq_true'] at hx
      exact serves_endless hof hsize hx.1 hx.2 low n greedy (ih (Node.simple_of_flat hx.1))
    | some high =>
      simp only [Node.simple, Bool.and_eq_true, beq_iff_eq] at hx
      obtain ⟨hx, rfl⟩ := hx
      exact serves_repeat size low n greedy (ih hx)

end

/-! ## Searches -/

section

variable {x : Node} {text : List Char} {c d : Cursor}

/-- A match of the pattern starts at a place. -/
def Node.MatchesAt (x : Node) (c : Cursor) : Prop := ∃ u, x.Leads ⟨c, []⟩ u

/-- The plan that a pattern is walked along. -/
def Node.draft (x : Node) (text : List Char) : Draft :=
  ((Sheet.ofText text x).lay x).plan (text.length + 2) false (.upTo text.length) 0

theorem scan_eq : x.scan text = ⟨(x.draft text).plan, (x.draft text).start.index⟩ := rfl

variable (hx : x.simple = true)
include hx

theorem serves_draft : (x.draft text).Serves text x.Leads (.upTo text.length) :=
  serves_plan (Sheet.of_ofText text x) hx (Nat.le_add_right _ 2) _ 0

theorem contains_starts (hc : .start text ≤ c) :
    (x.draft text).start.contains c.left = true ↔ x.MatchesAt c := by
  rw [(serves_draft hx).start ⟨c, []⟩ hc]
  constructor
  · rintro ⟨u, hu, -⟩
    exact ⟨u, hu⟩
  · rintro ⟨u, hu⟩
    have hle := (Cursor.on_text (hc.trans hu.le)).1
    exact ⟨u, hu, by rw [Places.contains_upTo]; simpa using hle⟩

theorem matchAt?_of_matchesAt (hc : .start text ≤ c) (hm : x.MatchesAt c) :
    ∃ m, (x.scan text).matchAt? c = some m := by
  have hsome := (serves_draft hx).complete ⟨c, []⟩ [] (fun t _ => .done t) hc ((contains_starts hx hc).2 hm)
    fun _ _ _ _ => rfl
  obtain ⟨t, ht⟩ := Option.isSome_iff_exists.1 hsome
  exact ⟨⟨c, t.place, t.groups⟩, by rw [scan_eq, Scan.matchAt?, ht]; rfl⟩

theorem leads_of_matchAt? {m : Match} (h : (x.scan text).matchAt? c = some m) :
    x.Leads ⟨c, []⟩ ⟨m.stop, m.groups⟩ := by
  rw [scan_eq, Scan.matchAt?, Option.map_eq_some_iff] at h
  obtain ⟨t, ht, rfl⟩ := h
  obtain ⟨u, marks, hu, hdone⟩ := (serves_draft hx).sound _ _ _ _ ht
  obtain rfl : u = t := Option.some.inj hdone
  exact hu

/-- Where the pattern matches, a match begins. -/
theorem begins_of_matchesAt (hc : .start text ≤ c) (hm : x.MatchesAt c) :
    ∃ m, (x.scan text).Begins m ∧ m.start = c := by
  obtain ⟨m, hmatch⟩ := matchAt?_of_matchesAt hx hc hm
  have hstart := (matchAt?_eq_some hmatch).1
  have hin := (contains_starts hx hc).2 hm
  rw [← Places.contains_index] at hin
  have hfound := find?_of_matchAt? (x.scan_even text) hin hmatch
  rw [← hstart] at hfound
  exact ⟨m, hfound, hstart⟩

omit hx in
/-- Where a condition holds, a search for it finds the place itself. -/
theorem find?_look {l : Look} (hc : .start text ≤ c) (h : l.holds c.before c.ahead.head? = true) :
    ((Node.look l).scan text).find? c = some ⟨c, c, []⟩ := by
  have hsimple : (Node.look l).simple = true := rfl
  have hm : (Node.look l).MatchesAt c := ⟨_, h, rfl⟩
  obtain ⟨m, hmatch⟩ := matchAt?_of_matchesAt hsimple hc hm
  have hin := (contains_starts hsimple hc).2 hm
  rw [← Places.contains_index] at hin
  have hstart : m.start = c := (matchAt?_eq_some hmatch).1
  obtain ⟨-, hstop⟩ := leads_of_matchAt? hsimple hmatch
  obtain ⟨start, stop, groups⟩ := m
  simp only [Trail.mk.injEq] at hstart hstop
  rw [find?_of_matchAt? ((Node.look l).scan_even text) hin hmatch, hstart, hstop.1, hstop.2]

/-- **A search finds the leftmost match of a simple pattern**: one that the pattern leads along, with none
that starts before it. -/
theorem find?_some (hc : .start text ≤ c) {m : Match} (h : (x.scan text).find? c = some m) :
    c ≤ m.start ∧ x.Leads ⟨m.start, []⟩ ⟨m.stop, m.groups⟩ ∧
      ∀ d, c ≤ d → d < m.start → ¬ x.MatchesAt d := by
  obtain ⟨hle, hmatch⟩ := find?_eq_some h
  have hnext := (find?_some_iff (x.scan_even text)).1 h
  refine ⟨hle, leads_of_matchAt? hx hmatch, fun d hd hdm hm => ?_⟩
  obtain ⟨m', hbegins, rfl⟩ := begins_of_matchesAt hx (hc.trans hd) hm
  exact (hnext.first m' hbegins hd).not_gt hdm

theorem find?_none (hc : .start text ≤ c) (h : (x.scan text).find? c = none) :
    ∀ d, c ≤ d → ¬ x.MatchesAt d := by
  intro d hd hm
  obtain ⟨m, hbegins, rfl⟩ := begins_of_matchesAt hx (hc.trans hd) hm
  exact (find?_none_iff (x.scan_even text)).1 h m hbegins hd

end

end Codemod.Pattern
