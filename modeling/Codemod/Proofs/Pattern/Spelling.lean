/-
The texts that the simple parts of a pattern match, and all matches in a text. `c.Spans cs d` says that
`cs` stands between two places; what a word, a set or a repeated one of them leads along is said with it
(`leads_word_iff`, `leads_chars_iff`, `leads_star_iff`, `leads_words_iff`). The matches that a search for all
of them finds are each the leftmost one behind the one before (`searchAll_leftmost`).
-/
import Codemod.Proofs.Pattern.Search

namespace Codemod

namespace Text

/-- The last character of a text, or the one before it where there is none. -/
def lastOr (before : Option Char) (cs : List Char) : Option Char := cs.foldl (fun _ c => some c) before

@[simp] theorem lastOr_nil (before : Option Char) : lastOr before [] = before := rfl

@[simp] theorem lastOr_cons (before : Option Char) (c : Char) (cs : List Char) :
    lastOr before (c :: cs) = lastOr (some c) cs := rfl

@[simp] theorem lastOr_concat (before : Option Char) (cs : List Char) (c : Char) :
    lastOr before (cs ++ [c]) = some c := by simp [lastOr]

namespace Cursor

/-- The text between two places. -/
structure Spans (cs : List Char) (c d : Cursor) : Prop where
  le : c ≤ d
  upTo : c.upTo d = cs

section

variable {c d e : Cursor} {cs ds rest : List Char}

theorem Spans.ahead (h : Spans cs c d) : c.ahead = cs ++ d.ahead := by
  rw [← h.upTo, upTo_append_ahead h.le]

theorem spans_iff : Spans cs c d ↔ c ≤ d ∧ c.ahead = cs ++ d.ahead := by
  refine ⟨fun h => ⟨h.le, h.ahead⟩, fun h => ⟨h.1, ?_⟩⟩
  exact List.append_cancel_right ((upTo_append_ahead h.1).trans h.2)

theorem spans_nil (c : Cursor) : Spans [] c c := spans_iff.2 ⟨le_refl c, rfl⟩

theorem Spans.append (h : Spans cs c d) (h' : Spans ds d e) : Spans (cs ++ ds) c e :=
  spans_iff.2 ⟨h.le.trans h'.le, by rw [h.ahead, h'.ahead, List.append_assoc]⟩

/-- What stands ahead leads to a place behind it. -/
theorem exists_spans (h : c.ahead = cs ++ rest) : ∃ d, Spans cs c d ∧ d.ahead = rest := by
  refine ⟨c.advance cs.length, spans_iff.2 ⟨le_advance _ _, ?_⟩, ?_⟩ <;>
  · rw [ahead_advance, h, List.drop_left]

theorem Spans.left (h : Spans cs c d) : c.left = cs.length + d.left := by
  rw [c.left_eq, h.ahead, List.length_append, ← d.left_eq]

theorem Spans.eq_advance (h : Spans cs c d) : d = c.advance cs.length := by
  have hleft := h.left
  rw [← advance_sub_of_le h.le, hleft, Nat.add_sub_cancel]

theorem Spans.unique (h : Spans cs c d) (h' : Spans cs c e) : d = e := by
  rw [h.eq_advance, h'.eq_advance]

theorem spans_advance (h : cs <+: c.ahead) : Spans cs c (c.advance cs.length) := by
  obtain ⟨rest, hrest⟩ := h
  obtain ⟨d, hd, -⟩ := exists_spans hrest.symm
  exact hd.eq_advance ▸ hd

/-- A text that leads on can be gone through in two parts. -/
theorem Spans.split (cs : List Char) (h : Spans (cs ++ ds) c e) : ∃ d, Spans cs c d ∧ Spans ds d e := by
  obtain ⟨d, hd, hahead⟩ := exists_spans (h.ahead.trans (List.append_assoc ..))
  obtain ⟨e', he', -⟩ := exists_spans hahead
  exact ⟨d, hd, h.unique (hd.append he') ▸ he'⟩

/-- The character before a place is the last one of the text that leads there. -/
theorem Spans.before (h : Spans cs c d) : d.before = lastOr c.before cs := by
  induction cs generalizing c with
  | nil => rw [h.unique (spans_nil c)]; rfl
  | cons a cs ih =>
    obtain ⟨e, hnext, hahead⟩ := exists_next? (h.ahead : c.ahead = a :: (cs ++ d.ahead))
    have hone : Spans [a] c e := spans_iff.2 ⟨le_of_next? hnext, ahead_of_next? hnext⟩
    obtain ⟨e', he', hrest⟩ := h.split [a]
    rw [hone.unique he'] at hnext
    rw [ih hrest, before_of_next? hnext]
    rfl

end

end Cursor

end Text

namespace Pattern

open Text Unicode

namespace Node

variable {x : Node} {t u : Trail}

theorem eq_iff_spans_nil : u = t ↔ t.place.Spans [] u.place ∧ u.groups = t.groups := by
  constructor
  · rintro rfl
    exact ⟨Cursor.spans_nil _, rfl⟩
  · rintro ⟨hspans, hgroups⟩
    have hplace : u.place = t.place := hspans.unique (Cursor.spans_nil _)
    cases u
    cases t
    simp only at hplace hgroups
    rw [hplace, hgroups]

theorem leads_word_iff {cs : List Char} :
    (word cs).Leads t u ↔ t.place.Spans cs u.place ∧ u.groups = t.groups := by
  constructor
  · rintro ⟨hpre, rfl⟩
    exact ⟨Cursor.spans_advance (List.isPrefixOf_iff_prefix.1 hpre), rfl⟩
  · rintro ⟨hspans, hgroups⟩
    refine ⟨List.isPrefixOf_iff_prefix.2 ⟨_, hspans.ahead.symm⟩, ?_⟩
    rw [← hspans.eq_advance, ← hgroups]

theorem leads_chars_iff {s : CharSet} :
    (chars s).Leads t u ↔ ∃ c, s.contains c = true ∧ t.place.Spans [c] u.place ∧ u.groups = t.groups := by
  constructor
  · rintro ⟨c, d, hnext, hc, rfl⟩
    exact ⟨c, hc, Cursor.spans_iff.2 ⟨Cursor.le_of_next? hnext, Cursor.ahead_of_next? hnext⟩, rfl⟩
  · rintro ⟨c, hc, hspans, hgroups⟩
    obtain ⟨d, hnext, -⟩ := Cursor.exists_next? hspans.ahead
    refine ⟨c, d, hnext, hc, ?_⟩
    have hd : d = u.place := by rw [hspans.eq_advance, List.length_singleton, Cursor.advance_succ hnext]; rfl
    rw [hd, ← hgroups]

theorem rounds_chars {s : CharSet} {n : Nat} :
    Rounds (chars s).Leads n t u ↔
      ∃ cs, cs.length = n ∧ (∀ c ∈ cs, s.contains c = true) ∧ t.place.Spans cs u.place ∧ u.groups = t.groups := by
  induction n generalizing t with
  | zero =>
    constructor
    · rintro rfl
      exact ⟨[], rfl, nofun, Cursor.spans_nil _, rfl⟩
    · rintro ⟨cs, hlen, -, hspans, hgroups⟩
      obtain rfl := List.eq_nil_of_length_eq_zero hlen
      exact eq_iff_spans_nil.2 ⟨hspans, hgroups⟩
  | succ n ih =>
    constructor
    · rintro ⟨v, hv, hrest⟩
      obtain ⟨c, hc, hone, hg⟩ := leads_chars_iff.1 hv
      obtain ⟨cs, hlen, hcs, hspans, hgroups⟩ := ih.1 hrest
      refine ⟨c :: cs, by rw [List.length_cons, hlen], List.forall_mem_cons.2 ⟨hc, hcs⟩,
        hone.append hspans, hgroups.trans hg⟩
    · rintro ⟨cs, hlen, hcs, hspans, hgroups⟩
      cases cs with
      | nil => cases hlen
      | cons c cs =>
        obtain ⟨hc, hcs⟩ := List.forall_mem_cons.1 hcs
        obtain ⟨d, hone, hrest⟩ : ∃ d, t.place.Spans [c] d ∧ d.Spans cs u.place := hspans.split [c]
        refine ⟨⟨d, t.groups⟩, leads_chars_iff.2 ⟨c, hc, hone, rfl⟩, ih.2 ⟨cs, ?_, hcs, hrest, hgroups⟩⟩
        simpa using hlen

/-- What a repeated set leads along. -/
theorem leads_star_iff {s : CharSet} {greedy : Bool} :
    (loop (chars s) 0 none greedy).Leads t u ↔
      ∃ cs, (∀ c ∈ cs, s.contains c = true) ∧ t.place.Spans cs u.place ∧ u.groups = t.groups := by
  constructor
  · rintro ⟨n, -, -, h⟩
    obtain ⟨cs, -, hcs, hspans, hgroups⟩ := rounds_chars.1 h
    exact ⟨cs, hcs, hspans, hgroups⟩
  · rintro ⟨cs, hcs, hspans, hgroups⟩
    exact ⟨cs.length, Nat.zero_le _, nofun, rounds_chars.2 ⟨cs, rfl, hcs, hspans, hgroups⟩⟩

theorem rounds_word {cs : List Char} {n : Nat} :
    Rounds (word cs).Leads n t u ↔ t.place.Spans (List.replicate n cs).flatten u.place ∧ u.groups = t.groups := by
  induction n generalizing t with
  | zero => exact eq_iff_spans_nil
  | succ n ih =>
    rw [List.replicate_succ, List.flatten_cons]
    constructor
    · rintro ⟨v, hv, hrest⟩
      obtain ⟨hone, hg⟩ := leads_word_iff.1 hv
      obtain ⟨hspans, hgroups⟩ := ih.1 hrest
      exact ⟨hone.append hspans, hgroups.trans hg⟩
    · rintro ⟨hspans, hgroups⟩
      obtain ⟨d, hone, hrest⟩ := hspans.split cs
      exact ⟨⟨d, t.groups⟩, leads_word_iff.2 ⟨hone, rfl⟩, ih.2 ⟨hrest, hgroups⟩⟩

/-- What a repeated word leads along. -/
theorem leads_words_iff {cs : List Char} {low : Nat} {high : Option Nat} {greedy : Bool} :
    (loop (word cs) low high greedy).Leads t u ↔
      ∃ n, low ≤ n ∧ (∀ h, high = some h → n ≤ h) ∧ t.place.Spans (List.replicate n cs).flatten u.place ∧
        u.groups = t.groups := by
  constructor
  · rintro ⟨n, hlow, hhigh, h⟩
    exact ⟨n, hlow, hhigh, rounds_word.1 h⟩
  · rintro ⟨n, hlow, hhigh, h⟩
    exact ⟨n, hlow, hhigh, rounds_word.2 h⟩

/-- A word, so many times. -/
theorem leads_times_iff {cs : List Char} (hne : cs ≠ []) {n : Nat} (hn : n ≠ 0) :
    ((word cs).times n (some n) true).Leads t u ↔
      t.place.Spans (List.replicate n cs).flatten u.place ∧ u.groups = t.groups := by
  have hwidth : (word cs).zeroWidth = false := by simpa [zeroWidth] using hne
  unfold times
  simp only [hwidth, Bool.false_eq_true, if_false, beq_iff_eq, Option.some.injEq, hn, Bool.and_eq_true]
  split
  · next hone =>
    obtain ⟨rfl, -⟩ := hone
    rw [leads_word_iff]
    simp
  · rw [leads_words_iff]
    constructor
    · rintro ⟨m, hlow, hhigh, h⟩
      obtain rfl : m = n := Nat.le_antisymm (hhigh n rfl) hlow
      exact h
    · intro h
      exact ⟨n, Nat.le_refl n, fun m hm => Nat.le_of_eq (Option.some.inj hm), h⟩

theorem leads_group_iff {i : Nat} :
    (group i x).Leads t u ↔
      ∃ v, x.Leads t v ∧ u.place = v.place ∧ u.groups = (i, t.place, v.place) :: v.groups := by
  constructor
  · rintro ⟨v, hv, rfl⟩
    exact ⟨v, hv, rfl, rfl⟩
  · rintro ⟨v, hv, hplace, hgroups⟩
    obtain ⟨place, groups⟩ := u
    obtain rfl : place = v.place := hplace
    obtain rfl : groups = _ := hgroups
    exact ⟨v, hv, rfl⟩

end Node

/-- A word starts at the start of a text. -/
theorem startsWord {unicode : Bool} {c : Char} (h : isWord unicode c = true) :
    (Look.wordBoundary unicode).holds none (some c) = true := by
  show ((none : Option Char).any (isWord unicode) != (some c).any (isWord unicode)) = true
  rw [Option.any_none, Option.any_some, h]
  rfl

theorem isWord_ascii {c : Char}
    (h : CharSet.Covers [(0x30, 0x39), (0x41, 0x5A), (0x5F, 0x5F), (0x61, 0x7A)] c.toNat) : isWord false c = true :=
  (CharSet.memRanges_ofRanges _ _).2 h

/-! ## All matches -/

/-- Matches from a place on, each the leftmost behind the one before, and none behind the last. -/
inductive Leftmost (x : Node) : Cursor → List Match → Prop
  | nil {c : Cursor} : (∀ d, c ≤ d → ¬ x.MatchesAt d) → Leftmost x c []
  | cons {c : Cursor} {m : Match} {ms : List Match} :
      c ≤ m.start → (∀ d, c ≤ d → d < m.start → ¬ x.MatchesAt d) →
      x.Leads ⟨m.start, []⟩ ⟨m.stop, m.groups⟩ → Leftmost x m.stop ms → Leftmost x c (m :: ms)

theorem Leftmost.isEmpty_eq_false {x : Node} (hne : x.nullable = false) {c : Cursor} {ms : List Match}
    (h : Leftmost x c ms) : ∀ m ∈ ms, m.isEmpty = false := by
  induction h with
  | nil => nofun
  | @cons c m ms _ _ hleads _ ih =>
    refine List.forall_mem_cons.2 ⟨?_, ih⟩
    have hlt : m.stop.left < m.start.left := hleads.left_lt hne
    rw [Match.isEmpty, beq_eq_false_iff_ne]
    omega

/-- A pattern that moves on finds all its matches, whether an empty one would count or not. -/
theorem searchAll_leftmost {x : Node} {text : List Char} (hx : x.simple = true) (hne : x.nullable = false)
    {c : Cursor} (hc : .start text ≤ c) (barred : Bool) :
    Leftmost x c ((x.scan text).searchAll c barred) := by
  have hmoves {m : Match} (hm : x.Leads ⟨m.start, []⟩ ⟨m.stop, m.groups⟩) : m.stop.left < m.start.left :=
    hm.left_lt hne
  have hfind {c : Cursor} {barred : Bool} (hc : .start text ≤ c) :
      (x.scan text).search? c barred = (x.scan text).find? c := by
    unfold Scan.search?
    cases h : (x.scan text).find? c with
    | none => rfl
    | some m =>
      have hlt := hmoves (find?_some hx hc h).2.1
      have hempty : m.isEmpty = false := by
        rw [Match.isEmpty, beq_eq_false_iff_ne]
        omega
      simp [hempty]
  generalize hs : x.scan text = s at hfind
  fun_induction Scan.searchAll s c barred with
  | case1 c barred hm =>
    subst hs
    exact .nil (find?_none hx hc ((hfind hc).symm.trans hm))
  | case2 c barred m hm hlt ih =>
    subst hs
    obtain ⟨hle, hleads, hnone⟩ := find?_some hx hc ((hfind hc).symm.trans hm)
    exact .cons hle hnone hleads (ih (hc.trans (hle.trans hleads.le)))
  | case3 c m hlt hm =>
    subst hs
    obtain ⟨hle, hleads, -⟩ := find?_some hx hc ((hfind hc).symm.trans hm)
    have h1 := hmoves hleads
    have h2 := Cursor.left_le_of_le hle
    omega
  | case4 c barred m hm hlt _ ih =>
    subst hs
    obtain ⟨hle, hleads, -⟩ := find?_some hx hc ((hfind hc).symm.trans hm)
    have h1 := hmoves hleads
    have h2 := Cursor.left_le_of_le hle
    omega

end Pattern

end Codemod
