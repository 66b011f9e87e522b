/-
What a search for blocks finds. Its rounds are followed one by one (`Goes`): a start without a block is passed
over, and a block ends at the first place where as many delimiters have closed as have opened
(`balancedEnd_spec`). Every round moves on (`Step.lt`), so the search comes to an end, or to a block that is not
closed (`block_findAll`). A delimiter that is a blank never opens a block: the search is past all blanks when it
looks for it (`blank_delimiter`).
-/
import Codemod.Proofs.Pattern.Compile
import Codemod.Proofs.Pattern.Sound
import Codemod.Proofs.Rule.Hits

namespace Codemod

open Text Pattern

/-- A text that starts with an opening delimiter and ends where as many have closed as have opened, for the first
time. -/
structure Balanced (opening closing : Char) (cs : List Char) : Prop where
  opens : cs.head? = some opening
  total : cs.count opening = cs.count closing
  front : ∀ p, p <+: cs → p ≠ [] → p ≠ cs → p.count closing < p.count opening

section

variable {opening closing : Char} {cs ds text : List Char}

/-- Two balanced texts with the same start are the same. -/
theorem Balanced.unique (h : Balanced opening closing cs)
    (h' : Balanced opening closing ds) (hcs : cs <+: text) (hds : ds <+: text) : cs = ds := by
  -- the shorter one would be a balanced front of the longer one
  have shorter {cs ds : List Char} (h : Balanced opening closing cs) (h' : Balanced opening closing ds)
      (hle : cs <+: ds) : cs = ds := by
    by_contra hne
    have hnil : cs ≠ [] := by
      rintro rfl
      cases h.opens
    have hfewer := h'.front cs hle hnil hne
    have htotal := h.total
    omega
  rcases List.prefix_or_prefix_of_prefix hcs hds with hle | hle
  · exact shorter h h' hle
  · exact (shorter h' h hle).symm

theorem Balanced.lt {c d : Cursor} (h : Balanced opening closing cs) (hspans : c.Spans cs d) : c < d := by
  refine Cursor.lt_iff.2 ⟨hspans.le, ?_⟩
  have hleft := hspans.left
  have hpos : 0 < cs.length := List.length_pos_iff.2 fun hnil => by
    have := h.opens
    rw [hnil] at this
    cases this
  omega

end

namespace Matcher

/-! ## Balanced texts -/

/-- With so many delimiters open before it, a text closes all of them at its end, and not before. -/
structure Closes (opening closing : Char) (depth : Nat) (cs : List Char) : Prop where
  total : depth + cs.count opening = cs.count closing
  front : ∀ p, p <+: cs → p ≠ cs → p.count closing < depth + p.count opening

/-- With so many delimiters open before it, no part of a text closes all of them. -/
def StaysOpen (opening closing : Char) (depth : Nat) (cs : List Char) : Prop :=
  ∀ p, p <+: cs → p.count closing < depth + p.count opening

section

variable {opening closing a : Char} {depth : Nat} {cs p : List Char}

theorem prefix_cons_cases (h : p <+: a :: cs) : p = [] ∨ ∃ q, p = a :: q ∧ q <+: cs := by
  cases p with
  | nil => exact .inl rfl
  | cons b q =>
    obtain ⟨rfl, hq⟩ := List.cons_prefix_cons.1 h
    exact .inr ⟨q, rfl, hq⟩

/-- Counting on from a delimiter, or from another character, to a depth that what follows starts from. -/
theorem Closes.cons {depth' : Nat} (hpos : 0 < depth)
    (hstep : ∀ q : List Char, depth' + q.count opening + (a :: q).count closing
      = depth + (a :: q).count opening + q.count closing)
    (h : Closes opening closing depth' cs) : Closes opening closing depth (a :: cs) where
  total := by
    have h1 := h.total
    have h2 := hstep cs
    omega
  front p hp hne := by
    rcases prefix_cons_cases hp with rfl | ⟨q, rfl, hq⟩
    · simpa using hpos
    · have h1 := h.front q hq fun heq => hne (by rw [heq])
      have h2 := hstep q
      omega

theorem StaysOpen.cons {depth' : Nat} (hpos : 0 < depth)
    (hstep : ∀ q : List Char, depth' + q.count opening + (a :: q).count closing
      = depth + (a :: q).count opening + q.count closing)
    (h : StaysOpen opening closing depth' cs) : StaysOpen opening closing depth (a :: cs) := by
  intro p hp
  rcases prefix_cons_cases hp with rfl | ⟨q, rfl, hq⟩
  · simpa using hpos
  · have h1 := h q hq
    have h2 := hstep q
    omega

theorem closes_last (hne : opening ≠ closing) : Closes opening closing 1 [closing] where
  total := by simp [Ne.symm hne]
  front p hp hp' := by
    rcases prefix_cons_cases hp with rfl | ⟨q, rfl, hq⟩
    · simp
    · exact absurd (by rw [List.prefix_nil.1 hq]) hp'

/-- A block that opens and is closed behind its first delimiter. -/
theorem Closes.balanced (hne : opening ≠ closing) (h : Closes opening closing 1 cs) :
    Balanced opening closing (opening :: cs) where
  opens := rfl
  total := by
    have := h.total
    simp only [List.count_cons, beq_self_eq_true, if_true, beq_iff_eq, if_neg hne]
    omega
  front p hp hnil hp' := by
    rcases prefix_cons_cases hp with rfl | ⟨q, rfl, hq⟩
    · exact absurd rfl hnil
    · have := h.front q hq fun heq => hp' (by rw [heq])
      simp only [List.count_cons, beq_self_eq_true, if_true, beq_iff_eq, if_neg hne]
      omega

theorem StaysOpen.not_balanced (hne : opening ≠ closing) (h : StaysOpen opening closing 1 cs)
    (hp : p <+: opening :: cs) : ¬ Balanced opening closing p := by
  intro hbalanced
  rcases prefix_cons_cases hp with rfl | ⟨q, rfl, hq⟩
  · cases hbalanced.opens
  · have h1 := hbalanced.total
    have h2 := h q hq
    simp only [List.count_cons, beq_self_eq_true, if_true, beq_iff_eq, if_neg hne] at h1
    omega

end

/-- With so many delimiters open at a place, this is where all of them are closed first; or some stay open. -/
def EndsAt (opening closing : Char) (depth : Nat) (c : Cursor) : Option Cursor → Prop
  | some d => ∃ cs, c.Spans cs d ∧ Closes opening closing depth cs
  | none => StaysOpen opening closing depth c.ahead

section

variable {opening closing : Char} {depth : Nat} {c : Cursor}

theorem EndsAt.cons {depth' : Nat} {e : Cursor} {a : Char} {found : Option Cursor} (hpos : 0 < depth)
    (hc : c.next? = some (a, e))
    (hstep : ∀ q : List Char, depth' + q.count opening + (a :: q).count closing
      = depth + (a :: q).count opening + q.count closing)
    (h : EndsAt opening closing depth' e found) : EndsAt opening closing depth c found := by
  have hone : c.Spans [a] e := Cursor.spans_iff.2 ⟨Cursor.le_of_next? hc, Cursor.ahead_of_next? hc⟩
  cases found with
  | some d =>
    obtain ⟨cs, hspans, hcloses⟩ := h
    exact ⟨a :: cs, hone.append hspans, hcloses.cons hpos hstep⟩
  | none =>
    rw [EndsAt, Cursor.ahead_of_next? hc]
    exact StaysOpen.cons hpos hstep h

/-- **The end of a block is the first place where all delimiters are closed**, and there is none only if some stay
open to the end of the text. -/
theorem balancedEnd_spec (hne : opening ≠ closing) (hpos : 0 < depth) (c : Cursor) :
    EndsAt opening closing depth c (balancedEnd opening closing depth c) := by
  fun_induction balancedEnd opening closing depth c with
  | case1 depth c hc =>
    intro p hp
    rw [Cursor.next?_eq_none.1 hc, List.prefix_nil] at hp
    subst hp
    simpa using hpos
  | case2 depth c a e hc ha ih =>
    obtain rfl := beq_iff_eq.1 ha
    refine .cons hpos hc (fun q => ?_) (ih (Nat.succ_pos depth))
    simp only [List.count_cons_self, List.count_cons_of_ne hne]
    omega
  | case3 depth c a e hc ho ha hle hone =>
    obtain rfl := beq_iff_eq.1 ha
    obtain rfl := beq_iff_eq.1 hone
    exact ⟨[a], Cursor.spans_iff.2 ⟨Cursor.le_of_next? hc, Cursor.ahead_of_next? hc⟩, closes_last hne⟩
  | case4 depth c a e hc ho ha hle hone =>
    rw [beq_iff_eq] at hone
    omega
  | case5 depth c a e hc ho ha hle ih =>
    obtain rfl := beq_iff_eq.1 ha
    refine .cons hpos hc (fun q => ?_) (ih (by omega))
    simp only [List.count_cons_self, List.count_cons_of_ne (Ne.symm hne)]
    omega
  | case6 depth c a e hc ho ha ih =>
    rw [beq_iff_eq] at ho ha
    refine .cons hpos hc (fun q => ?_) (ih hpos)
    simp only [List.count_cons_of_ne ho, List.count_cons_of_ne ha]

end

/-- From its first delimiter on, a block ends where the text is balanced, or nowhere. -/
theorem balancedEnd_block {opening closing : Char} {body : Cursor} (hne : opening ≠ closing)
    (hopen : body.ahead.head? = some opening) :
    match balancedEnd opening closing 0 body with
    | some stop => ∃ cs, body.Spans cs stop ∧ Balanced opening closing cs
    | none => ∀ cs, cs <+: body.ahead → ¬ Balanced opening closing cs := by
  obtain ⟨rest, hahead⟩ := List.head?_eq_some_iff.1 hopen
  obtain ⟨e, hnext, -⟩ := Cursor.exists_next? hahead
  have hone : body.Spans [opening] e := Cursor.spans_iff.2 ⟨Cursor.le_of_next? hnext, Cursor.ahead_of_next? hnext⟩
  have hspec := balancedEnd_spec hne Nat.one_pos e
  have hfirst : balancedEnd opening closing 0 body = balancedEnd opening closing 1 e := by
    rw [balancedEnd, hnext]
    simp only [beq_self_eq_true, if_true]
  rw [hfirst]
  cases hend : balancedEnd opening closing 1 e with
  | some stop =>
    rw [hend] at hspec
    obtain ⟨cs, hspans, hcloses⟩ := hspec
    exact ⟨opening :: cs, hone.append hspans, hcloses.balanced hne⟩
  | none =>
    rw [hend] at hspec
    intro cs hcs
    rw [Cursor.ahead_of_next? hnext] at hcs
    exact StaysOpen.not_balanced hne hspec hcs

/-! ## Rounds of a search -/

/-- Behind a start stand blanks only, and then an opening delimiter. -/
structure Opens (opening : Char) (m : Match) (body : Cursor) : Prop where
  blanks : ∃ cs, (∀ a ∈ cs, isBlank a = true) ∧ m.stop.Spans cs body
  delimiter : body.ahead.head? = some opening
  visible : isBlank opening = false

/-- Where a search goes on behind a start without a block: an empty one would be found again at its own end. -/
inductive Resumes (m : Match) : Cursor → Prop
  | behind : m.start ≠ m.stop → Resumes m m.stop
  | next {a : Char} {d : Cursor} : m.start = m.stop → m.stop.next? = some (a, d) → Resumes m d

/-- One round of a search: it passes over a start without a block, or finds one. -/
inductive Step (start : Pattern) (scan : Scan) (opening closing : Char) (c : Cursor) : List Hit → Cursor → Prop
  | pass {m : Match} {d : Cursor} : scan.find? c = some m → (∀ body, ¬ Opens opening m body) → Resumes m d →
      Step start scan opening closing c [] d
  | block {m : Match} {body stop : Cursor} {cs : List Char} : scan.find? c = some m → Opens opening m body →
      body.Spans cs stop → Balanced opening closing cs →
      Step start scan opening closing c [Hit.extending start m stop] stop

/-- Rounds of a search from a place on: what they find, and the place they come to. -/
inductive Goes (start : Pattern) (scan : Scan) (opening closing : Char) : Cursor → List Hit → Cursor → Prop
  | refl {c : Cursor} : Goes start scan opening closing c [] c
  | step {c d e : Cursor} {found hits : List Hit} : Step start scan opening closing c found d →
      Goes start scan opening closing d hits e → Goes start scan opening closing c (found ++ hits) e

/-- There is no start from a place on, or only an empty one at the end of the text. -/
inductive Finished (scan : Scan) (opening : Char) (c : Cursor) : Prop
  | none : scan.find? c = none → Finished scan opening c
  | last {m : Match} : scan.find? c = some m → (∀ body, ¬ Opens opening m body) → m.start = m.stop →
      m.stop.ahead = [] → Finished scan opening c

/-- The next start opens a block, and no text from its delimiter on is balanced. -/
structure Unclosed (scan : Scan) (opening closing : Char) (c body : Cursor) : Prop where
  opens : ∃ m, scan.find? c = some m ∧ Opens opening m body
  unbalanced : ∀ cs, cs <+: body.ahead → ¬ Balanced opening closing cs

section

variable {start : Pattern} {scan : Scan} {opening closing : Char} {whole c d e body : Cursor} {m : Match}
  {found hits : List Hit}

theorem skipWhile_spec (p : Char → Bool) (c : Cursor) :
    ∃ cs, (∀ a ∈ cs, p a = true) ∧ c.Spans cs (c.skipWhile p) ∧
      ∀ a, (c.skipWhile p).ahead.head? = some a → p a = false := by
  fun_induction Cursor.skipWhile p c with
  | case1 c a d hnext hp ih =>
    obtain ⟨cs, hcs, hspans, hstop⟩ := ih
    have hone : c.Spans [a] d := Cursor.spans_iff.2 ⟨Cursor.le_of_next? hnext, Cursor.ahead_of_next? hnext⟩
    exact ⟨a :: cs, List.forall_mem_cons.2 ⟨hp, hcs⟩, hone.append hspans, hstop⟩
  | case2 c a d hnext hp =>
    refine ⟨[], by simp, Cursor.spans_nil c, fun b hb => ?_⟩
    rw [Cursor.ahead_of_next? hnext] at hb
    exact Option.some.inj hb ▸ eq_false_of_ne_true hp
  | case3 c hnext =>
    refine ⟨[], by simp, Cursor.spans_nil c, fun b hb => ?_⟩
    rw [Cursor.next?_eq_none.1 hnext] at hb
    cases hb

/-- A start opens a block exactly if the first character behind it that is no blank is the opening delimiter. -/
theorem opens_iff : Opens opening m body ↔
    body = m.stop.skipWhile isBlank ∧ body.ahead.head? = some opening := by
  obtain ⟨blanks, hblanks, hspans, hstop⟩ := skipWhile_spec isBlank m.stop
  constructor
  · rintro ⟨⟨cs, hcs, hbody⟩, hopen, hvisible⟩
    obtain ⟨rest, hahead⟩ := List.head?_eq_some_iff.1 hopen
    have hspan : m.stop.ahead.takeWhile isBlank = cs := by
      rw [hbody.ahead, hahead, List.takeWhile_append_of_pos hcs]
      simp [hvisible]
    have hspan' : m.stop.ahead.takeWhile isBlank = blanks := by
      rw [hspans.ahead, List.takeWhile_append_of_pos hblanks]
      cases hrest : (m.stop.skipWhile isBlank).ahead with
      | nil => simp
      | cons a as => simp [hstop a (by rw [hrest]; rfl)]
    obtain rfl : cs = blanks := hspan.symm.trans hspan'
    exact ⟨hbody.unique hspans, hopen⟩
  · rintro ⟨rfl, hopen⟩
    exact ⟨⟨blanks, hblanks, hspans⟩, hopen, hstop _ hopen⟩


theorem opens_body (hopen : (m.stop.skipWhile isBlank).ahead.head? = some opening) :
    Opens opening m (m.stop.skipWhile isBlank) :=
  opens_iff.2 ⟨rfl, hopen⟩

theorem not_opens (hopen : (m.stop.skipWhile isBlank).ahead.head? ≠ some opening) (body : Cursor) :
    ¬ Opens opening m body := by
  intro h
  obtain ⟨rfl, hbody⟩ := opens_iff.1 h
  exact hopen hbody

/-- Where the code goes on behind a start without a block. -/
theorem resumes_iff (hle : m.start ≤ m.stop) :
    Resumes m d ↔ (if m.isEmpty then m.stop.next?.map (·.2) else some m.stop) = some d := by
  by_cases hempty : m.start = m.stop
  · rw [if_pos ((Match.isEmpty_iff hle).2 hempty), Option.map_eq_some_iff]
    constructor
    · rintro (hne | ⟨-, hnext⟩)
      · exact absurd hempty hne
      · exact ⟨_, hnext, rfl⟩
    · rintro ⟨⟨a, e⟩, hnext, rfl⟩
      exact .next hempty hnext
  · rw [if_neg (fun h => hempty ((Match.isEmpty_iff hle).1 h)), Option.some.injEq]
    constructor
    · rintro (_ | ⟨heq, -⟩)
      · rfl
      · exact absurd heq hempty
    · rintro rfl
      exact .behind hempty

theorem Resumes.lt (hle : m.start ≤ m.stop) (h : Resumes m d) : m.start < d := by
  rcases h with hne | ⟨heq, hnext⟩
  · exact lt_of_le_of_ne hle hne
  · exact hle.trans_lt (Cursor.lt_iff.2 ⟨Cursor.le_of_next? hnext, Cursor.left_lt_of_next? hnext⟩)

theorem Opens.le (h : Opens opening m body) : m.stop ≤ body := by
  obtain ⟨cs, -, hspans⟩ := h.blanks
  exact hspans.le

/-- **Every round moves on.** -/
theorem Step.lt (h : Step start scan opening closing c found d) : c < d := by
  rcases h with ⟨hm, -, hresumes⟩ | ⟨hm, hopens, hspans, hbalanced⟩
  · obtain ⟨hc, hle⟩ := find?_le hm
    exact hc.trans_lt (hresumes.lt hle)
  · obtain ⟨hc, hle⟩ := find?_le hm
    exact (hc.trans (hle.trans hopens.le)).trans_lt (hbalanced.lt hspans)

/-! ## What the search gives, round by round -/

theorem blocks_of_finished (h : Finished scan opening c) :
    blocks start scan opening closing whole c = .ok [] := by
  rcases h with hnone | ⟨hm, hnot, hempty, hend⟩
  · rw [blocks, hnone]
  · rename_i m
    have hopen : (m.stop.skipWhile isBlank).ahead.head? ≠ some opening := fun h => hnot _ (opens_body h)
    have hle := (find?_le hm).2
    rw [blocks, hm]
    simp only [beq_iff_eq, hopen, if_false, (Match.isEmpty_iff hle).2 hempty, if_true,
      Cursor.next?_eq_none.2 hend, Option.map_none]

theorem blocks_of_unclosed (hne : opening ≠ closing) (h : Unclosed scan opening closing c body) :
    blocks start scan opening closing whole c =
      .error (.unterminatedBlock opening (lineOf whole body) closing) := by
  obtain ⟨m, hm, hopens⟩ := h.opens
  obtain ⟨rfl, hopen⟩ := opens_iff.1 hopens
  have hspec := balancedEnd_block hne hopen
  cases hend : balancedEnd opening closing 0 (m.stop.skipWhile isBlank) with
  | some stop =>
    rw [hend] at hspec
    obtain ⟨cs, hspans, hbalanced⟩ := hspec
    exact absurd hbalanced (h.unbalanced cs ⟨_, hspans.ahead.symm⟩)
  | none =>
    rw [blocks, hm]
    simp only [beq_iff_eq, hopen, if_true, hend]

theorem blocks_of_step (hne : opening ≠ closing) (h : Step start scan opening closing c found d) :
    blocks start scan opening closing whole c =
      (blocks start scan opening closing whole d).map (found ++ ·) := by
  have hlt : d.left < c.left := (Cursor.lt_iff.1 h.lt).2
  rcases h with ⟨hm, hnot, hresumes⟩ | ⟨hm, hopens, hspans, hbalanced⟩
  · rename_i m
    have hopen : (m.stop.skipWhile isBlank).ahead.head? ≠ some opening := fun h => hnot _ (opens_body h)
    rw [blocks, hm]
    simp only [beq_iff_eq, hopen, if_false, (resumes_iff (find?_le hm).2).1 hresumes, if_pos hlt]
    cases blocks start scan opening closing whole d <;> rfl
  · rename_i m body cs
    obtain ⟨rfl, hopen⟩ := opens_iff.1 hopens
    have hspec := balancedEnd_block hne hopen
    cases hend : balancedEnd opening closing 0 (m.stop.skipWhile isBlank) with
    | none =>
      rw [hend] at hspec
      exact absurd hbalanced (hspec cs ⟨_, hspans.ahead.symm⟩)
    | some stop =>
      rw [hend] at hspec
      obtain ⟨ds, hspans', hbalanced'⟩ := hspec
      obtain rfl := hbalanced.unique hbalanced' ⟨_, hspans.ahead.symm⟩ ⟨_, hspans'.ahead.symm⟩
      obtain rfl := hspans.unique hspans'
      rw [blocks, hm]
      simp only [beq_iff_eq, hopen, if_true, hend, if_pos hlt]
      rfl

/-- A search that has not ended makes another round. -/
theorem step_or_ends (start : Pattern) (scan : Scan) (hne : opening ≠ closing) (c : Cursor) :
    (∃ found d, Step start scan opening closing c found d) ∨ Finished scan opening c ∨
      ∃ body, Unclosed scan opening closing c body := by
  cases hm : scan.find? c with
  | none => exact .inr (.inl (.none hm))
  | some m =>
    have hle := (find?_le hm).2
    by_cases hopen : (m.stop.skipWhile isBlank).ahead.head? = some opening
    · have hspec := balancedEnd_block hne hopen
      cases hend : balancedEnd opening closing 0 (m.stop.skipWhile isBlank) with
      | none =>
        rw [hend] at hspec
        exact .inr (.inr ⟨_, ⟨m, hm, opens_body hopen⟩, hspec⟩)
      | some stop =>
        rw [hend] at hspec
        obtain ⟨cs, hspans, hbalanced⟩ := hspec
        exact .inl ⟨_, _, .block hm (opens_body hopen) hspans hbalanced⟩
    · have hnot := not_opens hopen
      by_cases hempty : m.start = m.stop
      · cases hnext : m.stop.next? with
        | none => exact .inr (.inl (.last hm hnot hempty (Cursor.next?_eq_none.1 hnext)))
        | some p => exact .inl ⟨_, _, .pass hm hnot (.next hempty hnext)⟩
      · exact .inl ⟨_, _, .pass hm hnot (.behind hempty)⟩

/-! ## Whole searches -/

theorem blocks_of_goes (hne : opening ≠ closing) (h : Goes start scan opening closing c found d) :
    blocks start scan opening closing whole c =
      (blocks start scan opening closing whole d).map (found ++ ·) := by
  induction h with
  | @refl c => cases blocks start scan opening closing whole c <;> rfl
  | @step c d e found hits hstep _ ih =>
    rw [blocks_of_step hne hstep, ih]
    cases blocks start scan opening closing whole e with
    | error e => rfl
    | ok rest => exact congrArg Except.ok (List.append_assoc ..).symm

/-- From every place, rounds lead to an end or to a block that is not closed. -/
theorem exists_goes (start : Pattern) (scan : Scan) (hne : opening ≠ closing) (c : Cursor) :
    ∃ hits d, Goes start scan opening closing c hits d ∧
      (Finished scan opening d ∨ ∃ body, Unclosed scan opening closing d body) := by
  induction hn : c.left using Nat.strongRecOn generalizing c with
  | ind n ih =>
  rcases step_or_ends start scan hne c with ⟨found, d, hstep⟩ | hend
  · obtain ⟨hits, e, hgoes, hend⟩ := ih d.left (hn ▸ (Cursor.lt_iff.1 hstep.lt).2) d rfl
    exact ⟨_, e, .step hstep hgoes, hend⟩
  · exact ⟨[], c, .refl, hend⟩

/-- The search gives what its rounds find, if they come to an end. -/
theorem blocks_ok_iff (hne : opening ≠ closing) : blocks start scan opening closing whole c = .ok hits ↔
    ∃ d, Goes start scan opening closing c hits d ∧ Finished scan opening d := by
  constructor
  · intro hok
    obtain ⟨found, d, hgoes, hend⟩ := exists_goes start scan hne c
    rw [blocks_of_goes hne hgoes] at hok
    rcases hend with hend | ⟨body, hend⟩
    · rw [blocks_of_finished hend] at hok
      obtain rfl : found ++ [] = hits := Except.ok.inj hok
      exact ⟨d, (List.append_nil found).symm ▸ hgoes, hend⟩
    · rw [blocks_of_unclosed hne hend] at hok
      cases hok
  · rintro ⟨d, hgoes, hend⟩
    rw [blocks_of_goes hne hgoes, blocks_of_finished hend]
    exact congrArg Except.ok (List.append_nil hits)

/-- The search fails if its rounds come to a block that is not closed, and for no other reason. -/
theorem blocks_error_iff (hne : opening ≠ closing) {e : Refusal} :
    blocks start scan opening closing whole c = .error e ↔
      ∃ hits d body, Goes start scan opening closing c hits d ∧ Unclosed scan opening closing d body ∧
        e = .unterminatedBlock opening (lineOf whole body) closing := by
  constructor
  · intro herror
    obtain ⟨found, d, hgoes, hend⟩ := exists_goes start scan hne c
    rw [blocks_of_goes hne hgoes] at herror
    rcases hend with hend | ⟨body, hend⟩
    · rw [blocks_of_finished hend] at herror
      cases herror
    · rw [blocks_of_unclosed hne hend] at herror
      exact ⟨found, d, body, hgoes, hend, (Except.error.inj herror).symm⟩
  · rintro ⟨found, d, body, hgoes, hend, rfl⟩
    rw [blocks_of_goes hne hgoes, blocks_of_unclosed hne hend]
    rfl

/-- What a search for blocks in a text comes to. -/
structure FindsBlocks (start : Pattern) (opening closing : Char) (text : List Char)
    (outcome : Except Refusal (List Hit)) : Prop where
  /-- Every round goes on behind the place it started from. -/
  moves : ∀ c found d, Step start (start.scan text) opening closing c found d → c < d
  /-- After so many rounds there is no further one. -/
  ends : ∃ found c, Goes start (start.scan text) opening closing (.start text) found c ∧
    ∀ more d, ¬ Step start (start.scan text) opening closing c more d
  /-- The hits are the blocks that the rounds find. -/
  ok_iff : ∀ hits, outcome = .ok hits ↔
    ∃ c, Goes start (start.scan text) opening closing (.start text) hits c ∧ Finished (start.scan text) opening c
  /-- A hit is what `start` matches, then blanks, then a text from the delimiter on that is balanced. -/
  hits : ∀ hits, outcome = .ok hits → ∀ h ∈ hits, ∃ m body cs, h = .extending start m h.stop ∧
    start.node.Leads ⟨m.start, []⟩ ⟨m.stop, m.groups⟩ ∧ Opens opening m body ∧ body.Spans cs h.stop ∧
    Balanced opening closing cs
  /-- It fails exactly at a start that opens a block which nothing closes. -/
  error_iff : ∀ e, outcome = .error e ↔
    ∃ found c body, Goes start (start.scan text) opening closing (.start text) found c ∧
      Unclosed (start.scan text) opening closing c body ∧
      e = .unterminatedBlock opening (lineOf (.start text) body) closing

theorem not_step_of_finished (h : Finished scan opening c) (found : List Hit) (d : Cursor) :
    ¬ Step start scan opening closing c found d := by
  rintro (⟨hm, -, hresumes⟩ | ⟨hm, hopens, -, -⟩) <;> rcases h with hnone | ⟨hm', hnot, hempty, hend⟩
  · rw [hnone] at hm
    cases hm
  · obtain rfl := Option.some.inj (hm.symm.trans hm')
    rcases hresumes with hne | ⟨-, hnext⟩
    · exact hne hempty
    · rw [Cursor.next?_eq_none.2 hend] at hnext
      cases hnext
  · rw [hnone] at hm
    cases hm
  · obtain rfl := Option.some.inj (hm.symm.trans hm')
    exact hnot _ hopens

theorem not_step_of_unclosed (h : Unclosed scan opening closing c body) (found : List Hit) (d : Cursor) :
    ¬ Step start scan opening closing c found d := by
  obtain ⟨m, hm, hopens⟩ := h.opens
  rintro (⟨hm', hnot, -⟩ | ⟨hm', hopens', hspans, hbalanced⟩) <;>
    obtain rfl := Option.some.inj (hm.symm.trans hm')
  · exact hnot _ hopens
  · obtain rfl : body = _ := (opens_iff.1 hopens).1.trans (opens_iff.1 hopens').1.symm
    exact h.unbalanced _ ⟨_, hspans.ahead.symm⟩ hbalanced

/-- What the rounds find are blocks. -/
theorem Goes.blocks {text : List Char} (hgrouped : start.node.Grouped (0 < ·))
    (h : Goes start (start.scan text) opening closing c hits d) :
    ∀ h ∈ hits, ∃ m body cs, h = .extending start m h.stop ∧
      start.node.Leads ⟨m.start, []⟩ ⟨m.stop, m.groups⟩ ∧ Opens opening m body ∧ body.Spans cs h.stop ∧
      Balanced opening closing cs := by
  induction h with
  | refl => simp
  | step hstep _ ih =>
    rcases hstep with ⟨-, -, -⟩ | ⟨hm, hopens, hspans, hbalanced⟩
    · exact ih
    · refine List.forall_mem_cons.2 ⟨?_, ih⟩
      have hat := (find?_eq_some hm).2
      exact ⟨_, _, _, rfl, leads_of_matchAt hgrouped hat, hopens, hspans, hbalanced⟩

/-- A matcher for blocks is one of a pattern that compiles, with two delimiters that differ. -/
theorem block?_eq_ok {source : String} {flags : MatchFlags} {matcher : Matcher} :
    block? source flags opening closing = .ok matcher ↔
      opening ≠ closing ∧ ∃ start, flags.compile source = .ok start ∧ matcher = .block start opening closing := by
  unfold block?
  split
  · next hsame => simp [beq_iff_eq.1 hsame]
  · next hsame =>
    have hne : opening ≠ closing := by simpa using hsame
    rw [Except.map_eq_ok, and_iff_right hne]
    simp only [eq_comm]

/-- **The hits of a search for blocks are exactly balanced.** Its rounds come to an end for every pattern and every
text: each goes on behind the place it started from, also where the start it found is empty. A block begins with
what the pattern matches, then blanks only, then the opening delimiter, and ends where the delimiters balance for
the first time. The search fails if its rounds come to a block that nothing closes, and then it gives no hit at
all. -/
theorem block_findAll {source : String} {flags : MatchFlags} {matcher : Matcher}
    (h : block? source flags opening closing = .ok matcher) :
    ∃ start, flags.compile source = .ok start ∧ opening ≠ closing ∧
      ∀ text, FindsBlocks start opening closing text (matcher.findAll text) := by
  obtain ⟨hne, start, hstart, rfl⟩ := block?_eq_ok.1 h
  refine ⟨start, hstart, hne, fun text => ⟨fun c found d => Step.lt, ?_, fun hits => blocks_ok_iff hne, ?_,
    fun e => blocks_error_iff hne⟩⟩
  · obtain ⟨found, c, hgoes, hend⟩ := exists_goes start (start.scan text) hne (.start text)
    refine ⟨found, c, hgoes, ?_⟩
    rcases hend with hend | ⟨body, hend⟩
    · exact not_step_of_finished hend
    · exact not_step_of_unclosed hend
  · intro hits hok
    obtain ⟨c, hgoes, -⟩ := (blocks_ok_iff hne).1 hok
    exact hgoes.blocks (compile_grouped hstart)

/-- A pair of delimiters inside a block belongs to it, and a delimiter behind its end does not. -/
theorem nested_block : ∃ matcher, block? "f" {} '(' ')' = .ok matcher ∧
    (matcher.findAll ['f', ' ', '(', '(', ')', ')', ')']).map (fun hits => hits.map (·.chars)) =
      .ok [['f', ' ', '(', '(', ')', ')']] ∧
    ∃ start, MatchFlags.compile {} "f" = .ok start ∧ '(' ≠ ')' ∧
      ∀ text, FindsBlocks start '(' ')' text (matcher.findAll text) := by
  have hok : block? "f" {} '(' ')' = .ok (.block ⟨"f", .word ['f'], []⟩ '(' ')') := by with_unfolding_all rfl
  exact ⟨_, hok, by with_unfolding_all rfl, block_findAll hok⟩

/-- A blank as delimiter is passed over with the other blanks: here the start is followed by it and nothing closes
it, and yet the search does not fail. -/
theorem blank_delimiter : ∃ start m, block? "a" {} ' ' 'x' = .ok (.block start ' ' 'x') ∧
    (start.scan ['a', ' ']).find? (.start ['a', ' ']) = some m ∧ m.stop.ahead = [' '] ∧
    (∀ cs, cs <+: m.stop.ahead → ¬ Balanced ' ' 'x' cs) ∧
    (Matcher.block start ' ' 'x').findAll ['a', ' '] = .ok [] := by
  refine ⟨⟨"a", .word ['a'], []⟩, ⟨.start ['a', ' '], (Cursor.start ['a', ' ']).advance 1, []⟩,
    by with_unfolding_all rfl, by with_unfolding_all rfl, rfl, ?_, by with_unfolding_all rfl⟩
  intro cs hcs
  have hstays : StaysOpen ' ' 'x' 1 [] := fun p hp => by simp [List.prefix_nil.1 hp]
  exact StaysOpen.not_balanced (by decide) hstays hcs

end

end Matcher

end Codemod
