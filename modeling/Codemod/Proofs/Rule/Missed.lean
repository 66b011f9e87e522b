/-
Which blocks a search for blocks does not find. A start without a block is passed over as a whole, together with
every start that begins inside it, and a block of such a start is missed (`block_missed_iff`). All others are
found: up to the place that the rounds have come to, they have found or passed over every start.
-/
import Codemod.Proofs.Rule.Blocks

namespace Codemod

open Text Pattern

/-- A place lies inside a hit. -/
def Hit.Covers (h : Hit) (p : Cursor) : Prop := h.start ≤ p ∧ p < h.stop

namespace Matcher

/-- A start begins at a place, and behind it stand blanks only and then an opening delimiter. -/
def OpensAt (scan : Scan) (opening : Char) (p : Cursor) : Prop :=
  ∃ m body, scan.Begins m ∧ m.start = p ∧ Opens opening m body

/-- The rounds from a place on come to a start without a block. -/
def PassesOver (start : Pattern) (scan : Scan) (opening closing : Char) (c : Cursor) (m : Match) : Prop :=
  ∃ found d, Goes start scan opening closing c found d ∧ scan.find? d = some m ∧ ∀ body, ¬ Opens opening m body

section

variable {start : Pattern} {scan : Scan} {opening closing : Char} {c d d' p : Cursor} {m : Match}
  {found found' hits : List Hit}

theorem Step.unique (h : Step start scan opening closing c found d)
    (h' : Step start scan opening closing c found' d') : found = found' ∧ d = d' := by
  rcases h with ⟨hm, hnot, hresumes⟩ | ⟨hm, hopens, hspans, hbalanced⟩ <;>
    rcases h' with ⟨hm', hnot', hresumes'⟩ | ⟨hm', hopens', hspans', hbalanced'⟩ <;>
    obtain rfl := Option.some.inj (hm.symm.trans hm')
  · have hle := (find?_le hm).2
    exact ⟨rfl, Option.some.inj (((resumes_iff hle).1 hresumes).symm.trans ((resumes_iff hle).1 hresumes'))⟩
  · exact absurd hopens' (hnot _)
  · exact absurd hopens (hnot' _)
  · obtain rfl := (opens_iff.1 hopens).1.trans (opens_iff.1 hopens').1.symm
    obtain rfl := hbalanced.unique hbalanced' ⟨_, hspans.ahead.symm⟩ ⟨_, hspans'.ahead.symm⟩
    obtain rfl := hspans.unique hspans'
    exact ⟨rfl, rfl⟩

/-- Rounds find nothing before the place where they start. -/
theorem Goes.le (h : Goes start scan opening closing c hits d) : c ≤ d ∧ ∀ h ∈ hits, c ≤ h.start := by
  induction h with
  | refl => exact ⟨le_refl _, nofun⟩
  | step hstep _ ih =>
    have hlt := hstep.lt
    refine ⟨hlt.le.trans ih.1, fun h hh => ?_⟩
    rcases List.mem_append.1 hh with hh | hh
    · rcases hstep with ⟨-, -, -⟩ | ⟨hm, -, -, -⟩
      · cases hh
      · obtain rfl := List.mem_singleton.1 hh
        exact (find?_le hm).1
    · exact hlt.le.trans (ih.2 h hh)

/-- What is passed over is passed over by the first round or by those behind it. -/
theorem PassesOver.cases (h : PassesOver start scan opening closing c m)
    (hstep : Step start scan opening closing c found d) :
    (found = [] ∧ Resumes m d) ∨ PassesOver start scan opening closing d m := by
  obtain ⟨found', e, hgoes, hm, hnot⟩ := h
  cases hgoes with
  | refl =>
    rcases hstep with ⟨hm', -, hresumes⟩ | ⟨hm', hopens, -, -⟩ <;>
      obtain rfl := Option.some.inj (hm.symm.trans hm')
    · exact .inl ⟨rfl, hresumes⟩
    · exact absurd hopens (hnot _)
  | step hstep' hgoes =>
    obtain ⟨-, rfl⟩ := hstep.unique hstep'
    exact .inr ⟨_, e, hgoes, hm, hnot⟩

theorem PassesOver.step (hstep : Step start scan opening closing c found d)
    (h : PassesOver start scan opening closing d m) : PassesOver start scan opening closing c m := by
  obtain ⟨found', e, hgoes, hm, hnot⟩ := h
  exact ⟨_, e, .step hstep hgoes, hm, hnot⟩

/-- Of the places behind the beginning of a start, the rounds leave out exactly those before its end. -/
theorem Resumes.lt_iff (h : Resumes m d) (hp : m.start < p) : p < d ↔ p < m.stop := by
  rcases h with hne | ⟨heq, hnext⟩
  · rfl
  · have hstart := (Cursor.lt_iff.1 hp).2
    have hleft := Cursor.left_of_next? hnext
    constructor
    · intro hlt
      have hlt := (Cursor.lt_iff.1 hlt).2
      rw [heq] at hstart
      omega
    · intro hlt
      rw [← heq] at hlt
      exact absurd hlt hp.not_gt

theorem Step.lt_of_covers (h : Step start scan opening closing c found d) {hit : Hit} (hhit : hit ∈ found)
    (hp : hit.Covers p) : p < d := by
  rcases h with ⟨-, -, -⟩ | ⟨-, -, -, -⟩
  · cases hhit
  · obtain rfl := List.mem_singleton.1 hhit
    exact hp.2

theorem PassesOver.le (h : PassesOver start scan opening closing c m) : c ≤ m.start := by
  obtain ⟨found, d, hgoes, hm, -⟩ := h
  exact hgoes.le.1.trans (find?_le hm).1

variable (heven : scan.starts.Even)
include heven

/-- The next start begins no later than one that opens a block, and is not the same if it opens none. -/
theorem OpensAt.start_lt (hp : OpensAt scan opening p) (hle : c ≤ p) (hm : scan.find? c = some m)
    (hnot : ∀ body, ¬ Opens opening m body) : m.start < p := by
  obtain ⟨m', body, hbegins, rfl, hopens⟩ := hp
  have hnext := (find?_some_iff heven).1 hm
  refine lt_of_le_of_ne (hnext.first m' hbegins hle) fun heq => ?_
  have hsame := hnext.begins
  rw [Scan.Begins, heq, hbegins] at hsame
  exact hnot body (Option.some.inj hsame ▸ hopens)

theorem not_opensAt_of_finished (h : Finished scan opening c) (hle : c ≤ p) : ¬ OpensAt scan opening p := by
  intro hp
  rcases h with hnone | ⟨hm, hnot, hempty, hend⟩
  · obtain ⟨m, body, hbegins, rfl, -⟩ := hp
    exact (find?_none_iff heven).1 hnone m hbegins hle
  · rename_i m
    have hlt := (Cursor.lt_iff.1 (hp.start_lt heven hle hm hnot)).2
    rw [hempty, m.stop.left_eq, hend] at hlt
    cases hlt

/-- A round misses a block, from a place before the one it comes to, exactly if it passes over the start that the
start of the block begins inside. -/
theorem Step.missed_iff (h : Step start scan opening closing c found d) (hhits : ∀ h ∈ hits, d ≤ h.start)
    (hle : c ≤ p) (hlt : p < d) (hp : OpensAt scan opening p) :
    (∀ h ∈ found ++ hits, ¬ h.Covers p) ↔
      ∃ m, PassesOver start scan opening closing c m ∧ m.start < p ∧ p < m.stop := by
  rcases h with ⟨hm, hnot, hresumes⟩ | ⟨hm, hopens, hspans, hbalanced⟩
  · rename_i m
    have hstart := hp.start_lt heven hle hm hnot
    refine iff_of_true (fun h hh hcovers => ?_) ⟨m, ⟨[], c, .refl, hm, hnot⟩, hstart, ?_⟩
    · exact (hcovers.1.trans_lt hlt).not_ge (hhits h hh)
    · exact (hresumes.lt_iff hstart).1 hlt
  · obtain ⟨m', body', hbegins, rfl, -⟩ := hp
    have hstart := ((find?_some_iff heven).1 hm).first m' hbegins hle
    refine iff_of_false (fun hall => hall _ List.mem_cons_self ⟨hstart, hlt⟩) ?_
    rintro ⟨m, hpasses, hbefore, -⟩
    rcases hpasses.cases (.block hm hopens hspans hbalanced) with ⟨hnil, -⟩ | hpasses
    · cases hnil
    · exact (hbefore.trans hlt).not_ge hpasses.le

/-- Rounds that come to an end miss a block exactly if its start begins inside one that they pass over. -/
theorem Goes.missed_iff (h : Goes start scan opening closing c hits d) (hend : Finished scan opening d)
    (hle : c ≤ p) (hp : OpensAt scan opening p) :
    (∀ h ∈ hits, ¬ h.Covers p) ↔
      ∃ m, PassesOver start scan opening closing c m ∧ m.start < p ∧ p < m.stop := by
  induction h with
  | refl => exact absurd hp (not_opensAt_of_finished heven hend hle)
  | @step c d e found hits hstep hgoes ih =>
    rcases Cursor.le_or_lt_of_le hstep.lt.le hle with hbehind | hbefore
    · -- neither what the round finds nor what it passes over reaches the place
      have hfound : ∀ h ∈ found, ¬ h.Covers p := fun h hh hp => (hstep.lt_of_covers hh hp).not_ge hbehind
      rw [List.forall_mem_append, and_iff_right hfound, ih hend hbehind]
      constructor
      · rintro ⟨m, hm, hinside⟩
        exact ⟨m, hm.step hstep, hinside⟩
      · rintro ⟨m, hm, hstart, hstop⟩
        rcases hm.cases hstep with ⟨-, hresumes⟩ | hm
        · exact absurd ((hresumes.lt_iff hstart).2 hstop) hbehind.not_gt
        · exact ⟨m, hm, hstart, hstop⟩
    · exact hstep.missed_iff heven hgoes.le.2 hle hbefore hp

end

/-- **A block is missed exactly if its start begins inside a start that the search passes over.** A search that ends
without an error has found every other block: the start of one lies inside a hit. -/
theorem block_missed_iff {source : String} {flags : MatchFlags} {start : Pattern} {opening closing : Char}
    {text : List Char} {hits : List Hit} {p : Cursor}
    (h : block? source flags opening closing = .ok (.block start opening closing))
    (hok : (block start opening closing).findAll text = .ok hits) (hle : .start text ≤ p)
    (hp : OpensAt (start.scan text) opening p) :
    (∀ h ∈ hits, ¬ h.Covers p) ↔
      ∃ m, PassesOver start (start.scan text) opening closing (.start text) m ∧ m.start < p ∧ p < m.stop := by
  obtain ⟨hne, -⟩ := block?_eq_ok.1 h
  obtain ⟨c, hgoes, hend⟩ := (blocks_ok_iff hne).1 hok
  exact hgoes.missed_iff (scan_even start text) hend hle hp

/-- A pattern for the text `aa`. -/
def twice : Pattern := ⟨"aa", .word ['a', 'a'], []⟩

/-- In this text, the second of two starts opens a block, and begins inside the first. -/
def overlapping : List Char := ['a', 'a', 'a', '{', '}']

theorem twice_block : block? "aa" {} '{' '}' = .ok (.block twice '{' '}') := by with_unfolding_all rfl

theorem twice_findAll : (block twice '{' '}').findAll overlapping = .ok [] := by with_unfolding_all rfl

theorem twice_opensAt : OpensAt (twice.scan overlapping) '{' ((Cursor.start overlapping).advance 1) := by
  let m : Match := ⟨(Cursor.start overlapping).advance 1, (Cursor.start overlapping).advance 3, []⟩
  have hbegins : (twice.scan overlapping).Begins m :=
    find?_of_matchAt? (scan_even twice overlapping) (by decide +kernel) rfl
  have hblanks : m.stop.Spans [] m.stop := Cursor.spans_iff.2 ⟨le_refl _, rfl⟩
  exact ⟨m, m.stop, hbegins, rfl, ⟨[], by simp, hblanks⟩, rfl, by decide⟩

/-- The search passes over the first start, and with it over the second. -/
theorem twice_missed : block? "aa" {} '{' '}' = .ok (.block twice '{' '}') ∧
    (block twice '{' '}').findAll overlapping = .ok [] ∧
    ∃ m, PassesOver twice (twice.scan overlapping) '{' '}' (.start overlapping) m ∧
      m.start < (Cursor.start overlapping).advance 1 ∧ (Cursor.start overlapping).advance 1 < m.stop :=
  ⟨twice_block, twice_findAll,
    (block_missed_iff twice_block twice_findAll (Cursor.le_advance _ 1) twice_opensAt).1 nofun⟩

/-- Not every block is found. -/
theorem overlapping_block_missed : ¬ ∀ (source : String) (flags : MatchFlags) (start : Pattern)
    (opening closing : Char) (text : List Char) (hits : List Hit) (p : Cursor),
    block? source flags opening closing = .ok (.block start opening closing) →
    (block start opening closing).findAll text = .ok hits → .start text ≤ p →
    OpensAt (start.scan text) opening p → ∃ h ∈ hits, h.Covers p := by
  intro hall
  obtain ⟨h, hh, -⟩ := hall _ _ _ _ _ _ _ _ twice_block twice_findAll (Cursor.le_advance _ 1) twice_opensAt
  cases hh

end Matcher

end Codemod
