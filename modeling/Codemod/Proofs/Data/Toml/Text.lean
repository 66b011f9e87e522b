/-
A string that is written in TOML is read back, in whichever of the four styles it is written. Between three
quotes the reader takes a run of quotes as a whole, and less than three stand for themselves, so what is written
there is described quote by quote (`Encodes`), with the quotes that stand in a row already.
-/
import Codemod.Data.Toml.Writer
import Codemod.Proofs.Text.Digits

namespace Codemod.Data.Toml

open Text

/-- What may stand behind a value that is written. -/
def Stops (rest : List Char) : Prop := ∀ c ∈ rest.head?, c = '\n' ∨ c = ',' ∨ c = ']'

theorem stops_cons {c : Char} (h : c = '\n' ∨ c = ',' ∨ c = ']') (rest : List Char) : Stops (c :: rest) := by
  intro d hd
  rwa [← Option.some.inj hd]

theorem Stops.head?_ne {rest : List Char} (h : Stops rest) {c : Char} (hc : ¬ (c = '\n' ∨ c = ',' ∨ c = ']')) :
    rest.head? ≠ some c :=
  fun hhead => hc (h c hhead)

/-! ## Characters between double quotes -/

/-- What stands behind a backslash for a character, and does not join lines. -/
structure Escape (e : List Char) (c : Char) : Prop where
  read : ∀ rest, readEscape (e ++ rest) = some (c, rest)
  joins : ∀ rest, lineJoin? (e ++ rest) = none

theorem readCode_control : ∀ n < 0x80, (n < 0x20 ∨ n = 0x7F) →
    readCode 4 ((Hex.padded 4 n).map Char.toUpper) = some (Char.ofNat n, []) := by
  decide

theorem readCode_append {count : Nat} {cs : List Char} {c : Char} (h : readCode count cs = some (c, []))
    (hlen : cs.length = count) (rest : List Char) : readCode count (cs ++ rest) = some (c, rest) := by
  unfold readCode at h ⊢
  rw [List.take_left' hlen, List.drop_left' hlen]
  rw [List.take_of_length_le (by omega), List.drop_of_length_le (by omega)] at h
  simp only [Option.ite_none_right_eq_some, Option.some.injEq, Prod.mk.injEq, and_true] at h
  rw [if_pos h.1, h.2]

theorem needsEscape_iff {c : Char} (htab : c ≠ '\t') (hbreak : c ≠ '\n') :
    needsEscape c = true ↔ c.toNat < 0x20 ∨ c.toNat = 0x7F := by
  simp [needsEscape, htab, hbreak]

theorem isPlain_of_not_needsEscape {c : Char} (h : needsEscape c = false) (hbreak : c ≠ '\n') : isPlain c = true := by
  by_cases htab : c = '\t'
  · subst htab
    rfl
  · have hcode := mt (needsEscape_iff htab hbreak).2 (by simp [h])
    simp only [isPlain, beq_iff_eq, htab, Bool.or_eq_true, false_or, Bool.and_eq_true, decide_eq_true_eq, bne_iff_ne]
    omega

/-- A character is escaped, or it stands as it is. -/
theorem escapeText_cases (lines : Bool) (c : Char) :
    (∃ e, escapeText lines c = '\\' :: e ∧ Escape e c) ∨ (escapeText lines c = [c] ∧ c ≠ '\\' ∧ isPlain c = true)
      ∨ (escapeText lines c = [c] ∧ c = '\n' ∧ lines = true) := by
  by_cases hb : c = '\x08'
  · subst hb
    exact .inl ⟨_, rfl, fun _ => rfl, fun _ => rfl⟩
  by_cases ht : c = '\t'
  · subst ht
    exact .inl ⟨_, rfl, fun _ => rfl, fun _ => rfl⟩
  by_cases hn : c = '\n'
  · subst hn
    cases lines
    · exact .inl ⟨_, rfl, fun _ => rfl, fun _ => rfl⟩
    · exact .inr (.inr ⟨rfl, rfl, rfl⟩)
  by_cases hf : c = '\x0c'
  · subst hf
    exact .inl ⟨_, rfl, fun _ => rfl, fun _ => rfl⟩
  by_cases hr : c = '\r'
  · subst hr
    exact .inl ⟨_, rfl, fun _ => rfl, fun _ => rfl⟩
  by_cases hs : c = '\\'
  · subst hs
    exact .inl ⟨_, rfl, fun _ => rfl, fun _ => rfl⟩
  simp only [escapeText, beq_iff_eq, hb, ht, hn, hf, hr, hs, if_false]
  by_cases hcode : needsEscape c = true
  · rw [if_pos hcode]
    refine .inl ⟨_, rfl, fun rest => ?_, fun rest => rfl⟩
    have hcontrol := (needsEscape_iff ht hn).1 hcode
    have hread := readCode_append (readCode_control c.toNat (by omega) hcontrol) rfl rest
    rwa [Char.ofNat_toNat] at hread
  · rw [if_neg hcode]
    exact .inr (.inl ⟨rfl, hs, isPlain_of_not_needsEscape (by simpa using hcode) hn⟩)

theorem escape_quote : Escape ['"'] '"' := ⟨fun _ => rfl, fun _ => rfl⟩

theorem length_escapeText (lines : Bool) (c : Char) : 0 < (escapeText lines c).length := by
  rcases escapeText_cases lines c with ⟨e, he, -⟩ | ⟨he, -⟩ | ⟨he, -⟩ <;> simp [he]

/-! ## One line -/

theorem readBasic_escape {e : List Char} {c : Char} (h : Escape e c) (fuel : Nat) (done rest : List Char) :
    readBasic (fuel + 1) done ('\\' :: (e ++ rest)) = readBasic fuel (c :: done) rest := by
  simp [readBasic, h.read]

theorem readBasic_escapeTexts (cs : List Char) (fuel row : Nat) (done rest : List Char)
    (hfuel : (escapeTexts false 0 row cs).length < fuel) :
    readBasic fuel done (escapeTexts false 0 row cs ++ '"' :: rest)
      = some (String.ofList (done.reverse ++ cs), rest) := by
  induction cs generalizing fuel row done with
  | nil =>
    obtain ⟨fuel, rfl⟩ : ∃ n, fuel = n + 1 := ⟨fuel - 1, by omega⟩
    simp [escapeTexts, readBasic]
  | cons c cs ih =>
    obtain ⟨fuel, rfl⟩ : ∃ n, fuel = n + 1 := ⟨fuel - 1, by omega⟩
    rw [escapeTexts] at hfuel ⊢
    by_cases hquote : c = '"'
    · subst hquote
      simp only [beq_self_eq_true, if_true, Nat.not_lt_zero, if_false, List.length_cons] at hfuel ⊢
      have hread := ih fuel 0 ('"' :: done) (by omega)
      have hstep := readBasic_escape escape_quote fuel done (escapeTexts false 0 0 cs ++ '"' :: rest)
      rw [List.singleton_append] at hstep
      rw [List.cons_append, List.cons_append, hstep, hread]
      simp
    · have hlen := length_escapeText false c
      simp only [beq_iff_eq, hquote, if_false, List.length_append] at hfuel ⊢
      have hread := ih fuel 0 (c :: done) (by omega)
      rcases escapeText_cases false c with ⟨e, he, hescape⟩ | ⟨he, hslash, hplain⟩ | ⟨-, -, hlines⟩
      · rw [he, List.cons_append, List.cons_append, List.append_assoc, readBasic_escape hescape, hread]
        simp
      · rw [he, List.append_assoc, List.singleton_append]
        simp only [readBasic, hplain, if_true, hread]
        simp
      · exact absurd hlines (by decide)

/-! ## Lines -/

/-- The quote of texts of more than one line. -/
def lineMark (raw : Bool) : Char := if raw then '\'' else '"'

/-- Characters that the reader of lines takes for one character, whatever follows. -/
structure Takes (raw : Bool) (w : List Char) (c : Char) : Prop where
  start : ∃ x xs, w = x :: xs ∧ x ≠ lineMark raw ∧ x ≠ '\r' ∧ (x = '\n' → c = '\n')
  read : ∀ fuel done rest, readLines raw (fuel + 1) done (w ++ rest) = readLines raw fuel (c :: done) rest

/-- A text as it is written between three quotes, behind as many quotes of that kind in a row. -/
inductive Encodes (raw : Bool) : Nat → List Char → List Char → Prop
  | nil (row : Nat) : Encodes raw row [] []
  | quote {row : Nat} {cs ws : List Char} (hrow : row < 2) (h : Encodes raw (row + 1) cs ws) :
    Encodes raw row (lineMark raw :: cs) (lineMark raw :: ws)
  | char {row : Nat} {c : Char} {cs w ws : List Char} (hw : Takes raw w c) (h : Encodes raw 0 cs ws) :
    Encodes raw row (c :: cs) (w ++ ws)

theorem length_takeWhile_mark {raw : Bool} (row : Nat) {rest : List Char} (h : rest.head? ≠ some (lineMark raw)) :
    ((List.replicate row (lineMark raw) ++ rest).takeWhile (· == lineMark raw)).length = row := by
  have hrun : (List.replicate row (lineMark raw) ++ rest).takeWhile (· == lineMark raw)
      = List.replicate row (lineMark raw) := by
    refine takeWhile_run (fun c hc => by simp [List.eq_of_mem_replicate hc]) fun c hc => ?_
    have hne : c ≠ lineMark raw := by
      rintro rfl
      exact h hc
    simpa using hne
  rw [hrun, List.length_replicate]

/-- Quotes in a row that do not close. -/
theorem readLines_row {raw : Bool} {row : Nat} {rest : List Char} (hpos : 0 < row) (hrow : row ≤ 2)
    (h : rest.head? ≠ some (lineMark raw)) (fuel : Nat) (done : List Char) :
    readLines raw (fuel + 1) done (List.replicate row (lineMark raw) ++ rest)
      = readLines raw fuel (List.replicate row (lineMark raw) ++ done) rest := by
  have hrun := length_takeWhile_mark row h
  have hopen : closing? row = none := if_pos (by omega)
  have hdrop : (List.replicate row (lineMark raw) ++ rest).drop row = rest := List.drop_left' List.length_replicate
  simp only [lineMark] at hrun hdrop ⊢
  conv =>
    lhs
    unfold readLines
  simp only [hrun, if_pos hpos, hopen, hdrop]

/-- Three quotes behind two at most close. -/
theorem readLines_close {raw : Bool} {row : Nat} {rest : List Char} (hrow : row ≤ 2)
    (h : rest.head? ≠ some (lineMark raw)) (fuel : Nat) (done : List Char) :
    readLines raw (fuel + 1) done (List.replicate (row + 3) (lineMark raw) ++ rest)
      = some (String.ofList (List.replicate row (lineMark raw) ++ done).reverse, rest) := by
  have hrun := length_takeWhile_mark (row + 3) h
  have hclose : closing? (row + 3) = some row := by
    rw [closing?, if_neg (by omega)]
    congr 1
    omega
  have hdrop : (List.replicate (row + 3) (lineMark raw) ++ rest).drop (row + 3) = rest :=
    List.drop_left' List.length_replicate
  simp only [lineMark] at hrun hdrop ⊢
  conv =>
    lhs
    unfold readLines
  simp only [hrun, if_pos (show 0 < row + 3 by omega), hclose, hdrop]

/-- The induction is on the text; the quotes that stand in a row already are read with what comes next. -/
theorem Encodes.read {raw : Bool} {row : Nat} {cs ws : List Char} (h : Encodes raw row cs ws) (hrow : row ≤ 2)
    {rest : List Char} (hrest : rest.head? ≠ some (lineMark raw)) (fuel : Nat) (hfuel : row + ws.length < fuel)
    (done : List Char) :
    readLines raw fuel done (List.replicate row (lineMark raw) ++ (ws ++ (List.replicate 3 (lineMark raw) ++ rest)))
      = some (String.ofList (done.reverse ++ (List.replicate row (lineMark raw) ++ cs)), rest) := by
  induction h generalizing fuel done with
  | nil row =>
    obtain ⟨fuel, rfl⟩ : ∃ n, fuel = n + 1 := ⟨fuel - 1, by omega⟩
    rw [List.nil_append, ← List.append_assoc, List.replicate_append_replicate, readLines_close hrow hrest]
    simp
  | @quote row cs ws hlt h ih =>
    have hread := ih (by omega) fuel (by simpa [Nat.add_assoc, Nat.add_comm 1] using hfuel) done
    rw [List.replicate_succ', List.append_assoc, List.append_assoc, List.singleton_append, List.singleton_append]
      at hread
    exact hread
  | @char row c cs w ws hw h ih =>
    obtain ⟨x, xs, rfl, hx, -⟩ := hw.start
    simp only [List.length_append, List.length_cons] at hfuel
    have hread (fuel : Nat) (hfuel : ws.length < fuel) (done : List Char) := ih (by omega) fuel (by omega) done
    simp only [List.replicate_zero, List.nil_append] at hread
    obtain ⟨fuel, rfl⟩ : ∃ n, fuel = n + 1 := ⟨fuel - 1, by omega⟩
    rw [List.append_assoc]
    by_cases hpos : 0 < row
    · obtain ⟨fuel, rfl⟩ : ∃ n, fuel = n + 1 := ⟨fuel - 1, by omega⟩
      rw [readLines_row hpos hrow (by simpa using hx), hw.read, hread _ (by omega)]
      simp
    · obtain rfl : row = 0 := by omega
      rw [List.replicate_zero, List.nil_append, hw.read, hread _ (by omega)]
      simp

/-! ## Texts as they are written -/

/-- Where no quote stands the reader goes by the next character alone. -/
theorem takeWhile_other {raw : Bool} {x : Char} (hx : x ≠ lineMark raw) (xs : List Char) :
    ((x :: xs).takeWhile (· == if raw then '\'' else '"')).length = 0 := by
  rw [lineMark] at hx
  simp [hx]

theorem takes_newline (raw : Bool) : Takes raw ['\n'] '\n' := by
  have hne : '\n' ≠ lineMark raw := by cases raw <;> decide
  refine ⟨⟨_, _, rfl, hne, by decide, fun _ => rfl⟩, fun fuel done rest => ?_⟩
  conv =>
    lhs
    unfold readLines
  simp only [List.singleton_append, takeWhile_other hne, Nat.lt_irrefl, if_false]

theorem takes_plain {raw : Bool} {c : Char} (hmark : c ≠ lineMark raw) (hslash : c = '\\' → raw = true)
    (hplain : isPlain c = true) : Takes raw [c] c := by
  have hbreak : c ≠ '\n' := by
    rintro rfl
    exact absurd hplain (by decide)
  have hreturn : c ≠ '\r' := by
    rintro rfl
    exact absurd hplain (by decide)
  have hjoin : (c == '\\' && !raw) = false := by
    by_cases hs : c = '\\'
    · simp [hslash hs]
    · simp [hs]
  refine ⟨⟨_, _, rfl, hmark, hreturn, id⟩, fun fuel done rest => ?_⟩
  conv =>
    lhs
    unfold readLines
  simp only [List.singleton_append, takeWhile_other hmark, Nat.lt_irrefl, if_false]
  split
  · next heq => simp at heq
  · next heq => exact absurd (List.cons.inj heq).1 hbreak
  · next heq => exact absurd (List.cons.inj heq).1 hreturn
  · next heq =>
    obtain ⟨rfl, rfl⟩ := List.cons.inj heq
    simp [hjoin, hplain]

theorem takes_escape {e : List Char} {c : Char} (h : Escape e c) : Takes false ('\\' :: e) c := by
  have hne : '\\' ≠ lineMark false := by decide
  refine ⟨⟨_, _, rfl, hne, by decide, nofun⟩, fun fuel done rest => ?_⟩
  conv =>
    lhs
    unfold readLines
  simp only [List.cons_append, takeWhile_other hne, Nat.lt_irrefl, if_false]
  simp [h.joins, h.read]

theorem encodes_escapeTexts (cs : List Char) (row : Nat) : Encodes false row cs (escapeTexts true 2 row cs) := by
  induction cs generalizing row with
  | nil => exact .nil row
  | cons c cs ih =>
    rw [escapeTexts]
    by_cases hquote : c = '"'
    · subst hquote
      simp only [beq_self_eq_true, if_true]
      split
      · next hrow => exact .quote hrow (ih (row + 1))
      · exact .char (w := ['\\', '"']) (takes_escape escape_quote) (ih 0)
    · simp only [beq_iff_eq, hquote, if_false]
      refine .char ?_ (ih 0)
      rcases escapeText_cases true c with ⟨e, he, hescape⟩ | ⟨he, hslash, hplain⟩ | ⟨he, rfl, -⟩
      · rw [he]
        exact takes_escape hescape
      · rw [he]
        exact takes_plain hquote (absurd · hslash) hplain
      · rw [he]
        exact takes_newline false

/-- No more than so many of a character stand in a row, behind as many as there are already. -/
def calm (mark : Char) (bound : Nat) : Nat → List Char → Bool
  | _, [] => true
  | row, c :: cs => if c == mark then decide (row < bound) && calm mark bound (row + 1) cs else calm mark bound 0 cs

theorem calm_of_foldl {mark : Char} {bound : Nat} (cs : List Char) (now best : Nat)
    (h : (cs.foldl (fun (now, best) x => if x == mark then (now + 1, max best (now + 1)) else (0, best))
      (now, best)).2 ≤ bound) : best ≤ bound ∧ calm mark bound now cs = true := by
  induction cs generalizing now best with
  | nil => exact ⟨h, rfl⟩
  | cons c cs ih =>
    rw [List.foldl_cons] at h
    by_cases hmark : (c == mark) = true
    · simp only [hmark, if_true] at h
      obtain ⟨hbest, hcalm⟩ := ih _ _ h
      have hnow : now < bound := by omega
      simp only [calm, hmark, hnow, if_true, decide_true, Bool.true_and, hcalm, and_true]
      omega
    · simp only [hmark, Bool.false_eq_true, if_false] at h
      simpa only [calm, hmark, Bool.false_eq_true, if_false] using ih _ _ h

theorem calm_of_longestRun {mark : Char} {bound : Nat} {cs : List Char} (h : longestRun mark cs ≤ bound) :
    calm mark bound 0 cs = true :=
  (calm_of_foldl cs 0 0 h).2

/-- Where none may stand in a row there is none. -/
theorem ne_of_calm {mark : Char} {row : Nat} {cs : List Char} (h : calm mark 0 row cs = true) :
    ∀ c ∈ cs, c ≠ mark := by
  induction cs generalizing row with
  | nil => simp
  | cons c cs ih =>
    rw [calm] at h
    by_cases hmark : (c == mark) = true
    · simp [hmark] at h
    · simp only [hmark, Bool.false_eq_true, if_false] at h
      exact List.forall_mem_cons.2 ⟨by simpa using hmark, ih h⟩

theorem encodes_raw {cs : List Char} {row : Nat} (hcalm : calm '\'' 2 row cs = true)
    (hplain : ∀ c ∈ cs, c = '\n' ∨ isPlain c = true) : Encodes true row cs cs := by
  induction cs generalizing row with
  | nil => exact .nil row
  | cons c cs ih =>
    obtain ⟨hc, hcs⟩ := List.forall_mem_cons.1 hplain
    rw [calm] at hcalm
    by_cases hquote : c = '\''
    · subst hquote
      simp only [beq_self_eq_true, if_true, Bool.and_eq_true, decide_eq_true_eq] at hcalm
      exact .quote hcalm.1 (ih hcalm.2 hcs)
    · simp only [beq_iff_eq, hquote, if_false] at hcalm
      refine .char (w := [c]) ?_ (ih hcalm hcs)
      rcases hc with rfl | hc
      · exact takes_newline true
      · exact takes_plain hquote (fun _ => rfl) hc

theorem readLiteral_append {cs rest : List Char} (h : ∀ c ∈ cs, c ≠ '\'' ∧ isPlain c = true) :
    readLiteral (cs ++ '\'' :: rest) = some (String.ofList cs, rest) := by
  have hinside : (cs ++ '\'' :: rest).takeWhile (fun c => c != '\'' && isPlain c) = cs :=
    takeWhile_run (fun c hc => by simp [h c hc]) fun c hc => by simp [← Option.some.inj hc]
  simp only [readLiteral, hinside, List.drop_left]

/-! ## Styles -/

theorem plain_of_uncoded {cs : List Char} (h : (!cs.any needsEscape) = true) {c : Char} (hc : c ∈ cs) :
    c = '\n' ∨ isPlain c = true := by
  have hcode : needsEscape c = false := by simpa using List.any_eq_false.1 (by simpa using h) c hc
  by_cases hbreak : c = '\n'
  · exact .inl hbreak
  · exact .inr (isPlain_of_not_needsEscape hcode hbreak)

theorem plain_of_literal {cs : List Char} (h : TextStyle.choose cs = .literal) :
    ∀ c ∈ cs, c ≠ '\'' ∧ isPlain c = true := by
  simp only [TextStyle.choose] at h
  split at h
  · cases h
  · split at h
    · next hliteral =>
      simp only [Bool.and_eq_true, beq_iff_eq] at hliteral
      obtain ⟨⟨hcoded, hsingles⟩, hbroken⟩ := hliteral
      intro c hc
      refine ⟨ne_of_calm (calm_of_longestRun hsingles.le) c hc, (plain_of_uncoded hcoded hc).resolve_left ?_⟩
      rintro rfl
      simp [hc] at hbroken
    · repeat' split at h
      all_goals cases h

theorem calm_of_literalLines {cs : List Char} (h : TextStyle.choose cs = .literalLines) :
    calm '\'' 2 0 cs = true ∧ ∀ c ∈ cs, c = '\n' ∨ isPlain c = true := by
  simp only [TextStyle.choose] at h
  split at h
  · cases h
  · split at h
    · cases h
    · split at h
      · cases h
      · split at h
        · next hlines =>
          simp only [Bool.and_eq_true, decide_eq_true_eq] at hlines
          exact ⟨calm_of_longestRun hlines.2, fun c => plain_of_uncoded hlines.1⟩
        · split at h <;> cases h

theorem head?_escapeTexts (cs : List Char) : (escapeTexts false 0 0 cs).head? ≠ some '"' := by
  cases cs with
  | nil => simp [escapeTexts]
  | cons c cs =>
    rw [escapeTexts]
    by_cases hquote : c = '"'
    · subst hquote
      simp
    · simp only [beq_iff_eq, hquote, if_false]
      rcases escapeText_cases false c with ⟨e, he, -⟩ | ⟨he, -⟩ | ⟨he, -⟩ <;> simp [he, hquote]

theorem readText_basic {ws rest : List Char} (h : ws.head? ≠ some '"') (hrest : rest.head? ≠ some '"') (fuel : Nat) :
    readText fuel ('"' :: (ws ++ '"' :: rest)) = readBasic fuel [] (ws ++ '"' :: rest) := by
  unfold readText
  split
  next heq =>
    cases ws with
    | nil => simp_all
    | cons x ws => simp_all
  next heq =>
    obtain rfl := (List.cons.inj heq).2
    rfl
  all_goals simp_all

theorem readText_literal {cs rest : List Char} (h : ∀ c ∈ cs, c ≠ '\'' ∧ isPlain c = true)
    (hrest : rest.head? ≠ some '\'') (fuel : Nat) :
    readText fuel ('\'' :: (cs ++ '\'' :: rest)) = some (String.ofList cs, rest) := by
  unfold readText
  split
  next heq => simp_all
  next heq => simp_all
  next heq =>
    cases cs with
    | nil => simp_all
    | cons x cs => simp_all
  next heq =>
    obtain rfl := (List.cons.inj heq).2
    exact readLiteral_append h
  next => simp_all

theorem Encodes.skipBreak {raw : Bool} {cs ws : List Char} (h : Encodes raw 0 cs ws) (hbreak : '\n' ∉ cs)
    (rest : List Char) : skipBreak (ws ++ lineMark raw :: rest) = ws ++ lineMark raw :: rest := by
  have hmark (xs : List Char) : Toml.skipBreak (lineMark raw :: xs) = lineMark raw :: xs := by
    cases raw <;> rfl
  cases h with
  | nil => exact hmark rest
  | quote hrow h => exact hmark _
  | char hw h =>
    obtain ⟨x, xs, rfl, -, hreturn, hnewline⟩ := hw.start
    have hx : x ≠ '\n' := by
      intro hx
      exact hbreak (hnewline hx ▸ List.mem_cons_self)
    simp [Toml.skipBreak, lineBreak?, hx, hreturn]

/-- Between three quotes, with a line break before the text if there is one in it. -/
theorem readText_lines {raw : Bool} {cs ws : List Char} (h : Encodes raw 0 cs ws) {rest : List Char}
    (hrest : rest.head? ≠ some (lineMark raw)) (fuel : Nat) (hfuel : ws.length < fuel) :
    readText fuel (List.replicate 3 (lineMark raw) ++ ((if '\n' ∈ cs then ['\n'] else [])
      ++ (ws ++ (List.replicate 3 (lineMark raw) ++ rest)))) = some (String.ofList cs, rest) := by
  have hskip : skipBreak ((if '\n' ∈ cs then ['\n'] else []) ++ (ws ++ (List.replicate 3 (lineMark raw) ++ rest)))
      = ws ++ (List.replicate 3 (lineMark raw) ++ rest) := by
    split
    · rfl
    · next hbreak => exact h.skipBreak hbreak _
  have hread := h.read (by omega) hrest fuel (by omega) []
  rw [← hskip] at hread
  cases raw <;> exact hread

/-- **A string that is written is read back.** -/
theorem readText_writeText (s : String) {rest : List Char} (hrest : Stops rest) {fuel : Nat}
    (hfuel : (writeText s).toList.length ≤ fuel + 1) :
    readText fuel ((writeText s).toList ++ rest) = some (s, rest) := by
  have hquote (c : Char) (hc : ¬ (c = '\n' ∨ c = ',' ∨ c = ']')) := hrest.head?_ne hc
  have hlines {raw : Bool} {ws : List Char} (h : Encodes raw 0 s.toList ws) (hwritten : (writeText s).toList
      = List.replicate 3 (lineMark raw) ++ ((if '\n' ∈ s.toList then ['\n'] else [])
        ++ (ws ++ List.replicate 3 (lineMark raw)))) : readText fuel ((writeText s).toList ++ rest) = some (s, rest) := by
    rw [hwritten] at hfuel ⊢
    simp only [List.length_append, List.length_replicate] at hfuel
    have hread := readText_lines h (hquote (lineMark raw) (by cases raw <;> decide)) fuel (by omega)
    simpa only [List.append_assoc, String.ofList_toList] using hread
  cases hstyle : TextStyle.choose s.toList with
  | basic =>
    have hwritten : (writeText s).toList = '"' :: (escapeTexts false 0 0 s.toList ++ ['"']) := by
      simp [writeText, hstyle, TextStyle.mark]
    rw [hwritten] at hfuel ⊢
    simp only [List.length_cons, List.length_append] at hfuel
    rw [List.cons_append, List.append_assoc, List.singleton_append,
      readText_basic (head?_escapeTexts _) (hquote _ (by decide)), readBasic_escapeTexts _ _ _ _ _ (by omega)]
    simp
  | literal =>
    have hwritten : (writeText s).toList = '\'' :: (s.toList ++ ['\'']) := by
      simp [writeText, hstyle, TextStyle.mark]
    rw [hwritten, List.cons_append, List.append_assoc, List.singleton_append,
      readText_literal (plain_of_literal hstyle) (hquote _ (by decide)), String.ofList_toList]
  | basicLines =>
    refine hlines (encodes_escapeTexts s.toList 0) ?_
    simp [writeText, hstyle, TextStyle.mark, lineMark]
  | literalLines =>
    obtain ⟨hcalm, hplain⟩ := calm_of_literalLines hstyle
    refine hlines (encodes_raw hcalm hplain) ?_
    simp [writeText, hstyle, TextStyle.mark, lineMark]

/-- A written string starts with a quote. -/
theorem exists_writeText (s : String) : ∃ c cs, (writeText s).toList = c :: cs ∧ (c = '"' ∨ c = '\'') := by
  simp only [writeText, String.toList_ofList]
  cases TextStyle.choose s.toList <;> simp [TextStyle.mark]

end Codemod.Data.Toml
