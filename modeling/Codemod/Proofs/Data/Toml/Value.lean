/-
A value that is written in TOML is read back, where it stands on a line of its own or in a list: a truth value, an
integer of 64 bits, a string, or a list of such values.
-/
import Codemod.Proofs.Data.Toml.Text

namespace Codemod.Data.Toml

open Text

/-! ## Integers -/

theorem readMoreDigits_append {ok : Char → Bool} {ds rest : List Char} (hds : ∀ c ∈ ds, ok c = true ∧ c ≠ '_')
    (hrest : ∀ c ∈ rest.head?, ok c = false ∧ c ≠ '_') : readMoreDigits ok (ds ++ rest) = some (ds, rest) := by
  induction ds with
  | nil =>
    cases rest with
    | nil => rfl
    | cons c rest =>
      obtain ⟨hc, hne⟩ := hrest c rfl
      simp [readMoreDigits, hc, hne]
  | cons d ds ih =>
    obtain ⟨⟨hd, hne⟩, hds⟩ := List.forall_mem_cons.1 hds
    simp [readMoreDigits, hd, hne, ih hds]

theorem not_digit_of_stops {rest : List Char} (h : Stops rest) : ∀ c ∈ rest.head?, c.isDigit = false := by
  intro c hc
  rcases h c hc with rfl | rfl | rfl <;> decide

theorem readDigits_toDigits (n : Nat) {rest : List Char} (h : Stops rest) :
    readDigits Char.isDigit (Nat.toDigits 10 n ++ rest) = some (Nat.toDigits 10 n, rest) := by
  have hdigit (c : Char) (hc : c ∈ Nat.toDigits 10 n) : c.isDigit = true ∧ c ≠ '_' := by
    have hd := isDigit_of_mem_toDigits hc
    refine ⟨hd, ?_⟩
    rintro rfl
    exact absurd hd (by decide)
  have hstop (c : Char) (hc : c ∈ rest.head?) : c.isDigit = false ∧ c ≠ '_' := by
    rcases h c hc with rfl | rfl | rfl <;> decide
  obtain ⟨d, ds, hds⟩ := List.exists_cons_of_ne_nil (Nat.toDigits_ne_nil (b := 10) (n := n))
  rw [hds] at hdigit ⊢
  obtain ⟨⟨hd, -⟩, hmore⟩ := List.forall_mem_cons.1 hdigit
  simp [readDigits, hd, readMoreDigits_append hmore hstop]

theorem digitsValue_toDigits (n : Nat) : digitsValue 10 (Nat.toDigits 10 n) = n := by
  have hvalue (ds : List Char) (hds : ∀ c ∈ ds, c.isDigit = true) (init : Nat) :
      ds.foldl (fun n c => 10 * n + (Hex.value? c).getD 0) init = Nat.ofDigitChars 10 ds init := by
    induction ds generalizing init with
    | nil => simp
    | cons d ds ih =>
      obtain ⟨hd, hds⟩ := List.forall_mem_cons.1 hds
      have hd' : Hex.value? d = some (d.toNat - 48) := by
        simp only [Char.isDigit, Bool.and_eq_true, decide_eq_true_eq] at hd
        exact if_pos hd
      rw [List.foldl_cons, ih hds, hd', Nat.ofDigitChars_cons]
      rfl
  rw [digitsValue, hvalue _ fun _ => isDigit_of_mem_toDigits]
  exact Nat.ofDigitChars_ten_toDigits

theorem readWhole_toDigits (n : Nat) {rest : List Char} (h : Stops rest) :
    readWhole (Nat.toDigits 10 n ++ rest) = some (Nat.toDigits 10 n, rest) := by
  obtain ⟨d, ds, hds, -, hzero⟩ := exists_toDigits n
  by_cases hd : d = '0'
  · obtain rfl := hzero hd
    rfl
  · have hread := readDigits_toDigits n h
    rw [hds, List.cons_append] at hread ⊢
    unfold readWhole
    split
    · next heq => exact absurd (List.cons.inj heq).1 hd
    · exact hread

theorem readFraction_of_stops {rest : List Char} (h : Stops rest) : readFraction rest = some (none, rest) := by
  unfold readFraction
  split
  · next rest => exact absurd (h '.' rfl) (by decide)
  · rfl

theorem readExponent_of_stops {rest : List Char} (h : Stops rest) : readExponent rest = some (none, rest) := by
  cases rest with
  | nil => rfl
  | cons c rest => rcases h c rfl with rfl | rfl | rfl <;> rfl

/-- A number of 64 bits with its sign. -/
def Fits (n : Int) : Prop := -0x8000000000000000 ≤ n ∧ n < 0x8000000000000000

instance (n : Int) : Decidable (Fits n) := inferInstanceAs (Decidable (_ ∧ _))

theorem readDecimal_of_sign {cs : List Char} (sign : Option Char) {n : Nat} {rest : List Char} (h : Stops rest)
    (hsign : readSign cs = (sign, Nat.toDigits 10 n ++ rest))
    (hfits : Fits (if sign = some '-' then -(n : Int) else n)) :
    readDecimal cs = some (.int (if sign = some '-' then -(n : Int) else n), rest) := by
  unfold readDecimal
  simp only [hsign, readWhole_toDigits n h, Option.bind_eq_bind, Option.bind_some, readFraction_of_stops h,
    readExponent_of_stops h, Option.isNone_none, Bool.and_self, if_true, digitsValue_toDigits, beq_iff_eq]
  exact if_pos hfits

theorem readSign_digit {d : Char} (hd : d.isDigit = true) (cs : List Char) : readSign (d :: cs) = (none, d :: cs) := by
  have hplus := ne_of_isDigit hd (d := '+') (by decide)
  have hminus := ne_of_isDigit hd (d := '-') (by decide)
  simp [readSign, hplus, hminus]

theorem readNumber_nat {n : Nat} (hfits : Fits n) {rest : List Char} (h : Stops rest) :
    readNumber (Nat.toDigits 10 n ++ rest) = some (.int n, rest) := by
  obtain ⟨d, ds, hds, hd, hzero⟩ := exists_toDigits n
  have hdecimal : readDecimal (Nat.toDigits 10 n ++ rest) = some (.int n, rest) := by
    refine readDecimal_of_sign none h ?_ hfits
    rw [hds]
    exact readSign_digit hd (ds ++ rest)
  by_cases hd0 : d = '0'
  · obtain rfl := hzero hd0
    cases rest with
    | nil => rfl
    | cons c rest => rcases h c rfl with rfl | rfl | rfl <;> rfl
  · have hi := ne_of_isDigit hd (d := 'i') (by decide)
    have hn := ne_of_isDigit hd (d := 'n') (by decide)
    rw [hds, List.cons_append] at hdecimal ⊢
    simp [readNumber, readSign_digit hd, hd0, hi, hn, hdecimal]

theorem readNumber_negative {n : Nat} (hfits : Fits (-n)) {rest : List Char} (h : Stops rest) :
    readNumber ('-' :: (Nat.toDigits 10 n ++ rest)) = some (.int (-n), rest) := by
  obtain ⟨d, ds, hds, hd, -⟩ := exists_toDigits n
  have hi := ne_of_isDigit hd (d := 'i') (by decide)
  have hn := ne_of_isDigit hd (d := 'n') (by decide)
  have hdecimal : readDecimal ('-' :: (Nat.toDigits 10 n ++ rest)) = some (.int (-n), rest) :=
    readDecimal_of_sign (some '-') h rfl hfits
  rw [hds, List.cons_append] at hdecimal ⊢
  simp [readNumber, readSign, hi, hn, hdecimal]

/-! ## No dates -/

/-- A part of a date that is read from digits leaves digits. -/
theorem readPart_append {count low high m : Nat} {ds rest more : List Char}
    (hrest : ∀ c ∈ rest.head?, c.isDigit = false) (h : readPart count low high (ds ++ rest) = some (m, more)) :
    more = ds.drop count ++ rest := by
  simp only [readPart, Option.ite_none_right_eq_some, Bool.and_eq_true, beq_iff_eq, Option.some.injEq, Prod.mk.injEq]
    at h
  obtain ⟨⟨⟨⟨hlen, hall⟩, -⟩, -⟩, -, rfl⟩ := h
  have hle : count ≤ ds.length := by
    by_contra hlt
    cases rest with
    | nil => simp at hlen; omega
    | cons c rest =>
      have hmem : c ∈ (ds ++ c :: rest).take count := by
        rw [List.take_append, List.mem_append]
        right
        obtain ⟨k, hk⟩ : ∃ k, count - ds.length = k + 1 := ⟨count - ds.length - 1, by omega⟩
        simp [hk]
      have hdigit := List.all_eq_true.1 hall c hmem
      rw [hrest c rfl] at hdigit
      cases hdigit
  rw [List.drop_append_of_le_length hle]

theorem readMark_append {mark : Char} {ds rest : List Char} (hmark : mark.isDigit = false ∧ rest.head? ≠ some mark)
    (hds : ∀ c ∈ ds, c.isDigit = true) : readMark mark (ds ++ rest) = none := by
  cases ds with
  | nil =>
    cases rest with
    | nil => rfl
    | cons c rest => simpa [readMark] using hmark.2
  | cons d ds =>
    have hne := ne_of_isDigit (hds d List.mem_cons_self) hmark.1
    simp [readMark, hne]

/-- Behind the digits of a number there is no sign that a date or a time has. -/
theorem readMoment_digits {ds rest : List Char} (hds : ∀ c ∈ ds, c.isDigit = true) (h : Stops rest) :
    readMoment (ds ++ rest) = none := by
  have hmark (mark : Char) (hm : ¬ (mark = '\n' ∨ mark = ',' ∨ mark = ']')) (hd : mark.isDigit = false) (n : Nat) :
      readMark mark (ds.drop n ++ rest) = none :=
    readMark_append ⟨hd, h.head?_ne hm⟩ fun c hc => hds c (List.mem_of_mem_drop hc)
  have hdate : readDate (ds ++ rest) = none := by
    rw [readDate, Option.bind_eq_bind, Option.bind_eq_none_iff]
    rintro ⟨year, more⟩ hyear
    simp only [readPart_append (not_digit_of_stops h) hyear, hmark '-' (by decide) (by decide)]
    rfl
  have htime : readTime (ds ++ rest) = none := by
    rw [readTime, Option.bind_eq_bind, Option.bind_eq_none_iff]
    rintro ⟨hour, more⟩ hhour
    simp only [readPart_append (not_digit_of_stops h) hhour, hmark ':' (by decide) (by decide)]
    rfl
  simp [readMoment, hdate, htime]

theorem readMoment_negative (cs : List Char) : readMoment ('-' :: cs) = none := by
  have hpart (count low high : Nat) (hcount : 0 < count) : readPart count low high ('-' :: cs) = none := by
    obtain ⟨k, rfl⟩ : ∃ k, count = k + 1 := ⟨count - 1, by omega⟩
    simp [readPart, show ('-').isDigit = false from rfl]
  simp [readMoment, readDate, readTime, hpart]

/-! ## Values -/

/-- Values that stand behind a key, nested no deeper than there is room. -/
inductive Plain : Nat → Value → Prop
  | bool {room : Nat} (b : Bool) : Plain room (.bool b)
  | int {room : Nat} {n : Int} (h : Fits n) : Plain room (.int n)
  | text {room : Nat} (s : String) : Plain room (.text s)
  | list {room : Nat} {items : List Value} (h : ∀ v ∈ items, Plain room v) : Plain (room + 1) (.list items)

/-- Neither filler nor the end of a list. -/
def Starts (c : Char) : Prop := isGap c = false ∧ c ≠ '\n' ∧ c ≠ '\r' ∧ c ≠ '#' ∧ c ≠ ']'

instance (c : Char) : Decidable (Starts c) := inferInstanceAs (Decidable (_ ∧ _))

theorem skipFiller_starts {c : Char} (h : Starts c) (cs : List Char) : skipFiller false (c :: cs) = some (c :: cs) := by
  obtain ⟨hgap, hbreak, hreturn, hhash, -⟩ := h
  unfold skipFiller
  split <;> simp_all

theorem starts_of_ne {c : Char} (h : c.isDigit = true ∨ c = '-') : Starts c := by
  rcases h with h | rfl
  · have hne {d : Char} (hd : d.isDigit = false) : c ≠ d := ne_of_isDigit h hd
    refine ⟨?_, hne (by decide), hne (by decide), hne (by decide), hne (by decide)⟩
    simp [isGap, hne (d := ' ') (by decide), hne (d := '\t') (by decide)]
  · decide

/-- A value that is read back from its text, whatever follows it. -/
structure Reads (room : Nat) (v : Value) : Prop where
  start : ∃ c cs, (writeValue v).toList = c :: cs ∧ Starts c
  back : ∀ fuel rest, (writeValue v).toList.length ≤ fuel → Stops rest →
    readValue fuel room ((writeValue v).toList ++ rest) = some (v, rest)

theorem reads_bool (room : Nat) (b : Bool) : Reads room (.bool b) := by
  cases b
  all_goals
    refine ⟨⟨_, _, rfl, by decide⟩, fun fuel rest hfuel hrest => ?_⟩
    cases fuel with
    | zero => simp [writeValue] at hfuel
    | succ fuel => rfl

theorem reads_text (room : Nat) (s : String) : Reads room (.text s) := by
  obtain ⟨c, cs, hcs, hc⟩ := exists_writeText s
  refine ⟨⟨c, cs, hcs, by rcases hc with rfl | rfl <;> decide⟩, fun fuel rest hfuel hrest => ?_⟩
  rw [writeValue] at hfuel ⊢
  obtain ⟨fuel, rfl⟩ : ∃ n, fuel = n + 1 := ⟨fuel - 1, by
    simp only [hcs, List.length_cons] at hfuel
    omega⟩
  have hread := readText_writeText s hrest hfuel
  rw [hcs, List.cons_append] at hread ⊢
  rcases hc with rfl | rfl
  all_goals
    rw [readValue, hread]
    rfl

theorem readValue_number {c : Char} {cs : List Char} (hc : c.isDigit = true ∨ c = '-') (hmoment : readMoment (c :: cs) = none)
    (fuel room : Nat) : readValue (fuel + 1) room (c :: cs) = readNumber (c :: cs) := by
  have hne (d : Char) (hd : d.isDigit = false) (hd' : d ≠ '-') : c ≠ d := by
    rintro rfl
    simp [hd, hd'] at hc
  have ht := hne 't' (by decide) (by decide)
  have hf := hne 'f' (by decide) (by decide)
  have hq := hne '"' (by decide) (by decide)
  have hs := hne '\'' (by decide) (by decide)
  have hl := hne '[' (by decide) (by decide)
  have hb := hne '{' (by decide) (by decide)
  simp [readValue, ht, hf, hq, hs, hl, hb, hmoment]

theorem reads_int (room : Nat) {n : Int} (h : Fits n) : Reads room (.int n) := by
  have hchars := toList_int n
  by_cases hn : 0 ≤ n
  · rw [if_pos hn] at hchars
    obtain ⟨d, ds, hds, hd, -⟩ := exists_toDigits n.toNat
    refine ⟨⟨d, ds, hchars.trans hds, starts_of_ne (.inl hd)⟩, fun fuel rest hfuel hrest => ?_⟩
    have hread := readNumber_nat (n := n.toNat) (by rwa [Int.toNat_of_nonneg hn]) hrest
    have hmoment := readMoment_digits (fun _ => isDigit_of_mem_toDigits (n := n.toNat)) hrest
    rw [Int.toNat_of_nonneg hn] at hread
    rw [writeValue, hchars] at hfuel ⊢
    rw [hds, List.cons_append] at hread hmoment ⊢
    cases fuel with
    | zero => simp [hds] at hfuel
    | succ fuel => rw [readValue_number (.inl hd) hmoment, hread]
  · rw [if_neg hn] at hchars
    have hneg : ((-n).toNat : Int) = -n := Int.toNat_of_nonneg (by omega)
    refine ⟨⟨'-', _, hchars, by decide⟩, fun fuel rest hfuel hrest => ?_⟩
    have hread := readNumber_negative (n := (-n).toNat) (by rwa [hneg, Int.neg_neg]) hrest
    rw [hneg, Int.neg_neg] at hread
    rw [writeValue, hchars] at hfuel ⊢
    rw [List.cons_append]
    cases fuel with
    | zero => simp at hfuel
    | succ fuel => rw [readValue_number (.inr rfl) (readMoment_negative _), hread]

theorem toList_writeLines (v : Value) (items : List Value) : (writeLines (v :: items)).toList
    = [' ', ' ', ' ', ' '] ++ ((writeValue v).toList ++ (',' :: '\n' :: (writeLines items).toList)) := by
  simp [writeLines]

theorem skipFiller_indent (cs : List Char) :
    skipFiller false ('\n' :: ([' ', ' ', ' ', ' '] ++ cs)) = skipFiller false cs := by
  simp [skipFiller, isGap]

theorem skipFiller_comma (cs : List Char) : skipFiller false (',' :: cs) = some (',' :: cs) :=
  skipFiller_starts (by decide) cs

theorem skipFiller_closing (cs : List Char) : skipFiller false (']' :: cs) = some (']' :: cs) := by
  simp [skipFiller, isGap]

/-- The items of a list, one on a line, up to its end. -/
theorem readItems_writeLines {room : Nat} {v : Value} {items : List Value} (hv : Reads room v)
    (h : ∀ v ∈ items, Reads room v) (fuel : Nat) (done : List Value) (rest : List Char)
    (hfuel : (writeValue v).toList.length + (writeLines items).toList.length < fuel) :
    readItems fuel room done ((writeValue v).toList ++ (',' :: '\n' :: ((writeLines items).toList ++ ']' :: rest)))
      = some (done.reverse ++ v :: items, rest) := by
  induction items generalizing v fuel done with
  | nil =>
    obtain ⟨fuel, rfl⟩ : ∃ n, fuel = n + 1 := ⟨fuel - 1, by omega⟩
    have hend : skipFiller false ('\n' :: ((writeLines []).toList ++ ']' :: rest)) = some (']' :: rest) := by
      rw [skipFiller]
      exact skipFiller_closing rest
    rw [readItems, hv.back fuel _ (by omega) (stops_cons (by simp) _)]
    simp [skipFiller_comma, hend]
  | cons w items ih =>
    obtain ⟨hw, hitems⟩ := List.forall_mem_cons.1 h
    obtain ⟨c, cs, hcs, hc⟩ := hw.start
    obtain ⟨fuel, rfl⟩ : ∃ n, fuel = n + 1 := ⟨fuel - 1, by omega⟩
    simp only [toList_writeLines, List.length_append, List.length_cons] at hfuel
    have hread := ih hw hitems fuel (v :: done) (by omega)
    rw [hcs, List.cons_append] at hread
    have hnext : skipFiller false ('\n' :: ((writeLines (w :: items)).toList ++ ']' :: rest))
        = some (c :: (cs ++ (',' :: '\n' :: ((writeLines items).toList ++ ']' :: rest)))) := by
      rw [toList_writeLines, List.append_assoc, skipFiller_indent, hcs, List.append_assoc, List.cons_append,
        skipFiller_starts hc]
      rfl
    rw [readItems, hv.back fuel _ (by omega) (stops_cons (by simp) _)]
    simp only [Option.bind_eq_bind, Option.bind_some, skipFiller_comma, hnext]
    split
    · next heq => exact absurd (List.cons.inj heq).1 hc.2.2.2.2
    · rw [hread]
      simp

/-- A list of which the items are read as they are written. -/
theorem readValue_list {fuel room : Nat} {items : List Value} {c : Char} {cs more rest : List Char} (hc : Starts c)
    (hfiller : skipFiller false more = some (c :: cs))
    (hread : readItems fuel room [] (c :: cs) = some (items, rest)) :
    readValue (fuel + 1) (room + 1) ('[' :: more) = some (.list items, rest) := by
  simp only [readValue, hfiller, Option.bind_eq_bind, Option.bind_some]
  split
  · next heq => exact absurd (List.cons.inj heq).1 hc.2.2.2.2
  · rw [hread]
    rfl

theorem reads_list {room : Nat} {items : List Value} (h : ∀ v ∈ items, Reads room v) :
    Reads (room + 1) (.list items) := by
  match items, h with
  | [], _ =>
    refine ⟨⟨'[', [']'], rfl, by decide⟩, fun fuel rest hfuel hrest => ?_⟩
    cases fuel with
    | zero => simp [writeValue] at hfuel
    | succ fuel => rfl
  | [v], h =>
    have hv := h v List.mem_cons_self
    obtain ⟨c, cs, hcs, hc⟩ := hv.start
    have hwritten : (writeValue (.list [v])).toList = '[' :: ((writeValue v).toList ++ [']']) := by
      simp [writeValue, writeItems]
    refine ⟨⟨'[', _, hwritten, by decide⟩, fun fuel rest hfuel hrest => ?_⟩
    rw [hwritten] at hfuel ⊢
    simp only [List.length_cons, List.length_append] at hfuel
    obtain ⟨fuel, rfl⟩ : ∃ n, fuel = n + 1 := ⟨fuel - 1, by omega⟩
    obtain ⟨fuel, rfl⟩ : ∃ n, fuel = n + 1 := ⟨fuel - 1, by omega⟩
    have hread : readItems (fuel + 1) room [] ((writeValue v).toList ++ ']' :: rest) = some ([v], rest) := by
      rw [readItems, hv.back fuel _ (by omega) (stops_cons (by simp) _)]
      simp [skipFiller_closing]
    rw [List.cons_append, List.append_assoc, List.singleton_append]
    rw [hcs, List.cons_append] at hread ⊢
    exact readValue_list hc (skipFiller_starts hc _) hread
  | v :: w :: items, h =>
    obtain ⟨hv, hitems⟩ := List.forall_mem_cons.1 h
    obtain ⟨c, cs, hcs, hc⟩ := hv.start
    have hwritten : (writeValue (.list (v :: w :: items))).toList
        = '[' :: '\n' :: ((writeLines (v :: w :: items)).toList ++ [']']) := by
      simp [writeValue]
    refine ⟨⟨'[', _, hwritten, by decide⟩, fun fuel rest hfuel hrest => ?_⟩
    rw [hwritten, toList_writeLines] at hfuel ⊢
    simp only [List.length_cons, List.length_append] at hfuel
    obtain ⟨fuel, rfl⟩ : ∃ n, fuel = n + 1 := ⟨fuel - 1, by omega⟩
    have hread := readItems_writeLines hv hitems fuel [] rest (by omega)
    have hfiller : skipFiller false ('\n' :: ([' ', ' ', ' ', ' '] ++ ((writeValue v).toList
        ++ (',' :: '\n' :: ((writeLines (w :: items)).toList ++ ']' :: rest)))))
        = some (c :: (cs ++ (',' :: '\n' :: ((writeLines (w :: items)).toList ++ ']' :: rest)))) := by
      rw [skipFiller_indent, hcs, List.cons_append, skipFiller_starts hc]
    rw [hcs, List.cons_append] at hread
    have hlist := readValue_list hc hfiller hread
    simpa using hlist

theorem reads_plain {room : Nat} {v : Value} (h : Plain room v) : Reads room v := by
  induction h with
  | bool b => exact reads_bool _ b
  | int h => exact reads_int _ h
  | text s => exact reads_text _ s
  | list _ ih => exact reads_list ih

end Codemod.Data.Toml
