/-
What is written as JSON is read back: `parse?` finds the value that `write` has written, if its numbers are
integers. A written value has no line breaks in it, so that one line holds one value.
-/
import Codemod.Data.Json
import Codemod.Proofs.Text.Bytes
import Codemod.Proofs.Text.Digits

namespace Codemod.Data

open Text

/-- Values that JSON has a form for: numbers are integers, and there are no dates. -/
inductive Value.Exact : Value → Prop
  | null : Exact .null
  | bool (b : Bool) : Exact (.bool b)
  | int (n : Int) : Exact (.int n)
  | text (s : String) : Exact (.text s)
  | list {items : List Value} (h : ∀ v ∈ items, v.Exact) : Exact (.list items)
  | table {es : List (String × Value)} (h : ∀ e ∈ es, e.2.Exact) : Exact (.table es)

namespace Json

/-! ## The characters that are written -/

def stringChars (s : String) : List Char := '"' :: (s.toList.flatMap escapeChar ++ ['"'])

mutual

/-- The text of a value as characters. -/
def chars : Value → List Char
  | .null => ['n', 'u', 'l', 'l']
  | .bool b => if b then ['t', 'r', 'u', 'e'] else ['f', 'a', 'l', 's', 'e']
  | .int n => (toString n).toList
  | .float text => text.toList
  | .moment text => stringChars text
  | .text s => stringChars s
  | .list items => '[' :: (itemChars items ++ [']'])
  | .table es => '{' :: (entryChars es ++ ['}'])

def itemChars : List Value → List Char
  | [] => []
  | [v] => chars v
  | v :: items => chars v ++ ',' :: itemChars items

def entryChars : List (String × Value) → List Char
  | [] => []
  | [(key, v)] => stringChars key ++ ':' :: chars v
  | (key, v) :: es => stringChars key ++ ':' :: (chars v ++ ',' :: entryChars es)

end

mutual

theorem append_toList (out : String) (v : Value) : (append out v).toList = out.toList ++ chars v := by
  cases v with
  | null => simp [append, chars]
  | bool b => cases b <;> simp [append, chars]
  | int n => simp [append, chars]
  | float text => simp [append, chars]
  | moment text => simp [append, chars, string, stringChars]
  | text s => simp [append, chars, string, stringChars]
  | list items => simp [append, chars, appendItems_toList]
  | table es => simp [append, chars, appendEntries_toList]

theorem appendItems_toList (out : String) (items : List Value) :
    (appendItems out items).toList = out.toList ++ itemChars items := by
  match items with
  | [] => simp [appendItems, itemChars]
  | [v] => simp [appendItems, itemChars, append_toList]
  | v :: w :: items => simp [appendItems, itemChars, append_toList, appendItems_toList]

theorem appendEntries_toList (out : String) (es : List (String × Value)) :
    (appendEntries out es).toList = out.toList ++ entryChars es := by
  match es with
  | [] => simp [appendEntries, entryChars]
  | [(key, v)] => simp [appendEntries, entryChars, append_toList, string, stringChars]
  | (key, v) :: e :: es =>
    simp [appendEntries, entryChars, append_toList, appendEntries_toList, string, stringChars]

end

theorem write_toList (v : Value) : (write v).toList = chars v := by
  rw [write, append_toList]
  simp

/-! ## Strings -/

theorem readUnit_control : ∀ n < 32, readUnit ['0', '0', Hex.digit (n / 16), Hex.digit (n % 16)] = some (n, []) := by
  decide

theorem readUnit_append {cs : List Char} {n : Nat} (h : readUnit cs = some (n, [])) (hlen : cs.length = 4)
    (rest : List Char) : readUnit (cs ++ rest) = some (n, rest) := by
  unfold readUnit at h ⊢
  rw [List.take_left' hlen, List.drop_left' hlen]
  rw [List.take_of_length_le (by omega), List.drop_of_length_le (by omega)] at h
  simp only [Option.ite_none_right_eq_some, Option.some.injEq, Prod.mk.injEq, and_true] at h
  simp [h.1, h.2]

/-- One character of a string, however it is escaped. -/
theorem readString_escapeChar (c : Char) (fuel : Nat) (done rest : List Char) :
    readString (fuel + 1) done (escapeChar c ++ rest) = readString fuel (c :: done) rest := by
  unfold escapeChar
  by_cases hquote : c = '"'
  · subst hquote
    rfl
  by_cases hslash : c = '\\'
  · subst hslash
    rfl
  have hq : (c == '"') = false := by simpa using hquote
  have hs : (c == '\\') = false := by simpa using hslash
  simp only [hq, hs, Bool.false_eq_true, if_false]
  split
  · next hcontrol =>
    by_cases hb : c = '\x08'
    · subst hb
      rfl
    by_cases ht : c = '\t'
    · subst ht
      rfl
    by_cases hn : c = '\n'
    · subst hn
      rfl
    by_cases hf : c = '\x0c'
    · subst hf
      rfl
    by_cases hr : c = '\r'
    · subst hr
      rfl
    simp only [beq_iff_eq, hb, ht, hn, hf, hr, if_false]
    have hunit := readUnit_append (readUnit_control c.toNat hcontrol) rfl rest
    have hcode : readCode (['0', '0', Hex.digit (c.toNat / 16), Hex.digit (c.toNat % 16)] ++ rest)
        = some (c, rest) := by
      have hvalid : c.toNat.isValidChar := c.valid
      simp only [readCode, hunit, Option.bind_eq_bind, Option.bind_some]
      rw [if_neg (by omega), if_pos hvalid, Char.ofNat_toNat]
      rfl
    simp only [List.cons_append, List.nil_append] at hcode ⊢
    simp only [readString, hcode, Option.bind_eq_bind, Option.bind_some]
  · next hplain => simp [readString, hslash, hplain]

theorem readString_chars (cs : List Char) {fuel : Nat} (hfuel : cs.length < fuel) (done rest : List Char) :
    readString fuel done (cs.flatMap escapeChar ++ '"' :: rest)
      = some (String.ofList (done.reverse ++ cs), rest) := by
  induction cs generalizing fuel done with
  | nil =>
    obtain ⟨fuel, rfl⟩ : ∃ n, fuel = n + 1 := ⟨fuel - 1, by omega⟩
    simp [readString]
  | cons c cs ih =>
    obtain ⟨fuel, rfl⟩ : ∃ n, fuel = n + 1 := ⟨fuel - 1, by omega⟩
    rw [List.flatMap_cons, List.append_assoc, readString_escapeChar, ih (by simpa using hfuel)]
    simp

theorem length_escapeChar (c : Char) : 0 < (escapeChar c).length := by
  unfold escapeChar
  repeat' split
  all_goals simp

theorem length_le_flatMap (cs : List Char) : cs.length ≤ (cs.flatMap escapeChar).length := by
  induction cs with
  | nil => simp
  | cons c cs ih =>
    have := length_escapeChar c
    simp only [List.flatMap_cons, List.length_append, List.length_cons]
    omega

theorem readString_stringChars (s : String) (fuel : Nat) (hfuel : (stringChars s).length ≤ fuel + 1)
    (rest : List Char) :
    readString fuel [] (s.toList.flatMap escapeChar ++ '"' :: rest) = some (s, rest) := by
  have hlen := length_le_flatMap s.toList
  simp only [stringChars, List.length_cons, List.length_append, List.length_nil] at hfuel
  rw [readString_chars s.toList (by omega)]
  simp

/-! ## Numbers -/

/-- What may stand behind a number. -/
def Ends (rest : List Char) : Prop := ∀ c ∈ rest.head?, c.isDigit = false ∧ c ≠ '.' ∧ c ≠ 'e' ∧ c ≠ 'E'

theorem digitsValue_toDigits (n : Nat) : digitsValue (Nat.toDigits 10 n) = n :=
  Nat.ofDigitChars_ten_toDigits

theorem readFraction_of_ends {rest : List Char} (h : Ends rest) : readFraction rest = some ([], rest) := by
  unfold readFraction
  split
  · exact absurd rfl (h _ rfl).2.1
  · rfl

theorem readExponent_of_ends {rest : List Char} (h : Ends rest) : readExponent rest = some ([], rest) := by
  cases rest with
  | nil => rfl
  | cons c rest =>
    obtain ⟨-, -, he, hE⟩ := h c rfl
    simp [readExponent, he, hE]

/-- The digits of a number, and what comes behind them. -/
structure Digits (cs rest : List Char) (n : Nat) : Prop where
  taken : cs.takeWhile Char.isDigit = Nat.toDigits 10 n
  left : cs.dropWhile Char.isDigit = rest
  unpadded : (decide (1 < (Nat.toDigits 10 n).length) && (Nat.toDigits 10 n).head? == some '0') = false
  unsigned : cs.head? ≠ some '-'

theorem digits_append (n : Nat) {rest : List Char} (h : Ends rest) : Digits (Nat.toDigits 10 n ++ rest) rest n where
  taken := takeWhile_run (fun _ => isDigit_of_mem_toDigits) fun c hc => (h c hc).1
  left := dropWhile_run (fun _ => isDigit_of_mem_toDigits) fun c hc => (h c hc).1
  unpadded := by
    by_cases hzero : (Nat.toDigits 10 n).head? = some '0'
    · rw [head?_toDigits hzero]
      rfl
    · simp [hzero]
  unsigned := by
    obtain ⟨d, ds, hds, hd, -⟩ := exists_toDigits n
    rw [hds]
    simpa using ne_of_isDigit hd (by decide)

theorem readNumber_nat {cs rest : List Char} {n : Nat} (h : Ends rest) (hcs : Digits cs rest n) :
    readNumber cs = some (.int n, rest) := by
  obtain ⟨htaken, hleft, hunpadded, hunsigned⟩ := hcs
  unfold readNumber
  split
  next negative body hsign =>
    split at hsign
    · exact absurd rfl hunsigned
    · obtain ⟨rfl, rfl⟩ := Prod.mk.inj hsign
      simp [htaken, hleft, hunpadded, readFraction_of_ends h, readExponent_of_ends h, digitsValue_toDigits]

theorem readNumber_negative {cs rest : List Char} {n : Nat} (hn : n ≠ 0) (h : Ends rest) (hcs : Digits cs rest n) :
    readNumber ('-' :: cs) = some (.int (-n), rest) := by
  obtain ⟨htaken, hleft, hunpadded, hunsigned⟩ := hcs
  simp [readNumber, htaken, hleft, hunpadded, readFraction_of_ends h, readExponent_of_ends h,
    digitsValue_toDigits, hn]

theorem readNumber_int (n : Int) {rest : List Char} (h : Ends rest) :
    readNumber ((toString n).toList ++ rest) = some (.int n, rest) := by
  rw [toList_int]
  by_cases hn : 0 ≤ n
  · have hread := readNumber_nat h (digits_append n.toNat h)
    rw [Int.toNat_of_nonneg hn] at hread
    rw [if_pos hn, hread]
  · have hread := readNumber_negative (by omega) h (digits_append (-n).toNat h)
    rw [Int.toNat_of_nonneg (by omega), Int.neg_neg] at hread
    rw [if_neg hn, List.cons_append, hread]

/-! ## Values -/

theorem skip_cons {c : Char} (hc : isSpace c = false) (cs : List Char) : skip (c :: cs) = c :: cs :=
  List.dropWhile_cons_of_neg (by simp [hc])

/-- A value that is read back from its text, whatever follows it. -/
structure Reads (v : Value) : Prop where
  start : ∃ c cs, chars v = c :: cs ∧ isSpace c = false ∧ c ≠ ']'
  back : ∀ fuel rest, (chars v).length ≤ fuel → Ends rest → read fuel (chars v ++ rest) = some (v, rest)

theorem ends_cons {c : Char} (h : c = ',' ∨ c = ']' ∨ c = '}') (rest : List Char) : Ends (c :: rest) := by
  intro d hd
  obtain rfl := Option.some.inj hd
  rcases h with rfl | rfl | rfl <;> decide

theorem exists_int_chars (n : Int) : ∃ c cs, (toString n).toList = c :: cs ∧ (c.isDigit = true ∨ c = '-') := by
  rw [toList_int]
  split
  · obtain ⟨d, ds, hds, hd, -⟩ := exists_toDigits n.toNat
    exact ⟨d, ds, hds, .inl hd⟩
  · exact ⟨'-', Nat.toDigits 10 (-n).toNat, rfl, .inr rfl⟩

theorem not_space_of_digit {c : Char} (h : c.isDigit = true ∨ c = '-') : isSpace c = false ∧ c ≠ ']' := by
  have hne (d : Char) (hd : d.isDigit = false) (hd' : d ≠ '-') : c ≠ d := by
    intro hcd
    rw [hcd] at h
    simp [hd, hd'] at h
  refine ⟨?_, hne _ (by decide) (by decide)⟩
  simp only [isSpace, Bool.or_eq_false_iff, beq_eq_false_iff_ne]
  exact ⟨⟨⟨hne _ (by decide) (by decide), hne _ (by decide) (by decide)⟩,
    hne _ (by decide) (by decide)⟩, hne _ (by decide) (by decide)⟩

theorem read_number {c : Char} {cs : List Char} (hc : c.isDigit = true ∨ c = '-') (fuel : Nat) :
    read (fuel + 1) (c :: cs) = readNumber (c :: cs) := by
  have hne (d : Char) (hd : d.isDigit = false) (hd' : d ≠ '-') : c ≠ d := by
    intro hcd
    rw [hcd] at hc
    simp [hd, hd'] at hc
  have hn := hne 'n' (by decide) (by decide)
  have ht := hne 't' (by decide) (by decide)
  have hf := hne 'f' (by decide) (by decide)
  have hq := hne '"' (by decide) (by decide)
  have hl := hne '[' (by decide) (by decide)
  have hb := hne '{' (by decide) (by decide)
  rw [read, skip_cons (not_space_of_digit hc).1]
  simp [hn, ht, hf, hq, hl, hb]

theorem reads_int (n : Int) : Reads (.int n) := by
  obtain ⟨c, cs, hcs, hc⟩ := exists_int_chars n
  refine ⟨⟨c, cs, hcs, not_space_of_digit hc⟩, fun fuel rest hfuel hrest => ?_⟩
  have hread := readNumber_int n hrest
  obtain ⟨fuel, rfl⟩ : ∃ m, fuel = m + 1 := ⟨fuel - 1, by
    simp only [chars, hcs, List.length_cons] at hfuel
    omega⟩
  rw [chars]
  rw [hcs, List.cons_append] at hread ⊢
  rw [read_number hc, hread]

theorem reads_text (s : String) : Reads (.text s) := by
  refine ⟨⟨'"', _, rfl, rfl, by decide⟩, fun fuel rest hfuel hrest => ?_⟩
  obtain ⟨fuel, rfl⟩ : ∃ m, fuel = m + 1 := ⟨fuel - 1, by
    simp only [chars, stringChars, List.length_cons] at hfuel
    omega⟩
  have hread := readString_stringChars s _ hfuel rest
  simp [chars, stringChars, read, skip, isSpace, hread]

theorem reads_null : Reads .null := by
  refine ⟨⟨'n', _, rfl, rfl, by decide⟩, fun fuel rest hfuel hrest => ?_⟩
  cases fuel with
  | zero => simp [chars] at hfuel
  | succ fuel => rfl

theorem reads_bool (b : Bool) : Reads (.bool b) := by
  cases b
  all_goals
    refine ⟨⟨_, _, rfl, rfl, by decide⟩, fun fuel rest hfuel hrest => ?_⟩
    cases fuel with
    | zero => simp [chars] at hfuel
    | succ fuel => rfl

theorem readItems_chars {items : List Value} (hne : items ≠ []) (h : ∀ v ∈ items, Reads v) (fuel : Nat)
    (hfuel : (itemChars items).length < fuel) (done : List Value) (rest : List Char) :
    readItems fuel done (itemChars items ++ ']' :: rest) = some (done.reverse ++ items, rest) := by
  induction items generalizing fuel done with
  | nil => exact absurd rfl hne
  | cons v items ih =>
    obtain ⟨fuel, rfl⟩ : ∃ m, fuel = m + 1 := ⟨fuel - 1, by omega⟩
    obtain ⟨hv, hitems⟩ := List.forall_mem_cons.1 h
    cases items with
    | nil =>
      rw [itemChars] at hfuel ⊢
      rw [readItems, hv.back fuel _ (by omega) (ends_cons (by simp) rest)]
      simp [skip_cons (show isSpace ']' = false from rfl)]
    | cons w items =>
      simp only [itemChars, List.length_append, List.length_cons] at hfuel ⊢
      rw [List.append_assoc, List.cons_append, readItems, hv.back fuel _ (by omega) (ends_cons (by simp) _)]
      simp only [skip_cons (show isSpace ',' = false from rfl)]
      rw [ih (by simp) hitems fuel (by omega)]
      simp

theorem readEntries_chars {es : List (String × Value)} (hne : es ≠ []) (h : ∀ e ∈ es, Reads e.2) (fuel : Nat)
    (hfuel : (entryChars es).length < fuel) (done : List (String × Value)) (rest : List Char) :
    readEntries fuel done (entryChars es ++ '}' :: rest) = some (done.reverse ++ es, rest) := by
  induction es generalizing fuel done with
  | nil => exact absurd rfl hne
  | cons e es ih =>
    obtain ⟨key, v⟩ := e
    obtain ⟨fuel, rfl⟩ : ∃ m, fuel = m + 1 := ⟨fuel - 1, by omega⟩
    obtain ⟨hv, hes⟩ := List.forall_mem_cons.1 h
    replace hv : Reads v := hv
    have hquote : isSpace '"' = false := rfl
    have hcolon : isSpace ':' = false := rfl
    cases es with
    | nil =>
      simp only [entryChars, List.length_append, List.length_cons] at hfuel
      have hkey (more : List Char) := readString_stringChars key fuel (by omega) more
      have hread := hv.back fuel ('}' :: rest) (by omega) (ends_cons (by simp) rest)
      simp [entryChars, stringChars, readEntries, skip_cons, hquote, hcolon, hkey, hread,
        show isSpace '}' = false from rfl]
    | cons f es =>
      simp only [entryChars, List.length_append, List.length_cons] at hfuel
      have hkey (more : List Char) := readString_stringChars key fuel (by omega) more
      have hread (more : List Char) := hv.back fuel (',' :: more) (by omega) (ends_cons (by simp) more)
      have hrest := ih (by simp) hes fuel (by omega) ((key, v) :: done)
      simp [entryChars, stringChars, readEntries, skip_cons, hquote, hcolon, hkey, hread,
        show isSpace ',' = false from rfl, hrest]

theorem exists_itemChars {v : Value} (h : Reads v) (items : List Value) :
    ∃ c cs, itemChars (v :: items) = c :: cs ∧ isSpace c = false ∧ c ≠ ']' := by
  obtain ⟨c, cs, hcs, hc⟩ := h.start
  cases items with
  | nil => exact ⟨c, cs, hcs, hc⟩
  | cons w items => exact ⟨c, cs ++ ',' :: itemChars (w :: items), by simp [itemChars, hcs], hc⟩

theorem reads_list {items : List Value} (h : ∀ v ∈ items, Reads v) : Reads (.list items) := by
  refine ⟨⟨'[', _, rfl, rfl, by decide⟩, fun fuel rest hfuel hrest => ?_⟩
  simp only [chars, List.length_cons, List.length_append] at hfuel
  obtain ⟨fuel, rfl⟩ : ∃ m, fuel = m + 1 := ⟨fuel - 1, by omega⟩
  cases items with
  | nil => rfl
  | cons v items =>
    have hread := readItems_chars (by simp) h fuel (by omega) [] rest
    obtain ⟨c, cs, hcs, hc, hclosing⟩ := exists_itemChars (List.forall_mem_cons.1 h).1 items
    rw [hcs, List.cons_append] at hread
    rw [chars, List.cons_append, read, skip_cons (show isSpace '[' = false from rfl)]
    simp only [List.append_assoc, hcs, List.cons_append, List.nil_append, skip_cons hc]
    simp [hclosing, hread]

theorem exists_entryChars (e : String × Value) (es : List (String × Value)) :
    ∃ cs, entryChars (e :: es) = '"' :: cs := by
  cases es <;> exact ⟨_, rfl⟩

theorem reads_table {es : List (String × Value)} (h : ∀ e ∈ es, Reads e.2) : Reads (.table es) := by
  refine ⟨⟨'{', _, rfl, rfl, by decide⟩, fun fuel rest hfuel hrest => ?_⟩
  simp only [chars, List.length_cons, List.length_append] at hfuel
  obtain ⟨fuel, rfl⟩ : ∃ m, fuel = m + 1 := ⟨fuel - 1, by omega⟩
  cases es with
  | nil => rfl
  | cons e es =>
    have hread := readEntries_chars (by simp) h fuel (by omega) [] rest
    obtain ⟨cs, hcs⟩ := exists_entryChars e es
    rw [hcs, List.cons_append] at hread
    rw [chars, List.cons_append, read, skip_cons (show isSpace '{' = false from rfl)]
    simp only [List.append_assoc, hcs, List.cons_append, List.nil_append,
      skip_cons (show isSpace '"' = false from rfl)]
    simp [hread]

theorem reads_exact {v : Value} (h : v.Exact) : Reads v := by
  induction h with
  | null => exact reads_null
  | bool b => exact reads_bool b
  | int n => exact reads_int n
  | text s => exact reads_text s
  | list _ ih => exact reads_list ih
  | table _ ih => exact reads_table ih

/-- **What is written is read back.** -/
theorem parse_write {v : Value} (h : v.Exact) : parse? (write v) = some v := by
  have hlength : (chars v).length ≤ 2 * (write v).utf8ByteSize + 2 := by
    have hbytes := length_le_byteCount (write v).toList
    rw [← utf8ByteSize_eq, write_toList] at hbytes
    omega
  have hread := (reads_exact h).back _ [] hlength nofun
  rw [List.append_nil] at hread
  rw [parse?, write_toList, hread]
  rfl

/-! ## Lines -/

theorem not_newline_escapeChar (c : Char) : '\n' ∉ escapeChar c := by
  have hdigit : ∀ n < 16, '\n' ≠ Hex.digit n := by decide
  unfold escapeChar
  repeat' split
  all_goals try decide
  · next hcontrol _ _ _ _ _ =>
    have h1 := hdigit (c.toNat / 16) (by omega)
    have h2 := hdigit (c.toNat % 16) (by omega)
    simp [h1, h2]
  · next hcontrol =>
    intro hmem
    obtain rfl := List.mem_singleton.1 hmem
    exact hcontrol (by decide)

theorem not_newline_string (s : String) : '\n' ∉ stringChars s := by
  simp [stringChars, not_newline_escapeChar]

theorem not_newline_int (n : Int) : '\n' ∉ (toString n).toList := by
  have hdigits (m : Nat) : '\n' ∉ Nat.toDigits 10 m := fun h => absurd (isDigit_of_mem_toDigits h) (by decide)
  rw [toList_int]
  split
  · exact hdigits n.toNat
  · simpa using hdigits (-n).toNat

theorem not_newline_items {items : List Value} (h : ∀ v ∈ items, '\n' ∉ chars v) : '\n' ∉ itemChars items := by
  induction items with
  | nil => simp [itemChars]
  | cons v items ih =>
    obtain ⟨hv, hitems⟩ := List.forall_mem_cons.1 h
    cases items with
    | nil => exact hv
    | cons w items => simp [itemChars, hv, ih hitems]

theorem not_newline_entries {es : List (String × Value)} (h : ∀ e ∈ es, '\n' ∉ chars e.2) :
    '\n' ∉ entryChars es := by
  induction es with
  | nil => simp [entryChars]
  | cons e es ih =>
    obtain ⟨he, hes⟩ := List.forall_mem_cons.1 h
    replace he : '\n' ∉ chars e.2 := he
    cases es with
    | nil => simp [entryChars, not_newline_string, he]
    | cons f es => simp [entryChars, not_newline_string, he, ih hes]

/-- **A written value stands on one line.** -/
theorem not_newline_write {v : Value} (h : v.Exact) : '\n' ∉ (write v).toList := by
  rw [write_toList]
  induction h with
  | null => decide
  | bool b => cases b <;> decide
  | int n => exact not_newline_int n
  | text s => exact not_newline_string s
  | list _ ih => simp [chars, not_newline_items ih]
  | table _ ih => simp [chars, not_newline_entries ih]

end Json

end Codemod.Data
