/-
The lines that a document is written in, read back as the statements that they are: a header, or a field on a line
of its own. Texts that are read as statements come one behind the other (`Gives.append`).
-/
import Codemod.Proofs.Data.Toml.Value

namespace Codemod.Data.Toml

open Text

/-! ## Keys -/

/-- A key that is written without quotes. -/
def BareKey (key : String) : Prop := key ≠ "" ∧ ∀ c ∈ key.toList, isBare c = true

instance (key : String) : Decidable (BareKey key) :=
  decidable_of_iff ((key != "" && key.toList.all isBare) = true) (by simp [BareKey])

variable {key last : String} {path : List String} {rest : List Char}

theorem BareKey.writeKey (h : BareKey key) : writeKey key = key := by
  have hempty : key.isEmpty = false := by simpa using h.1
  rw [Toml.writeKey, hempty, List.all_eq_true.2 h.2]
  rfl

theorem BareKey.start (h : BareKey key) : ∃ c cs, key.toList = c :: cs ∧ isBare c = true := by
  cases hkey : key.toList with
  | nil => exact absurd (String.toList_eq_nil_iff.1 hkey) h.1
  | cons c cs => exact ⟨c, cs, rfl, h.2 c (by simp [hkey])⟩

theorem ne_of_isBare {c d : Char} (hc : isBare c = true) (hd : isBare d = false) : c ≠ d := by
  rintro rfl
  rw [hc] at hd
  cases hd

theorem starts_of_isBare {c : Char} (hc : isBare c = true) : Starts c := by
  have hne {d : Char} (hd : isBare d = false) : c ≠ d := ne_of_isBare hc hd
  refine ⟨?_, hne (by decide), hne (by decide), hne (by decide), hne (by decide)⟩
  simp [isGap, hne (d := ' ') (by decide), hne (d := '\t') (by decide)]

theorem skipGap_starts {c : Char} (hc : Starts c) (cs : List Char) : skipGap (c :: cs) = c :: cs :=
  List.dropWhile_cons_of_neg (by simp [hc.1])

theorem BareKey.read (h : BareKey key) (hrest : ∀ c ∈ rest.head?, isBare c = false) (fuel : Nat) :
    readKeyPart fuel (key.toList ++ rest) = some (key, rest) := by
  have hname : (key.toList ++ rest).takeWhile isBare = key.toList := takeWhile_run h.2 hrest
  obtain ⟨c, cs, hcs, hc⟩ := h.start
  have hdouble := ne_of_isBare hc (d := '"') (by decide)
  have hsingle := ne_of_isBare hc (d := '\'') (by decide)
  have hdrop : (key.toList ++ rest).drop key.toList.length = rest := List.drop_left
  have hback : String.ofList key.toList = key := String.ofList_toList
  rw [hcs, List.cons_append] at hname hdrop ⊢
  rw [hcs] at hback
  simp [readKeyPart, hdouble, hsingle, hname, hback]

theorem toList_writePath_cons (hkey : BareKey key) (path : List String) (last : String) :
    (writePath (key :: (path ++ [last]))).toList = key.toList ++ '.' :: (writePath (path ++ [last])).toList := by
  rw [writePath, List.map_cons, String.intercalate_cons_of_ne_nil (by simp), hkey.writeKey]
  simp [writePath]

/-- A key of several parts, with a sign behind it that does not belong to it. -/
theorem readKeyParts_writePath {c : Char} {more : List Char} (hpath : ∀ key ∈ path, BareKey key) (hlast : BareKey last)
    (hrest : ∀ c ∈ rest.head?, isBare c = false) (hgap : skipGap rest = c :: more) (hdot : c ≠ '.')
    (fuel room : Nat) (hroom : path.length < room) :
    readKeyParts fuel room ((writePath (path ++ [last])).toList ++ rest) = some (path, last, c :: more) := by
  have hskip {key : String} (h : BareKey key) (cs : List Char) : skipGap (key.toList ++ cs) = key.toList ++ cs := by
    obtain ⟨d, ds, hds, hd⟩ := h.start
    rw [hds]
    exact skipGap_starts (starts_of_isBare hd) _
  induction path generalizing room with
  | nil =>
    obtain ⟨room, rfl⟩ : ∃ n, room = n + 1 := ⟨room - 1, by omega⟩
    have hwritten : writePath ([] ++ [last]) = last := by simp [writePath, hlast.writeKey]
    rw [hwritten, readKeyParts, hskip hlast, hlast.read hrest]
    simp only [Option.bind_eq_bind, Option.bind_some, hgap]
    split
    · next heq => exact absurd (List.cons.inj heq).1 hdot
    · rfl
  | cons key path ih =>
    obtain ⟨room, rfl⟩ : ∃ n, room = n + 1 := ⟨room - 1, by omega⟩
    obtain ⟨hkey, hpath⟩ := List.forall_mem_cons.1 hpath
    have hread := ih hpath room (by simpa using hroom)
    have hnext (cs : List Char) : skipGap ('.' :: cs) = '.' :: cs := rfl
    rw [List.cons_append, toList_writePath_cons hkey, List.append_assoc, List.cons_append, readKeyParts, hskip hkey,
      hkey.read fun c hc => by
        rw [← Option.some.inj hc]
        decide]
    simp only [Option.bind_eq_bind, Option.bind_some, hnext, hread]
    rfl

/-! ## Texts of statements -/

/-- A text that is read as statements, whatever stands behind it. -/
structure Gives (cs : List Char) (sts : List Statement) : Prop where
  length : sts.length ≤ cs.length
  read : ∀ fuel done rest, cs.length + rest.length < fuel →
    readStatements fuel done (cs ++ rest) = readStatements (fuel - sts.length) (sts.reverse ++ done) rest

theorem Gives.nil : Gives [] [] := ⟨le_rfl, fun _ _ _ _ => rfl⟩

theorem Gives.append {cs ds : List Char} {s t : List Statement} (h : Gives cs s) (h' : Gives ds t) :
    Gives (cs ++ ds) (s ++ t) := by
  have hlen := h.length
  have hlen' := h'.length
  refine ⟨by simp only [List.length_append]; omega, fun fuel done rest hfuel => ?_⟩
  simp only [List.length_append] at hfuel
  rw [List.append_assoc, h.read fuel done _ (by simp only [List.length_append]; omega), h'.read _ _ _ (by omega)]
  simp [Nat.sub_sub]

theorem gives_newline : Gives ['\n'] [] := by
  refine ⟨Nat.zero_le _, fun fuel done rest hfuel => ?_⟩
  obtain ⟨fuel, rfl⟩ : ∃ n, fuel = n + 1 := ⟨fuel - 1, by omega⟩
  rfl

/-- A statement on a line of its own. -/
theorem gives_line {line : List Char} {st : Statement} (hstart : ∃ c cs, line = c :: cs ∧ Starts c)
    (hread : ∀ fuel rest, line.length ≤ fuel → readStatement fuel (line ++ '\n' :: rest) = some (st, '\n' :: rest)) :
    Gives (line ++ ['\n']) [st] := by
  obtain ⟨c, cs, rfl, hc⟩ := hstart
  refine ⟨by simp, fun fuel done rest hfuel => ?_⟩
  simp only [List.length_append, List.length_cons] at hfuel
  obtain ⟨fuel, rfl⟩ : ∃ n, fuel = n + 1 := ⟨fuel - 1, by omega⟩
  have hst := hread fuel rest (by simp only [List.length_cons]; omega)
  have hend : lineEnd? ('\n' :: rest) = some rest := rfl
  rw [List.append_assoc, List.singleton_append]
  rw [List.cons_append] at hst ⊢
  simp [readStatements, skipFiller_starts hc, hst, hend]

/-- Behind a header's keys comes a bracket. -/
theorem readKey_header (hpath : ∀ key ∈ path, BareKey key) (hlast : BareKey last) (hdepth : path.length < maxDepth)
    (fuel : Nat) (rest : List Char) :
    readKey fuel ((writePath (path ++ [last])).toList ++ ']' :: rest) = some (path, last, ']' :: rest) :=
  readKeyParts_writePath hpath hlast
    (fun c hc => by
      rw [← Option.some.inj hc]
      decide)
    rfl (by decide) fuel maxDepth hdepth

theorem exists_writePath (hpath : ∀ key ∈ path, BareKey key) (hlast : BareKey last) :
    ∃ c cs, (writePath (path ++ [last])).toList = c :: cs ∧ isBare c = true := by
  cases path with
  | nil =>
    obtain ⟨c, cs, hcs, hc⟩ := hlast.start
    exact ⟨c, cs, by simp [writePath, hlast.writeKey, hcs], hc⟩
  | cons key path =>
    obtain ⟨c, cs, hcs, hc⟩ := (hpath key List.mem_cons_self).start
    refine ⟨c, cs ++ '.' :: (writePath (path ++ [last])).toList, ?_, hc⟩
    rw [List.cons_append, toList_writePath_cons (hpath key List.mem_cons_self), hcs]
    rfl

theorem gives_table (hpath : ∀ key ∈ path, BareKey key) (hlast : BareKey last) (hdepth : path.length < maxDepth) :
    Gives ("[" ++ writePath (path ++ [last]) ++ "]\n").toList [.table path last] := by
  have hwritten : ("[" ++ writePath (path ++ [last]) ++ "]\n").toList
      = '[' :: ((writePath (path ++ [last])).toList ++ [']']) ++ ['\n'] := by simp
  rw [hwritten]
  refine gives_line ⟨'[', _, rfl, by decide⟩ fun fuel rest _ => ?_
  obtain ⟨c, cs, hcs, hc⟩ := exists_writePath hpath hlast
  have hread := readKey_header hpath hlast hdepth fuel ('\n' :: rest)
  have hbracket := ne_of_isBare hc (d := '[') (by decide)
  rw [List.cons_append, List.append_assoc, List.singleton_append]
  rw [hcs, List.cons_append] at hread ⊢
  simp [readStatement, hbracket, readHeader, hread]

theorem gives_item (hpath : ∀ key ∈ path, BareKey key) (hlast : BareKey last) (hdepth : path.length < maxDepth) :
    Gives ("[[" ++ writePath (path ++ [last]) ++ "]]\n").toList [.item path last] := by
  have hwritten : ("[[" ++ writePath (path ++ [last]) ++ "]]\n").toList
      = '[' :: '[' :: ((writePath (path ++ [last])).toList ++ [']', ']']) ++ ['\n'] := by simp
  rw [hwritten]
  refine gives_line ⟨'[', _, rfl, by decide⟩ fun fuel rest _ => ?_
  have hread := readKey_header hpath hlast hdepth fuel (']' :: '\n' :: rest)
  rw [List.cons_append, List.cons_append, List.append_assoc]
  simp only [List.cons_append, List.nil_append]
  simp [readStatement, readHeader, hread]

/-- Behind the key of a field come a blank and the sign that binds it. -/
theorem readKey_field (hkey : BareKey key) (fuel : Nat) (more : List Char) :
    readKey fuel (key.toList ++ (' ' :: '=' :: more)) = some ([], key, '=' :: more) := by
  have hwritten : writePath ([] ++ [key]) = key := by simp [writePath, hkey.writeKey]
  have hread : readKeyParts fuel maxDepth ((writePath ([] ++ [key])).toList ++ (' ' :: '=' :: more))
      = some ([], key, '=' :: more) := by
    refine readKeyParts_writePath (List.forall_mem_nil _) hkey (fun c hc => ?_) rfl (by decide) fuel maxDepth (by decide)
    rw [← Option.some.inj hc]
    decide
  rwa [hwritten] at hread

theorem gives_field {v : Value} (hkey : BareKey key) (hv : Plain maxDepth v) :
    Gives (writeKey key ++ " = " ++ writeValue v ++ "\n").toList [.assign [] key v] := by
  obtain ⟨c, cs, hcs, hc⟩ := hkey.start
  obtain ⟨⟨x, xs, hxs, hx⟩, hback⟩ := reads_plain hv
  have hwritten : (writeKey key ++ " = " ++ writeValue v ++ "\n").toList
      = key.toList ++ (' ' :: '=' :: ' ' :: (writeValue v).toList) ++ ['\n'] := by simp [hkey.writeKey]
  rw [hwritten]
  refine gives_line ⟨c, _, by rw [hcs, List.cons_append], starts_of_isBare hc⟩ fun fuel rest hfuel => ?_
  have hbracket := ne_of_isBare hc (d := '[') (by decide)
  have hread := readKey_field hkey fuel (' ' :: ((writeValue v).toList ++ '\n' :: rest))
  have hgap : skipGap (' ' :: ((writeValue v).toList ++ '\n' :: rest)) = (writeValue v).toList ++ '\n' :: rest := by
    rw [hxs]
    exact skipGap_starts hx _
  have hvalue := hback fuel ('\n' :: rest) (by
    simp only [List.length_append, List.length_cons] at hfuel
    omega) (stops_cons (by simp) rest)
  rw [List.append_assoc]
  simp only [List.cons_append]
  rw [hcs, List.cons_append] at hread ⊢
  simp [readStatement, hbracket, hread, hgap, hvalue]

end Codemod.Data.Toml
