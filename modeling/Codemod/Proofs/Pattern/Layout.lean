/-
How much room the automata of a pattern take at most. Each step of laying out a pattern is given room, uses up some of
it and leaves the rest to the steps behind it (`Runs`). What a node needs is a sum over its parts (`Node.room`), in
either direction and however many states turn out to be shared, and a pattern that needs no more than the limit is
never refused (`fits_of_room`). It may still fit if it needs more.
-/
import Mathlib.Algebra.Order.BigOperators.Group.List
import Mathlib.Algebra.Order.Ring.Nat
import Codemod.Pattern.Layout

namespace Codemod.Pattern

open Unicode

namespace Build

variable {α β : Type} {m : Build α} {f : α → Build β} {p p' n k : Nat} {q : α → Nat} {r : β → Nat}

/-- Given room for `p`, an action succeeds and leaves room for as much as `q` says of its result. -/
def Runs (p : Nat) (m : Build α) (q : α → Nat) : Prop :=
  ∀ l : Layout, l.size + p ≤ sizeLimit → ∃ a l', m l = some (a, l') ∧ l'.size + q a ≤ l.size + p

/-- An action takes at most so much room. -/
def Takes (n : Nat) (m : Build α) : Prop := Runs n m fun _ => 0

theorem Runs.pure {a : α} (h : q a ≤ p) : Runs p (pure a) q := fun l _ => ⟨a, l, rfl, Nat.add_le_add_left h _⟩

theorem Runs.bind (hm : Runs p m q) (hf : ∀ a, Runs (q a) (f a) r) : Runs p (m >>= f) r := by
  intro l hl
  obtain ⟨a, l₁, h₁, hle₁⟩ := hm l hl
  obtain ⟨b, l₂, h₂, hle₂⟩ := hf a l₁ (Nat.le_trans hle₁ hl)
  refine ⟨b, l₂, ?_, Nat.le_trans hle₂ hle₁⟩
  show (m l).bind (fun o => f o.1 o.2) = _
  rw [h₁, Option.bind_some, h₂]

/-- Room that an action does not need is left. -/
theorem Runs.leaving (hm : Runs p m q) (hle : k + p ≤ p') : Runs p' m fun a => k + q a := by
  intro l hl
  obtain ⟨a, l', h, hleft⟩ := hm l (by omega)
  refine ⟨a, l', h, ?_⟩
  show l'.size + (k + q a) ≤ l.size + p'
  omega

theorem takes_pure (a : α) (n : Nat) : Takes n (pure a) := Runs.pure (Nat.zero_le _)

theorem Takes.mono (hm : Takes n m) (hle : n ≤ k) : Takes k m := Runs.leaving (k := 0) hm (by omega)

theorem Takes.leaving (hm : Takes n m) (hle : k + n ≤ p) : Runs p m fun _ => k := Runs.leaving hm hle

theorem Takes.bind (hm : Takes n m) (hf : ∀ a, Takes k (f a)) : Takes (n + k) (m >>= f) :=
  Runs.bind (hm.leaving (Nat.le_of_eq (Nat.add_comm k n))) hf

theorem takes_state (extra : Nat) : Takes (stateSize + extra) (state extra) := by
  intro l hl
  have hsize : (⟨l.states + 1, l.extra + extra⟩ : Layout).size = l.size + (stateSize + extra) := by
    simp only [Layout.size, Nat.mul_add]
    omega
  refine ⟨l.states, _, if_pos (hsize ▸ hl), ?_⟩
  rw [hsize]
  exact Nat.le_refl _

theorem takes_waysOut (n : Nat) : Takes (wayOutSize * n) (waysOut n) := by
  intro l hl
  have hsize : (⟨l.states, l.extra + wayOutSize * n⟩ : Layout).size = l.size + wayOutSize * n := by
    simp only [Layout.size]
    omega
  refine ⟨(), _, if_pos (hsize ▸ hl), ?_⟩
  rw [hsize]
  exact Nat.le_refl _

theorem takes_plain : Takes stateSize plain := (takes_state 0).bind fun _ => takes_pure () 0

theorem takes_fork (n : Nat) : Takes (stateSize + wayOutSize * n) (fork n) :=
  (takes_state _).bind fun _ => takes_pure () 0

theorem takes_leave (fromFork : Bool) : Takes wayOutSize (leave fromFork) := by
  unfold leave
  split
  · exact takes_waysOut 1
  · exact takes_pure () _

theorem takes_leave_return (fromFork ends : Bool) : Takes 4 (do leave fromFork; return ends) :=
  (takes_leave fromFork).bind fun _ => takes_pure ends 0

theorem takes_plains (n : Nat) : Takes (stateSize * n) (plains n) := by
  induction n with
  | zero => exact takes_pure () 0
  | succ n ih => exact (takes_plain.bind fun _ => ih).mono (by rw [Nat.mul_succ, Nat.add_comm])

/-- Going through a list, every element is given room of its own. -/
theorem Runs.foldlM {step : β → α → Build β} {w : β → Nat} {c : α → Nat}
    (h : ∀ b a, Runs (w b + c a) (step b a) w) (l : List α) (b : β) :
    Runs (w b + (l.map c).sum) (l.foldlM step b) w := by
  induction l generalizing b with
  | nil => exact .pure (Nat.le_refl _)
  | cons a l ih =>
    rw [List.foldlM_cons, List.map_cons, List.sum_cons]
    have hstep : Runs (w b + (c a + (l.map c).sum)) (step b a) fun b => (l.map c).sum + w b :=
      (h b a).leaving (by omega)
    exact hstep.bind fun b => Nat.add_comm _ _ ▸ ih b

theorem takes_forIn {body : α → PUnit → Build (ForInStep PUnit)} {c : α → Nat} {l : List α}
    (h : ∀ a ∈ l, Takes (c a) (body a ⟨⟩)) : Takes (l.map c).sum (forIn l ⟨⟩ body) := by
  induction l with
  | nil => exact takes_pure _ 0
  | cons a l ih =>
    rw [List.forIn_cons, List.map_cons, List.sum_cons]
    refine (h a List.mem_cons_self).bind fun o => ?_
    cases o with
    | done _ => exact takes_pure _ _
    | yield _ => exact ih fun a ha => h a (List.mem_cons_of_mem _ ha)

end Build

open Build

/-! ## Sets of characters -/

theorem takes_shareState (slots extra : Nat) (key : List Nat) (shared : Shared) :
    Takes (stateSize + extra) (shareState slots extra key shared) := by
  have hnew : Takes (stateSize + extra)
      (do let id ← state extra; return (id, shared.insert (slotOf slots key) (key, id)) : Build (Nat × Shared)) :=
    (takes_state extra).bind fun _ => takes_pure _ 0
  unfold shareState
  dsimp only
  split
  · split
    · exact takes_pure _ _
    · exact hnew
  · exact hnew

namespace SetStates

/-- What the states of a path need to be finished, with one more transition each. -/
def weight (path : List OpenState) : Nat :=
  (path.map fun s => stateSize + rangeSize + rangeSize * s.done.length).sum

theorem weight_cons (s : OpenState) (path : List OpenState) :
    weight (s :: path) = stateSize + rangeSize + rangeSize * s.done.length + weight path := rfl

theorem weight_opened (rs : ByteRanges) :
    weight (rs.map fun r => ⟨[], some r⟩) = (stateSize + rangeSize) * rs.length := by
  simp [weight, Function.comp_def, Nat.mul_comm]

theorem length_close (s : OpenState) (next : Nat) :
    rangeSize * (s.close next).done.length ≤ rangeSize * s.done.length + rangeSize := by
  unfold OpenState.close
  split
  · exact Nat.le_refl _
  · exact Nat.le_add_right _ _

/-- The path behind a state is finished, and the state itself may get one more transition. -/
theorem runs_finishPath (target : Nat) (s : OpenState) (rest : List OpenState) (shared : Shared) :
    Runs (weight rest + (rangeSize * s.done.length + rangeSize)) (finishPath target s rest shared)
      fun o => rangeSize * o.1.done.length := by
  induction rest generalizing s with
  | nil => exact .pure (Nat.le_trans (length_close s target) (Nat.le_add_left _ _))
  | cons t rest ih =>
    rw [weight_cons]
    refine ((ih t).leaving (k := rangeSize * s.done.length + rangeSize + stateSize) (by omega)).bind fun o => ?_
    refine ((takes_shareState _ _ _ _).leaving (k := rangeSize * s.done.length + rangeSize) (by omega)).bind
      fun o' => .pure ?_
    exact length_close s o'.1

theorem runs_add (target : Nat) (path : List OpenState) (shared : Shared) (piece : ByteRanges) :
    Runs (weight path + (stateSize + rangeSize) * piece.length) (add target path shared piece) fun o => weight o.1 := by
  induction path generalizing piece with
  | nil => exact .pure (Nat.zero_le _)
  | cons s rest ih =>
    cases piece with
    | nil => exact .pure (Nat.le_refl _)
    | cons r rs =>
      rw [add, weight_cons, List.length_cons, Nat.mul_succ]
      split
      · refine ((ih rs).leaving (k := stateSize + rangeSize + rangeSize * s.done.length) (by omega)).bind fun o => ?_
        exact .pure (Nat.le_refl _)
      · refine ((runs_finishPath target s rest shared).leaving
          (k := stateSize + rangeSize + (stateSize + rangeSize) * rs.length) (by omega)).bind fun o => .pure ?_
        show weight ({ o.1 with last := some r } :: rs.map fun r => ⟨[], some r⟩) ≤ _
        rw [weight_cons, weight_opened]
        dsimp only
        omega

end SetStates

/-- The bytes of the pieces of a set, with a way to each piece. -/
def piecesRoom (pieces : List ByteRanges) : Nat :=
  (pieces.map fun r => wayOutSize + (stateSize + rangeSize) * r.length).sum

theorem takes_forwardSet (pieces : List ByteRanges) :
    Takes (2 * stateSize + rangeSize + piecesRoom pieces) (forwardSet pieces) := by
  have hpieces : (pieces.map fun r => (stateSize + rangeSize) * r.length).sum ≤ piecesRoom pieces :=
    List.sum_le_sum fun r _ => Nat.le_add_left _ _
  have hstart : SetStates.weight [{}] = stateSize + rangeSize := rfl
  unfold forwardSet
  refine ((takes_state 0).leaving
    (k := SetStates.weight [{}] + (pieces.map fun r => (stateSize + rangeSize) * r.length).sum) (by omega)).bind
      fun target => ?_
  refine (Runs.foldlM (fun o r => SetStates.runs_add target o.1 o.2 r) pieces ([{}], ∅)).bind fun o => ?_
  dsimp only
  split
  · exact takes_pure _ _
  · next s rest hpath =>
    rw [hpath, SetStates.weight_cons]
    refine ((SetStates.runs_finishPath target s rest o.2).leaving (k := stateSize) (by omega)).bind fun o => ?_
    exact (takes_shareState _ _ _ _).bind fun _ => takes_pure _ 0

theorem takes_backwardSet (pieces : List ByteRanges) :
    Takes (2 * stateSize + piecesRoom pieces) (backwardSet pieces) := by
  have hpieces : wayOutSize * pieces.length + (pieces.map fun r => stateSize * r.length).sum ≤ piecesRoom pieces := by
    have hways : (pieces.map fun _ => wayOutSize).sum = wayOutSize * pieces.length := by simp [Nat.mul_comm]
    rw [← hways, ← List.sum_map_add]
    exact List.sum_le_sum fun r _ => Nat.add_le_add_left (Nat.mul_le_mul_right _ (Nat.le_add_right _ _)) _
  have hpiece (next : Nat) (shared : Shared) (r : ByteRanges) : Takes (stateSize * r.length)
      (r.foldlM (fun o p => shareState 1000 0 [o.1, p.1, p.2] o.2) (next, shared)) := by
    have hsum : (r.map fun _ => stateSize).sum = stateSize * r.length := by simp [Nat.mul_comm]
    have h := Runs.foldlM (w := fun _ : Nat × Shared => 0) (c := fun _ : Nat × Nat => stateSize)
      (fun o p => (takes_shareState 1000 0 [o.1, p.1, p.2] o.2).mono (by omega)) r (next, shared)
    exact Takes.mono h (by omega)
  unfold backwardSet
  have hall (target : Nat) := Runs.foldlM (w := fun _ : Shared => 0) (c := fun r : ByteRanges => stateSize * r.length)
    (fun shared r => ((hpiece target shared r).bind fun o => takes_pure o.2 0).mono (by omega)) pieces ∅
  exact ((takes_fork _).bind fun _ => (takes_state 0).bind fun target => Takes.bind (hall target) fun _ =>
    takes_pure _ 0).mono (by omega)

/-! ## Alternatives that are words -/

section

variable {α β : Type}

theorem sum_add_const (n : Nat) (g : α → Nat) (l : List α) :
    (l.map fun a => n + g a).sum = n * l.length + (l.map g).sum := by
  rw [List.sum_map_add, List.map_const', List.sum_replicate_nat, Nat.mul_comm]

theorem sum_foldl_le {f : β → α → β} {t : β → Nat} {c : α → Nat} (h : ∀ b a, t (f b a) ≤ t b + c a)
    (l : List α) (b : β) : t (l.foldl f b) ≤ t b + (l.map c).sum := by
  induction l generalizing b with
  | nil => exact Nat.le_refl _
  | cons a l ih =>
    rw [List.foldl_cons, List.map_cons, List.sum_cons]
    have h₁ := ih (f b a)
    have h₂ := h b a
    omega

variable [BEq α]

theorem length_eraseDups_le (l : List α) : l.eraseDups.length ≤ l.length := by
  induction hn : l.length using Nat.strongRecOn generalizing l with
  | ind n ih =>
    cases l with
    | nil => simp
    | cons a l =>
      have hle := List.length_filter_le (fun b => !b == a) l
      rw [List.length_cons] at hn
      have hrest := ih _ (by omega) (l.filter fun b => !b == a) rfl
      rw [List.eraseDups_cons, List.length_cons]
      omega

variable [LawfulBEq α]

theorem nodup_eraseDups (l : List α) : l.eraseDups.Nodup := by
  induction hn : l.length using Nat.strongRecOn generalizing l with
  | ind n ih =>
    cases l with
    | nil => simp
    | cons a l =>
      have hle := List.length_filter_le (fun b => !b == a) l
      rw [List.length_cons] at hn
      rw [List.eraseDups_cons, List.nodup_cons]
      exact ⟨by simp [List.mem_eraseDups], ih _ (by omega) (l.filter fun b => !b == a) rfl⟩

theorem sum_ite_le (o : Option α) (n : Nat) {keys : List α} (hkeys : keys.Nodup) :
    (keys.map fun a => if o == some a then n else 0).sum ≤ n := by
  induction hkeys with
  | nil => exact Nat.zero_le n
  | @cons a keys hne _ ih =>
    rw [List.map_cons, List.sum_cons]
    by_cases ha : o = some a
    · subst ha
      have hrest : ∀ c ∈ keys, (if some a == some c then n else 0) = 0 := fun c hc => if_neg (by simpa using hne c hc)
      rw [List.map_congr_left hrest]
      simp
    · simpa [ha] using ih

/-- Sharing out a list by keys, some may be left over. -/
theorem sum_filter_le (key : β → Option α) (g : β → Nat) {keys : List α} (hkeys : keys.Nodup) (l : List β) :
    (keys.map fun a => ((l.filter fun b => key b == some a).map g).sum).sum ≤ (l.map g).sum := by
  induction l with
  | nil => simp
  | cons b l ih =>
    have hcons (a : α) : (((b :: l).filter fun b => key b == some a).map g).sum
        = (if key b == some a then g b else 0) + ((l.filter fun b => key b == some a).map g).sum := by
      rw [List.filter_cons]
      split <;> simp
    simp only [hcons, List.sum_map_add, List.map_cons, List.sum_cons]
    exact Nat.add_le_add (sum_ite_le (key b) (g b) hkeys) ih

end

/-- Words are cut into stretches, one more than there are cuts at most. -/
theorem sum_stretches_le (g : List Nat → Nat) (k : Nat) (words : List (List Nat)) :
    ((stretches words).map fun s => k + (s.map g).sum).sum ≤ k + (words.map fun w => k + g w).sum := by
  let total (o : List (List (List Nat)) × List (List Nat) × Bool) : Nat :=
    (o.1.map fun s => k + (s.map g).sum).sum + (k + (o.2.1.map g).sum)
  have h := sum_foldl_le (t := total) (c := fun w => k + g w) (f := fun o w =>
      if !w.isEmpty then (o.1, w :: o.2.1, true)
      else if o.2.2 || o.1.isEmpty then (o.2.1.reverse :: o.1, [], o.2.2)
      else (o.1, o.2.1, o.2.2)) (by
    intro o w
    split
    · simp only [total, List.map_cons, List.sum_cons]
      omega
    · split
      · simp only [total, List.map_cons, List.sum_cons, List.map_reverse, List.sum_reverse, List.map_nil, List.sum_nil]
        omega
      · exact Nat.le_add_right _ _) words ([], [], false)
  obtain ⟨o, hle, hcut⟩ : ∃ o, total o ≤ total ([], [], false) + (words.map fun w => k + g w).sum ∧
      stretches words = (o.2.1.reverse :: o.1).reverse := ⟨_, h, rfl⟩
  have hstart : total ([], [], false) = k := by simp [total]
  rw [hcut, List.map_reverse, List.sum_reverse, List.map_cons, List.sum_cons, List.map_reverse, List.sum_reverse]
  dsimp only [total] at hle hstart
  omega

/-- The words with a first byte are shared out by it. -/
theorem sum_byFirst_le {g k : List Nat → Nat} (h : ∀ b w, g w ≤ k (b :: w)) (words : List (List Nat)) :
    ((byFirst words).map fun f => (f.map g).sum).sum ≤ (words.map k).sum := by
  refine Nat.le_trans ?_ (sum_filter_le List.head? k (nodup_eraseDups (words.filterMap (·.head?))) words)
  rw [byFirst, List.map_map]
  refine List.sum_le_sum fun b _ => ?_
  rw [Function.comp_apply, List.map_map]
  refine List.sum_le_sum fun w hw => ?_
  obtain ⟨w, rfl⟩ : ∃ rest, w = b :: rest := List.head?_eq_some_iff.1 (by simpa using (List.mem_filter.1 hw).2)
  exact h b w

theorem length_byFirst_le (words : List (List Nat)) : (byFirst words).length ≤ words.length := by
  rw [byFirst, List.length_map]
  exact Nat.le_trans (length_eraseDups_le _) (List.length_filterMap_le _ _)

/-- Room for each byte of a word and for its end, with what a word adds to the forks around it. -/
def wordRoom (w : List Nat) : Nat := 120 + 120 * w.length

theorem takes_sharedWords (fuel : Nat) {words : List (List Nat)} (hne : words ≠ []) :
    Takes (words.map wordRoom).sum (sharedWords fuel words) := by
  induction fuel generalizing words with
  | zero => exact takes_pure _ _
  | succ fuel ih =>
    rw [sharedWords]
    refine (Takes.bind (takes_forIn (c := fun s => 32 + (s.map fun w => 8 + 120 * w.length).sum) fun s _ => ?_)
      fun _ => takes_fork _).mono ?_
    · have hfollowers := sum_byFirst_le (g := wordRoom) (k := fun w => 120 * w.length)
        (fun _ _ => Nat.le_of_eq (Nat.add_comm _ _)) s
      have hlength := length_byFirst_le s
      have hbytes := sum_add_const 8 (fun w : List Nat => 120 * w.length) s
      refine (Takes.bind (takes_forIn (c := fun f => (f.map wordRoom).sum) fun f _ => ?_) (k := 32 + 8 * s.length)
        fun _ => ?_).mono (by omega)
      · split
        · next hany =>
          have hf : f ≠ [] := by
            rintro rfl
            simp at hany
          exact (ih hf).bind fun _ => takes_pure _ 0
        · exact takes_pure _ _
      · split
        · exact (takes_plain.bind fun _ => takes_pure _ 0).mono (Nat.le_add_right 32 _)
        · split
          · refine ((takes_state _).bind fun _ => takes_pure _ 0).mono ?_
            exact Nat.add_le_add_left (Nat.mul_le_mul_left 8 hlength) 32
          · exact takes_pure _ _
    · -- Eight for each stretch are what the fork behind them takes.
      have hcuts := sum_stretches_le (fun w => 8 + 120 * w.length) 40 words
      rw [sum_add_const, sum_add_const, sum_add_const 8] at hcuts
      have hpos := List.length_pos_of_ne_nil hne
      have hfilter := List.length_filter_le (fun s : List (List Nat) => !s.isEmpty) (stretches words)
      have hroom : (words.map wordRoom).sum = 120 * words.length + (words.map fun w => 120 * w.length).sum :=
        sum_add_const 120 _ words
      rw [sum_add_const]
      simp only [stateSize, wayOutSize]
      omega

/-! ## Whole patterns -/

/-- Room for a node, enough for either direction. Nothing counts as shared, and every round of a repetition is
written out. -/
def Node.room : Node → Nat
  | empty => 32
  | word cs => wordRoom (wordBytes cs)
  | chars s => 72 + 8 * s.ranges.length + piecesRoom (s.ranges.flatMap fun r => byteRanges r.1 r.2)
  | look _ => 32
  | group _ x => x.room + 68
  | seq x y => x.room + y.room + 4
  | alt x y => x.room + y.room + 144
  | loop x low high _ => (max low (high.getD 0) + 1) * (x.room + 44) + 76

section

variable {lay : Build Bool} {n : Nat}

theorem takes_layMore (h : Takes n lay) (count : Nat) (ends : Bool) :
    Takes (count * (n + 44)) (layMore lay count ends) := by
  induction count generalizing ends with
  | zero => exact takes_pure _ _
  | succ count ih =>
    refine (h.bind fun ends' => (takes_leave ends).bind fun _ => ih ends').mono ?_
    simp only [wayOutSize, Nat.succ_mul]
    omega

theorem takes_layCopies (h : Takes n lay) (count : Nat) : Takes (count * (n + 44) + 32) (layCopies lay count) := by
  cases count with
  | zero => exact (takes_plain.bind fun _ => takes_pure _ 0).mono (Nat.le_add_left _ _)
  | succ count =>
    refine (h.bind (takes_layMore h count)).mono ?_
    rw [Nat.succ_mul]
    omega

theorem takes_layOptional (h : Takes n lay) (count : Nat) (ends : Bool) :
    Takes (count * (n + 44)) (layOptional lay count ends) := by
  induction count generalizing ends with
  | zero => exact takes_pure _ _
  | succ count ih =>
    refine ((takes_fork 2).bind fun _ => h.bind fun ends' => (takes_leave ends).bind fun _ => ih ends').mono ?_
    simp only [stateSize, wayOutSize, Nat.succ_mul]
    omega

theorem takes_layLoop (h : Takes n lay) (solid : Bool) (low : Nat) (high : Option Nat) :
    Takes ((max low (high.getD 0) + 1) * (n + 44) + 76) (layLoop lay solid low high) := by
  have hround : Takes 36 (do fork 1; return true) := (takes_fork 1).bind fun _ => takes_pure _ 0
  unfold layLoop
  rw [Nat.succ_mul]
  split
  · refine ((takes_fork 2).bind fun _ => h.bind fun ends => takes_plain.bind fun _ => takes_leave_return ends _).mono ?_
    simp only [stateSize, wayOutSize]
    omega
  · split
    · refine ((takes_fork 1).bind fun _ => h.bind fun ends => takes_leave_return ends _).mono ?_
      simp only [stateSize, wayOutSize]
      omega
    · refine (h.bind fun ends => (takes_fork 2).bind fun _ => (takes_leave ends).bind fun _ => (takes_fork 2).bind
        fun _ => takes_plain.bind fun _ => takes_pure _ 0).mono ?_
      simp only [stateSize, wayOutSize]
      omega
  · next m =>
    have hrounds : max (m + 1) ((none : Option Nat).getD 0) * (n + 44) = m * (n + 44) + (n + 44) := by
      rw [Option.getD_none, Nat.max_zero, Nat.succ_mul]
    rw [Nat.succ_eq_add_one, hrounds]
    dsimp only
    split
    · refine (h.bind fun ends => (takes_leave ends).bind fun _ => hround).mono ?_
      simp only [wayOutSize]
      omega
    · refine ((takes_layCopies h m).bind fun before => h.bind fun last => (takes_leave before).bind fun _ =>
        (takes_leave last).bind fun _ => hround).mono ?_
      simp only [wayOutSize]
      omega
  · next high _ =>
    rw [Option.getD_some]
    split
    · refine (takes_layCopies h low).mono ?_
      have := Nat.mul_le_mul_right (n + 44) (Nat.le_max_left low high)
      omega
    · have hrounds : max low high * (n + 44) = low * (n + 44) + (high - low) * (n + 44) := by
        rw [← Nat.add_mul]
        congr 1
        omega
      rw [hrounds]
      refine ((takes_layCopies h low).bind fun ends => takes_plain.bind fun _ =>
        (takes_layOptional h (high - low) ends).bind fun last => takes_leave_return last _).mono ?_
      simp only [stateSize]
      omega

end

theorem takes_joinChoice (turn : Turn) (ends : Bool) : Takes 72 (joinChoice turn ends) := by
  have hjoin : Takes 8 (do waysOut 1; leave ends) := (takes_waysOut 1).bind fun _ => takes_leave ends
  unfold joinChoice
  dsimp only
  split
  · exact (takes_fork 0).bind fun _ => takes_plain.bind fun _ => hjoin
  · exact hjoin.mono (Nat.le_add_left 8 64)

theorem sum_choices_le (x : Node) : (x.choices.map Node.room).sum ≤ x.room := by
  induction x with
  | alt x y _ ih =>
    rw [Node.choices, List.map_cons, List.sum_cons, Node.room]
    omega
  | _ => exact Nat.le_of_eq (Nat.add_zero _)

theorem eq_word_of_word? {x : Node} {cs : List Char} (h : x.word? = some cs) : x = .word cs := by
  unfold Node.word? at h
  split at h
  · rw [Option.some.inj h]
  · cases h

theorem eq_words_of_mapM_word? {xs : List Node} {words : List (List Char)} (h : xs.mapM Node.word? = some words) :
    xs = words.map .word := by
  induction xs generalizing words with
  | nil =>
    obtain rfl : [] = words := Option.some.inj h
    rfl
  | cons x xs ih =>
    rw [List.mapM_cons] at h
    obtain ⟨cs, hx, h⟩ := Option.bind_eq_some_iff.1 h
    obtain ⟨rest, hxs, h⟩ := Option.bind_eq_some_iff.1 h
    obtain rfl : cs :: rest = words := Option.some.inj h
    rw [eq_word_of_word? hx, ih hxs, List.map_cons]

theorem takes_words (backward : Bool) {words : List (List Char)} (hne : words ≠ []) :
    let bytes := if backward then (words.map wordBytes).map List.reverse else words.map wordBytes
    Takes ((words.map .word).map Node.room).sum
      (sharedWords (bytes.foldl (fun n w => max n w.length) 1) bytes) := by
  intro bytes
  have hbytes : bytes ≠ [] := by
    dsimp only [bytes]
    split <;> simpa using hne
  have hroom : (bytes.map wordRoom).sum = ((words.map .word).map Node.room).sum := by
    dsimp only [bytes]
    split <;> simp [Function.comp_def, wordRoom, Node.room]
  exact hroom ▸ takes_sharedWords _ hbytes

theorem takes_layNode (backward : Bool) (turn : Turn) (x : Node) : Takes x.room (layNode backward turn x) := by
  induction x generalizing turn with
  | empty => exact takes_plain.bind fun _ => takes_pure _ 0
  | look _ => exact takes_plain.bind fun _ => takes_pure _ 0
  | word cs =>
    refine ((takes_plains _).bind fun _ => takes_pure _ 0).mono ?_
    simp only [Node.room, wordRoom, stateSize]
    omega
  | chars s =>
    rw [layNode, Node.room]
    dsimp only
    split
    · refine (takes_plain.bind fun _ => (takes_state _).bind fun _ => takes_pure _ 0).mono ?_
      simp only [stateSize, rangeSize]
      omega
    · split
      · refine ((takes_backwardSet _).bind fun _ => takes_pure _ 0).mono ?_
        simp only [stateSize]
        omega
      · refine ((takes_forwardSet _).bind fun _ => takes_pure _ 0).mono ?_
        simp only [stateSize, rangeSize]
        omega
  | group i x ih =>
    rw [layNode, Node.room]
    split
    · exact (ih .first).mono (Nat.le_add_right _ _)
    · refine (takes_plain.bind fun _ => (ih .first).bind fun ends => takes_plain.bind
        fun _ => takes_leave_return ends _).mono ?_
      simp only [stateSize]
      omega
  | seq x y hx hy =>
    rw [layNode, Node.room]
    split
    · exact ((hy .first).bind fun ends => (hx .first).bind fun ends' => takes_leave_return ends ends').mono (by omega)
    · exact ((hx .first).bind fun ends => (hy .first).bind fun ends' => takes_leave_return ends ends').mono (by omega)
  | alt x y hx hy =>
    rw [layNode]
    split
    · next words hwords =>
      split at hwords
      · have hchoices := eq_words_of_mapM_word? hwords
        have hne : words ≠ [] := by
          rintro rfl
          cases hchoices
        refine (takes_plain.bind fun _ => (takes_words backward hne).bind fun _ => takes_pure _ 0).mono ?_
        have := sum_choices_le y
        rw [← hchoices, Node.choices, List.map_cons, List.sum_cons, Node.room]
        simp only [stateSize]
        omega
      · cases hwords
    · rw [Node.room]
      dsimp only
      refine ((hx .first).bind fun ends => (takes_joinChoice turn ends).bind (k := y.room + 72)
        fun _ => ?_).mono (by omega)
      split
      · exact ((hy _).bind fun _ => takes_pure _ 0).mono (Nat.le_add_right _ _)
      · exact (hy .first).bind fun ends => (takes_joinChoice _ ends).bind fun _ => takes_pure _ 0
  | loop x low high greedy ih => exact takes_layLoop (ih .first) _ low high

theorem takes_layPattern (backward : Bool) (x : Node) : Takes (x.room + 244) (layPattern backward x) := by
  have hnode : Takes (x.room + 132)
      (if backward then do
          leave (← layNode backward .first x)
          plain
        else do
          plain
          leave (← layNode backward .first x)
          plain
          plain) := by
    split
    · refine ((takes_layNode backward .first x).bind fun ends => (takes_leave ends).bind fun _ => takes_plain).mono ?_
      simp only [stateSize, wayOutSize]
      omega
    · refine (takes_plain.bind fun _ => (takes_layNode backward .first x).bind fun ends => (takes_leave ends).bind
        fun _ => takes_plain.bind fun _ => takes_plain).mono ?_
      simp only [stateSize, wayOutSize]
      omega
  unfold layPattern
  dsimp only
  split
  · refine (takes_plain.bind fun _ => hnode).mono ?_
    simp only [stateSize]
    omega
  · refine ((takes_fork 2).bind fun _ => takes_plain.bind fun _ => (takes_state _).bind fun _ => hnode).mono ?_
    simp only [stateSize, rangeSize, wayOutSize]
    omega

/-- **A pattern whose parts need no more than the limit is not refused for its size.** -/
theorem fits_of_room {x : Node} (h : x.room + 244 ≤ sizeLimit) : fits x = true := by
  have hsome (backward : Bool) : (layPattern backward x {}).isSome = true := by
    obtain ⟨a, l, hl, -⟩ := takes_layPattern backward x {} ((Nat.zero_add _).symm ▸ h)
    rw [hl, Option.isSome_some]
  simp only [fits, hsome, Bool.and_self, Bool.or_true]

end Codemod.Pattern
