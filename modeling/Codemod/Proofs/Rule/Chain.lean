/-
Running a set of rules over a text. All that an outcome holds can be read off one list: each rule with
the text it is given (`given`). The content is what the last rule leaves, the counts and the failures
are what the rules say of the texts they are given (`apply_content`, `apply_hits`, `apply_failures`).
`apply_chain` puts this together. It needs the ids of a set to be distinct, which the two ways to make
a set see to (`Built.distinct`): under two equal ids, the second count would take the place of the
first.
-/
import Mathlib.Data.List.Lex
import Mathlib.Data.List.Nodup
import Mathlib.Data.String.Basic
import Codemod.Proofs.Rule.Hits
import Codemod.Rule.Chain

namespace Codemod

open Pattern Text

/-! ## Counts by rule id -/

namespace HitCounts

/-- The ids rise, so there is one count for each. -/
def Ordered (h : HitCounts) : Prop := h.Pairwise fun a b => a.1 < b.1

theorem Ordered.nodup {h : HitCounts} (ho : h.Ordered) : (h.map (·.1)).Nodup :=
  List.pairwise_map.2 (ho.imp fun hlt => ne_of_lt hlt)

/-- Ordered counts are determined by what is in them. -/
theorem Ordered.eq_of_perm {h k : HitCounts} (hh : h.Ordered) (hk : k.Ordered) (hp : h.Perm k) :
    h = k :=
  hp.eq_of_pairwise (fun _ _ _ _ h1 h2 => absurd h1 (lt_asymm h2)) hh hk

theorem mem_of_mem_set {id : String} {n : Nat} {h : HitCounts} {e : String × Nat}
    (he : e ∈ h.set id n) : e = (id, n) ∨ e ∈ h := by
  fun_induction set id n h with
  | case1 => simpa using he
  | case2 => simpa using he
  | case3 key m rest hlt heq =>
    rcases List.mem_cons.1 he with rfl | he
    · exact .inl rfl
    · exact .inr (List.mem_cons_of_mem _ he)
  | case4 key m rest hlt hne ih =>
    rcases List.mem_cons.1 he with rfl | he
    · exact .inr List.mem_cons_self
    · exact (ih he).imp_right (List.mem_cons_of_mem _)

theorem Ordered.set {h : HitCounts} (ho : h.Ordered) (id : String) (n : Nat) :
    (h.set id n).Ordered := by
  fun_induction HitCounts.set id n h with
  | case1 => exact List.pairwise_singleton _ _
  | case2 key m rest hlt =>
    refine List.pairwise_cons.2 ⟨fun e he => ?_, ho⟩
    rcases List.mem_cons.1 he with rfl | he
    · exact hlt
    · exact hlt.trans ((List.pairwise_cons.1 ho).1 e he)
  | case3 key m rest hlt heq =>
    obtain rfl := beq_iff_eq.1 heq
    exact List.pairwise_cons.2 (List.pairwise_cons.1 ho)
  | case4 key m rest hlt hne ih =>
    obtain ⟨hhead, hrest⟩ := List.pairwise_cons.1 ho
    refine List.pairwise_cons.2 ⟨fun e he => ?_, ih hrest⟩
    rcases mem_of_mem_set he with rfl | he
    · exact lt_of_le_of_ne (not_lt.1 hlt) fun hkey => hne (beq_iff_eq.2 hkey.symm)
    · exact hhead e he

/-- A count under a new id is added to the others. -/
theorem set_perm {id : String} {n : Nat} {h : HitCounts} (hid : id ∉ h.map (·.1)) :
    (h.set id n).Perm ((id, n) :: h) := by
  fun_induction set id n h with
  | case1 => exact .refl _
  | case2 => exact .refl _
  | case3 key m rest hlt heq => simp [beq_iff_eq.1 heq] at hid
  | case4 key m rest hlt hne ih =>
    have hrest : id ∉ rest.map (·.1) := fun hmem => hid (List.mem_cons_of_mem _ hmem)
    exact ((ih hrest).cons _).trans (.swap _ _ _)

end HitCounts

/-! ## What each rule is given and says -/

namespace Rule

/-- The text after a rule. A rule that has no hit in a text, or fails on it, leaves it as it is. -/
def rewritten (r : Rule) (text : String) : String :=
  match r.apply text with
  | .ok (some (result, _)) => result
  | _ => text

/-- What a rule with hits adds to the counts. -/
def count? (r : Rule) (text : String) : Option (String × Nat) :=
  match r.apply text with
  | .ok (some (_, n)) => some (r.id, n)
  | _ => none

/-- What a rule that fails adds to the failures. -/
def failure? (r : Rule) (text : String) : Option RuleFailure :=
  match r.apply text with
  | .error e => some ⟨r.id, e.message⟩
  | .ok _ => none

theorem fst_of_count? {r : Rule} {text : String} {c : String × Nat}
    (hc : r.count? text = some c) : c.1 = r.id := by
  unfold count? at hc
  split at hc
  · cases hc
    rfl
  · cases hc

theorem ruleId_of_failure? {r : Rule} {text : String} {f : RuleFailure}
    (hf : r.failure? text = some f) : f.ruleId = r.id := by
  unfold failure? at hf
  split at hf
  · cases hf
    rfl
  · cases hf

theorem rewritten_of_count?_none {r : Rule} {text : String} (hc : r.count? text = none) :
    r.rewritten text = text := by
  unfold count? at hc
  unfold rewritten
  split at hc
  · cases hc
  · rfl

theorem count?_of_failure? {r : Rule} {text : String} {f : RuleFailure}
    (hf : r.failure? text = some f) : r.count? text = none := by
  unfold failure? at hf
  unfold count?
  split at hf
  · next he => rw [he]
  · cases hf

/-- A rule that gives a text has had hits. -/
theorem pos_of_apply {r : Rule} {text result : String} {n : Nat}
    (h : r.apply text = .ok (some (result, n))) : 0 < n := by
  simp only [apply, bind, Except.bind] at h
  split at h
  · cases h
  · next hits _ =>
    cases hits with
    | nil => cases h
    | cons hit hits =>
      simp only [List.isEmpty_cons, Bool.false_eq_true, if_false] at h
      split at h
      · cases h
      · cases h
        exact Nat.succ_pos _

end Rule

namespace RuleSet

/-- Each rule with the text that the rules before it have made. -/
def given (text : String) : List Rule → List (Rule × String)
  | [] => []
  | r :: rules => (r, text) :: given (r.rewritten text) rules

/-- The text after all rules. -/
def folded (text : String) (rules : List Rule) : String :=
  rules.foldl (fun t r => r.rewritten t) text

def counts (given : List (Rule × String)) : List (String × Nat) :=
  given.filterMap fun g => g.1.count? g.2

def failures (given : List (Rule × String)) : List RuleFailure :=
  given.filterMap fun g => g.1.failure? g.2

section

variable {text : String} {rules front back : List Rule}

variable (text rules) in
theorem given_map_fst : (given text rules).map (·.1) = rules := by
  induction rules generalizing text with
  | nil => rfl
  | cons r rules ih => rw [given, List.map_cons, ih]

theorem given_append :
    given text (front ++ back) = given text front ++ given (folded text front) back := by
  induction front generalizing text with
  | nil => rfl
  | cons r front ih => rw [List.cons_append, given, given, ih, List.cons_append]; rfl

/-- Rules that leave what they are given as it is can be left out. -/
theorem given_filter (keep : Rule → Bool)
    (hidle : ∀ g ∈ given text rules, keep g.1 = false → g.1.rewritten g.2 = g.2) :
    given text (rules.filter keep) = (given text rules).filter (fun g => keep g.1) ∧
    folded text (rules.filter keep) = folded text rules := by
  induction rules generalizing text with
  | nil => exact ⟨rfl, rfl⟩
  | cons r rules ih =>
    obtain ⟨hr, hrules⟩ := List.forall_mem_cons.1 hidle
    obtain ⟨hgiven, hfolded⟩ := ih hrules
    cases hk : keep r with
    | true =>
      rw [List.filter_cons_of_pos hk, given, given, List.filter_cons_of_pos (by exact hk), hgiven]
      exact ⟨rfl, hfolded⟩
    | false =>
      have hstay : r.rewritten text = text := hr hk
      rw [List.filter_cons_of_neg (by simp [hk]), given, List.filter_cons_of_neg (by simp [hk]),
        ← hgiven, hstay]
      rw [hstay] at hfolded
      refine ⟨rfl, hfolded.trans ?_⟩
      rw [folded, folded, List.foldl_cons, hstay]

theorem folded_of_counts_nil (h : counts (given text rules) = []) : folded text rules = text := by
  have hnone := List.filterMap_eq_nil_iff.1 h
  have hidle := (given_filter (fun _ => false) fun g hg _ =>
    Rule.rewritten_of_count?_none (hnone g hg)).2
  rw [← hidle, List.filter_false]
  rfl

/-! ## A run of the rules -/

/-- One step, by what the rule says of the text it is given. -/
theorem applyRule_eq (o : Outcome) (r : Rule) :
    applyRule o r =
      { content := r.rewritten o.content
        hits := match r.count? o.content with
          | some c => o.hits.set c.1 c.2
          | none => o.hits
        failures := o.failures ++ (r.failure? o.content).toList } := by
  unfold applyRule Rule.rewritten Rule.count? Rule.failure?
  rcases r.apply o.content with e | _ | ⟨result, n⟩ <;> simp

theorem applyRule_ordered {o : Outcome} (r : Rule) (ho : o.hits.Ordered) :
    (applyRule o r).hits.Ordered := by
  rw [applyRule_eq]
  cases r.count? o.content with
  | none => exact ho
  | some c => exact ho.set c.1 c.2

theorem applyRule_hits {o : Outcome} {r : Rule} (hid : r.id ∉ o.hits.map (·.1)) :
    (applyRule o r).hits.Perm (o.hits ++ (r.count? o.content).toList) := by
  rw [applyRule_eq]
  cases hc : r.count? o.content with
  | none => exact .of_eq (List.append_nil _).symm
  | some c =>
    rw [← Rule.fst_of_count? hc] at hid
    exact (HitCounts.set_perm hid).trans (List.perm_append_singleton _ _).symm

theorem foldl_content (o : Outcome) :
    (rules.foldl applyRule o).content = folded o.content rules := by
  induction rules generalizing o with
  | nil => rfl
  | cons r rules ih => rw [List.foldl_cons, ih, applyRule_eq]; rfl

theorem foldl_failures (o : Outcome) :
    (rules.foldl applyRule o).failures = o.failures ++ failures (given o.content rules) := by
  induction rules generalizing o with
  | nil => exact (List.append_nil _).symm
  | cons r rules ih =>
    rw [List.foldl_cons, ih, applyRule_eq, List.append_assoc, given, failures, failures,
      List.filterMap_cons]
    cases r.failure? o.content <;> rfl

theorem foldl_ordered {o : Outcome} (ho : o.hits.Ordered) :
    (rules.foldl applyRule o).hits.Ordered := by
  induction rules generalizing o with
  | nil => exact ho
  | cons r rules ih => exact ih (applyRule_ordered r ho)

/-- Under distinct ids that have no count yet, every count of a run is there in the end. -/
theorem foldl_hits {o : Outcome} (hd : (rules.map Rule.id).Nodup)
    (hfresh : ∀ r ∈ rules, r.id ∉ o.hits.map (·.1)) :
    (rules.foldl applyRule o).hits.Perm (o.hits ++ counts (given o.content rules)) := by
  induction rules generalizing o with
  | nil => exact .of_eq (List.append_nil _).symm
  | cons r rules ih =>
    obtain ⟨hr, hrules⟩ := List.forall_mem_cons.1 hfresh
    obtain ⟨hnew, hd⟩ := List.nodup_cons.1 hd
    have hstep := applyRule_hits hr
    have hrest : ∀ q ∈ rules, q.id ∉ (applyRule o r).hits.map (·.1) := by
      intro q hq hmem
      rw [(hstep.map _).mem_iff, List.map_append, List.mem_append] at hmem
      rcases hmem with hmem | hmem
      · exact hrules q hq hmem
      · obtain ⟨c, hc, hid⟩ := List.mem_map.1 hmem
        rw [Rule.fst_of_count? (Option.mem_toList.1 hc)] at hid
        exact hnew (hid ▸ List.mem_map_of_mem hq)
    refine ((ih hd hrest).trans (hstep.append_right _)).trans (.of_eq ?_)
    rw [applyRule_eq, List.append_assoc, given, counts, counts, List.filterMap_cons]
    cases r.count? o.content <;> rfl

end

/-! ## Distinct ids -/

/-- Each rule has an id of its own. -/
def Distinct (rules : List Rule) : Prop := (rules.map Rule.id).Nodup

theorem nodup_of_duplicate? {seen ids : List String} (h : duplicate? seen ids = none) :
    ids.Nodup ∧ ∀ id ∈ ids, id ∉ seen := by
  fun_induction duplicate? seen ids with
  | case1 seen => simp
  | case2 seen id ids hmem => cases h
  | case3 seen id ids hmem ih =>
    obtain ⟨hnodup, hfresh⟩ := ih h
    refine ⟨List.nodup_cons.2 ⟨fun hid => hfresh id hid List.mem_cons_self, hnodup⟩, ?_⟩
    refine List.forall_mem_cons.2 ⟨by simpa using hmem, fun k hk hseen => ?_⟩
    exact hfresh k hk (List.mem_cons_of_mem _ hseen)

/-- Ids are accepted that are there and differ from those before them. -/
theorem checkIds_iff {seen : List String} {specs : List RuleSpec} : checkIds seen specs = .ok () ↔
    (∀ s ∈ specs, Text.isBlankText s.id = false ∧ s.id ∉ seen) ∧ (specs.map RuleSpec.id).Nodup := by
  induction specs generalizing seen with
  | nil => simp [checkIds]
  | cons s specs ih =>
    rw [checkIds, List.forall_mem_cons, List.map_cons, List.nodup_cons]
    cases hblank : Text.isBlankText s.id with
    | true => simp
    | false =>
      by_cases hseen : s.id ∈ seen
      · simp [hseen]
      · simp only [Bool.false_eq_true, if_false, List.contains_eq_mem, hseen, decide_false, ih, List.mem_cons,
          not_or, true_and, not_false_eq_true, List.mem_map, not_exists, not_and]
        constructor
        · rintro ⟨hspecs, hnodup⟩
          exact ⟨fun t ht => ⟨(hspecs t ht).1, (hspecs t ht).2.2⟩, fun t ht => (hspecs t ht).2.1, hnodup⟩
        · rintro ⟨hspecs, hfresh, hnodup⟩
          exact ⟨fun t ht => ⟨(hspecs t ht).1, hfresh t ht, (hspecs t ht).2⟩, hnodup⟩

theorem ofSpecs_eq_ok {specs : List RuleSpec} {set : RuleSet} :
    ofSpecs specs = .ok set ↔ checkIds [] specs = .ok () ∧ compile specs = set := by
  rw [ofSpecs]
  cases checkIds [] specs with
  | error e => simp [bind, Except.bind]
  | ok u => simp [bind, Except.bind, pure, Except.pure]

/-- A rule goes by the id of its spec. -/
theorem id_of_build {s : RuleSpec} {r : Rule} (h : s.build = .ok r) : r.id = s.id := by
  simp only [RuleSpec.build, bind, Except.bind] at h
  split at h
  · cases h
  · simp only [Rule.create] at h
    split at h
    · cases h
    · split at h <;> cases h
      rfl

theorem compile_ids (specs : List RuleSpec) :
    ((compile specs).rules.map Rule.id).Sublist (specs.map RuleSpec.id) := by
  induction specs with
  | nil => exact .slnil
  | cons s specs ih =>
    rw [compile]
    cases hb : s.build with
    | error e => exact ih.cons _
    | ok r =>
      rw [List.map_cons, List.map_cons, id_of_build hb]
      exact ih.cons_cons _

/-- The ways to make a set. -/
def Built (s : RuleSet) : Prop :=
  (∃ rules, ofRules rules = .ok s) ∨ ∃ specs, ofSpecs specs = .ok s

theorem Built.distinct {s : RuleSet} (hs : s.Built) : Distinct s.rules := by
  rcases hs with ⟨rules, h⟩ | ⟨specs, h⟩
  · unfold ofRules at h
    split at h
    · cases h
    · next hd =>
      cases h
      exact (nodup_of_duplicate? hd).1
  · obtain ⟨hids, rfl⟩ := ofSpecs_eq_ok.1 h
    exact (checkIds_iff.1 hids).2.sublist (compile_ids specs)

/-! ## The outcome of a set -/

/-- The set with other rules. -/
def only (s : RuleSet) (rules : List Rule) : RuleSet := { s with rules }

/-- The set without the rules of some ids. -/
def without (s : RuleSet) (ids : List String) : RuleSet :=
  s.only (s.rules.filter fun r => !ids.contains r.id)

section

variable {s : RuleSet} (text : String)

theorem apply_content : (s.apply text).content = folded text s.rules := foldl_content _

theorem apply_failures : (s.apply text).failures = failures (given text s.rules) :=
  foldl_failures _

theorem apply_ordered : (s.apply text).hits.Ordered := foldl_ordered .nil

theorem apply_hits (hd : Distinct s.rules) :
    (s.apply text).hits.Perm (counts (given text s.rules)) :=
  foldl_hits hd (by simp)

end

section

variable {text : String} {rules : List Rule} {g : Rule × String}
  {β : Type} {report : Rule × String → Option β} {key : β → String}

/-- What rules report under their ids is in the order of the rules, at most once for each. -/
theorem reports_sublist
    (hkey : ∀ g b, report g = some b → key b = g.1.id) :
    (((given text rules).filterMap report).map key).Sublist (rules.map Rule.id) := by
  induction rules generalizing text with
  | nil => exact .slnil
  | cons r rules ih =>
    rw [given]
    cases hb : report (r, text) with
    | none =>
      rw [List.filterMap_cons_none hb]
      exact ih.cons _
    | some b =>
      rw [List.filterMap_cons_some hb, List.map_cons, hkey _ b hb]
      exact ih.cons_cons _

/-- Under distinct ids, what is reported under the id of a rule comes from that rule. -/
theorem id_mem_reports (hkey : ∀ g b, report g = some b → key b = g.1.id)
    (hd : Distinct rules) (hg : g ∈ given text rules) :
    g.1.id ∈ ((given text rules).filterMap report).map key ↔ ∃ b, report g = some b := by
  constructor
  · intro hmem
    obtain ⟨b, hb, hid⟩ := List.mem_map.1 hmem
    obtain ⟨k, hk, hreport⟩ := List.mem_filterMap.1 hb
    rw [Distinct, ← given_map_fst text rules, List.map_map] at hd
    obtain rfl : k = g := List.inj_on_of_nodup_map hd hk hg ((hkey k b hreport).symm.trans hid)
    exact ⟨b, hreport⟩
  · rintro ⟨b, hb⟩
    exact List.mem_map.2 ⟨b, List.mem_filterMap.2 ⟨g, hg, hb⟩, hkey g b hb⟩

end

end RuleSet

attribute [ext] Outcome

namespace Outcome

/-- An outcome is a first one carried on by a second one. -/
structure Joins (o first second : Outcome) : Prop where
  content : o.content = second.content
  hits : o.hits.Perm (first.hits ++ second.hits)
  disjoint : (first.hits.map (·.1)).Disjoint (second.hits.map (·.1))
  failures : o.failures = first.failures ++ second.failures

def ids (o : Outcome) : List String := o.hits.map (·.1)

def failed (o : Outcome) : List String := o.failures.map (·.ruleId)

/-- What an outcome holds under an id, by what the rule of that id said. -/
def Records (o : Outcome) (id : String) : Except Refusal (Option (String × Nat)) → Prop
  | .ok (some (_, n)) => 0 < n ∧ (id, n) ∈ o.hits ∧ id ∉ o.failed
  | .ok none => id ∉ o.ids ∧ id ∉ o.failed
  | .error e => id ∉ o.ids ∧ ⟨id, e.message⟩ ∈ o.failures

end Outcome

namespace RuleSet

section

variable {s : RuleSet} {text : String}

theorem apply_joins {front back : List Rule} (hd : Distinct s.rules)
    (hsplit : s.rules = front ++ back) :
    (s.apply text).Joins ((s.only front).apply text)
      ((s.only back).apply ((s.only front).apply text).content) := by
  rw [show ((s.only front).apply text).content = folded text front from apply_content text]
  have hgiven : given text s.rules = given text front ++ given (folded text front) back := by
    rw [hsplit, given_append]
  have hids : Distinct front ∧ Distinct back := by
    rw [hsplit, Distinct, List.map_append] at hd
    exact ⟨List.Nodup.of_append_left hd, List.Nodup.of_append_right hd⟩
  have hhits : (s.apply text).hits.Perm (((s.only front).apply text).hits ++
      ((s.only back).apply (folded text front)).hits) := by
    refine (apply_hits text hd).trans ?_
    rw [hgiven, counts, List.filterMap_append]
    have hfirst := apply_hits (s := s.only front) text hids.1
    have hsecond := apply_hits (s := s.only back) (folded text front) hids.2
    exact (hfirst.append hsecond).symm
  refine ⟨?_, hhits, ?_, ?_⟩
  · rw [apply_content, apply_content, hsplit]
    exact List.foldl_append
  · have hnodup := (hhits.map (·.1)).nodup_iff.1 (apply_ordered text).nodup
    rw [List.map_append] at hnodup
    exact (List.nodup_append'.1 hnodup).2.2
  · rw [apply_failures, apply_failures, apply_failures, hgiven]
    exact List.filterMap_append

theorem apply_records {front back : List Rule} {r : Rule} (hd : Distinct s.rules)
    (hsplit : s.rules = front ++ r :: back) :
    (s.apply text).Records r.id (r.apply ((s.only front).apply text).content) := by
  rw [show ((s.only front).apply text).content = folded text front from apply_content text]
  have hg : (r, folded text front) ∈ given text s.rules := by
    rw [hsplit, given_append, given]
    exact List.mem_append_right _ List.mem_cons_self
  have hcount : r.id ∈ (s.apply text).ids ↔ ∃ c, r.count? (folded text front) = some c := by
    rw [Outcome.ids, ((apply_hits text hd).map _).mem_iff]
    exact id_mem_reports (fun _ _ => Rule.fst_of_count?) hd hg
  have hfailure : r.id ∈ (s.apply text).failed ↔
      ∃ f, r.failure? (folded text front) = some f := by
    rw [Outcome.failed, apply_failures]
    exact id_mem_reports (fun _ _ => Rule.ruleId_of_failure?) hd hg
  rcases hr : r.apply (folded text front) with e | _ | ⟨result, n⟩
  · refine ⟨by simp [hcount, Rule.count?, hr], ?_⟩
    rw [apply_failures]
    exact List.mem_filterMap.2 ⟨_, hg, by simp [Rule.failure?, hr]⟩
  · exact ⟨by simp [hcount, Rule.count?, hr], by simp [hfailure, Rule.failure?, hr]⟩
  · refine ⟨Rule.pos_of_apply hr, ?_, by simp [hfailure, Rule.failure?, hr]⟩
    rw [(apply_hits text hd).mem_iff]
    exact List.mem_filterMap.2 ⟨_, hg, by simp [Rule.count?, hr]⟩

/-- Rules that failed can be left out. -/
theorem apply_without_failed (hd : Distinct s.rules) :
    (s.without (s.apply text).failed).apply text = { s.apply text with failures := [] } := by
  let keep (r : Rule) : Bool := !(s.apply text).failed.contains r.id
  have hkeep : ∀ g ∈ given text s.rules, keep g.1 = false ↔ ∃ f, g.1.failure? g.2 = some f := by
    intro g hg
    rw [← id_mem_reports (fun _ _ => Rule.ruleId_of_failure?) hd hg]
    simp [keep, Outcome.failed, apply_failures, failures]
  have hcount : ∀ g ∈ given text s.rules, keep g.1 = false → g.1.count? g.2 = none := by
    intro g hg hk
    obtain ⟨f, hf⟩ := (hkeep g hg).1 hk
    exact Rule.count?_of_failure? hf
  obtain ⟨hgiven, hfolded⟩ := given_filter keep fun g hg hk =>
    Rule.rewritten_of_count?_none (hcount g hg hk)
  have hrules : (s.without (s.apply text).failed).rules = s.rules.filter keep := rfl
  have hcounts : counts (given text (s.rules.filter keep)) = counts (given text s.rules) := by
    rw [hgiven, counts, counts, List.filterMap_filter]
    refine List.filterMap_congr fun g hg => ?_
    cases hk : keep g.1 with
    | true => rfl
    | false => exact (hcount g hg hk).symm
  have hfailures : failures (given text (s.rules.filter keep)) = [] := by
    rw [hgiven, failures, List.filterMap_eq_nil_iff]
    intro g hg
    obtain ⟨hg, hk⟩ := List.mem_filter.1 hg
    cases hf : g.1.failure? g.2 with
    | none => rfl
    | some f => rw [(hkeep g hg).2 ⟨f, hf⟩] at hk; cases hk
  have hd' : Distinct (s.rules.filter keep) := hd.sublist (List.filter_sublist.map _)
  refine Outcome.ext ?_ ((apply_ordered text).eq_of_perm (apply_ordered text) ?_) ?_
  · rw [apply_content, apply_content, hrules, hfolded]
  · refine (apply_hits text hd').trans ?_
    rw [hrules, hcounts]
    exact (apply_hits text hd).symm
  · rw [apply_failures, hrules, hfailures]

/-- **A set runs its rules one after the other.** The content is what the rules make of the text in
turn, where a rule that fails or has no hit counts for nothing: without the rules that fail, the set
gives the same content and counts. Wherever a set is cut in two, its outcome is that of the front
carried on by the back. Under the id of each rule there is a count, which is not zero, or one failure,
or nothing, by what the rule said of the content it was given; the failures are in the order of the
rules. A text that no rule has a hit in stays as it is. -/
theorem apply_chain (s : RuleSet) (hs : s.Built) (text : String) :
    let o := s.apply text
    (o.content = s.rules.foldl (fun t r => r.rewritten t) text ∧
      (s.without o.failed).apply text = { o with failures := [] }) ∧
    (∀ front back, s.rules = front ++ back →
      o.Joins ((s.only front).apply text)
        ((s.only back).apply ((s.only front).apply text).content)) ∧
    ((∀ front r back, s.rules = front ++ r :: back →
        o.Records r.id (r.apply ((s.only front).apply text).content)) ∧
      o.hits.Ordered ∧ o.ids ⊆ s.rules.map Rule.id ∧
      o.failed.Sublist (s.rules.map Rule.id) ∧ o.failed.Nodup) ∧
    (o.hits = [] → o.content = text) := by
  intro o
  have hd := hs.distinct
  have hcounts := apply_hits text hd
  have hfailed : o.failed.Sublist (s.rules.map Rule.id) := by
    rw [Outcome.failed, apply_failures]
    exact reports_sublist fun _ _ => Rule.ruleId_of_failure?
  refine ⟨⟨apply_content text, apply_without_failed hd⟩, fun _ _ => apply_joins hd,
    ⟨fun _ _ _ => apply_records hd, apply_ordered text, ?_, hfailed, hd.sublist hfailed⟩, ?_⟩
  · intro id hid
    rw [Outcome.ids, (hcounts.map _).mem_iff] at hid
    have hids : ((counts (given text s.rules)).map (·.1)).Sublist (s.rules.map Rule.id) :=
      reports_sublist fun _ _ => Rule.fst_of_count?
    exact hids.subset hid
  · intro hnil
    rw [show (s.apply text).hits = [] from hnil] at hcounts
    exact (apply_content text).trans (folded_of_counts_nil hcounts.symm.eq_nil)

end

/-- A rule that fails on every text with a word in it. -/
def edgeRule : Rule :=
  ⟨"edge", "", .regex ⟨"(?-u:\\b)", .look (.wordBoundary false), []⟩, .literal "|"⟩

/-- Where the text starts with a word, the rule stops at once. -/
theorem edgeRule_apply {c : Char} {more : List Char} (h : isWord false c = true) :
    edgeRule.apply (String.ofList (c :: more)) = .error (.emptyMatch "(?-u:\\b)" 0) := by
  have hfind : ((Node.look (.wordBoundary false)).scan (c :: more)).find? (.start (c :: more))
      = some ⟨.start (c :: more), .start (c :: more), []⟩ := find?_look (le_refl _) (startsWord h)
  have hhits : edgeRule.matcher.findAll (c :: more) = .error (.emptyMatch "(?-u:\\b)" 0) :=
    Matcher.regexHits_of_empty (p := ⟨"(?-u:\\b)", .look (.wordBoundary false), []⟩) hfind (beq_self_eq_true _)
  rw [Rule.apply, String.toList_ofList, hhits]
  rfl

/-- Letters turn to the next one, with a rule between them that fails. -/
def nextLetters : RuleSet :=
  ⟨[⟨"b", "", .literal "A", .literal "B"⟩, edgeRule, ⟨"a", "", .literal "B", .literal "C"⟩], []⟩

theorem nextLetters_apply :
    nextLetters.apply "A" = ⟨"C", [("a", 1), ("b", 1)],
      [⟨"edge", (Refusal.emptyMatch "(?-u:\\b)" 0).message⟩]⟩ := by
  have hb : Rule.apply ⟨"b", "", .literal "A", .literal "B"⟩ "A" = .ok (some ("B", 1)) := by decide +kernel
  have hedge : edgeRule.apply "B" = .error (.emptyMatch "(?-u:\\b)" 0) :=
    edgeRule_apply (c := 'B') (isWord_ascii ⟨(0x41, 0x5A), by decide, by decide⟩)
  have ha : Rule.apply ⟨"a", "", .literal "B", .literal "C"⟩ "B" = .ok (some ("C", 1)) := by decide +kernel
  simp only [apply, nextLetters, List.foldl, applyRule, hb, hedge, ha, HitCounts.set]
  rfl

/-- Leaving out the rule that fails changes neither the content nor the counts. -/
theorem apply_chain_letters :
    nextLetters.Built ∧
    (nextLetters.without ["edge"]).apply "A" = ⟨"C", [("a", 1), ("b", 1)], []⟩ := by
  have hbuilt : nextLetters.Built := .inl ⟨nextLetters.rules, rfl⟩
  refine ⟨hbuilt, ?_⟩
  have h := (apply_chain nextLetters hbuilt "A").1.2
  rwa [nextLetters_apply] at h

end RuleSet

end Codemod
