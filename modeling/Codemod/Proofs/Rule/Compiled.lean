/-
What becomes of a list of specs. Ids are looked at first, and a set comes of the list if each is there and differs from
those before it (`ofSpecs_eq_error_iff`). Then each spec is looked at by itself (`compile_eq`), so that the rules of
the set and those that are off share out the specs (`ids_perm`).
-/
import Codemod.Proofs.Rule.Chain

namespace Codemod

open Text

namespace RuleSpec

def compiles (s : RuleSpec) : Bool := s.build.isOk

/-- What a set says of a spec that does not compile. -/
def failure? (s : RuleSpec) : Option RuleFailure :=
  match s.build with
  | .ok _ => none
  | .error e => some ⟨s.id, e.message⟩

variable {s : RuleSpec} {r : Rule} {e : Refusal}

theorem compiles_of_ok (h : s.build = .ok r) : s.compiles = true := by rw [compiles, h]; rfl

theorem not_compiles_of_error (h : s.build = .error e) : s.compiles = false := by rw [compiles, h]; rfl

theorem compiles_eq_false_iff : s.compiles = false ↔ ∃ e, s.build = .error e := by
  cases h : s.build with
  | ok r => simp [compiles_of_ok h]
  | error e => simp [not_compiles_of_error h]

theorem failure?_eq_none_iff : s.failure? = none ↔ s.compiles = true := by
  cases h : s.build with
  | ok r => simp [failure?, h, compiles_of_ok h]
  | error e => simp [failure?, h, not_compiles_of_error h]

theorem ruleId_of_failure? {f : RuleFailure} (h : s.failure? = some f) : f.ruleId = s.id := by
  cases hb : s.build <;> simp [failure?, hb] at h
  rw [← h]

end RuleSpec

namespace RuleSet

variable {specs : List RuleSpec} {set : RuleSet}

/-! ## Ids -/

/-- **A list of specs is refused** if one of them has no id, or if two of them have the same. -/
theorem ofSpecs_eq_error_iff : (∃ e, ofSpecs specs = .error e) ↔
    (∃ s ∈ specs, isBlankText s.id = true) ∨ ¬ (specs.map RuleSpec.id).Nodup := by
  have hok : (∃ e, ofSpecs specs = .error e) ↔ ¬ checkIds [] specs = .ok () := by
    cases hids : checkIds [] specs with
    | error e => simp [ofSpecs, hids, bind, Except.bind]
    | ok u => simp [ofSpecs, hids, bind, Except.bind, pure, Except.pure]
  rw [hok, checkIds_iff, not_and_or]
  simp

/-! ## Rules and failures -/

/-- **Each spec is looked at by itself.** -/
theorem compile_eq (specs : List RuleSpec) :
    compile specs = ⟨specs.filterMap (·.build.toOption), specs.filterMap RuleSpec.failure?⟩ := by
  induction specs with
  | nil => rfl
  | cons s specs ih =>
    rw [compile, List.filterMap_cons, List.filterMap_cons, RuleSpec.failure?]
    cases s.build <;> rw [ih] <;> rfl

theorem disabled_of_ofSpecs (h : ofSpecs specs = .ok set) : set.disabled = specs.filterMap RuleSpec.failure? := by
  rw [← (ofSpecs_eq_ok.1 h).2, compile_eq]

theorem rule_ids (h : ofSpecs specs = .ok set) :
    set.rules.map Rule.id = (specs.filter (·.compiles)).map RuleSpec.id := by
  rw [← (ofSpecs_eq_ok.1 h).2, compile_eq]
  clear h
  induction specs with
  | nil => rfl
  | cons s specs ih =>
    rw [List.filterMap_cons, List.filter_cons]
    cases hb : s.build with
    | ok r => simpa [Except.toOption, RuleSpec.compiles_of_ok hb, id_of_build hb] using ih
    | error e => simpa [Except.toOption, RuleSpec.not_compiles_of_error hb] using ih

theorem disabled_ids (h : ofSpecs specs = .ok set) :
    set.disabled.map (·.ruleId) = (specs.filter (!·.compiles)).map RuleSpec.id := by
  rw [disabled_of_ofSpecs h]
  clear h
  induction specs with
  | nil => rfl
  | cons s specs ih =>
    rw [List.filterMap_cons, List.filter_cons, RuleSpec.failure?]
    cases hb : s.build with
    | ok r => simpa [RuleSpec.compiles_of_ok hb] using ih
    | error e => simpa [RuleSpec.not_compiles_of_error hb] using ih

/-- Every spec is among the rules or among those that are off, and only once. -/
theorem ids_perm (h : ofSpecs specs = .ok set) :
    (set.rules.map Rule.id ++ set.disabled.map (·.ruleId)).Perm (specs.map RuleSpec.id) := by
  rw [rule_ids h, disabled_ids h, ← List.map_append]
  exact (List.filter_append_perm _ specs).map _

/-- What is off was refused as the spec of its id. -/
theorem failure?_of_mem_disabled (h : ofSpecs specs = .ok set) {s : RuleSpec} (hs : s ∈ specs) {f : RuleFailure}
    (hf : f ∈ set.disabled) (hid : f.ruleId = s.id) : s.failure? = some f := by
  rw [disabled_of_ofSpecs h, List.mem_filterMap] at hf
  obtain ⟨t, ht, htf⟩ := hf
  have hnodup := (checkIds_iff.1 (ofSpecs_eq_ok.1 h).1).2
  obtain rfl : t = s :=
    List.inj_on_of_nodup_map hnodup ht hs ((RuleSpec.ruleId_of_failure? htf).symm.trans hid)
  exact htf

theorem find?_disabled (h : ofSpecs specs = .ok set) {s : RuleSpec} (hs : s ∈ specs) :
    set.disabled.find? (·.ruleId == s.id) = s.failure? := by
  cases hfind : set.disabled.find? (·.ruleId == s.id) with
  | some f =>
    have hid : f.ruleId = s.id := by simpa using List.find?_some hfind
    exact (failure?_of_mem_disabled h hs (List.mem_of_find?_eq_some hfind) hid).symm
  | none =>
    refine (Option.eq_none_iff_forall_not_mem.2 fun f hf => ?_).symm
    have hmem : f ∈ set.disabled := disabled_of_ofSpecs h ▸ List.mem_filterMap.2 ⟨s, hs, hf⟩
    exact List.find?_eq_none.1 hfind f hmem (beq_iff_eq.2 (RuleSpec.ruleId_of_failure? hf))

/-- **A rule is off** if and only if its spec does not compile. -/
theorem mem_disabled_iff (h : ofSpecs specs = .ok set) {s : RuleSpec} (hs : s ∈ specs) :
    s.id ∈ set.disabled.map (·.ruleId) ↔ ∃ e, s.build = .error e := by
  rw [← RuleSpec.compiles_eq_false_iff, ← Bool.not_eq_true, ← RuleSpec.failure?_eq_none_iff,
    ← find?_disabled h hs]
  simp [List.find?_eq_none]

end RuleSet

end Codemod
