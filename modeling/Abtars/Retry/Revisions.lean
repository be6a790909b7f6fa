import Mathlib
import Abtars.Retry.Atomicity
import Abtars.Retry.Directive

/-!
# What a checked contract revision keeps

The check of a revision counts criteria and capabilities and compares the
descriptions of the criteria it finds under an id of the original.  It does not
ask whether the ids and the capabilities of the original are still there.
-/

namespace Abtars

open Lib

/-! ## The text of the limits -/

theorem append_cons_inj {p : Char → Bool} {xs ys rest rest' : List Char} {c c' : Char}
    (hxs : ∀ a ∈ xs, p a) (hys : ∀ a ∈ ys, p a) (hc : p c = false) (hc' : p c' = false) :
    xs ++ c :: rest = ys ++ c' :: rest' ↔ xs = ys ∧ c = c' ∧ rest = rest' := by
  constructor
  · intro h
    induction xs generalizing ys with
    | nil =>
      cases ys with
      | nil => simpa using h
      | cons b ys => grind
    | cons a xs ih =>
      cases ys with
      | nil => grind
      | cons b ys => grind
  · rintro ⟨rfl, rfl, rfl⟩
    rfl

def inNumeral (c : Char) : Bool :=
  c = '-' || c.isDigit

theorem inNumeral_of_mem {n : Int} {c : Char} (hc : c ∈ n.repr.toList) : inNumeral c = true := by
  have hdigits : ∀ m : Nat, c ∈ m.repr.toList → inNumeral c = true := by
    intro m hm
    rw [Nat.toList_repr] at hm
    simp [inNumeral, Nat.isDigit_of_mem_toDigits (by decide) (by decide) hm]
  cases n with
  | ofNat m => exact hdigits m hc
  | negSucc m =>
    have hsign : c ∈ ("-" ++ (m + 1).repr).toList := hc
    rw [String.toList_append, List.mem_append] at hsign
    rcases hsign with hminus | hrest
    · rw [List.mem_singleton.1 hminus]
      rfl
    · exact hdigits _ hrest

section Limits

variable {renderFraction : Rat → String}

theorem renderNumber_int (n : Int) : Json.renderNumber renderFraction n = n.repr := by
  simp [Json.renderNumber]

theorem repr_append_inj {n m : Int} {rest rest' : List Char} {c c' : Char}
    (hc : inNumeral c = false) (hc' : inNumeral c' = false) :
    n.repr.toList ++ c :: rest = m.repr.toList ++ c' :: rest' ↔ n = m ∧ c = c' ∧ rest = rest' := by
  rw [append_cons_inj (fun a => inNumeral_of_mem) (fun a => inNumeral_of_mem) hc hc',
    String.toList_inj, Int.repr_inj]

theorem limits_inj (hnumbers : Function.Injective (Json.renderNumber renderFraction))
    {l l' : ContractLimits}
    (h : l.toJson.stringify renderFraction = l'.toJson.stringify renderFraction) : l = l' := by
  have hduration : (Json.quote "max_duration_ms").toList = "\"max_duration_ms\"".toList := by
    decide +kernel
  have htokens : (Json.quote "max_tokens").toList = "\"max_tokens\"".toList := by decide +kernel
  have hcost : (Json.quote "max_cost").toList = "\"max_cost\"".toList := by decide +kernel
  have htext := congrArg String.toList h
  obtain ⟨d, t, c⟩ := l
  obtain ⟨d', t', c'⟩ := l'
  -- the names tell the members apart, the comma or the brace after a number ends it
  cases d <;> cases t <;> cases c <;> cases d' <;> cases t' <;> cases c' <;>
    simp (disch := decide) [ContractLimits.toJson, optionalMember, Json.stringify,
      Json.stringifyMembers, hduration, htokens, hcost, renderNumber_int, String.toList_inj,
      repr_append_inj, hnumbers.eq_iff] at htext ⊢ <;>
    exact htext

end Limits

/-! ## What the check lets through -/

structure KeepsTerms (original revised : WorkerAcceptanceContract) : Prop where
  criteria : ∀ c ∈ original.criteria, c ∈ revised.criteria
  capabilities : ∀ cap ∈ original.requiredCapabilities, cap ∈ revised.requiredCapabilities
  goal : revised.goal = original.goal
  limits : revised.limits = original.limits
  workspaceAlias : revised.workspaceAlias = original.workspaceAlias

/-- No two criteria share an id, unless they share the description too. -/
def Unambiguous (original : WorkerAcceptanceContract) : Prop :=
  ∀ c ∈ original.criteria, ∀ c' ∈ original.criteria, c.id = c'.id → c.description = c'.description

/-- Every id and every capability of the original is in the revision. -/
def KeepsNames (original revised : WorkerAcceptanceContract) : Prop :=
  (∀ c ∈ original.criteria, ∃ rc ∈ revised.criteria, rc.id = c.id) ∧
    ∀ cap ∈ original.requiredCapabilities, cap ∈ revised.requiredCapabilities

/-- What the check refuses: a shorter list, another goal, other limits, another
workspace, a criterion of the original described differently. -/
def ChangesTerms (original revised : WorkerAcceptanceContract) : Prop :=
  revised.criteria.length < original.criteria.length ∨
    revised.requiredCapabilities.length < original.requiredCapabilities.length ∨
    revised.goal ≠ original.goal ∨ revised.limits ≠ original.limits ∨
    revised.workspaceAlias ≠ original.workspaceAlias ∨
    ∃ rc ∈ revised.criteria, ∃ c ∈ original.criteria,
      rc.id = c.id ∧ rc.description ≠ c.description

theorem criterionNamed_some {criteria : List ContractCriterion} {id : String}
    {oc : ContractCriterion} (h : criterionNamed criteria id = some oc) :
    oc ∈ criteria ∧ oc.id = id :=
  ⟨List.mem_reverse.1 (List.mem_of_find?_eq_some h), by simpa using List.find?_some h⟩

theorem exists_criterionNamed {criteria : List ContractCriterion} {c : ContractCriterion}
    (hc : c ∈ criteria) : ∃ oc, criterionNamed criteria c.id = some oc := by
  rw [← Option.isSome_iff_exists, criterionNamed, List.find?_isSome]
  exact ⟨c, List.mem_reverse.2 hc, by simp⟩

theorem issueIf_eq_nil {condition : Bool} {message : String} :
    issueIf condition message = [] ↔ condition = false := by
  cases condition <;> simp [issueIf]

theorem criteriaIssues_eq_nil {original revised : List ContractCriterion} :
    criteriaIssues original revised = [] ↔ original.length ≤ revised.length ∧
      ∀ rc ∈ revised, ∀ oc, criterionNamed original rc.id = some oc →
        rc.description = oc.description := by
  unfold criteriaIssues
  split
  · next hfewer => simp [Nat.not_le.2 hfewer]
  next hcount =>
  simp only [List.flatMap_eq_nil_iff, issueIf_eq_nil, not_lt.1 hcount, true_and]
  refine forall₂_congr fun rc _ => ?_
  cases criterionNamed original rc.id <;> simp

section Check

variable {rt : Runtime} {original revised : WorkerAcceptanceContract}

/-- The descriptions are compared with the last criterion of an id; where ids are
unambiguous that is any criterion of the id. -/
theorem descriptions_iff (h : Unambiguous original) :
    (∀ rc ∈ revised.criteria, ∀ oc, criterionNamed original.criteria rc.id = some oc →
        rc.description = oc.description) ↔
      ¬ ∃ rc ∈ revised.criteria, ∃ c ∈ original.criteria,
        rc.id = c.id ∧ rc.description ≠ c.description := by
  constructor
  · rintro hnamed ⟨rc, hrc, c, hc, hid, hother⟩
    obtain ⟨oc, hoc⟩ := exists_criterionNamed hc
    obtain ⟨hmem, hocid⟩ := criterionNamed_some hoc
    rw [← hid] at hoc
    exact hother ((hnamed rc hrc oc hoc).trans (h oc hmem c hc hocid))
  intro hsame rc hrc oc hoc
  obtain ⟨hmem, hocid⟩ := criterionNamed_some hoc
  by_contra hother
  exact hsame ⟨rc, hrc, oc, hmem, hocid.symm, hother⟩

theorem validateContractRevision_eq_nil
    (hnumbers : Function.Injective (Json.renderNumber rt.renderFraction))
    (h : Unambiguous original) :
    validateContractRevision rt original revised = [] ↔ ¬ ChangesTerms original revised := by
  have hlimits : revised.limits.toJson.stringify rt.renderFraction =
      original.limits.toJson.stringify rt.renderFraction ↔ revised.limits = original.limits :=
    ⟨limits_inj hnumbers, fun h => by rw [h]⟩
  simp only [validateContractRevision, List.append_eq_nil_iff, criteriaIssues_eq_nil,
    descriptions_iff h, issueIf_eq_nil, decide_eq_false_iff_not, ChangesTerms, not_or, not_lt,
    ne_eq, not_not, hlimits]
  tauto

/-- A derived revision passes the check exactly when the ids are unambiguous. -/
theorem validateContractRevision_derived (contractId : String) (directive : RetryDirective)
    (revision : Int) :
    validateContractRevision rt original
      (deriveContractRevision rt contractId original directive revision) = [] ↔
    Unambiguous original := by
  have hcriteria : validateContractRevision rt original
      (deriveContractRevision rt contractId original directive revision) = [] ↔
      criteriaIssues original.criteria original.criteria = [] := by
    simp [validateContractRevision, deriveContractRevision, issueIf]
  rw [hcriteria, criteriaIssues_eq_nil]
  constructor
  · rintro ⟨-, hnamed⟩ c hc c' hc' hid
    obtain ⟨oc, hoc⟩ := exists_criterionNamed hc
    rw [hnamed c hc oc hoc, hnamed c' hc' oc (hid ▸ hoc)]
  intro h
  refine ⟨le_rfl, fun rc hrc oc hoc => ?_⟩
  obtain ⟨hmem, hocid⟩ := criterionNamed_some hoc
  exact h rc hrc oc hmem hocid.symm

theorem revision_weakens_nothing_iff (rt : Runtime)
    (hnumbers : Function.Injective (Json.renderNumber rt.renderFraction))
    (original revised : WorkerAcceptanceContract) (contractId : String)
    (directive : RetryDirective) (revision : Int) :
    ((validateContractRevision rt original revised = [] → KeepsTerms original revised) ∧
        validateContractRevision rt original
          (deriveContractRevision rt contractId original directive revision) = []) ↔
      Unambiguous original ∧ (KeepsNames original revised ∨ ChangesTerms original revised) := by
  rw [validateContractRevision_derived, and_comm]
  refine and_congr_right fun h => ?_
  rw [validateContractRevision_eq_nil hnumbers h]
  constructor
  · intro hkeeps
    by_cases hchanges : ChangesTerms original revised
    · exact .inr hchanges
    · have hterms := hkeeps hchanges
      exact .inl ⟨fun c hc => ⟨c, hterms.criteria c hc, rfl⟩, hterms.capabilities⟩
  rintro (⟨hids, hcaps⟩ | hchanges) hkept
  · simp only [ChangesTerms, not_or, not_exists, not_and, ne_eq, not_not] at hkept
    obtain ⟨-, -, hgoal, hlimits, halias, hsame⟩ := hkept
    refine ⟨fun c hc => ?_, hcaps, hgoal, hlimits, halias⟩
    obtain ⟨rc, hrc, hid⟩ := hids c hc
    have hdescription := hsame rc hrc c hc hid
    cases rc
    cases c
    simp_all
  · exact absurd hchanges hkept

end Check

/-! ### Two contracts with a capability each -/

/-- A runtime that tells all numbers apart. -/
def Runtime.exact : Runtime :=
  { Runtime.plain with renderFraction := fun q => q.num.repr ++ "/" ++ q.den.repr }

theorem renderNumber_exact_injective :
    Function.Injective (Json.renderNumber Runtime.exact.renderFraction) := by
  have hslash : ∀ n : Int, '/' ∉ n.repr.toList := fun n hn =>
    absurd (inNumeral_of_mem hn) (by decide)
  intro q q' h
  by_cases hq : q.den = 1 <;> by_cases hq' : q'.den = 1 <;>
    simp only [Json.renderNumber, Runtime.exact, hq, hq', if_true, if_false,
      Int.toString_eq_repr] at h
  · exact Rat.ext (Int.repr_inj.1 h) (hq.trans hq'.symm)
  · exact absurd (by simp [h]) (hslash q.num)
  · exact absurd (by simp [← h]) (hslash q'.num)
  · have hlist : q.num.repr.toList ++ '/' :: q.den.repr.toList =
        q'.num.repr.toList ++ '/' :: q'.den.repr.toList := by
      simpa using congrArg String.toList h
    obtain ⟨hnum, -, hden⟩ :=
      (List.append_cons_inj_of_notMem (hslash _) (hslash q.den)).1 hlist
    exact Rat.ext (Int.repr_inj.1 (String.toList_inj.1 hnum))
      (Nat.repr_inj.1 (String.toList_inj.1 hden))

def capableContract (capability : String) : WorkerAcceptanceContract :=
  { sampleContract 1 "c1" none none with requiredCapabilities := [capability] }

theorem kept_capability_weakens_nothing :
    (validateContractRevision Runtime.exact (capableContract "code") (capableContract "code") =
          [] → KeepsTerms (capableContract "code") (capableContract "code")) ∧
      validateContractRevision Runtime.exact (capableContract "code")
        (deriveContractRevision Runtime.exact "c2" (capableContract "code") sampleDirective 2) =
          [] :=
  (revision_weakens_nothing_iff Runtime.exact renderNumber_exact_injective _ _ "c2"
    sampleDirective 2).2 ⟨by simp [Unambiguous, capableContract, sampleContract],
      .inl ⟨fun c hc => ⟨c, hc, rfl⟩, fun cap hcap => hcap⟩⟩

/-- One capability in the place of another passes the check. -/
theorem exchanged_capability_passes :
    validateContractRevision Runtime.plain (capableContract "code") (capableContract "read") =
        [] ∧
      ¬ KeepsTerms (capableContract "code") (capableContract "read") :=
  ⟨by decide +kernel, fun h => absurd (h.capabilities "code" (by decide)) (by decide)⟩

end Abtars
