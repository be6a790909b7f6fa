import Abtars.Orc.RunStore
import Abtars.Peer.ContributionEvent

/-!
# The SHA policy

Two files make one policy.  The core file brings fix rules, the guardrails and the admission of log
anomalies, read leaf by leaf with bounded defaults; of the file with self-generated rules only its
fix rules count, and a core rule wins over them.
-/

namespace Abtars

open Lib Json

def minPatternLength : Nat := 10

inductive FixAction
  | run | suppress

structure FixRule where
  pattern : String
  action : Option FixAction
  command : Option (List String)
  verifyCommand : Option (List String)
  cooldownMin : Rat
  verified : Option Bool
  createdAt : Option String
  report : Option String
  enabled : Option Bool

inductive ShaMinimumMode
  | investigation | full

structure EffectiveLogAnomalyPolicy where
  notifyMain : Bool
  shaAllowed : Bool
  minimumMode : ShaMinimumMode
  cooldownMinutes : Nat

def anomalyCooldownMinFloor : Nat := 60

def anomalyCooldownMaxMinutes : Nat := 1440

/-- `DEFAULT_LOG_ANOMALY_POLICY`. -/
def EffectiveLogAnomalyPolicy.default : EffectiveLogAnomalyPolicy :=
  ⟨true, true, .investigation, anomalyCooldownMinFloor⟩

/-- `DISABLED_LOG_ANOMALY_POLICY`. -/
def EffectiveLogAnomalyPolicy.disabled : EffectiveLogAnomalyPolicy :=
  { EffectiveLogAnomalyPolicy.default with shaAllowed := false }

abbrev Members := List (String × Json)

/-! ## Fix rules -/

def readAction : Json → Option FixAction
  | .str "run" => some .run
  | .str "suppress" => some .suppress
  | _ => none

def readText : Json → Option String
  | .str s => some s
  | _ => none

def readBool : Json → Option Bool
  | .bool b => some b
  | _ => none

/-- An array of texts that is not empty. -/
def readArgv : Json → Option (List String)
  | .arr [] => none
  | .arr items => items.mapM readText
  | _ => none

/-- A member that may be absent; none where it is there and is not read. -/
def readOptional {α : Type} (read : Json → Option α) (r : Members) (key : String) :
    Option (Option α) :=
  match r.lookup key with
  | none => some none
  | some value => (read value).map some

def validateFixRule : Json → Option FixRule
  | .obj r => do
    let pattern ← text? (r.lookup "pattern")
    guard (trim pattern ≠ "")
    let action ← readOptional readAction r "action"
    let command ← readOptional readArgv r "command"
    let verifyCommand ← readOptional readArgv r "verifyCommand"
    let cooldownMin ← number? (r.lookup "cooldownMin")
    guard (0 ≤ cooldownMin)
    let verified ← readOptional readBool r "verified"
    let createdAt ← readOptional readText r "createdAt"
    let report ← readOptional readText r "report"
    let enabled ← readOptional readBool r "enabled"
    some ⟨pattern, action, command, verifyCommand, cooldownMin, verified, createdAt, report, enabled⟩
  | _ => none

/-! ## Files -/

/-- A file as it is found; `JSON.parse` makes a value of its text or throws. -/
inductive PolicyFile
  | absent
  | unreadable
  | parsed (value : Option Json)

inductive RawFileResult
  | ok (root : Members)
  | missing
  | invalidJson

def readJsonFile : PolicyFile → RawFileResult
  | .absent => .missing
  | .parsed (some (.obj root)) => .ok root
  | .unreadable | .parsed _ => .invalidJson

/-! ## Leaves

A leaf that is not valid resolves to its default, and its path is told. -/

def resolveLeaf {α : Type} (read : Json → Option α) (fallback : α) (raw : Option Json)
    (path : String) : α × List String :=
  match raw.bind read with
  | some value => (value, [])
  | none => (fallback, [path])

/-- A whole number between the two bounds. -/
def readCount (low high : Nat) : Json → Option Nat
  | .num q => if isSafeInteger q ∧ low ≤ q ∧ q ≤ high then some q.num.toNat else none
  | _ => none

def readMode : Json → Option ShaMinimumMode
  | .str "investigation" => some .investigation
  | .str "full" => some .full
  | _ => none

variable (raw : Option Json) (path : String)

def resolveCountLeaf (ceiling : Nat) : Nat × List String :=
  resolveLeaf (readCount 1 ceiling) ceiling raw path

def resolveBooleanLeaf (fallback : Bool) : Bool × List String :=
  resolveLeaf readBool fallback raw path

def resolveMinimumModeLeaf : ShaMinimumMode × List String :=
  resolveLeaf readMode EffectiveLogAnomalyPolicy.default.minimumMode raw path

def resolveCooldownLeaf : Nat × List String :=
  resolveLeaf (readCount anomalyCooldownMinFloor anomalyCooldownMaxMinutes) anomalyCooldownMinFloor
    raw path

def asObject : Option Json → Option Members
  | some (.obj members) => some members
  | _ => none

/-- The member of an object that may be none. -/
def leafOf (root : Option Members) (key : String) : Option Json := root.bind (·.lookup key)

def resolveOrcGuardrails (rawOrc : Option Json) : OrcGuardrails × List String :=
  match asObject rawOrc with
  | none => (.default, ["guardrails.orc"])
  | some orc =>
    let sameCard := asObject (orc.lookup "sameCard")
    let bridge := asObject (orc.lookup "bridge")
    let failed := resolveCountLeaf (leafOf (asObject (leafOf sameCard "failedOrNoProgress")) "max")
      "guardrails.orc.sameCard.failedOrNoProgress.max" OrcGuardrails.default.failedOrNoProgress
    let starts := resolveCountLeaf (leafOf (asObject (leafOf sameCard "startsWithoutProgress")) "max")
      "guardrails.orc.sameCard.startsWithoutProgress.max"
      OrcGuardrails.default.startsWithoutProgress
    let starts5m := resolveCountLeaf (leafOf bridge "starts5m") "guardrails.orc.bridge.starts5m"
      OrcGuardrails.default.starts5m
    let starts1h := resolveCountLeaf (leafOf bridge "starts1h") "guardrails.orc.bridge.starts1h"
      OrcGuardrails.default.starts1h
    let rows5m := resolveCountLeaf (leafOf bridge "newRunRows5m")
      "guardrails.orc.bridge.newRunRows5m" OrcGuardrails.default.newRunRows5m
    (⟨failed.1, starts.1, starts5m.1, starts1h.1, rows5m.1⟩,
      failed.2 ++ starts.2 ++ starts5m.2 ++ starts1h.2 ++ rows5m.2)

def resolveLogAnomalyPolicy (rawAnomaly : Option Json) : EffectiveLogAnomalyPolicy × List String :=
  match asObject rawAnomaly with
  | none => (.default, ["guardrails.logAnomaly"])
  | some la =>
    let notify := resolveBooleanLeaf (la.lookup "notifyMain") "guardrails.logAnomaly.notifyMain"
      EffectiveLogAnomalyPolicy.default.notifyMain
    let allowed := resolveBooleanLeaf (la.lookup "shaAllowed") "guardrails.logAnomaly.shaAllowed"
      EffectiveLogAnomalyPolicy.default.shaAllowed
    let mode := resolveMinimumModeLeaf (la.lookup "minimumMode") "guardrails.logAnomaly.minimumMode"
    let cooldown := resolveCooldownLeaf (la.lookup "cooldownMinutes")
      "guardrails.logAnomaly.cooldownMinutes"
    (⟨notify.1, allowed.1, mode.1, cooldown.1⟩, notify.2 ++ allowed.2 ++ mode.2 ++ cooldown.2)

/-! ## Full resolution -/

def parseFixList (root : Members) : List FixRule :=
  ((items? (root.lookup "fixes")).getD []).filterMap validateFixRule

def mergeSelfFixes (coreFixes : List FixRule) (selfRoot : Members) : List FixRule :=
  match items? (selfRoot.lookup "fixes") with
  | none => []
  | some entries =>
    coreFixes ++ (entries.filterMap validateFixRule).filter fun rule =>
      rule.pattern ∉ coreFixes.map (·.pattern) ∧ minPatternLength ≤ utf16Length rule.pattern ∧
        rule.enabled ≠ some false

inductive CorePolicyStatus
  | validV2 | validLegacy | missing | invalidJson | unsupportedSchema

inductive SelfPolicyStatus
  | valid | missing | invalidJson

structure EffectiveShaPolicy where
  fixes : List FixRule
  logAdmissionAllowed : Bool
  orc : OrcGuardrails
  logAnomaly : EffectiveLogAnomalyPolicy

structure PolicyDiagnostics where
  coreStatus : CorePolicyStatus
  selfStatus : SelfPolicyStatus
  fallbackFields : List String

/-- What the core file says, with its status and the leaves that fell back. -/
def resolveCore : RawFileResult → EffectiveShaPolicy × CorePolicyStatus × List String
  | .missing => (⟨[], false, .default, .disabled⟩, .missing, [])
  | .invalidJson => (⟨[], false, .default, .disabled⟩, .invalidJson, [])
  | .ok root =>
    match root.lookup "schemaVersion" with
    | none => (⟨parseFixList root, true, .default, .default⟩, .validLegacy, [])
    | some (.num 2) =>
      match asObject (root.lookup "guardrails") with
      | none => (⟨parseFixList root, true, .default, .default⟩, .validV2, ["guardrails"])
      | some guardrails =>
        let orc := resolveOrcGuardrails (guardrails.lookup "orc")
        let logAnomaly := resolveLogAnomalyPolicy (guardrails.lookup "logAnomaly")
        (⟨parseFixList root, true, orc.1, logAnomaly.1⟩, .validV2, orc.2 ++ logAnomaly.2)
    | some _ => (⟨[], false, .default, .disabled⟩, .unsupportedSchema, [])

def resolveSelf (coreFixes : List FixRule) : RawFileResult → List FixRule × SelfPolicyStatus
  | .missing => (coreFixes, .missing)
  | .invalidJson => (coreFixes, .invalidJson)
  | .ok root => (mergeSelfFixes coreFixes root, .valid)

def resolveAll (coreFile selfFile : PolicyFile) : EffectiveShaPolicy × PolicyDiagnostics :=
  let core := resolveCore (readJsonFile coreFile)
  let self := resolveSelf core.1.fixes (readJsonFile selfFile)
  ({ core.1 with fixes := self.1 }, ⟨core.2.1, self.2, core.2.2⟩)

/-! ## Bounds -/

theorem resolveLeaf_meets {α : Type} {P : α → Prop} {read : Json → Option α} {fallback : α}
    (hread : ∀ value a, read value = some a → P a) (hfallback : P fallback) (raw : Option Json)
    (path : String) : P (resolveLeaf read fallback raw path).1 := by
  unfold resolveLeaf
  cases hraw : raw.bind read with
  | none => exact hfallback
  | some a =>
    obtain ⟨value, -, hvalue⟩ := Option.bind_eq_some_iff.1 hraw
    exact hread value a hvalue

theorem readCount_bounds {low high n : Nat} {value : Json} (h : readCount low high value = some n) :
    low ≤ n ∧ n ≤ high := by
  cases value with
  | num q =>
    simp only [readCount] at h
    split at h <;> cases h
    rename_i hq
    obtain ⟨hsafe, hlow, hhigh⟩ := hq
    simp only [isSafeInteger, decide_eq_true_eq] at hsafe
    have hnum : q = (q.num : Rat) := (Rat.den_eq_one_iff q).1 hsafe.1 |>.symm
    rw [hnum] at hlow hhigh
    have hlow' : (low : Int) ≤ q.num := by exact_mod_cast hlow
    have hhigh' : q.num ≤ (high : Int) := by exact_mod_cast hhigh
    omega
  | _ => cases h

theorem resolveCountLeaf_bounds {ceiling : Nat} (h : 1 ≤ ceiling) :
    1 ≤ (resolveCountLeaf raw path ceiling).1 ∧ (resolveCountLeaf raw path ceiling).1 ≤ ceiling :=
  resolveLeaf_meets (P := fun n => 1 ≤ n ∧ n ≤ ceiling) (fun _ _ => readCount_bounds)
    ⟨h, Nat.le_refl ceiling⟩ raw path

structure OrcGuardrails.Within (ceilings g : OrcGuardrails) : Prop where
  failed : 1 ≤ g.failedOrNoProgress ∧ g.failedOrNoProgress ≤ ceilings.failedOrNoProgress
  starts : 1 ≤ g.startsWithoutProgress ∧ g.startsWithoutProgress ≤ ceilings.startsWithoutProgress
  starts5m : 1 ≤ g.starts5m ∧ g.starts5m ≤ ceilings.starts5m
  starts1h : 1 ≤ g.starts1h ∧ g.starts1h ≤ ceilings.starts1h
  rows5m : 1 ≤ g.newRunRows5m ∧ g.newRunRows5m ≤ ceilings.newRunRows5m

theorem OrcGuardrails.within_default : OrcGuardrails.default.Within .default := by
  constructor <;> decide

theorem resolveOrcGuardrails_within :
    OrcGuardrails.default.Within (resolveOrcGuardrails raw).1 := by
  unfold resolveOrcGuardrails
  split
  · exact OrcGuardrails.within_default
  · constructor
    all_goals exact resolveCountLeaf_bounds _ _ (by decide)

def EffectiveLogAnomalyPolicy.Floored (policy : EffectiveLogAnomalyPolicy) : Prop :=
  60 ≤ policy.cooldownMinutes ∧ policy.cooldownMinutes ≤ 1440

theorem resolveLogAnomalyPolicy_floored : (resolveLogAnomalyPolicy raw).1.Floored := by
  unfold resolveLogAnomalyPolicy
  split
  · exact ⟨by decide, by decide⟩
  · exact resolveLeaf_meets (P := fun n => 60 ≤ n ∧ n ≤ 1440) (fun _ _ => readCount_bounds)
      ⟨by decide, by decide⟩ _ _

/-! ## The core file -/

/-- The members of a core file of a version that is read. -/
def supportedRoot (core : PolicyFile) : Option Members :=
  match readJsonFile core with
  | .ok root =>
    match root.lookup "schemaVersion" with
    | none | some (.num 2) => some root
    | some _ => none
  | _ => none

/-- The valid rules of a core file, in their order. -/
def coreRules (core : PolicyFile) : List FixRule := ((supportedRoot core).map parseFixList).getD []

/-- What of the snapshot the core file alone decides. -/
structure CoreResolved (core : PolicyFile) (policy : EffectiveShaPolicy) : Prop where
  rules : policy.fixes = coreRules core
  guardrails : OrcGuardrails.default.Within policy.orc
  cooldown : policy.logAnomaly.Floored
  closed : supportedRoot core = none →
    policy.logAdmissionAllowed = false ∧ policy.logAnomaly.shaAllowed = false

theorem coreResolved (core : PolicyFile) :
    CoreResolved core (resolveCore (readJsonFile core)).1 := by
  have hdefault : EffectiveLogAnomalyPolicy.default.Floored := ⟨by decide, by decide⟩
  have hwithin := OrcGuardrails.within_default
  have hopen : ∀ {root : Members} {p : Prop}, supportedRoot core = some root →
      supportedRoot core = none → p := fun hsome hnone => by cases hsome.symm.trans hnone
  unfold resolveCore
  split
  · rename_i hread
    exact ⟨by simp [coreRules, supportedRoot, hread], hwithin, hdefault, fun _ => ⟨rfl, rfl⟩⟩
  · rename_i hread
    exact ⟨by simp [coreRules, supportedRoot, hread], hwithin, hdefault, fun _ => ⟨rfl, rfl⟩⟩
  rename_i root hread
  split
  · rename_i hversion
    have hroot : supportedRoot core = some root := by simp only [supportedRoot, hread, hversion]
    exact ⟨by rw [coreRules, hroot]; rfl, hwithin, hdefault, hopen hroot⟩
  · rename_i hversion
    have hroot : supportedRoot core = some root := by simp only [supportedRoot, hread, hversion]
    split
    · exact ⟨by rw [coreRules, hroot]; rfl, hwithin, hdefault, hopen hroot⟩
    · exact ⟨by rw [coreRules, hroot]; rfl, resolveOrcGuardrails_within _,
        resolveLogAnomalyPolicy_floored _, hopen hroot⟩
  · rename_i hversion
    have hroot : supportedRoot core = none := by simp [supportedRoot, hread, hversion]
    exact ⟨by rw [coreRules, hroot]; rfl, hwithin, hdefault, fun _ => ⟨rfl, rfl⟩⟩

/-! ## Both files -/

/-- A rule that the file with self-generated rules may add. -/
structure MayAdd (core selfFile : PolicyFile) (rule : FixRule) : Prop where
  valid : ∃ root entries entry, selfFile = .parsed (some (.obj root)) ∧
    items? (root.lookup "fixes") = some entries ∧ entry ∈ entries ∧
    validateFixRule entry = some rule
  enabled : rule.enabled ≠ some false
  long : minPatternLength ≤ utf16Length rule.pattern
  fresh : ∀ own ∈ coreRules core, own.pattern ≠ rule.pattern

structure FailsClosed (core selfFile : PolicyFile) : Prop where
  coreFirst : ∃ added, (resolveAll core selfFile).1.fixes = coreRules core ++ added ∧
    ∀ rule ∈ added, MayAdd core selfFile rule
  guardrails : OrcGuardrails.default.Within (resolveAll core selfFile).1.orc
  cooldown : (resolveAll core selfFile).1.logAnomaly.Floored
  onlyFixes : ∀ root root', selfFile = .parsed (some (.obj root)) →
    root'.lookup "fixes" = root.lookup "fixes" →
    (resolveAll core (.parsed (some (.obj root')))).1 = (resolveAll core selfFile).1
  closed : supportedRoot core = none → (resolveAll core selfFile).1.logAdmissionAllowed = false ∧
    (resolveAll core selfFile).1.logAnomaly.shaAllowed = false

/-- **The policy fails closed, and self rules weaken no core rule, just where the file of the self
rules has a list of fixes or the core file has no valid rule.** -/
theorem policy_fails_closed_iff (core selfFile : PolicyFile) :
    FailsClosed core selfFile ↔ coreRules core = [] ∨
      ∀ root, selfFile = .parsed (some (.obj root)) →
        (items? (root.lookup "fixes")).isSome = true := by
  obtain ⟨hrules, hguardrails, hcooldown, hclosed⟩ := coreResolved core
  constructor
  · rintro ⟨⟨added, hfixes, -⟩, -⟩
    refine or_iff_not_imp_left.2 fun hcore root hself => ?_
    subst hself
    by_contra hlist
    have hnone : items? (root.lookup "fixes") = none := by simpa using hlist
    simp only [resolveAll, readJsonFile, resolveSelf, mergeSelfFixes, hnone] at hfixes
    exact hcore (List.append_eq_nil_iff.1 hfixes.symm).1
  intro h
  refine ⟨?_, hguardrails, hcooldown, ?_, hclosed⟩
  · have halone : (resolveSelf (coreRules core) (readJsonFile selfFile)).1 = coreRules core →
        ∃ added, (resolveAll core selfFile).1.fixes = coreRules core ++ added ∧
          ∀ rule ∈ added, MayAdd core selfFile rule := fun hsame =>
      ⟨[], by simp only [resolveAll, hrules, hsame, List.append_nil], by simp⟩
    cases hread : readJsonFile selfFile with
    | missing => exact halone (by rw [hread]; rfl)
    | invalidJson => exact halone (by rw [hread]; rfl)
    | ok root =>
      have hself : selfFile = .parsed (some (.obj root)) := by
        unfold readJsonFile at hread
        split at hread <;> cases hread
        rfl
      cases hlist : items? (root.lookup "fixes") with
      | none =>
        have hempty : coreRules core = [] := h.resolve_right fun hlists => by
          have hsome := hlists root hself
          rw [hlist] at hsome
          cases hsome
        refine halone ?_
        simp only [hread, resolveSelf, mergeSelfFixes, hlist, hempty]
      | some entries =>
        refine ⟨_, by simp only [resolveAll, hrules, hread, resolveSelf, mergeSelfFixes, hlist]; rfl,
          fun rule hrule => ?_⟩
        obtain ⟨hmem, hkept⟩ := List.mem_filter.1 hrule
        obtain ⟨entry, hentry, hvalid⟩ := List.mem_filterMap.1 hmem
        simp only [decide_eq_true_eq] at hkept
        exact ⟨⟨root, entries, entry, hself, hlist, hentry, hvalid⟩, hkept.2.2, hkept.2.1,
          fun own hown heq => hkept.1 (heq ▸ List.mem_map_of_mem hown)⟩
  · rintro root root' rfl hsame
    simp only [resolveAll, readJsonFile, resolveSelf, mergeSelfFixes, hsame]

def suppressRule : Json :=
  .obj [("pattern", .str "connection reset"), ("cooldownMin", .num 5)]

/-- Self fixes that are no list take the rules of the core file with them. -/
theorem core_rules_lost : ¬ ∀ core selfFile, FailsClosed core selfFile := by
  intro hall
  obtain ⟨added, hfixes, -⟩ := (hall (.parsed (some (.obj [("fixes", .arr [suppressRule])])))
    (.parsed (some (.obj [("fixes", .null)])))).coreFirst
  have hrules : (coreRules (.parsed (some (.obj [("fixes", .arr [suppressRule])])))).length = 1 := by
    decide +kernel
  have hnone : (resolveAll (.parsed (some (.obj [("fixes", .arr [suppressRule])])))
      (.parsed (some (.obj [("fixes", .null)])))).1.fixes = [] := rfl
  rw [hnone] at hfixes
  rw [(List.append_eq_nil_iff.1 hfixes.symm).1] at hrules
  cases hrules

end Abtars
