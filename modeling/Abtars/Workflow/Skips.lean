import Abtars.Workflow.Transitions

/-!
# What a failed node skips

`skipDependents` skips the queued nodes that wait for the failed node, and then, pass by pass,
those that wait for a skipped one.
-/

namespace Abtars

open Lib

namespace WorkflowRun

variable {n : NodeRow} {p : NodeRow → Bool} {start : WorkflowRun} {fuel : Nat}

variable {run : WorkflowRun} {revision : Nat} {nodeId id dep : NodeId}

def statusOf (run : WorkflowRun) (revision : Nat) (nodeId : NodeId) : Option NodeStatus :=
  (run.findNode revision nodeId).map (·.status)

/-- A queued node of the revision that waits for the failed one, for a skipped one, or for
another of these. -/
inductive Doomed (run : WorkflowRun) (revision : Nat) (nodeId : NodeId) : NodeId → Prop
  | direct {id : NodeId} (hqueued : run.statusOf revision id = some .queued)
      (h : run.dependsOn revision id nodeId = true) : Doomed run revision nodeId id
  | behind {id dep : NodeId} (hqueued : run.statusOf revision id = some .queued)
      (hskipped : run.statusOf revision dep = some .skipped)
      (h : run.dependsOn revision id dep = true) : Doomed run revision nodeId id
  | next {id dep : NodeId} (hqueued : run.statusOf revision id = some .queued)
      (hdep : Doomed run revision nodeId dep) (h : run.dependsOn revision id dep = true) :
      Doomed run revision nodeId id

theorem Doomed.queued (h : run.Doomed revision nodeId id) :
    run.statusOf revision id = some .queued := by
  cases h <;> assumption

theorem mem_of_findNode (h : run.findNode revision id = some n) :
    n ∈ run.nodes ∧ n.revision = revision ∧ n.nodeId = id := by
  have hkey : (n.revision, n.nodeId) = (revision, id) := Table.key_of_get h
  exact ⟨Table.mem_of_get h, congrArg Prod.fst hkey, congrArg Prod.snd hkey⟩

theorem findNode_of_mem (h : n ∈ run.nodes) : run.findNode n.revision n.nodeId = some n :=
  Table.get_key_of_mem h

/-! ## One pass -/

theorem key_skipped (n : NodeRow) : Keyed.key (n.withStatus .skipped) = Keyed.key n := rfl

def skipWhere (run : WorkflowRun) (p : NodeRow → Bool) : WorkflowRun :=
  { run with nodes := run.nodes.updateWhere p (NodeRow.withStatus .skipped) key_skipped }

theorem findNode_skipWhere (run : WorkflowRun) (p : NodeRow → Bool) (r : Nat) (id : NodeId) :
    (run.skipWhere p).findNode r id =
      (run.findNode r id).map fun n => if p n then n.withStatus .skipped else n :=
  Table.get_updateWhere run.nodes p (NodeRow.withStatus .skipped) (fun _ => rfl) (r, id)

theorem statusOf_skipWhere {r : Nat} (hn : run.findNode r id = some n) :
    (run.skipWhere p).statusOf r id = some (if p n then .skipped else n.status) := by
  rw [statusOf, findNode_skipWhere, hn]
  simp only [Option.map_some, Option.some.injEq]
  split <;> rfl

theorem skipDirectOf_eq (revision : Nat) (nodeId : NodeId) (run : WorkflowRun) :
    run.skipDirectOf revision nodeId = run.skipWhere fun n =>
      n.revision = revision ∧ n.status = .queued ∧ run.dependsOn revision n.nodeId nodeId := rfl

theorem skippable_iff : run.skippable revision n = true ↔
    n.revision = revision ∧ n.status = .queued ∧
      ∃ dep, run.statusOf revision dep = some .skipped ∧
        run.dependsOn revision n.nodeId dep = true := by
  simp only [skippable, decide_eq_true_eq, List.any_eq_true]
  refine and_congr_right fun _ => and_congr_right fun _ => ?_
  constructor
  · rintro ⟨m, hm, rfl, hskipped, hdep⟩
    refine ⟨m.nodeId, ?_, hdep⟩
    rw [statusOf, findNode_of_mem hm, Option.map_some, hskipped]
  rintro ⟨dep, hskipped, hdep⟩
  obtain ⟨m, hm, hstatus⟩ := Option.map_eq_some_iff.1 hskipped
  obtain ⟨hmem, hrevision, hid⟩ := mem_of_findNode hm
  exact ⟨m, hmem, hrevision, hstatus, hid ▸ hdep⟩

/-! ## What the passes reach -/

/-- Between the start of the skipping and its end: some doomed nodes are skipped, and nothing
else changed. -/
structure Skipping (start run : WorkflowRun) (revision : Nat) (nodeId : NodeId) : Prop where
  rest : run = { start with nodes := run.nodes }
  node : ∀ r id, run.findNode r id = start.findNode r id ∨
    r = revision ∧ start.Doomed revision nodeId id ∧
      run.findNode r id = (start.findNode r id).map (NodeRow.withStatus .skipped)

theorem Skipping.dependsOn (h : Skipping start run revision nodeId)
    (id dep : NodeId) : run.dependsOn revision id dep = start.dependsOn revision id dep := by
  rw [h.rest]
  rfl

/-- A node that waits for something the skipping reached is doomed. -/
theorem Skipping.skipWhere (h : Skipping start run revision nodeId)
    (hp : ∀ n, p n = true → n.revision = revision ∧ n.status = .queued ∧
      (run.dependsOn revision n.nodeId nodeId = true ∨ ∃ dep,
        run.statusOf revision dep = some .skipped ∧
          run.dependsOn revision n.nodeId dep = true)) :
    Skipping start (run.skipWhere p) revision nodeId := by
  refine ⟨?_, fun r id => ?_⟩
  · rw [WorkflowRun.skipWhere, h.rest]
  rw [findNode_skipWhere]
  cases hn : run.findNode r id with
  | none =>
    rw [Option.map_none, ← hn]
    exact h.node r id
  | some n =>
    rw [Option.map_some]
    by_cases hpn : p n = true
    · rw [if_pos hpn]
      obtain ⟨hrevision, hqueued, hwaits⟩ := hp n hpn
      obtain ⟨-, rfl, rfl⟩ := mem_of_findNode hn
      -- a queued node is untouched so far
      have hsame : run.findNode n.revision n.nodeId = start.findNode n.revision n.nodeId := by
        rcases h.node n.revision n.nodeId with hsame | ⟨-, -, hskipped⟩
        · exact hsame
        · rw [hn] at hskipped
          obtain ⟨m, -, rfl⟩ := Option.map_eq_some_iff.1 hskipped.symm
          cases hqueued
      have hstart : start.findNode n.revision n.nodeId = some n := hsame.symm.trans hn
      have hstatus : start.statusOf revision n.nodeId = some .queued := by
        rw [statusOf, ← hrevision, hstart, Option.map_some, hqueued]
      refine .inr ⟨hrevision, ?_, by rw [hstart, Option.map_some]⟩
      rcases hwaits with hdirect | ⟨dep, hskipped, hdep⟩
      · exact .direct hstatus (h.dependsOn _ _ ▸ hdirect)
      have hdep' := h.dependsOn n.nodeId dep ▸ hdep
      rcases h.node revision dep with hsame | ⟨-, hdoomed, -⟩
      · refine .behind hstatus ?_ hdep'
        rw [statusOf, ← hsame]
        exact hskipped
      · exact .next hstatus hdoomed hdep'
    · rw [if_neg hpn, ← hn]
      exact h.node r id

theorem Skipping.pass (h : Skipping start run revision nodeId) :
    Skipping start (run.skipPass revision) revision nodeId := by
  refine h.skipWhere fun n hn => ?_
  obtain ⟨hrevision, hqueued, hdep⟩ := skippable_iff.1 hn
  exact ⟨hrevision, hqueued, .inr hdep⟩

theorem Skipping.passes (h : Skipping start run revision nodeId) :
    Skipping start (run.skipPasses revision fuel) revision nodeId := by
  induction fuel generalizing run with
  | zero => exact h
  | succ fuel ih =>
    rw [skipPasses]
    split
    · exact ih h.pass
    · exact h

theorem skipping_direct (run : WorkflowRun) (revision : Nat) (nodeId : NodeId) :
    Skipping run (run.skipDirectOf revision nodeId) revision nodeId := by
  have hstart : Skipping run run revision nodeId := ⟨rfl, fun _ _ => .inl rfl⟩
  refine hstart.skipWhere fun n hn => ?_
  simp only [decide_eq_true_eq] at hn
  exact ⟨hn.1, hn.2.1, .inl hn.2.2⟩

theorem skipping_skipDependents (run : WorkflowRun) (revision : Nat) (nodeId : NodeId) :
    Skipping run (run.skipDependents revision nodeId) revision nodeId :=
  (skipping_direct run revision nodeId).passes

/-! ## The passes reach everything -/

theorem countP_lt_countP {α : Type*} {p q : α → Bool} {l : List α} {a : α} (ha : a ∈ l)
    (hmono : ∀ x ∈ l, p x = true → q x = true) (hp : p a = false) (hq : q a = true) :
    l.countP p < l.countP q := by
  induction l with
  | nil => cases ha
  | cons x l ih =>
    have hrest : l.countP p ≤ l.countP q :=
      List.countP_mono_left fun y hy => hmono y (List.mem_cons_of_mem x hy)
    rw [List.countP_cons, List.countP_cons]
    rcases List.mem_cons.1 ha with rfl | ha
    · simp only [hp, hq, if_true, Bool.false_eq_true, if_false]
      omega
    have hlt := ih ha fun y hy => hmono y (List.mem_cons_of_mem x hy)
    have hx := hmono x List.mem_cons_self
    split
    · rename_i hpx
      rw [if_pos (hx hpx)]
      omega
    · omega

theorem queuedCount_skipPass_lt (hn : n ∈ run.nodes) (hskip : run.skippable revision n = true) :
    (run.skipPass revision).queuedCount revision < run.queuedCount revision := by
  have hqueued := skippable_iff.1 hskip
  simp only [queuedCount, Table.select, ← List.countP_eq_length_filter]
  show List.countP _ (run.nodes.rows.map _) < _
  rw [List.countP_map]
  refine countP_lt_countP hn (fun m _ hm => ?_) ?_ ?_
  · by_cases hpm : run.skippable revision m = true
    · simp [hpm, NodeRow.withStatus] at hm
    · simpa [hpm] using hm
  · simp [hskip, NodeRow.withStatus]
  · simp [hqueued.1, hqueued.2.1]

theorem skippable_skipPasses (hfuel : run.queuedCount revision ≤ fuel) :
    ∀ n ∈ (run.skipPasses revision fuel).nodes,
      (run.skipPasses revision fuel).skippable revision n = false := by
  induction fuel generalizing run with
  | zero =>
    intro n hn
    by_contra hskip
    have hlt := queuedCount_skipPass_lt hn (by simpa using hskip)
    rw [skipPasses] at hlt
    omega
  | succ fuel ih =>
    rw [skipPasses]
    split
    · rename_i hany
      obtain ⟨n, hn, hskip⟩ := List.any_eq_true.1 hany
      have hlt := queuedCount_skipPass_lt hn hskip
      exact ih (by omega)
    rename_i hnone
    intro n hn
    by_contra hskip
    exact hnone (List.any_eq_true.2 ⟨n, hn, by simpa using hskip⟩)

theorem statusOf_skipDirectOf (hqueued : run.statusOf revision id = some .queued)
    (h : run.dependsOn revision id nodeId = true) :
    (run.skipDirectOf revision nodeId).statusOf revision id = some .skipped := by
  obtain ⟨n, hn, hstatus⟩ := Option.map_eq_some_iff.1 hqueued
  obtain ⟨-, hrevision, hid⟩ := mem_of_findNode hn
  rw [skipDirectOf_eq, statusOf_skipWhere hn, if_pos]
  simp [hrevision, hid, hstatus, h]

theorem statusOf_skipWhere_of_skipped {r : Nat}
    (h : run.statusOf r id = some .skipped) : (run.skipWhere p).statusOf r id = some .skipped := by
  obtain ⟨n, hn, hstatus⟩ := Option.map_eq_some_iff.1 h
  rw [statusOf_skipWhere hn, hstatus, ite_self]

theorem statusOf_skipPasses {r : Nat} (h : run.statusOf r id = some .skipped) :
    (run.skipPasses revision fuel).statusOf r id = some .skipped := by
  induction fuel generalizing run with
  | zero => exact h
  | succ fuel ih =>
    rw [skipPasses]
    split
    · exact ih (statusOf_skipWhere_of_skipped h)
    · exact h

theorem statusOf_of_doomed (h : run.Doomed revision nodeId id) :
    (run.skipDependents revision nodeId).statusOf revision id = some .skipped := by
  have hskip := skipping_skipDependents run revision nodeId
  have hdone : ∀ n ∈ (run.skipDependents revision nodeId).nodes,
      (run.skipDependents revision nodeId).skippable revision n = false :=
    skippable_skipPasses (le_refl _)
  -- a node still queued behind a skipped one could be skipped once more
  have hbehind : ∀ {id dep}, run.statusOf revision id = some .queued →
      (run.skipDependents revision nodeId).statusOf revision dep = some .skipped →
      run.dependsOn revision id dep = true →
      (run.skipDependents revision nodeId).statusOf revision id = some .skipped := by
    intro id dep hqueued hdep hedge
    rcases hskip.node revision id with hsame | ⟨-, -, hskipped⟩
    · exfalso
      obtain ⟨n, hn, hstatus⟩ := Option.map_eq_some_iff.1 hqueued
      have hn' := hsame.trans hn
      obtain ⟨hmem, hrevision, hid⟩ := mem_of_findNode hn'
      have hnot := hdone n hmem
      rw [Bool.eq_false_iff] at hnot
      refine hnot (skippable_iff.2 ⟨hrevision, hstatus, dep, hdep, ?_⟩)
      rw [hskip.dependsOn, hid]
      exact hedge
    · obtain ⟨n, hn, -⟩ := Option.map_eq_some_iff.1 hqueued
      rw [statusOf, hskipped, hn]
      rfl
  induction h with
  | direct hqueued h => exact statusOf_skipPasses (statusOf_skipDirectOf hqueued h)
  | behind hqueued hskipped h =>
    exact hbehind hqueued (statusOf_skipPasses (statusOf_skipWhere_of_skipped hskipped)) h
  | next hqueued _ h ih => exact hbehind hqueued ih h

theorem findNode_skipDependents (run : WorkflowRun) (revision : Nat) (nodeId : NodeId) (r : Nat)
    (id : NodeId) :
    (r = revision ∧ run.Doomed revision nodeId id ∧
      (run.skipDependents revision nodeId).findNode r id =
        (run.findNode r id).map (NodeRow.withStatus .skipped)) ∨
    ¬ (r = revision ∧ run.Doomed revision nodeId id) ∧
      (run.skipDependents revision nodeId).findNode r id = run.findNode r id := by
  rcases (skipping_skipDependents run revision nodeId).node r id with hsame | hskipped
  · by_cases hdoomed : r = revision ∧ run.Doomed revision nodeId id
    · exfalso
      obtain ⟨rfl, hdoomed⟩ := hdoomed
      have hskipped := statusOf_of_doomed hdoomed
      rw [statusOf, hsame] at hskipped
      cases hdoomed.queued.symm.trans hskipped
    · exact .inr ⟨hdoomed, hsame⟩
  · exact .inl hskipped

/-- Skipping ends with the least closed set of nodes: only the doomed ones are skipped, nothing
else changes, and no node is left queued behind the failed one or a skipped one. -/
theorem skipDependents_exact (run : WorkflowRun) (revision : Nat) (nodeId : NodeId) :
    let run' := run.skipDependents revision nodeId
    run' = { run with nodes := run'.nodes } ∧
      (∀ r id, r = revision ∧ run.Doomed revision nodeId id ∧
          run'.findNode r id = (run.findNode r id).map (NodeRow.withStatus .skipped) ∨
        ¬ (r = revision ∧ run.Doomed revision nodeId id) ∧
          run'.findNode r id = run.findNode r id) ∧
      ∀ id dep, run'.statusOf revision id = some .queued →
        run.dependsOn revision id dep = true →
          dep ≠ nodeId ∧ run'.statusOf revision dep ≠ some .skipped := by
  intro run'
  have hnode := findNode_skipDependents run revision nodeId
  refine ⟨(skipping_skipDependents run revision nodeId).rest, hnode, fun id dep hqueued hdep => ?_⟩
  rcases hnode revision id with ⟨-, hdoomed, -⟩ | ⟨hsafe, hsame⟩
  · cases (statusOf_of_doomed hdoomed).symm.trans hqueued
  -- what is still queued was queued from the start, so that it would be doomed
  have hstart : run.statusOf revision id = some .queued := by
    rw [statusOf, ← hsame]
    exact hqueued
  refine ⟨fun h => hsafe ⟨rfl, .direct hstart (h ▸ hdep)⟩, fun hskipped => hsafe ⟨rfl, ?_⟩⟩
  rcases hnode revision dep with ⟨-, hdoomed, -⟩ | ⟨-, hsame⟩
  · exact .next hstart hdoomed hdep
  · exact .behind hstart (by rwa [statusOf, ← hsame]) hdep

end WorkflowRun

end Abtars
