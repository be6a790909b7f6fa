import Abtars.Task.RunStore

/-!
# The history of scheduled runs

Terminal events are appended once per run id and kept for a bounded time.  The
event of a run that is not finished is never a victim of retention: a settlement
interrupted by a crash is repaired from it.
-/

namespace Abtars

open Lib

def taskHistoryRetentionMs : Int := 90 * 24 * 60 * 60 * 1000
def taskHistoryMaxRows : Nat := 10000

def historyProtected (db : Db) (event : TaskRunEvent) : Bool :=
  (db.taskRuns.get event.runId).any fun run => run.finishedAt = none

def olderEvent (a b : TaskRunEvent) : Bool :=
  a.finishedAt < b.finishedAt ∨ a.finishedAt = b.finishedAt ∧ a.runId ≤ b.runId

def historyOverflow (db : Db) : List TaskRunEvent :=
  let eligible := db.taskRunHistory.select fun event => historyProtected db event = false
  (eligible.insertionSort fun a b => olderEvent a b = true).take
    (eligible.length - taskHistoryMaxRows)

/-- `pruneTaskRunHistory`: first by age, then down to the ceiling. -/
def pruneTaskRunHistory (now : Millis) (db : Db) : Db :=
  let fresh :=
    { db with
      taskRunHistory := db.taskRunHistory.deleteWhere fun event =>
        event.finishedAt < now - taskHistoryRetentionMs ∧ historyProtected db event = false }
  { fresh with
    taskRunHistory := fresh.taskRunHistory.deleteWhere fun event =>
      (historyOverflow fresh).any fun victim => victim.runId = event.runId }

/-- `appendRunOnce`: the event is recorded unless its run already has one. -/
def appendRunOnce (now : Millis) (event : TaskRunEvent) (db : Db) : Option Db :=
  (db.taskRunHistory.insert (fun _ => false) event).map fun history =>
    pruneTaskRunHistory now { db with taskRunHistory := history }

section Spec

variable {now : Millis} {event : TaskRunEvent} {db db' : Db}

theorem pruneTaskRunHistory_frame (now : Millis) (db : Db) :
    ∃ history, pruneTaskRunHistory now db = { db with taskRunHistory := history } :=
  ⟨_, rfl⟩

theorem get_pruneTaskRunHistory (now : Millis) {runId : String}
    (hget : db.taskRunHistory.get runId = some event) (hopen : historyProtected db event = true) :
    (pruneTaskRunHistory now db).taskRunHistory.get runId = some event := by
  have hmem : event ∈ db.taskRunHistory := Table.mem_of_get hget
  have hkey : event.runId = runId := Table.key_of_get hget
  refine Table.get_eq_some_iff.2 ⟨?_, hkey⟩
  refine Table.mem_deleteWhere.2 ⟨Table.mem_deleteWhere.2 ⟨hmem, by simp [hopen]⟩, ?_⟩
  rw [Bool.eq_false_iff]
  intro hvictim
  obtain ⟨victim, hvictim, hid⟩ := List.any_eq_true.1 hvictim
  have hsame : victim.runId = event.runId := by simpa using hid
  -- a victim is eligible, and eligibility only looks at the run
  have heligible := (List.mem_insertionSort _).1 (List.mem_of_mem_take hvictim)
  obtain ⟨-, hclosed⟩ := (Table.mem_select _ _ _).1 heligible
  have hprotected : historyProtected db victim = historyProtected db event := by
    rw [historyProtected, hsame, historyProtected]
  rw [hopen] at hprotected
  simp only [decide_eq_true_eq] at hclosed
  exact absurd (hclosed.symm.trans hprotected) (by decide)

/-- An append is refused because the run has an event, or records the event, which
stays while the run is open. -/
theorem appendRunOnce_cases (now : Millis) (event : TaskRunEvent) (db : Db) :
    (∃ old, db.taskRunHistory.get event.runId = some old ∧ appendRunOnce now event db = none) ∨
    db.taskRunHistory.get event.runId = none ∧
      ∃ history, appendRunOnce now event db = some { db with taskRunHistory := history } ∧
        (historyProtected db event = true → history.get event.runId = some event) := by
  cases hget : db.taskRunHistory.get event.runId with
  | some old =>
    left
    refine ⟨old, rfl, ?_⟩
    rw [appendRunOnce, Option.map_eq_none_iff]
    by_contra hsome
    obtain ⟨history, hinsert⟩ := Option.ne_none_iff_exists'.1 hsome
    have hfree := (Table.insert_eq_some_iff.1 hinsert).1
    rw [key_taskRunEvent, hget] at hfree
    cases hfree
  | none =>
    right
    obtain ⟨history, hinsert⟩ : ∃ history,
        db.taskRunHistory.insert (fun _ => false) event = some history :=
      Table.exists_insert_iff.2 ⟨hget, fun _ _ => rfl⟩
    obtain ⟨kept, hkept⟩ :=
      pruneTaskRunHistory_frame now { db with taskRunHistory := history }
    refine ⟨rfl, kept, ?_, fun hopen => ?_⟩
    · rw [appendRunOnce, hinsert, Option.map_some, hkept]
    have hrow : history.get event.runId = some event := Table.get_insert_new hinsert
    have hprotected :
        historyProtected { db with taskRunHistory := history } event = true := hopen
    have hsurvives := get_pruneTaskRunHistory now hrow hprotected
    rwa [hkept] at hsurvives

theorem get_of_appended (happend : appendRunOnce now event db = some db')
    (hopen : historyProtected db event = true) :
    db'.taskRunHistory.get event.runId = some event := by
  rcases appendRunOnce_cases now event db with ⟨_, -, hrefused⟩ | ⟨-, history, hcase, hkept⟩
  · rw [happend] at hrefused
    cases hrefused
  · rw [happend, Option.some.injEq] at hcase
    rw [hcase]
    exact hkept hopen

theorem get_of_appendRunOnce {recorded : TaskRunEvent} {runId : String}
    (happend : appendRunOnce now event db = some db')
    (hget : db.taskRunHistory.get runId = some recorded)
    (hopen : historyProtected db recorded = true) :
    db'.taskRunHistory.get runId = some recorded := by
  obtain ⟨history, hinsert, rfl⟩ := Option.map_eq_some_iff.1 happend
  have hrow : history.get runId = some recorded := Table.get_insert_of_some hinsert hget
  have hprotected : historyProtected { db with taskRunHistory := history } recorded = true := hopen
  exact get_pruneTaskRunHistory now hrow hprotected

end Spec

end Abtars
