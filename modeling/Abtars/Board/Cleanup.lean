import Abtars.Board.Dependencies
import Abtars.Board.Journal
import Abtars.Lib.Peel

/-!
# Purging old cards

`kanbanCleanup` deletes terminal cards past the retention age.  A card that a Pi run
refers to, or that has a child past the age limit's reach, is retained; of the rest
the journal goes at once and the rows go leaf first.

What is deleted is exactly what is removable: a purgable card all of whose children
are.  A purgable card with a retained child stays without its journal, and cards that
wait for a deleted one are not asked: `cleanup_preserves_iff` says when neither
happens.
-/

namespace Abtars

open Lib

/-! ## The cleanup -/

/-- `datetime('now', '-N days')` in seconds; a second sign is no modifier. -/
def retentionCutoff (now : Millis) (olderThanDays : Int) : Option Int :=
  if olderThanDays < 0 then none else some (now / 1000 - olderThanDays * 86400)

variable (cutoff : Option Int)

def isBefore (at_ : Option Millis) : Bool :=
  match cutoff, at_ with
  | some limit, some at_ => at_ / 1000 < limit
  | _, _ => false

def isDoomed (card : KanbanCard) : Bool :=
  (card.status = .delivered ∧ isBefore cutoff card.deliveredAt) ∨
    ((card.status = .done ∨ card.status = .failed) ∧
      isBefore cutoff (card.completedAt.orElse fun _ => some card.updatedAt))

def doomedIds (board : Table KanbanCard) : List Nat :=
  (board.select (isDoomed cutoff)).map (·.id)

def isReferenced (piRuns : Option (Table PiRunRow)) (id : Nat) : Bool :=
  piRuns.any fun runs => runs.rows.any fun run => run.cardId = id

def hasLiveChild (board : Table KanbanCard) (id : Nat) : Bool :=
  board.rows.any fun card =>
    card.parentId = some id ∧ card.id ∉ doomedIds cutoff board

def purgableIds (db : Db) : List Nat :=
  (doomedIds cutoff db.kanbanBoard).filter fun id =>
    !isReferenced db.piRuns id ∧ !hasLiveChild cutoff db.kanbanBoard id

def kanbanCleanup (now : Millis) (olderThanDays : Int) (db : Db) : Nat × Db :=
  let purgable := purgableIds (retentionCutoff now olderThanDays) db
  if purgable = [] then (0, db)
  else
    let board := peel (·.parentId) (fun id => id ∈ purgable) db.kanbanBoard
    (db.kanbanBoard.rows.length - board.rows.length,
      { db with
        kanbanBoard := board
        kanbanCardTransitions := db.kanbanCardTransitions.deleteWhere (·.cardId ∈ purgable) })

/-! ## What a cleanup is to preserve -/

def Gone (db db' : Db) (id : Nat) : Prop :=
  (db.kanbanBoard.get id).isSome = true ∧ db'.kanbanBoard.get id = none

structure CleanupPreserves (db db' : Db) : Prop where
  deletedJournal : ∀ id, Gone db db' id → cardJournal db' id = []
  keptJournal : ∀ card ∈ db'.kanbanBoard, cardJournal db' card.id = cardJournal db card.id
  parents : ∀ card ∈ db'.kanbanBoard, ∀ parent, card.parentId = some parent →
    ¬ Gone db db' parent
  piRuns : ∀ runs, db'.piRuns = some runs → ∀ run ∈ runs, ¬ Gone db db' run.cardId
  unblocked : ∀ card ∈ db'.kanbanBoard, card.status = .queued →
    isUnblocked db.kanbanBoard card = true → isUnblocked db'.kanbanBoard card = true

def Purged (db : Db) (id : Nat) : Prop :=
  Removable (·.parentId) (fun id => id ∈ purgableIds cutoff db) db.kanbanBoard id

def KeepsDependencies (db : Db) (card : KanbanCard) : Prop :=
  match card.blocking with
  | .nothing => True
  | .children => ∃ kid ∈ db.kanbanBoard, kid.parentId = some card.id ∧ ¬ Purged cutoff db kid.id
  | .cards ids => ∀ n ∈ ids, ∀ id, n.cardId = some id → ¬ Purged cutoff db id

/-- No purgable card that stays has a journal, and no unblocked queued card loses what
it waits for. -/
structure CleanupSafe (cutoff : Option Int) (db : Db) : Prop where
  journals : ∀ card ∈ db.kanbanBoard, card.id ∈ purgableIds cutoff db →
    ¬ Purged cutoff db card.id → cardJournal db card.id = []
  dependents : ∀ card ∈ db.kanbanBoard, card.status = .queued →
    isUnblocked db.kanbanBoard card = true → KeepsDependencies cutoff db card

section Cleanup

variable {now : Millis} {olderThanDays : Int} {db : Db} {cutoff : Option Int}

theorem not_purged_of_none (h : purgableIds cutoff db = []) (id : Nat) : ¬ Purged cutoff db id := by
  intro hpurged
  have hmem := hpurged.isCandidate
  rw [h] at hmem
  simp at hmem

/-- **The cards left are those that are not purged.** -/
theorem mem_kanbanCleanup (card : KanbanCard) :
    card ∈ (kanbanCleanup now olderThanDays db).2.kanbanBoard ↔
      card ∈ db.kanbanBoard ∧ ¬ Purged (retentionCutoff now olderThanDays) db card.id := by
  unfold kanbanCleanup
  dsimp only
  split
  · rename_i hnone
    exact ⟨fun h => ⟨h, not_purged_of_none hnone card.id⟩, fun h => h.1⟩
  · exact mem_peel_iff _ _ _ card

theorem get_kanbanCleanup (id : Nat) (h : ¬ Purged (retentionCutoff now olderThanDays) db id) :
    (kanbanCleanup now olderThanDays db).2.kanbanBoard.get id = db.kanbanBoard.get id := by
  unfold kanbanCleanup
  dsimp only
  split
  · rfl
  · exact get_peel_of_not h

theorem get_kanbanCleanup_of_purged {id : Nat}
    (h : Purged (retentionCutoff now olderThanDays) db id) :
    (kanbanCleanup now olderThanDays db).2.kanbanBoard.get id = none := by
  rw [Table.get_eq_none_iff]
  rintro card hcard rfl
  exact ((mem_kanbanCleanup card).1 hcard).2 h

theorem cardJournal_kanbanCleanup (id : Nat) :
    cardJournal (kanbanCleanup now olderThanDays db).2 id =
      if id ∈ purgableIds (retentionCutoff now olderThanDays) db then []
      else cardJournal db id := by
  unfold kanbanCleanup
  dsimp only
  split
  · rename_i hnone
    simp [hnone]
  simp only [cardJournal, Table.select, Table.deleteWhere, List.filter_filter]
  split
  · rename_i hmem
    rw [List.filter_eq_nil_iff]
    intro row _ hrow
    simp only [Bool.and_eq_true, decide_eq_true_eq, Bool.not_eq_true',
      decide_eq_false_iff_not] at hrow
    exact hrow.2 (hrow.1 ▸ hmem)
  · rename_i hmem
    refine List.filter_congr fun row _ => ?_
    by_cases hcard : row.cardId = id <;> simp [hcard, hmem]

theorem gone_iff (id : Nat) :
    Gone db (kanbanCleanup now olderThanDays db).2 id ↔
      (db.kanbanBoard.get id).isSome = true ∧
        Purged (retentionCutoff now olderThanDays) db id := by
  refine and_congr_right fun hsome => ⟨fun hnone => ?_, fun hpurged => ?_⟩
  · by_contra hkept
    rw [get_kanbanCleanup id hkept] at hnone
    rw [hnone] at hsome
    cases hsome
  · exact get_kanbanCleanup_of_purged hpurged

theorem mem_purgableIds_status {card : KanbanCard} (hcard : card ∈ db.kanbanBoard)
    (hmem : card.id ∈ purgableIds cutoff db) : card.status ≠ .queued := by
  obtain ⟨doomed, hselect, hid⟩ := List.mem_map.1 (List.mem_filter.1 hmem).1
  obtain ⟨hdoomedMem, hage⟩ := (Table.mem_select _ _ _).1 hselect
  have hsame : doomed = card := Table.eq_of_key_eq hdoomedMem hcard hid
  intro hqueued
  rw [hsame] at hage
  simp [isDoomed, hqueued] at hage

theorem mem_kanbanGetChildren {board : Table KanbanCard} {parentId : Nat} {kid : KanbanCard} :
    kid ∈ kanbanGetChildren board parentId ↔ kid ∈ board ∧ kid.parentId = some parentId := by
  rw [kanbanGetChildren, Table.mem_select, decide_eq_true_eq]

/-- **A card that stays unblocked is one that loses nothing it waits for.** -/
theorem isUnblocked_kanbanCleanup_iff {card : KanbanCard}
    (hbefore : isUnblocked db.kanbanBoard card = true) :
    isUnblocked (kanbanCleanup now olderThanDays db).2.kanbanBoard card = true ↔
      KeepsDependencies (retentionCutoff now olderThanDays) db card := by
  unfold KeepsDependencies
  unfold isUnblocked at hbefore ⊢
  cases hblocking : card.blocking with
  | nothing => simp
  | children =>
    rw [hblocking] at hbefore
    simp only [decide_eq_true_eq, List.all_eq_true] at hbefore ⊢
    constructor
    · rintro ⟨hsome, -⟩
      obtain ⟨kid, hkid⟩ := List.exists_mem_of_length_pos hsome
      obtain ⟨hmem, hparent⟩ := mem_kanbanGetChildren.1 hkid
      obtain ⟨hkidMem, hkept⟩ := (mem_kanbanCleanup kid).1 hmem
      exact ⟨kid, hkidMem, hparent, hkept⟩
    rintro ⟨kid, hkid, hparent, hkept⟩
    refine ⟨List.length_pos_of_mem (a := kid) ?_, fun other hother => ?_⟩
    · exact mem_kanbanGetChildren.2 ⟨(mem_kanbanCleanup kid).2 ⟨hkid, hkept⟩, hparent⟩
    · obtain ⟨hmem, hlink⟩ := mem_kanbanGetChildren.1 hother
      exact hbefore.2 other
        (mem_kanbanGetChildren.2 ⟨((mem_kanbanCleanup other).1 hmem).1, hlink⟩)
  | cards ids =>
    rw [hblocking] at hbefore
    simp only [List.all_eq_true] at hbefore ⊢
    constructor
    · intro hafter n hn id hid hpurged
      have hcard := hafter n hn
      rw [cardOfNumber, hid, Option.bind_some, get_kanbanCleanup_of_purged hpurged] at hcard
      cases hcard
    intro hkept n hn
    have hcard := hbefore n hn
    cases hid : n.cardId with
    | none => simp [cardOfNumber, hid] at hcard
    | some id =>
      rw [cardOfNumber, hid, Option.bind_some] at hcard ⊢
      rwa [get_kanbanCleanup id (hkept n hn id hid)]

theorem piRuns_kanbanCleanup : (kanbanCleanup now olderThanDays db).2.piRuns = db.piRuns := by
  unfold kanbanCleanup
  dsimp only
  split <;> rfl

theorem not_purgable_of_referenced {runs : Table PiRunRow} (hruns : db.piRuns = some runs)
    {run : PiRunRow} (hrun : run ∈ runs) : run.cardId ∉ purgableIds cutoff db := by
  intro hmem
  have hreferenced : isReferenced db.piRuns run.cardId = true := by
    rw [isReferenced, hruns, Option.any_some, List.any_eq_true]
    exact ⟨run, hrun, by simp⟩
  have hkept := (List.mem_filter.1 hmem).2
  simp [hreferenced] at hkept

end Cleanup

/-- **When a cleanup preserves what it keeps.**  It always ends; what it deletes loses
its journal, and neither a parent link nor a Pi run is left naming a deleted card.  It
also keeps the journals of the cards that stay and leaves unblocked what was unblocked
exactly when no purgable card that stays has a journal and no unblocked queued card
waits for what goes. -/
theorem cleanup_preserves_iff (now : Millis) (olderThanDays : Int) (db : Db) :
    CleanupPreserves db (kanbanCleanup now olderThanDays db).2 ↔
      CleanupSafe (retentionCutoff now olderThanDays) db := by
  constructor
  · intro h
    constructor
    · intro card hcard hpurgable hkept
      have hjournal := h.keptJournal card ((mem_kanbanCleanup card).2 ⟨hcard, hkept⟩)
      rw [cardJournal_kanbanCleanup, if_pos hpurgable] at hjournal
      exact hjournal.symm
    intro card hcard hqueued hunblocked
    rw [← isUnblocked_kanbanCleanup_iff hunblocked]
    refine h.unblocked card ((mem_kanbanCleanup card).2 ⟨hcard, fun hpurged => ?_⟩) hqueued
      hunblocked
    exact mem_purgableIds_status hcard (of_decide_eq_true hpurged.isCandidate) hqueued
  · intro h
    constructor
    · intro id hgone
      have hpurged := ((gone_iff id).1 hgone).2
      rw [cardJournal_kanbanCleanup, if_pos (of_decide_eq_true hpurged.isCandidate)]
    · intro card hcard
      obtain ⟨hmem, hkept⟩ := (mem_kanbanCleanup card).1 hcard
      rw [cardJournal_kanbanCleanup]
      split
      · rename_i hpurgable
        exact (h.journals card hmem hpurgable hkept).symm
      · rfl
    · intro card hcard parent hparent hgone
      obtain ⟨hmem, hkept⟩ := (mem_kanbanCleanup card).1 hcard
      exact hkept (((gone_iff parent).1 hgone).2.child hmem hparent)
    · intro runs hruns run hrun hgone
      rw [piRuns_kanbanCleanup] at hruns
      have hpurged := ((gone_iff run.cardId).1 hgone).2
      exact not_purgable_of_referenced hruns hrun (of_decide_eq_true hpurged.isCandidate)
    · intro card hcard hqueued hunblocked
      obtain ⟨hmem, -⟩ := (mem_kanbanCleanup card).1 hcard
      exact (isUnblocked_kanbanCleanup_iff hunblocked).2
        (h.dependents card hmem hqueued hunblocked)

/-! ## An old board -/

/-- An old done card with a done child that a Pi run refers to, and a card that waits for
the children of another old card. -/
def oldDb : Db :=
  { Db.empty with
    kanbanBoard := Table.ofRows
      [newCard 1 "agent" none none .done 0, newCard 2 "agent" none (some 1) .done 0,
        { newCard 3 "agent" none none .queued 0 with blockedBy := some "children" },
        newCard 4 "agent" none (some 3) .done 0]
    piRuns := some (Table.ofRows [⟨"p", 2⟩])
    kanbanCardTransitions := Table.ofRows
      [⟨1, 1, .queued, .done, .settleDone, "done", none, none, 0⟩] }

/-- The kept parent loses its journal, and the waiting card is blocked for good. -/
theorem cleanup_loses_journal :
    ¬ CleanupPreserves oldDb (kanbanCleanup 864000000 7 oldDb).2 ∧
      isUnblocked oldDb.kanbanBoard
        { newCard 3 "agent" none none .queued 0 with blockedBy := some "children" } = true ∧
      isUnblocked (kanbanCleanup 864000000 7 oldDb).2.kanbanBoard
        { newCard 3 "agent" none none .queued 0 with blockedBy := some "children" } = false := by
  refine ⟨fun h => ?_, by decide +kernel, by decide +kernel⟩
  have hparent : newCard 1 "agent" none none .done 0 ∈
      (kanbanCleanup 864000000 7 oldDb).2.kanbanBoard.rows := by decide +kernel
  have hjournal := h.keptJournal _ hparent
  revert hjournal
  decide +kernel

end Abtars
