import Mathlib.Data.Prod.Lex
import Abtars.Board.Card
import Abtars.Lib.Ranked

/-!
# The order of dispatch

Queued cards are dispatched by priority, a level higher for each minute of age.
The query subtracts the instant of creation in seconds from a clock in
milliseconds: on any real clock each card comes out with the highest rank, and
the oldest is dispatched first whatever its priority.
-/

namespace Abtars

open Lib

def CardPriority.base : CardPriority → Int
  | .critical => 3
  | .high => 2
  | .medium => 1
  | .low => 0

/-- The seconds SQLite reads off an instant. -/
def unixepoch (at_ : Millis) : Int :=
  at_ / 1000

/-- The column `effective_priority` of the query, for the clock it is handed. -/
def effectivePriority (now : Int) (card : KanbanCard) : Int :=
  min 3 (card.priority.base + max 0 ((now - unixepoch card.createdAt) * 1000) / 60000)

def isDispatchable (nowSeconds : Int) (card : KanbanCard) : Bool :=
  card.status = .queued ∧ card.nextRetryAt.all fun at_ => unixepoch at_ ≤ nowSeconds

def dispatchKey (card : KanbanCard) : Millis ×ₗ Nat :=
  toLex (card.createdAt, card.id)

variable (now : Millis) (board : Table KanbanCard)

def dispatchable : List KanbanCard :=
  board.select (isDispatchable (now / 1000))

def kanbanQueuedDispatchOrder : List KanbanCard :=
  ranked (effectivePriority now) dispatchKey (dispatchable now board)

/-- The priority with a level for each minute since the creation of the card. -/
def agedPriority (card : KanbanCard) : Int :=
  min 3 (card.priority.base + max 0 (now - card.createdAt) / 60000)

/-- The order of dispatch that the priorities and ages of the cards ask for. -/
def agedOrder : List KanbanCard :=
  ranked (agedPriority now) dispatchKey (dispatchable now board)

/-- A clock three minutes of seconds ahead makes every priority the highest. -/
theorem effectivePriority_saturated {now : Int} {card : KanbanCard}
    (h : unixepoch card.createdAt + 180 ≤ now) : effectivePriority now card = 3 := by
  have hbase : 0 ≤ card.priority.base := by cases card.priority <;> decide
  unfold effectivePriority
  omega

theorem dispatchOrder_iff (now : Millis) (board : Table KanbanCard) :
    (kanbanQueuedDispatchOrder now board = agedOrder now board ↔
        RanksAgree (effectivePriority now) (agedPriority now) dispatchKey
          (dispatchable now board)) ∧
      ((∀ card ∈ dispatchable now board, unixepoch card.createdAt + 180 ≤ now) →
        (kanbanQueuedDispatchOrder now board = agedOrder now board ↔
          ∀ a ∈ dispatchable now board, ∀ b ∈ dispatchable now board,
            dispatchKey a < dispatchKey b → agedPriority now b ≤ agedPriority now a)) := by
  have hiff : kanbanQueuedDispatchOrder now board = agedOrder now board ↔
      RanksAgree (effectivePriority now) (agedPriority now) dispatchKey
        (dispatchable now board) := by
    refine ranked_eq_iff fun a ha b hb hab => ?_
    have hid : a.id = b.id := congrArg (fun key => (ofLex key).2) hab
    exact Table.eq_of_key_eq ((Table.mem_select _ _ _).1 ha).1 ((Table.mem_select _ _ _).1 hb).1
      hid
  refine ⟨hiff, fun hclock => hiff.trans ?_⟩
  refine forall₂_congr fun a ha => forall₂_congr fun b hb => forall_congr' fun _ => ?_
  rw [effectivePriority_saturated (hclock a ha), effectivePriority_saturated (hclock b hb)]
  simp

/-- A low and a critical card of the same instant, ten seconds old. -/
def tenSecondsBoard : Table KanbanCard :=
  Table.ofRows
    [{ newCard 1 "orc" none none .queued 1700000000000 with priority := .low },
      { newCard 2 "orc" none none .queued 1700000000000 with priority := .critical }]

theorem low_card_dispatched_first :
    (kanbanQueuedDispatchOrder 1700000010000 tenSecondsBoard).map (·.id) = [1, 2] ∧
      (agedOrder 1700000010000 tenSecondsBoard).map (·.id) = [2, 1] := by
  decide +kernel

end Abtars
