import Abtars.Board.Dependencies
import Abtars.Lib.Descent
import Abtars.Task.CardEffects

/-!
# Cards failed in cascade

When a card fails, the queued cards that depend on it are failed, and so on.  The
recursion walks the list it was given, whose statuses do not change under it: on
cards that depend on one another it does not return.
-/

namespace Abtars

open Lib Relation

section Cascade

variable (rt : Runtime) (now : Millis) (cards : List KanbanCard)

/-- Does the queued card name the other among those it is blocked by? -/
def dependsOn (failedId : Nat) (card : KanbanCard) : Bool :=
  card.status = .queued ∧ (card.blockedBy.filter (· ≠ "")).any fun text =>
    .finite failedId ∈ dependencyIds text

/-- One call of `kanbanFail`, for a card and the failed one it depends on. -/
def failDependent (db : Db) (call : Nat × Nat) : Db :=
  kanbanFail rt now call.2 ("upstream #" ++ toString call.1 ++ " failed") db

/-- `cascadeFail` on a stack that holds so many calls; none when it overflows. -/
def cascadeFail : Nat → Nat → Db → Option Db
  | 0, _, _ => none
  | stack + 1, failedId, db =>
    cards.foldlM (fun db card =>
      if dependsOn failedId card then
        cascadeFail stack card.id (failDependent rt now db (failedId, card.id))
      else some db) db

/-- The second card is queued and blocked by the first. -/
def Blocks (a b : Nat) : Prop :=
  ∃ card ∈ cards, card.id = b ∧ dependsOn a card = true

/-- The queued cards that the failed one blocks, through queued cards, have failed,
no other card is touched, and no card is failed twice. -/
structure CascadeExact (failedId : Nat) (db db' : Db) : Prop where
  failed : ∀ id, TransGen (Blocks cards) failedId id →
    ∃ card, db'.kanbanBoard.get id = some card ∧ card.status = .failed
  untouched : ∀ id, ¬ TransGen (Blocks cards) failedId id →
    db'.kanbanBoard.get id = db.kanbanBoard.get id
  once : ∃ calls : List (Nat × Nat), (calls.map (·.2)).Nodup ∧
    db' = runFrom (failDependent rt now) db calls

variable {rt now cards} {db db' : Db}

/-! ## Termination -/

theorem isSome_foldlM {α σ : Type} {f : σ → α → Option σ} {p : α → Prop}
    (hf : ∀ s a, (f s a).isSome ↔ p a) (l : List α) :
    ∀ s, (l.foldlM f s).isSome ↔ ∀ a ∈ l, p a := by
  induction l with
  | nil => simp
  | cons a l ih =>
    intro s
    rw [List.foldlM_cons, List.forall_mem_cons, ← hf s a]
    cases hstep : f s a with
    | none => simp
    | some s' => simpa using ih s'

theorem isSome_cascadeFail (stack failedId : Nat) (db : Db) :
    (cascadeFail rt now cards stack failedId db).isSome ↔ Within (Blocks cards) stack failedId := by
  induction stack generalizing failedId db with
  | zero => simp [cascadeFail, Within]
  | succ stack ih =>
    rw [cascadeFail, isSome_foldlM (p := fun card => dependsOn failedId card = true →
      Within (Blocks cards) stack card.id)]
    · exact ⟨fun h b ⟨card, hmem, hid, hdep⟩ => hid ▸ h card hmem hdep,
        fun h card hmem hdep => h card.id ⟨card, hmem, rfl, hdep⟩⟩
    · intro db card
      split
      · next hdep => simp [ih, hdep]
      · next hdep => simp [hdep]

theorem finite_blocked (failedId : Nat) : {id | TransGen (Blocks cards) failedId id}.Finite := by
  refine (List.finite_toSet (cards.map (·.id))).subset ?_
  intro id hreach
  obtain ⟨_, -, card, hmem, rfl, -⟩ := TransGen.tail'_iff.1 hreach
  exact List.mem_map_of_mem hmem

/-! ## What is failed -/

variable (rt now cards) in
/-- After some calls for different cards of the list: those have failed, and no other. -/
structure Cascaded (db db' : Db) (calls : List (Nat × Nat)) : Prop where
  nodup : (calls.map (·.2)).Nodup
  result : db' = runFrom (failDependent rt now) db calls
  failed : ∀ id ∈ calls.map (·.2),
    ∃ card, db'.kanbanBoard.get id = some card ∧ card.status = .failed
  untouched : ∀ id ∉ calls.map (·.2), db'.kanbanBoard.get id = db.kanbanBoard.get id

variable {call : Nat × Nat} {card : KanbanCard}

theorem failDependent_other {id : Nat} (hne : id ≠ call.2) :
    (failDependent rt now db call).kanbanBoard.get id = db.kanbanBoard.get id :=
  get_applied_of_ne hne

theorem failDependent_queued (hget : db.kanbanBoard.get call.2 = some card)
    (hqueued : card.status = .queued) :
    ∃ card', (failDependent rt now db call).kanbanBoard.get call.2 = some card' ∧
      card'.status = .failed := by
  refine ⟨_, get_applied_same rfl (by simp [settleCardRequest]) hget, ?_⟩
  rw [if_pos (by simp [hqueued, extraHolds, settleCardRequest]), writeCard_status]
  rfl

theorem failDependent_failed (hget : db.kanbanBoard.get call.2 = some card)
    (hfailed : card.status = .failed) : failDependent rt now db call = db := by
  rw [failDependent, kanbanFail, applied_eq rfl (by simp [settleCardRequest]) hget,
    if_neg (by simp [hfailed, settleCardRequest])]

/-- A card is failed the first time; after that the call changes nothing. -/
theorem Cascaded.fail {calls : List (Nat × Nat)} (h : Cascaded rt now db db' calls)
    (hget : db.kanbanBoard.get card.id = some card) (hqueued : card.status = .queued)
    (failedId : Nat) :
    ∃ calls', Cascaded rt now db (failDependent rt now db' (failedId, card.id)) calls' ∧
      ∀ id, id ∈ calls'.map (·.2) ↔ id ∈ calls.map (·.2) ∨ id = card.id := by
  by_cases hcalled : card.id ∈ calls.map (·.2)
  · obtain ⟨failed, hfailed, hstatus⟩ := h.failed _ hcalled
    rw [failDependent_failed hfailed hstatus]
    exact ⟨calls, h, fun id => ⟨.inl, fun hid => hid.elim (fun hid => hid) (· ▸ hcalled)⟩⟩
  refine ⟨calls ++ [(failedId, card.id)], ⟨?_, ?_, ?_, ?_⟩, by simp⟩
  · rw [List.map_append]
    exact h.nodup.append (List.nodup_singleton _) (by simpa using hcalled)
  · rw [runFrom_append, ← h.result]
    rfl
  · intro id hid
    by_cases hcard : id = card.id
    · subst hcard
      exact failDependent_queued ((h.untouched _ hcalled).trans hget) hqueued
    · rw [failDependent_other hcard]
      exact h.failed id (by simpa [hcard] using hid)
  · intro id hid
    simp only [List.map_append, List.map_cons, List.map_nil, List.mem_append,
      List.mem_singleton, not_or] at hid
    rw [failDependent_other hid.2]
    exact h.untouched id hid.1

theorem Cascaded.cascade (hsnapshot : ∀ card ∈ cards, db.kanbanBoard.get card.id = some card)
    {stack : Nat} : ∀ {failedId : Nat} {db₁ db₂ : Db} {calls : List (Nat × Nat)},
    Cascaded rt now db db₁ calls → cascadeFail rt now cards stack failedId db₁ = some db₂ →
    ∃ calls', Cascaded rt now db db₂ calls' ∧ ∀ id, id ∈ calls'.map (·.2) ↔
      id ∈ calls.map (·.2) ∨ TransGen (Blocks cards) failedId id := by
  induction stack with
  | zero =>
    intro failedId db₁ db₂ calls _ hrun
    cases hrun
  | succ stack ih =>
    intro failedId db₁ db₂ calls h hrun
    have hloop : ∀ l : List KanbanCard, (∀ card ∈ l, card ∈ cards) → ∀ db₁ calls,
        Cascaded rt now db db₁ calls → l.foldlM (fun db card =>
          if dependsOn failedId card then
            cascadeFail rt now cards stack card.id (failDependent rt now db (failedId, card.id))
          else some db) db₁ = some db₂ →
        ∃ calls', Cascaded rt now db db₂ calls' ∧ ∀ id, id ∈ calls'.map (·.2) ↔
          id ∈ calls.map (·.2) ∨ ∃ card ∈ l, dependsOn failedId card = true ∧
            ReflTransGen (Blocks cards) card.id id := by
      intro l
      induction l with
      | nil =>
        intro _ db₁ calls h hrun
        cases hrun
        exact ⟨calls, h, by simp⟩
      | cons card l ihl =>
        intro hl db₁ calls h hrun
        have hrest := fun c hc => hl c (List.mem_cons_of_mem card hc)
        rw [List.foldlM_cons] at hrun
        by_cases hdep : dependsOn failedId card = true
        · simp only [hdep, if_true] at hrun
          obtain ⟨db₃, hfirst, hrun⟩ := Option.bind_eq_some_iff.1 hrun
          have hmem := hl card List.mem_cons_self
          have hqueued : card.status = .queued := by
            simp only [dependsOn, decide_eq_true_eq] at hdep
            exact hdep.1
          obtain ⟨calls₁, h₁, hids₁⟩ := h.fail (hsnapshot card hmem) hqueued failedId
          obtain ⟨calls₂, h₂, hids₂⟩ := ih h₁ hfirst
          obtain ⟨calls₃, h₃, hids₃⟩ := ihl hrest db₃ calls₂ h₂ hrun
          refine ⟨calls₃, h₃, fun id => ?_⟩
          rw [hids₃, hids₂, hids₁, List.exists_mem_cons_iff, reflTransGen_iff_eq_or_transGen]
          tauto
        · simp only [hdep] at hrun
          obtain ⟨calls', h', hids⟩ := ihl hrest db₁ calls h hrun
          refine ⟨calls', h', fun id => ?_⟩
          rw [hids]
          simp [hdep]
    obtain ⟨calls', h', hids⟩ := hloop cards (fun _ hc => hc) db₁ calls h hrun
    refine ⟨calls', h', fun id => ?_⟩
    rw [hids, TransGen.head'_iff]
    refine or_congr_right ⟨?_, ?_⟩
    · rintro ⟨card, hmem, hdep, hreach⟩
      exact ⟨card.id, ⟨card, hmem, rfl, hdep⟩, hreach⟩
    · rintro ⟨_, ⟨card, hmem, rfl, hdep⟩, hreach⟩
      exact ⟨card, hmem, hdep, hreach⟩

theorem cascadeFail_iff (failedId : Nat)
    (hsnapshot : ∀ card ∈ cards, db.kanbanBoard.get card.id = some card) :
    (∃ stack db', cascadeFail rt now cards stack failedId db = some db' ∧
        CascadeExact rt now cards failedId db db') ↔
      ¬ ∃ id, TransGen (Blocks cards) failedId id ∧ TransGen (Blocks cards) id id := by
  rw [← exists_within_iff (finite_blocked failedId)]
  constructor
  · rintro ⟨stack, db', hrun, -⟩
    exact ⟨stack, (isSome_cascadeFail stack failedId db).1 (Option.isSome_iff_exists.2 ⟨_, hrun⟩)⟩
  rintro ⟨stack, hwithin⟩
  obtain ⟨db', hrun⟩ : ∃ db', cascadeFail rt now cards stack failedId db = some db' :=
    Option.isSome_iff_exists.1 ((isSome_cascadeFail stack failedId db).2 hwithin)
  have hnone : Cascaded rt now db db [] :=
    ⟨List.nodup_nil, rfl, fun id hid => absurd hid List.not_mem_nil, fun id _ => rfl⟩
  obtain ⟨calls, hcascaded, hids⟩ := Cascaded.cascade hsnapshot hnone hrun
  have hreach : ∀ id, id ∈ calls.map (·.2) ↔ TransGen (Blocks cards) failedId id := by
    simpa using hids
  exact ⟨stack, db', hrun, fun id hid => hcascaded.failed id ((hreach id).2 hid),
    fun id hid => hcascaded.untouched id (mt (hreach id).1 hid),
    calls, hcascaded.nodup, hcascaded.result⟩

end Cascade

/-! ### Two cards that block each other -/

def blockedCard (id : Nat) (blockedBy : String) : KanbanCard :=
  { newCard id "orc" none (some 9) .queued 0 with blockedBy := some blockedBy }

/-- The first blocks the second, which the third blocks as well as the other way round. -/
def knot : List KanbanCard :=
  [blockedCard 2 "1,3", blockedCard 3 "2"]

def knotDb : Db :=
  { Db.empty with kanbanBoard := Table.ofRows knot }

theorem cascadeFail_knot_iff :
    (∃ stack db', cascadeFail Runtime.plain 0 knot stack 3 knotDb = some db' ∧
        CascadeExact Runtime.plain 0 knot 3 knotDb db') ↔
      ¬ ∃ id, TransGen (Blocks knot) 3 id ∧ TransGen (Blocks knot) id id :=
  cascadeFail_iff 3 (by decide +kernel)

theorem cascadeFail_knot_overflows :
    (∀ card ∈ knot, knotDb.kanbanBoard.get card.id = some card) ∧
      ∀ stack, cascadeFail Runtime.plain 0 knot stack 1 knotDb = none := by
  have h12 : Blocks knot 1 2 := ⟨blockedCard 2 "1,3", by decide, rfl, by decide +kernel⟩
  have h23 : Blocks knot 2 3 := ⟨blockedCard 3 "2", by decide, rfl, by decide +kernel⟩
  have h32 : Blocks knot 3 2 := ⟨blockedCard 2 "1,3", by decide, rfl, by decide +kernel⟩
  refine ⟨by decide +kernel, fun stack => ?_⟩
  rw [← Option.not_isSome_iff_eq_none, isSome_cascadeFail]
  exact fun h => not_within_of_cycle (.tail (.single h23) h32) (h.succ.of_transGen (.single h12))

end Abtars
