import Abtars.Worker.Runs

/-!
# Token accounting

A settlement charges its attempt once and adds the charge to the tokens of the
attempt's card and of the project root above it.  Every other operation leaves
charges and token counts alone, and a terminal attempt is never written again, so
over any run the tokens of a card grow by exactly the charges of the attempts
that became terminal in it.
-/

namespace Abtars

open Lib

/-! ## Both sides of the account -/

variable (board : Table KanbanCard)

def tokensOf (cardId : Nat) : Int :=
  ((board.get cardId).bind (·.tokensUsed)).getD 0

def isRoot (cardId : Nat) : Bool :=
  (board.get cardId).bind (·.type) = some "O"

/-- The charge of an attempt as far as a card pays for it: its own card does, and
so does the project root right above its card. -/
def chargeShare (cardId : Nat) (a : AttemptRow) : Int :=
  (if a.cardId = cardId then a.chargedTokens else 0) +
    if isRoot board cardId ∧ parentOf board a.cardId = some cardId then a.chargedTokens else 0

def settledCharges (db : Db) (cardId : Nat) : Int :=
  db.workerAttempts.sum fun a =>
    if a.lifecycle.isTerminal then chargeShare db.kanbanBoard cardId a else 0

def ChargedAtEnd (db : Db) : Prop :=
  ∀ a ∈ db.workerAttempts, a.lifecycle.isTerminal = false →
    a.chargedTokens = 0 ∧ a.usageChargedAt = none

theorem chargeShare_of_uncharged {board : Table KanbanCard} {cardId : Nat} {a : AttemptRow}
    (h : a.chargedTokens = 0) : chargeShare board cardId a = 0 := by
  simp [chargeShare, h]

/-! ## Boards that place their cards alike -/

def SameLineage (board' : Table KanbanCard) : Prop :=
  ∀ id, (board'.get id).map KanbanCard.lineage = (board.get id).map KanbanCard.lineage

section SameLineage

variable {board board' : Table KanbanCard}

theorem SameLineage.read (h : SameLineage board board') {β : Type*} (column : KanbanCard → Option β)
    (value : _ → Option β) (hcolumn : ∀ card, column card = value card.lineage) (cardId : Nat) :
    (board'.get cardId).bind column = (board.get cardId).bind column := by
  have hread : ∀ row : Option KanbanCard,
      row.bind column = (row.map KanbanCard.lineage).bind value := by
    intro row
    cases row with
    | none => rfl
    | some card => exact hcolumn card
  rw [hread, hread, h cardId]

theorem SameLineage.parentOf_eq (h : SameLineage board board') (cardId : Nat) :
    parentOf board' cardId = parentOf board cardId :=
  h.read (·.parentId) (·.1) (fun _ => rfl) cardId

theorem SameLineage.isRoot_eq (h : SameLineage board board') (cardId : Nat) :
    isRoot board' cardId = isRoot board cardId := by
  rw [isRoot, isRoot, h.read (·.type) (·.2.1) (fun _ => rfl) cardId]

theorem SameLineage.isSome_eq (h : SameLineage board board') (cardId : Nat) :
    (board'.get cardId).isSome = (board.get cardId).isSome := by
  simpa using congrArg Option.isSome (h cardId)

theorem SameLineage.chargeShare_eq (h : SameLineage board board') (cardId : Nat)
    (a : AttemptRow) : chargeShare board' cardId a = chargeShare board cardId a := by
  rw [chargeShare, chargeShare, h.isRoot_eq, h.parentOf_eq]

theorem SameAccounts.sameLineage (h : SameAccounts board board') : SameLineage board board' := by
  intro id
  simpa [Function.comp_def, KanbanCard.accounts] using congrArg (Option.map Prod.fst) (h id)

theorem SameAccounts.tokensOf_eq (h : SameAccounts board board') (cardId : Nat) :
    tokensOf board' cardId = tokensOf board cardId := by
  have hcard := h cardId
  unfold tokensOf
  cases hnew : board'.get cardId with
  | none =>
    cases hold : board.get cardId with
    | none => rfl
    | some card => simp [hnew, hold] at hcard
  | some card' =>
    cases hold : board.get cardId with
    | none => simp [hnew, hold] at hcard
    | some card =>
      rw [hnew, hold, Option.map_some, Option.map_some, Option.some.injEq] at hcard
      exact congrArg (fun v => v.2.getD 0) hcard

end SameLineage

/-! ## Steps that charge nothing -/

/-- What an uncharged move keeps of an attempt: everything once it is terminal,
its card and its charge before. -/
structure AttemptRow.KeepsCharge (a a' : AttemptRow) : Prop where
  id : a'.id = a.id
  cardId : a'.cardId = a.cardId
  chargedTokens : a'.chargedTokens = a.chargedTokens
  usageChargedAt : a'.usageChargedAt = a.usageChargedAt
  terminal : a.lifecycle.isTerminal = true → a' = a

theorem AttemptRow.Moves.keepsCharge {claims cancels : String → Prop} {a a' : AttemptRow} (h : a.Moves claims cancels a') : a.KeepsCharge a' :=
  ⟨h.id_eq, h.cardId_eq, h.charge_eq.1, h.charge_eq.2, h.eq_of_terminal⟩

theorem AttemptRow.KeepsCharge.refl (a : AttemptRow) : a.KeepsCharge a :=
  ⟨rfl, rfl, rfl, rfl, fun _ => rfl⟩

structure Unpaid (db db' : Db) : Prop where
  attempts : db.workerAttempts.Evolves AttemptRow.KeepsCharge AttemptRow.Fresh
    db'.workerAttempts
  board : SameAccounts db.kanbanBoard db'.kanbanBoard

section Unpaid

variable {claims cancels closes : String → Prop} {db db' : Db}

theorem QuietStep.unpaid (h : QuietStep claims cancels closes db db') : Unpaid db db' :=
  ⟨h.attempts.mono (fun _ _ _ hm => hm.keepsCharge) fun _ hn => hn, h.board⟩

theorem claimWrites_unpaid {now : Millis} {req : ClaimRequest}
    (hadmitted : claimRefusal now db req = none) : Unpaid db (claimWrites now req db) := by
  obtain ⟨attempt, _, hattempt, -, -⟩ := claimRefusal_none hadmitted
  obtain ⟨hget, -, hpending⟩ := attemptRefusal_ok hattempt
  refine ⟨Table.evolves_modify AttemptRow.KeepsCharge.refl (f := AttemptRow.claim now
    req.generation req.hardDeadlineAt req.reservedTokens) (fun _ => rfl) fun a ha => ?_,
    fun _ => rfl⟩
  obtain rfl : attempt = a := Option.some.inj (hget.symm.trans ha)
  refine ⟨rfl, rfl, rfl, rfl, fun hterminal => ?_⟩
  simp [hpending, AttemptLifecycle.isTerminal] at hterminal

theorem Unpaid.chargedAtEnd (h : Unpaid db db') (hdb : ChargedAtEnd db) : ChargedAtEnd db' := by
  intro a' ha' hopen
  rcases h.attempts.origin ha' with ⟨a, ha, hkeeps⟩ | hfresh
  · have hwasOpen : a.lifecycle.isTerminal = false := by
      by_contra hterminal
      have hsame := hkeeps.terminal (by simpa using hterminal)
      rw [hsame] at hopen
      exact hterminal hopen
    obtain ⟨hcharged, hat⟩ := hdb a ha hwasOpen
    exact ⟨hkeeps.chargedTokens.trans hcharged, hkeeps.usageChargedAt.trans hat⟩
  · exact ⟨hfresh.chargedTokens, hfresh.usageChargedAt⟩

theorem Unpaid.settledCharges_eq (h : Unpaid db db') (hdb : ChargedAtEnd db) (cardId : Nat) :
    settledCharges db' cardId = settledCharges db cardId := by
  simp only [settledCharges, h.board.sameLineage.chargeShare_eq]
  refine h.attempts.sum_eq _ (fun a ha a' hkeeps => ?_) fun a hfresh => ?_
  · by_cases hterminal : a.lifecycle.isTerminal = true
    · rw [hkeeps.terminal hterminal]
    · have hcharged := (hdb a ha (by simpa using hterminal)).1
      rw [chargeShare_of_uncharged hcharged,
        chargeShare_of_uncharged (hkeeps.chargedTokens.trans hcharged), ite_self, ite_self]
  · simp [hfresh.lifecycle, AttemptLifecycle.isTerminal]

theorem Unpaid.terminal_kept (h : Unpaid db db') {id : String} {a : AttemptRow}
    (ha : db.workerAttempts.get id = some a) (hterminal : a.lifecycle.isTerminal = true) :
    db'.workerAttempts.get id = some a := by
  obtain ⟨a', ha', hkeeps⟩ := h.attempts.get_of_get (fun _ _ hk => hk.id) ha
  rw [ha', hkeeps.terminal hterminal]

end Unpaid

/-! ## What a settlement pays -/

/-- A board after adding tokens to a card and to the root right above it. -/
theorem get_chargeBoard (cardId : Nat) (tokens : Int) (clock : Millis)
    (board : Table KanbanCard) {payer : Nat} (hpayer : 0 < payer) :
    (chargeBoard cardId tokens clock board).get payer =
      (board.get payer).map fun card =>
        let own := if cardId = payer then card.addTokens tokens clock else card
        if isRootType card ∧ parentOf board cardId = some payer then
          own.addTokens tokens clock
        else own := by
  have hown : (board.modify cardId (KanbanCard.addTokens tokens clock)).get payer =
      (board.get payer).map fun card =>
        if cardId = payer then card.addTokens tokens clock else card := by
    rw [Table.get_modify]
    by_cases hp : payer = cardId
    · simp [hp]
    · simp [hp, Ne.symm hp]
  unfold chargeBoard
  cases hparent : parentOf board cardId with
  | none => simp [hown]
  | some parent =>
    dsimp only
    by_cases hzero : parent = 0
    · simp [hzero, hown, hpayer.ne]
    rw [if_neg hzero, Table.get_updateWhere, hown]
    cases hcard : board.get payer with
    | none => rfl
    | some card =>
      obtain rfl : card.id = payer := Table.key_of_get hcard
      have hid : ∀ c : KanbanCard, (c.addTokens tokens clock).id = c.id := fun _ => rfl
      have hroot : ∀ c : KanbanCard, isRootType (c.addTokens tokens clock) =
          isRootType c := fun _ => rfl
      by_cases hsame : parent = card.id
      · by_cases hp : cardId = card.id <;> simp [hsame, hp, hid, hroot]
      · have hother : card.id ≠ parent := fun h => hsame h.symm
        by_cases hp : cardId = card.id <;> simp [hsame, hp, hid, hother]

theorem tokensOf_chargeBoard (cardId : Nat) (tokens : Int) (clock : Millis)
    (board : Table KanbanCard) {payer : Nat} (hpayer : 0 < payer)
    (hcard : (board.get payer).isSome) :
    tokensOf (chargeBoard cardId tokens clock board) payer =
      tokensOf board payer + ((if cardId = payer then tokens else 0) +
        if isRoot board payer ∧ parentOf board cardId = some payer then tokens else 0) := by
  obtain ⟨card, hget⟩ := Option.isSome_iff_exists.1 hcard
  have hroot : isRoot board payer = true ↔ isRootType card = true := by
    simp [isRoot, hget, isRootType]
  have htokens : ∀ c : KanbanCard, ((c.addTokens tokens clock).tokensUsed).getD 0 =
      c.tokensUsed.getD 0 + tokens := fun _ => rfl
  rw [tokensOf, get_chargeBoard cardId tokens clock board hpayer, tokensOf, hget]
  simp only [Option.map_some, Option.bind_some, hroot]
  split_ifs <;> simp only [htokens, add_zero, zero_add]
  omega

section Settle

variable {rt : Runtime} {db : Db} {clock : Millis} {input : SettleInput} {attempt : AttemptRow}

theorem settleWrites_board (huncharged : attempt.usageChargedAt = none) :
    (settleWrites rt input attempt clock db).kanbanBoard =
      chargeBoard attempt.cardId (chargeTokens input attempt) clock db.kanbanBoard := by
  obtain ⟨_, _, _, _, -, heq⟩ := settleWrites_eq rt input attempt clock db
  rw [heq]
  simp only [chargeUsage, huncharged]

theorem sameLineage_chargeBoard (cardId : Nat) (tokens : Int) (clock : Millis)
    (board : Table KanbanCard) : SameLineage board (chargeBoard cardId tokens clock board) := by
  intro id
  have hcolumn : ∀ c : KanbanCard, (c.addTokens tokens clock).lineage = c.lineage :=
    fun _ => rfl
  have hown := Table.map_get_modify board cardId (KanbanCard.addTokens tokens clock)
    (fun _ => rfl) id KanbanCard.lineage hcolumn
  unfold chargeBoard
  split
  · exact hown
  · split
    · exact hown
    · exact (Table.map_get_updateWhere _ _ _ _ id KanbanCard.lineage hcolumn).trans hown

theorem sameLineage_settleWrites (rt : Runtime) (input : SettleInput) (attempt : AttemptRow)
    (clock : Millis) (db : Db) :
    SameLineage db.kanbanBoard (settleWrites rt input attempt clock db).kanbanBoard := by
  obtain ⟨_, _, _, _, -, heq⟩ := settleWrites_eq rt input attempt clock db
  rw [heq]
  intro id
  unfold chargeUsage
  split
  · rfl
  · exact sameLineage_chargeBoard _ _ _ _ id

theorem tokensOf_settleWrites (huncharged : attempt.usageChargedAt = none) {payer : Nat}
    (hpayer : 0 < payer) (hcard : (db.kanbanBoard.get payer).isSome) :
    tokensOf (settleWrites rt input attempt clock db).kanbanBoard payer =
      tokensOf db.kanbanBoard payer +
        chargeShare db.kanbanBoard payer
          (settledRow db input attempt (input.now.getD clock)) := by
  rw [settleWrites_board huncharged, tokensOf_chargeBoard _ _ _ _ hpayer hcard, chargeShare,
    settledRow_chargedTokens huncharged, settledRow_cardId]

theorem settledCharges_settleWrites (hget : db.workerAttempts.get input.attemptId = some attempt)
    (hopen : attempt.lifecycle.isTerminal = false) (cardId : Nat) :
    settledCharges (settleWrites rt input attempt clock db) cardId =
      settledCharges db cardId + chargeShare db.kanbanBoard cardId
        (settledRow db input attempt (input.now.getD clock)) := by
  have hlineage := sameLineage_settleWrites rt input attempt clock db
  simp only [settledCharges, hlineage.chargeShare_eq]
  obtain ⟨write, hwrite, _, _, hrow, heq⟩ := settleWrites_eq rt input attempt clock db
  rw [heq]
  rw [Table.sum_modify hget, hrow, settledRow_lifecycle, DesiredState.isTerminal_lifecycle,
    if_pos rfl, hopen]
  simp

theorem chargedAtEnd_settleWrites (hdb : ChargedAtEnd db)
    (hget : db.workerAttempts.get input.attemptId = some attempt) :
    ChargedAtEnd (settleWrites rt input attempt clock db) := by
  intro a ha hopen
  have hread := Table.get_key_of_mem ha
  rw [key_attemptRow] at hread
  by_cases hid : a.id = input.attemptId
  · rw [hid, get_settleWrites_self clock hget] at hread
    cases hread
    simp at hopen
  · rw [get_settleWrites_of_ne clock hid] at hread
    exact hdb a (Table.mem_of_get hread) hopen

theorem settleWrites_terminal_kept (hget : db.workerAttempts.get input.attemptId = some attempt)
    (hopen : attempt.lifecycle.isTerminal = false) {id : String} {a : AttemptRow}
    (ha : db.workerAttempts.get id = some a) (hterminal : a.lifecycle.isTerminal = true) :
    (settleWrites rt input attempt clock db).workerAttempts.get id = some a := by
  have hne : id ≠ input.attemptId := by
    rintro rfl
    rw [hget] at ha
    cases ha
    simp [hopen] at hterminal
  rw [get_settleWrites_of_ne clock hne, ha]

end Settle

/-! ## What one operation preserves -/

/-- The charges of an operation are paid: the tokens of each card move by the
charges it has to pay for. -/
structure PaysCharges (db db' : Db) : Prop where
  charged : ChargedAtEnd db'
  lineage : SameLineage db.kanbanBoard db'.kanbanBoard
  paid : ∀ cardId, 0 < cardId → (db.kanbanBoard.get cardId).isSome →
    tokensOf db'.kanbanBoard cardId - settledCharges db' cardId =
      tokensOf db.kanbanBoard cardId - settledCharges db cardId
  kept : ∀ id a, db.workerAttempts.get id = some a → a.lifecycle.isTerminal = true →
    db'.workerAttempts.get id = some a

section Step

variable {rt : Runtime} {db mid db' : Db}

theorem PaysCharges.refl (h : ChargedAtEnd db) : PaysCharges db db :=
  ⟨h, fun _ => rfl, fun _ _ _ => rfl, fun _ _ ha _ => ha⟩

theorem PaysCharges.trans (h : PaysCharges db mid) (h' : PaysCharges mid db') :
    PaysCharges db db' where
  charged := h'.charged
  lineage := fun id => (h'.lineage id).trans (h.lineage id)
  paid := by
    intro cardId hpos hcard
    rw [h'.paid cardId hpos (by rw [h.lineage.isSome_eq]; exact hcard), h.paid cardId hpos hcard]
  kept := fun id a ha hterminal => h'.kept id a (h.kept id a ha hterminal) hterminal

theorem Unpaid.paysCharges (h : Unpaid db db') (hdb : ChargedAtEnd db) : PaysCharges db db' where
  charged := h.chargedAtEnd hdb
  lineage := h.board.sameLineage
  paid := by
    intro cardId _ _
    rw [h.board.tokensOf_eq, h.settledCharges_eq hdb]
  kept := fun _ _ ha hterminal => h.terminal_kept ha hterminal

theorem settleWrites_paysCharges (clock : Millis) {input : SettleInput} {attempt : AttemptRow}
    (hdb : ChargedAtEnd db) (hadmits : admitSettlement rt input db = .ok attempt) :
    PaysCharges db (settleWrites rt input attempt clock db) := by
  obtain ⟨hget, -, hopen, -⟩ := admitSettlement_ok hadmits
  have huncharged := (hdb attempt (Table.mem_of_get hget) hopen).2
  exact
    { charged := chargedAtEnd_settleWrites hdb hget
      lineage := sameLineage_settleWrites rt input attempt clock db
      paid := by
        intro cardId hpos hcard
        rw [tokensOf_settleWrites huncharged hpos hcard,
          settledCharges_settleWrites hget hopen]
        omega
      kept := fun _ _ ha hterminal => settleWrites_terminal_kept hget hopen ha hterminal }

theorem workerStep_paysCharges (op : WorkerOp) (hdb : ChargedAtEnd db) :
    PaysCharges db (workerStep rt db op) := by
  rcases workerStep_cases rt db op with
    hquiet | ⟨now, req, rfl, hadmitted, hstep⟩ | ⟨hook, clock, input, attempt, rfl, hadmits, hquiet⟩
  · exact hquiet.unpaid.paysCharges hdb
  · rw [hstep]
    exact (claimWrites_unpaid hadmitted).paysCharges hdb
  · have hsettled := settleWrites_paysCharges clock hdb hadmits
    exact hsettled.trans (hquiet.unpaid.paysCharges hsettled.charged)

end Step

/-! ## What a run preserves -/

theorem run_paysCharges (rt : Runtime) (db : Db) (ops : List WorkerOp) (hdb : ChargedAtEnd db) :
    PaysCharges db (runFrom (workerStep rt) db ops) :=
  relation_of_step (fun _ => PaysCharges.refl) (fun _ _ _ => PaysCharges.trans)
    (fun _ op hs => (workerStep_paysCharges op hs).charged)
    (fun _ op hs => workerStep_paysCharges op hs) ops db hdb

/-- A question costs nothing: an admitted settlement for requested input leaves a
terminal attempt without a charge. -/
theorem inputRequested_charges_nothing {rt : Runtime} {db : Db} (hdb : ChargedAtEnd db)
    {hook : SuccessorHook} {clock : Millis} {input : SettleInput} {attempt : AttemptRow}
    (hinput : input.inputRequested = true) (hadmits : admitSettlement rt input db = .ok attempt) :
    ∃ a, (workerStep rt db (.settle hook clock input)).workerAttempts.get input.attemptId =
        some a ∧ a.lifecycle.isTerminal = true ∧ a.chargedTokens = 0 := by
  obtain ⟨hget, -, hopen, -⟩ := admitSettlement_ok hadmits
  have huncharged := (hdb attempt (Table.mem_of_get hget) hopen).2
  have hquiet := workerStep_settle hook clock hadmits
  refine ⟨_, hquiet.unpaid.terminal_kept (get_settleWrites_self clock hget) (by simp),
    by simp, ?_⟩
  rw [settledRow_chargedTokens huncharged, chargeTokens, if_pos hinput]

/-- Over every run each card's tokens grow by exactly the charges of the attempts
that became terminal, own attempts and, for a project root, those right below it;
a terminal attempt is never charged again, and a question is charged nothing. -/
theorem tokens_charged_once (rt : Runtime) (db : Db) (ops : List WorkerOp)
    (hdb : ChargedAtEnd db) :
    let reached := runFrom (workerStep rt) db ops
    (∀ cardId, 0 < cardId → (db.kanbanBoard.get cardId).isSome →
      tokensOf reached.kanbanBoard cardId - tokensOf db.kanbanBoard cardId =
        settledCharges reached cardId - settledCharges db cardId) ∧
    (∀ more id a, reached.workerAttempts.get id = some a → a.lifecycle.isTerminal = true →
      (runFrom (workerStep rt) reached more).workerAttempts.get id = some a) ∧
    ∀ hook clock input attempt, input.inputRequested = true →
      admitSettlement rt input reached = .ok attempt →
      ∃ a, (workerStep rt reached (.settle hook clock input)).workerAttempts.get
          input.attemptId = some a ∧ a.lifecycle.isTerminal = true ∧ a.chargedTokens = 0 := by
  intro reached
  have hpays := run_paysCharges rt db ops hdb
  refine ⟨?_, ?_, ?_⟩
  · intro cardId hpos hcard
    have hpaid : tokensOf reached.kanbanBoard cardId - settledCharges reached cardId =
        tokensOf db.kanbanBoard cardId - settledCharges db cardId :=
      hpays.paid cardId hpos hcard
    omega
  · intro more id a ha hterminal
    exact (run_paysCharges rt reached more hpays.charged).kept id a ha hterminal
  · intro hook clock input attempt hinput hadmits
    exact inputRequested_charges_nothing hpays.charged hinput hadmits

/-- A running attempt `a1` of card 2 below the project root 1, reserved 100 tokens. -/
def reservedAttemptDb : Db :=
  { Db.empty with
    kanbanBoard := Table.ofRows
      [newCard 1 "user" (some "O") none .running 0,
       newCard 2 "orc" (some "W") (some 1) .running 0]
    workerAttempts := Table.ofRows
      [{ pendingAttempt "a1" 2 "c1" 1 .agent agentExecutorId 0 with
         lifecycle := .running, reservedTokens := 100 }] }

/-- The settlement that fails `a1` without a report of its usage. -/
def failUnreported : WorkerOp :=
  .settle (fun _ _ => none) 10
    { attemptId := "a1"
      expectedGeneration := 1
      desiredState := .failed
      stableReason := "worker failed"
      normalizedUsage := none
      envelope := none
      now := none
      inputRequested := false }

/-- Settled twice, the reservation of `a1` is charged to the root once. -/
theorem tokens_charged_once_on_replay :
    let reached := runFrom (workerStep Runtime.plain) reservedAttemptDb
      [failUnreported, failUnreported]
    tokensOf reached.kanbanBoard 1 - tokensOf reservedAttemptDb.kanbanBoard 1 =
        settledCharges reached 1 - settledCharges reservedAttemptDb 1 ∧
      settledCharges reached 1 = 100 := by
  intro reached
  refine ⟨?_, by decide⟩
  refine (tokens_charged_once Runtime.plain reservedAttemptDb [failUnreported, failUnreported]
    ?_).1 1 (by decide) (by decide)
  intro a ha _
  obtain rfl : a = { pendingAttempt "a1" 2 "c1" 1 .agent agentExecutorId 0 with
      lifecycle := .running, reservedTokens := 100 } := List.mem_singleton.1 ha
  exact ⟨rfl, rfl⟩

end Abtars
