import Abtars.Session.ExecutionSupervisor

/-!
# Slots are bounded, and freed by their owner

A slot is freed by the close of the execution that owns it and by nothing else, with one
notification each, and a type never has more than its maximum.  A close frees all that its
execution owns exactly when the execution is still registered and bound, and what it owns is the
one slot of its card: a session that was taken over from a terminal execution leaves it unbound.
-/

namespace Abtars

open Lib

namespace Running

/-! ## Cards of a type -/

variable (type : SessionType)

@[simp]
theorem cards_add (t : SessionType) (cardId : Nat) (running : Running) :
    (running.add type cardId).cards t =
      if t = type then
        if cardId ∈ running.cards type then running.cards type
        else running.cards type ++ [cardId]
      else running.cards t := by
  induction running with
  | nil =>
    by_cases ht : t = type
    · simp [add, cards, ht]
    · simp [add, cards, ht, Ne.symm ht]
  | cons p rest ih =>
    obtain ⟨u, set⟩ := p
    by_cases hu : u = type
    · subst hu
      by_cases ht : t = u
      · simp [add, cards, ht]
      · simp [add, cards, ht, Ne.symm ht]
    by_cases ht : u = t
    · have hne : t ≠ type := fun h => hu (ht.trans h)
      simp [add, cards, ht, hne]
    · simp [add, cards, hu, ht, ih]

@[simp]
theorem cards_delete (t : SessionType) (cardId : Nat) (running : Running) :
    (running.delete type cardId).cards t =
      if t = type then (running.cards type).erase cardId else running.cards t := by
  induction running with
  | nil => simp [delete, cards]
  | cons p rest ih =>
    obtain ⟨u, set⟩ := p
    by_cases hu : u = type
    · subst hu
      by_cases ht : t = u
      · simp [delete, cards, ht]
      · simp [delete, cards, ht, Ne.symm ht]
    by_cases ht : u = t
    · have hne : t ≠ type := fun h => hu (ht.trans h)
      simp [delete, cards, ht, hne]
    · simp [delete, cards, hu, ht, ih]

theorem types_add (cardId : Nat) (running : Running) :
    (running.add type cardId).map Prod.fst =
      if type ∈ running.map Prod.fst then running.map Prod.fst
      else running.map Prod.fst ++ [type] := by
  induction running with
  | nil => simp [add]
  | cons p rest ih =>
    obtain ⟨u, set⟩ := p
    by_cases hu : u = type
    · simp [add, hu]
    · simp only [add, hu, if_false, List.map_cons, ih, List.mem_cons, Ne.symm hu, false_or]
      split <;> simp

theorem types_delete (cardId : Nat) (running : Running) :
    (running.delete type cardId).map Prod.fst = running.map Prod.fst := by
  induction running with
  | nil => rfl
  | cons p rest ih =>
    obtain ⟨u, set⟩ := p
    by_cases hu : u = type
    · simp [delete, hu]
    · simp [delete, hu, ih]

theorem mem_of_mem_cards {type : SessionType} {cardId : Nat} {running : Running}
    (h : cardId ∈ running.cards type) : ∃ set, (type, set) ∈ running ∧ cardId ∈ set := by
  induction running with
  | nil => simp [cards] at h
  | cons p rest ih =>
    obtain ⟨u, set⟩ := p
    by_cases hu : u = type
    · subst hu
      rw [cards, if_pos rfl] at h
      exact ⟨set, List.mem_cons_self, h⟩
    · rw [cards, if_neg hu] at h
      obtain ⟨set', hset, hmem⟩ := ih h
      exact ⟨set', List.mem_cons_of_mem _ hset, hmem⟩

theorem cards_of_mem {type : SessionType} {set : List Nat} {running : Running}
    (hnodup : (running.map Prod.fst).Nodup) (h : (type, set) ∈ running) :
    running.cards type = set := by
  induction running with
  | nil => simp at h
  | cons p rest ih =>
    obtain ⟨u, set'⟩ := p
    rw [List.map_cons, List.nodup_cons] at hnodup
    rcases List.mem_cons.1 h with heq | hrest
    · cases heq
      simp [cards]
    have hne : u ≠ type := by
      rintro rfl
      exact hnodup.1 (List.mem_map.2 ⟨_, hrest, rfl⟩)
    rw [cards, if_neg hne]
    exact ih hnodup.2 hrest

end Running

namespace Supervisor

variable {s' : Supervisor} {ref : String} {type : SessionType}

variable {options : SupervisorOptions} {s : Supervisor}

/-- The slots: every type has one set, with no card twice and no more than its maximum, and every
occupied slot has an owner. -/
structure SlotsSound (options : SupervisorOptions) (s : Supervisor) : Prop where
  types : (s.running.map Prod.fst).Nodup
  sets : ∀ type, (s.running.cards type).Nodup
  bounded : ∀ type, (s.running.cards type).length ≤ options.max type
  owned : ∀ slot, s.Holds slot → s.occupancyOwner slot ≠ none

def BindingsSound (s : Supervisor) : Prop :=
  ∀ ref session, s.refSessions ref = some session → s.sessionBindings session = some ref

theorem SlotsSound.congr (h : SlotsSound options s) (hrunning : s'.running = s.running)
    (howner : s'.occupancyOwner = s.occupancyOwner) : SlotsSound options s' := by
  obtain ⟨types, sets, bounded, owned⟩ := h
  constructor
  · rwa [hrunning]
  · rwa [hrunning]
  · rwa [hrunning]
  · simpa only [Holds, hrunning, howner] using owned

/-! ## The slot that a close frees -/

def released (s : Supervisor) (executionRef : String) : Option Slot :=
  (s.control executionRef).bind fun ctrl =>
    if s.refSessions executionRef = none then none
    else ctrl.cardId.bind fun cardId =>
      (ownedType s.occupancyOwner cardId executionRef s.running).map (·, cardId)

def FreesSlot (slot : Option Slot) (s s' : Supervisor) : Prop :=
  match slot with
  | none => s'.running = s.running ∧ s'.occupancyOwner = s.occupancyOwner
  | some slot => s'.running = s.running.delete slot.1 slot.2 ∧
      s'.occupancyOwner = Function.update s.occupancyOwner slot none

theorem control_eq_none_of_controls {executionRef : String}
    (h : s.controls executionRef = none) : s.control executionRef = none := by
  simp [control, h]

theorem close_spec (now : Int) (executionRef : String) (outcome : TerminalOutcome)
    (s : Supervisor) :
    (s.close now executionRef outcome).2.1 = ((s.released executionRef).map Prod.fst).toList ∧
      FreesSlot (s.released executionRef) s (s.close now executionRef outcome).2.2 ∧
      (s.close now executionRef outcome).2.2.refSessions = s.refSessions ∧
      (s.close now executionRef outcome).2.2.sessionBindings = s.sessionBindings := by
  cases hhandle : s.controls executionRef with
  | none =>
    have hcontrol := control_eq_none_of_controls hhandle
    simp [close, hhandle, released, hcontrol, FreesSlot]
  | some handle =>
    cases hcontrol : s.control executionRef with
    | none => simp [close, hhandle, released, hcontrol, FreesSlot]
    | some ctrl =>
      by_cases hbound : s.refSessions executionRef = none
      · simp [close, hhandle, released, hcontrol, hbound, FreesSlot]
      cases hcard : ctrl.cardId with
      | none => simp [close, hhandle, released, hcontrol, hbound, hcard, FreesSlot,
          modifyHandle]
      | some cardId =>
        cases htype : ownedType s.occupancyOwner cardId executionRef s.running <;>
          simp [close, hhandle, released, hcontrol, hbound, hcard, FreesSlot,
            modifyHandle, releaseOwnedCard, htype]

theorem ownedType_some {owner : Slot → Option String} {cardId : Nat} {running : Running}
    (h : ownedType owner cardId ref running = some type) :
    ∃ set, (type, set) ∈ running ∧ cardId ∈ set ∧
      (owner (type, cardId) = none ∨ owner (type, cardId) = some ref) := by
  induction running with
  | nil => simp [ownedType] at h
  | cons p rest ih =>
    obtain ⟨u, set⟩ := p
    rw [ownedType] at h
    split at h
    · obtain ⟨set', hset, hrest⟩ := ih h
      exact ⟨set', List.mem_cons_of_mem _ hset, hrest⟩
    split at h
    · obtain ⟨set', hset, hrest⟩ := ih h
      exact ⟨set', List.mem_cons_of_mem _ hset, hrest⟩
    rename_i hmem howner
    cases h
    refine ⟨set, List.mem_cons_self, by simpa using hmem, ?_⟩
    by_cases hnone : owner (type, cardId) = none
    · exact .inl hnone
    · exact .inr (by simpa [hnone] using howner)

theorem ownedType_none {owner : Slot → Option String} {cardId : Nat} {running : Running}
    {set : List Nat} (h : ownedType owner cardId ref running = none) (hset : (type, set) ∈ running)
    (hmem : cardId ∈ set) : owner (type, cardId) ≠ some ref := by
  induction running with
  | nil => simp at hset
  | cons p rest ih =>
    rw [ownedType] at h
    rcases List.mem_cons.1 hset with heq | hrest
    · cases heq
      rw [if_neg (by simpa using hmem)] at h
      split at h
      · rename_i howner
        exact howner.2
      · simp at h
    · split at h
      · exact ih h hrest
      split at h
      · exact ih h hrest
      · simp at h

theorem released_some (hs : SlotsSound options s) {slot : Slot} (h : s.released ref = some slot) :
    s.Holds slot ∧ s.occupancyOwner slot = some ref ∧ s.refSessions ref ≠ none ∧
      (s.control ref).bind (·.cardId) = some slot.2 := by
  obtain ⟨type, cardId⟩ := slot
  simp only [released, Option.bind_eq_some_iff] at h
  obtain ⟨ctrl, hcontrol, h⟩ := h
  split at h
  · cases h
  rename_i hbound
  simp only [Option.bind_eq_some_iff, Option.map_eq_some_iff] at h
  obtain ⟨card, hcard, t, htype, heq⟩ := h
  cases heq
  obtain ⟨set, hset, hmem, howner⟩ := ownedType_some htype
  have hholds : s.Holds (type, cardId) := by
    show cardId ∈ s.running.cards type
    rwa [Running.cards_of_mem hs.types hset]
  refine ⟨hholds, howner.resolve_left (hs.owned _ hholds), hbound, ?_⟩
  simp [hcontrol, hcard]

theorem released_ne_none {slot : Slot} (hholds : s.Holds slot)
    (howner : s.occupancyOwner slot = some ref) (hbound : s.refSessions ref ≠ none)
    (hcard : (s.control ref).bind (·.cardId) = some slot.2) : s.released ref ≠ none := by
  intro hnone
  obtain ⟨ctrl, hcontrol, hctrl⟩ := Option.bind_eq_some_iff.1 hcard
  obtain ⟨set, hset, hmem⟩ := Running.mem_of_mem_cards hholds
  rw [released, hcontrol, Option.bind_some, if_neg hbound, hctrl, Option.bind_some,
    Option.map_eq_none_iff] at hnone
  exact ownedType_none hnone hset hmem howner

/-! ## What a call does to the slots -/

variable (executionRef : String)

theorem bindSession_slots (sessionId : String) (s : Supervisor) :
    FreesSlot none s (s.bindSession executionRef sessionId).2 := by
  unfold bindSession
  split
  · exact ⟨rfl, rfl⟩
  split
  · exact ⟨rfl, rfl⟩
  split <;> exact ⟨rfl, rfl⟩

theorem remove_slots (s : Supervisor) : FreesSlot none s (s.remove executionRef) := by
  unfold remove
  split <;> exact ⟨rfl, rfl⟩

theorem cancel_slots (reason : CancelReason) (s : Supervisor) :
    FreesSlot none s (s.cancel executionRef reason) := by
  unfold cancel
  split <;> exact ⟨rfl, rfl⟩

theorem openControl_slots (cardId : Option Nat) (s : Supervisor) :
    FreesSlot none s (s.openControl executionRef cardId) := by
  unfold openControl
  split <;> exact ⟨rfl, rfl⟩

/-- A call admits a card, or frees the slot of a close, or leaves the slots as they are. -/
theorem supervisorCall_slots (options : SupervisorOptions) (s : Supervisor) (op : SupervisorOp) :
    (∃ now type cardId ref, op = .admitCard now type cardId ref ∧
        canAdmit options now type s = true ∧
        supervisorCall options s op = ([], { s with
          running := s.running.add type cardId
          occupancyOwner := Function.update s.occupancyOwner (type, cardId) (some ref) })) ∨
      ∃ slot, (supervisorCall options s op).1 = (slot.map Prod.fst).toList ∧
        FreesSlot slot s (supervisorCall options s op).2 ∧
        ∀ x, slot = some x → ∃ now ref outcome, op = .close now ref outcome ∧
          s.released ref = some x := by
  have kept : ∀ {s' : Supervisor}, FreesSlot none s s' →
      supervisorCall options s op = ([], s') →
      ∃ slot, (supervisorCall options s op).1 = (slot.map Prod.fst).toList ∧
        FreesSlot slot s (supervisorCall options s op).2 ∧
        ∀ x, slot = some x → ∃ now ref outcome, op = .close now ref outcome ∧
          s.released ref = some x := by
    intro s' hslots hcall
    refine ⟨none, ?_, ?_, nofun⟩
    · rw [hcall]
      rfl
    · rwa [hcall]
  cases op with
  | openControl ref cardId => exact .inr (kept (openControl_slots ref cardId s) rfl)
  | admitCard now type cardId ref =>
    cases hroom : canAdmit options now type s with
    | true => exact .inl ⟨now, type, cardId, ref, rfl, hroom, by
        simp [supervisorCall, admitCard, hroom]⟩
    | false => exact .inr (kept ⟨rfl, rfl⟩ (by simp [supervisorCall, admitCard, hroom]))
  | bindSession ref session => exact .inr (kept (bindSession_slots ref session s) rfl)
  | markTerminal handle outcome =>
    have hslots : FreesSlot none s (s.modifyHandle handle fun c => (c.markTerminal outcome).2) :=
      ⟨rfl, rfl⟩
    exact .inr (kept hslots rfl)
  | cancel ref reason => exact .inr (kept (cancel_slots ref reason s) rfl)
  | close now ref outcome =>
    obtain ⟨hnotified, hslots, -, -⟩ := close_spec now ref outcome s
    exact .inr ⟨s.released ref, hnotified, hslots, fun x hx => ⟨now, ref, outcome, rfl, hx⟩⟩
  | remove ref => exact .inr (kept (remove_slots ref s) rfl)

theorem holds_of_freesSlot {x : Slot} (hs : SlotsSound options s)
    (h : FreesSlot (some x) s s') (slot : Slot) : s'.Holds slot ↔ s.Holds slot ∧ slot ≠ x := by
  obtain ⟨type, cardId⟩ := slot
  obtain ⟨type', cardId'⟩ := x
  obtain ⟨hrunning, -⟩ := h
  simp only [Holds, hrunning, Running.cards_delete]
  by_cases ht : type = type'
  · subst ht
    rw [if_pos rfl, (hs.sets type).mem_erase_iff]
    simp [and_comm]
  · simp [ht]

theorem slotsSound_freesSlot {slot : Option Slot} (hs : SlotsSound options s)
    (h : FreesSlot slot s s') : SlotsSound options s' := by
  cases slot with
  | none => exact hs.congr h.1 h.2
  | some x =>
    have hholds := holds_of_freesSlot hs h
    obtain ⟨hrunning, howner⟩ := h
    constructor
    · rw [hrunning, Running.types_delete]
      exact hs.types
    · intro type
      rw [hrunning, Running.cards_delete]
      split
      · exact (hs.sets _).erase _
      · exact hs.sets type
    · intro type
      rw [hrunning, Running.cards_delete]
      split
      · rename_i htype
        subst htype
        have hle := (List.erase_sublist (a := x.2) (l := s.running.cards x.1)).length_le
        have hbound := hs.bounded x.1
        omega
      · exact hs.bounded type
    · intro slot hslot
      obtain ⟨hheld, hne⟩ := (hholds slot).1 hslot
      rw [howner, Function.update_of_ne hne]
      exact hs.owned slot hheld

theorem length_lt_of_canAdmit {now : Int} (h : canAdmit options now type s = true) :
    (s.running.cards type).length < options.max type := by
  unfold canAdmit at h
  split at h
  · simp at h
  · omega

theorem mem_cards_add (slot : Slot) (type : SessionType) (cardId : Nat) (running : Running) :
    slot.2 ∈ (running.add type cardId).cards slot.1 ↔
      slot.2 ∈ running.cards slot.1 ∨ slot = (type, cardId) := by
  obtain ⟨t, c⟩ := slot
  rw [Running.cards_add]
  by_cases ht : t = type
  · subst ht
    rw [if_pos rfl]
    split
    · rename_i hmem
      constructor
      · exact .inl
      rintro (h | h)
      · exact h
      · cases h
        exact hmem
    · simp
  · simp [ht]

theorem slotsSound_add {now : Int} {type : SessionType} {cardId : Nat} {ref : String}
    (hs : SlotsSound options s) (hroom : canAdmit options now type s = true) :
    SlotsSound options { s with
      running := s.running.add type cardId
      occupancyOwner := Function.update s.occupancyOwner (type, cardId) (some ref) } := by
  have hlt := length_lt_of_canAdmit hroom
  constructor
  · rw [Running.types_add]
    split
    · exact hs.types
    · rename_i hnew
      simpa using hs.types.concat hnew
  · intro t
    rw [Running.cards_add]
    split
    · split
      · exact hs.sets type
      · rename_i hnew
        simpa using (hs.sets type).concat hnew
    · exact hs.sets t
  · intro t
    rw [Running.cards_add]
    split
    · rename_i htype
      subst htype
      split
      · exact hs.bounded t
      · rw [List.length_append, List.length_singleton]
        omega
    · exact hs.bounded t
  · intro slot hslot
    by_cases heq : slot = (type, cardId)
    · simp [heq]
    have hheld := ((mem_cards_add slot type cardId s.running).1 hslot).resolve_right heq
    show Function.update s.occupancyOwner (type, cardId) (some ref) slot ≠ none
    rw [Function.update_of_ne heq]
    exact hs.owned slot hheld

theorem slotsSound_call (hs : SlotsSound options s) (op : SupervisorOp) :
    SlotsSound options (supervisorCall options s op).2 := by
  rcases supervisorCall_slots options s op with
    ⟨now, type, cardId, ref, -, hroom, hcall⟩ | ⟨slot, -, hslots, -⟩
  · rw [hcall]
    exact slotsSound_add hs hroom
  · exact slotsSound_freesSlot hs hslots

/-! ## What a call does to the bindings -/

theorem bindingsSound_bindSession (hs : s.BindingsSound) (executionRef sessionId : String) :
    (s.bindSession executionRef sessionId).2.BindingsSound := by
  -- the session is taken from all others, and no other execution has it
  have hbound : ∀ refSessions : String → Option String,
      (∀ ref session, refSessions ref = some session → ref ≠ executionRef →
        session ≠ sessionId ∧ s.sessionBindings session = some ref) →
      ∀ ref session, Function.update refSessions executionRef (some sessionId) ref = some session →
        Function.update s.sessionBindings sessionId (some executionRef) session = some ref := by
    intro refSessions hothers ref session href
    by_cases heq : ref = executionRef
    · subst heq
      rw [Function.update_self] at href
      cases href
      exact Function.update_self ..
    · rw [Function.update_of_ne heq] at href
      obtain ⟨hne, hsession⟩ := hothers ref session href heq
      rw [Function.update_of_ne hne, hsession]
  unfold bindSession
  dsimp only
  split
  · rename_i hfree
    refine hbound _ fun ref session href hne => ?_
    have hsession := hs ref session href
    refine ⟨?_, hsession⟩
    rintro rfl
    simp [hfree] at hsession
  rename_i existingRef hexisting
  split
  · rename_i heq
    refine hbound _ fun ref session href hne => ?_
    have hsession := hs ref session href
    refine ⟨?_, hsession⟩
    rintro rfl
    rw [hexisting, heq] at hsession
    exact hne (Option.some.inj hsession).symm
  split
  · exact hs
  refine hbound _ fun ref session href hne => ?_
  by_cases heq : ref = existingRef
  · rw [heq, Function.update_self] at href
    cases href
  rw [Function.update_of_ne heq] at href
  have hsession := hs ref session href
  refine ⟨?_, hsession⟩
  rintro rfl
  rw [hexisting] at hsession
  exact heq (Option.some.inj hsession).symm

theorem bindingsSound_remove (hs : s.BindingsSound) (executionRef : String) :
    (s.remove executionRef).BindingsSound := by
  unfold remove
  split
  · exact hs
  rename_i sessionId hsession
  intro ref session href
  by_cases heq : ref = executionRef
  · subst heq
    simp at href
  replace href : Function.update s.refSessions executionRef none ref = some session := href
  rw [Function.update_of_ne heq] at href
  have hbinding := hs ref session href
  show (if _ then _ else _ : String → Option String) session = some ref
  split
  · rename_i hmine
    have hne : session ≠ sessionId := by
      rintro rfl
      rw [hmine] at hbinding
      exact heq (Option.some.inj hbinding).symm
    rw [Function.update_of_ne hne, hbinding]
  · exact hbinding

theorem bindingsSound_call (hs : s.BindingsSound) (op : SupervisorOp) :
    (supervisorCall options s op).2.BindingsSound := by
  cases op with
  | openControl ref cardId =>
    show (s.openControl ref cardId).BindingsSound
    unfold openControl
    split <;> exact hs
  | admitCard now type cardId ref =>
    show (s.admitCard options now type cardId (some ref)).2.BindingsSound
    unfold admitCard
    split <;> exact hs
  | bindSession ref session => exact bindingsSound_bindSession hs ref session
  | markTerminal handle outcome => exact hs
  | cancel ref reason =>
    show (s.cancel ref reason).BindingsSound
    unfold cancel
    split <;> exact hs
  | close now ref outcome =>
    obtain ⟨-, -, hrefs, hsessions⟩ := close_spec now ref outcome s
    intro ref' session
    show (s.close now ref outcome).2.2.refSessions ref' = some session → _
    rw [hrefs]
    intro href
    show (s.close now ref outcome).2.2.sessionBindings session = some ref'
    rw [hsessions]
    exact hs ref' session href
  | remove ref => exact bindingsSound_remove hs ref

def BoundTo (s : Supervisor) (ref session : String) : Prop :=
  s.refSessions ref = some session ∨ s.sessionBindings session = some ref

theorem BindingsSound.boundTo {session : String} (hs : s.BindingsSound)
    (h : s.BoundTo ref session) : s.sessionBindings session = some ref :=
  h.elim (hs ref session) id

end Supervisor

section Laws

variable (options : SupervisorOptions)

/-- The slots that a step frees: each by the close of the execution that owns it, and with one
notification of its type. -/
def FreedByOwner (r : SupervisorRun) (op : SupervisorOp) : Prop :=
  ∃ freed : List Slot, freed.Nodup ∧
    (∀ slot, slot ∈ freed ↔
      r.state.Holds slot ∧ ¬ (supervisorCall options r.state op).2.Holds slot) ∧
    (supervisorCall options r.state op).1 = freed.map Prod.fst ∧
    ∀ slot ∈ freed, ∃ now ref outcome,
      op = .close now ref outcome ∧ r.state.occupancyOwner slot = some ref

/-- The owner of an occupied slot is the execution that it was last admitted for. -/
def OwnedByAdmission (r : SupervisorRun) (op : SupervisorOp) : Prop :=
  (∀ now type cardId ref, op = .admitCard now type cardId ref →
    r.state.canAdmit options now type = true →
    (supervisorCall options r.state op).2.Holds (type, cardId) ∧
      (supervisorCall options r.state op).2.occupancyOwner (type, cardId) = some ref) ∧
  ∀ slot, (supervisorCall options r.state op).2.Holds slot →
    (∃ now ref, op = .admitCard now slot.1 slot.2 ref ∧
      r.state.canAdmit options now slot.1 = true) ∨
    (supervisorCall options r.state op).2.occupancyOwner slot = r.state.occupancyOwner slot

def FreesOnClose (r : SupervisorRun) (op : SupervisorOp) : Prop :=
  ∀ now ref outcome, op = .close now ref outcome → ref ∈ r.everBound →
    ∀ slot, (supervisorCall options r.state op).2.Holds slot →
      (supervisorCall options r.state op).2.occupancyOwner slot ≠ some ref

/-- An execution that is closed and was ever bound owns nothing, or it is registered and bound
still and the slot of its card is all it owns. -/
def Closable (r : SupervisorRun) (op : SupervisorOp) : Prop :=
  ∀ now ref outcome, op = .close now ref outcome → ref ∈ r.everBound →
    ∀ slot, r.state.Holds slot → r.state.occupancyOwner slot = some ref →
      r.state.refSessions ref ≠ none ∧
      (r.state.control ref).bind (·.cardId) = some slot.2 ∧
      ∀ other, r.state.Holds other → r.state.occupancyOwner other = some ref → other = slot

variable {options} {r : SupervisorRun}

open Supervisor

theorem freedByOwner_step (hs : SlotsSound options r.state) (op : SupervisorOp) :
    FreedByOwner options r op := by
  rcases supervisorCall_slots options r.state op with
    ⟨now, type, cardId, ref, rfl, -, hcall⟩ | ⟨slot, hnotified, hslots, hclose⟩
  · refine ⟨[], List.nodup_nil, ?_, by rw [hcall]; rfl, by simp⟩
    intro slot
    simp only [List.not_mem_nil, false_iff, not_and, not_not]
    intro hheld
    rw [hcall]
    exact (mem_cards_add slot type cardId r.state.running).2 (.inl hheld)
  · cases slot with
    | none =>
      refine ⟨[], List.nodup_nil, ?_, hnotified, by simp⟩
      intro slot
      simp [Supervisor.Holds, hslots.1]
    | some x =>
      obtain ⟨now, ref, outcome, rfl, hreleased⟩ := hclose x rfl
      obtain ⟨hheld, howner, -, -⟩ := released_some hs hreleased
      refine ⟨[x], List.nodup_singleton x, ?_, hnotified, ?_⟩
      · intro slot
        rw [holds_of_freesSlot hs hslots, List.mem_singleton]
        constructor
        · rintro rfl
          exact ⟨hheld, fun h => h.2 rfl⟩
        · rintro ⟨hslot, hgone⟩
          by_contra hne
          exact hgone ⟨hslot, hne⟩
      · intro slot hslot
        rw [List.mem_singleton] at hslot
        subst hslot
        exact ⟨now, ref, outcome, rfl, howner⟩

theorem ownedByAdmission_step (hs : SlotsSound options r.state) (op : SupervisorOp) :
    OwnedByAdmission options r op := by
  rcases supervisorCall_slots options r.state op with
    ⟨now, type, cardId, ref, rfl, hroom, hcall⟩ | ⟨slot, -, hslots, hclose⟩
  · constructor
    · intro now' type' cardId' ref' hop _
      cases hop
      rw [hcall]
      refine ⟨(mem_cards_add _ type cardId r.state.running).2 (.inr rfl), ?_⟩
      exact Function.update_self ..
    intro slot _
    by_cases heq : slot = (type, cardId)
    · subst heq
      exact .inl ⟨now, ref, rfl, hroom⟩
    · rw [hcall]
      exact .inr (Function.update_of_ne heq ..)
  · constructor
    · rintro now type cardId ref rfl hroom
      simp only [supervisorCall, admitCard, hroom, Bool.true_eq_false, if_false]
      exact ⟨(mem_cards_add _ type cardId r.state.running).2 (.inr rfl), Function.update_self ..⟩
    intro slot' hheld
    cases slot with
    | none => exact .inr (by rw [hslots.2])
    | some x =>
      have hne := ((holds_of_freesSlot hs hslots slot').1 hheld).2
      rw [hslots.2]
      exact .inr (Function.update_of_ne hne ..)

theorem held_after_close (hs : SlotsSound options r.state) (now : Int) (ref : String)
    (outcome : TerminalOutcome) (slot : Slot) :
    ((r.state.close now ref outcome).2.2.Holds slot ∧
        (r.state.close now ref outcome).2.2.occupancyOwner slot = some ref) ↔
      r.state.Holds slot ∧ r.state.occupancyOwner slot = some ref ∧
        r.state.released ref ≠ some slot := by
  obtain ⟨-, hslots, -, -⟩ := close_spec now ref outcome r.state
  cases hreleased : r.state.released ref with
  | none =>
    rw [hreleased] at hslots
    simp [Supervisor.Holds, hslots.1, hslots.2]
  | some x =>
    rw [hreleased] at hslots
    rw [holds_of_freesSlot hs hslots, hslots.2]
    by_cases heq : slot = x
    · simp [heq]
    · simp [heq, Ne.symm heq]

theorem freesOnClose_iff (hs : SlotsSound options r.state) (op : SupervisorOp) :
    FreesOnClose options r op ↔ Closable r op := by
  constructor
  · rintro hfrees now ref outcome rfl hbound
    have hreleased : ∀ slot, r.state.Holds slot → r.state.occupancyOwner slot = some ref →
        r.state.released ref = some slot := by
      intro slot hheld howner
      by_contra hne
      have hafter := (held_after_close hs now ref outcome slot).2 ⟨hheld, howner, hne⟩
      exact hfrees now ref outcome rfl hbound slot hafter.1 hafter.2
    intro slot hheld howner
    have hslot := hreleased slot hheld howner
    obtain ⟨-, -, hsession, hcard⟩ := released_some hs hslot
    refine ⟨hsession, hcard, fun other hother hmine => ?_⟩
    have := (hreleased other hother hmine).symm.trans hslot
    exact Option.some.inj this
  · rintro hclosable now ref outcome rfl hbound slot hheld howner
    obtain ⟨hbefore, hmine, hne⟩ := (held_after_close hs now ref outcome slot).1 ⟨hheld, howner⟩
    obtain ⟨hsession, hcard, honly⟩ := hclosable now ref outcome rfl hbound slot hbefore hmine
    obtain ⟨x, hx⟩ := Option.ne_none_iff_exists'.1
      (released_ne_none hbefore hmine hsession hcard)
    obtain ⟨hheldx, hownerx, -, -⟩ := released_some hs hx
    rw [honly x hheldx hownerx] at hx
    exact hne hx

structure SupervisorRun.Sound (options : SupervisorOptions) (r : SupervisorRun) : Prop where
  slots : SlotsSound options r.state
  bindings : r.state.BindingsSound

theorem SupervisorRun.sound_start : SupervisorRun.Sound options .start where
  slots := by
    constructor <;> simp [SupervisorRun.start, Supervisor.start, Running.cards, Supervisor.Holds]
  bindings := by
    intro ref session h
    simp [SupervisorRun.start, Supervisor.start] at h

theorem SupervisorRun.sound_step (r : SupervisorRun) (op : SupervisorOp) (hs : r.Sound options) :
    (supervisorStep options r op).Sound options :=
  ⟨slotsSound_call hs.slots op, bindingsSound_call hs.bindings op⟩

end Laws

/-- In every run a type has no more cards than its maximum and a session no two executions; a slot
is freed by the close of its owner only, which is the execution it was last admitted for, with one
notification.  And every close leaves its execution no slot exactly when the run closes no
execution that was taken over, is gone, or owns another slot than the one of its card. -/
theorem slots_bounded_and_freed (options : SupervisorOptions) (ops : List SupervisorOp) :
    (∀ type, ((runFrom (supervisorStep options) .start ops).state.running.cards type).Nodup ∧
      ((runFrom (supervisorStep options) .start ops).state.running.cards type).length ≤
        options.max type) ∧
    (∀ session ref ref',
      (runFrom (supervisorStep options) .start ops).state.BoundTo ref session →
      (runFrom (supervisorStep options) .start ops).state.BoundTo ref' session → ref = ref') ∧
    StepsMeet (supervisorStep options)
      (fun r op => FreedByOwner options r op ∧ OwnedByAdmission options r op) .start ops ∧
    (StepsMeet (supervisorStep options) (FreesOnClose options) .start ops ↔
      StepsMeet (supervisorStep options) Closable .start ops) := by
  have hstart : SupervisorRun.Sound options .start := SupervisorRun.sound_start
  have hend := invariant_of_step SupervisorRun.sound_step ops _ hstart
  refine ⟨fun type => ⟨hend.slots.sets type, hend.slots.bounded type⟩, ?_, ?_, ?_⟩
  · intro session ref ref' hbound hbound'
    have hsession := hend.bindings.boundTo hbound
    rw [hend.bindings.boundTo hbound'] at hsession
    exact (Option.some.inj hsession).symm
  · exact stepsMeet_of_invariant SupervisorRun.sound_step
      (fun r op hs => ⟨freedByOwner_step hs.slots op, ownedByAdmission_step hs.slots op⟩)
      ops _ hstart
  · exact stepsMeet_iff_of_invariant SupervisorRun.sound_step (fun r op hs => freesOnClose_iff hs.slots op)
      ops _ hstart

/-- An execution is terminal when its session goes to the next one; its own close comes after. -/
def takeover : List SupervisorOp :=
  [.openControl "A" (some 1), .admitCard 0 .W 1 "A", .bindSession "A" "s",
    .markTerminal 0 .timedOut, .openControl "B" (some 2), .bindSession "B" "s",
    .close 0 "A" .completed]

/-- The slot of the first execution stays occupied, under its name. -/
theorem takeover_leaks :
    ¬ StepsMeet (supervisorStep ⟨fun _ => none⟩) (FreesOnClose ⟨fun _ => none⟩) .start takeover := by
  intro h
  obtain ⟨-, -, -, -, -, -, hclose, -⟩ := h
  exact hclose 0 "A" .completed rfl (by decide) (.W, 1) (by decide) (by decide)

end Abtars
