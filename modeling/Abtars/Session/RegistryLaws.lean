import Abtars.Session.Registry

/-!
# One active session

Each user has at most one active session on a platform, and calls for one user on one platform
leave the sessions of the others alone, whatever the calls.  That no hollow session is active, and
that a Main is created only where there is none, holds as long as no call makes a hollow session
active or creates a Main in place of one that is not active.
-/

namespace Abtars

open Lib RegisteredSession

variable {r r' : SpinSessionRegistry} {s t n : RegisteredSession} {userId platform : String}

/-! ## Ids -/

theorem cutLines_sessionId (now : Nat) (type : SessionType) (idx : Nat) :
    cutLines '_' (sessionId now type idx).toList =
      ([Nat.toDigits 10 (now / 1000), [type.letter]], (Nat.toDigits 10 idx).leftpad 2 '0') := by
  have hpad : '_' ∉ (Nat.toDigits 10 idx).leftpad 2 '0' := by
    simp [List.leftpad, Nat.underscore_not_in_toDigits]
  have hletter : '_' ∉ [type.letter] := by cases type <;> decide
  rw [sessionId, String.toList_ofList, List.append_assoc, List.cons_append,
    cutLines_append_sep Nat.underscore_not_in_toDigits, cutLines_append_sep hletter,
    cutLines_of_not_mem hpad]

theorem sessionId_injective {now now' : Nat} {type type' : SessionType} {idx idx' : Nat}
    (h : sessionId now type idx = sessionId now' type' idx') : idx = idx' := by
  have hvalue : ∀ n, Nat.ofDigitChars 10 ((Nat.toDigits 10 n).leftpad 2 '0') 0 = n := by
    intro n
    rw [List.leftpad, Nat.ofDigitChars_append, Nat.ofDigitChars_replicate_zero, Nat.mul_zero,
      Nat.ofDigitChars_ten_toDigits]
  have hcut := congrArg (fun id => (cutLines '_' id.toList).2) h
  simp only [cutLines_sessionId] at hcut
  rw [← hvalue idx, hcut, hvalue]

theorem isMain_of_id {now idx : Nat} (h : s.id = sessionId now .A idx) : s.isMain = true := by
  simp [isMain, sessionType, h, cutLines_sessionId, SessionType.letter]

namespace SpinSessionRegistry

/-! ## The invariant -/

structure Sound (r : SpinSessionRegistry) : Prop where
  indexed : ∀ s ∈ r.sessions, s.shortIndex ≤ r.nextIndex ∧
    ∃ now type, s.id = sessionId now type s.shortIndex
  distinct : ∀ s ∈ r.sessions, ∀ t ∈ r.sessions, s.shortIndex = t.shortIndex → s = t
  oneActive : ∀ userId platform, ∀ s ∈ r.sessions, ∀ t ∈ r.sessions,
    s.activeOf userId platform = true → t.activeOf userId platform = true → s = t
  hollow : ∀ s ∈ r.sessions, s.isHollow = true → s.active = false

/-- A session of the pair is put into the map, for that of its id or under the next index. -/
structure Replaced (userId platform : String) (n : RegisteredSession)
    (r r' : SpinSessionRegistry) : Prop where
  mem : ∀ s, s ∈ r'.sessions ↔ (s ∈ r.sessions ∧ s.id ≠ n.id) ∨ s = n
  isOf : n.isOf userId platform = true
  older : ∀ s ∈ r.sessions, s.id = n.id →
    s.isOf userId platform = true ∧ s.shortIndex = n.shortIndex
  index : ∀ s ∈ r.sessions, s.shortIndex = n.shortIndex → s.id = n.id
  next : r.nextIndex ≤ r'.nextIndex ∧ n.shortIndex ≤ r'.nextIndex
  id : ∃ now type, n.id = sessionId now type n.shortIndex

theorem Replaced.other (h : Replaced userId platform n r r')
    (hs : s.isOf userId platform = false) : s ∈ r'.sessions ↔ s ∈ r.sessions := by
  rw [h.mem]
  constructor
  · rintro (⟨hold, -⟩ | rfl)
    · exact hold
    · exact absurd h.isOf (by simp [hs])
  · exact fun hold => .inl ⟨hold, fun hid => by simp [(h.older s hold hid).1] at hs⟩

/-- **The sessions stay sound**, when the one that is put is not the second one active. -/
theorem Sound.replaced (hr : r.Sound) (h : Replaced userId platform n r r')
    (hactive : n.active = true → n.live = true →
      ∀ s ∈ r.sessions, s.activeOf userId platform = true → s.id = n.id)
    (hhollow : n.isHollow = true → n.active = false) : r'.Sound where
  indexed := fun s hs => by
    rcases (h.mem s).1 hs with ⟨hold, -⟩ | rfl
    · exact ⟨(hr.indexed s hold).1.trans h.next.1, (hr.indexed s hold).2⟩
    · exact ⟨h.next.2, h.id⟩
  distinct := fun s hs t ht hindex => by
    rcases (h.mem s).1 hs with ⟨hold, hne⟩ | rfl <;> rcases (h.mem t).1 ht with ⟨hold', hne'⟩ | rfl
    · exact hr.distinct s hold t hold' hindex
    · exact absurd (h.index s hold hindex) hne
    · exact absurd (h.index t hold' hindex.symm) hne'
    · rfl
  oneActive := fun u p s hs t ht hs' ht' => by
    have hpair : ∀ x : RegisteredSession, n.activeOf u p = true → x.activeOf u p = true →
        x.activeOf userId platform = true := by
      have hof := h.isOf
      intro x hn hx
      simp only [activeOf, liveOf, isOf, Bool.and_eq_true, decide_eq_true_eq] at hof hn hx ⊢
      obtain ⟨⟨⟨rfl, rfl⟩, -⟩, -⟩ := hn
      exact ⟨⟨⟨hx.1.1.1.trans hof.1, hx.1.1.2.trans hof.2⟩, hx.1.2⟩, hx.2⟩
    have hnew : n.activeOf u p = true → ∀ x ∈ r.sessions, x.activeOf u p = true → x.id = n.id := by
      intro hn x hx hx'
      have hflags := hn
      simp only [activeOf, liveOf, Bool.and_eq_true] at hflags
      exact hactive hflags.2 hflags.1.2 x hx (hpair x hn hx')
    rcases (h.mem s).1 hs with ⟨hold, hne⟩ | rfl <;> rcases (h.mem t).1 ht with ⟨hold', hne'⟩ | rfl
    · exact hr.oneActive u p s hold t hold' hs' ht'
    · exact absurd (hnew ht' s hold hs') hne
    · exact absurd (hnew hs' t hold' ht') hne'
    · rfl
  hollow := fun s hs hs' => by
    rcases (h.mem s).1 hs with ⟨hold, -⟩ | rfl
    · exact hr.hollow s hold hs'
    · exact hhollow hs'

theorem replaced_amend (f : RegisteredSession → RegisteredSession) (hf : ∀ s, (f s).id = s.id)
    (hr : r.Sound) (ht : t ∈ r.sessions) (hof : t.isOf userId platform = true)
    (hindex : (f t).shortIndex = t.shortIndex) (hsame : (f t).isOf userId platform = true) :
    Replaced userId platform (f t) r (r.amend t.id f hf) where
  mem := fun s => by
    have hget : r.sessions.get t.id = some t := Table.get_key_of_mem ht
    rw [amend, Table.mem_modify, hget, hf t]
    simp [Keyed.key]
  isOf := hsame
  older := fun s hs hid => by
    obtain rfl := Table.eq_of_key_eq hs ht (hid.trans (hf t))
    exact ⟨hof, hindex.symm⟩
  index := fun s hs heq => by
    rw [hr.distinct s hs t ht (heq.trans hindex)]
    exact (hf t).symm
  next := ⟨Nat.le_refl _, hindex ▸ (hr.indexed t ht).1⟩
  id := by
    rw [hindex, hf t]
    exact (hr.indexed t ht).2

theorem replaced_allocate (userId platform : String) (hr : r.Sound) (now : Nat)
    (type : SessionType) (chatId : Int) (active : Bool) (motherId : Option String) :
    Replaced userId platform (r.allocate now type userId platform chatId active motherId).1 r
      (r.allocate now type userId platform chatId active motherId).2 where
  mem := fun s => Table.mem_put
  isOf := by simp [allocate, isOf]
  older := fun s hs hid => by
    obtain ⟨now', type', hid'⟩ := (hr.indexed s hs).2
    have hlast := sessionId_injective (hid'.symm.trans hid)
    have := (hr.indexed s hs).1
    omega
  index := fun s hs (heq : s.shortIndex = r.nextIndex + 1) => by
    have := (hr.indexed s hs).1
    omega
  next := ⟨Nat.le_succ _, Nat.le_refl _⟩
  id := ⟨now, type, rfl⟩

/-! ## The calls -/

structure Served (userId platform : String) (r r' : SpinSessionRegistry) : Prop where
  sound : r'.Sound
  other : ∀ s : RegisteredSession, s.isOf userId platform = false →
    (s ∈ r'.sessions ↔ s ∈ r.sessions)

theorem Served.refl (hr : r.Sound) : Served userId platform r r := ⟨hr, fun _ _ => Iff.rfl⟩

theorem Served.trans {r'' : SpinSessionRegistry} (h : Served userId platform r r')
    (h' : Served userId platform r' r'') : Served userId platform r r'' :=
  ⟨h'.sound, fun s hs => (h'.other s hs).trans (h.other s hs)⟩

def Idle (userId platform : String) (r : SpinSessionRegistry) : Prop :=
  ∀ s ∈ r.sessions, s.activeOf userId platform = false

theorem idle_of_getActiveSession (h : r.getActiveSession userId platform = none) :
    r.Idle userId platform := fun s hs => by
  simpa using List.find?_eq_none.1 h s hs

theorem getActiveSession_some (h : r.getActiveSession userId platform = some s) :
    s ∈ r.sessions ∧ s.activeOf userId platform = true :=
  ⟨List.mem_of_find?_eq_some h, List.find?_some h⟩

theorem findAddressableSession_some {index : Nat}
    (h : r.findAddressableSession userId platform index = some t) :
    t ∈ r.sessions ∧ t.liveOf userId platform = true := by
  have hfound := List.find?_some h
  simp only [Bool.and_eq_true] at hfound
  exact ⟨List.mem_of_find?_eq_some h, hfound.2⟩

theorem isOf_of_liveOf (h : s.liveOf userId platform = true) :
    s.isOf userId platform = true ∧ s.live = true := by
  simpa [liveOf] using h

theorem Sound.served (hr : r.Sound) (h : Replaced userId platform n r r')
    (hactive : n.active = true → n.live = true →
      ∀ s ∈ r.sessions, s.activeOf userId platform = true → s.id = n.id)
    (hhollow : n.isHollow = true → n.active = false) : Served userId platform r r' :=
  ⟨hr.replaced h hactive hhollow, fun _ hs => h.other hs⟩

theorem served_allocate (hr : r.Sound) (now : Nat) (type : SessionType) (chatId : Int)
    (active : Bool) (motherId : Option String) (hactive : active = true → r.Idle userId platform) :
    Served userId platform r (r.allocate now type userId platform chatId active motherId).2 :=
  hr.served (replaced_allocate userId platform hr now type chatId active motherId)
    (fun ha _ s hs hs' => by simp [hactive ha s hs] at hs') fun h => by
      simp [allocate, RegisteredSession.isHollow] at h

theorem served_activate (hr : r.Sound) (ht : t ∈ r.sessions)
    (hof : t.isOf userId platform = true) (hhollow : t.isHollow = false)
    (hactive : ∀ s ∈ r.sessions, s.activeOf userId platform = true → s.id = t.id) :
    Served userId platform r (r.amend t.id fun s => { s with active := true }) :=
  hr.served (replaced_amend _ _ hr ht hof rfl hof) (fun _ _ => hactive) fun h =>
    absurd (show t.isHollow = true from h) (by simp [hhollow])

theorem served_setStatus (hr : r.Sound) (ht : t ∈ r.sessions)
    (hlive : t.liveOf userId platform = true) (status : SessionStatus) :
    Served userId platform r (r.amend t.id fun s => { s with status }) := by
  have hof := (isOf_of_liveOf hlive).1
  refine hr.served (replaced_amend _ _ hr ht hof rfl hof) (fun ha _ s hs hs' => ?_)
    (hr.hollow t ht)
  have hactive : t.active = true := ha
  rw [hr.oneActive _ _ s hs t ht hs' (by simp [activeOf, hlive, hactive])]

/-- The session that was active is no more, or it is the one that is spared. -/
theorem deactivate_spec (userId platform : String) (hr : r.Sound) (spared : Option String) :
    Served userId platform r (r.deactivate userId platform spared) ∧
      (∀ s ∈ (r.deactivate userId platform spared).sessions,
        s.activeOf userId platform = true → some s.id = spared) ∧
      (∀ s ∈ r.sessions, some s.id = spared → s ∈ (r.deactivate userId platform spared).sessions) ∧
      (r.deactivate userId platform spared).alive.length ≤ r.alive.length := by
  unfold deactivate
  split
  · rename_i cur hcur
    obtain ⟨hmem, hcur⟩ := getActiveSession_some hcur
    have hof : cur.isOf userId platform = true ∧ cur.live = true := by
      simp only [activeOf, Bool.and_eq_true] at hcur
      exact isOf_of_liveOf hcur.1
    split
    · rename_i hspared
      refine ⟨.refl hr, fun s hs hs' => ?_, fun s hs _ => hs, Nat.le_refl _⟩
      rw [hr.oneActive _ _ s hs cur hmem hs' hcur, hspared]
    rename_i hne
    have hreplaced := replaced_amend (fun s => { s with active := false }) (fun _ => rfl) hr hmem
      hof.1 rfl hof.1
    refine ⟨hr.served hreplaced nofun fun _ => rfl, fun s hs hs' => ?_, fun s hs heq => ?_, ?_⟩
    · rcases (hreplaced.mem s).1 hs with ⟨hold, hother⟩ | rfl
      · exact absurd (congrArg _ (hr.oneActive _ _ s hold cur hmem hs' hcur)) hother
      · simp [activeOf] at hs'
    · exact (hreplaced.mem s).2 (.inl ⟨hs, fun heq' => hne (heq' ▸ heq)⟩)
    · exact Table.length_select_updateWhere_le
        (fun s : RegisteredSession => { s with active := false }) (fun _ => rfl) fun _ _ h => h
  · rename_i hnone
    refine ⟨.refl hr, fun s hs hs' => ?_, fun s hs _ => hs, Nat.le_refl _⟩
    simp [idle_of_getActiveSession hnone s hs] at hs'

/-- What a reconciliation leaves: an active session, a Main, and a new Main only as the only one. -/
structure Reconciled (userId platform : String) (r r' : SpinSessionRegistry) : Prop where
  served : Served userId platform r r'
  active : ∃ s ∈ r'.sessions, s.activeOf userId platform = true
  main : ∃ s ∈ r'.sessions, s.liveOf userId platform = true ∧ s.isMain = true
  only : ∀ s ∈ r'.sessions, (∀ t ∈ r.sessions, t.id ≠ s.id) →
    ∀ t ∈ r'.sessions, t.liveOf userId platform = true → t.isMain = true → t = s

theorem reconciled_of_reconcile (hr : r.Sound) (now : Nat) (chatId : Int) {wasActive : Bool}
    (hidle : wasActive = true → r.Idle userId platform)
    (hmain : r.Idle userId platform →
      ∀ m ∈ (r.sessions.select (·.liveOf userId platform)).find? (·.isMain), m.isHollow = false) :
    Reconciled userId platform r
      (r.reconcileAfterTermination userId platform now chatId wasActive) := by
  unfold reconcileAfterTermination
  dsimp only
  generalize hreplacement : (wasActive ||
    !(r.sessions.select (·.liveOf userId platform)).any (·.active)) = replacement
  have hnone : replacement = true → r.Idle userId platform := by
    rintro rfl
    rcases Bool.or_eq_true_iff.1 hreplacement with hwas | hany
    · exact hidle hwas
    intro s hs
    by_contra hne
    have hs' : s.activeOf userId platform = true := by simpa using hne
    simp only [activeOf, Bool.and_eq_true] at hs'
    rw [List.any_eq_true.2 ⟨s, (Table.mem_select _ _ _).2 ⟨hs, hs'.1⟩, hs'.2⟩] at hany
    cases hany
  have hsome : replacement = false → ∃ s ∈ r.sessions, s.activeOf userId platform = true := by
    rintro rfl
    obtain ⟨-, hany⟩ := Bool.or_eq_false_iff.1 hreplacement
    rw [Bool.not_eq_false'] at hany
    obtain ⟨s, hs, hactive⟩ := List.any_eq_true.1 hany
    obtain ⟨hs, hlive⟩ := (Table.mem_select _ _ _).1 hs
    exact ⟨s, hs, by simp [activeOf, hlive, hactive]⟩
  split
  · rename_i hfind
    have hnomain : ∀ t ∈ r.sessions, t.liveOf userId platform = true → t.isMain = true → False :=
      fun t ht hlive hmain => List.find?_eq_none.1 hfind t (List.mem_filter.2 ⟨ht, hlive⟩) hmain
    have hreplaced := replaced_allocate userId platform hr now .A chatId replacement none
    have hnew := (hreplaced.mem _).2 (.inr rfl)
    have hof := hreplaced.isOf
    refine ⟨served_allocate hr now .A chatId _ none hnone, ?_,
      ⟨_, hnew, by simpa [liveOf, allocate, live] using hof, isMain_of_id rfl⟩,
      fun s hs hfresh t ht hlive hmain => ?_⟩
    · cases replacement with
      | true => exact ⟨_, hnew, by simpa [activeOf, liveOf, allocate, live] using hof⟩
      | false =>
        obtain ⟨s, hs, hs'⟩ := hsome rfl
        refine ⟨s, (hreplaced.mem s).2 (.inl ⟨hs, fun hid => ?_⟩), hs'⟩
        have hlast : s.shortIndex = r.nextIndex + 1 := (hreplaced.older s hs hid).2
        have := (hr.indexed s hs).1
        omega
    · rcases (hreplaced.mem s).1 hs with ⟨hold, -⟩ | rfl
      · exact absurd rfl (hfresh s hold)
      · rcases (hreplaced.mem t).1 ht with ⟨hold, -⟩ | rfl
        · exact (hnomain t hold hlive hmain).elim
        · rfl
  · rename_i m hfind
    obtain ⟨hm, hlive⟩ := (Table.mem_select _ _ _).1 (List.mem_of_find?_eq_some hfind)
    have hismain : m.isMain = true := List.find?_some hfind
    have hof := (isOf_of_liveOf hlive).1
    split
    · rename_i hactivates
      simp only [Bool.and_eq_true] at hactivates
      have hidle := hnone hactivates.1
      have hreplaced := replaced_amend (fun s => { s with active := true }) (fun _ => rfl) hr hm
        hof rfl hof
      have hnew := (hreplaced.mem _).2 (.inr rfl)
      refine ⟨served_activate hr hm hof (hmain hidle m hfind) fun s hs hs' => ?_,
        ⟨_, hnew, ?_⟩, ⟨_, hnew, hlive, hismain⟩, fun s hs hfresh => ?_⟩
      · simp [hidle s hs] at hs'
      · exact Bool.and_eq_true_iff.2 ⟨hlive, rfl⟩
      · rcases (hreplaced.mem s).1 hs with ⟨hold, -⟩ | rfl
        · exact absurd rfl (hfresh s hold)
        · exact absurd rfl (hfresh m hm)
    · rename_i hkeeps
      refine ⟨.refl hr, ?_, ⟨m, hm, hlive, hismain⟩, fun s hs hfresh => absurd rfl (hfresh s hs)⟩
      cases replacement with
      | true => exact ⟨m, hm, by simpa [activeOf, hlive] using hkeeps⟩
      | false => exact hsome rfl

def HandsOver (userId platform : String) (index : Nat) (r : SpinSessionRegistry) : Prop :=
  ∀ t ∈ r.findAddressableSession userId platform index,
    (t.active = true ∨ r.Idle userId platform) →
      ∀ m ∈ (r.sessions.select fun s => s.liveOf userId platform && s.id ≠ t.id).find? (·.isMain),
        m.isHollow = false

theorem reconciled_terminate (hr : r.Sound) (now : Nat) {index : Nat}
    (h : r.findAddressableSession userId platform index = some t)
    (hhands : r.HandsOver userId platform index) :
    Reconciled userId platform r (r.terminate userId platform now t) := by
  obtain ⟨ht, hlive⟩ := findAddressableSession_some h
  have hof := (isOf_of_liveOf hlive).1
  have hreplaced := replaced_amend (fun s => { s with status := .ended, active := false })
    (fun _ => rfl) hr ht hof rfl hof
  have hserved := hr.served hreplaced nofun fun _ => rfl
  have hidle : t.active = true → Idle userId platform _ := fun ha s hs => by
    by_contra hne
    have hs' : s.activeOf userId platform = true := by simpa using hne
    rcases (hreplaced.mem s).1 hs with ⟨hold, hother⟩ | rfl
    · rw [hr.oneActive _ _ s hold t ht hs' (by simp [activeOf, hlive, ha])] at hother
      exact hother rfl
    · simp [activeOf] at hs'
  have hselect : (r.amend t.id fun s =>
        { s with status := .ended, active := false }).sessions.select (·.liveOf userId platform) =
      r.sessions.select fun s => s.liveOf userId platform && s.id ≠ t.id := by
    rw [amend, Table.modify,
      Table.select_updateWhere_of_false fun s _ => by simp [liveOf, live]]
    simp only [Keyed.key, decide_not]
  have hrest := reconciled_of_reconcile hserved.sound now t.chatId hidle fun hidle m hm => by
    refine hhands t h ?_ m (hselect ▸ hm)
    cases ha : t.active with
    | true => exact .inl rfl
    | false =>
      refine .inr fun s hs => ?_
      by_cases hid : s.id = t.id
      · rw [Table.eq_of_key_eq hs ht hid]
        simp [activeOf, ha]
      · exact hidle s ((hreplaced.mem s).2 (.inl ⟨hs, hid⟩))
  refine ⟨hserved.trans hrest.served, hrest.active, hrest.main, fun s hs hfresh => ?_⟩
  refine hrest.only s hs fun x hx => ?_
  rcases (hreplaced.mem x).1 hx with ⟨hold, -⟩ | rfl
  · exact hfresh x hold
  · exact hfresh t ht

end SpinSessionRegistry

/-! ## Runs -/

namespace SessionCall

def terminates : SessionCall → Bool
  | .endSession _ | .kill _ => true
  | _ => false

def createsMain : SessionCall → Bool
  | .getOrCreateActive _ | .endSession _ | .kill _ => true
  | _ => false

def limited : SessionCall → Bool
  | .create .. | .createSub .. | .createHollow .. => true
  | _ => false

end SessionCall

def SessionOp.concerns : SessionOp → RegisteredSession → Bool
  | .on _ userId platform _, s => s.isOf userId platform
  | .remove sessionId, s => s.id = sessionId
  | .pruneEnded _ _, s => s.status = .ended

open SpinSessionRegistry

/-- The laws of a call for a pair, and what it leaves.  That ids are distinct is part of a map. -/
structure CallLaws (userId platform : String) (now : Nat) (c : SessionCall)
    (r r' : SpinSessionRegistry) : Prop where
  terminated : c.terminates = true → (r.call userId platform now c).isOk = true →
    (∃! s, s ∈ r'.sessions ∧ s.activeOf userId platform = true) ∧
      ∃ s ∈ r'.sessions, s.liveOf userId platform = true ∧ s.isMain = true
  onlyMain : c.createsMain = true → ∀ s ∈ r'.sessions, (∀ t ∈ r.sessions, t.id ≠ s.id) →
    ∀ t ∈ r'.sessions, t.liveOf userId platform = true → t.isMain = true → t = s
  limited : c.limited = true → r'.alive.length ≤ max r.alive.length r.maxTotalSessions

structure RegistryLaws (r : SpinSessionRegistry) (op : SessionOp) : Prop where
  sound : (registryStep r op).Sound
  frame : ∀ s, op.concerns s = false → (s ∈ (registryStep r op).sessions ↔ s ∈ r.sessions)
  call : ∀ now userId platform c, op = .on now userId platform c →
    CallLaws userId platform now c r (registryStep r op)

/-- A call that makes no hollow session active, and creates no Main where one is live but not
active. -/
def Regular (r : SpinSessionRegistry) : SessionOp → Prop
  | .on _ userId platform c =>
    match c with
    | .getOrCreateActive _ => r.getActiveSession userId platform = none →
      ∀ s ∈ r.sessions, s.liveOf userId platform = true → s.isMain = false
    | .switch index => ∀ t ∈ r.findAddressableSession userId platform index, t.isHollow = false
    | .endSession index => ∀ i ∈ r.targetIndex userId platform index,
      r.HandsOver userId platform i
    | .kill index => r.HandsOver userId platform index
    | _ => True
  | _ => True

theorem alive_put_le (r : SpinSessionRegistry) (n : RegisteredSession) :
    ((r.sessions.put n).select (·.live)).length ≤ r.alive.length + 1 := by
  have hrest : (r.sessions.rows.filter fun s => !decide (Keyed.key s = Keyed.key n)).filter
      (·.live) |>.Sublist (r.sessions.rows.filter (·.live)) :=
    List.Sublist.filter _ List.filter_sublist
  simp only [Table.select, Table.put, Table.deleteWhere, List.filter_append, List.length_append]
  exact Nat.add_le_add hrest.length_le (List.length_filter_le _ _)

theorem onIndex_ok {index : Nat} {act : RegisteredSession → Except SessionRejection _}
    (h : onIndex userId platform index act r = .ok r') :
    ∃ t, r.findAddressableSession userId platform index = some t ∧ act t = .ok r' := by
  unfold onIndex at h
  split at h
  · cases h
  · exact ⟨_, ‹_›, h⟩

theorem onTarget_ok {index : Option Nat} {act : Nat → RegisteredSession → Except SessionRejection _}
    (h : onTarget userId platform index act r = .ok r') :
    ∃ i t, r.targetIndex userId platform index = some i ∧
      r.findAddressableSession userId platform i = some t ∧ act i t = .ok r' := by
  unfold onTarget at h
  split at h
  · cases h
  · obtain ⟨t, ht, hact⟩ := onIndex_ok h
    exact ⟨_, t, ‹_›, ht, hact⟩

theorem callLaws_of_reconciled {now : Nat} {c : SessionCall} (hc : c.limited = false)
    (h : Reconciled userId platform r r') : CallLaws userId platform now c r r' where
  terminated := fun _ _ => by
    obtain ⟨s, hs, hactive⟩ := h.active
    exact ⟨⟨s, ⟨hs, hactive⟩, fun t ht =>
      h.served.sound.oneActive userId platform t ht.1 s hs ht.2 hactive⟩, h.main⟩
  onlyMain := fun _ => h.only
  limited := fun hlimited => by simp [hc] at hlimited

/-- **A regular call is lawful**, by cases on the call. -/
theorem call_lawful (hr : r.Sound) {now : Nat} {c : SessionCall}
    (hregular : Regular r (.on now userId platform c)) (h : r.call userId platform now c = .ok r') :
    Served userId platform r r' ∧ CallLaws userId platform now c r r' := by
  have hplain : ∀ {c : SessionCall}, c.terminates = false → c.createsMain = false →
      (c.limited = true → r'.alive.length ≤ r.alive.length + 1 ∧
        r.alive.length < r.maxTotalSessions) → CallLaws userId platform now c r r' :=
    fun ht hm hl => ⟨fun h => by simp [ht] at h, fun h => by simp [hm] at h, fun h => by
      have := hl h
      omega⟩
  cases c with
  | getOrCreateActive chatId =>
    simp only [call] at h
    split at h
    · cases h
      exact ⟨.refl hr, nofun, fun _ s hs hfresh => absurd rfl (hfresh s hs), nofun⟩
    rename_i hnone
    cases h
    have hidle := idle_of_getActiveSession hnone
    have hreplaced := replaced_allocate userId platform hr now .A chatId true none
    refine ⟨served_allocate hr now .A chatId _ none fun _ => hidle, nofun,
      fun _ s hs hfresh t ht hlive hmain => ?_, nofun⟩
    rcases (hreplaced.mem s).1 hs with ⟨hold, -⟩ | rfl
    · exact absurd rfl (hfresh s hold)
    rcases (hreplaced.mem t).1 ht with ⟨hold, -⟩ | rfl
    · simp [hregular hnone t hold hlive] at hmain
    · rfl
  | allocate type chatId motherId =>
    cases h
    exact ⟨served_allocate hr now type chatId _ motherId nofun, hplain rfl rfl nofun⟩
  | create type chatId =>
    simp only [call] at h
    split at h
    · cases h
    cases h
    obtain ⟨hidle, hnone, -, halive⟩ := deactivate_spec userId platform hr none
    refine ⟨hidle.trans (served_allocate hidle.sound now type chatId _ none fun _ s hs => ?_),
      hplain rfl rfl fun _ => ⟨(alive_put_le _ _).trans (Nat.succ_le_succ halive), by omega⟩⟩
    by_contra hne
    cases hnone s hs (by simpa using hne)
  | createSub type chatId =>
    simp only [call] at h
    split at h
    · cases h
    · cases h
      exact ⟨served_allocate hr now type chatId _ _ nofun,
        hplain rfl rfl fun _ => ⟨alive_put_le _ _, by omega⟩⟩
  | createHollow type chatId peer remoteSessionId =>
    simp only [call] at h
    split at h
    · cases h
    cases h
    have hreplaced := replaced_allocate userId platform hr now type chatId false none
    have hserved := hr.served hreplaced nofun fun _ => rfl
    refine ⟨hserved.trans (hserved.sound.served (replaced_amend _ _ hserved.sound
        ((hreplaced.mem _).2 (.inr rfl)) hreplaced.isOf rfl hreplaced.isOf) nofun fun _ => rfl),
      hplain rfl rfl fun _ => ⟨(Table.length_select_updateWhere_le (q := RegisteredSession.live)
        (fun s => { s with peer := some peer, remoteSessionId := some remoteSessionId })
        (fun _ => rfl) fun _ _ h => h).trans (alive_put_le _ _), by omega⟩⟩
  | switch index =>
    obtain ⟨t, ht, hact⟩ := onIndex_ok h
    cases hact
    obtain ⟨hmem, hlive⟩ := findAddressableSession_some ht
    obtain ⟨hidle, hspared, hkept, -⟩ := deactivate_spec userId platform hr (some t.id)
    exact ⟨hidle.trans (served_activate hidle.sound (hkept t hmem rfl) (isOf_of_liveOf hlive).1
      (hregular t ht) fun s hs hs' => Option.some.inj (hspared s hs hs')), hplain rfl rfl nofun⟩
  | endSession index =>
    obtain ⟨i, t, hi, ht, hact⟩ := onTarget_ok h
    cases hact
    have hdone := reconciled_terminate hr now ht (hregular i hi)
    exact ⟨hdone.served, callLaws_of_reconciled rfl hdone⟩
  | kill index =>
    obtain ⟨t, ht, hact⟩ := onIndex_ok h
    cases hact
    have hdone := reconciled_terminate hr now ht hregular
    exact ⟨hdone.served, callLaws_of_reconciled rfl hdone⟩
  | pause index =>
    obtain ⟨i, t, -, ht, hact⟩ := onTarget_ok h
    obtain ⟨hmem, hlive⟩ := findAddressableSession_some ht
    split at hact <;> cases hact
    exact ⟨served_setStatus hr hmem hlive .paused, hplain rfl rfl nofun⟩
  | resume index =>
    obtain ⟨i, t, -, ht, hact⟩ := onTarget_ok h
    obtain ⟨hmem, hlive⟩ := findAddressableSession_some ht
    split at hact <;> cases hact
    exact ⟨served_setStatus hr hmem hlive .ready, hplain rfl rfl nofun⟩

theorem SpinSessionRegistry.Sound.deleteWhere (hr : r.Sound) (p : RegisteredSession → Bool) :
    Sound { r with sessions := r.sessions.deleteWhere p } where
  indexed := fun s hs => hr.indexed s (Table.mem_deleteWhere.1 hs).1
  distinct := fun s hs t ht =>
    hr.distinct s (Table.mem_deleteWhere.1 hs).1 t (Table.mem_deleteWhere.1 ht).1
  oneActive := fun u p s hs t ht =>
    hr.oneActive u p s (Table.mem_deleteWhere.1 hs).1 t (Table.mem_deleteWhere.1 ht).1
  hollow := fun s hs => hr.hollow s (Table.mem_deleteWhere.1 hs).1

theorem registryStep_lawful (hr : r.Sound) (op : SessionOp) (hregular : Regular r op) :
    RegistryLaws r op := by
  cases op with
  | on now u p c =>
    cases hcall : r.call u p now c with
    | error rejection =>
      have hstep : registryStep r (.on now u p c) = r := by simp [registryStep, hcall]
      refine ⟨by rw [hstep]; exact hr, fun s _ => by rw [hstep], ?_⟩
      rintro _ _ _ _ ⟨⟩
      rw [hstep]
      exact ⟨fun _ hok => by simp [hcall, Except.isOk, Except.toBool] at hok,
        fun _ s hs hfresh => absurd rfl (hfresh s hs), fun _ => Nat.le_max_left _ _⟩
    | ok r' =>
      have hstep : registryStep r (.on now u p c) = r' := by simp [registryStep, hcall]
      obtain ⟨hserved, hlaws⟩ := call_lawful hr hregular hcall
      refine ⟨hstep ▸ hserved.sound, fun s hs => by rw [hstep]; exact hserved.other s hs, ?_⟩
      rintro _ _ _ _ ⟨⟩
      exact hstep ▸ hlaws
  | remove id =>
    refine ⟨hr.deleteWhere _, fun s hs => ?_, fun _ _ _ _ h => by cases h⟩
    simp only [registryStep, Table.mem_deleteWhere]
    exact and_iff_left hs
  | pruneEnded now maxAgeMs =>
    refine ⟨hr.deleteWhere _, fun s hs => ?_, fun _ _ _ _ h => by cases h⟩
    simp only [registryStep, Table.mem_deleteWhere]
    exact and_iff_left (Bool.and_eq_false_iff.2 (.inl hs))

theorem sound_empty (maxTotalSessions : Nat) : (SpinSessionRegistry.empty maxTotalSessions).Sound :=
  ⟨by simp [SpinSessionRegistry.empty], by simp [SpinSessionRegistry.empty],
    by simp [SpinSessionRegistry.empty], by simp [SpinSessionRegistry.empty]⟩

/-- **In a run of regular calls, every call is lawful.** -/
theorem registry_lawful (maxTotalSessions : Nat) (ops : List SessionOp)
    (hregular : StepsMeet registryStep Regular (.empty maxTotalSessions) ops) :
    StepsMeet registryStep RegistryLaws (.empty maxTotalSessions) ops :=
  stepsMeet_of_kept (I := Sound) (fun _ op hr hop => (registryStep_lawful hr op hop).sound)
    (fun _ op hr hop => registryStep_lawful hr op hop) ops _ (sound_empty maxTotalSessions) hregular

theorem registry_lawful_create :
    StepsMeet registryStep RegistryLaws (.empty 8)
      [.on 0 "u" "p" (.getOrCreateActive 0), .on 0 "u" "p" (.create .B 0)] :=
  registry_lawful 8 _ ⟨fun _ s hs => absurd hs (Table.not_mem_empty s), trivial, trivial⟩

/-- A switch to a hollow session makes it active; and a Main is created beside one that is live,
after the active session was removed. -/
theorem hollow_made_active :
    ¬ StepsMeet registryStep RegistryLaws (.empty 8)
      [.on 0 "u" "p" (.getOrCreateActive 0), .on 0 "u" "p" (.createHollow .B 0 "peer" "7"),
        .on 0 "u" "p" (.switch 2)] ∧
    ¬ StepsMeet registryStep RegistryLaws (.empty 8)
      [.on 0 "u" "p" (.getOrCreateActive 0), .on 0 "u" "p" (.create .B 0), .remove "0_B_02",
        .on 0 "u" "p" (.getOrCreateActive 0)] := by
  constructor
  · rintro ⟨-, -, hswitch, -⟩
    revert hswitch
    refine fun hswitch => absurd hswitch.sound.hollow (?_ : ¬ ∀ s ∈ Table.rows _, _)
    decide +kernel
  rintro ⟨-, -, -, hcreate, -⟩
  refine absurd ((hcreate.call _ _ _ _ rfl).onlyMain rfl)
    (?_ : ¬ ∀ s ∈ Table.rows _, (∀ t ∈ Table.rows _, _) → ∀ t ∈ Table.rows _, _)
  decide +kernel

end Abtars
