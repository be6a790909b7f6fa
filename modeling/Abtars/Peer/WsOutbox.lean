import Abtars.Lib.Run
import Mathlib.Data.List.Nodup
import Mathlib.Data.List.ReduceOption

/-!
# The durable outbox of socket requests

`WsOutboxStore`: entries in memory and a checkpoint file that holds a whole snapshot of them.
What a checkpoint writes is in place or it is not; which, is an input of the call.  The length of
a JSON text is a parameter, and so are the ids that `randomUUID` draws.
-/

namespace Abtars

open Lib

variable {α : Type}

structure WsOutboxEntry (α : Type) where
  id : String
  method : String
  payload : α
  createdAt : String
  attempts : Nat

/-- A parsed checkpoint, as far as it has the fields: no version, no peer, entries that are no
array, and elements that are null. -/
structure WsOutboxFile (α : Type) where
  version : Option Int
  peer : Option String
  entries : Option (List (Option (WsOutboxEntry α)))

inductive WsOutboxContents (α : Type)
  | unreadable
  | notJson
  | null
  | json (file : WsOutboxFile α)

/-- `OutboxStoreDeps`, and how long the JSON texts of an entry and of a file are.  An entry that
`JSON.stringify` throws at has no length. -/
structure WsOutboxDeps (α : Type) where
  peerName : String
  maxEntries : Nat
  maxEntryBytes : Nat
  maxFileBytes : Nat
  entryBytes : WsOutboxEntry α → Option Nat
  fileBytes : List (WsOutboxEntry α) → Nat

structure WsOutbox (α : Type) where
  file : Option (WsOutboxContents α)
  entries : List (WsOutboxEntry α)
  degraded : Bool

def supportedMethods : List String :=
  ["help.request.v1", "help.status.v1", "help.withdraw.v1", "help.event.v1", "channel"]

namespace WsOutbox

variable {renamed : Bool}

/-- `quarantine`; the corrupt file is moved away if its rename works. -/
def quarantine (s : WsOutbox α) (renamed : Bool) : WsOutbox α where
  file := if renamed then none else s.file
  entries := []
  degraded := true

/-- The loop of `load` over the entries of a file: are they all in order?  An element that is null
throws. -/
def checkEntries (deps : WsOutboxDeps α) :
    (entries : List (Option (WsOutboxEntry α))) → (seen : List String) → Option Bool
  | [], _ => some true
  | none :: _, _ => none
  | some e :: rest, seen =>
    if e.id = "" ∨ e.method = "" ∨ e.createdAt = "" then some false
    else if e.method ∉ supportedMethods then some false
    else if e.id ∈ seen then some false
    else
      match deps.entryBytes e with
      | none => none
      | some bytes =>
        if deps.maxEntryBytes < bytes then some false
        else checkEntries deps rest (e.id :: seen)

def load (deps : WsOutboxDeps α) (file : Option (WsOutboxContents α)) (renamed : Bool) :
    Option (WsOutbox α) :=
  let s : WsOutbox α := ⟨file, [], false⟩
  match file with
  | none => some s
  | some .unreadable => some (s.quarantine renamed)
  | some .notJson => some (s.quarantine renamed)
  | some .null => none
  | some (.json parsed) =>
    if parsed.version ≠ some 1 then some (s.quarantine renamed)
    else if parsed.peer ≠ some deps.peerName then some (s.quarantine renamed)
    else
      match parsed.entries with
      | none => some (s.quarantine renamed)
      | some entries =>
        match checkEntries deps entries [] with
        | none => none
        | some false => some (s.quarantine renamed)
        | some true => some { s with entries := entries.reduceOption.take deps.maxEntries }

def toFileV1 (deps : WsOutboxDeps α) (entries : List (WsOutboxEntry α)) : WsOutboxFile α :=
  ⟨some 1, some deps.peerName, some (entries.map some)⟩

/-- `checkpoint`; none is a write that throws, before the rename that puts it in place. -/
def checkpoint (deps : WsOutboxDeps α) (s : WsOutbox α) (written : Bool) : Option (WsOutbox α) :=
  if written then some { s with file := some (.json (toFileV1 deps s.entries)) } else none

def append (deps : WsOutboxDeps α) (s : WsOutbox α) (method : String) (payload : α)
    (id createdAt : String) (written : Bool) : WsOutbox α × Except String (WsOutboxEntry α) :=
  if deps.maxEntries ≤ s.entries.length then
    (s, .error ("Outbox full (max " ++ toString deps.maxEntries ++ " entries)"))
  else if method ∉ supportedMethods then (s, .error ("Unsupported WSS method: " ++ method))
  else
    let entry : WsOutboxEntry α := ⟨id, method, payload, createdAt, 0⟩
    match deps.entryBytes entry with
    | none => (s, .error "JSON.stringify")
    | some bytes =>
      if deps.maxEntryBytes < bytes then
        (s, .error ("Entry exceeds " ++ toString deps.maxEntryBytes ++ " byte limit (" ++
          toString bytes ++ ")"))
      else if deps.maxFileBytes < deps.fileBytes (s.entries ++ [entry]) then
        (s, .error ("Outbox file would exceed " ++ toString deps.maxFileBytes ++ " byte limit"))
      else
        -- the entry is in memory before it is written
        let s := { s with entries := s.entries ++ [entry] }
        match checkpoint deps s written with
        | none => (s, .error "checkpoint")
        | some s => (s, .ok entry)

def acknowledge (deps : WsOutboxDeps α) (s : WsOutbox α) (id : String) (written : Bool) :
    WsOutbox α × Bool :=
  if s.entries.any (·.id = id) then
    let s := { s with entries := s.entries.eraseP (·.id = id) }
    match checkpoint deps s written with
    | none => ({ s with degraded := true }, true)
    | some s => (s, true)
  else (s, false)

/-! ## Loading what was written -/

structure Valid (deps : WsOutboxDeps α) (entries : List (WsOutboxEntry α)) : Prop where
  shape : ∀ e ∈ entries, e.id ≠ "" ∧ e.method ∈ supportedMethods ∧ e.createdAt ≠ "" ∧
    ∃ bytes, deps.entryBytes e = some bytes ∧ bytes ≤ deps.maxEntryBytes
  once : (entries.map WsOutboxEntry.id).Nodup
  few : entries.length ≤ deps.maxEntries

theorem ne_empty_of_supported {method : String} (h : method ∈ supportedMethods) : method ≠ "" := by
  rintro rfl
  revert h
  decide

variable {deps : WsOutboxDeps α}

theorem Valid.sublist {entries entries' : List (WsOutboxEntry α)} (h : Valid deps entries)
    (hsub : entries'.Sublist entries) : Valid deps entries' where
  shape := fun e he => h.shape e (hsub.subset he)
  once := h.once.sublist (hsub.map _)
  few := Nat.le_trans hsub.length_le h.few

theorem checkEntries_valid {entries : List (WsOutboxEntry α)} :
    ∀ seen, (∀ e ∈ entries, e.id ≠ "" ∧ e.method ∈ supportedMethods ∧ e.createdAt ≠ "" ∧
        ∃ bytes, deps.entryBytes e = some bytes ∧ bytes ≤ deps.maxEntryBytes) →
      (entries.map WsOutboxEntry.id).Nodup → (∀ e ∈ entries, e.id ∉ seen) →
      checkEntries deps (entries.map some) seen = some true := by
  induction entries with
  | nil => simp [checkEntries]
  | cons e entries ih =>
    intro seen hshape honce hseen
    obtain ⟨hid, hmethod, hcreated, bytes, hbytes, hfits⟩ := hshape e List.mem_cons_self
    have honce' := List.nodup_cons.1 honce
    have hnonempty : ¬ (e.id = "" ∨ e.method = "" ∨ e.createdAt = "") := by
      rintro (h | h | h)
      · exact hid h
      · exact ne_empty_of_supported hmethod h
      · exact hcreated h
    rw [List.map_cons, checkEntries, if_neg hnonempty, if_neg (not_not.2 hmethod),
      if_neg (hseen e List.mem_cons_self), hbytes]
    dsimp only
    rw [if_neg (by omega)]
    refine ih _ (fun e' he' => hshape e' (List.mem_cons_of_mem _ he')) honce'.2 fun e' he' => ?_
    intro hmem
    rcases List.mem_cons.1 hmem with hsame | hold
    · exact honce'.1 (hsame ▸ List.mem_map_of_mem he')
    · exact hseen e' (List.mem_cons_of_mem _ he') hold

theorem valid_of_checkEntries {entries : List (Option (WsOutboxEntry α))} :
    ∀ seen, checkEntries deps entries seen = some true →
      (∀ e ∈ entries.reduceOption, e.id ≠ "" ∧ e.method ∈ supportedMethods ∧ e.createdAt ≠ "" ∧
          ∃ bytes, deps.entryBytes e = some bytes ∧ bytes ≤ deps.maxEntryBytes) ∧
        (entries.reduceOption.map WsOutboxEntry.id).Nodup ∧
        ∀ e ∈ entries.reduceOption, e.id ∉ seen := by
  induction entries with
  | nil => simp
  | cons first entries ih =>
    intro seen h
    cases first with
    | none =>
      cases h
    | some e =>
      rw [checkEntries] at h
      split at h
      · cases h
      rename_i hnonempty
      split at h
      · cases h
      rename_i hmethod
      split at h
      · cases h
      rename_i hseen
      split at h
      · cases h
      rename_i bytes hbytes
      split at h
      · cases h
      obtain ⟨hshape, honce, hfresh⟩ := ih _ h
      refine ⟨fun e' he' => ?_, List.nodup_cons.2 ⟨fun hmem => ?_, honce⟩, fun e' he' => ?_⟩
      · rcases List.mem_cons.1 he' with rfl | he'
        · exact ⟨fun hid => hnonempty (.inl hid), not_not.1 hmethod,
            fun hcreated => hnonempty (.inr (.inr hcreated)), bytes, hbytes, by omega⟩
        · exact hshape e' he'
      · obtain ⟨e', he', hsame⟩ := List.mem_map.1 hmem
        exact hfresh e' he' (hsame ▸ List.mem_cons_self)
      · rcases List.mem_cons.1 he' with rfl | he'
        · exact hseen
        · exact fun hmem => hfresh e' he' (List.mem_cons_of_mem _ hmem)

/-- **A checkpoint of valid entries is loaded as these entries.** -/
theorem load_checkpoint {entries : List (WsOutboxEntry α)} (h : Valid deps entries)
    (renamed : Bool) :
    load deps (some (.json (toFileV1 deps entries))) renamed =
      some ⟨some (.json (toFileV1 deps entries)), entries, false⟩ := by
  have hcheck := checkEntries_valid [] h.shape h.once fun e _ => List.not_mem_nil
  have hall : (entries.map some).reduceOption = entries :=
    List.filterMap_map.trans List.filterMap_some
  rw [load, toFileV1]
  dsimp only
  rw [if_neg (by simp), if_neg (by simp), hcheck]
  rw [hall, List.take_of_length_le h.few]

theorem valid_nil (deps : WsOutboxDeps α) : Valid deps [] :=
  ⟨by simp, List.nodup_nil, Nat.zero_le _⟩

theorem load_cases (deps : WsOutboxDeps α) (file : Option (WsOutboxContents α)) :
    (∀ renamed, load deps file renamed = none) ∨
    (∀ renamed, load deps file renamed = some (quarantine ⟨file, [], false⟩ renamed)) ∨
    ∃ entries, Valid deps entries ∧
      ∀ renamed, load deps file renamed = some ⟨file, entries, false⟩ := by
  rcases file with _ | contents
  · exact .inr (.inr ⟨[], valid_nil deps, fun _ => rfl⟩)
  cases contents with
  | unreadable => exact .inr (.inl fun _ => rfl)
  | notJson => exact .inr (.inl fun _ => rfl)
  | null => exact .inl fun _ => rfl
  | json parsed =>
    by_cases hversion : parsed.version ≠ some 1
    · exact .inr (.inl fun _ => if_pos hversion)
    by_cases hpeer : parsed.peer ≠ some deps.peerName
    · exact .inr (.inl fun _ => (if_neg hversion).trans (if_pos hpeer))
    simp only [load, if_neg hversion, if_neg hpeer]
    cases hentries : parsed.entries with
    | none => exact .inr (.inl fun _ => rfl)
    | some entries =>
      dsimp only
      rcases hcheck : checkEntries deps entries [] with _ | _ | _
      · exact .inl fun _ => rfl
      · exact .inr (.inl fun _ => rfl)
      obtain ⟨hshape, honce, -⟩ := valid_of_checkEntries [] hcheck
      have hsub := List.take_sublist deps.maxEntries entries.reduceOption
      refine .inr (.inr ⟨_, ⟨fun e he => hshape e (hsub.subset he),
        honce.sublist (hsub.map _), ?_⟩, fun _ => rfl⟩)
      rw [List.length_take]
      exact Nat.min_le_left _ _

theorem valid_of_load {file : Option (WsOutboxContents α)} {s : WsOutbox α}
    (h : load deps file renamed = some s) : Valid deps s.entries := by
  rcases load_cases deps file with hthrown | hcorrupt | ⟨entries, hvalid, hload⟩
  · rw [hthrown] at h
    cases h
  · rw [hcorrupt] at h
    cases h
    exact valid_nil deps
  · rw [hload] at h
    cases h
    exact hvalid

def Loads (deps : WsOutboxDeps α) (file : Option (WsOutboxContents α))
    (entries : List (WsOutboxEntry α)) : Prop :=
  ∀ renamed, ∃ s, load deps file renamed = some s ∧ s.entries = entries

theorem loads_of_load {file : Option (WsOutboxContents α)} {s : WsOutbox α}
    (h : load deps file renamed = some s) : Loads deps s.file s.entries := by
  rcases load_cases deps file with hthrown | hcorrupt | ⟨entries, -, hload⟩
  · rw [hthrown] at h
    cases h
  · rw [hcorrupt] at h
    cases h
    -- the file is gone, or still there and found corrupt again
    intro renamed'
    cases renamed with
    | true => exact ⟨_, rfl, rfl⟩
    | false => exact ⟨_, hcorrupt renamed', rfl⟩
  · rw [hload] at h
    cases h
    exact fun renamed' => ⟨_, hload renamed', rfl⟩

theorem loads_checkpoint {entries : List (WsOutboxEntry α)} (h : Valid deps entries) :
    Loads deps (some (.json (toFileV1 deps entries))) entries :=
  fun renamed => ⟨_, load_checkpoint h renamed, rfl⟩

/-! ## What the calls do -/

theorem append_cases (deps : WsOutboxDeps α) (s : WsOutbox α) (method : String) (payload : α)
    (id createdAt : String) :
    (∃ message, append deps s method payload id createdAt true = (s, .error message)) ∨
      (s.entries.length < deps.maxEntries ∧ method ∈ supportedMethods ∧
        (∃ bytes, deps.entryBytes ⟨id, method, payload, createdAt, 0⟩ = some bytes ∧
          bytes ≤ deps.maxEntryBytes) ∧
        append deps s method payload id createdAt true =
          ({ s with
              file := some (.json (toFileV1 deps (s.entries ++
                [⟨id, method, payload, createdAt, 0⟩])))
              entries := s.entries ++ [⟨id, method, payload, createdAt, 0⟩] },
            .ok ⟨id, method, payload, createdAt, 0⟩)) := by
  rw [append]
  split
  · exact .inl ⟨_, rfl⟩
  split
  · exact .inl ⟨_, rfl⟩
  rename_i hmethod
  dsimp only
  cases hbytes : deps.entryBytes ⟨id, method, payload, createdAt, 0⟩ with
  | none => exact .inl ⟨_, rfl⟩
  | some bytes =>
    dsimp only
    split
    · exact .inl ⟨_, rfl⟩
    split
    · exact .inl ⟨_, rfl⟩
    · exact .inr ⟨by omega, not_not.1 hmethod, ⟨bytes, rfl, by omega⟩, rfl⟩

/-! ## Runs -/

/-- A call, with what it draws and whether its checkpoint is written; a load is the constructor of
a new store on the file. -/
inductive Call (α : Type)
  | append (method : String) (payload : α) (id createdAt : String) (written : Bool)
  | acknowledge (id : String) (written : Bool)
  | load (renamed : Bool)

/-- A load that throws leaves no store; there is none on a file that a store has written. -/
def step (deps : WsOutboxDeps α) (s : WsOutbox α) : Call α → WsOutbox α
  | .append method payload id createdAt written =>
    (append deps s method payload id createdAt written).1
  | .acknowledge id written => (acknowledge deps s id written).1
  | .load renamed => (load deps s.file renamed).getD s

def Meets (s : WsOutbox α) : Call α → Prop
  | .append _ _ id createdAt written =>
    (id ≠ "" ∧ id ∉ s.entries.map WsOutboxEntry.id ∧ createdAt ≠ "") ∧ written = true
  | _ => True

instance (s : WsOutbox α) : ∀ call, Decidable (Meets s call)
  | .append _ _ _ _ _ => inferInstanceAs (Decidable (_ ∧ _))
  | .acknowledge _ _ => inferInstanceAs (Decidable True)
  | .load _ => inferInstanceAs (Decidable True)

/-- A call that fails is atomic: an append that throws changes nothing; an acknowledgement that is
not written is marked, and its entry is still delivered after a reload. -/
def Atomic (deps : WsOutboxDeps α) (s : WsOutbox α) : Call α → Prop
  | .append method payload id createdAt written =>
    ∀ message, (append deps s method payload id createdAt written).2 = .error message →
      (append deps s method payload id createdAt written).1 = s
  | .acknowledge id written =>
    written = false → ∀ e ∈ s.entries, e.id = id →
      (acknowledge deps s id written).1.degraded = true ∧
        ∀ renamed, ∃ s', load deps (acknowledge deps s id written).1.file renamed = some s' ∧
          e ∈ s'.entries
  | .load _ => True

def Succeeds (deps : WsOutboxDeps α) (s : WsOutbox α) : Call α → Prop
  | .append method payload id createdAt written =>
    ∃ e, (append deps s method payload id createdAt written).2 = .ok e
  | .acknowledge _ written => written = true
  | .load renamed => (load deps s.file renamed).isSome = true

def pendingAfter (pending : List (WsOutboxEntry α)) : Call α → List (WsOutboxEntry α)
  | .append method payload id createdAt _ => pending ++ [⟨id, method, payload, createdAt, 0⟩]
  | .acknowledge id _ => pending.eraseP (·.id = id)
  | .load _ => pending

def Backed (deps : WsOutboxDeps α) (s : WsOutbox α) : Prop :=
  Valid deps s.entries ∧ ∃ entries, Loads deps s.file entries ∧ s.entries.Sublist entries

theorem backed_of_load {file : Option (WsOutboxContents α)} {s : WsOutbox α}
    (h : load deps file renamed = some s) : Backed deps s :=
  ⟨valid_of_load h, s.entries, loads_of_load h, List.Sublist.refl _⟩

theorem valid_append {s : WsOutbox α} (h : Valid deps s.entries) {e : WsOutboxEntry α}
    (hid : e.id ≠ "") (hfresh : e.id ∉ s.entries.map WsOutboxEntry.id) (hcreated : e.createdAt ≠ "")
    (hroom : s.entries.length < deps.maxEntries) (hmethod : e.method ∈ supportedMethods)
    (hbytes : ∃ bytes, deps.entryBytes e = some bytes ∧ bytes ≤ deps.maxEntryBytes) :
    Valid deps (s.entries ++ [e]) where
  shape := by
    intro e' he'
    rcases List.mem_append.1 he' with hold | hnew
    · exact h.shape e' hold
    · rw [List.mem_singleton.1 hnew]
      exact ⟨hid, hmethod, hcreated, hbytes⟩
  once := by
    rw [List.map_append, List.nodup_append]
    refine ⟨h.once, List.nodup_singleton _, fun i hi j hj heq => hfresh ?_⟩
    rw [List.map_singleton, List.mem_singleton] at hj
    rwa [← hj, ← heq]
  few := by
    rw [List.length_append, List.length_singleton]
    omega

theorem acknowledge_spec (deps : WsOutboxDeps α) (s : WsOutbox α) (id : String) (written : Bool) :
    (s.entries.any (·.id = id) = false ∧ acknowledge deps s id written = (s, false)) ∨
      (s.entries.any (·.id = id) = true ∧
        acknowledge deps s id written =
          (if written then
            { s with
              file := some (.json (toFileV1 deps (s.entries.eraseP (·.id = id))))
              entries := s.entries.eraseP (·.id = id) }
          else
            { s with entries := s.entries.eraseP (·.id = id), degraded := true }, true)) := by
  rw [acknowledge]
  cases hany : s.entries.any (·.id = id) with
  | false => exact .inl ⟨rfl, rfl⟩
  | true =>
    refine .inr ⟨rfl, ?_⟩
    cases written with
    | true => rfl
    | false => rfl

/-- **One call.**  It keeps memory backed by the file, and is atomic where it fails. -/
theorem backed_step {s : WsOutbox α} {call : Call α} (hs : Backed deps s) (hmeets : Meets s call) :
    Backed deps (step deps s call) ∧ Atomic deps s call := by
  obtain ⟨hvalid, entries, hloads, hsub⟩ := hs
  cases call with
  | load renamed =>
    obtain ⟨s', hload, -⟩ := hloads renamed
    refine ⟨?_, trivial⟩
    rw [step, hload]
    exact backed_of_load hload
  | append method payload id createdAt written =>
    obtain ⟨⟨hid, hfresh, hcreated⟩, rfl⟩ := hmeets
    rw [step, Atomic]
    rcases append_cases deps s method payload id createdAt with
      ⟨message, hrefused⟩ | ⟨hroom, hmethod, hbytes, haccepted⟩
    · rw [hrefused]
      exact ⟨⟨hvalid, entries, hloads, hsub⟩, fun _ _ => rfl⟩
    · have hnew : Valid deps (s.entries ++ [⟨id, method, payload, createdAt, 0⟩]) :=
        valid_append hvalid hid hfresh hcreated hroom hmethod hbytes
      rw [haccepted]
      exact ⟨⟨hnew, _, loads_checkpoint hnew, List.Sublist.refl _⟩, fun message h => by cases h⟩
  | acknowledge id written =>
    have hrest : Valid deps (s.entries.eraseP (·.id = id)) :=
      hvalid.sublist List.eraseP_sublist
    rw [step, Atomic]
    rcases acknowledge_spec deps s id written with ⟨hnone, hack⟩ | ⟨-, hack⟩
    · rw [hack]
      refine ⟨⟨hvalid, entries, hloads, hsub⟩, fun _ e he hid => ?_⟩
      have hany := List.any_eq_false.1 hnone e he
      simp [hid] at hany
    rw [hack]
    cases written with
    | true => exact ⟨⟨hrest, _, loads_checkpoint hrest, List.Sublist.refl _⟩, fun h => by cases h⟩
    | false =>
      refine ⟨⟨hrest, entries, hloads, List.eraseP_sublist.trans hsub⟩, fun _ e he _ => ⟨rfl, ?_⟩⟩
      intro renamed
      obtain ⟨s', hload, hentries⟩ := hloads renamed
      exact ⟨s', hload, hentries ▸ hsub.subset he⟩

/-- One call that succeeds leaves in memory, and for a load, what is pending. -/
theorem pending_step {s : WsOutbox α} {call : Call α} (hvalid : Valid deps s.entries)
    (hloads : Loads deps s.file s.entries) (hmeets : Meets s call)
    (hsucceeds : Succeeds deps s call) :
    (step deps s call).entries = pendingAfter s.entries call ∧
      Valid deps (step deps s call).entries ∧
      Loads deps (step deps s call).file (step deps s call).entries := by
  cases call with
  | load renamed =>
    obtain ⟨s', hload, hentries⟩ := hloads renamed
    rw [step, hload]
    exact ⟨hentries, valid_of_load hload, loads_of_load hload⟩
  | append method payload id createdAt written =>
    obtain ⟨⟨hid, hfresh, hcreated⟩, rfl⟩ := hmeets
    obtain ⟨e, he⟩ := hsucceeds
    rw [step]
    rcases append_cases deps s method payload id createdAt with
      ⟨message, hrefused⟩ | ⟨hroom, hmethod, hbytes, haccepted⟩
    · rw [hrefused] at he
      cases he
    · have hnew : Valid deps (s.entries ++ [⟨id, method, payload, createdAt, 0⟩]) :=
        valid_append hvalid hid hfresh hcreated hroom hmethod hbytes
      rw [haccepted]
      exact ⟨rfl, hnew, loads_checkpoint hnew⟩
  | acknowledge id written =>
    have hwritten : written = true := hsucceeds
    subst hwritten
    have hrest : Valid deps (s.entries.eraseP (·.id = id)) :=
      hvalid.sublist List.eraseP_sublist
    rw [step, pendingAfter]
    rcases acknowledge_spec deps s id true with ⟨hnone, hack⟩ | ⟨-, hack⟩
    · rw [hack]
      have hkept : s.entries.eraseP (·.id = id) = s.entries :=
        List.eraseP_of_forall_not fun e he => List.any_eq_false.1 hnone e he
      exact ⟨hkept.symm, hvalid, hloads⟩
    · rw [hack]
      exact ⟨rfl, hrest, loads_checkpoint hrest⟩

def pending (entries : List (WsOutboxEntry α)) (calls : List (Call α)) : List (WsOutboxEntry α) :=
  calls.foldl pendingAfter entries

theorem pending_run (calls : List (Call α)) :
    ∀ s : WsOutbox α, Valid deps s.entries → Loads deps s.file s.entries →
      StepsMeet (step deps) Meets s calls → StepsMeet (step deps) (Succeeds deps) s calls →
      Loads deps (runFrom (step deps) s calls).file (pending s.entries calls) := by
  induction calls with
  | nil => exact fun s _ hloads _ _ => hloads
  | cons call calls ih =>
    intro s hvalid hloads hmeets hsucceeds
    obtain ⟨hentries, hvalid', hloads'⟩ := pending_step hvalid hloads hmeets.1 hsucceeds.1
    have hrest := ih _ hvalid' hloads' hmeets.2 hsucceeds.2
    rw [hentries] at hrest
    exact hrest

/-- **Failures of the outbox are atomic** while no append loses its checkpoint: in every run of a
store on a file it could load, each call that fails changes nothing that is not marked; and after
a run of calls that all succeed, a load gives what is appended and not acknowledged, in order. -/
theorem outbox_atomic (deps : WsOutboxDeps α) (file : Option (WsOutboxContents α)) (renamed : Bool)
    (s : WsOutbox α) (hload : load deps file renamed = some s) (calls : List (Call α))
    (hmeets : StepsMeet (step deps) Meets s calls) :
    StepsMeet (step deps) (Atomic deps) s calls ∧
      (StepsMeet (step deps) (Succeeds deps) s calls →
        ∀ renamed, ∃ s', load deps (runFrom (step deps) s calls).file renamed = some s' ∧
          s'.entries = pending s.entries calls) :=
  ⟨stepsMeet_of_kept (fun _ _ hs hcall => (backed_step hs hcall).1)
      (fun _ _ hs hcall => (backed_step hs hcall).2) calls s (backed_of_load hload) hmeets,
    pending_run calls s (valid_of_load hload) (loads_of_load hload) hmeets⟩

def smallDeps : WsOutboxDeps Char where
  peerName := "kp"
  maxEntries := 2
  maxEntryBytes := 8
  maxFileBytes := 16
  entryBytes := fun e => some e.id.length
  fileBytes := fun entries => entries.foldl (fun bytes e => bytes + e.id.length) 0

/-- Two appends, an acknowledgement that is not written, a restart, and one that is. -/
def restartCalls : List (Call Char) :=
  [.append "channel" 'a' "e1" "t" true, .append "channel" 'b' "e2" "t" true,
    .acknowledge "e1" false, .load true, .acknowledge "e1" true]

theorem outbox_atomic_restart :
    StepsMeet (step smallDeps) (Atomic smallDeps) ⟨none, [], false⟩ restartCalls ∧
      (StepsMeet (step smallDeps) (Succeeds smallDeps) ⟨none, [], false⟩ restartCalls →
        ∀ renamed, ∃ s', load smallDeps
            (runFrom (step smallDeps) ⟨none, [], false⟩ restartCalls).file renamed = some s' ∧
          s'.entries = pending [] restartCalls) :=
  outbox_atomic smallDeps none true ⟨none, [], false⟩ rfl restartCalls (by decide)

/-- An append whose checkpoint is not written throws, and its entry stays in memory. -/
theorem append_not_atomic :
    ¬ Atomic smallDeps ⟨none, [], false⟩ (.append "channel" 'a' "e1" "t" false) := by
  intro h
  have hsame := h "checkpoint" rfl
  exact absurd (congrArg (fun s => s.entries.length) hsame) (by decide)

end WsOutbox

end Abtars
