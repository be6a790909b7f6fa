import Mathlib.Tactic.TypeStar

/-!
# Transactions

A transaction body reads a state and either returns a value with the state it
wrote or throws.  Returning commits the writes whatever the value says; only a
throw rolls back.  A component that reports failure by a returned value
therefore keeps its writes, and one that reports it by throwing does not.
-/

namespace Lib

/-- The body of a transaction on states `σ`, throwing `ε`. -/
abbrev Body (σ ε α : Type*) := σ → Except ε (α × σ)

variable {σ ε α : Type*}

theorem bind_eq_ok {β : Type*} {x : Except ε α} {f : α → Except ε β} {b : β} :
    x.bind f = .ok b ↔ ∃ a, x = .ok a ∧ f a = .ok b := by
  cases x with
  | error e => simp [Except.bind]
  | ok a => simp [Except.bind]

theorem map_eq_ok {β : Type*} {x : Except ε α} {f : α → β} {b : β} :
    x.map f = .ok b ↔ ∃ a, x = .ok a ∧ f a = b := by
  cases x with
  | error e => simp [Except.map]
  | ok a => simp [Except.map]

section Loops

variable {β : Type*} {f : σ → β → Except ε σ}

theorem foldlM_keeps {P : σ → Prop} {l : List β}
    (hround : ∀ s b s', b ∈ l → P s → f s b = .ok s' → P s') :
    ∀ {s s' : σ}, P s → l.foldlM f s = .ok s' → P s' := by
  induction l with
  | nil =>
    intro s s' hs h
    cases h
    exact hs
  | cons b l ih =>
    intro s s' hs h
    obtain ⟨mid, hmid, hrest⟩ := bind_eq_ok.1 h
    refine ih ?_ (hround s b mid List.mem_cons_self hs hmid) hrest
    intro s b s' hb
    exact hround s b s' (List.mem_cons_of_mem _ hb)

theorem mapM_eq_ok {g : β → Except ε α} {l : List β} :
    ∀ {ys : List α}, l.mapM g = .ok ys ↔ l.map g = ys.map .ok := by
  induction l with
  | nil =>
    intro ys
    cases ys <;> simp [pure, Except.pure]
  | cons b l ih =>
    intro ys
    rw [List.mapM_cons]
    constructor
    · intro h
      obtain ⟨y, hy, h⟩ := bind_eq_ok.1 h
      obtain ⟨rest, hrest, h⟩ := bind_eq_ok.1 h
      cases h
      rw [List.map_cons, List.map_cons, hy, ih.1 hrest]
    intro h
    cases ys with
    | nil => cases h
    | cons y rest =>
      rw [List.map_cons, List.map_cons, List.cons.injEq] at h
      exact bind_eq_ok.2 ⟨y, h.1, bind_eq_ok.2 ⟨rest, ih.2 h.2, rfl⟩⟩

end Loops

variable (body : Body σ ε α)

def transaction (s : σ) : Except ε α × σ :=
  match body s with
  | .ok (a, s') => (.ok a, s')
  | .error e => (.error e, s)

def transactionCatching (recover : ε → α) (s : σ) : α × σ :=
  match body s with
  | .ok r => r
  | .error e => (recover e, s)

theorem transaction_of_ok {body : Body σ ε α} {s s' : σ} {a : α}
    (h : body s = .ok (a, s')) : transaction body s = (.ok a, s') := by
  simp [transaction, h]

theorem transaction_of_error {body : Body σ ε α} {s : σ} {e : ε}
    (h : body s = .error e) : transaction body s = (.error e, s) := by
  simp [transaction, h]

theorem transactionCatching_of_ok {body : Body σ ε α} {recover : ε → α} {s : σ} {r : α × σ}
    (h : body s = .ok r) : transactionCatching body recover s = r := by
  simp [transactionCatching, h]

theorem transactionCatching_of_error {body : Body σ ε α} {recover : ε → α} {s : σ} {e : ε}
    (h : body s = .error e) : transactionCatching body recover s = (recover e, s) := by
  simp [transactionCatching, h]

theorem transactionCatching_cases (recover : ε → α) (s : σ) :
    (∃ r, body s = .ok r ∧ transactionCatching body recover s = r) ∨
      ∃ e, body s = .error e ∧ transactionCatching body recover s = (recover e, s) := by
  cases h : body s with
  | ok r => exact .inl ⟨r, rfl, transactionCatching_of_ok h⟩
  | error e => exact .inr ⟨e, rfl, transactionCatching_of_error h⟩

end Lib
