import Mathlib.Tactic.Common
import SlotStore.Error

/-!
# Running actions step by step

An action on a state gives a result and a state, or an error and a state.  These laws take the first
step of a sequence of actions off, given what that step does, or say what a sequence keeps if each
step keeps it.
-/

namespace SlotStore.Steps

variable {σ α β : Type} {s s' : σ} {act : EStateM Error σ α} {next : α → EStateM Error σ β}

/-- An action that succeeds hands on its result and its state. -/
lemma bind_of_ok {x : α} (h : act s = .ok x s') : (act >>= next) s = next x s' := by
  simp only [bind, EStateM.bind, h]

/-- An action that fails ends what follows. -/
lemma bind_of_error {e : Error} (h : act s = .error e s') : (act >>= next) s = .error e s' := by
  simp only [bind, EStateM.bind, h]

lemma get_bind {next : σ → EStateM Error σ β} : ((get : EStateM Error σ σ) >>= next) s = next s s :=
  rfl

lemma set_bind {next : PUnit → EStateM Error σ β} :
    ((set s' : EStateM Error σ PUnit) >>= next) s = next ⟨⟩ s' := rfl

lemma modify_bind {change : σ → σ} {next : PUnit → EStateM Error σ β} :
    ((modify change : EStateM Error σ PUnit) >>= next) s = next ⟨⟩ (change s) := rfl

lemma tryCatch_of_ok {act : EStateM Error σ α} {handle : Error → EStateM Error σ α} {x : α}
    (h : act s = .ok x s') : (tryCatch act handle) s = .ok x s' := by
  simp only [tryCatch, tryCatchThe, MonadExceptOf.tryCatch, EStateM.tryCatch, h]

/-- What a sequence of two actions that succeeds went through. -/
lemma bind_eq_ok {y : β} (h : (act >>= next) s = .ok y s') :
    ∃ x t, act s = .ok x t ∧ next x t = .ok y s' := by
  simp only [bind, EStateM.bind] at h
  split at h
  · rename_i x t hx
    exact ⟨x, t, hx, h⟩
  · cases h

/-- Where a sequence of two actions that fails went wrong. -/
lemma bind_eq_error {e : Error} (h : (act >>= next) s = .error e s') :
    act s = .error e s' ∨ ∃ x t, act s = .ok x t ∧ next x t = .error e s' := by
  simp only [bind, EStateM.bind] at h
  split at h
  · rename_i x t hx
    exact Or.inr ⟨x, t, hx, h⟩
  · rename_i hx
    cases h
    exact Or.inl hx

/-- What two results, the second of which needs the first, went through. -/
lemma exists_ok_of_bind {result : Except Error α} {next : α → Except Error β} {y : β}
    (h : result >>= next = .ok y) : ∃ x, result = .ok x ∧ next x = .ok y := by
  cases result with
  | error e => cases h
  | ok x => exact ⟨x, rfl, h⟩

/-! ## What an action keeps -/

/-- The state that an action leaves, also when it fails. -/
def final : EStateM.Result Error σ α → σ
  | .ok _ s => s
  | .error _ s => s

lemma final_map (f : α → β) (act : EStateM Error σ α) (s : σ) :
    final ((f <$> act) s) = final (act s) := by
  simp only [Functor.map, EStateM.map]
  cases act s <;> rfl

/-- The error of an action that failed. -/
def failure? : EStateM.Result Error σ α → Option Error
  | .ok _ _ => none
  | .error e _ => some e

/-- An action that fails gives its error and the state it leaves. -/
lemma eq_error_of_failure? {r : EStateM.Result Error σ α} {e : Error} (h : failure? r = some e) :
    r = .error e (final r) := by
  cases r <;> cases h
  rfl

/-- An action that does not fail succeeds, with the state it leaves. -/
lemma eq_ok_of_failure? {r : EStateM.Result Error σ Unit} (h : failure? r = none) :
    r = .ok () (final r) := by
  cases r <;> cases h
  rfl

/-- **An action maintains a property** of the state, whether it succeeds or fails. -/
def Maintains (P : σ → Prop) (act : EStateM Error σ α) : Prop := ∀ s, P s → P (final (act s))

namespace Maintains

variable {P : σ → Prop}

lemma of_ok (hm : Maintains P act) {x : α} (h : act s = .ok x s') (hs : P s) : P s' := by
  have hfinal := hm s hs
  rwa [h] at hfinal

lemma of_error (hm : Maintains P act) {e : Error} (h : act s = .error e s') (hs : P s) : P s' := by
  have hfinal := hm s hs
  rwa [h] at hfinal

lemma pure {x : α} : Maintains P (Pure.pure x : EStateM Error σ α) := fun _ hs => hs

lemma throw {e : Error} : Maintains P (MonadExcept.throw e : EStateM Error σ α) := fun _ hs => hs

lemma modify {change : σ → σ} (h : ∀ s, P s → P (change s)) :
    Maintains P (modify change : EStateM Error σ PUnit) := h

/-- **Actions one after another** maintain what each of them does. -/
lemma bind (hm : Maintains P act) (hnext : ∀ x, Maintains P (next x)) :
    Maintains P (act >>= next) := by
  intro s hs
  cases h : act s with
  | ok x t =>
    rw [bind_of_ok h]
    exact hnext x t (hm.of_ok h hs)
  | error e t =>
    rw [bind_of_error h]
    exact hm.of_error h hs

lemma get_bind {next : σ → EStateM Error σ β} (hnext : ∀ x, Maintains P (next x)) :
    Maintains P (get >>= next) := fun s hs => hnext s s hs

lemma ite {p : Prop} [Decidable p] {other : EStateM Error σ α} (h : p → Maintains P act)
    (h' : ¬ p → Maintains P other) : Maintains P (if p then act else other) := by
  by_cases hp : p
  · rw [if_pos hp]
    exact h hp
  · rw [if_neg hp]
    exact h' hp

end Maintains

end SlotStore.Steps
