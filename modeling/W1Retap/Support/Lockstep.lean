import Mathlib.Logic.Basic
import Mathlib.Tactic.Common

/-!
# Functions of a state, alone and side by side

`KeepsTo P m Q`: from states with `P` the function `m` ends in states that `Q` allows for its
value; in `Keeps P m` they are states with `P` again. `LockstepTo R m k Q`: from states that `R`
relates, `m` and `k` return the same value and end in states that `Q` relates for it; in
`Lockstep R m k` the relation stays the same.
-/
namespace W1Retap.Programs

variable {σ σ' α β γ : Type}

def KeepsTo (P : σ → Prop) (m : StateM σ α) (Q : α → σ → Prop) : Prop :=
  ∀ s, P s → Q (m s).1 (m s).2

def Keeps (P : σ → Prop) (m : StateM σ α) : Prop := KeepsTo P m fun _ => P

namespace KeepsTo

variable {P : σ → Prop} {m m' : StateM σ α} {Q : α → σ → Prop}

theorem pure {a : α} (h : ∀ s, P s → Q a s) : KeepsTo P (Pure.pure a : StateM σ α) Q := h

theorem bind {f : α → StateM σ β} {S : β → σ → Prop} (hm : KeepsTo P m Q)
    (hf : ∀ a, KeepsTo (Q a) (f a) S) : KeepsTo P (m >>= f) S :=
  fun s h => hf _ _ (hm s h)

theorem modify {f : σ → σ} {S : σ → Prop} (hf : ∀ s, P s → S (f s)) :
    KeepsTo P (modify f) fun _ => S :=
  fun s h => hf s h

theorem ite {c : Prop} [Decidable c] (hm : c → KeepsTo P m Q) (hm' : ¬ c → KeepsTo P m' Q) :
    KeepsTo P (if c then m else m') Q := by
  split
  · exact hm ‹_›
  · exact hm' ‹_›

/-- A fact about the state that is none of one state in particular. -/
theorem given {φ : Prop} (h : φ → KeepsTo P m Q) : KeepsTo (fun s => P s ∧ φ) m Q :=
  fun s hs => h hs.2 s hs.1

theorem conseq {P' : σ → Prop} {Q' : α → σ → Prop} (h : KeepsTo P m Q) (hP : ∀ s, P' s → P s)
    (hQ : ∀ a s, Q a s → Q' a s) : KeepsTo P' m Q' :=
  fun s hs => hQ _ _ (h s (hP s hs))

end KeepsTo

namespace Keeps

variable {P : σ → Prop} {m m' : StateM σ α}

theorem pure (a : α) : Keeps P (Pure.pure a : StateM σ α) := KeepsTo.pure fun _ h => h

theorem bind {f : α → StateM σ β} (hm : Keeps P m) (hf : ∀ a, Keeps P (f a)) : Keeps P (m >>= f) :=
  KeepsTo.bind hm hf

/-- What is read from the state is known of it. -/
theorem reads {f : σ → StateM σ β} (hf : ∀ s, P s → Keeps P (f s)) : Keeps P (get >>= f) :=
  fun s h => hf s h s h

theorem modify {f : σ → σ} (hf : ∀ s, P s → P (f s)) : Keeps P (modify f) := KeepsTo.modify hf

theorem ite {c : Prop} [Decidable c] (hm : c → Keeps P m) (hm' : ¬ c → Keeps P m') :
    Keeps P (if c then m else m') :=
  KeepsTo.ite hm hm'

theorem forM {f : γ → StateM σ PUnit} {xs : List γ} (h : ∀ x, Keeps P (f x)) :
    Keeps P (xs.forM f) := by
  induction xs with
  | nil => exact .pure _
  | cons x xs ih => exact .bind (h x) fun _ => ih

end Keeps

def LockstepTo (R : σ → σ' → Prop) (m : StateM σ α) (k : StateM σ' α)
    (Q : α → σ → σ' → Prop) : Prop :=
  ∀ s s', R s s' → (m s).1 = (k s').1 ∧ Q (m s).1 (m s).2 (k s').2

def Lockstep (R : σ → σ' → Prop) (m : StateM σ α) (k : StateM σ' α) : Prop :=
  LockstepTo R m k fun _ => R

namespace LockstepTo

variable {R : σ → σ' → Prop} {m m' : StateM σ α} {k k' : StateM σ' α} {Q : α → σ → σ' → Prop}

theorem pure {a : α} (h : ∀ s s', R s s' → Q a s s') :
    LockstepTo R (Pure.pure a : StateM σ α) (Pure.pure a) Q := fun s s' hR => ⟨rfl, h s s' hR⟩

theorem bind {f : α → StateM σ β} {g : α → StateM σ' β} {S : β → σ → σ' → Prop}
    (hm : LockstepTo R m k Q) (hf : ∀ a, LockstepTo (Q a) (f a) (g a) S) :
    LockstepTo R (m >>= f) (k >>= g) S := by
  intro s s' h
  obtain ⟨hvalue, hstate⟩ := hm s s' h
  change (f (m s).1 (m s).2).1 = (g (k s').1 (k s').2).1 ∧
    S (f (m s).1 (m s).2).1 (f (m s).1 (m s).2).2 (g (k s').1 (k s').2).2
  rw [← hvalue]
  exact hf _ _ _ hstate

theorem modify {f : σ → σ} {g : σ' → σ'} {S : σ → σ' → Prop} (hf : ∀ s s', R s s' → S (f s) (g s')) :
    LockstepTo R (modify f) (modify g) fun _ => S := fun s s' h => ⟨rfl, hf s s' h⟩

theorem ite {c : Prop} [Decidable c] (hm : c → LockstepTo R m k Q)
    (hm' : ¬ c → LockstepTo R m' k' Q) :
    LockstepTo R (if c then m else m') (if c then k else k') Q := by
  by_cases h : c
  · rw [if_pos h, if_pos h]
    exact hm h
  · rw [if_neg h, if_neg h]
    exact hm' h

/-- A fact about the states that is none of one state in particular. -/
theorem given {φ : Prop} (h : φ → LockstepTo R m k Q) :
    LockstepTo (fun s s' => R s s' ∧ φ) m k Q :=
  fun s s' hR => h hR.2 s s' hR.1

theorem conseq {R' : σ → σ' → Prop} {Q' : α → σ → σ' → Prop} (h : LockstepTo R m k Q)
    (hR : ∀ s s', R' s s' → R s s') (hQ : ∀ a s s', Q a s s' → Q' a s s') :
    LockstepTo R' m k Q' := by
  intro s s' hs
  obtain ⟨hvalue, hstate⟩ := h s s' (hR s s' hs)
  exact ⟨hvalue, hQ _ _ _ hstate⟩

end LockstepTo

namespace Lockstep

variable {R : σ → σ' → Prop} {m m' : StateM σ α} {k k' : StateM σ' α}

theorem pure (a : α) : Lockstep R (Pure.pure a : StateM σ α) (Pure.pure a) :=
  LockstepTo.pure fun _ _ h => h

theorem bind {f : α → StateM σ β} {g : α → StateM σ' β} (hm : Lockstep R m k)
    (hf : ∀ a, Lockstep R (f a) (g a)) : Lockstep R (m >>= f) (k >>= g) :=
  LockstepTo.bind hm hf

/-- What is read from related states is known of both. -/
theorem reads {f : σ → StateM σ β} {g : σ' → StateM σ' β}
    (hf : ∀ s s', R s s' → Lockstep R (f s) (g s')) : Lockstep R (get >>= f) (get >>= g) :=
  fun s s' h => hf s s' h s s' h

theorem modify {f : σ → σ} {g : σ' → σ'} (hf : ∀ s s', R s s' → R (f s) (g s')) :
    Lockstep R (modify f) (modify g) := LockstepTo.modify hf

theorem ite {c : Prop} [Decidable c] (hm : c → Lockstep R m k) (hm' : ¬ c → Lockstep R m' k') :
    Lockstep R (if c then m else m') (if c then k else k') :=
  LockstepTo.ite hm hm'

theorem forM {f : γ → StateM σ PUnit} {g : γ → StateM σ' PUnit} {xs : List γ}
    (h : ∀ x, Lockstep R (f x) (g x)) : Lockstep R (xs.forM f) (xs.forM g) := by
  induction xs with
  | nil => exact .pure _
  | cons x xs ih => exact .bind (h x) fun _ => ih

end Lockstep
end W1Retap.Programs
