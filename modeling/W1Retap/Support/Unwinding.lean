import Mathlib.Data.List.Basic
import Mathlib.Tactic.Common

/-!
# What an observer sees of two systems

The steps of a system carry labels, of which an observer sees some. `Unwinds` is a relation
between two systems that survives the steps nobody sees on either side, and the steps that are
seen when both make them. Two runs that look alike then end in related states.
-/
namespace W1Retap.Unwinding

variable {ι ι' σ σ' α : Type}

/-- A run, with the labels of its steps. -/
inductive Runs (step : ι → σ → σ → Prop) : List ι → σ → σ → Prop
  | nil (s : σ) : Runs step [] s s
  | cons {i : ι} {is : List ι} {s u t : σ} :
      step i s u → Runs step is u t → Runs step (i :: is) s t

variable {step : ι → σ → σ → Prop} {step' : ι' → σ' → σ' → Prop}

theorem Runs.append {is js : List ι} {s u t : σ} (h : Runs step is s u) (h' : Runs step js u t) :
    Runs step (is ++ js) s t := by
  induction h with
  | nil => exact h'
  | cons hstep _ ih => exact .cons hstep (ih h')

theorem Runs.split {is js : List ι} {s t : σ} (h : Runs step (is ++ js) s t) :
    ∃ u, Runs step is s u ∧ Runs step js u t := by
  induction is generalizing s with
  | nil => exact ⟨s, .nil s, h⟩
  | cons i is ih =>
    cases h with
    | cons hstep hrest =>
      obtain ⟨u, hleft, hright⟩ := ih hrest
      exact ⟨u, .cons hstep hleft, hright⟩

/-- What a step keeps, a run keeps. -/
theorem Runs.keeps {P : σ → Prop} {is : List ι} {s t : σ} (h : Runs step is s t)
    (hP : ∀ i ∈ is, ∀ s t, step i s t → P s → P t) (hs : P s) : P t := by
  induction h with
  | nil => exact hs
  | @cons i is s u t hstep _ ih =>
    exact ih (fun j hj => hP j (List.mem_cons_of_mem i hj)) (hP i List.mem_cons_self s u hstep hs)

/-- `see` and `see'` are what the observer sees of a step. -/
structure Unwinds (step : ι → σ → σ → Prop) (step' : ι' → σ' → σ' → Prop)
    (see : ι → Option α) (see' : ι' → Option α) (R : σ → σ' → Prop) : Prop where
  left : ∀ i s t s', see i = none → step i s t → R s s' → R t s'
  right : ∀ i s s' t', see' i = none → step' i s' t' → R s s' → R s t'
  both : ∀ i i' a s t s' t', see i = some a → see' i' = some a → step i s t → step' i' s' t' →
    R s s' → R t t'

/-- Runs that look alike to the observer stay related. -/
theorem Unwinds.runs {see : ι → Option α} {see' : ι' → Option α} {R : σ → σ' → Prop}
    (hR : Unwinds step step' see see' R) {is : List ι} {is' : List ι'} {s t : σ} {s' t' : σ'}
    (h : Runs step is s t) (h' : Runs step' is' s' t')
    (hsee : is'.filterMap see' = is.filterMap see) (hs : R s s') : R t t' := by
  have hidle : ∀ {js u u' v}, Runs step' js u' v → (∀ j ∈ js, see' j = none) → R u u' → R u v :=
    fun hrun hnone => hrun.keeps fun j hj s t hstep hs => hR.right j _ s t (hnone j hj) hstep hs
  induction h generalizing is' s' with
  | nil s => exact hidle h' (List.filterMap_eq_nil_iff.mp hsee) hs
  | @cons i is s u t hstep hrest ih =>
    cases hi : see i with
    | none =>
      rw [List.filterMap_cons_none hi] at hsee
      exact ih h' hsee (hR.left i s u s' hi hstep hs)
    | some a =>
      rw [List.filterMap_cons_some hi] at hsee
      obtain ⟨before, i', after, rfl, hnone, hi', hafter⟩ := List.filterMap_eq_cons_iff.mp hsee
      obtain ⟨u', hbefore, hlast⟩ := h'.split
      cases hlast with
      | cons hstep' hrest' =>
        have hpair := hR.both i i' a s u u' _ hi hi' hstep hstep' (hidle hbefore hnone hs)
        exact ih hrest' hafter hpair

end W1Retap.Unwinding
