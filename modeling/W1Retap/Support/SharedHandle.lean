import W1Retap.Support.Calls

/-!
# One handle for all calls

A component keeps one handle. The first call that opens it does so with its own parameter,
and every later call writes through it, whatever its parameter is.
-/
namespace W1Retap.SharedHandle

open Calls

variable {S C O H K δ : Type}

/-- How a component uses its handle: what it holds, what a handle was opened with, the
parameters of the calls, which calls open it and which write, and where an output goes. -/
structure Client (S C O H K : Type) where
  step : S → C → S × List O
  handle : S → Option H
  key : H → K
  param : C → K
  opens : C → Bool
  writes : C → Bool
  row : O → Option H

variable (cl : Client S C O H K)

/-- The parameter of the first call that opens the handle. -/
def Client.opener (cs : List C) : Option K := (cs.find? cl.opens).map cl.param

/-- Every row goes to what the parameter of its own call names. -/
def Client.RowsNamed (names : K → δ) (s : S) (cs : List C) : Prop :=
  ∀ t ∈ turns cl.step s cs, ∀ o ∈ t.outputs, ∀ h ∈ cl.row o,
    names (cl.key h) = names (cl.param t.call)

instance [DecidableEq δ] (names : K → δ) (s : S) (cs : List C) :
    Decidable (cl.RowsNamed names s cs) :=
  inferInstanceAs (Decidable (∀ t ∈ turns cl.step s cs, ∀ o ∈ t.outputs, ∀ h ∈ cl.row o,
    names (cl.key h) = names (cl.param t.call)))

/-- The calls that write name the same as the one that opened the handle, which was opened
with `k` before or is opened by then. -/
def Client.Agree (names : K → δ) (k : Option K) (cs : List C) : Prop :=
  ∀ pre c post, cs = pre ++ c :: post → cl.writes c = true →
    ∀ p, k.or (cl.opener (pre ++ [c])) = some p → names p = names (cl.param c)

/-- What one call does to the handle, and through it. -/
structure Client.Shares (Inv : S → Prop) (s : S) (c : C) : Prop where
  inv : Inv (cl.step s c).1
  handle : (cl.handle (cl.step s c).1).map cl.key = ((cl.handle s).map cl.key).or (cl.opener [c])
  row : ∀ o ∈ (cl.step s c).2, ∀ h ∈ cl.row o,
    cl.writes c = true ∧ cl.handle (cl.step s c).1 = some h
  writes : cl.writes c = true → (cl.handle (cl.step s c).1).isSome = true →
    ∃ o ∈ (cl.step s c).2, (cl.row o).isSome = true

variable {cl} {names : K → δ} {k : Option K} {s : S} {c : C} {cs : List C}

/-- `Shares` from what the call returns. -/
theorem Client.Shares.of_eq {Inv : S → Prop} {s' : S} {ops : List O} (h : cl.step s c = (s', ops))
    (hinv : Inv s') (hhandle : (cl.handle s').map cl.key = ((cl.handle s).map cl.key).or (cl.opener [c]))
    (hrow : ∀ o ∈ ops, ∀ g ∈ cl.row o, cl.writes c = true ∧ cl.handle s' = some g)
    (hwrites : cl.writes c = true → (cl.handle s').isSome = true →
      ∃ o ∈ ops, (cl.row o).isSome = true) : cl.Shares Inv s c := by
  refine ⟨?_, ?_, ?_, ?_⟩
  · rw [h]
    exact hinv
  · rw [h]
    exact hhandle
  · rw [h]
    exact hrow
  · rw [h]
    exact hwrites

/-- A call that neither opens the handle nor writes. -/
theorem Client.Shares.idle {Inv : S → Prop} {s' : S} {ops : List O} (h : cl.step s c = (s', ops))
    (hinv : Inv s') (hopens : cl.opens c = false) (hwrites : cl.writes c = false)
    (hhandle : cl.handle s' = cl.handle s) (hrow : ∀ o ∈ ops, cl.row o = none) :
    cl.Shares Inv s c := by
  have hopener : cl.opener [c] = none := by simp [Client.opener, hopens]
  apply Client.Shares.of_eq h hinv
  · rw [hhandle, hopener, Option.or_none]
  · intro o ho g hg
    rw [hrow o ho] at hg
    cases hg
  · intro hw
    rw [hwrites] at hw
    cases hw

theorem opener_cons : cl.opener (c :: cs) = (cl.opener [c]).or (cl.opener cs) := by
  cases h : cl.opens c <;> simp [Client.opener, h]

theorem agree_cons :
    cl.Agree names k (c :: cs) ↔
      (cl.writes c = true → ∀ p, k.or (cl.opener [c]) = some p → names p = names (cl.param c)) ∧
        cl.Agree names (k.or (cl.opener [c])) cs := by
  constructor
  · intro h
    refine ⟨fun hw => h [] c cs rfl hw, fun pre d post hcs hw p hp => ?_⟩
    apply h (c :: pre) d post (by rw [hcs, List.cons_append]) hw p
    rw [List.cons_append, opener_cons, ← hp]
    cases k <;> rfl
  · rintro ⟨hc, hrest⟩ pre d post hcs hw p hp
    cases pre with
    | nil =>
      obtain ⟨rfl, rfl⟩ := List.cons.inj hcs
      exact hc hw p hp
    | cons e pre =>
      obtain ⟨rfl, rfl⟩ := List.cons.inj hcs
      apply hrest pre d post rfl hw p
      rw [List.cons_append, opener_cons] at hp
      rw [← hp]
      cases k <;> rfl

/-- The rows of one call are named by its parameter when it agrees with the opener. -/
theorem Client.Shares.rows_iff {Inv : S → Prop} (h : cl.Shares Inv s c) :
    (∀ o ∈ (cl.step s c).2, ∀ g ∈ cl.row o, names (cl.key g) = names (cl.param c)) ↔
      (cl.writes c = true → ∀ p, ((cl.handle s).map cl.key).or (cl.opener [c]) = some p →
        names p = names (cl.param c)) := by
  rw [← h.handle]
  constructor
  · intro hrows hw p hp
    obtain ⟨g, hg, rfl⟩ := Option.map_eq_some_iff.mp hp
    obtain ⟨o, ho, hrow⟩ := h.writes hw (Option.isSome_iff_exists.mpr ⟨g, hg⟩)
    obtain ⟨g', hg'⟩ := Option.isSome_iff_exists.mp hrow
    obtain rfl := Option.some.inj (hg.symm.trans (h.row o ho g' hg').2)
    exact hrows o ho g hg'
  · intro hagree o ho g hg
    obtain ⟨hw, hhandle⟩ := h.row o ho g hg
    exact hagree hw _ (by rw [hhandle, Option.map_some])

section
variable {Inv : S → Prop} (ok : C → Prop) (hs : Inv s)
  (hstep : ∀ c ∈ cs, ∀ s, Inv s → (cl.handle s = none → cl.opens c = true → ok c) →
    cl.Shares Inv s c)
  (hok : cl.handle s = none → ∀ c, cs.find? cl.opens = some c → ok c)
include hs hstep hok

/-- `ok` is needed of the call that opens the handle only. -/
theorem turns_shares : ∀ t ∈ turns cl.step s cs,
    Inv t.before ∧ (cl.handle t.before = none → cl.opens t.call = true → ok t.call) := by
  induction cs generalizing s with
  | nil => simp
  | cons c cs ih =>
    have hc : cl.handle s = none → cl.opens c = true → ok c := by
      intro hnone hopens
      exact hok hnone c (by simp [hopens])
    have hshares := hstep c List.mem_cons_self s hs hc
    have hlater : cl.handle (cl.step s c).1 = none → ∀ d, cs.find? cl.opens = some d → ok d := by
      intro hnone d hd
      -- then `c` did not open the handle
      have hhandle := hshares.handle
      rw [hnone, Option.map_none, eq_comm, Option.or_eq_none_iff, Option.map_eq_none_iff] at hhandle
      have hopens : cl.opens c = false := by
        cases ho : cl.opens c with
        | false => rfl
        | true => simp [Client.opener, ho] at hhandle
      exact hok hhandle.1 d (by simp [hopens, hd])
    intro t ht
    rcases List.mem_cons.mp ht with rfl | ht
    · exact ⟨hs, hc⟩
    · exact ih hshares.inv (fun d hd => hstep d (List.mem_cons_of_mem c hd)) hlater t ht

/-- All rows of a run are where they should be exactly when the calls agree. -/
theorem rowsNamed_iff :
    cl.RowsNamed names s cs ↔ cl.Agree names ((cl.handle s).map cl.key) cs := by
  have hturns := turns_shares ok hs hstep hok
  clear hs hok
  induction cs generalizing s with
  | nil => simp [Client.RowsNamed, Client.Agree]
  | cons c cs ih =>
    obtain ⟨hs, hc⟩ := hturns _ List.mem_cons_self
    have hshares := hstep c List.mem_cons_self s hs hc
    have htail : cl.RowsNamed names (cl.step s c).1 cs ↔
        cl.Agree names ((cl.handle (cl.step s c).1).map cl.key) cs :=
      ih (fun d hd => hstep d (List.mem_cons_of_mem c hd))
        fun t ht => hturns t (List.mem_cons_of_mem _ ht)
    rw [agree_cons, ← hshares.handle, ← htail, hshares.handle, ← hshares.rows_iff]
    simp [Client.RowsNamed]

end

end W1Retap.SharedHandle
