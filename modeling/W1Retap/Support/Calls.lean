import Mathlib

/-!
# Components that are called

A component keeps a state between calls: a call takes it to the next state and has
outputs. `turns` lists the calls of a run with the states that they meet.

Outputs may acquire, use and release resources. `Safe l as` says that every use in `as`
is of a resource that is live at that point, when those of `l` are live at first.
-/
namespace W1Retap.Calls

variable {S C O ρ : Type}

/-! ## Runs -/

structure Turn (S C O : Type) where
  before : S
  call : C
  outputs : List O

section
variable (step : S → C → S × List O)

def turns : S → List C → List (Turn S C O)
  | _, [] => []
  | s, c :: cs => ⟨s, c, (step s c).2⟩ :: turns (step s c).1 cs

/-- The state after a run. -/
def final (s : S) (cs : List C) : S := cs.foldl (fun s c => (step s c).1) s

def outputs (s : S) (cs : List C) : List O := (turns step s cs).flatMap (·.outputs)

@[simp] theorem turns_nil (s : S) : turns step s [] = [] := rfl

@[simp] theorem turns_cons (s : S) (c : C) (cs : List C) :
    turns step s (c :: cs) = ⟨s, c, (step s c).2⟩ :: turns step (step s c).1 cs := rfl

@[simp] theorem final_cons (s : S) (c : C) (cs : List C) :
    final step s (c :: cs) = final step (step s c).1 cs := rfl

@[simp] theorem outputs_nil (s : S) : outputs step s [] = [] := rfl

@[simp] theorem outputs_cons (s : S) (c : C) (cs : List C) :
    outputs step s (c :: cs) = (step s c).2 ++ outputs step (step s c).1 cs := by
  simp [outputs]

end

variable {step : S → C → S × List O} {s : S} {cs : List C}

theorem turns_append (cs cs' : List C) :
    turns step s (cs ++ cs') = turns step s cs ++ turns step (final step s cs) cs' := by
  induction cs generalizing s with
  | nil => rfl
  | cons c cs ih => rw [List.cons_append, turns_cons, turns_cons, ih, List.cons_append, final_cons]

theorem turns_outputs {t : Turn S C O} (ht : t ∈ turns step s cs) :
    t.outputs = (step t.before t.call).2 := by
  induction cs generalizing s with
  | nil => cases ht
  | cons c cs ih =>
    rcases List.mem_cons.mp ht with rfl | ht
    · rfl
    · exact ih ht

/-- What every call keeps holds of every state that a call meets. -/
theorem turns_keep {Inv : S → Prop} (hs : Inv s) (hstep : ∀ c ∈ cs, ∀ s, Inv s → Inv (step s c).1) :
    ∀ t ∈ turns step s cs, Inv t.before ∧ t.call ∈ cs ∧ t.outputs = (step t.before t.call).2 := by
  induction cs generalizing s with
  | nil => simp
  | cons c cs ih =>
    intro t ht
    rcases List.mem_cons.mp ht with rfl | ht
    · exact ⟨hs, List.mem_cons_self, rfl⟩
    · have hnext := hstep c List.mem_cons_self s hs
      obtain ⟨hinv, hmem, hout⟩ := ih hnext (fun d hd => hstep d (List.mem_cons_of_mem c hd)) t ht
      exact ⟨hinv, List.mem_cons_of_mem c hmem, hout⟩

theorem final_keeps {Inv : S → Prop} (hs : Inv s) (hstep : ∀ c ∈ cs, ∀ s, Inv s → Inv (step s c).1) :
    Inv (final step s cs) := by
  induction cs generalizing s with
  | nil => exact hs
  | cons c cs ih =>
    exact ih (hstep c List.mem_cons_self s hs) fun d hd => hstep d (List.mem_cons_of_mem c hd)

/-! ## Events -/

section
variable {ε : Type} (events : S → C → List ε)

variable (step) in
/-- The events of a run, when a call has those of `events`. -/
def eventsOf (s : S) (cs : List C) : List ε :=
  (turns step s cs).flatMap fun t => events t.before t.call

theorem eventsOf_cons (c : C) :
    eventsOf step events s (c :: cs) = events s c ++ eventsOf step events (step s c).1 cs := rfl

theorem eventsOf_append (cs cs' : List C) :
    eventsOf step events s (cs ++ cs') =
      eventsOf step events s cs ++ eventsOf step events (final step s cs) cs' := by
  simp [eventsOf, turns_append]

/-- A flag that some events set and none clears. -/
theorem final_or (f : S → Bool) (g : ε → Bool)
    (h : ∀ c ∈ cs, ∀ s, f (step s c).1 = (f s || (events s c).any g)) :
    f (final step s cs) = (f s || (eventsOf step events s cs).any g) := by
  induction cs generalizing s with
  | nil => simp [final, eventsOf]
  | cons c cs ih =>
    have hc := h c List.mem_cons_self s
    have hcs := ih (s := (step s c).1) fun d hd => h d (List.mem_cons_of_mem c hd)
    rw [final_cons, hcs, hc, eventsOf_cons, List.any_append, Bool.or_assoc]

/-- What a state holds was there before, or is due to an event. -/
theorem final_holds (held : S → ε → Prop)
    (h : ∀ s c e, held (step s c).1 e → held s e ∨ e ∈ events s c) {e : ε}
    (he : held (final step s cs) e) : held s e ∨ e ∈ eventsOf step events s cs := by
  induction cs generalizing s with
  | nil => exact Or.inl he
  | cons c cs ih =>
    rw [eventsOf_cons, List.mem_append]
    rcases ih he with hs | hlater
    · exact (h s c e hs).imp_right Or.inl
    · exact Or.inr (Or.inr hlater)

end

/-- A flag that every member of a list sets is right for one of them when no other sets it
alone. -/
theorem any_eq_iff {ε : Type} {l : List ε} {e : ε} (he : e ∈ l) (f : ε → Bool) :
    l.any f = f e ↔ ∀ q ∈ l, f q = true → f e = true := by
  cases hf : f e with
  | true =>
    have hany : l.any f = true := List.any_eq_true.mpr ⟨e, he, hf⟩
    simp [hany]
  | false =>
    rw [List.any_eq_false]
    constructor
    · intro h q hq hq'
      exact absurd hq' (h q hq)
    · intro h q hq hq'
      exact absurd (h q hq hq') Bool.false_ne_true

/-! ## Resources -/

/-- What is done to resources. `release` ends all that satisfy `p`, and `use` needs one
that does. -/
inductive Act (ρ : Type) where
  | acquire (r : ρ)
  | release (p : ρ → Bool)
  | use (p : ρ → Bool)

/-- The resources that are live after one act. -/
def Act.live (l : List ρ) : Act ρ → List ρ
  | .acquire r => r :: l
  | .release p => l.filter fun r => !p r
  | .use _ => l

def liveAfter (l : List ρ) (as : List (Act ρ)) : List ρ := as.foldl Act.live l

/-- The act uses nothing but what is live. -/
def Act.Valid (l : List ρ) : Act ρ → Prop
  | .use p => ∃ r ∈ l, p r = true
  | _ => True

def Safe (l : List ρ) : List (Act ρ) → Prop
  | [] => True
  | a :: as => a.Valid l ∧ Safe (a.live l) as

instance (l : List ρ) : (a : Act ρ) → Decidable (a.Valid l)
  | .use p => inferInstanceAs (Decidable (∃ r ∈ l, p r = true))
  | .acquire _ => isTrue True.intro
  | .release _ => isTrue True.intro

instance decidableSafe : (l : List ρ) → (as : List (Act ρ)) → Decidable (Safe l as)
  | _, [] => isTrue True.intro
  | l, a :: as =>
    have := decidableSafe (a.live l) as
    inferInstanceAs (Decidable (a.Valid l ∧ Safe (a.live l) as))

section
variable {l : List ρ} {a : Act ρ} {as bs : List (Act ρ)}

@[simp] theorem safe_nil : Safe l [] := True.intro

@[simp] theorem safe_cons : Safe l (a :: as) ↔ a.Valid l ∧ Safe (a.live l) as := Iff.rfl

@[simp] theorem valid_acquire (r : ρ) : (Act.acquire r).Valid l := True.intro

@[simp] theorem valid_release (p : ρ → Bool) : (Act.release p).Valid l := True.intro

@[simp] theorem valid_use (p : ρ → Bool) : (Act.use p).Valid l ↔ ∃ r ∈ l, p r = true := Iff.rfl

@[simp] theorem liveAfter_nil : liveAfter l [] = l := rfl

@[simp] theorem liveAfter_cons : liveAfter l (a :: as) = liveAfter (a.live l) as := rfl

@[simp] theorem liveAfter_append : liveAfter l (as ++ bs) = liveAfter (liveAfter l as) bs :=
  List.foldl_append

theorem safe_append : Safe l (as ++ bs) ↔ Safe l as ∧ Safe (liveAfter l as) bs := by
  induction as generalizing l with
  | nil => simp
  | cons a as ih => simp [ih, and_assoc]

/-- Acts that do nothing but use one resource are safe exactly when there is such a one. -/
theorem safe_uses {p : ρ → Bool} (h : ∀ a ∈ as, a = .use p) :
    Safe l as ↔ as = [] ∨ ∃ r ∈ l, p r = true := by
  induction as with
  | nil => simp
  | cons a as ih =>
    obtain rfl := h a List.mem_cons_self
    rw [safe_cons, Act.live, ih fun b hb => h b (List.mem_cons_of_mem _ hb), valid_use]
    simp only [reduceCtorEq, false_or]
    exact ⟨fun hv => hv.1, fun hv => ⟨hv, Or.inr hv⟩⟩

theorem liveAfter_uses {p : ρ → Bool} (h : ∀ a ∈ as, a = .use p) : liveAfter l as = l := by
  induction as with
  | nil => rfl
  | cons a as ih =>
    obtain rfl := h a List.mem_cons_self
    exact ih fun b hb => h b (List.mem_cons_of_mem _ hb)

/-- Releasing is safe, and leaves what none of the releases is about. -/
theorem safe_releases (h : ∀ a ∈ as, ∃ p, a = .release p) : Safe l as := by
  induction as generalizing l with
  | nil => exact safe_nil
  | cons a as ih =>
    obtain ⟨p, rfl⟩ := h a List.mem_cons_self
    exact ⟨True.intro, ih fun b hb => h b (List.mem_cons_of_mem _ hb)⟩

theorem mem_liveAfter_releases (h : ∀ a ∈ as, ∃ p, a = .release p) {r : ρ} :
    r ∈ liveAfter l as ↔ r ∈ l ∧ ∀ p, .release p ∈ as → p r = false := by
  induction as generalizing l with
  | nil => simp
  | cons a as ih =>
    obtain ⟨p, rfl⟩ := h a List.mem_cons_self
    rw [liveAfter_cons, ih fun b hb => h b (List.mem_cons_of_mem _ hb), Act.live, List.mem_filter]
    constructor
    · rintro ⟨⟨hr, hp⟩, hall⟩
      refine ⟨hr, fun q hq => ?_⟩
      rcases List.mem_cons.mp hq with hq | hq
      · obtain rfl := Act.release.inj hq
        simpa using hp
      · exact hall q hq
    · rintro ⟨hr, hall⟩
      have hp := hall p List.mem_cons_self
      exact ⟨⟨hr, by simp [hp]⟩, fun q hq => hall q (List.mem_cons_of_mem _ hq)⟩

end

/-! ## Runs that use resources -/

variable {acts : O → List (Act ρ)} {Inv : S → List ρ → Prop} {ok : S → C → Prop} {l : List ρ}

/-- A run is safe when its calls are, from states that know what is live. -/
theorem safe_run (hs : Inv s l)
    (hstep : ∀ s l c, Inv s l → ok s c → Safe l ((step s c).2.flatMap acts) ∧
      Inv (step s c).1 (liveAfter l ((step s c).2.flatMap acts)))
    (h : ∀ t ∈ turns step s cs, ok t.before t.call) :
    Safe l ((outputs step s cs).flatMap acts) := by
  induction cs generalizing s l with
  | nil => simp
  | cons c cs ih =>
    have hc : ok s c := h ⟨s, c, (step s c).2⟩ List.mem_cons_self
    obtain ⟨hsafe, hinv⟩ := hstep s l c hs hc
    rw [outputs_cons, List.flatMap_append, safe_append]
    exact ⟨hsafe, ih hinv fun t ht => h t (List.mem_cons_of_mem _ ht)⟩

/-- It is safe exactly then, when an unsafe call cannot be made up for. -/
theorem safe_run_iff (hs : Inv s l)
    (hstep : ∀ s l c, Inv s l → (Safe l ((step s c).2.flatMap acts) ↔ ok s c) ∧
      Inv (step s c).1 (liveAfter l ((step s c).2.flatMap acts))) :
    Safe l ((outputs step s cs).flatMap acts) ↔ ∀ t ∈ turns step s cs, ok t.before t.call := by
  induction cs generalizing s l with
  | nil => simp
  | cons c cs ih =>
    obtain ⟨hsafe, hinv⟩ := hstep s l c hs
    rw [outputs_cons, List.flatMap_append, safe_append, hsafe, ih hinv, turns_cons]
    simp

end W1Retap.Calls
