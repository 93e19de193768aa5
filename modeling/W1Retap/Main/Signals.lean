import Mathlib

/-!
# Requests by signal

The handlers set flags in `sigme`, and the main loop clears them and carries the requests
out. Each `|=` and `&=` is a load and a store, and a handler may come in between: it
starts as a frame on top of what it interrupts, which goes on when the handler is done. A
signal is blocked while its own handler runs.
-/
namespace W1Retap

abbrev Sigme := BitVec 32

/-- `enum W1_sigflag` -/
inductive W1Sigflag where
  | reconf | readall | showcf
  deriving DecidableEq, Repr

def W1Sigflag.bit : W1Sigflag → Sigme
  | .reconf => 1
  | .readall => 2
  | .showcf => 4

/-- The flag is set. -/
def Has (w : Sigme) (f : W1Sigflag) : Prop := w &&& f.bit ≠ 0

instance (w : Sigme) (f : W1Sigflag) : Decidable (Has w f) := inferInstanceAs (Decidable (_ ≠ _))

/-- A handler before its load, or with what it loaded. -/
structure Handler where
  flag : W1Sigflag
  reg : Option Sigme := none
  deriving DecidableEq, Repr

/-- Where the main loop is: away from `sigme`, at the test of a flag, before the load of
the statement that clears it, before its store, or at the request itself. -/
inductive Place where
  | away
  | test (f : W1Sigflag)
  | clear (f : W1Sigflag)
  | store (f : W1Sigflag) (reg : Sigme)
  | carryOut (f : W1Sigflag)
  deriving DecidableEq, Repr

/-- What comes after the branch of a flag. -/
def W1Sigflag.next : W1Sigflag → Place
  | .readall => .test .reconf
  | .reconf => .test .showcf
  | .showcf => .away

/-- The handlers that run are listed from the innermost one. -/
structure Signals where
  sigme : Sigme := 0
  place : Place := .away
  handlers : List Handler := []
  deriving DecidableEq, Repr

/-- A signal arrives, or what runs goes on to its next access. -/
inductive Move where
  | signal (f : W1Sigflag)
  | go
  deriving DecidableEq, Repr

/-- The main loop goes on. -/
def Signals.loop (s : Signals) : Signals :=
  match s.place with
  | .away => { s with place := .test .readall }
  | .test f => { s with place := if s.sigme &&& f.bit ≠ 0 then .clear f else f.next }
  | .clear f => { s with place := .store f s.sigme }
  | .store f reg => { s with sigme := reg &&& ~~~ f.bit, place := .carryOut f }
  | .carryOut f => { s with place := f.next }

def Signals.step (s : Signals) : Move → Option Signals
  | .signal f =>
    if f ∈ s.handlers.map Handler.flag then none
    else some { s with handlers := { flag := f } :: s.handlers }
  | .go =>
    match s.handlers with
    | [] => some s.loop
    | ⟨f, none⟩ :: hs => some { s with handlers := ⟨f, some s.sigme⟩ :: hs }
    | ⟨f, some reg⟩ :: hs => some { s with sigme := reg ||| f.bit, handlers := hs }

def Signals.run (s : Signals) (moves : List Move) : Option Signals := moves.foldlM Signals.step s

/-- Every step of a run is one of `P`. -/
def Signals.EveryStep (P : Signals → Move → Signals → Prop) (s : Signals) : List Move → Prop
  | [] => True
  | m :: ms => ∀ s', s.step m = some s' → P s m s' ∧ s'.EveryStep P ms

/-- A flag is cleared only by its own branch, which then carries the request out. -/
def Signals.Honours (s : Signals) (_ : Move) (s' : Signals) : Prop :=
  ∀ f, Has s.sigme f → ¬ Has s'.sigme f →
    s.handlers = [] ∧ (∃ reg, s.place = .store f reg) ∧ s'.place = .carryOut f

/-- A handler starts between a load and its store only if the flag was loaded as set, or
the store is that of the flag's own branch. -/
def Signals.Timely (s : Signals) (m : Move) (_ : Signals) : Prop :=
  ∀ f, m = .signal f → (∀ h ∈ s.handlers, ∀ reg, h.reg = some reg → Has reg f) ∧
    ∀ g reg, s.place = .store g reg → f = g ∨ Has reg f

/-- No store is to come for a load that was made. -/
def Signals.AtRest (s : Signals) : Prop := s.handlers = [] ∧ ∀ f reg, s.place ≠ .store f reg

/-! ## Flags -/

def W1Sigflag.index : W1Sigflag → ℕ
  | .reconf => 0
  | .readall => 1
  | .showcf => 2

theorem bit_eq (f : W1Sigflag) : f.bit = BitVec.twoPow 32 f.index := by
  cases f <;> rfl

theorem has_iff (w : Sigme) (f : W1Sigflag) : Has w f ↔ w.getLsbD f.index = true := by
  rw [Has, bit_eq, BitVec.and_twoPow]
  by_cases h : w.getLsbD f.index = true
  · rw [if_pos h]
    exact iff_of_true (by cases f <;> decide) h
  · rw [if_neg h]
    exact iff_of_false (not_not_intro rfl) h

theorem index_inj {f g : W1Sigflag} : f.index = g.index ↔ f = g := by
  cases f <;> cases g <;> decide

theorem index_lt (f : W1Sigflag) : f.index < 32 := by
  cases f <;> decide

@[simp] theorem has_or (w : Sigme) (f g : W1Sigflag) : Has (w ||| f.bit) g ↔ Has w g ∨ g = f := by
  rw [has_iff, has_iff, BitVec.getLsbD_or, bit_eq, BitVec.getLsbD_twoPow, Bool.or_eq_true,
    Bool.and_eq_true, decide_eq_true_iff, decide_eq_true_iff, index_inj]
  exact or_congr_right ⟨fun h => h.2.symm, fun h => ⟨index_lt f, h.symm⟩⟩

@[simp] theorem has_clear (w : Sigme) (f g : W1Sigflag) :
    Has (w &&& ~~~ f.bit) g ↔ Has w g ∧ g ≠ f := by
  have hbit : (~~~ f.bit).getLsbD g.index = true ↔ g ≠ f := by
    rw [BitVec.getLsbD_not, bit_eq, BitVec.getLsbD_twoPow, Bool.and_eq_true, Bool.not_eq_true',
      Bool.and_eq_false_iff, decide_eq_true_iff, decide_eq_false_iff_not, decide_eq_false_iff_not,
      index_inj]
    constructor
    · rintro ⟨-, hlt | hne⟩
      · exact absurd (index_lt f) hlt
      · exact Ne.symm hne
    · exact fun hne => ⟨index_lt g, Or.inr (Ne.symm hne)⟩
  rw [has_iff, has_iff, BitVec.getLsbD_and, Bool.and_eq_true, hbit]

/-! ## Loads that know every flag -/

/-- Every load still to be stored knows the flags of `W`, those that the handlers on top
of it have loaded, and their own. -/
def Covered (place : Place) : (W1Sigflag → Prop) → List Handler → Prop
  | W, [] => ∀ g reg, place = .store g reg → ∀ f, W f → f = g ∨ Has reg f
  | W, h :: hs => (∀ reg, h.reg = some reg → ∀ f, W f → Has reg f) ∧
      Covered place (fun f => W f ∨ f = h.flag ∨ ∃ reg, h.reg = some reg ∧ Has reg f) hs

theorem Covered.mono {place : Place} {W W' : W1Sigflag → Prop} {hs : List Handler}
    (h : Covered place W hs) (hW : ∀ f, W' f → W f) : Covered place W' hs := by
  induction hs generalizing W W' with
  | nil => exact fun g reg hp f hf => h g reg hp f (hW f hf)
  | cons x hs ih =>
    refine ⟨fun reg hreg f hf => h.1 reg hreg f (hW f hf), ih h.2 ?_⟩
    exact fun f hf => hf.imp_left (hW f)

/-- One more flag that every load knows. -/
theorem Covered.insert {place : Place} {W : W1Sigflag → Prop} {hs : List Handler} {f : W1Sigflag}
    (h : Covered place W hs) (hhs : ∀ x ∈ hs, ∀ reg, x.reg = some reg → Has reg f)
    (hplace : ∀ g reg, place = .store g reg → f = g ∨ Has reg f) :
    Covered place (fun g => W g ∨ g = f) hs := by
  induction hs generalizing W with
  | nil =>
    intro g reg hp f' hf'
    rcases hf' with hf' | rfl
    · exact h g reg hp f' hf'
    · exact hplace g reg hp
  | cons x hs ih =>
    refine ⟨?_, ?_⟩
    · intro reg hreg g hg
      rcases hg with hg | rfl
      · exact h.1 reg hreg g hg
      · exact hhs x List.mem_cons_self reg hreg
    · refine (ih h.2 fun y hy => hhs y (List.mem_cons_of_mem x hy)).mono ?_
      rintro g ((hg | hg) | hg)
      · exact Or.inl (Or.inl hg)
      · exact Or.inr hg
      · exact Or.inl (Or.inr hg)

/-- What timely handlers keep. -/
def Signals.Sound (s : Signals) : Prop := Covered s.place (Has s.sigme) s.handlers

section
variable {s s' : Signals} {m : Move} {f : W1Sigflag}

theorem Signals.step_signal (h : s.step (.signal f) = some s') :
    f ∉ s.handlers.map Handler.flag ∧ s' = { s with handlers := { flag := f } :: s.handlers } := by
  rw [Signals.step] at h
  by_cases hf : f ∈ s.handlers.map Handler.flag
  · rw [if_pos hf] at h
    exact nomatch h
  · rw [if_neg hf] at h
    exact ⟨hf, (Option.some.inj h).symm⟩

/-- The store of a branch clears its own flag alone. -/
theorem Signals.Sound.loop (hs : s.Sound) (hidle : s.handlers = []) :
    s.Honours .go s.loop ∧ s.loop.Sound := by
  obtain ⟨sigme, place, handlers⟩ := s
  obtain rfl := hidle
  have hsound : ∀ g reg, place = .store g reg → ∀ f, Has sigme f → f = g ∨ Has reg f := hs
  cases place with
  | store g reg =>
    refine ⟨?_, fun _ _ hp => nomatch hp⟩
    intro f hf hnot
    have hg : f = g := by
      by_contra hne
      exact hnot ((has_clear reg g f).mpr ⟨(hsound g reg rfl f hf).resolve_left hne, hne⟩)
    subst hg
    exact ⟨rfl, ⟨reg, rfl⟩, rfl⟩
  | clear g =>
    refine ⟨fun f hf hnot => absurd hf hnot, ?_⟩
    intro g' reg hp f hf
    obtain ⟨-, rfl⟩ := Place.store.inj hp
    exact Or.inr hf
  | test g =>
    refine ⟨fun f hf hnot => absurd hf hnot, ?_⟩
    intro g' reg hp f hf
    simp only [Signals.loop] at hp
    by_cases ht : sigme &&& g.bit ≠ 0
    · rw [if_pos ht] at hp
      exact nomatch hp
    · rw [if_neg ht] at hp
      cases g <;> exact nomatch hp
  | away => exact ⟨fun f hf hnot => absurd hf hnot, fun _ _ hp => nomatch hp⟩
  | carryOut g =>
    refine ⟨fun f hf hnot => absurd hf hnot, ?_⟩
    intro g' reg hp f hf
    cases g <;> exact nomatch hp

/-- A timely step clears a flag in its own branch only. -/
theorem Signals.Sound.step (hs : s.Sound) (ht : s.Timely m s') (h : s.step m = some s') :
    s.Honours m s' ∧ s'.Sound := by
  cases m with
  | signal f =>
    obtain ⟨-, rfl⟩ := Signals.step_signal h
    obtain ⟨hhs, hplace⟩ := ht f rfl
    refine ⟨fun g hg hnot => absurd hg hnot, ?_, ?_⟩
    · exact fun _ hreg => nomatch hreg
    · refine (Covered.insert hs hhs hplace).mono ?_
      rintro g (hg | hg | ⟨reg, hreg, -⟩)
      · exact Or.inl hg
      · exact Or.inr hg
      · exact nomatch hreg
  | go =>
    obtain ⟨sigme, place, handlers⟩ := s
    match handlers with
    | [] =>
      obtain rfl := Option.some.inj h
      exact hs.loop rfl
    | ⟨f, none⟩ :: hs' =>
      obtain rfl := Option.some.inj h
      refine ⟨fun g hg hnot => absurd hg hnot, ?_, ?_⟩
      · intro reg hreg g hg
        obtain rfl := Option.some.inj hreg
        exact hg
      · refine hs.2.mono ?_
        rintro g (hg | hg | ⟨reg, hreg, hg⟩)
        · exact Or.inl hg
        · exact Or.inr (Or.inl hg)
        · obtain rfl := Option.some.inj hreg
          exact Or.inl hg
    | ⟨f, some reg⟩ :: hs' =>
      obtain rfl := Option.some.inj h
      refine ⟨?_, hs.2.mono ?_⟩
      · intro g hg hnot
        exact absurd ((has_or reg f g).mpr (Or.inl (hs.1 reg rfl g hg))) hnot
      · intro g hg
        rcases (has_or reg f g).mp hg with hg | hg
        · exact Or.inr (Or.inr ⟨reg, rfl, hg⟩)
        · exact Or.inr (Or.inl hg)

/-! ## Loads that miss a flag -/

/-- Some load still to be stored misses the flag, which is set by then. -/
def Doomed (f : W1Sigflag) (place : Place) : Prop → List Handler → Prop
  | set, [] => set ∧ ∃ g reg, place = .store g reg ∧ f ≠ g ∧ ¬ Has reg f
  | set, h :: hs => (set ∧ f ≠ h.flag ∧ ∃ reg, h.reg = some reg ∧ ¬ Has reg f) ∨
      Doomed f place (set ∨ f = h.flag) hs

theorem Doomed.mono {place : Place} {set set' : Prop} {hs : List Handler}
    (h : Doomed f place set hs) (hset : set → set') : Doomed f place set' hs := by
  induction hs generalizing set set' with
  | nil => exact ⟨hset h.1, h.2⟩
  | cons x hs ih =>
    rcases h with ⟨h₁, h₂⟩ | h
    · exact Or.inl ⟨hset h₁, h₂⟩
    · exact Or.inr (ih h (Or.imp_left hset))

/-- A handler that is not timely dooms its flag. -/
theorem doomed_of_not_timely {place : Place} {hs : List Handler} (hnew : f ∉ hs.map Handler.flag)
    (h : ¬ ((∀ x ∈ hs, ∀ reg, x.reg = some reg → Has reg f) ∧
      ∀ g reg, place = .store g reg → f = g ∨ Has reg f)) : Doomed f place True hs := by
  induction hs with
  | nil =>
    refine ⟨trivial, ?_⟩
    by_contra hno
    apply h
    refine ⟨by simp, fun g reg hp => ?_⟩
    by_contra hneg
    rw [not_or] at hneg
    exact hno ⟨g, reg, hp, hneg⟩
  | cons x hs ih =>
    rw [List.map_cons, List.mem_cons, not_or] at hnew
    by_cases hx : ∀ reg, x.reg = some reg → Has reg f
    · refine Or.inr ((ih hnew.2 ?_).mono fun _ => Or.inl trivial)
      rintro ⟨hall, hplace⟩
      apply h
      refine ⟨?_, hplace⟩
      intro y hy
      rcases List.mem_cons.mp hy with rfl | hy
      · exact hx
      · exact hall y hy
    · push Not at hx
      exact Or.inl ⟨trivial, hnew.1, hx⟩

/-- A doomed flag is lost sooner or later. -/
theorem Doomed.step (hd : Doomed f s.place (Has s.sigme f) s.handlers) (hh : s.Honours m s')
    (h : s.step m = some s') : Doomed f s'.place (Has s'.sigme f) s'.handlers := by
  cases m with
  | signal g =>
    obtain ⟨-, rfl⟩ := Signals.step_signal h
    exact Or.inr (hd.mono Or.inl)
  | go =>
    obtain ⟨sigme, place, handlers⟩ := s
    match handlers with
    | [] =>
      obtain rfl := Option.some.inj h
      obtain ⟨hset, g, reg, rfl, hne, hmiss⟩ := hd
      have hlost : ¬ Has (reg &&& ~~~ g.bit) f := fun hf => hmiss ((has_clear reg g f).mp hf).1
      obtain ⟨-, ⟨reg', hstore⟩, -⟩ := hh f hset hlost
      exact absurd (Place.store.inj hstore).1.symm hne
    | ⟨g, none⟩ :: hs =>
      obtain rfl := Option.some.inj h
      rcases hd with ⟨-, -, reg, hreg, -⟩ | hd
      · exact nomatch hreg
      · exact Or.inr hd
    | ⟨g, some reg⟩ :: hs =>
      obtain rfl := Option.some.inj h
      have hkept : Has sigme f → Has (reg ||| g.bit) f := by
        intro hset
        by_contra hlost
        exact nomatch (hh f hset hlost).1
      rcases hd with ⟨hset, hne, reg', hreg, hmiss⟩ | hd
      · obtain rfl := Option.some.inj hreg
        exact absurd ((has_or reg g f).mp (hkept hset)) (not_or.mpr ⟨hmiss, hne⟩)
      · refine hd.mono ?_
        rintro (hset | rfl)
        · exact hkept hset
        · exact (has_or reg f f).mpr (Or.inr rfl)

/-! ## Runs -/

theorem Signals.run_cons {ms : List Move} (h : s.run (m :: ms) = some s') :
    ∃ s₁, s.step m = some s₁ ∧ s₁.run ms = some s' := Option.bind_eq_some_iff.mp h

theorem Signals.Sound.everyStep {ms : List Move} (hs : s.Sound) (ht : s.EveryStep Signals.Timely ms) :
    s.EveryStep Signals.Honours ms := by
  induction ms generalizing s with
  | nil => trivial
  | cons m ms ih =>
    intro s' h
    obtain ⟨htimely, hrest⟩ := ht s' h
    obtain ⟨hh, hs'⟩ := hs.step htimely h
    exact ⟨hh, ih hs' hrest⟩

/-- A run that comes to rest has lost a flag that was doomed on the way. -/
theorem Doomed.not_atRest {ms : List Move} (hd : Doomed f s.place (Has s.sigme f) s.handlers)
    (hh : s.EveryStep Signals.Honours ms) (h : s.run ms = some s') : ¬ s'.AtRest := by
  induction ms generalizing s with
  | nil =>
    obtain rfl := Option.some.inj h
    rintro ⟨hidle, hplace⟩
    rw [hidle] at hd
    obtain ⟨-, g, reg, hp, -⟩ := hd
    exact hplace g reg hp
  | cons m ms ih =>
    obtain ⟨s₁, h₁, h₂⟩ := Signals.run_cons h
    obtain ⟨hfirst, hrest⟩ := hh s₁ h₁
    exact ih (hd.step hfirst h₁) hrest h₂

theorem timely_of_honours {ms : List Move} (hh : s.EveryStep Signals.Honours ms)
    (h : s.run ms = some s') (hrest : s'.AtRest) : s.EveryStep Signals.Timely ms := by
  induction ms generalizing s with
  | nil => trivial
  | cons m ms ih =>
    obtain ⟨s₁, h₁, h₂⟩ := Signals.run_cons h
    intro s₂ hs₂
    obtain rfl := Option.some.inj (h₁.symm.trans hs₂)
    obtain ⟨-, hlater⟩ := hh s₁ h₁
    refine ⟨?_, ih hlater h₂⟩
    rintro f rfl
    obtain ⟨hnew, hs₁⟩ := Signals.step_signal h₁
    by_contra hno
    have hdoomed : Doomed f s₁.place (Has s₁.sigme f) s₁.handlers := by
      rw [hs₁]
      exact Or.inr ((doomed_of_not_timely hnew hno).mono fun _ => Or.inr rfl)
    exact hdoomed.not_atRest hlater h₂ hrest

/-- No request is lost in a run whose handlers all start timely; and in a run that comes
to rest no request is lost only if they do. -/
theorem requests_kept (moves : List Move) :
    (Signals.EveryStep Signals.Timely {} moves → Signals.EveryStep Signals.Honours {} moves) ∧
      ∀ s', Signals.run {} moves = some s' → s'.AtRest →
        Signals.EveryStep Signals.Honours {} moves → Signals.EveryStep Signals.Timely {} moves := by
  have hstart : Signals.Sound {} := fun _ _ hp => nomatch hp
  exact ⟨hstart.everyStep, fun s' h hrest hh => timely_of_honours hh h hrest⟩

/-- A step of a run and the steps after it. -/
theorem Signals.EveryStep.cons {P : Signals → Move → Signals → Prop} {ms : List Move}
    (h : s.step m = some s') (hP : P s m s') (hrest : s'.EveryStep P ms) : s.EveryStep P (m :: ms) := by
  intro s₁ h₁
  obtain rfl := Option.some.inj (h.symm.trans h₁)
  exact ⟨hP, hrest⟩

/-- SIGUSR1 and SIGHUP come again after their flags were loaded, before the store that
clears the flag of SIGUSR1. -/
theorem requests_kept_again :
    Signals.EveryStep Signals.Honours {}
      [.signal .readall, .go, .go, .go, .signal .reconf, .go, .go, .go, .go,
        .signal .readall, .signal .reconf, .go, .go, .go, .go, .go] := by
  refine (requests_kept _).1 ?_
  have hgo : ∀ {s s' : Signals}, s.Timely .go s' := fun _ h => nomatch h
  refine .cons rfl ?_ (.cons rfl hgo (.cons rfl hgo (.cons rfl hgo (.cons rfl ?_ (.cons rfl hgo
    (.cons rfl hgo (.cons rfl hgo (.cons rfl hgo (.cons rfl ?_ (.cons rfl ?_ (.cons rfl hgo
    (.cons rfl hgo (.cons rfl hgo (.cons rfl hgo (.cons rfl hgo trivial)))))))))))))))
  · exact fun f _ => ⟨fun _ hx => absurd hx List.not_mem_nil, fun _ _ hp => nomatch hp⟩
  · exact fun f _ => ⟨fun _ hx => absurd hx List.not_mem_nil, fun _ _ hp => nomatch hp⟩
  · intro f hf
    obtain rfl := Move.signal.inj hf
    refine ⟨fun _ hx => absurd hx List.not_mem_nil, fun g reg hp => Or.inl ?_⟩
    exact (Place.store.inj hp).1
  · intro f hf
    obtain rfl := Move.signal.inj hf
    constructor
    · intro x hx reg hreg
      obtain rfl := List.mem_singleton.mp hx
      exact nomatch hreg
    · intro g reg hp
      obtain ⟨-, rfl⟩ := Place.store.inj hp
      exact Or.inr (by decide)

/-- SIGHUP comes between the load and the store that clear the flag of SIGUSR1. -/
theorem request_lost : ¬ Signals.EveryStep Signals.Honours {}
    [.signal .readall, .go, .go, .go, .go, .go, .signal .reconf, .go, .go, .go] := by
  intro h
  have h₄ := ((((h _ rfl).2 _ rfl).2 _ rfl).2 _ rfl).2
  have h₈ := ((((h₄ _ rfl).2 _ rfl).2 _ rfl).2 _ rfl).2
  obtain ⟨-, ⟨reg, hstore⟩, -⟩ := (((h₈ _ rfl).2 _ rfl).1) .reconf (by decide) (by decide)
  exact nomatch hstore

end
end W1Retap
