import W1Retap.Support.Rings

/-!
# The errors of the bus

`owerr.c` keeps the errors that the library raises in a ring of ten. `owClearError` only blanks the
top one of them, and `owGetErrorNum` pops a blank like an error. Still the errors that come out are
those of a stack that holds the last ten and that `owClearError` empties, as long as
`owGetErrorNum` is not called with nothing raised.
-/
namespace W1Retap.Bus.Errors

open Rings

def sizeOwerrorStack : ℕ := 10

abbrev ErrorStack := Ring Int sizeOwerrorStack

instance : NeZero sizeOwerrorStack := ⟨by decide⟩

/-- The stack as the program starts: static memory. -/
def noErrors : ErrorStack where
  cells := fun _ => 0
  top := 0

def owRaiseError (err : Int) (s : ErrorStack) : ErrorStack := s.push err

def owGetErrorNum (s : ErrorStack) : Int × ErrorStack := (s.peek, s.pop 0)

def owHasErrors (s : ErrorStack) : Bool := s.peek ≠ 0

def owClearError (s : ErrorStack) : ErrorStack := s.put 0

/-- `OWERROR_DUMP`, with the numbers that `owPrintErrorMsg` prints; `OWERROR_CLEAR` pops them
without a word. -/
def dump : ℕ → ErrorStack → Option (List Int × ErrorStack)
  | 0, _ => none
  | rounds + 1, s =>
    if owHasErrors s then
      let (err, s) := owGetErrorNum s
      (dump rounds s).map fun (printed, s) => (err :: printed, s)
    else some ([], s)

inductive Act where
  | raise (err : Int)
  | hasErrors
  | getErrorNum
  | clearError
  | dump
  | clear
  deriving DecidableEq, Repr

/-- What a call returns or prints. -/
def perform (rounds : ℕ) : Act → ErrorStack → Option (List Int × ErrorStack)
  | .raise err, s => some ([], owRaiseError err s)
  | .hasErrors, s => some ([if owHasErrors s then 1 else 0], s)
  | .getErrorNum, s => some ([(owGetErrorNum s).1], (owGetErrorNum s).2)
  | .clearError, s => some ([], owClearError s)
  | .dump, s => Errors.dump rounds s
  | .clear, s => (Errors.dump rounds s).map fun r => ([], r.2)

def run {σ : Type} (step : Act → σ → Option (List Int × σ)) :
    List Act → σ → Option (List Int × σ)
  | [], s => some ([], s)
  | act :: acts, s => do
    let (shown, s) ← step act s
    let (rest, s) ← run step acts s
    return (shown ++ rest, s)

/-! ## What the comments of the source say -/

/-- The stack of errors. Nothing is said of an error with the number 0, and of `owGetErrorNum` with
no error on the stack. -/
def meant : Act → List Int → Option (List Int × List Int)
  | .raise err, s => if err = 0 then none else some ([], (err :: s).take sizeOwerrorStack)
  | .hasErrors, s => some ([if s = [] then 0 else 1], s)
  | .getErrorNum, [] => none
  | .getErrorNum, err :: s => some ([err], s)
  | .clearError, _ => some ([], [])
  | .dump, s => some (s, [])
  | .clear, _ => some ([], [])

section
variable {s : ErrorStack} {held held' shown : List Int} {act : Act} {acts : List Act} {rounds : ℕ}

theorem owHasErrors_iff : owHasErrors s = true ↔ s.held 0 ≠ [] := by
  simp only [owHasErrors, ne_eq, decide_eq_true_eq, held_eq_nil]

/-- A dump prints what is held, and ends within a round for each error and one more. -/
theorem dump_held (h : s.held 0 = held) (hrounds : held.length < rounds) :
    ∃ s', dump rounds s = some (held, s') ∧ s'.held 0 = [] := by
  induction held generalizing s rounds with
  | nil =>
    obtain ⟨rounds, rfl⟩ := Nat.exists_eq_succ_of_ne_zero (Nat.ne_of_gt hrounds)
    have hempty : ¬ owHasErrors s = true := fun hs => owHasErrors_iff.mp hs h
    exact ⟨s, if_neg hempty, h⟩
  | cons err held ih =>
    obtain ⟨rounds, rfl⟩ := Nat.exists_eq_succ_of_ne_zero (Nat.ne_of_gt (Nat.zero_lt_of_lt hrounds))
    obtain ⟨htop, hrest⟩ := held_pop h
    obtain ⟨s', hdump, hheld⟩ := ih hrest (Nat.lt_of_succ_lt_succ hrounds)
    have hfull : owHasErrors s = true := by
      apply owHasErrors_iff.mpr
      rw [h]
      exact List.cons_ne_nil err held
    refine ⟨s', ?_, hheld⟩
    rw [dump, if_pos hfull]
    change ((dump rounds (s.pop 0)).map fun r => (s.peek :: r.1, r.2)) = _
    rw [hdump, htop]
    rfl

/-- One call. -/
theorem perform_meant (hrounds : sizeOwerrorStack < rounds)
    (h : meant act (s.held 0) = some (shown, held')) :
    ∃ s', perform rounds act s = some (shown, s') ∧ s'.held 0 = held' := by
  have hle : (s.held 0).length ≤ sizeOwerrorStack := length_held_le
  obtain ⟨s', hs', hempty⟩ := dump_held rfl (hle.trans_lt hrounds)
  cases act with
  | raise err =>
    rw [meant] at h
    split at h
    · cases h
    · rename_i herr
      cases h
      exact ⟨_, rfl, held_push herr⟩
  | hasErrors =>
    cases h
    refine ⟨s, ?_, rfl⟩
    by_cases hnone : s.held 0 = []
    · have hno : ¬ owHasErrors s = true := fun hs => owHasErrors_iff.mp hs hnone
      rw [perform, if_neg hno, if_pos hnone]
    · rw [perform, if_pos (owHasErrors_iff.mpr hnone), if_neg hnone]
  | getErrorNum =>
    cases hheld : s.held 0 with
    | nil =>
      rw [hheld] at h
      cases h
    | cons err rest =>
      rw [hheld] at h
      cases h
      obtain ⟨htop, hrest⟩ := held_pop hheld
      refine ⟨s.pop 0, ?_, hrest⟩
      rw [perform, owGetErrorNum, htop]
  | clearError =>
    cases h
    exact ⟨_, rfl, held_put⟩
  | dump =>
    cases h
    exact ⟨s', hs', hempty⟩
  | clear =>
    cases h
    refine ⟨s', ?_, hempty⟩
    rw [perform, hs']
    rfl

/-- Every run of calls that the comments speak of. -/
theorem run_meant (hrounds : sizeOwerrorStack < rounds)
    (h : run meant acts (s.held 0) = some (shown, held')) :
    ∃ s', run (perform rounds) acts s = some (shown, s') ∧ s'.held 0 = held' := by
  induction acts generalizing s shown with
  | nil =>
    cases h
    exact ⟨s, rfl, rfl⟩
  | cons act acts ih =>
    obtain ⟨⟨first, held₁⟩, hfirst, h⟩ := Option.bind_eq_some_iff.mp h
    obtain ⟨⟨rest, held₂⟩, hrest, h⟩ := Option.bind_eq_some_iff.mp h
    cases h
    obtain ⟨s₁, hs₁, hheld₁⟩ := perform_meant hrounds hfirst
    rw [← hheld₁] at hrest
    obtain ⟨s₂, hs₂, hheld₂⟩ := ih hrest
    refine ⟨s₂, ?_, hheld₂⟩
    rw [run, hs₁]
    change (run (perform rounds) acts s₁ >>= _) = _
    rw [hs₂]
    rfl

/-- From the start of the program what is printed and returned are the errors of the stack. -/
theorem errors_meant (hrounds : sizeOwerrorStack < rounds)
    (h : run meant acts [] = some (shown, held')) :
    ∃ s', run (perform rounds) acts noErrors = some (shown, s') ∧ s'.held 0 = held' := by
  have hnone : noErrors.held 0 = [] := held_eq_nil.mpr rfl
  apply run_meant hrounds
  rw [hnone]
  exact h

end

/-- Three errors of which two are cleared, then twelve more. -/
def manyErrors : List Act :=
  [.raise 2, .raise 4, .clearError, .raise 6, .getErrorNum, .hasErrors] ++
    (List.range 12).map (fun n => .raise (n + 1)) ++ [.dump, .hasErrors]

theorem errors_manyErrors : ∃ s', run (perform 11) manyErrors noErrors =
    some ([6, 0, 12, 11, 10, 9, 8, 7, 6, 5, 4, 3, 0], s') ∧ s'.held 0 = [] :=
  errors_meant (by decide) (by decide +kernel)

end W1Retap.Bus.Errors
