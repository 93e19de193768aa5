import Mathlib

/-!
# Comma separated values

A reader for one record: fields are separated by commas, and a field in quotes may hold
everything, with two quotes for one. A writer that puts its texts between quotes as they are is read
back exactly when none of them has a quote.
-/
namespace W1Retap.Csv

/-! ## The reader -/

/-- The rest of a field behind its opening quote, and what follows the field. -/
def readQuoted : List Char → Option (List Char × List Char)
  | [] => none
  | '"' :: '"' :: s => (readQuoted s).map fun p => ('"' :: p.1, p.2)
  | '"' :: s => some ([], s)
  | c :: s => (readQuoted s).map fun p => (c :: p.1, p.2)

/-- What a field without quotes is made of. -/
def isText (c : Char) : Bool := !(c == ',' || c == '"' || c == '\n' || c == '\r')

def readField : List Char → Option (List Char × List Char)
  | '"' :: s => readQuoted s
  | s => some (s.takeWhile isText, s.dropWhile isText)

/-- The fields of a record that ends with the text. -/
def readRecord : ℕ → List Char → Option (List (List Char))
  | 0, _ => none
  | fuel + 1, s => do
    let (field, rest) ← readField s
    match rest with
    | ',' :: rest => return field :: (← readRecord fuel rest)
    | [] | ['\n'] | ['\r', '\n'] => return [field]
    | _ => none

/-! ## The writer -/

/-- A field of a writer, which quotes texts and writes numbers as they are. -/
inductive Cell where
  | text (s : List Char)
  | number (s : List Char)

def Cell.content : Cell → List Char
  | .text s | .number s => s

def Cell.written : Cell → List Char
  | .text s => '"' :: (s ++ ['"'])
  | .number s => s

/-- A number has no character with a meaning. -/
def Cell.Proper : Cell → Prop
  | .text _ => True
  | .number s => ∀ c ∈ s, isText c = true

/-- A text can be read back. -/
def Cell.Plain : Cell → Prop
  | .text s => '"' ∉ s
  | .number _ => True

def record : List Cell → List Char
  | [] => ['\n']
  | [cell] => cell.written ++ ['\n']
  | cell :: cells => cell.written ++ ',' :: record cells

theorem record_cons (cell : Cell) (cells : List Cell) :
    record (cell :: cells) = cell.written ++ cells.flatMap (fun c => ',' :: c.written) ++ ['\n'] := by
  induction cells generalizing cell with
  | nil => rw [record, List.flatMap_nil, List.append_nil]
  | cons next cells ih =>
    rw [record, ih, List.flatMap_cons]
    · simp only [List.append_assoc, List.cons_append]
    · exact List.cons_ne_nil _ _

theorem length_le_record (cells : List Cell) : cells.length ≤ (record cells).length := by
  induction cells with
  | nil => exact Nat.zero_le _
  | cons cell cells ih =>
    cases cells with
    | nil => simp [record]
    | cons next cells =>
      rw [record, List.length_append, List.length_cons, List.length_cons (a := ',')]
      · omega
      · exact List.cons_ne_nil _ _

section
variable {c s more u r : List Char} {x : Char}

theorem readQuoted_cons (hx : x ≠ '"') :
    readQuoted (x :: s) = (readQuoted s).map fun p => (x :: p.1, p.2) := by
  rw [readQuoted]
  · exact fun _ h => absurd h hx
  · exact hx

theorem readQuoted_double : readQuoted ('"' :: '"' :: s) = (readQuoted s).map fun p => ('"' :: p.1, p.2) := rfl

theorem readQuoted_close (hx : x ≠ '"') : readQuoted ('"' :: x :: s) = some ([], x :: s) := by
  rw [readQuoted]
  exact fun _ h => hx (List.cons.inj h).1

theorem readQuoted_plain (hc : '"' ∉ c) (hx : x ≠ '"') :
    readQuoted (c ++ '"' :: x :: more) = some (c, x :: more) := by
  induction c with
  | nil => exact readQuoted_close hx
  | cons d c ih =>
    obtain ⟨hd, hc⟩ := not_or.mp (mt List.mem_cons.mpr hc)
    rw [List.cons_append, readQuoted_cons (Ne.symm hd), ih hc]
    rfl

/-- Quotes that are missing from what is left of the text never turn up. -/
theorem readQuoted_ne (hx : x ≠ '"') : ∀ (c : List Char) (k : ℕ),
    readQuoted (c ++ '"' :: x :: more) ≠ some (List.replicate (k + 1) '"' ++ c, r)
  | [], k => by
    intro h
    rw [List.nil_append, readQuoted_close hx] at h
    exact nomatch congrArg (fun p : Option (List Char × List Char) => p.map (·.1.length)) h
  | [d], k => by
    intro h
    by_cases hd : d = '"'
    · subst hd
      rw [List.singleton_append, readQuoted_double, readQuoted_cons hx, Option.map_map] at h
      obtain ⟨p, -, hp⟩ := Option.map_eq_some_iff.mp h
      have htail := (List.cons.inj (Prod.mk.inj hp).1).2
      cases k with
      | zero => exact hx (List.cons.inj htail).1
      | succ k => exact hx (List.cons.inj htail).1
    · rw [List.singleton_append, readQuoted_cons hd] at h
      obtain ⟨p, -, hp⟩ := Option.map_eq_some_iff.mp h
      exact hd (List.cons.inj (Prod.mk.inj hp).1).1
  | d :: e :: c, k => by
    intro h
    by_cases hd : d = '"'
    · subst hd
      by_cases he : e = '"'
      · subst he
        rw [List.cons_append, List.cons_append, readQuoted_double] at h
        obtain ⟨p, hp, hmap⟩ := Option.map_eq_some_iff.mp h
        obtain ⟨hfirst, hrest⟩ := Prod.mk.inj hmap
        have hquotes : p.1 = List.replicate (k + 2) '"' ++ c := by
          rw [List.replicate_succ, List.cons_append] at hfirst
          rw [(List.cons.inj hfirst).2, List.replicate_add]
          simp [List.replicate]
        refine readQuoted_ne hx c (k + 1) (hp.trans ?_)
        rw [← hquotes, ← hrest]
      · rw [List.cons_append, List.cons_append, readQuoted_close he] at h
        exact nomatch congrArg (fun p : Option (List Char × List Char) => p.map (·.1.length)) h
    · rw [List.cons_append, readQuoted_cons hd] at h
      obtain ⟨p, -, hp⟩ := Option.map_eq_some_iff.mp h
      exact hd (List.cons.inj (Prod.mk.inj hp).1).1

/-- A text that comes back has no quote. -/
theorem notMem_of_readQuoted (hx : x ≠ '"') : ∀ c : List Char,
    readQuoted (c ++ '"' :: x :: more) = some (c, r) → '"' ∉ c
  | [], _ => List.not_mem_nil
  | [d], h => by
    by_cases hd : d = '"'
    · subst hd
      rw [List.singleton_append, readQuoted_double, readQuoted_cons hx, Option.map_map] at h
      obtain ⟨p, -, hp⟩ := Option.map_eq_some_iff.mp h
      exact nomatch (List.cons.inj (Prod.mk.inj hp).1).2
    · exact fun hmem => hd (List.mem_singleton.mp hmem).symm
  | d :: e :: c, h => by
    by_cases hd : d = '"'
    · subst hd
      by_cases he : e = '"'
      · subst he
        rw [List.cons_append, List.cons_append, readQuoted_double] at h
        obtain ⟨p, hp, hmap⟩ := Option.map_eq_some_iff.mp h
        obtain ⟨hfirst, hrest⟩ := Prod.mk.inj hmap
        refine absurd (hp.trans ?_) (readQuoted_ne hx c 0 (r := r))
        rw [← hrest]
        exact congrArg some (Prod.ext (List.cons.inj hfirst).2 rfl)
      · rw [List.cons_append, List.cons_append, readQuoted_close he] at h
        exact nomatch congrArg (fun p : Option (List Char × List Char) => p.map (·.1.length)) h
    · rw [List.cons_append, readQuoted_cons hd] at h
      obtain ⟨p, hp, hmap⟩ := Option.map_eq_some_iff.mp h
      obtain ⟨hfirst, hrest⟩ := Prod.mk.inj hmap
      have hread : readQuoted (e :: c ++ '"' :: x :: more) = some (e :: c, r) := by
        rw [hp, ← hrest, ← (List.cons.inj hfirst).2]
      intro hmem
      rcases List.mem_cons.mp hmem with heq | hmem
      · exact hd heq.symm
      · exact notMem_of_readQuoted hx (e :: c) hread hmem

end

/-! ## Fields -/

section
variable {cell : Cell} {cells : List Cell} {x : Char} {more : List Char}

/-- What may follow a field. -/
def Stops (x : Char) : Prop := x ≠ '"' ∧ isText x = false

theorem stops_comma : Stops ',' := ⟨by decide, rfl⟩

theorem stops_newline : Stops '\n' := ⟨by decide, rfl⟩

theorem readField_plain (hproper : cell.Proper) (hplain : cell.Plain) (hx : Stops x) :
    readField (cell.written ++ x :: more) = some (cell.content, x :: more) := by
  cases cell with
  | text s =>
    have hassoc : (Cell.text s).written ++ x :: more = '"' :: (s ++ '"' :: x :: more) := by simp [Cell.written]
    rw [hassoc, readField, readQuoted_plain hplain hx.1]
    rfl
  | number s =>
    have hhead : ∀ t, (Cell.number s).written ++ x :: more ≠ '"' :: t := by
      intro t h
      cases s with
      | nil => exact hx.1 (List.cons.inj h).1
      | cons d s =>
        have hd := hproper d List.mem_cons_self
        rw [(List.cons.inj h).1] at hd
        exact absurd hd (by decide)
    rw [readField]
    · rw [Cell.written, List.takeWhile_append_of_pos hproper, List.dropWhile_append_of_pos hproper,
        List.takeWhile_cons_of_neg (by simp [hx.2]), List.dropWhile_cons_of_neg (by simp [hx.2]), List.append_nil]
      rfl
    · exact hhead

/-- A field that comes back is plain. -/
theorem plain_of_readField {r : List Char} (hx : Stops x)
    (h : readField (cell.written ++ x :: more) = some (cell.content, r)) : cell.Plain := by
  cases cell with
  | text s =>
    have hassoc : (Cell.text s).written ++ x :: more = '"' :: (s ++ '"' :: x :: more) := by simp [Cell.written]
    rw [hassoc, readField] at h
    exact notMem_of_readQuoted hx.1 s h
  | number s => trivial

theorem readField_of_readRecord {fuel : ℕ} {s f : List Char} {fs : List (List Char)}
    (h : readRecord fuel s = some (f :: fs)) : ∃ r, readField s = some (f, r) := by
  cases fuel with
  | zero => exact nomatch h
  | succ fuel =>
    rw [readRecord] at h
    obtain ⟨⟨g, r⟩, hfield, h⟩ := Option.bind_eq_some_iff.mp h
    have hg : g = f := by
      dsimp only at h
      split at h
      · obtain ⟨fields, -, heq⟩ := Option.bind_eq_some_iff.mp h
        exact (List.cons.inj (Option.some.inj heq)).1
      all_goals
        first
        | exact (List.cons.inj (Option.some.inj h)).1
        | exact nomatch h
    exact ⟨r, hg ▸ hfield⟩

/-- The records that are read back. -/
theorem readRecord_record_iff (hne : cells ≠ []) (hproper : ∀ cell ∈ cells, cell.Proper) {fuel : ℕ}
    (hfuel : cells.length ≤ fuel) :
    readRecord fuel (record cells) = some (cells.map Cell.content) ↔ ∀ cell ∈ cells, cell.Plain := by
  induction cells generalizing fuel with
  | nil => exact absurd rfl hne
  | cons cell cells ih =>
    obtain ⟨fuel, rfl⟩ := Nat.exists_eq_add_of_le' (lt_of_lt_of_le (Nat.succ_pos cells.length) hfuel)
    have hcell := hproper cell List.mem_cons_self
    cases cells with
    | nil =>
      have hback : cell.Plain → readRecord (fuel + 1) (record [cell]) = some [cell.content] := by
        intro hplain
        rw [record, readRecord, readField_plain hcell hplain stops_newline]
        rfl
      rw [List.forall_mem_singleton]
      refine ⟨fun h => ?_, hback⟩
      obtain ⟨r, hfield⟩ := readField_of_readRecord h
      exact plain_of_readField stops_newline hfield
    | cons next cells =>
      have hrest := ih (List.cons_ne_nil _ _) (fun c hc => hproper c (List.mem_cons_of_mem _ hc))
        (Nat.le_of_succ_le_succ hfuel)
      have hstep : cell.Plain → readRecord (fuel + 1) (record (cell :: next :: cells)) =
          (readRecord fuel (record (next :: cells))).map (cell.content :: ·) := by
        intro hplain
        rw [record, readRecord, readField_plain hcell hplain stops_comma]
        · change (readRecord fuel (record (next :: cells))).bind (fun fs => some (cell.content :: fs)) = _
          cases readRecord fuel (record (next :: cells)) <;> rfl
        · exact List.cons_ne_nil _ _
      rw [List.forall_mem_cons, ← hrest]
      constructor
      · intro h
        have hplain : cell.Plain := by
          obtain ⟨r, hfield⟩ := readField_of_readRecord h
          rw [record] at hfield
          · exact plain_of_readField stops_comma hfield
          · exact List.cons_ne_nil _ _
        rw [hstep hplain] at h
        obtain ⟨fields, hfields, heq⟩ := Option.map_eq_some_iff.mp h
        refine ⟨hplain, hfields.trans ?_⟩
        rw [(List.cons.inj heq).2]
      · rintro ⟨hplain, hfields⟩
        rw [hstep hplain, hfields]
        rfl

end
end W1Retap.Csv
