import Mathlib

/-!
# Values in SQL statements

A reader for the values of a statement as MySQL takes them: numbers, and strings between
apostrophes, where two apostrophes stand for one and a backslash changes the meaning of what
follows it, except before a percent sign or an underscore, where both stay.
-/
namespace W1Retap.SqlText

/-! ## The reader -/

/-- What stands for a character behind a backslash. -/
def unescape : Char → Char
  | '0' => '\x00'
  | 'b' => '\x08'
  | 'n' => '\n'
  | 'r' => '\r'
  | 't' => '\t'
  | 'Z' => '\x1a'
  | c => c

/-- The rest of a string behind its opening apostrophe, and what follows it. -/
def readString : List Char → Option (List Char × List Char)
  | [] => none
  | '\'' :: '\'' :: s => (readString s).map fun p => ('\'' :: p.1, p.2)
  | '\'' :: s => some ([], s)
  | '\\' :: '%' :: s => (readString s).map fun p => ('\\' :: '%' :: p.1, p.2)
  | '\\' :: '_' :: s => (readString s).map fun p => ('\\' :: '_' :: p.1, p.2)
  | '\\' :: c :: s => (readString s).map fun p => (unescape c :: p.1, p.2)
  | ['\\'] => none
  | c :: s => (readString s).map fun p => (c :: p.1, p.2)

inductive Value where
  | string (s : List Char)
  | number (s : List Char)
  deriving DecidableEq, Repr

def endsNumber (c : Char) : Bool := c == ',' || c == ')'

def readValue : List Char → Option (Value × List Char)
  | '\'' :: s => (readString s).map fun p => (.string p.1, p.2)
  | s => some (.number (s.takeWhile (!endsNumber ·)), s.dropWhile (!endsNumber ·))

/-- The values up to the closing parenthesis, with which the statement ends. -/
def readValues : ℕ → List Char → Option (List Value)
  | 0, _ => none
  | fuel + 1, s => do
    let (v, rest) ← readValue s
    match rest with
    | ',' :: rest => return v :: (← readValues fuel rest)
    | [')'] => return [v]
    | _ => none

/-! ## Texts that come back -/

/-- No apostrophe, and no backslash but before a percent sign or an underscore. -/
def Clean : List Char → Prop
  | [] => True
  | '\'' :: _ => False
  | '\\' :: '%' :: s => Clean s
  | '\\' :: '_' :: s => Clean s
  | '\\' :: _ => False
  | _ :: s => Clean s

section
variable {s u r more : List Char} {x : Char}

theorem readString_close (hx : x ≠ '\'') : readString ('\'' :: x :: more) = some ([], x :: more) := by
  rw [readString]
  exact fun _ h => hx (List.cons.inj h).1

theorem readString_cons {d : Char} (hquote : d ≠ '\'') (hslash : d ≠ '\\') :
    readString (d :: s) = (readString s).map fun p => (d :: p.1, p.2) := by
  rw [readString]
  · exact fun _ h => absurd h hquote
  · exact hquote
  · exact fun _ h => absurd h hslash
  · exact fun _ h => absurd h hslash
  · exact fun _ _ h => absurd h hslash
  · exact fun h => absurd h hslash

theorem clean_cons {d : Char} (hquote : d ≠ '\'') (hslash : d ≠ '\\') : Clean (d :: s) = Clean s := by
  rw [Clean]
  · exact hquote
  · exact fun _ h => absurd h hslash
  · exact fun _ h => absurd h hslash
  · exact hslash

/-- A backslash must stand before one of the two. -/
theorem clean_slash {d : Char} : Clean ('\\' :: d :: s) ↔ (d = '%' ∨ d = '_') ∧ Clean s := by
  by_cases hpercent : d = '%'
  · subst hpercent
    simp [Clean]
  · by_cases hunder : d = '_'
    · subst hunder
      simp [Clean]
    · refine iff_of_false (fun h => ?_) fun h => h.1.elim hpercent hunder
      rw [Clean] at h
      · exact h
      · exact fun _ h => hpercent (List.cons.inj h).1
      · exact fun _ h => hunder (List.cons.inj h).1

theorem readString_clean (hx : x ≠ '\'') : ∀ c : List Char, Clean c →
    readString (c ++ '\'' :: x :: more) = some (c, x :: more)
  | [], _ => readString_close hx
  | [d], hc => by
    by_cases hquote : d = '\''
    · subst hquote
      exact absurd hc id
    · by_cases hslash : d = '\\'
      · subst hslash
        exact absurd hc id
      · rw [List.singleton_append, readString_cons hquote hslash, readString_close hx]
        rfl
  | d :: e :: c, hc => by
    by_cases hquote : d = '\''
    · subst hquote
      exact absurd hc id
    · by_cases hslash : d = '\\'
      · subst hslash
        obtain ⟨he, hclean⟩ := clean_slash.mp hc
        have hrest := readString_clean hx c hclean
        rcases he with rfl | rfl
        · exact congrArg (Option.map fun p => ('\\' :: '%' :: p.1, p.2)) hrest
        · exact congrArg (Option.map fun p => ('\\' :: '_' :: p.1, p.2)) hrest
      · rw [clean_cons hquote hslash] at hc
        rw [List.cons_append, readString_cons hquote hslash, readString_clean hx (e :: c) hc]
        rfl

/-- What was read is at most as long as its text, and only clean texts are as long. -/
theorem readString_raw (h : readString s = some (u, r)) :
    ∃ raw, s = raw ++ '\'' :: r ∧ u.length ≤ raw.length ∧ (u.length = raw.length → Clean raw) := by
  induction s using readString.induct generalizing u with
  | case1 => exact nomatch h
  | case2 s ih =>
    obtain ⟨p, hp, heq⟩ := Option.map_eq_some_iff.mp h
    obtain ⟨rfl, rfl⟩ := Prod.mk.inj heq
    obtain ⟨raw, rfl, hle, -⟩ := ih hp
    refine ⟨'\'' :: '\'' :: raw, rfl, ?_, fun hlen => ?_⟩
    · simp only [List.length_cons]
      omega
    · simp only [List.length_cons] at hlen
      omega
  | case3 s hs =>
    have hclose : readString ('\'' :: s) = some ([], s) := by rw [readString]; exact hs
    obtain ⟨rfl, rfl⟩ := Prod.mk.inj (Option.some.inj (hclose.symm.trans h))
    exact ⟨[], rfl, le_rfl, fun _ => trivial⟩
  | case4 s ih =>
    obtain ⟨p, hp, heq⟩ := Option.map_eq_some_iff.mp h
    obtain ⟨rfl, rfl⟩ := Prod.mk.inj heq
    obtain ⟨raw, rfl, hle, hclean⟩ := ih hp
    refine ⟨'\\' :: '%' :: raw, rfl, by simpa using hle, fun hlen => ?_⟩
    exact clean_slash.mpr ⟨Or.inl rfl, hclean (by simpa using hlen)⟩
  | case5 s ih =>
    obtain ⟨p, hp, heq⟩ := Option.map_eq_some_iff.mp h
    obtain ⟨rfl, rfl⟩ := Prod.mk.inj heq
    obtain ⟨raw, rfl, hle, hclean⟩ := ih hp
    refine ⟨'\\' :: '_' :: raw, rfl, by simpa using hle, fun hlen => ?_⟩
    exact clean_slash.mpr ⟨Or.inr rfl, hclean (by simpa using hlen)⟩
  | case6 c s h₁ h₂ ih =>
    have hescape : readString ('\\' :: c :: s) = (readString s).map fun p => (unescape c :: p.1, p.2) := by
      rw [readString]
      · exact fun heq => h₁ heq
      · exact fun heq => h₂ heq
    obtain ⟨p, hp, heq⟩ := Option.map_eq_some_iff.mp (hescape.symm.trans h)
    obtain ⟨rfl, rfl⟩ := Prod.mk.inj heq
    obtain ⟨raw, rfl, hle, -⟩ := ih hp
    refine ⟨'\\' :: c :: raw, rfl, ?_, fun hlen => ?_⟩
    · simp only [List.length_cons]
      omega
    · simp only [List.length_cons] at hlen
      omega
  | case7 => exact nomatch h
  | case8 c s h₁ h₂ h₃ h₄ h₅ h₆ ih =>
    have hslash : c ≠ '\\' := by
      rintro rfl
      cases s with
      | nil => exact h₆ rfl rfl
      | cons d s => exact h₅ d s rfl rfl
    obtain ⟨p, hp, heq⟩ := Option.map_eq_some_iff.mp ((readString_cons h₂ hslash).symm.trans h)
    obtain ⟨rfl, rfl⟩ := Prod.mk.inj heq
    obtain ⟨raw, rfl, hle, hclean⟩ := ih hp
    refine ⟨c :: raw, rfl, by simpa using hle, fun hlen => ?_⟩
    rw [clean_cons h₂ hslash]
    exact hclean (by simpa using hlen)

/-- A text that comes back in front of the last apostrophe is clean. -/
theorem clean_of_readString {c : List Char} (hmore : '\'' ∉ more)
    (h : readString (c ++ '\'' :: more) = some (c, r)) : Clean c := by
  obtain ⟨raw, heq, hle, hclean⟩ := readString_raw h
  have hraw : raw = c := by
    rcases List.append_eq_append_iff.mp heq with ⟨mid, rfl, hmid⟩ | ⟨mid, rfl, hmid⟩
    · cases mid with
      | nil => exact List.append_nil c
      | cons d mid =>
        refine absurd ?_ hmore
        rw [List.cons_append] at hmid
        rw [(List.cons.inj hmid).2]
        simp
    · have hnil : mid = [] := List.length_eq_zero_iff.mp (by rw [List.length_append] at hle; omega)
      rw [hnil, List.append_nil]
  exact hraw ▸ hclean (congrArg List.length hraw.symm)

end

/-! ## Statements -/

def Value.written : Value → List Char
  | .string s => '\'' :: (s ++ ['\''])
  | .number s => s

/-- A number has no character with a meaning. -/
def Value.Proper : Value → Prop
  | .string _ => True
  | .number s => ∀ c ∈ s, c ≠ '\'' ∧ endsNumber c = false

section
variable {v : Value} {more r : List Char} {x : Char}

theorem readValue_string {s : List Char} (hs : Clean s) (hx : x ≠ '\'') :
    readValue ((Value.string s).written ++ x :: more) = some (.string s, x :: more) := by
  have hassoc : (Value.string s).written ++ x :: more = '\'' :: (s ++ '\'' :: x :: more) := by
    simp [Value.written]
  rw [hassoc, readValue, readString_clean hx s hs]
  rfl

/-- A string that comes back is clean. -/
theorem clean_of_readValue {s : List Char} (hmore : '\'' ∉ more)
    (h : readValue ((Value.string s).written ++ more) = some (.string s, r)) : Clean s := by
  have hassoc : (Value.string s).written ++ more = '\'' :: (s ++ '\'' :: more) := by
    simp [Value.written]
  rw [hassoc, readValue] at h
  obtain ⟨p, hp, heq⟩ := Option.map_eq_some_iff.mp h
  obtain ⟨hs, -⟩ := Prod.mk.inj heq
  have hpair : p = (s, p.2) := Prod.ext (Value.string.inj hs) rfl
  rw [hpair] at hp
  exact clean_of_readString hmore hp

theorem readValue_number {s : List Char} (hproper : (Value.number s).Proper) (hx : endsNumber x = true) :
    readValue (s ++ x :: more) = some (.number s, x :: more) := by
  have hhead : ∀ t, s ++ x :: more ≠ '\'' :: t := by
    intro t h
    cases s with
    | nil =>
      rw [(List.cons.inj h).1] at hx
      exact absurd hx (by decide)
    | cons d s => exact (hproper d List.mem_cons_self).1 (List.cons.inj h).1
  have hpos : ∀ c ∈ s, (!endsNumber c) = true := fun c hc => by rw [(hproper c hc).2]; rfl
  rw [readValue]
  · rw [List.takeWhile_append_of_pos hpos, List.dropWhile_append_of_pos hpos,
      List.takeWhile_cons_of_neg (by simp [hx]), List.dropWhile_cons_of_neg (by simp [hx]), List.append_nil]
  · exact hhead

theorem readValues_comma {fuel : ℕ} {s : List Char} (h : readValue s = some (v, ',' :: more)) :
    readValues (fuel + 1) s = (readValues fuel more).map (v :: ·) := by
  rw [readValues, h]
  change (readValues fuel more).bind (fun vs => some (v :: vs)) = _
  cases readValues fuel more <;> rfl

theorem readValues_last {fuel : ℕ} {s : List Char} (h : readValue s = some (v, [')'])) :
    readValues (fuel + 1) s = some [v] := by
  rw [readValues, h]
  rfl

theorem readValue_of_readValues {fuel : ℕ} {s : List Char} {vs : List Value}
    (h : readValues fuel s = some (v :: vs)) : ∃ rest, readValue s = some (v, rest) := by
  cases fuel with
  | zero => exact nomatch h
  | succ fuel =>
    rw [readValues] at h
    obtain ⟨⟨w, rest⟩, hvalue, h⟩ := Option.bind_eq_some_iff.mp h
    have hw : w = v := by
      dsimp only at h
      split at h
      · obtain ⟨values, -, heq⟩ := Option.bind_eq_some_iff.mp h
        exact (List.cons.inj (Option.some.inj heq)).1
      · exact (List.cons.inj (Option.some.inj h)).1
      · exact nomatch h
    exact ⟨rest, hw ▸ hvalue⟩

end
end W1Retap.SqlText
