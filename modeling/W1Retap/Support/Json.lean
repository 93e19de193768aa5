import W1Retap.Support.Printf

/-!
# Objects of numbers

A reader for JSON objects whose members are numbers, and what such a reader makes of text that
was put together without escapes.
-/
namespace W1Retap.Json

open CStrings Printf

/-! ## Reading -/

def isWs (c : Char) : Bool := c == ' ' || c == '\t' || c == '\n' || c == '\r'

def skipWs (s : List Char) : List Char := s.dropWhile isWs

/-- Four hexadecimal digits. -/
def readHex4 : List Char → Option (ℕ × List Char)
  | a :: b :: c :: d :: s =>
    if [a, b, c, d].all isxdigit then some ([a, b, c, d].foldl (fun v c => 16 * v + digitVal c) 0, s)
    else none
  | _ => none

/-- The character of `\u`; those beyond 16 bits take a pair of surrogates. -/
def readUnicode (s : List Char) : Option (Char × List Char) := do
  let (hi, s) ← readHex4 s
  if 0xD800 ≤ hi ∧ hi < 0xDC00 then
    match s with
    | '\\' :: 'u' :: s => do
      let (lo, s) ← readHex4 s
      if 0xDC00 ≤ lo ∧ lo < 0xE000 then
        some (Char.ofNat (0x10000 + (hi - 0xD800) * 0x400 + (lo - 0xDC00)), s)
      else none
    | _ => none
  else if 0xDC00 ≤ hi ∧ hi < 0xE000 then none
  else some (Char.ofNat hi, s)

/-- What follows a backslash. -/
def readEscape : List Char → Option (Char × List Char)
  | [] => none
  | c :: s =>
    match c with
    | '"' => some ('"', s)
    | '\\' => some ('\\', s)
    | '/' => some ('/', s)
    | 'b' => some ('\x08', s)
    | 'f' => some ('\x0c', s)
    | 'n' => some ('\n', s)
    | 'r' => some ('\r', s)
    | 't' => some ('\t', s)
    | 'u' => readUnicode s
    | _ => none

/-- A string after its opening quote, up to the closing one. -/
def readString : ℕ → List Char → Option (List Char × List Char)
  | 0, _ => none
  | _ + 1, [] => none
  | fuel + 1, c :: s =>
    if c = '"' then some ([], s)
    else if c = '\\' then do
      let (d, s) ← readEscape s
      let (ds, s) ← readString fuel s
      return (d :: ds, s)
    else if c.toNat < 32 then none
    else do
      let (ds, s) ← readString fuel s
      return (c :: ds, s)

/-- A name and its number. -/
def readMember (s : List Char) : Option ((List Char × ℚ) × List Char) :=
  match skipWs s with
  | '"' :: s => do
    let (key, s) ← readString s.length s
    match skipWs s with
    | ':' :: s => do
      let (x, s) ← readNumber (skipWs s)
      return ((key, x), s)
    | _ => none
  | _ => none

/-- Members up to the closing brace. -/
def readMembers : ℕ → List Char → Option (List (List Char × ℚ) × List Char)
  | 0, _ => none
  | fuel + 1, s => do
    let (m, s) ← readMember s
    match skipWs s with
    | ',' :: s => do
      let (ms, s) ← readMembers fuel s
      return (m :: ms, s)
    | '}' :: s => return ([m], s)
    | _ => none

/-- The members of an object. -/
def readObject (s : List Char) : Option (List (List Char × ℚ)) :=
  match skipWs s with
  | '{' :: s =>
    match skipWs s with
    | '}' :: s => if skipWs s = [] then some [] else none
    | s => do
      let (ms, s) ← readMembers s.length s
      if skipWs s = [] then some ms else none
  | _ => none

/-! ## Writing without escapes -/

/-- The text of a member. -/
def member (m : List Char × Numeral) : List Char := '"' :: m.1 ++ '"' :: ':' :: m.2.text

/-- Members with commas between them, and a brace at the end. -/
def members : List (List Char × Numeral) → List Char
  | [] => ['}']
  | [m] => member m ++ ['}']
  | m :: ms => member m ++ ',' :: members ms

/-- Characters that stand for themselves in a string. -/
def Plain (s : List Char) : Prop := ∀ c ∈ s, c ≠ '"' ∧ c ≠ '\\' ∧ 32 ≤ c.toNat

/-! ## Strings -/

section
variable {a s t k r : List Char} {d : Char} {fuel : ℕ}

/-- `r` is left of `s`, and no quote was passed. -/
def Passes (s r : List Char) : Prop := ∃ u, s = u ++ r ∧ '"' ∉ u

theorem readHex4_passes {v : ℕ} (h : readHex4 s = some (v, r)) : Passes s r := by
  unfold readHex4 at h
  split at h
  · rename_i c₁ c₂ c₃ c₄ s'
    by_cases hx : [c₁, c₂, c₃, c₄].all isxdigit = true
    · rw [if_pos hx] at h
      obtain ⟨-, rfl⟩ := Prod.mk.inj (Option.some.inj h)
      refine ⟨[c₁, c₂, c₃, c₄], rfl, fun hquote => ?_⟩
      have hdigit := List.all_eq_true.mp hx _ hquote
      exact absurd hdigit (by decide)
    · rw [if_neg hx] at h
      cases h
  · cases h

theorem Passes.trans (h : Passes s t) (h' : Passes t r) : Passes s r := by
  obtain ⟨u, rfl, hu⟩ := h
  obtain ⟨v, rfl, hv⟩ := h'
  refine ⟨u ++ v, by rw [List.append_assoc], fun hquote => ?_⟩
  rcases List.mem_append.mp hquote with hquote | hquote
  · exact hu hquote
  · exact hv hquote

theorem Passes.cons {c : Char} (hc : c ≠ '"') (h : Passes s r) : Passes (c :: s) r := by
  obtain ⟨u, rfl, hu⟩ := h
  refine ⟨c :: u, rfl, fun hquote => ?_⟩
  rcases List.mem_cons.mp hquote with heq | hquote
  · exact hc heq.symm
  · exact hu hquote

theorem readUnicode_passes (h : readUnicode s = some (d, r)) : Passes s r := by
  unfold readUnicode at h
  cases hhi : readHex4 s with
  | none => simp [hhi] at h
  | some p =>
    obtain ⟨hi, s₁⟩ := p
    have hfirst := readHex4_passes hhi
    simp only [hhi, Option.bind_eq_bind, Option.bind_some] at h
    by_cases hhigh : 0xD800 ≤ hi ∧ hi < 0xDC00
    · rw [if_pos hhigh] at h
      split at h
      · rename_i s₂
        cases hlo : readHex4 s₂ with
        | none => simp [hlo] at h
        | some p =>
          obtain ⟨lo, s₃⟩ := p
          simp only [hlo, Option.bind_some] at h
          by_cases hlow : 0xDC00 ≤ lo ∧ lo < 0xE000
          · rw [if_pos hlow] at h
            obtain ⟨-, rfl⟩ := Prod.mk.inj (Option.some.inj h)
            have hsecond := ((readHex4_passes hlo).cons (c := 'u') (by decide)).cons
              (c := '\\') (by decide)
            exact hfirst.trans hsecond
          · rw [if_neg hlow] at h
            cases h
      · cases h
    · rw [if_neg hhigh] at h
      by_cases hlow : 0xDC00 ≤ hi ∧ hi < 0xE000
      · rw [if_pos hlow] at h
        cases h
      · rw [if_neg hlow] at h
        obtain ⟨-, rfl⟩ := Prod.mk.inj (Option.some.inj h)
        exact hfirst

/-- An escape takes at least one character, and a quote only alone. -/
theorem readEscape_passes (h : readEscape s = some (d, r)) :
    s = '"' :: r ∨ ∃ c s', s = c :: s' ∧ c ≠ '"' ∧ Passes s' r := by
  cases s with
  | nil => cases h
  | cons c s =>
    by_cases hc : c = '"'
    · subst hc
      obtain ⟨-, rfl⟩ := Prod.mk.inj (Option.some.inj h)
      exact Or.inl rfl
    · refine Or.inr ⟨c, s, rfl, hc, ?_⟩
      unfold readEscape at h
      simp only at h
      split at h
      case h_9 => exact readUnicode_passes h
      case h_10 => cases h
      all_goals
        obtain ⟨-, rfl⟩ := Prod.mk.inj (Option.some.inj h)
        exact ⟨[], rfl, List.not_mem_nil⟩

/-- What is left when a reader has passed a part of `a`. -/
theorem Passes.split (h : Passes (a ++ '"' :: t) r) :
    ∃ u a', a = u ++ a' ∧ r = a' ++ '"' :: t := by
  obtain ⟨u, heq, hu⟩ := h
  rcases List.append_eq_append_iff.mp heq with ⟨a', rfl, hr⟩ | ⟨v, rfl, hv⟩
  · cases a' with
    | nil => exact ⟨a, [], by simp, by simpa using hr.symm⟩
    | cons c a' =>
      obtain ⟨rfl, -⟩ := List.cons.inj hr
      exact absurd (by simp) hu
  · exact ⟨u, v, rfl, hv⟩

/-- An escape takes the closing quote, or a part of `a`. -/
theorem readEscape_split (h : readEscape (a ++ '"' :: t) = some (d, r)) :
    (a = [] ∧ r = t) ∨ ∃ u a', a = u ++ a' ∧ u ≠ [] ∧ r = a' ++ '"' :: t := by
  cases a with
  | nil =>
    obtain ⟨-, rfl⟩ := Prod.mk.inj (Option.some.inj h)
    exact Or.inl ⟨rfl, rfl⟩
  | cons c a =>
    right
    rcases readEscape_passes h with heq | ⟨c', s', heq, -, hpasses⟩
    · obtain ⟨rfl, rfl⟩ := List.cons.inj heq
      exact ⟨['"'], a, rfl, List.cons_ne_nil _ _, rfl⟩
    · obtain ⟨rfl, rfl⟩ := List.cons.inj heq
      obtain ⟨u, a', rfl, rfl⟩ := hpasses.split
      exact ⟨c :: u, a', rfl, List.cons_ne_nil _ _, rfl⟩

theorem readString_plain (ha : Plain a) :
    readString fuel (a ++ '"' :: t) = if a.length < fuel then some (a, t) else none := by
  induction a generalizing fuel with
  | nil =>
    cases fuel with
    | zero => rfl
    | succ fuel => rfl
  | cons c a ih =>
    obtain ⟨⟨hquote, hback, hcontrol⟩, ha⟩ := List.forall_mem_cons.mp ha
    cases fuel with
    | zero => rfl
    | succ fuel =>
      rw [List.cons_append, readString, if_neg hquote, if_neg hback, if_neg (by omega), ih ha,
        List.length_cons]
      by_cases hfuel : a.length < fuel
      · rw [if_pos hfuel, if_pos (by omega)]
        rfl
      · rw [if_neg hfuel, if_neg (by omega)]
        rfl

/-- A string of plain characters does not end by itself. -/
theorem readString_unclosed (ha : Plain a) : readString fuel a = none := by
  induction a generalizing fuel with
  | nil => cases fuel <;> rfl
  | cons c a ih =>
    obtain ⟨⟨hquote, hback, hcontrol⟩, ha⟩ := List.forall_mem_cons.mp ha
    cases fuel with
    | zero => rfl
    | succ fuel =>
      rw [readString, if_neg hquote, if_neg hback, if_neg (by omega), ih ha]
      rfl

/-- What a reader makes of a string that was written without escapes: the string itself if it is
plain, less than that, or it goes on after the closing quote because of a backslash before it. -/
theorem readString_cases (h : readString fuel (a ++ '"' :: t) = some (k, r)) :
    (Plain a ∧ k = a ∧ r = t) ∨ k.length < a.length ∨
      (a.getLast? = some '\\' ∧ ∃ fuel ks k', readString fuel t = some (k', r) ∧ k = ks ++ k') := by
  induction fuel generalizing a k with
  | zero => cases h
  | succ fuel ih =>
    cases a with
    | nil =>
      obtain ⟨rfl, rfl⟩ := Prod.mk.inj (Option.some.inj h)
      exact Or.inl ⟨List.forall_mem_nil _, rfl, rfl⟩
    | cons c a =>
      rw [List.cons_append, readString] at h
      by_cases hquote : c = '"'
      · rw [if_pos hquote] at h
        obtain ⟨rfl, -⟩ := Prod.mk.inj (Option.some.inj h)
        exact Or.inr (Or.inl (Nat.succ_pos _))
      · rw [if_neg hquote] at h
        by_cases hback : c = '\\'
        · rw [if_pos hback] at h
          subst hback
          cases hesc : readEscape (a ++ '"' :: t) with
          | none => simp [hesc] at h
          | some p =>
            obtain ⟨d, s₁⟩ := p
            simp only [hesc, Option.bind_eq_bind, Option.bind_some] at h
            cases hrest : readString fuel s₁ with
            | none => simp [hrest] at h
            | some p =>
              obtain ⟨ds, r'⟩ := p
              simp only [hrest, Option.bind_some] at h
              obtain ⟨rfl, rfl⟩ := Prod.mk.inj (Option.some.inj h)
              rcases readEscape_split hesc with ⟨rfl, rfl⟩ | ⟨u, a', rfl, hu, rfl⟩
              · exact Or.inr (Or.inr ⟨rfl, fuel, [d], ds, hrest, rfl⟩)
              · have hlen := List.length_pos_iff.mpr hu
                rcases ih hrest with ⟨-, rfl, -⟩ | hlt | ⟨hlast, fuel', ks, k', hnext, rfl⟩
                · refine Or.inr (Or.inl ?_)
                  rw [List.length_cons, List.length_cons, List.length_append]
                  omega
                · refine Or.inr (Or.inl ?_)
                  rw [List.length_cons, List.length_cons, List.length_append]
                  omega
                · refine Or.inr (Or.inr ⟨?_, fuel', d :: ks, k', hnext, rfl⟩)
                  rw [← List.cons_append, List.getLast?_append, hlast, Option.some_or]
        · rw [if_neg hback] at h
          by_cases hcontrol : c.toNat < 32
          · rw [if_pos hcontrol] at h
            cases h
          · rw [if_neg hcontrol] at h
            cases hrest : readString fuel (a ++ '"' :: t) with
            | none => simp [hrest] at h
            | some p =>
              obtain ⟨ds, r'⟩ := p
              simp only [hrest, Option.bind_eq_bind, Option.bind_some] at h
              obtain ⟨rfl, rfl⟩ := Prod.mk.inj (Option.some.inj h)
              rcases ih hrest with ⟨hplain, rfl, rfl⟩ | hlt | ⟨hlast, fuel', ks, k', hnext, rfl⟩
              · refine Or.inl ⟨?_, rfl, rfl⟩
                exact List.forall_mem_cons.mpr ⟨⟨hquote, hback, by omega⟩, hplain⟩
              · exact Or.inr (Or.inl (Nat.succ_lt_succ hlt))
              · refine Or.inr (Or.inr ⟨?_, fuel', c :: ks, k', hnext, rfl⟩)
                rw [List.getLast?_cons, hlast, Option.getD_some]

/-- A name that is read back is plain, unless a string that starts behind it can end with a
backslash. -/
theorem readString_self
    (hpart : ∀ fuel k r, readString fuel t = some (k, r) → k.getLast? = some ',')
    (h : readString fuel (a ++ '"' :: t) = some (a, r)) : Plain a := by
  rcases readString_cases h with ⟨hplain, -, -⟩ | hlt | ⟨hlast, fuel', ks, k, hnext, heq⟩
  · exact hplain
  · exact absurd hlt (lt_irrefl _)
  · have hcomma := hpart fuel' k r hnext
    rw [heq, List.getLast?_append, hcomma, Option.some_or] at hlast
    exact absurd hlast (by decide)

/-! ## Members -/

theorem skipWs_cons {c : Char} (hc : isWs c = false) : skipWs (c :: s) = c :: s := by
  rw [skipWs, List.dropWhile_cons, hc]
  rfl

/-- What stands in a numeral. -/
theorem mem_text {n : Numeral} (hn : n.Proper) {c : Char} (hc : c ∈ n.text) :
    isdigit c = true ∨ c ∈ ['-', '+', '.', 'e'] := by
  simp only [Numeral.text, List.mem_append] at hc
  rcases hc with ((hc | hc) | hc) | hc
  · by_cases hneg : n.neg = true
    · rw [if_pos hneg] at hc
      rw [List.mem_singleton.mp hc]
      exact Or.inr (by decide)
    · rw [if_neg hneg] at hc
      cases hc
  · exact Or.inl (hn.int c hc)
  · by_cases hfrac : n.frac = []
    · rw [if_pos hfrac] at hc
      cases hc
    · rw [if_neg hfrac] at hc
      rcases List.mem_cons.mp hc with rfl | hc
      · exact Or.inr (by decide)
      · exact Or.inl (hn.frac c hc)
  · cases hexp : n.exp with
    | none =>
      rw [hexp] at hc
      cases hc
    | some e =>
      rw [hexp] at hc
      rcases List.mem_cons.mp hc with rfl | hc
      · exact Or.inr (by decide)
      · rcases List.mem_cons.mp hc with rfl | hc
        · split <;> exact Or.inr (by decide)
        · exact Or.inl (isdigit_padded c hc)

theorem char_text {n : Numeral} (hn : n.Proper) {c : Char} (hc : c ∈ n.text) :
    (c ≠ '"' ∧ c ≠ '\\' ∧ 32 ≤ c.toNat) ∧ isWs c = false := by
  rcases mem_text hn hc with hdigit | hsign
  · simp only [isdigit, Bool.and_eq_true, decide_eq_true_eq] at hdigit
    have hlow : 48 ≤ c.toNat := hdigit.1
    have hhigh : c.toNat ≤ 57 := hdigit.2
    have hne : ∀ d : Char, d.toNat < 48 ∨ 57 < d.toNat → c ≠ d := by
      rintro d hd rfl
      omega
    refine ⟨⟨hne _ (by decide), hne _ (by decide), by omega⟩, ?_⟩
    simp [isWs, hne ' ' (by decide), hne '\t' (by decide), hne '\n' (by decide),
      hne '\r' (by decide)]
  · fin_cases hsign <;> decide

theorem skipWs_text {n : Numeral} (hn : n.Proper) (rest : List Char) :
    skipWs (n.text ++ rest) = n.text ++ rest := by
  cases htext : n.text with
  | nil =>
    have hint : n.int = [] := by
      simp only [Numeral.text, List.append_eq_nil_iff] at htext
      exact htext.1.1.2
    exact absurd hint hn.ne
  | cons c cs =>
    have hc := (char_text hn (c := c) (htext ▸ List.mem_cons_self)).2
    exact skipWs_cons hc

/-- What follows a member: the brace, or the quote of the next one. -/
def Follows (rest : List Char) : Prop := rest = ['}'] ∨ ∃ more, rest = ',' :: '"' :: more

theorem Follows.ends {rest : List Char} (h : Follows rest) : Ends rest := by
  intro c cs heq
  rcases h with rfl | ⟨more, rfl⟩
  · obtain ⟨rfl, -⟩ := List.cons.inj heq
    decide
  · obtain ⟨rfl, -⟩ := List.cons.inj heq
    decide

theorem members_cons (m : List Char × Numeral) (ms : List (List Char × Numeral)) :
    ∃ rest, members (m :: ms) = member m ++ rest ∧ Follows rest ∧
      (ms = [] ∧ rest = ['}'] ∨ ms ≠ [] ∧ rest = ',' :: members ms) := by
  cases ms with
  | nil => exact ⟨['}'], rfl, Or.inl rfl, Or.inl ⟨rfl, rfl⟩⟩
  | cons m' ms =>
    refine ⟨',' :: members (m' :: ms), rfl, Or.inr ?_, Or.inr ⟨List.cons_ne_nil _ _, rfl⟩⟩
    cases ms with
    | nil => exact ⟨_, rfl⟩
    | cons m'' ms => exact ⟨_, rfl⟩

theorem readMember_plain {n : Numeral} {rest : List Char} (ha : Plain a) (hn : n.Proper)
    (hrest : Follows rest) : readMember (member (a, n) ++ rest) = some ((a, n.value), rest) := by
  have hassoc : member (a, n) ++ rest = '"' :: (a ++ '"' :: ':' :: (n.text ++ rest)) := by
    simp [member]
  have hlen : a.length < (a ++ '"' :: ':' :: (n.text ++ rest)).length := by
    rw [List.length_append, List.length_cons]
    omega
  rw [hassoc, readMember, skipWs_cons (by decide)]
  simp only [readString_plain ha, if_pos hlen, Option.bind_eq_bind, Option.bind_some,
    skipWs_cons (c := ':') (by decide), skipWs_text hn, readNumber_text hn hrest.ends]
  rfl

/-- The string that starts behind a name ends with a comma. -/
theorem readString_between {n : Numeral} {rest : List Char} (hn : n.Proper) (hrest : Follows rest)
    (h : readString fuel (':' :: (n.text ++ rest)) = some (k, r)) : k.getLast? = some ',' := by
  have hplain : ∀ c : Char, c ≠ '"' ∧ c ≠ '\\' ∧ 32 ≤ c.toNat → Plain (':' :: (n.text ++ [c])) := by
    intro c hc
    refine List.forall_mem_cons.mpr ⟨by decide, fun d hd => ?_⟩
    rcases List.mem_append.mp hd with hd | hd
    · exact (char_text hn hd).1
    · rw [List.mem_singleton.mp hd]
      exact hc
  rcases hrest with rfl | ⟨more, rfl⟩
  · rw [readString_unclosed (hplain '}' (by decide))] at h
    cases h
  · have hassoc : ':' :: (n.text ++ ',' :: '"' :: more) =
        (':' :: (n.text ++ [','])) ++ '"' :: more := by simp
    rw [hassoc, readString_plain (hplain ',' (by decide))] at h
    split at h
    · obtain ⟨rfl, -⟩ := Prod.mk.inj (Option.some.inj h)
      rw [← List.cons_append, List.getLast?_append]
      rfl
    · cases h

theorem plain_of_readMember {n : Numeral} {rest : List Char} {x : ℚ} (hn : n.Proper)
    (hrest : Follows rest) (h : readMember (member (a, n) ++ rest) = some ((a, x), r)) :
    Plain a := by
  have hassoc : member (a, n) ++ rest = '"' :: (a ++ '"' :: ':' :: (n.text ++ rest)) := by
    simp [member]
  rw [hassoc, readMember, skipWs_cons (by decide)] at h
  simp only [Option.bind_eq_bind] at h
  cases hkey : readString (a ++ '"' :: ':' :: (n.text ++ rest)).length
      (a ++ '"' :: ':' :: (n.text ++ rest)) with
  | none =>
    rw [hkey] at h
    cases h
  | some p =>
    obtain ⟨key, s⟩ := p
    simp only [hkey, Option.bind_some] at h
    split at h
    · rename_i s' hcolon
      cases hnum : readNumber (skipWs s') with
      | none => simp [hnum] at h
      | some p =>
        obtain ⟨y, s''⟩ := p
        simp only [hnum, Option.bind_some] at h
        have hkeys : key = a := by
          have hpair := Prod.mk.inj (Option.some.inj h)
          exact (Prod.mk.inj hpair.1).1
        rw [hkeys] at hkey
        exact readString_self (fun _ _ _ => readString_between hn hrest) hkey
    · cases h

/-! ## Objects -/

variable {ms : List (List Char × Numeral)}

/-- What the members are meant to be. -/
def pairs (ms : List (List Char × Numeral)) : List (List Char × ℚ) :=
  ms.map fun m => (m.1, m.2.value)

/-- A comma after each member, and a brace in place of the last one. -/
theorem members_eq (ms : List (List Char × Numeral)) :
    members ms = (ms.flatMap fun m => member m ++ [',']).dropLast ++ ['}'] := by
  induction ms with
  | nil => rfl
  | cons m ms ih =>
    cases ms with
    | nil => simp [members]
    | cons m' ms =>
      have hne : ((m' :: ms).flatMap fun m => member m ++ [',']) ≠ [] := by simp
      have hcons : members (m :: m' :: ms) = member m ++ ',' :: members (m' :: ms) := rfl
      have hdrop : ((m :: m' :: ms).flatMap fun m => member m ++ [',']).dropLast =
          member m ++ [','] ++ ((m' :: ms).flatMap fun m => member m ++ [',']).dropLast :=
        List.dropLast_append_of_ne_nil hne
      rw [hcons, ih, hdrop]
      simp

theorem readMembers_plain (hne : ms ≠ []) (hnum : ∀ m ∈ ms, m.2.Proper)
    (hplain : ∀ m ∈ ms, Plain m.1) (hfuel : ms.length ≤ fuel) :
    readMembers fuel (members ms) = some (pairs ms, []) := by
  induction ms generalizing fuel with
  | nil => exact absurd rfl hne
  | cons m ms ih =>
    obtain ⟨hm, hnum⟩ := List.forall_mem_cons.mp hnum
    obtain ⟨ha, hplain⟩ := List.forall_mem_cons.mp hplain
    obtain ⟨fuel, rfl⟩ := Nat.exists_eq_succ_of_ne_zero (Nat.ne_zero_of_lt hfuel)
    obtain ⟨rest, htext, hrest, hlast⟩ := members_cons m ms
    rw [htext, readMembers, readMember_plain ha hm hrest]
    simp only [Option.bind_eq_bind, Option.bind_some]
    rcases hlast with ⟨rfl, rfl⟩ | ⟨hms, rfl⟩
    · rfl
    · rw [skipWs_cons (by decide)]
      simp only [ih hms hnum hplain (Nat.le_of_succ_le_succ hfuel), Option.bind_some]
      rfl

theorem plain_of_readMembers {xs : List (List Char × ℚ)} (hnum : ∀ m ∈ ms, m.2.Proper)
    (h : readMembers fuel (members ms) = some (xs, r)) (hkeys : xs.map Prod.fst = ms.map Prod.fst) :
    ∀ m ∈ ms, Plain m.1 := by
  induction ms generalizing fuel xs r with
  | nil => exact List.forall_mem_nil _
  | cons m ms ih =>
    obtain ⟨hm, hnum⟩ := List.forall_mem_cons.mp hnum
    obtain ⟨rest, htext, hrest, hlast⟩ := members_cons m ms
    cases fuel with
    | zero => cases h
    | succ fuel =>
      rw [htext, readMembers] at h
      cases hread : readMember (member m ++ rest) with
      | none =>
        rw [hread] at h
        cases h
      | some p =>
        obtain ⟨⟨key, x⟩, s'⟩ := p
        simp only [hread, Option.bind_eq_bind, Option.bind_some] at h
        have hhead : ∃ xs', xs = (key, x) :: xs' := by
          split at h
          · rename_i s'' hcomma
            cases hnext : readMembers fuel s'' with
            | none =>
              rw [hnext] at h
              cases h
            | some p =>
              simp only [hnext, Option.bind_some] at h
              exact ⟨p.1, (Prod.mk.inj (Option.some.inj h)).1.symm⟩
          · exact ⟨[], (Prod.mk.inj (Option.some.inj h)).1.symm⟩
          · cases h
        obtain ⟨xs', rfl⟩ := hhead
        obtain ⟨hkey, hkeys⟩ := List.cons.inj hkeys
        have hkey : key = m.1 := hkey
        rw [hkey] at hread
        have ha := plain_of_readMember hm hrest hread
        refine List.forall_mem_cons.mpr ⟨ha, ?_⟩
        rw [readMember_plain ha hm hrest] at hread
        obtain ⟨-, rfl⟩ := Prod.mk.inj (Option.some.inj hread)
        rcases hlast with ⟨rfl, -⟩ | ⟨hms, rfl⟩
        · exact List.forall_mem_nil _
        · rw [skipWs_cons (by decide)] at h
          cases hnext : readMembers fuel (members ms) with
          | none =>
            simp only [hnext] at h
            cases h
          | some p =>
            obtain ⟨xs'', s''⟩ := p
            simp only [hnext, Option.bind_some] at h
            have hxs : xs'' = xs' := (List.cons.inj (Prod.mk.inj (Option.some.inj h)).1).2
            exact ih hnum hnext (hxs ▸ hkeys)

theorem length_members : ms.length ≤ (members ms).length := by
  induction ms with
  | nil => exact Nat.zero_le _
  | cons m ms ih =>
    obtain ⟨rest, htext, -, hlast⟩ := members_cons m ms
    have hmember : (member m).length = m.1.length + m.2.text.length + 3 := by
      simp [member]
      omega
    rw [htext, List.length_append, List.length_cons, hmember]
    rcases hlast with ⟨rfl, -⟩ | ⟨-, rfl⟩
    · rw [List.length_nil]
      omega
    · rw [List.length_cons]
      omega

/-- An object that was written without escapes is read back if and only if its names are plain. -/
theorem readObject_members_iff (hne : ms ≠ []) (hnum : ∀ m ∈ ms, m.2.Proper) :
    readObject ('{' :: members ms) = some (pairs ms) ↔ ∀ m ∈ ms, Plain m.1 := by
  have hquote : ∃ more, members ms = '"' :: more := by
    cases ms with
    | nil => exact absurd rfl hne
    | cons m ms =>
      obtain ⟨rest, htext, -, -⟩ := members_cons m ms
      exact ⟨_, htext⟩
  obtain ⟨more, hmore⟩ := hquote
  have hread : readObject ('{' :: members ms) =
      (readMembers (members ms).length (members ms)).bind fun p =>
        if skipWs p.2 = [] then some p.1 else none := by
    rw [hmore, readObject, skipWs_cons (by decide)]
    simp only [skipWs_cons (c := '"') (by decide)]
    rfl
  rw [hread]
  constructor
  · intro h
    cases hmembers : readMembers (members ms).length (members ms) with
    | none =>
      rw [hmembers] at h
      cases h
    | some p =>
      obtain ⟨xs, s⟩ := p
      simp only [hmembers, Option.bind_some] at h
      by_cases hend : skipWs s = []
      · rw [if_pos hend] at h
        refine plain_of_readMembers hnum hmembers ?_
        rw [Option.some.inj h, pairs, List.map_map]
        rfl
      · rw [if_neg hend] at h
        cases h
  · intro hplain
    rw [readMembers_plain hne hnum hplain length_members]
    rfl

end

end W1Retap.Json
