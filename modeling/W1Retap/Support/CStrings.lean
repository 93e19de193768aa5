import Mathlib

/-!
# C strings

The functions of `string.h` and `ctype.h`, in the C locale, on strings given as the
list of their characters without the terminating NUL.
-/
namespace W1Retap.CStrings

/-- The characters of a list are tried, and not all that there are. -/
instance decidableBAllChar (p : Char → Prop) [DecidablePred p] (l : List Char) : Decidable (∀ c ∈ l, p c) :=
  List.decidableBAll p l

instance lawfulBEqChars : LawfulBEq (List Char) := inferInstance

def isxdigit (c : Char) : Bool :=
  ('0' ≤ c && c ≤ '9') || ('a' ≤ c && c ≤ 'f') || ('A' ≤ c && c ≤ 'F')

/-- The tokens that repeated calls of `strtok` deliver. -/
def strtok (delims s : List Char) : List (List Char) :=
  (s.splitOnP (delims.contains ·)).filter (· ≠ [])

/-- One call of `strtok`, from where the last one stopped: the token, and where the next call
starts. -/
def strtokNext (delims s : List Char) : Option (List Char × List Char) :=
  match s.dropWhile (delims.contains ·) with
  | [] => none
  | c :: cs => some ((c :: cs).takeWhile (!delims.contains ·),
      ((c :: cs).dropWhile (!delims.contains ·)).tail)

/-- The fields that repeated calls of `strsep` deliver. -/
def strsep (delims s : List Char) : List (List Char) := s.splitOnP (delims.contains ·)

/-- `tolower` -/
def tolower (c : Char) : Char :=
  if 'A' ≤ c ∧ c ≤ 'Z' then Char.ofNat (c.toNat + 32) else c

/-- `strcasecmp (s, t) == 0` -/
def strcaseeq (s t : List Char) : Bool := s.map tolower == t.map tolower

/-- `strcasestr (s, t) != NULL` -/
def strcasestr (s t : List Char) : Bool := (s.map tolower).tails.any (t.map tolower).isPrefixOf

def isspace (c : Char) : Bool :=
  c == ' ' || c == '\t' || c == '\n' || c == '\x0b' || c == '\x0c' || c == '\r'

def isdigit (c : Char) : Bool := '0' ≤ c && c ≤ '9'

def isalnum (c : Char) : Bool :=
  isdigit c || ('a' ≤ c && c ≤ 'z') || ('A' ≤ c && c ≤ 'Z')

/-- What `fgets` delivers with room for `size` characters: pieces that end with a newline,
with the room, or with the file. `cur` is the piece being read, last character first. -/
def fgets (size : ℕ) : List Char → List Char → List (List Char)
  | [], cur => if cur = [] then [] else [cur.reverse]
  | c :: cs, cur =>
    if c = '\n' ∨ cur.length + 1 = size then (c :: cur).reverse :: fgets size cs []
    else fgets size cs (c :: cur)

/-- An optional sign: its factor, and what follows. -/
def sign : List Char → Int × List Char
  | '-' :: s => (-1, s)
  | '+' :: s => (1, s)
  | s => (1, s)

/-- The value of a string of digits. -/
def digitsVal (ds : List Char) : ℕ := ds.foldl (fun v c => 10 * v + (c.toNat - 48)) 0

/-- `%d` after white space: the digits as a 64-bit `long`, which saturates. -/
def scanLong (s : List Char) : Option Int :=
  let (sgn, s) := sign s
  let ds := s.takeWhile isdigit
  if ds = [] then none
  else some (max (-2 ^ 63) (min (2 ^ 63 - 1) (sgn * digitsVal ds)))

/-- `strtol (s, NULL, 10)` -/
def strtol (s : List Char) : Int := (scanLong (s.dropWhile isspace)).getD 0

def digitVal (c : Char) : ℕ :=
  if isdigit c then c.toNat - 48 else if 'a' ≤ c then c.toNat - 87 else c.toNat - 55

/-- `strtol (s, NULL, 0)`: hexadecimal after `0x`, octal after another `0`. -/
def strtolAny (s : List Char) : Int :=
  let (sgn, s) := sign (s.dropWhile isspace)
  let value (base : ℕ) (ds : List Char) : Int :=
    max (-2 ^ 63) (min (2 ^ 63 - 1) (sgn * ds.foldl (fun v c => base * v + digitVal c) 0))
  match s with
  | '0' :: x :: c :: rest =>
    if (x = 'x' ∨ x = 'X') ∧ isxdigit c then value 16 ((c :: rest).takeWhile isxdigit)
    else value 8 (s.takeWhile fun c => '0' ≤ c && c ≤ '7')
  | '0' :: _ => value 8 (s.takeWhile fun c => '0' ≤ c && c ≤ '7')
  | _ => value 10 (s.takeWhile isdigit)

/-- `strtod` on decimal numbers; anything else is 0. -/
def strtod (s : List Char) : ℚ :=
  let (sgn, s) := sign (s.dropWhile isspace)
  let ds := s.takeWhile isdigit
  let (fs, s) := match s.dropWhile isdigit with
    | '.' :: s => (s.takeWhile isdigit, s.dropWhile isdigit)
    | s => ([], s)
  let e := match s with
    | c :: s => if (c = 'e' ∨ c = 'E') ∧ ds ++ fs ≠ [] then (scanLong s).getD 0 else 0
    | [] => 0
  sgn * (digitsVal (ds ++ fs) : ℚ) * (10 : ℚ) ^ (e - fs.length)

/-- The bytes of a string. -/
def bytes (s : List Char) : List UInt8 := s.flatMap String.utf8EncodeChar

/-! ## Splitting -/

section
variable {delims s : List Char} {d : Char} {cells : List (List Char)}

/-- Joined fields are taken apart again. -/
theorem strsep_intercalate (hd : delims.contains d) (hne : cells ≠ [])
    (h : ∀ v ∈ cells, ∀ c ∈ v, delims.contains c = false) :
    strsep delims (List.intercalate [d] cells) = cells := by
  induction cells with
  | nil => exact absurd rfl hne
  | cons v cells ih =>
    obtain ⟨hv, hcells⟩ := List.forall_mem_cons.mp h
    cases cells with
    | nil =>
      have hjoin : List.intercalate [d] [v] = v := by simp [List.intercalate]
      rw [hjoin]
      exact List.splitOnP_eq_singleton hv
    | cons w cells =>
      have hjoin : List.intercalate [d] (v :: w :: cells) =
          v ++ d :: List.intercalate [d] (w :: cells) := by
        simp [List.intercalate]
      rw [hjoin, strsep, List.splitOnP_append_cons_of_forall_mem hv d hd]
      exact congrArg (v :: ·) (ih (by simp) hcells)

theorem mem_intercalate {sep : List Char} {c : Char}
    (h : c ∈ List.intercalate sep cells) : c ∈ sep ∨ ∃ v ∈ cells, c ∈ v := by
  obtain ⟨v, hv, hc⟩ := List.mem_flatten.mp h
  induction cells with
  | nil => simp at hv
  | cons w cells ih =>
    cases cells with
    | nil => exact Or.inr ⟨v, by simpa using hv, hc⟩
    | cons w' cells =>
      rw [List.intersperse_cons_cons, List.mem_cons, List.mem_cons] at hv
      rcases hv with rfl | rfl | hv
      · exact Or.inr ⟨v, by simp, hc⟩
      · exact Or.inl hc
      · refine (ih ?_ hv).imp_right fun ⟨u, hu, hc⟩ => ⟨u, List.mem_cons_of_mem _ hu, hc⟩
        exact List.mem_flatten.mpr ⟨v, hv, hc⟩

theorem not_of_dropWhile_eq {p : Char → Bool} {c : Char} {cs : List Char}
    (h : s.dropWhile p = c :: cs) : p c = false := by
  have hne : s.dropWhile p ≠ [] := h ▸ List.cons_ne_nil c cs
  have hhead := List.head_dropWhile_not p hne
  simpa only [h, List.head_cons] using hhead

theorem strtok_cons_of_delim {c : Char} (hc : delims.contains c) :
    strtok delims (c :: s) = strtok delims s := by
  rw [strtok, List.splitOnP_cons_eq_if_modifyHead, if_pos hc, List.filter_cons_of_neg (by simp), strtok]

theorem strtok_dropWhile : strtok delims (s.dropWhile (delims.contains ·)) = strtok delims s := by
  induction s with
  | nil => rfl
  | cons c s ih =>
    by_cases hc : delims.contains c
    · rw [List.dropWhile_cons_of_pos hc, strtok_cons_of_delim hc, ih]
    · rw [List.dropWhile_cons_of_neg hc]

/-- Where `strtok` stops is before the end of the string. -/
theorem strtokNext_lt {tok rest : List Char} (h : strtokNext delims s = some (tok, rest)) :
    rest.length < s.length := by
  have hle := (List.dropWhile_suffix (l := s) (delims.contains ·)).length_le
  unfold strtokNext at h
  split at h
  · cases h
  · rename_i c cs hdrop
    cases h
    have hle' := (List.dropWhile_suffix (l := c :: cs) (!delims.contains ·)).length_le
    have hpos : 0 < (c :: cs).length := Nat.succ_pos cs.length
    rw [hdrop] at hle
    rw [List.length_tail]
    omega

/-- The calls of `strtok` deliver its tokens one by one. -/
theorem strtok_eq : strtok delims s = match strtokNext delims s with
    | none => []
    | some (tok, rest) => tok :: strtok delims rest := by
  unfold strtokNext
  rw [← strtok_dropWhile]
  cases hdrop : s.dropWhile (delims.contains ·) with
  | nil => simp [strtok]
  | cons c cs =>
    have hc : delims.contains c = false := not_of_dropWhile_eq hdrop
    have htoken : ∀ x ∈ (c :: cs).takeWhile (!delims.contains ·), delims.contains x = false := by
      intro x hx
      simpa using List.mem_takeWhile_imp hx
    have hne : (c :: cs).takeWhile (!delims.contains ·) ≠ [] := by
      rw [List.takeWhile_cons_of_pos (by simpa using hc)]
      exact List.cons_ne_nil _ _
    change strtok delims (c :: cs) = _ :: strtok delims _
    conv_lhs => rw [← List.takeWhile_append_dropWhile (p := (!delims.contains ·)) (l := c :: cs)]
    cases hrest : (c :: cs).dropWhile (!delims.contains ·) with
    | nil =>
      rw [List.append_nil, strtok, List.splitOnP_eq_singleton htoken, List.filter_cons_of_pos (by simpa using hne)]
      simp [strtok]
    | cons d rest =>
      have hd : delims.contains d := by simpa using not_of_dropWhile_eq hrest
      rw [strtok, List.splitOnP_append_cons_of_forall_mem htoken d hd,
        List.filter_cons_of_pos (by simpa using hne)]
      rfl

/-- There is one field more than there are separators. -/
theorem length_strsep (d : Char) (s : List Char) : (strsep [d] s).length = s.count d + 1 := by
  unfold strsep
  induction s with
  | nil => simp
  | cons c s ih =>
    rw [List.splitOnP_cons_eq_if_modifyHead]
    by_cases hc : c = d
    · simp [hc] at ih ⊢
      exact ih
    · have hc' : ¬ d = c := fun h => hc h.symm
      simp [hc] at ih ⊢
      exact ih

end

/-! ## Numbers -/

theorem toDigits_cons {n : ℕ} (hpos : 0 < n) : ∃ c ds, Nat.toDigits 10 n = c :: ds ∧ c ≠ '0' := by
  induction n using Nat.strong_induction_on with
  | _ n ih =>
    by_cases hlt : n < 10
    · refine ⟨n.digitChar, [], Nat.toDigits_of_lt_base hlt, ?_⟩
      interval_cases n <;> decide
    · have hge : 10 ≤ n := Nat.le_of_not_lt hlt
      obtain ⟨c, ds, hds, hc⟩ := ih (n / 10) (by omega) (by omega)
      refine ⟨c, ds ++ [(n % 10).digitChar], ?_, hc⟩
      rw [Nat.toDigits_of_base_le (by omega) hge, hds]
      rfl

/-- `strtol` in base 0 reads back the digits of a positive number. -/
theorem strtolAny_toDigits {n : ℕ} (hpos : 0 < n) (hn : n < 2 ^ 63) :
    strtolAny (Nat.toDigits 10 n) = n := by
  have hdigit : ∀ c ∈ Nat.toDigits 10 n, isdigit c = true := by
    intro c hc
    have h := Nat.isDigit_of_mem_toDigits (by omega) (by omega) hc
    simp only [Char.isDigit, Bool.and_eq_true, decide_eq_true_eq] at h
    simp only [isdigit, Bool.and_eq_true, decide_eq_true_eq]
    exact h
  obtain ⟨c, ds, hds, hc⟩ := toDigits_cons hpos
  have hval : (c :: ds).foldl (fun v c => 10 * v + digitVal c) 0 = n := by
    rw [← hds]
    conv_rhs => rw [← Nat.ofDigitChars_ten_toDigits (n := n)]
    rw [Nat.ofDigitChars_eq_foldl]
    apply List.foldl_ext
    intro v c hc
    rw [digitVal, if_pos (hdigit c hc)]
    rfl
  rw [hds] at hdigit ⊢
  have hfirst := hdigit c List.mem_cons_self
  have hne : ∀ x : Char, ¬ isdigit x → c ≠ x := fun x hx h => hx (h ▸ hfirst)
  have hspace : isspace c = false := by
    by_contra hs
    simp only [isspace, Bool.not_eq_false, Bool.or_eq_true, beq_iff_eq] at hs
    obtain ((((rfl | rfl) | rfl) | rfl) | rfl) | rfl := hs <;> exact absurd hfirst (by decide)
  have hsign : sign (c :: ds) = (1, c :: ds) := by
    unfold sign
    split
    · rename_i heq
      exact absurd (List.cons.inj heq).1 (hne '-' (by decide))
    · rename_i heq
      exact absurd (List.cons.inj heq).1 (hne '+' (by decide))
    · rfl
  have htake : (c :: ds).takeWhile isdigit = c :: ds := List.takeWhile_eq_self_iff.mpr hdigit
  unfold strtolAny
  rw [List.dropWhile_cons_of_neg (by simp [hspace]), hsign]
  simp only
  split
  · rename_i heq
    exact absurd (List.cons.inj heq).1 hc
  · rename_i heq
    exact absurd (List.cons.inj heq).1 hc
  · rw [htake, hval]
    omega

end W1Retap.CStrings
