import W1Retap.Support.CStrings
import Mathlib

/-!
# Tags and attributes

A reader for documents of tags with attributes. References in the value of an attribute are
replaced, line ends and tabs become blanks, and a value with a `<` or with a character that no
document may have is refused. Text between tags is passed over. There are no comments, no sections and
no declarations but `<?xml … ?>`.
-/
namespace W1Retap.Xml

open CStrings

/-! ## Characters -/

def isChar (c : Char) : Bool :=
  c == '\t' || c == '\n' || c == '\r' || (32 ≤ c.toNat && c.toNat ≠ 0xFFFE && c.toNat ≠ 0xFFFF)

def isSpace (c : Char) : Bool := c == ' ' || c == '\t' || c == '\n' || c == '\r'

/-- What names are made of; all that is not ASCII is taken for a letter. -/
def isName (c : Char) : Bool :=
  c.isAlphanum || c == '_' || c == ':' || c == '-' || c == '.' || 128 ≤ c.toNat

/-- The number of a character, if it has one. -/
def numbered (base : ℕ) (isDigit : Char → Bool) (digits : List Char) : Option Char :=
  let n := digits.foldl (fun v c => base * v + digitVal c) 0
  if digits ≠ [] ∧ digits.all isDigit ∧ n.isValidChar ∧ isChar (Char.ofNat n) then some (Char.ofNat n)
  else none

/-- What `&name;` stands for. -/
def reference (name : List Char) : Option Char :=
  if name = "lt".toList then some '<'
  else if name = "gt".toList then some '>'
  else if name = "amp".toList then some '&'
  else if name = "quot".toList then some '"'
  else if name = "apos".toList then some '\''
  else
    match name with
    | '#' :: 'x' :: digits => numbered 16 isxdigit digits
    | '#' :: digits => numbered 10 isdigit digits
    | _ => none

/-! ## Values -/

/-- The value of an attribute from the text between its quotes; `name` is what has been read of a
reference. -/
def decode : Option (List Char) → List Char → Option (List Char)
  | none, [] => some []
  | some _, [] => none
  | some name, c :: s =>
    if c = ';' then (reference name).bind fun d => (decode none s).map (d :: ·)
    else decode (some (name ++ [c])) s
  | none, c :: s =>
    if c = '&' then decode (some []) s
    else if c = '<' ∨ isChar c = false then none
    else if c = '\r' ∧ s.head? = some '\n' then decode none s
    else (decode none s).map ((if isSpace c then ' ' else c) :: ·)

/-- The value that is read from a text is this text. -/
def Plain (s : List Char) : Prop :=
  ∀ c ∈ s, c ≠ '&' ∧ c ≠ '<' ∧ isChar c = true ∧ (isSpace c = true → c = ' ')

instance (s : List Char) : Decidable (Plain s) :=
  inferInstanceAs (Decidable (∀ c ∈ s, c ≠ '&' ∧ c ≠ '<' ∧ isChar c = true ∧ (isSpace c = true → c = ' ')))

section
variable {s u : List Char} {c : Char} {pending : Option (List Char)}

theorem decode_cons (hamp : c ≠ '&') (hless : c ≠ '<') (hchar : isChar c = true) (hreturn : c ≠ '\r') :
    decode none (c :: s) = (decode none s).map ((if isSpace c then ' ' else c) :: ·) := by
  rw [decode, if_neg hamp, if_neg (by simp [hless, hchar]), if_neg fun h => hreturn h.1]

/-- No value is longer than its text. -/
theorem length_decode (h : decode pending s = some u) : u.length ≤ s.length := by
  induction s generalizing pending u with
  | nil =>
    cases pending with
    | none =>
      obtain rfl := Option.some.inj h
      exact le_rfl
    | some name => exact nomatch h
  | cons c s ih =>
    have hone : ∀ {d : Char}, (decode none s).map (d :: ·) = some u → u.length ≤ (c :: s).length := by
      intro d hd
      obtain ⟨v, hv, rfl⟩ := Option.map_eq_some_iff.mp hd
      have := ih hv
      simp only [List.length_cons]
      omega
    have hskip : ∀ {p}, decode p s = some u → u.length ≤ (c :: s).length := by
      intro p hp
      have := ih hp
      rw [List.length_cons]
      omega
    cases pending with
    | some name =>
      rw [decode] at h
      by_cases hc : c = ';'
      · rw [if_pos hc] at h
        obtain ⟨d, -, hd⟩ := Option.bind_eq_some_iff.mp h
        exact hone hd
      · rw [if_neg hc] at h
        exact hskip h
    | none =>
      rw [decode] at h
      split at h
      · exact hskip h
      · split at h
        · exact nomatch h
        · split at h
          · exact hskip h
          · exact hone h

theorem decode_self (hs : Plain s) : decode none s = some s := by
  induction s with
  | nil => rfl
  | cons c s ih =>
    obtain ⟨⟨hamp, hless, hchar, hspace⟩, hrest⟩ := List.forall_mem_cons.mp hs
    have hreturn : c ≠ '\r' := by
      rintro rfl
      exact absurd (hspace rfl) (by decide)
    rw [decode_cons hamp hless hchar hreturn, ih hrest]
    by_cases hc : isSpace c = true
    · rw [if_pos hc, hspace hc]
      rfl
    · rw [if_neg hc]
      rfl

theorem plain_of_decode (h : decode none s = some s) : Plain s := by
  induction s with
  | nil => exact fun _ hc => nomatch hc
  | cons c s ih =>
    have hshort : ∀ {p}, decode p s ≠ some (c :: s) := by
      intro p hp
      have hlen := length_decode hp
      rw [List.length_cons] at hlen
      omega
    rw [decode] at h
    split at h
    · exact absurd h hshort
    · rename_i hamp
      split at h
      · exact nomatch h
      · rename_i hbad
        split at h
        · exact absurd h hshort
        · obtain ⟨v, hv, heq⟩ := Option.map_eq_some_iff.mp h
          obtain ⟨hhead, rfl⟩ := List.cons.inj heq
          obtain ⟨hless, hchar⟩ := not_or.mp hbad
          refine List.forall_mem_cons.mpr ⟨⟨hamp, hless, by simpa using hchar, fun hc => ?_⟩, ih hv⟩
          rw [if_pos hc] at hhead
          exact hhead.symm

theorem decode_eq_self_iff : decode none s = some s ↔ Plain s := ⟨plain_of_decode, decode_self⟩

end

/-! ## Tags -/

abbrev Attr := List Char × List Char

/-- A value in either kind of quotes, and what follows it. -/
def readValue : List Char → Option (List Char × List Char)
  | [] => none
  | q :: s =>
    if q = '"' ∨ q = '\'' then
      match s.dropWhile (· ≠ q) with
      | [] => none
      | _ :: rest => (decode none (s.takeWhile (· ≠ q))).map fun u => (u, rest)
    else none

def readAttr (s : List Char) : Option (Attr × List Char) :=
  if s.takeWhile isName = [] then none
  else
    match (s.dropWhile isName).dropWhile isSpace with
    | '=' :: s' => (readValue (s'.dropWhile isSpace)).map fun p => ((s.takeWhile isName, p.1), p.2)
    | _ => none

/-- The attributes up to the end of a tag, and whether the element ends with it. No name may be given twice. -/
def readAttrs : ℕ → List Char → Option (List Attr × Bool × List Char)
  | 0, _ => none
  | fuel + 1, s =>
    match s.dropWhile isSpace with
    | '>' :: rest => some ([], false, rest)
    | '/' :: '>' :: rest => some ([], true, rest)
    | s' =>
      if s' = s then none
      else do
        let (a, rest) ← readAttr s'
        let (attrs, ended, rest) ← readAttrs fuel rest
        if a.1 ∈ attrs.map Prod.fst then none else return (a :: attrs, ended, rest)

inductive Event where
  | start (name : List Char) (attrs : List Attr)
  | finish (name : List Char)
  deriving DecidableEq, Repr

def readEvents : ℕ → List Char → Option (List Event)
  | 0, _ => none
  | fuel + 1, s =>
    match s.dropWhile (· ≠ '<') with
    | [] => some []
    | _ :: '?' :: s => readEvents fuel (s.dropWhile (· ≠ '>'))
    | _ :: '/' :: s =>
      match (s.dropWhile isName).dropWhile isSpace with
      | '>' :: rest => (readEvents fuel rest).map (.finish (s.takeWhile isName) :: ·)
      | _ => none
    | _ :: s => do
      if s.takeWhile isName = [] then none
      else
        let (attrs, ended, rest) ← readAttrs s.length (s.dropWhile isName)
        let events ← readEvents fuel rest
        return .start (s.takeWhile isName) attrs ::
          (if ended then .finish (s.takeWhile isName) :: events else events)

/-! ## What a writer without escapes makes -/

def Attr.written (a : Attr) : List Char := ' ' :: (a.1 ++ "=\"".toList ++ a.2 ++ ['"'])

/-- The rest of a start tag behind the name. -/
def attrsText (attrs : List Attr) : List Char := attrs.flatMap Attr.written ++ ['>']

/-- The names are names, and the values can stand between quotes. -/
def Attr.Proper (a : Attr) : Prop := a.1 ≠ [] ∧ (∀ c ∈ a.1, isName c = true) ∧ '"' ∉ a.2

/-- An attribute as it is read. -/
def Attr.decoded (a : Attr) : Option Attr := (decode none a.2).map fun u => (a.1, u)

section
variable {a : Attr} {attrs : List Attr} {name s t : List Char} {c : Char} {fuel : ℕ}

theorem takeWhile_stop {p : Char → Bool} (hs : ∀ c ∈ s, p c = true) (hc : p c = false) :
    (s ++ c :: t).takeWhile p = s := by
  rw [List.takeWhile_append_of_pos hs, List.takeWhile_cons_of_neg (by simp [hc]), List.append_nil]

theorem dropWhile_stop {p : Char → Bool} (hs : ∀ c ∈ s, p c = true) (hc : p c = false) :
    (s ++ c :: t).dropWhile p = c :: t := by
  rw [List.dropWhile_append_of_pos hs, List.dropWhile_cons_of_neg (by simp [hc])]

theorem readValue_written (hs : '"' ∉ s) :
    readValue ('"' :: (s ++ '"' :: t)) = (decode none s).map fun u => (u, t) := by
  have hvalue : ∀ c ∈ s, decide (c ≠ '"') = true := by
    intro c hc
    rw [decide_eq_true_eq]
    rintro rfl
    exact hs hc
  rw [readValue, if_pos (Or.inl rfl), takeWhile_stop hvalue (by simp), dropWhile_stop hvalue (by simp)]

theorem readAttr_written (ha : a.Proper) :
    readAttr (a.1 ++ "=\"".toList ++ a.2 ++ '"' :: t) = a.decoded.map fun b => (b, t) := by
  obtain ⟨hne, hname, hquote⟩ := ha
  have hassoc : a.1 ++ "=\"".toList ++ a.2 ++ '"' :: t = a.1 ++ '=' :: '"' :: (a.2 ++ '"' :: t) := by simp
  have hequals : isName '=' = false := by decide
  rw [hassoc, readAttr, takeWhile_stop hname hequals, dropWhile_stop hname hequals, if_neg hne]
  change (readValue ('"' :: (a.2 ++ '"' :: t))).map _ = _
  rw [readValue_written hquote, Attr.decoded, Option.map_map, Option.map_map]
  rfl

theorem names_decoded {as : List Attr} (h : attrs.mapM Attr.decoded = some as) :
    as.map Prod.fst = attrs.map Prod.fst := by
  induction attrs generalizing as with
  | nil =>
    obtain rfl := Option.some.inj h
    rfl
  | cons a attrs ih =>
    rw [List.mapM_cons] at h
    obtain ⟨b, hb, h⟩ := Option.bind_eq_some_iff.mp h
    obtain ⟨bs, hbs, h⟩ := Option.bind_eq_some_iff.mp h
    obtain rfl := Option.some.inj h
    obtain ⟨u, -, rfl⟩ := Option.map_eq_some_iff.mp hb
    rw [List.map_cons, List.map_cons, ih hbs]

/-- A tag goes on with an attribute. -/
theorem readAttrs_attr (hc : isName c = true) :
    readAttrs (fuel + 1) (' ' :: c :: s) = (readAttr (c :: s)).bind fun p =>
      (readAttrs fuel p.2).bind fun q =>
        if p.1.1 ∈ q.1.map Prod.fst then none else some (p.1 :: q.1, q.2) := by
  have hspace : isSpace c = false := by
    rw [Bool.eq_false_iff]
    intro h
    simp only [isSpace, Bool.or_eq_true, beq_iff_eq] at h
    rcases h with ((rfl | rfl) | rfl) | rfl <;> exact absurd hc (by decide)
  have hdrop : (' ' :: c :: s).dropWhile isSpace = c :: s := by
    rw [List.dropWhile_cons_of_pos rfl, List.dropWhile_cons_of_neg (by simp [hspace])]
  have hne : c :: s ≠ ' ' :: c :: s := by
    intro h
    exact absurd (congrArg List.length h) (by simp)
  rw [readAttrs, hdrop]
  split
  · rename_i heq
    rw [(List.cons.inj heq).1] at hc
    exact absurd hc (by decide)
  · rename_i heq
    rw [(List.cons.inj heq).1] at hc
    exact absurd hc (by decide)
  · rw [if_neg hne]
    rfl

/-- The attributes of a tag are read one by one. -/
theorem readAttrs_written (hproper : ∀ a ∈ attrs, a.Proper) (hnodup : (attrs.map Prod.fst).Nodup)
    (hfuel : attrs.length < fuel) :
    readAttrs fuel (attrsText attrs ++ t) = (attrs.mapM Attr.decoded).map fun as => (as, false, t) := by
  induction attrs generalizing fuel with
  | nil =>
    obtain ⟨fuel, rfl⟩ := Nat.exists_eq_add_of_le' hfuel
    rfl
  | cons a attrs ih =>
    obtain ⟨fuel, rfl⟩ := Nat.exists_eq_add_of_le' (Nat.lt_of_le_of_lt (Nat.zero_le _) hfuel)
    obtain ⟨ha, hattrs⟩ := List.forall_mem_cons.mp hproper
    obtain ⟨hmem, hnodup⟩ := List.nodup_cons.mp hnodup
    have hrest := ih hattrs hnodup (Nat.lt_of_succ_lt_succ hfuel)
    obtain ⟨d, name, hname⟩ := List.exists_cons_of_ne_nil ha.1
    have htext : attrsText (a :: attrs) ++ t = ' ' :: (a.1 ++ "=\"".toList ++ a.2 ++ '"' :: (attrsText attrs ++ t)) := by
      simp [attrsText, Attr.written]
    have hread := readAttr_written ha (t := attrsText attrs ++ t)
    have hd : isName d = true := ha.2.1 d (hname ▸ List.mem_cons_self)
    rw [hname] at hread
    rw [htext, hname]
    simp only [List.cons_append] at hread ⊢
    rw [readAttrs_attr hd, hread, List.mapM_cons]
    cases hdec : a.decoded with
    | none => rfl
    | some b =>
      obtain ⟨u, -, rfl⟩ := Option.map_eq_some_iff.mp hdec
      rw [Option.map_some, Option.bind_some, hrest]
      cases has : attrs.mapM Attr.decoded with
      | none => rfl
      | some as =>
        rw [Option.map_some, Option.bind_some, names_decoded has, if_neg hmem]
        rfl

theorem length_attrsText : attrs.length < (attrsText attrs).length := by
  unfold attrsText
  rw [List.length_append, List.length_singleton, List.length_flatMap]
  have hone : ∀ a : Attr, 1 ≤ a.written.length := fun a => by simp [Attr.written]
  induction attrs with
  | nil => exact Nat.one_pos
  | cons a attrs ih =>
    have := hone a
    rw [List.map_cons, List.sum_cons, List.length_cons]
    omega

end

/-! ## Events -/

def startTag (name : List Char) (attrs : List Attr) : List Char := '<' :: (name ++ attrsText attrs)

def finishTag (name : List Char) : List Char := '<' :: '/' :: (name ++ ['>'])

section
variable {attrs : List Attr} {name s t : List Char} {fuel : ℕ}

theorem dropWhile_tag (hs : '<' ∉ s) : (s ++ '<' :: t).dropWhile (· ≠ '<') = '<' :: t := by
  refine dropWhile_stop (fun c hc => ?_) (by simp)
  rw [decide_eq_true_eq]
  rintro rfl
  exact hs hc

theorem readEvents_start (hs : '<' ∉ s) (hne : name ≠ []) (hname : ∀ c ∈ name, isName c = true)
    (hproper : ∀ a ∈ attrs, a.Proper) (hnodup : (attrs.map Prod.fst).Nodup) :
    readEvents (fuel + 1) (s ++ (startTag name attrs ++ t)) =
      (attrs.mapM Attr.decoded).bind fun as => (readEvents fuel t).map (.start name as :: ·) := by
  have hstop : ∃ c u, attrsText attrs ++ t = c :: u ∧ isName c = false := by
    cases attrs with
    | nil => exact ⟨'>', t, rfl, by decide⟩
    | cons a attrs => exact ⟨' ', _, rfl, by decide⟩
  obtain ⟨c, u, hu, hc⟩ := hstop
  have htext : startTag name attrs ++ t = '<' :: (name ++ (attrsText attrs ++ t)) := by simp [startTag]
  have htake : (name ++ (attrsText attrs ++ t)).takeWhile isName = name := by
    rw [hu]
    exact takeWhile_stop hname hc
  have hdrop : (name ++ (attrsText attrs ++ t)).dropWhile isName = attrsText attrs ++ t := by
    rw [hu]
    exact dropWhile_stop hname hc
  have hfuel : attrs.length < (name ++ (attrsText attrs ++ t)).length := by
    have : attrs.length < (attrsText attrs).length := length_attrsText
    simp only [List.length_append]
    omega
  have hattrs := readAttrs_written hproper hnodup hfuel (t := t)
  have hhead : ∀ d v, name ++ (attrsText attrs ++ t) = d :: v → isName d = true := by
    intro d v h
    obtain ⟨e, name', rfl⟩ := List.exists_cons_of_ne_nil hne
    exact (List.cons.inj h).1 ▸ hname e List.mem_cons_self
  rw [readEvents, htext, dropWhile_tag hs]
  generalize name ++ (attrsText attrs ++ t) = v at *
  split
  · rename_i h
    exact nomatch h
  · rename_i h
    exact absurd (hhead _ _ (List.cons.inj h).2) (by decide)
  · rename_i h
    exact absurd (hhead _ _ (List.cons.inj h).2) (by decide)
  · rename_i h
    obtain ⟨-, rfl⟩ := List.cons.inj h
    rw [htake, hdrop, hattrs, if_neg hne]
    cases attrs.mapM Attr.decoded with
    | none => rfl
    | some as =>
      change ((readEvents fuel t).bind fun events => some (Event.start name as :: events)) = _
      cases readEvents fuel t <;> rfl

theorem readEvents_finish (hs : '<' ∉ s) (hname : ∀ c ∈ name, isName c = true) :
    readEvents (fuel + 1) (s ++ (finishTag name ++ t)) = (readEvents fuel t).map (.finish name :: ·) := by
  have htext : finishTag name ++ t = '<' :: '/' :: (name ++ '>' :: t) := by simp [finishTag]
  have hstop : isName '>' = false := by decide
  rw [readEvents, htext, dropWhile_tag hs]
  change (match ((name ++ '>' :: t).dropWhile isName).dropWhile isSpace with
    | '>' :: rest => (readEvents fuel rest).map (Event.finish ((name ++ '>' :: t).takeWhile isName) :: ·)
    | _ => none) = _
  rw [takeWhile_stop hname hstop, dropWhile_stop hname hstop]
  rfl

theorem readEvents_text (hs : '<' ∉ s) : readEvents (fuel + 1) s = some [] := by
  have hnil : s.dropWhile (· ≠ '<') = [] := by
    rw [List.dropWhile_eq_nil_iff]
    intro c hc
    rw [decide_eq_true_eq]
    rintro rfl
    exact hs hc
  rw [readEvents, hnil]

/-- What stands before the first element is passed over. -/
theorem readEvents_declaration (hs : '>' ∉ s) :
    readEvents (fuel + 1) ('<' :: '?' :: (s ++ '>' :: t)) = readEvents fuel ('>' :: t) := by
  have hdrop : (s ++ '>' :: t).dropWhile (· ≠ '>') = '>' :: t := by
    refine dropWhile_stop (fun c hc => ?_) (by simp)
    rw [decide_eq_true_eq]
    rintro rfl
    exact hs hc
  change readEvents fuel ((s ++ '>' :: t).dropWhile (· ≠ '>')) = _
  rw [hdrop]

end
end W1Retap.Xml
