import Mathlib
import W1Retap.Model.Machine
import W1Retap.Support.CStrings

/-!
# What `-v` shows

`w1_show` writes the sensors, the plugins and the settings to `stderr`. In the parameter of
a plugin it overwrites what follows the first `password=`, as far as the next white space.
Of the parameters of `libpq` it thus knows one spelling: blanks around the `=` and quotes
around the value belong to the syntax as well.
-/
namespace W1Retap

open CStrings

/-! ## The text -/

/-- What `printf` makes of numbers and addresses, and the names that GLib has for modules. -/
structure Formats where
  /-- `%.nf` -/
  fixed : ℕ → ℚ → CString
  /-- `%p` -/
  pointer : Option Handle → CString
  moduleName : Option Handle → CString

/-- `%d` -/
def showInt (n : Int) : CString := (toString n).toList

/-- `%s` -/
def showStr (s : Option CString) : CString := s.getD "(null)".toList

def passwordKey : CString := "password=".toList

/-- The loop over `q`, from behind the key on. -/
def maskValue (q : CString) : CString :=
  (q.takeWhile fun c => !isspace c).map (fun _ => '*') ++ q.dropWhile fun c => !isspace c

/-- `strcasestr (s, "password=")`, and the loop from behind it on. -/
def maskParam : CString → CString
  | [] => []
  | c :: s =>
    if passwordKey.isPrefixOf ((c :: s).map tolower) then
      (c :: s).take passwordKey.length ++ maskValue ((c :: s).drop passwordKey.length)
    else c :: maskParam s

section
variable (fmt : Formats)

def showSensor (j : ℕ) (x : Sensor) : CString :=
  match x.abbrv with
  | none => []
  | some abbrv =>
    ['\t'] ++ showInt (j + 1) ++ ": ".toList ++ abbrv ++ [' '] ++ showStr x.name ++ [' '] ++
      x.units.getD [] ++
      (if x.has w1Roc then ", ".toList ++ fmt.fixed 4 x.roc ++ " /min".toList else []) ++
      (if x.has w1Rmin then ", min=".toList ++ fmt.fixed 2 x.rmin else []) ++
      (if x.has w1Rmax then ", max=".toList ++ fmt.fixed 2 x.rmax else []) ++ ['\n']

def showCoupler (devs : List Device) (c : Coupler) : CString :=
  "\tVia coupler: ".toList ++ showStr ((devs[c.couplerDevice]?).bind Device.serial) ++
    ", ".toList ++ (if c.branch = couplerAuxOn then "aux" else "main").toList ++ ['\n']

def showParams (ps : List ℚ) : CString :=
  "\tParameters:".toList ++ ps.flatMap (fun p => ' ' :: fmt.fixed 6 p) ++ ['\n']

def showDevice (devs : List Device) (d : Device) : CString :=
  showStr d.serial ++ [' '] ++ showStr d.devtype ++ " (".toList ++ showInt d.intvl ++
    "s)".toList ++ (if d.stype = .invalid then " !".toList else []) ++ ['\n'] ++
    d.coupler.elim [] (showCoupler devs) ++
    (if d.stype ≠ .coupler then d.params.elim [] (showParams fmt) else []) ++
    ((d.s.take d.ns).mapIdx (showSensor fmt)).flatten

def DllType.char : DllType → Char
  | .unset => '\x00'
  | .c => 'c'
  | .l => 'l'
  | .r => 'r'

def showPlugin (i : ℕ) (dll : Dll) : CString :=
  (if i < 10 then [' '] else []) ++ showInt i ++ ": ".toList ++ [dll.type.char] ++ " [".toList ++
    fmt.pointer dll.handle ++ "] ".toList ++ fmt.moduleName dll.handle ++ " => ".toList ++
    dll.param.elim [] maskParam ++ ['\n']

def showPlugins (w1 : DevList) : CString :=
  (if w1.ndll ≠ 0 then "Plugins:\n".toList else []) ++
    (List.range w1.ndll).flatMap fun i => (w1.dlls[i]?).elim [] (showPlugin fmt i)

def showSettings (w1 : DevList) : CString :=
  (if w1.altitude ≠ 0 then "Normalising pressure for ".toList ++ showInt w1.altitude ++ "m\n".toList
    else []) ++
    (if w1.vaneOffset ≠ 0 then "Vane offset ".toList ++ showInt w1.vaneOffset ++ ['\n'] else []) ++
    (if w1.logtmp ≠ 0 then "Log file is ".toList ++ showStr w1.tmpname ++ ['\n'] else []) ++
    "Interval ".toList ++ showInt w1.delay ++ "s, cycle ".toList ++ showInt w1.cycle ++
    "s\n".toList ++
    "Release i/face ".toList ++ (if w1.releaseMe then ['1'] else ['0']) ++ ['\n'] ++
    w1.presReductionTemp.elim [] (fun t =>
      "Pressure reduction temp ".toList ++ fmt.fixed 2 t ++ ['\n']) ++
    (if w1.allowEscape then "Allowing rate limit escapes\n".toList else []) ++
    (if w1.forceUtc then "dates logged at UTC\n".toList else [])

/-- `w1_show`, when it is asked to show anything. -/
def w1Show (w1 : DevList) : CString :=
  (if w1.devs ≠ [] then "Sensors:\n".toList else []) ++
    w1.devs.flatMap (showDevice fmt w1.devs) ++ showPlugins fmt w1 ++ showSettings fmt w1

end

/-! ## A password in a parameter string -/

/-- The place of a password in a parameter string: the entries around it, the blanks around
its `=`, and whether it is quoted. -/
structure PasswordEntry where
  before : CString
  gap : CString
  gap' : CString
  quoted : Bool
  after : CString
  gap_blank : ∀ c ∈ gap, isspace c
  gap'_blank : ∀ c ∈ gap', isspace c

namespace PasswordEntry

variable (e : PasswordEntry)

/-- The string up to the value. -/
def front : CString := e.before ++ "password".toList ++ e.gap ++ ['='] ++ e.gap'

def quote : CString := if e.quoted then ['\''] else []

/-- The parameter string with the password `p`. -/
def param (p : CString) : CString := e.front ++ e.quote ++ p ++ (e.quote ++ e.after)

/-- The password can stand there as it is: without quotes and backslashes, and unless it is
quoted with at least one character and no white space. -/
def Spells (p : CString) : Prop :=
  (∀ c ∈ p, c ≠ '\'' ∧ c ≠ '\\') ∧ (e.quoted = false → p ≠ [] ∧ ∀ c ∈ p, ¬ isspace c)

end PasswordEntry

/-- What follows the first `password=`, in any case of letters. -/
def afterPassword : CString → Option CString
  | [] => none
  | c :: s =>
    if passwordKey.isPrefixOf ((c :: s).map tolower) then some ((c :: s).drop passwordKey.length)
    else afterPassword s

/-- No quotes, and no white space between the first `password=` and the value. -/
def PasswordEntry.Masked (e : PasswordEntry) : Prop :=
  e.quoted = false ∧ ∃ rest, afterPassword e.front = some rest ∧ ∀ c ∈ rest, ¬ isspace c

/-- The plugin in slot `k` is given the parameter string `param`. -/
def DevList.withParam (w1 : DevList) (k : ℕ) (param : CString) : DevList :=
  w1.modifyDll k fun dll => { dll with param := some param }

/-- Passwords of one length cannot be told apart by what is shown. -/
def Hidden (fmt : Formats) (w1 : DevList) (k : ℕ) (e : PasswordEntry) : Prop :=
  ∀ p q, e.Spells p → e.Spells q → p.length = q.length →
    w1Show fmt (w1.withParam k (e.param p)) = w1Show fmt (w1.withParam k (e.param q))

/-! ## What the loop overwrites -/

section
variable {s t rest : CString} {c : Char}

theorem maskValue_append (h : ∀ c ∈ s, ¬ isspace c) :
    maskValue (s ++ t) = List.replicate s.length '*' ++ maskValue t := by
  have hs : ∀ c ∈ s, (!isspace c) = true := by simpa using h
  unfold maskValue
  rw [List.takeWhile_append_of_pos hs, List.dropWhile_append_of_pos hs, List.map_append,
    List.map_const', List.append_assoc]

/-- The loop ends at the first white space. -/
theorem maskValue_blank (h : ∃ c ∈ s, isspace c) : maskValue (s ++ t) = maskValue s ++ t := by
  have hstop : ¬ ∀ c ∈ s, (!isspace c) = true := by simpa using h
  unfold maskValue
  rw [List.takeWhile_append, List.dropWhile_append]
  have htake : (s.takeWhile fun c => !isspace c).length ≠ s.length := by
    intro hlen
    have hall := List.takeWhile_eq_self_iff.mp
      ((List.takeWhile_prefix _).eq_of_length hlen)
    exact hstop hall
  have hdrop : (s.dropWhile fun c => !isspace c).isEmpty = false := by
    rw [List.isEmpty_eq_false_iff, ne_eq, List.dropWhile_eq_nil_iff]
    exact hstop
  rw [if_neg htake, hdrop]
  simp

theorem maskValue_cons_blank (h : isspace c) : maskValue (c :: s) = c :: s := by
  simp [maskValue, h]

theorem maskValue_cons (h : ¬ isspace c) : maskValue (c :: s) = '*' :: maskValue s := by
  simp [maskValue, h]

theorem maskParam_key (h : passwordKey.isPrefixOf ((c :: s).map tolower)) :
    maskParam (c :: s) =
      (c :: s).take passwordKey.length ++ maskValue ((c :: s).drop passwordKey.length) := by
  rw [maskParam, if_pos h]

theorem maskParam_cons (h : ¬ passwordKey.isPrefixOf ((c :: s).map tolower)) :
    maskParam (c :: s) = c :: maskParam s := by
  rw [maskParam, if_neg h]

theorem maskParam_cons_of_ne (h : tolower c ≠ 'p') : maskParam (c :: s) = c :: maskParam s := by
  apply maskParam_cons
  rw [List.isPrefixOf_iff_prefix, List.map_cons]
  rintro ⟨t, ht⟩
  exact h (List.cons.inj ht).1.symm

theorem afterPassword_length (h : afterPassword s = some rest) : passwordKey.length ≤ s.length := by
  induction s with
  | nil => exact nomatch h
  | cons c s ih =>
    rw [afterPassword] at h
    split at h
    · rename_i hkey
      simpa using (List.isPrefixOf_iff_prefix.mp hkey).length_le
    · exact (ih h).trans (Nat.le_succ _)

/-- A key that stands across the end of `s` has its first eight letters at most in `s`. -/
theorem key_across (hs : ¬ passwordKey.isPrefixOf (s.map tolower))
    (hst : passwordKey.isPrefixOf ((s ++ t).map tolower)) :
    s.length < passwordKey.length ∧ ∀ c ∈ s, tolower c ∈ "password".toList := by
  rw [List.isPrefixOf_iff_prefix] at hs hst
  rw [List.map_append] at hst
  have hlen : s.length < passwordKey.length := by
    by_contra hle
    have hle' : passwordKey.length ≤ (s.map tolower).length := by simpa using hle
    exact hs (List.prefix_of_prefix_length_le hst (List.prefix_append ..) hle')
  refine ⟨hlen, fun c hc => ?_⟩
  have hpre : s.map tolower <+: passwordKey :=
    List.prefix_of_prefix_length_le (List.prefix_append ..) hst (by simpa using hlen.le)
  have hshort : s.map tolower <+: "password".toList :=
    List.prefix_of_prefix_length_le hpre ⟨['='], rfl⟩ (by simpa using Nat.le_of_lt_succ hlen)
  exact hshort.subset (List.mem_map_of_mem hc)

/-- Behind a first key the loop goes on into what follows. -/
theorem maskParam_found (h : afterPassword s = some rest) :
    ∃ x, s = x ++ rest ∧ ∀ t, maskParam (s ++ t) = x ++ maskValue (rest ++ t) := by
  induction s with
  | nil => exact nomatch h
  | cons c s ih =>
    rw [afterPassword] at h
    by_cases hkey : passwordKey.isPrefixOf ((c :: s).map tolower)
    · rw [if_pos hkey] at h
      obtain rfl := Option.some.inj h
      refine ⟨(c :: s).take passwordKey.length, (List.take_append_drop ..).symm, fun t => ?_⟩
      have hlen : passwordKey.length ≤ (c :: s).length := by
        simpa using (List.isPrefixOf_iff_prefix.mp hkey).length_le
      have hkey' : passwordKey.isPrefixOf ((c :: (s ++ t)).map tolower) := by
        rw [List.isPrefixOf_iff_prefix] at hkey ⊢
        rw [← List.cons_append, List.map_append]
        exact hkey.trans (List.prefix_append ..)
      rw [List.cons_append, maskParam_key hkey', ← List.cons_append,
        List.take_append_of_le_length hlen, List.drop_append_of_le_length hlen]
    · rw [if_neg hkey] at h
      obtain ⟨x, hs, hmask⟩ := ih h
      refine ⟨c :: x, by rw [hs]; rfl, fun t => ?_⟩
      have hkey' : ¬ passwordKey.isPrefixOf ((c :: (s ++ t)).map tolower) := by
        intro hacross
        have hlt := (key_across (s := c :: s) hkey hacross).1
        have hle := afterPassword_length h
        rw [List.length_cons] at hlt
        omega
      rw [List.cons_append, maskParam_cons hkey', hmask]
      rfl

/-- What holds no key and does not end within one is shown as it is. -/
theorem maskParam_none (h : afterPassword s = none)
    (hlast : ∀ c, s.getLast? = some c → tolower c ∉ "password".toList) :
    maskParam (s ++ t) = s ++ maskParam t := by
  induction s with
  | nil => rfl
  | cons c s ih =>
    rw [afterPassword] at h
    by_cases hkey : passwordKey.isPrefixOf ((c :: s).map tolower)
    · rw [if_pos hkey] at h
      exact nomatch h
    · rw [if_neg hkey] at h
      have hkey' : ¬ passwordKey.isPrefixOf ((c :: (s ++ t)).map tolower) := by
        intro hacross
        have hall := (key_across (s := c :: s) hkey hacross).2
        have hend := List.getLast?_eq_some_getLast (List.cons_ne_nil c s)
        exact hlast _ hend (hall _ (List.getLast_mem _))
      have hlast' : ∀ c, s.getLast? = some c → tolower c ∉ "password".toList := by
        intro c' hc'
        apply hlast
        rw [List.getLast?_cons, hc']
        rfl
      rw [List.cons_append, maskParam_cons hkey', ih h hlast']
      rfl

end

/-! ## One parameter in the text -/

section
variable {fmt : Formats} {w1 : DevList} {k : ℕ}

theorem showPlugin_inj {i : ℕ} {dll : Dll} {s t : CString} :
    showPlugin fmt i { dll with param := some s } = showPlugin fmt i { dll with param := some t } ↔
      maskParam s = maskParam t := by
  simp only [showPlugin, Option.elim_some, List.append_assoc, List.append_cancel_left_eq,
    List.append_cancel_right_eq]

theorem flatMap_congr_at {α β : Type} {l : List α} {f g : α → List β} {x : α} (hx : x ∈ l)
    (hnodup : l.Nodup) (h : ∀ y ∈ l, y ≠ x → f y = g y) :
    l.flatMap f = l.flatMap g ↔ f x = g x := by
  obtain ⟨a, b, rfl⟩ := List.append_of_mem hx
  obtain ⟨hxa, hxb⟩ : x ∉ a ∧ x ∉ b := by
    rw [List.nodup_middle, List.nodup_cons, List.mem_append, not_or] at hnodup
    exact hnodup.1
  have ha : a.flatMap f = a.flatMap g := by
    apply List.flatMap_congr
    intro y hy
    exact h y (by simp [hy]) fun heq => hxa (heq ▸ hy)
  have hb : b.flatMap f = b.flatMap g := by
    apply List.flatMap_congr
    intro y hy
    exact h y (by simp [hy]) fun heq => hxb (heq ▸ hy)
  rw [List.flatMap_append, List.flatMap_append, List.flatMap_cons, List.flatMap_cons, ha, hb,
    List.append_cancel_left_eq, List.append_cancel_right_eq]

/-- Of two parameters for one plugin all that shows is what the loop leaves of them. -/
theorem w1Show_withParam (hk : k < w1.ndll) (hdll : k < maxDll) (s t : CString) :
    w1Show fmt (w1.withParam k s) = w1Show fmt (w1.withParam k t) ↔ maskParam s = maskParam t := by
  have hother : ∀ i ≠ k, (w1.withParam k s).dlls[i]? = (w1.withParam k t).dlls[i]? := by
    intro i hi
    rw [DevList.withParam, DevList.withParam, DevList.modifyDll_getElem?,
      DevList.modifyDll_getElem?, if_neg hi, if_neg hi]
  have hslot : ∀ u, (w1.withParam k u).dlls[k]? = some { w1.dlls[k] with param := some u } := by
    intro u
    rw [DevList.withParam, DevList.modifyDll_getElem?, if_pos rfl,
      Vector.getElem?_eq_getElem hdll, Option.map_some]
  have hplugins : showPlugins fmt (w1.withParam k s) = showPlugins fmt (w1.withParam k t) ↔
      maskParam s = maskParam t := by
    unfold showPlugins
    rw [show (w1.withParam k s).ndll = w1.ndll from rfl,
      show (w1.withParam k t).ndll = w1.ndll from rfl, List.append_cancel_left_eq,
      flatMap_congr_at (List.mem_range.mpr hk) List.nodup_range, hslot, hslot]
    · exact showPlugin_inj
    · intro i _ hi
      rw [hother i hi]
  have hrest : ∀ u, w1Show fmt (w1.withParam k u) =
      (if w1.devs ≠ [] then "Sensors:\n".toList else []) ++
        w1.devs.flatMap (showDevice fmt w1.devs) ++ showPlugins fmt (w1.withParam k u) ++
        showSettings fmt w1 := fun _ => rfl
  rw [← hplugins, hrest, hrest, List.append_cancel_right_eq, List.append_cancel_left_eq]

end

/-! ## When passwords are hidden -/

namespace PasswordEntry

variable {e : PasswordEntry}

/-- The text before the value ends with a blank, a quote or the `=`. -/
theorem lead_last {c : Char} (h : (e.front ++ e.quote).getLast? = some c) :
    tolower c ∉ "password".toList := by
  have hblank : ∀ c, isspace c → tolower c ∉ "password".toList := by
    intro c hc
    simp only [isspace, Bool.or_eq_true, beq_iff_eq] at hc
    obtain ((((rfl | rfl) | rfl) | rfl) | rfl) | rfl := hc <;> decide
  unfold front quote at h
  cases hq : e.quoted with
  | true =>
    rw [hq, if_pos rfl, List.getLast?_concat] at h
    obtain rfl := Option.some.inj h
    decide
  | false =>
    rw [hq, if_neg (by simp), List.append_nil] at h
    rcases List.eq_nil_or_concat e.gap' with hnil | ⟨g, b, hgap⟩
    · rw [hnil, List.append_nil, List.getLast?_concat] at h
      obtain rfl := Option.some.inj h
      decide
    · rw [hgap, List.concat_eq_append, ← List.append_assoc, List.getLast?_concat] at h
      obtain rfl := Option.some.inj h
      exact hblank b (e.gap'_blank b (by simp [hgap]))

theorem maskParam_param_of_masked (h : e.Masked) :
    ∃ x y, ∀ p, e.Spells p → maskParam (e.param p) = x ++ List.replicate p.length '*' ++ y := by
  obtain ⟨hquoted, rest, hrest, hblank⟩ := h
  obtain ⟨x, -, hmask⟩ := maskParam_found hrest
  refine ⟨x ++ List.replicate rest.length '*', maskValue e.after, fun p hp => ?_⟩
  have hparam : e.param p = e.front ++ (p ++ e.after) := by
    simp [param, quote, hquoted]
  rw [hparam, hmask, maskValue_append hblank, maskValue_append (hp.2 hquoted).2]
  simp only [List.append_assoc]

/-- What is not masked tells two passwords of one or two characters apart. -/
theorem exists_shown (h : ¬ e.Masked) :
    ∃ p q, e.Spells p ∧ e.Spells q ∧ p.length = q.length ∧
      maskParam (e.param p) ≠ maskParam (e.param q) := by
  have hspells : ∀ c : Char, c ∈ ['x', 'y'] → e.Spells [c] := by
    intro c hc
    fin_cases hc <;> exact ⟨by decide, fun _ => by decide⟩
  have hparam : ∀ p, e.param p = (e.front ++ e.quote) ++ (p ++ (e.quote ++ e.after)) := by
    intro p
    simp [param]
  cases hlead : afterPassword (e.front ++ e.quote) with
  | none =>
    have hmask := fun t => maskParam_none (t := t) hlead fun c => lead_last
    refine ⟨['x'], ['y'], hspells _ (by simp), hspells _ (by simp), rfl, ?_⟩
    rw [hparam, hparam, hmask, hmask, List.singleton_append, List.singleton_append,
      maskParam_cons_of_ne (by decide), maskParam_cons_of_ne (by decide)]
    simp
  | some rest =>
    obtain ⟨x, -, hmask⟩ := maskParam_found hlead
    by_cases hblank : ∃ c ∈ rest, isspace c
    · refine ⟨['x'], ['y'], hspells _ (by simp), hspells _ (by simp), rfl, ?_⟩
      rw [hparam, hparam, hmask, hmask, maskValue_blank hblank, maskValue_blank hblank]
      simp
    · have hrest : ∀ c ∈ rest, ¬ isspace c := fun c hc hs => hblank ⟨c, hc, hs⟩
      have hquoted : e.quoted = true := by
        by_contra hq
        have hq' : e.quoted = false := by simpa using hq
        rw [quote, if_neg hq, List.append_nil] at hlead
        exact h ⟨hq', rest, hlead, hrest⟩
      refine ⟨[' '], ['x'], ⟨by decide, fun hq => ?_⟩, hspells _ (by simp), rfl, ?_⟩
      · rw [hquoted] at hq
        exact nomatch hq
      · rw [hparam, hparam, hmask, hmask, maskValue_append hrest, maskValue_append hrest,
          List.singleton_append, List.singleton_append, maskValue_cons_blank (by decide),
          maskValue_cons (by decide)]
        simp

end PasswordEntry

/-- Passwords of one length are shown alike exactly when the value is not quoted and no
white space stands between the first `password=` of the parameter and the value. -/
theorem passwords_hidden_iff (fmt : Formats) (w1 : DevList) {k : ℕ} (hk : k < w1.ndll)
    (hdll : k < maxDll) (e : PasswordEntry) : Hidden fmt w1 k e ↔ e.Masked := by
  constructor
  · intro h
    by_contra hmasked
    obtain ⟨p, q, hp, hq, hlen, hne⟩ := PasswordEntry.exists_shown hmasked
    exact hne ((w1Show_withParam hk hdll _ _).mp (h p q hp hq hlen))
  · intro h p q hp hq hlen
    obtain ⟨x, y, hmask⟩ := PasswordEntry.maskParam_param_of_masked h
    rw [w1Show_withParam hk hdll, hmask p hp, hmask q hq, hlen]

/-- Formats for numbers and addresses that do not matter. -/
def Formats.plain : Formats where
  fixed := fun _ x => showInt x.floor
  pointer := fun _ => "0x8079490".toList
  moduleName := fun handle => handle.elim "main".toList Handle.file

/-- One logger. -/
def oneLogger : DevList :=
  { ndll := 1, dlls := Vector.replicate maxDll { type := .l, handle := some ⟨"libw1pgsql.so".toList, 0⟩ } }

/-- `dbname=sensors user=w1retap password=...` -/
def plainEntry : PasswordEntry where
  before := "dbname=sensors user=w1retap ".toList
  gap := []
  gap' := []
  quoted := false
  after := []
  gap_blank := by decide
  gap'_blank := by decide

theorem passwords_hidden_iff_plain : Hidden .plain oneLogger 0 plainEntry :=
  (passwords_hidden_iff .plain oneLogger (by decide) (by decide) plainEntry).mpr
    ⟨rfl, [], by decide, by decide⟩

/-- `dbname=sensors password = ...` -/
def spacedEntry : PasswordEntry :=
  { plainEntry with gap := [' '], gap' := [' '], gap_blank := by decide, gap'_blank := by decide }

/-- `dbname=sensors password='...'` -/
def quotedEntry : PasswordEntry := { plainEntry with quoted := true }

/-- A password behind blanks is shown, and of a quoted one what follows its first blank. -/
theorem password_shown :
    ¬ Hidden .plain oneLogger 0 spacedEntry ∧ ¬ Hidden .plain oneLogger 0 quotedEntry := by
  constructor
  · intro h
    have hsame := h "hush".toList "talk".toList ⟨by decide, fun _ => by decide⟩
      ⟨by decide, fun _ => by decide⟩ rfl
    rw [w1Show_withParam (by decide) (by decide)] at hsame
    exact absurd hsame (by decide)
  · intro h
    have hsame := h "be hush".toList "do talk".toList ⟨by decide, fun hq => nomatch hq⟩
      ⟨by decide, fun hq => nomatch hq⟩ rfl
    rw [w1Show_withParam (by decide) (by decide)] at hsame
    exact absurd hsame (by decide)

end W1Retap
