import W1Retap.Bus.Exchanges
import W1Retap.Bus.Finding

/-!
# `owVerify_`

The net is searched for one serial number: at each position the devices that are still in answer
with their bit and with its complement, and those stay that have the bit of the serial number. The
device is there if it is among those that answer and at least eight positions show its bit alone,
which is always so on a net of up to 57 devices.
-/
namespace W1Retap.Bus.Ds2480

open Programs Framing BitSearch

/-! ## What the devices answer -/

/-- The two slots of each position: the devices that are still in pull them low. -/
def SlotsOf (A : List Serno) (path : ℕ → Bool) (r : Vector UInt8 25) : Prop :=
  ∀ i < 64,
    bitRead r (8 + i * 3) = (remaining bitRead A path i).all (bitRead · i) ∧
    bitRead r (8 + (i * 3 + 1)) = (remaining bitRead A path i).all fun u => !bitRead u i

/-- These devices take part in a search with this command, when the two slots of each position are
left to them. -/
structure Searchable (com : Com) (c₀ : Chip) (command : UInt8) (A : List Serno) : Prop where
  slots : ∀ t (bytes : Vector UInt8 24),
    (∀ i < 64, bitRead bytes (i * 3) = true ∧ bitRead bytes (i * 3 + 1) = true) →
    Asks c₀ t (.data command :: bytes.toList.map .data) →
    ∃ r, com.readCOM t 25 = some r ∧ SlotsOf A (fun i => bitRead bytes (i * 3 + 2)) r

/-! ## The good bits -/

section
variable {A : List Serno} {v : Serno}

theorem bitRead_verifyBytes (v : Serno) {j : ℕ} (hj : j < 192) :
    bitRead (verifyBytes v) j = if j % 3 = 2 then bitRead v (j / 3) else true := by
  have hones : bitRead (Vector.replicate 24 (0xFF : UInt8)) j = true := by
    have hbyte : ∀ i < 8, (0xFF : UInt8).toNat.testBit i = true := by decide
    have hlength : j / 8 < (List.replicate 24 (0xFF : UInt8)).length := by
      rw [List.length_replicate]
      omega
    rw [bitRead, Vector.toList_replicate, List.getD_eq_getElem _ _ hlength, List.getElem_replicate]
    exact hbyte _ (Nat.mod_lt _ (by decide))
  have hfold : ∀ n ≤ 64, bitRead ((List.range n).foldl
      (fun buf i => bitWrite (bitRead v i) ((i + 1) * 3 - 1) buf) (Vector.replicate 24 0xFF)) j =
      if j % 3 = 2 ∧ j / 3 < n then bitRead v (j / 3) else true := by
    intro n hn
    induction n with
    | zero => rw [if_neg fun h => absurd h.2 (Nat.not_lt_zero _)]; exact hones
    | succ n ih =>
      rw [List.range_succ, List.foldl_append, List.foldl_cons, List.foldl_nil,
        bitRead_bitWrite _ _ _ (by omega), ih (by omega)]
      by_cases hj : j = (n + 1) * 3 - 1
      · have hdiv : j / 3 = n := by omega
        rw [if_pos hj, if_pos (by omega), hdiv]
      · rw [if_neg hj]
        by_cases hmod : j % 3 = 2 ∧ j / 3 < n
        · rw [if_pos hmod, if_pos (by omega)]
        · rw [if_neg hmod, if_neg (by omega)]
  rw [verifyBytes, hfold 64 le_rfl]
  by_cases hmod : j % 3 = 2
  · rw [if_pos hmod, if_pos (by omega)]
  · rw [if_neg hmod, if_neg fun h => hmod h.1]

/-- The slots of devices that are still in: both are high for none of them, and they show a bit
alone exactly where all devices have it. -/
theorem slots_of_ne_nil {l : List Serno} (hne : l ≠ []) (i : ℕ) (b : Bool) :
    ¬ (l.all (bitRead · i) = true ∧ (l.all fun u => !bitRead u i) = true) ∧
      ((l.all (bitRead · i) = b ∧ (l.all fun u => !bitRead u i) = !b) ↔
        (l.all fun u => bitRead u i == b) = true) := by
  obtain ⟨w, hw⟩ := List.exists_mem_of_ne_nil l hne
  refine ⟨fun h => ?_, ?_⟩
  · have hone := List.all_eq_true.mp h.1 w hw
    have hzero := List.all_eq_true.mp h.2 w hw
    simp only [hone, Bool.not_true, Bool.false_eq_true] at hzero
  · cases b with
    | true =>
      have hall : (l.all fun u => bitRead u i == true) = l.all (bitRead · i) := by simp
      rw [hall]
      refine ⟨fun h => h.1, fun h => ⟨h, ?_⟩⟩
      refine List.all_eq_false.mpr ⟨w, hw, ?_⟩
      rw [List.all_eq_true.mp h w hw]
      decide
    | false =>
      have hall : (l.all fun u => bitRead u i == false) = l.all fun u => !bitRead u i := by simp
      rw [hall]
      refine ⟨fun h => h.2, fun h => ⟨?_, h⟩⟩
      refine List.all_eq_false.mpr ⟨w, hw, ?_⟩
      have hzero := List.all_eq_true.mp h w hw
      simpa using hzero

/-- The loop over positions at which a device takes part counts those that agree. -/
theorem goodBits_eq {r : Vector UInt8 25} (hr : SlotsOf A (bitRead v) r) (is : List ℕ) (n : ℕ)
    (his : ∀ i ∈ is, i < 64 ∧ remaining bitRead A (bitRead v) i ≠ []) :
    goodBits v r is n = n + is.countP (agreeing bitRead A (bitRead v)) := by
  induction is generalizing n with
  | nil => rfl
  | cons i is ih =>
    obtain ⟨hi, hne⟩ := his i List.mem_cons_self
    obtain ⟨hbit, hcomplement⟩ := hr i hi
    obtain ⟨hquiet, hgood⟩ := slots_of_ne_nil hne i (bitRead v i)
    have hrest := fun m => ih m fun j hj => his j (List.mem_cons_of_mem i hj)
    rw [goodBits]
    simp only [hbit, hcomplement]
    rw [if_neg hquiet]
    by_cases hagree : agreeing bitRead A (bitRead v) i = true
    · rw [if_pos (hgood.mpr hagree), hrest, List.countP_cons_of_pos hagree]
      omega
    · rw [if_neg fun h => hagree (hgood.mp h), hrest, List.countP_cons_of_neg hagree]

/-- Where none takes part any more the count is lost. -/
theorem goodBits_none {r : Vector UInt8 25} (hr : SlotsOf A (bitRead v) r) (is : List ℕ) (n : ℕ)
    {i : ℕ} (hi : i ∈ is) (hlt : ∀ i ∈ is, i < 64)
    (hnone : remaining bitRead A (bitRead v) i = []) : goodBits v r is n = 0 := by
  induction is generalizing n with
  | nil => exact absurd hi List.not_mem_nil
  | cons j is ih =>
    obtain ⟨hbit, hcomplement⟩ := hr j (hlt j List.mem_cons_self)
    rw [goodBits]
    simp only [hbit, hcomplement]
    rcases List.mem_cons.mp hi with rfl | hi
    · rw [hnone, if_pos ⟨rfl, rfl⟩]
    · have hrest := fun m => ih m hi fun k hk => hlt k (List.mem_cons_of_mem j hk)
      split
      · rfl
      · split
        · exact hrest _
        · exact hrest _

/-- Valid serial numbers that agree on all bits but the last are the same, so the one that is
searched for is among the devices if one of them takes part to the end. -/
theorem remaining_last (hv : Valid v) (hA : ∀ u ∈ A, Valid u) :
    remaining bitRead A (bitRead v) 63 ≠ [] ↔ v ∈ A := by
  constructor
  · intro hne
    obtain ⟨u, hu⟩ := List.exists_mem_of_ne_nil _ hne
    obtain ⟨hmem, hpath⟩ := mem_remaining.mp hu
    have hsame : Same bitRead 63 u v := hpath
    rw [← (hA u hmem).eq_of_same hv (hsame.mono (by decide))]
    exact hmem
  · exact fun h => List.ne_nil_of_mem (mem_remaining.mpr ⟨h, fun _ _ => rfl⟩)

theorem goodBits_iff {r : Vector UInt8 25} (hr : SlotsOf A (bitRead v) r) (hv : Valid v)
    (hA : ∀ u ∈ A, Valid u) : 8 ≤ goodBits v r (List.range 64) 0 ↔
      v ∈ A ∧ 8 ≤ (List.range 64).countP (agreeing bitRead A (bitRead v)) := by
  rw [← remaining_last hv hA]
  by_cases hne : remaining bitRead A (bitRead v) 63 = []
  · rw [goodBits_none hr _ 0 (i := 63) (by decide) (fun i hi => List.mem_range.mp hi) hne]
    exact iff_of_false (by decide) fun h => h.1 hne
  · rw [goodBits_eq hr _ 0 fun i hi => ?_, Nat.zero_add]
    · exact (and_iff_right hne).symm
    · have hlt := List.mem_range.mp hi
      exact ⟨hlt, remaining_ne_nil hne (by omega)⟩

end

/-! ## On the line -/

section
variable {com : Com} {c₀ : Chip} {S A : List Serno} {s : Searching}

/-- A block that fits goes out as data, and what comes back is its answer. -/
theorem Net.sends (hnet : Net com c₀ S) {k : ℕ} {tranBuf : Vector UInt8 k}
    (hfits : Fits tranBuf.toList) :
    KeepsTo (Held c₀ s) (sendBlock com tranBuf) fun answer l => Held c₀ s l ∧
      ∃ t, Asks c₀ t (tranBuf.toList.map .data) ∧ answer = com.readCOM t k := by
  have hmode : KeepsTo (Held c₀ s) dataMode fun change l =>
      Turning c₀ s .data change l ∧ change.length ≤ 1 :=
    fun l hl => ⟨held_changeMode (fun mode hmode => by
      cases mode with
      | data => exact absurd rfl hmode
      | command => rfl) l hl, length_changeMode _ _ l⟩
  refine .bind hmode fun change => .given fun hchange => ?_
  have hbytes : (blockPacket change tranBuf.toList).bytes =
      change ++ tranBuf.toList.flatMap (stuff modeCommand) := by
    refine blockPacket_bytes ?_
    rw [Fits] at hfits
    omega
  rw [hbytes]
  have hsend : KeepsTo (Turning c₀ s .data change)
      (transfer com (change ++ tranBuf.toList.flatMap (stuff modeCommand)) k) fun answer l =>
        Held c₀ s l ∧ ∃ t, Asks c₀ t (tranBuf.toList.map .data) ∧ answer = com.readCOM t k := by
    intro l h
    obtain ⟨mode, hr, hturn⟩ := h.before
    have hreceives : receives (.on mode) (change ++ tranBuf.toList.flatMap (stuff modeCommand)) =
        (.on l.port.mode, tranBuf.toList.map .data) := by
      rw [hturn, h.mode]
      exact receiveAll_data _
    exact hnet.transfers h.searching h.speed h.level hr hreceives
  refine .bind hsend fun answer => ?_
  cases answer with
  | some r => exact .pure fun _ h => h
  | none =>
    refine .bind (Q := fun _ l => Held c₀ s l ∧ ∃ t, Asks c₀ t (tranBuf.toList.map .data) ∧
      none = com.readCOM t k) (fun l h => ⟨hnet.detects l h.1, h.2⟩) fun _ => .pure fun _ h => h

/-- The answer to the bits of `owVerify_`, which is missing on a net without devices. -/
theorem Net.slots (hnet : Net com c₀ S) {command : UInt8} (hsearch : Searchable com c₀ command A)
    (v : Serno) :
    KeepsTo (Held c₀ s) (owBlock com true ((#v[command] : Vector UInt8 1) ++ verifyBytes v))
      fun answer _ => answer = none ∧ S = [] ∨ ∃ r, answer = some r ∧ SlotsOf A (bitRead v) r := by
  have hbytes : ((#v[command] : Vector UInt8 1) ++ verifyBytes v).toList =
      command :: (verifyBytes v).toList := Vector.toList_append
  have hfits : Fits ((#v[command] : Vector UInt8 1) ++ verifyBytes v).toList :=
    fits_short (by rw [Vector.length_toList]; decide)
  have hslots : ∀ i < 64, bitRead (verifyBytes v) (i * 3) = true ∧
      bitRead (verifyBytes v) (i * 3 + 1) = true := by
    intro i hi
    rw [bitRead_verifyBytes v (by omega), bitRead_verifyBytes v (by omega), if_neg (by omega),
      if_neg (by omega)]
    exact ⟨rfl, rfl⟩
  have hpath : ∀ r, SlotsOf A (fun i => bitRead (verifyBytes v) (i * 3 + 2)) r →
      SlotsOf A (bitRead v) r := by
    intro r hr i hi
    have hsame : remaining bitRead A (fun i => bitRead (verifyBytes v) (i * 3 + 2)) i =
        remaining bitRead A (bitRead v) i := by
      refine List.filter_congr fun u _ => ?_
      rw [Bool.eq_iff_iff, List.all_eq_true, List.all_eq_true]
      refine forall₂_congr fun j hj => ?_
      have hlt := List.mem_range.mp hj
      have hdiv : (j * 3 + 2) / 3 = j := by omega
      change (bitRead u j == bitRead (verifyBytes v) (j * 3 + 2)) = true ↔ _
      rw [bitRead_verifyBytes v (by omega), if_pos (by omega), hdiv]
    rw [← hsame]
    exact hr i hi
  refine .ite (fun h => absurd h (by decide)) fun _ => .ite (fun _ => ?_) fun h => absurd rfl h
  refine .bind hnet.resets fun ok => ?_
  refine .ite (fun hok => ?_) fun hok => .pure fun l h => Or.inl ⟨rfl, ?_⟩
  · refine ((hnet.sends hfits).conseq (fun _ h => h.2) fun answer l h => Or.inr ?_)
    obtain ⟨-, t, hasks, rfl⟩ := h
    rw [hbytes] at hasks
    obtain ⟨r, hread, hr⟩ := hsearch.slots t (verifyBytes v) hslots hasks
    exact ⟨r, hread, hpath r hr⟩
  · exact by_contra fun hne => hok (h.1.mpr hne)

/-- `owVerify_` tells whether the device is among those that answer, unless fewer than eight
positions show its bit alone. -/
theorem owVerify_iff (hnet : Net com c₀ S) {alarmOnly : Bool}
    (hsearch : Searchable com c₀ (if alarmOnly then 0xEC else 0xF0) A) (hsub : A ⊆ S)
    (hA : ∀ u ∈ A, Valid u) {l : Line} (hheld : Held c₀ s l) (hv : Valid l.port.serialNum) :
    (owVerify com alarmOnly l).1 = true ↔ l.port.serialNum ∈ A ∧
      8 ≤ (List.range 64).countP (agreeing bitRead A (bitRead l.port.serialNum)) := by
  have hverdict : KeepsTo (fun l' => l' = l) (owVerify com alarmOnly) fun ok _ => ok = true ↔
      l.port.serialNum ∈ A ∧ 8 ≤ (List.range 64).countP (agreeing bitRead A
        (bitRead l.port.serialNum)) := by
    refine keeps_reading fun p l' h => ?_
    obtain ⟨rfl, rfl⟩ := h
    refine (hnet.slots hsearch l'.port.serialNum).bind (S := fun ok _ => ok = true ↔
      l'.port.serialNum ∈ A ∧ 8 ≤ (List.range 64).countP (agreeing bitRead A
        (bitRead l'.port.serialNum))) (fun answer => ?_) l' hheld
    cases answer with
    | none =>
      refine .pure fun _ h => iff_of_false Bool.false_ne_true fun hmem => ?_
      rcases h with ⟨-, rfl⟩ | ⟨r, hr, -⟩
      · exact List.not_mem_nil (hsub hmem.1)
      · cases hr
    | some r =>
      refine .pure fun _ h => ?_
      rcases h with ⟨hr, -⟩ | ⟨r', hr, hslots⟩
      · cases hr
      · obtain rfl := Option.some.inj hr
        exact decide_eq_true_iff.trans (goodBits_iff hslots hv hA)
  exact hverdict l rfl

/-- On a net of up to 57 devices it is exact. -/
theorem owVerify_present (hnet : Net com c₀ S) {alarmOnly : Bool}
    (hsearch : Searchable com c₀ (if alarmOnly then 0xEC else 0xF0) A) (hsub : A ⊆ S)
    (hA : ∀ u ∈ A, Valid u) (hfew : A.length ≤ 57) {l : Line} (hheld : Held c₀ s l)
    (hv : Valid l.port.serialNum) :
    (owVerify com alarmOnly l).1 = true ↔ l.port.serialNum ∈ A := by
  rw [owVerify_iff hnet hsearch hsub hA hheld hv]
  refine ⟨fun h => h.1, fun hmem => ⟨hmem, ?_⟩⟩
  have hcount : 64 < (List.range 64).countP (agreeing bitRead A (bitRead l.port.serialNum)) +
      A.length := length_lt_agreeing hmem 64
  omega

end

/-! ## An adapter for it -/

/-- The slots of the devices, and the bits that were written. -/
def slotBits (A : List Serno) (path : ℕ → Bool) : Vector UInt8 24 :=
  (List.range 192).foldl
    (fun buf j => bitWrite
      (if j % 3 = 0 then (remaining bitRead A path (j / 3)).all (bitRead · (j / 3))
      else if j % 3 = 1 then (remaining bitRead A path (j / 3)).all fun u => !bitRead u (j / 3)
      else path (j / 3)) j buf)
    (Vector.replicate 24 0)

theorem slotsOf_slotBits (A : List Serno) (path : ℕ → Bool) (echo : UInt8) :
    SlotsOf A path ((#v[echo] : Vector UInt8 1) ++ slotBits A path) := by
  intro i hi
  have hbit : ∀ j < 192, bitRead (slotBits A path) j =
      if j % 3 = 0 then (remaining bitRead A path (j / 3)).all (bitRead · (j / 3))
      else if j % 3 = 1 then (remaining bitRead A path (j / 3)).all fun u => !bitRead u (j / 3)
      else path (j / 3) := by
    intro j hj
    rw [slotBits, bitRead_foldl _ fun i hi => List.mem_range.mp hi, if_pos (List.mem_range.mpr hj)]
  have hdiv : i * 3 / 3 = i := by omega
  have hnext : (i * 3 + 1) / 3 = i := by omega
  constructor
  · rw [bitRead_behind, hbit _ (by omega), if_pos (by omega), hdiv]
  · rw [bitRead_behind, hbit _ (by omega), if_neg (by omega), if_pos (by omega), hnext]

/-- What is read after the bits of `owVerify_`. -/
def slotAnswer (S : List Serno) (ops : List (Framing.Op UInt8)) : Vector UInt8 25 :=
  let bytes := Vector.ofFn fun i : Fin 24 => ((ops.drop 1).map symbol).getD i 0
  Vector.singleton (0xF0 : UInt8) ++ slotBits S fun i => bitRead bytes (i * 3 + 2)

/-- An adapter that answers them as well. -/
def verifier (c₀ : Chip) (S : List Serno) : Com where
  writeCOM := (adapter c₀ S).writeCOM
  readCOM
    | .wrote packet _ :: t, 25 =>
      (chipAfter c₀ t).receiver.map fun r => slotAnswer S (receives r packet).2
    | t, n => (adapter c₀ S).readCOM t n

theorem net_verifier (c₀ : Chip) (S : List Serno) : Net (verifier c₀ S) c₀ S where
  takes := (net_adapter c₀ S).takes
  presence t speed h := by
    obtain ⟨b, hread, hb⟩ := (net_adapter c₀ S).presence t speed h
    obtain ⟨packet, t', r, rfl, -⟩ := h
    exact ⟨b, hread, hb⟩
  search t speed bytes hne h := by
    obtain ⟨echo, hread⟩ := (net_adapter c₀ S).search t speed bytes hne h
    obtain ⟨packet, t', r, rfl, -⟩ := h
    exact ⟨echo, hread⟩

theorem searchable_verifier (c₀ : Chip) (S : List Serno) (command : UInt8) :
    Searchable (verifier c₀ S) c₀ command S where
  slots t bytes _ h := by
    obtain ⟨packet, t', r, rfl, hr, hops⟩ := h
    refine ⟨slotAnswer S (receives r packet).2, ?_, ?_⟩
    · change (chipAfter c₀ t').receiver.map (fun r => slotAnswer S (receives r packet).2) = _
      rw [hr]
      rfl
    · have hbytes : Vector.ofFn (fun i : Fin 24 =>
          (((receives r packet).2.drop 1).map symbol).getD i 0) = bytes := by
        have hsymbols : ((receives r packet).2.drop 1).map symbol = bytes.toList := by
          rw [hops, List.drop_one, List.tail_cons, List.map_map]
          exact List.map_id _
        apply Vector.ext
        intro i hi
        rw [Vector.getElem_ofFn, hsymbols, List.getD_eq_getElem _ _ (by simpa using hi)]
        exact Vector.getElem_toList _
      rw [slotAnswer, hbytes]
      exact slotsOf_slotBits S _ 0xF0

theorem verifies_thermometer : (owVerify (verifier { receiver := some (.on .command) } thermometers)
    false { idle with port := { idle.port with serialNum := #v[0x28, 1, 0, 0, 0, 0, 0, 41] } }).1 =
      true := by
  refine (owVerify_present (net_verifier _ thermometers) (searchable_verifier _ thermometers _)
    (List.Subset.refl _) valid_thermometers (by decide) (s := _) ⟨rfl, Or.inl rfl, rfl, rfl⟩
    (valid_thermometers _ List.mem_cons_self)).mpr List.mem_cons_self

end W1Retap.Bus.Ds2480
