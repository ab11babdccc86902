import Mathlib.Algebra.Ring.Int.Defs
import Mathlib.Algebra.Group.Nat.Basic
import Mathlib.Data.Nat.Digits
import FinNet.GoString

/-!
# `int64` and `strconv.ParseInt`

Go's `int64` is a 64-bit two's-complement word: `BitVec 64`, whose signed value is `toInt`.
Addition and subtraction wrap modulo `2^64`, which on signed values is `Int.bmod (2^64)`.
`TopupAccount` reads its amount with `strconv.ParseInt(s, 10, 64)`, which reads back every
`int64` written in decimal.
-/

namespace FinNet

/-- Go's `int64`. -/
abbrev Int64 := BitVec 64

/-! ## Signed values -/

theorem int64_toInt_lt (x : Int64) : x.toInt < 2 ^ 63 := by
  have := x.isLt
  rw [BitVec.toInt_eq_toNat_cond]
  split <;> omega

theorem int64_le_toInt (x : Int64) : -2 ^ 63 ≤ x.toInt := by
  have := x.isLt
  rw [BitVec.toInt_eq_toNat_cond]
  split <;> omega

/-- An integer an `int64` can hold. -/
def FitsInt64 (x : Int) : Prop := -2 ^ 63 ≤ x ∧ x < 2 ^ 63

instance : DecidablePred FitsInt64 := fun _ => inferInstanceAs (Decidable (_ ∧ _))

/-- An integer in the `int64` range is its own two's-complement residue. -/
theorem bmod_int64_of_fits {x : Int} (hlo : -2 ^ 63 ≤ x) (hhi : x < 2 ^ 63) :
    x.bmod (2 ^ 64) = x := by
  rw [Int.bmod_def]
  split <;> omega

theorem int64_toInt_add_of_fits {a b : Int64} (hlo : -2 ^ 63 ≤ a.toInt + b.toInt)
    (hhi : a.toInt + b.toInt < 2 ^ 63) : (a + b).toInt = a.toInt + b.toInt := by
  rw [BitVec.toInt_add, bmod_int64_of_fits hlo hhi]

theorem int64_toInt_sub_of_fits {a b : Int64} (hlo : -2 ^ 63 ≤ a.toInt - b.toInt)
    (hhi : a.toInt - b.toInt < 2 ^ 63) : (a - b).toInt = a.toInt - b.toInt := by
  rw [BitVec.toInt_sub, bmod_int64_of_fits hlo hhi]

/-! ## `strconv.ParseInt(s, 10, 64)` -/

/-- The value of a decimal digit byte `'0'`..`'9'`. -/
def digitValue (c : Fin 256) : Option Nat :=
  if 48 ≤ c.val ∧ c.val ≤ 57 then some (c.val - 48) else none

/-- `strconv.ParseUint(s, 10, 64)`: decimal digits, no sign, a value below `2^64`. Go's loop
stops with a range error as soon as the value passes `2^64 - 1`; the call fails either way, so
the model reads the whole digit string and checks the bound once. -/
def parseUint (s : GoString) : Option Nat :=
  if s = [] then none
  else (s.foldlM (fun n c => (digitValue c).map (n * 10 + ·)) 0).bind
    fun n => if n < 2 ^ 64 then some n else none

/-- `strconv.ParseInt(s, 10, 64)`: an optional `+` or `-`, then `ParseUint`. A magnitude of
`2^63` or more is a range error, except `2^63` itself after a minus sign. -/
def parseInt : GoString → Option Int64
  | [] => none
  | c :: rest =>
    let (neg, digits) :=
      if c = 43 then (false, rest) else if c = 45 then (true, rest) else (false, c :: rest)
    (parseUint digits).bind fun un =>
      if !neg && 2 ^ 63 ≤ un then none
      else if neg && 2 ^ 63 < un then none
      else some (if neg then -BitVec.ofNat 64 un else BitVec.ofNat 64 un)

theorem int64_toInt_cases (n : Int64) :
    n.toInt = n.toNat ∧ n.toNat < 2 ^ 63 ∨ n.toInt = n.toNat - 2 ^ 64 ∧ 2 ^ 63 ≤ n.toNat := by
  have := n.isLt
  rw [BitVec.toInt_eq_toNat_cond]
  split <;> omega

theorem parseInt_unsigned {c : Fin 256} {rest : GoString} (hc : 48 ≤ c.val) :
    parseInt (c :: rest) = (parseUint (c :: rest)).bind
      fun un => if 2 ^ 63 ≤ un then none else some (BitVec.ofNat 64 un) := by
  have h43 : c ≠ 43 := by rintro rfl; exact absurd hc (by decide)
  have h45 : c ≠ 45 := by rintro rfl; exact absurd hc (by decide)
  simp [parseInt, h43, h45]

theorem parseInt_minus (rest : GoString) :
    parseInt (45 :: rest) = (parseUint rest).bind
      fun un => if 2 ^ 63 < un then none else some (-BitVec.ofNat 64 un) := by
  simp [parseInt]

/-! ## Decimal text -/

/-- The byte of a decimal digit. -/
def digitByte (d : Nat) : Fin 256 := Fin.ofNat (48 + d)

/-- The decimal digits of `m`, most significant first: `"0"` for zero, no leading zero
otherwise. -/
def decimalDigits (m : Nat) : GoString :=
  if m = 0 then [48] else (Nat.digits 10 m).reverse.map digitByte

/-- `strconv.FormatInt(n, 10)`: the decimal text of `n`, with a minus sign when it is negative.
The chaincode does not call it; it is the text `ParseInt` is meant to read. -/
def formatInt (n : Int64) : GoString :=
  if n.toInt < 0 then 45 :: decimalDigits n.toInt.natAbs else decimalDigits n.toInt.toNat

theorem digitValue_digitByte {d : Nat} (hd : d < 10) : digitValue (digitByte d) = some d := by
  have h : (digitByte d).val = 48 + d := Nat.mod_eq_of_lt (by omega)
  simp only [digitValue, h]
  rw [if_pos (by omega)]
  congr 1
  omega

theorem decimalDigits_ne_nil (m : Nat) : decimalDigits m ≠ [] := by
  unfold decimalDigits
  split
  · exact List.cons_ne_nil _ _
  · simpa using Nat.digits_ne_nil_iff_ne_zero.2 ‹_›

theorem decimalDigits_digits (m : Nat) : ∀ c ∈ decimalDigits m, 48 ≤ c.val := by
  unfold decimalDigits
  split
  · rintro _ (_ | ⟨_, ⟨⟩⟩)
    decide
  · simp only [List.mem_map, List.mem_reverse]
    rintro _ ⟨d, hd, rfl⟩
    have : (digitByte d).val = (48 + d) % 256 := rfl
    have := Nat.digits_lt_base (by norm_num) hd
    omega

/-- `ParseUint`'s loop over digit bytes accumulates the digits' decimal value. -/
theorem foldlM_digitBytes (ds : List Nat) (hds : ∀ d ∈ ds, d < 10) (acc : Nat) :
    (ds.map digitByte).foldlM (fun n c => (digitValue c).map (n * 10 + ·)) acc =
      some (ds.foldl (fun n d => n * 10 + d) acc) := by
  induction ds generalizing acc with
  | nil => rfl
  | cons d ds ih =>
    simp only [List.map_cons, List.foldlM_cons, List.foldl_cons,
      digitValue_digitByte (hds d (.head _)), Option.map_some']
    exact ih (fun d hd => hds d (.tail _ hd)) _

theorem foldr_digits (ds : List Nat) :
    ds.foldr (fun d n => n * 10 + d) 0 = Nat.ofDigits 10 ds := by
  induction ds with
  | nil => rfl
  | cons d ds ih => rw [List.foldr_cons, ih, Nat.ofDigits_cons]; ring

theorem parseUint_decimalDigits {m : Nat} (hm : m < 2 ^ 64) :
    parseUint (decimalDigits m) = some m := by
  rw [parseUint, if_neg (decimalDigits_ne_nil m)]
  unfold decimalDigits
  split
  · subst m; decide
  · rw [foldlM_digitBytes _ fun d hd => Nat.digits_lt_base (by norm_num) (List.mem_reverse.1 hd),
      List.foldl_reverse, foldr_digits, Nat.ofDigits_digits]
    exact if_pos hm

/-- `strconv.ParseInt(s, 10, 64)` reads back every `int64` from its decimal text. -/
theorem parseInt_formatInt (n : Int64) : parseInt (formatInt n) = some n := by
  have hn := n.isLt
  have hc := int64_toInt_cases n
  unfold formatInt
  split
  · rw [parseInt_minus, parseUint_decimalDigits (by omega), Option.some_bind, if_neg (by omega)]
    congr 1
    apply BitVec.eq_of_toNat_eq
    rw [BitVec.toNat_neg, BitVec.toNat_ofNat]
    omega
  · obtain ⟨c, rest, hcr⟩ := List.exists_cons_of_ne_nil (decimalDigits_ne_nil n.toInt.toNat)
    have hc48 := decimalDigits_digits _ c (hcr ▸ List.mem_cons_self c rest)
    rw [hcr, parseInt_unsigned hc48, ← hcr, parseUint_decimalDigits (by omega), Option.some_bind,
      if_neg (by omega)]
    congr 1
    apply BitVec.eq_of_toNat_eq
    rw [BitVec.toNat_ofNat]
    omega

/-! ## The texts `ParseInt` accepts

`ParseInt` accepts exactly the signed decimal texts of `int64` values, with leading zeros and a
`+` sign allowed, and returns the value the text denotes: the converse of `parseInt_formatInt`,
and its extension to every spelling of a value. -/

/-- `cs` is the text of one or more decimal digits `ds`, most significant first, and `m` is
their value; leading zeros are allowed. -/
def DigitText (cs : GoString) (m : Nat) : Prop :=
  ∃ ds : List Nat, ds ≠ [] ∧ (∀ d ∈ ds, d < 10) ∧ cs = ds.map digitByte ∧
    m = Nat.ofDigits 10 ds.reverse

/-- `s` is a signed decimal text of `v`: digits, or `+` then digits, or `-` then digits. -/
def DecimalText (s : GoString) (v : Int) : Prop :=
  (∃ m, DigitText s m ∧ v = m) ∨ (∃ cs m, s = 43 :: cs ∧ DigitText cs m ∧ v = m) ∨
    (∃ cs m, s = 45 :: cs ∧ DigitText cs m ∧ v = -m)

theorem int64_toInt_ofNat {m : Nat} (hm : m < 2 ^ 63) : (BitVec.ofNat 64 m).toInt = m := by
  rw [BitVec.toInt_ofNat]
  exact bmod_int64_of_fits (by omega) (by omega)

theorem int64_toInt_neg_ofNat {m : Nat} (hm : m ≤ 2 ^ 63) :
    (-BitVec.ofNat 64 m).toInt = -m := by
  rw [BitVec.toInt_neg]
  rcases Nat.lt_or_eq_of_le hm with hm | rfl
  · rw [int64_toInt_ofNat hm]
    exact bmod_int64_of_fits (by omega) (by omega)
  · decide

theorem digitValue_eq_some {c : Fin 256} {d : Nat} :
    digitValue c = some d ↔ d < 10 ∧ digitByte d = c := by
  refine ⟨fun h => ?_, fun ⟨hd, hc⟩ => hc ▸ digitValue_digitByte hd⟩
  unfold digitValue at h
  split at h
  · cases h
    refine ⟨by omega, Fin.ext ?_⟩
    show (48 + (c.val - 48)) % 256 = c.val
    omega
  · cases h

/-- What `ParseUint`'s loop returns is the value of the digit bytes it read. -/
theorem foldlM_digitValue_sound {cs : GoString} {acc m : Nat}
    (h : cs.foldlM (fun n c => (digitValue c).map (n * 10 + ·)) acc = some m) :
    ∃ ds : List Nat, (∀ d ∈ ds, d < 10) ∧ cs = ds.map digitByte ∧
      m = ds.foldl (fun n d => n * 10 + d) acc := by
  induction cs generalizing acc with
  | nil => exact ⟨[], fun _ => (nomatch ·), rfl, (Option.some.inj h).symm⟩
  | cons c cs ih =>
    rw [List.foldlM_cons] at h
    obtain ⟨n, hn, hrest⟩ := Option.bind_eq_some.1 h
    obtain ⟨d, hd, rfl⟩ := Option.map_eq_some'.1 hn
    obtain ⟨hd10, rfl⟩ := digitValue_eq_some.1 hd
    obtain ⟨ds, hds, rfl, rfl⟩ := ih hrest
    exact ⟨d :: ds, List.forall_mem_cons.2 ⟨hd10, hds⟩, rfl, rfl⟩

theorem foldl_digits (ds : List Nat) :
    ds.foldl (fun n d => n * 10 + d) 0 = Nat.ofDigits 10 ds.reverse := by
  conv_lhs => rw [← List.reverse_reverse ds]
  rw [List.foldl_reverse, foldr_digits]

/-- `strconv.ParseUint(s, 10, 64)` accepts exactly the digit texts of the values below `2^64`. -/
theorem parseUint_eq_some_iff {cs : GoString} {m : Nat} :
    parseUint cs = some m ↔ DigitText cs m ∧ m < 2 ^ 64 := by
  constructor
  · intro h
    unfold parseUint at h
    split at h
    · cases h
    obtain ⟨n, hn, h⟩ := Option.bind_eq_some.1 h
    split at h
    · cases h
      obtain ⟨ds, hds, rfl, rfl⟩ := foldlM_digitValue_sound hn
      refine ⟨⟨ds, ?_, hds, rfl, foldl_digits ds⟩, ‹_›⟩
      rintro rfl
      exact ‹¬_› rfl
    · cases h
  · rintro ⟨⟨ds, hne, hds, rfl, rfl⟩, hm⟩
    rw [parseUint, if_neg (by simpa using hne), foldlM_digitBytes ds hds, foldl_digits]
    exact if_pos hm

theorem DigitText.head_ge {c : Fin 256} {cs : GoString} {m : Nat} (h : DigitText (c :: cs) m) :
    48 ≤ c.val := by
  obtain ⟨_ | ⟨d, ds⟩, hne, hds, hc, -⟩ := h
  · exact absurd rfl hne
  · obtain rfl := (List.cons.inj hc).1
    have := hds d (.head _)
    show 48 ≤ (48 + d) % 256
    omega

theorem parseInt_plus (rest : GoString) :
    parseInt (43 :: rest) = (parseUint rest).bind
      fun un => if 2 ^ 63 ≤ un then none else some (BitVec.ofNat 64 un) := by
  simp [parseInt]

theorem parseInt_unsigned_of_ne {c : Fin 256} {rest : GoString} (h43 : c ≠ 43) (h45 : c ≠ 45) :
    parseInt (c :: rest) = (parseUint (c :: rest)).bind
      fun un => if 2 ^ 63 ≤ un then none else some (BitVec.ofNat 64 un) := by
  simp [parseInt, h43, h45]

/-- `ParseInt`'s result after its sign: the range check `out` passes exactly on the magnitudes
whose signed value `v` an `int64` can hold, and `g` gives that value. -/
theorem bind_parseUint_eq_some {cs : GoString} {n : Int64} {out : Nat → Prop} [DecidablePred out]
    {g : Nat → Int64} {v : Nat → Int} (hg : ∀ m, ¬out m → (g m).toInt = v m)
    (hfits : ∀ m, n.toInt = v m → ¬out m ∧ m < 2 ^ 64) :
    ((parseUint cs).bind fun un => if out un then none else some (g un)) = some n ↔
      ∃ m, DigitText cs m ∧ n.toInt = v m := by
  constructor
  · intro h
    obtain ⟨m, hm, h⟩ := Option.bind_eq_some.1 h
    split at h
    · cases h
    · cases h
      exact ⟨m, (parseUint_eq_some_iff.1 hm).1, hg m ‹_›⟩
  · rintro ⟨m, hd, hv⟩
    obtain ⟨hout, hm⟩ := hfits m hv
    rw [parseUint_eq_some_iff.2 ⟨hd, hm⟩, Option.some_bind, if_neg hout]
    exact congrArg some (BitVec.eq_of_toInt_eq (by rw [hg m hout, hv]))

/-- `ParseInt`'s result after no sign or a `+` is the value of the digits, when it fits. -/
theorem bind_unsigned_eq_some {cs : GoString} {n : Int64} :
    ((parseUint cs).bind
        fun un => if 2 ^ 63 ≤ un then none else some (BitVec.ofNat 64 un)) = some n ↔
      ∃ m, DigitText cs m ∧ n.toInt = m :=
  have := int64_toInt_lt n
  bind_parseUint_eq_some (fun _ hm => int64_toInt_ofNat (by omega)) fun _ hv => by omega

/-- `ParseInt`'s result after a `-` is the negated value of the digits, when it fits. -/
theorem bind_negative_eq_some {cs : GoString} {n : Int64} :
    ((parseUint cs).bind
        fun un => if 2 ^ 63 < un then none else some (-BitVec.ofNat 64 un)) = some n ↔
      ∃ m, DigitText cs m ∧ n.toInt = -m :=
  have := int64_le_toInt n
  bind_parseUint_eq_some (fun _ hm => int64_toInt_neg_ofNat (by omega)) fun _ hv => by omega

theorem decimalText_plus {rest : GoString} {v : Int} :
    DecimalText (43 :: rest) v ↔ ∃ m, DigitText rest m ∧ v = m := by
  constructor
  · rintro (⟨m, hd, -⟩ | ⟨cs, m, h, hd, hv⟩ | ⟨cs, m, h, -⟩)
    · exact absurd hd.head_ge (by decide)
    · obtain rfl := (List.cons.inj h).2
      exact ⟨m, hd, hv⟩
    · exact absurd (List.cons.inj h).1 (by decide)
  · rintro ⟨m, hd, hv⟩
    exact .inr (.inl ⟨rest, m, rfl, hd, hv⟩)

theorem decimalText_minus {rest : GoString} {v : Int} :
    DecimalText (45 :: rest) v ↔ ∃ m, DigitText rest m ∧ v = -m := by
  constructor
  · rintro (⟨m, hd, -⟩ | ⟨cs, m, h, -⟩ | ⟨cs, m, h, hd, hv⟩)
    · exact absurd hd.head_ge (by decide)
    · exact absurd (List.cons.inj h).1 (by decide)
    · obtain rfl := (List.cons.inj h).2
      exact ⟨m, hd, hv⟩
  · rintro ⟨m, hd, hv⟩
    exact .inr (.inr ⟨rest, m, rfl, hd, hv⟩)

theorem decimalText_unsigned {c : Fin 256} {rest : GoString} {v : Int} (h43 : c ≠ 43)
    (h45 : c ≠ 45) : DecimalText (c :: rest) v ↔ ∃ m, DigitText (c :: rest) m ∧ v = m := by
  constructor
  · rintro (h | ⟨cs, m, h, -⟩ | ⟨cs, m, h, -⟩)
    · exact h
    · exact absurd (List.cons.inj h).1 h43
    · exact absurd (List.cons.inj h).1 h45
  · exact .inl

/-- `strconv.ParseInt(s, 10, 64)` accepts exactly the signed decimal texts of `int64` values,
whatever their leading zeros and sign, and returns the value the text denotes. -/
theorem parseInt_eq_some_iff {s : GoString} {n : Int64} :
    parseInt s = some n ↔ DecimalText s n.toInt := by
  match s with
  | [] =>
    refine ⟨fun h => (by cases h), ?_⟩
    rintro (⟨m, ⟨ds, hne, -, h, -⟩, -⟩ | ⟨cs, m, h, -⟩ | ⟨cs, m, h, -⟩)
    · exact absurd (List.map_eq_nil_iff.1 h.symm) hne
    all_goals cases h
  | c :: rest =>
    by_cases h43 : c = 43
    · rw [h43, parseInt_plus, bind_unsigned_eq_some, decimalText_plus]
    by_cases h45 : c = 45
    · rw [h45, parseInt_minus, bind_negative_eq_some, decimalText_minus]
    rw [parseInt_unsigned_of_ne h43 h45, bind_unsigned_eq_some, decimalText_unsigned h43 h45]

example : parseInt (goString "-9223372036854775808") = some (BitVec.ofInt 64 (-2 ^ 63)) := by
  decide
example : parseInt (goString "9223372036854775808") = none := by decide
example : parseInt (goString "+0x1") = none := by decide

end FinNet
