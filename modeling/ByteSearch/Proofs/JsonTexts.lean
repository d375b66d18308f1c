import ByteSearch.Json
import ByteSearch.Proofs.JsonReadings
import ByteSearch.Text.Blank
import Mathlib.Data.List.Basic
import Mathlib.Algebra.Field.Rat
import Mathlib.Tactic.Ring

/-!
# What is written can be read

A value that is written in a layout with no more than blanks between its parts is read back: every
string has the same characters, every number the same value, in whatever notation it is written.

Main statement: `isTextOf_text_append_iff`.
-/

namespace ByteSearch.Number

/-! ## Decimal numbers -/

theorem powerOfTen_eq (zeros : Nat) : powerOfTen zeros = 10 ^ zeros := rfl

namespace Decimal

theorem value_mul_powerOfTen (n zeros : Nat) (exponent : Int) :
    value ⟨n * powerOfTen zeros, exponent⟩ = value ⟨n, exponent + zeros⟩ := by
  have hpower : (10 : Rat) ^ (exponent + zeros) = 10 ^ exponent * 10 ^ zeros := by
    rw [Rat.zpow_add (by decide), Rat.zpow_natCast]
  rw [value, value, hpower, powerOfTen_eq, Nat.cast_mul, Nat.cast_pow]
  ring

theorem powerOfTen_trailingZeros_dvd (fuel n : Nat) : powerOfTen (trailingZeros fuel n) ∣ n := by
  induction fuel generalizing n with
  | zero => exact Nat.one_dvd n
  | succ fuel ih =>
    rw [trailingZeros]
    split
    case isTrue hzero =>
      obtain ⟨k, hk⟩ := ih (n / 10)
      refine ⟨k, ?_⟩
      rw [powerOfTen_eq] at hk ⊢
      rw [pow_succ', mul_assoc, ← hk]
      omega
    case isFalse => exact Nat.one_dvd n

/-- Zeros at the end of the digits are made up for by the exponent. -/
theorem trimmed_spec {d : Decimal} (hd : d.digits ≠ 0) :
    d.trimmed.digits ≠ 0 ∧ d.trimmed.value = d.value := by
  rw [trimmed, if_neg hd]
  obtain ⟨k, hk⟩ := powerOfTen_trailingZeros_dvd (digitsOf d.digits).length d.digits
  generalize trailingZeros _ d.digits = zeros at hk ⊢
  have hquotient : d.digits / powerOfTen zeros = k := by
    rw [hk]
    exact Nat.mul_div_cancel_left k (Nat.pow_pos (by decide))
  simp only [hquotient]
  constructor
  · rintro rfl
    exact hd hk
  · rw [← value_mul_powerOfTen, mul_comm, ← hk]

/-- The digits of a number do not begin with a zero, unless that is all. -/
theorem head?_digitsOf {n : Nat} (hn : n ≠ 0) : (digitsOf n).head? ≠ some '0' := by
  induction n using Nat.strongRecOn with
  | ind n ih =>
    rw [digitsOf, Nat.toDigits_eq_if (by decide)]
    split
    case isTrue hlt =>
      have hdigit : ∀ n < 10, n ≠ 0 → [Nat.digitChar n].head? ≠ some '0' := by decide
      exact hdigit n hlt hn
    case isFalse hge =>
      rw [← digitsOf, List.head?_append_of_ne_nil _ (digitsOf_ne_nil (n / 10))]
      exact ih (n / 10) (by omega) (by omega)

end Decimal

end ByteSearch.Number

namespace ByteSearch.Json

open Number (Decimal)

/-! ## Numbers -/

/-- Whether a number may go on with a character. -/
def isNumeric (c : Char) : Bool :=
  c.isDigit || c = '.' || c = 'e' || c = 'E'

/-- A number in front of this text ends there. -/
def Ends (rest : List Char) : Prop :=
  ∀ c ∈ rest.head?, isNumeric c = false

/-- Digits, at least one. -/
structure AreDigits (s : List Char) : Prop where
  ne_nil : s ≠ []
  isDigit : ∀ c ∈ s, c.isDigit = true

theorem areDigits_digitsOf (n : Nat) : AreDigits (Decimal.digitsOf n) :=
  ⟨Decimal.digitsOf_ne_nil n, fun _ => Decimal.isDigit_of_mem_digitsOf⟩

theorem areDigits_zero : AreDigits ['0'] :=
  areDigits_digitsOf 0

section

variable {digits whole places rest : List Char}

theorem AreDigits.reads (h : AreDigits digits)
    (hrest : ∀ c, rest.head? = some c → c.isDigit = false) :
    ReadsDigits (digits ++ rest) digits rest where
  digits_ne_nil := h.ne_nil
  digits_eq := by
    rw [List.takeWhile_append_of_pos h.isDigit, Text.takeWhile_of_head? hrest, List.append_nil]
  rest_eq := by
    rw [List.dropWhile_append_of_pos h.isDigit, Text.dropWhile_of_head? hrest]

theorem AreDigits.reads_cons (h : AreDigits digits) {c : Char} (hc : c.isDigit = false)
    (t : List Char) : ReadsDigits (digits ++ c :: t) digits (c :: t) := by
  refine h.reads fun c' hc' => ?_
  cases hc'
  exact hc

theorem Ends.not_isDigit (h : Ends rest) {c : Char} (hc : rest.head? = some c) :
    c.isDigit = false := by
  have hnumeric := h c hc
  simp only [isNumeric, Bool.or_eq_false_iff] at hnumeric
  exact hnumeric.1.1.1

theorem Ends.head?_ne (h : Ends rest) {c : Char} (hc : isNumeric c = true) :
    rest.head? ≠ some c := by
  intro hhead
  rw [h c hhead] at hc
  cases hc

theorem Ends.noExponent (h : Ends rest) : ReadsExponent rest 0 rest :=
  .absent ⟨h.head?_ne rfl, h.head?_ne rfl⟩

/-- A whole number. -/
theorem readsMagnitude_digitsOf (n : Nat) (hrest : Ends rest) :
    ReadsMagnitude (Decimal.digitsOf n ++ rest) n rest := by
  have hwhole : ReadsDigits (Decimal.digitsOf n ++ rest) (Decimal.digitsOf n) rest :=
    (areDigits_digitsOf n).reads fun _ => hrest.not_isDigit
  have hzero : (Decimal.digitsOf n).head? = some '0' → Decimal.digitsOf n = ['0'] := by
    intro hhead
    by_cases hn : n = 0
    · rw [hn]
      rfl
    · exact absurd hhead (Decimal.head?_digitsOf hn)
  have h := ReadsMagnitude.intro hwhole hzero (.absent (hrest.head?_ne rfl)) hrest.noExponent
  simpa [Decimal.value] using h

/-- A number with a point. -/
theorem readsMagnitude_pointed (hwhole : AreDigits whole)
    (hzero : whole.head? = some '0' → whole = ['0']) (hplaces : AreDigits places)
    (hrest : Ends rest) :
    ReadsMagnitude (whole ++ '.' :: (places ++ rest))
      (Decimal.value ⟨Nat.ofDigitChars 10 (whole ++ places) 0, -places.length⟩) rest := by
  have hbehind : ReadsDigits (places ++ rest) places rest :=
    hplaces.reads fun _ => hrest.not_isDigit
  have h := ReadsMagnitude.intro (hwhole.reads_cons rfl _) hzero (.present hbehind) hrest.noExponent
  rwa [Int.zero_sub] at h

/-- Zeros behind the digits multiply the number by a power of ten. -/
theorem value_append_zeros (digits : List Char) (zeros : Nat) (exponent : Int) :
    Decimal.value ⟨Nat.ofDigitChars 10 (digits ++ List.replicate zeros '0') 0, exponent⟩ =
      Decimal.value ⟨Nat.ofDigitChars 10 digits 0, exponent + zeros⟩ := by
  rw [Nat.ofDigitChars_append, Nat.ofDigitChars_replicate_zero, mul_comm, ← Number.powerOfTen_eq,
    Decimal.value_mul_powerOfTen]

/-- Zeros in front of the digits have no influence. -/
theorem ofDigitChars_zeros_append (zeros : Nat) (digits : List Char) :
    Nat.ofDigitChars 10 (List.replicate zeros '0' ++ digits) 0 = Nat.ofDigitChars 10 digits 0 := by
  rw [Nat.ofDigitChars_append, Nat.ofDigitChars_replicate_zero, mul_zero]

theorem isDigit_of_mem_zeros {zeros : Nat} {c : Char} (hc : c ∈ List.replicate zeros '0') :
    c.isDigit = true := by
  rw [List.eq_of_mem_replicate hc]
  rfl

theorem AreDigits.zeros_append (zeros : Nat) (h : AreDigits digits) :
    AreDigits (List.replicate zeros '0' ++ digits) := by
  refine ⟨List.append_ne_nil_of_right_ne_nil _ h.ne_nil, fun c hc => ?_⟩
  exact (List.mem_append.1 hc).elim isDigit_of_mem_zeros (h.isDigit c)

theorem AreDigits.append_zeros (zeros : Nat) (h : AreDigits digits) :
    AreDigits (digits ++ List.replicate zeros '0') := by
  refine ⟨List.append_ne_nil_of_left_ne_nil h.ne_nil _, fun c hc => ?_⟩
  exact (List.mem_append.1 hc).elim (h.isDigit c) isDigit_of_mem_zeros

/-- All digits stand behind the point. -/
theorem readsMagnitude_below {point : Int} (hpoint : point ≤ 0) (hdigits : AreDigits digits)
    (hrest : Ends rest) :
    ReadsMagnitude (Decimal.positional digits point ++ rest)
      (Decimal.value ⟨Nat.ofDigitChars 10 digits 0, point - digits.length⟩) rest := by
  have h := readsMagnitude_pointed areDigits_zero (fun _ => rfl)
    (hdigits.zeros_append point.natAbs) hrest
  have hdigits' : Nat.ofDigitChars 10 (['0'] ++ (List.replicate point.natAbs '0' ++ digits)) 0 =
      Nat.ofDigitChars 10 digits 0 :=
    ofDigitChars_zeros_append (point.natAbs + 1) digits
  have hexponent : -((List.replicate point.natAbs '0' ++ digits).length : Int) =
      point - digits.length := by
    rw [List.length_append, List.length_replicate]
    omega
  rw [hdigits', hexponent] at h
  rwa [Decimal.positional, if_pos hpoint]

/-- All digits stand before the point, and perhaps zeros behind them. -/
theorem readsMagnitude_above {zeros : Nat} (hdigits : AreDigits digits)
    (hzero : digits.head? = some '0' → digits = ['0'] ∧ zeros = 0) (hrest : Ends rest) :
    ReadsMagnitude (Decimal.positional digits (digits.length + zeros : Nat) ++ rest)
      (Decimal.value ⟨Nat.ofDigitChars 10 digits 0, zeros⟩) rest := by
  have hwhole : (digits ++ List.replicate zeros '0').head? = some '0' →
      digits ++ List.replicate zeros '0' = ['0'] := by
    rw [List.head?_append_of_ne_nil _ hdigits.ne_nil]
    intro hhead
    obtain ⟨rfl, rfl⟩ := hzero hhead
    rfl
  have h := readsMagnitude_pointed (hdigits.append_zeros zeros) hwhole areDigits_zero hrest
  have hvalue : Decimal.value
      ⟨Nat.ofDigitChars 10 (digits ++ List.replicate zeros '0' ++ ['0']) 0, -1⟩ =
        Decimal.value ⟨Nat.ofDigitChars 10 digits 0, zeros⟩ := by
    rw [List.append_assoc, ← List.replicate_succ', value_append_zeros]
    congr 2
    omega
  have hpositional : Decimal.positional digits (digits.length + zeros : Nat) =
      digits ++ List.replicate zeros '0' ++ ['.', '0'] := by
    have hpos := List.length_pos_of_ne_nil hdigits.ne_nil
    rw [Decimal.positional, if_neg (by omega), Int.toNat_natCast,
      List.take_of_length_le (by omega), List.drop_of_length_le (by omega), Nat.add_sub_cancel_left]
    rfl
  rw [← hvalue, hpositional]
  simpa using h

/-- The point lies between two digits. -/
theorem readsMagnitude_between {point : Nat} (hpos : 0 < point) (hpoint : point < digits.length)
    (hdigits : AreDigits digits) (hzero : digits.head? ≠ some '0') (hrest : Ends rest) :
    ReadsMagnitude (Decimal.positional digits point ++ rest)
      (Decimal.value ⟨Nat.ofDigitChars 10 digits 0, point - digits.length⟩) rest := by
  have hwhole : AreDigits (digits.take point) := by
    refine ⟨?_, fun c hc => hdigits.isDigit c (List.mem_of_mem_take hc)⟩
    exact List.ne_nil_of_length_pos (by rw [List.length_take]; omega)
  have hplaces : AreDigits (digits.drop point) := by
    refine ⟨?_, fun c hc => hdigits.isDigit c (List.mem_of_mem_drop hc)⟩
    exact List.ne_nil_of_length_pos (by rw [List.length_drop]; omega)
  have hhead : (digits.take point).head? ≠ some '0' := by
    rwa [List.head?_take, if_neg (by omega)]
  have h := readsMagnitude_pointed hwhole (fun hwhole => absurd hwhole hhead) hplaces hrest
  have hexponent : -((digits.drop point).length : Int) = point - digits.length := by
    rw [List.length_drop]
    omega
  have hnone : point - digits.length = 0 := by omega
  rw [List.take_append_drop, hexponent] at h
  rw [Decimal.positional, if_neg (by omega), Int.toNat_natCast, hnone]
  simpa [hplaces.ne_nil] using h

/-- Positional notation, wherever the point lies. -/
theorem readsMagnitude_positional {point : Int} (hdigits : AreDigits digits)
    (hzero : digits.head? = some '0' → digits = ['0'] ∧ point = 1) (hrest : Ends rest) :
    ReadsMagnitude (Decimal.positional digits point ++ rest)
      (Decimal.value ⟨Nat.ofDigitChars 10 digits 0, point - digits.length⟩) rest := by
  by_cases hbelow : point ≤ 0
  · exact readsMagnitude_below hbelow hdigits hrest
  obtain ⟨n, rfl⟩ := Int.eq_ofNat_of_zero_le (by omega : 0 ≤ point)
  by_cases habove : digits.length ≤ n
  · obtain ⟨zeros, rfl⟩ := Nat.exists_eq_add_of_le habove
    have hzero' : digits.head? = some '0' → digits = ['0'] ∧ zeros = 0 := by
      intro hhead
      obtain ⟨rfl, hone⟩ := hzero hhead
      rw [List.length_singleton] at hone
      exact ⟨rfl, by omega⟩
    have hexponent : ((digits.length + zeros : Nat) : Int) - digits.length = zeros := by omega
    rw [hexponent]
    exact readsMagnitude_above hdigits hzero' hrest
  · refine readsMagnitude_between (by omega) (by omega) hdigits ?_ hrest
    intro hhead
    obtain ⟨rfl, hone⟩ := hzero hhead
    rw [List.length_singleton] at habove
    omega

theorem readsExponent (exponent : Int) (hrest : Ends rest) :
    ReadsExponent ('e' :: (if exponent < 0 then '-' else '+') ::
      (Decimal.digitsOf exponent.natAbs ++ rest)) exponent rest := by
  have hdigits := (areDigits_digitsOf exponent.natAbs).reads fun _ => hrest.not_isDigit
  split
  case isTrue hneg =>
    have h := ReadsExponent.present (.inl rfl) .minus hdigits
    rwa [Decimal.ofDigitChars_digitsOf, Int.neg_one_mul, Int.ofNat_natAbs_of_nonpos (by omega),
      Int.neg_neg] at h
  case isFalse hnonneg =>
    have h := ReadsExponent.present (.inl rfl) .plus hdigits
    rwa [Decimal.ofDigitChars_digitsOf, Int.one_mul, Int.natAbs_of_nonneg (by omega)] at h

/-- Scientific notation. -/
theorem readsMagnitude_scientific (hdigits : AreDigits digits) (hzero : digits.head? ≠ some '0')
    (exponent : Int) (hrest : Ends rest) :
    ReadsMagnitude (Decimal.scientific digits exponent ++ rest)
      (Decimal.value ⟨Nat.ofDigitChars 10 digits 0, exponent + 1 - digits.length⟩) rest := by
  obtain ⟨c, places, rfl⟩ := List.exists_cons_of_ne_nil hdigits.ne_nil
  have hc : AreDigits [c] := by
    refine ⟨List.cons_ne_nil c [], fun d hd => ?_⟩
    rw [List.mem_singleton.1 hd]
    exact hdigits.isDigit c List.mem_cons_self
  have hzero' : [c].head? = some '0' → [c] = ['0'] := fun hhead => absurd hhead hzero
  have hexponent := readsExponent exponent hrest
  have hlength : exponent + 1 - ((c :: places).length : Int) = exponent - places.length := by
    rw [List.length_cons]
    omega
  rw [hlength]
  by_cases hplaces : places = []
  · subst hplaces
    have hplaces (t : List Char) : ReadsPlaces ('e' :: t) [] ('e' :: t) := .absent (by simp)
    simpa [Decimal.scientific] using
      ReadsMagnitude.intro (hc.reads_cons rfl _) hzero' (hplaces _) hexponent
  · have hplaces' : AreDigits places :=
      ⟨hplaces, fun d hd => hdigits.isDigit d (List.mem_cons_of_mem c hd)⟩
    simpa [Decimal.scientific, hplaces] using
      ReadsMagnitude.intro (hc.reads_cons rfl _) hzero' (.present (hplaces'.reads_cons rfl _))
        hexponent

/-- Whatever the notation, a written number has its value. -/
theorem readsMagnitude_text (d : Decimal) (hrest : Ends rest) :
    ReadsMagnitude (d.text ++ rest) d.value rest := by
  by_cases hd : d.digits = 0
  · have htext : d.text = Decimal.positional ['0'] 1 := by
      rw [Decimal.text, Decimal.trimmed, if_pos hd]
      rfl
    have hvalue : d.value = Decimal.value ⟨Nat.ofDigitChars 10 ['0'] 0, 0⟩ := by
      have hzero : Nat.ofDigitChars 10 ['0'] 0 = 0 := rfl
      rw [hzero, Decimal.value, Decimal.value, hd, Nat.cast_zero, zero_mul, zero_mul]
    rw [htext, hvalue]
    exact readsMagnitude_positional areDigits_zero (fun _ => ⟨rfl, rfl⟩) hrest
  · obtain ⟨htrimmed, hvalue⟩ := Decimal.trimmed_spec hd
    have hdigits := areDigits_digitsOf d.trimmed.digits
    have hhead := Decimal.head?_digitsOf htrimmed
    have hexact : Decimal.value ⟨Nat.ofDigitChars 10 (Decimal.digitsOf d.trimmed.digits) 0,
        d.trimmed.exponent + (Decimal.digitsOf d.trimmed.digits).length - 1 + 1 -
          (Decimal.digitsOf d.trimmed.digits).length⟩ = d.value := by
      rw [Decimal.ofDigitChars_digitsOf, Int.sub_add_cancel, Int.add_sub_cancel, hvalue]
    rw [Decimal.text, if_neg htrimmed, ← hexact]
    split
    · exact readsMagnitude_positional hdigits (fun hzero => absurd hzero hhead) hrest
    · exact readsMagnitude_scientific hdigits hhead _ hrest

end

/-! ## Strings -/

/-- The escape of a control character. -/
theorem hexEscape_control : ∀ n < 0x20,
    List.replicate (4 - (Text.lowerHex n).length) '0' ++ Text.lowerHex n =
      ['0', '0', Nat.digitChar (n / 16), Nat.digitChar (n % 16)] := by
  decide

theorem readsChar_escape (c : Char) (rest : List Char) : ReadsChar (escape c ++ rest) c rest := by
  unfold escape
  split
  case h_1 | h_2 | h_3 | h_4 | h_5 | h_6 | h_7 => exact .short rfl
  case h_8 _ hquote hbackslash _ _ _ _ _ =>
    split
    case isTrue hcontrol =>
      have hcode : IsCodeUnit '0' '0' (Nat.digitChar (c.toNat / 16)) (Nat.digitChar (c.toNat % 16))
          c.toNat :=
        ⟨0, 0, c.toNat / 16, c.toNat % 16, ⟨by decide, .inl rfl⟩, ⟨by decide, .inl rfl⟩,
          ⟨by omega, .inl rfl⟩, ⟨by omega, .inl rfl⟩, by omega⟩
      have h : ReadsChar _ _ rest := .code hcode (.inl (by omega))
      rw [Char.ofNat_toNat] at h
      rw [List.append_assoc, List.append_assoc, ← List.append_assoc (List.replicate _ _),
        hexEscape_control c.toNat hcontrol]
      exact h
    case isFalse hcontrol => exact .plain (by omega) hquote hbackslash

theorem readsChars_flatMap_escape (chars rest : List Char) :
    ReadsChars (chars.flatMap escape ++ '"' :: rest) chars rest := by
  induction chars with
  | nil => exact .closed
  | cons c chars ih =>
    rw [List.flatMap_cons, List.append_assoc]
    exact .char (readsChar_escape c _) ih

theorem quoted_append (s : String) (rest : List Char) :
    quoted s ++ rest = '"' :: (s.toList.flatMap escape ++ '"' :: rest) := by
  rw [quoted, List.cons_append, List.append_assoc, List.singleton_append]

/-! ## Values -/

mutual

/-- What a written value says. -/
def value : Json → Value
  | .nat n => .number n
  | .decimal d => .number d.value
  | .bool b => .bool b
  | .string s => .string s
  | .array items => .array (values items)
  | .object members => .object (memberValues members)

def values : List Json → List Value
  | [] => []
  | v :: vs => value v :: values vs

def memberValues : List (String × Json) → List (String × Value)
  | [] => []
  | (key, v) :: rest => (key, value v) :: memberValues rest

end

theorem values_eq_map (items : List Json) : values items = items.map value := by
  induction items with
  | nil => rfl
  | cons v items ih => rw [values, ih, List.map_cons]

theorem memberValues_eq_map (members : List (String × Json)) :
    memberValues members = members.map fun m => (m.1, m.2.value) := by
  induction members with
  | nil => rfl
  | cons m members ih => rw [memberValues, ih, List.map_cons]

/-- There is nothing but blanks between the parts of a value, and the colon. -/
structure Layout.Readable (l : Layout) : Prop where
  lineBreak_blank : ∀ level, ∀ c ∈ l.lineBreak level, isBlank c = true
  colon_blank : ∃ blanks, l.colon = ':' :: blanks ∧ ∀ c ∈ blanks, isBlank c = true

theorem Layout.readable_compact : Layout.compact.Readable := by
  refine ⟨fun level c hc => ?_, [], rfl, fun c hc => ?_⟩
  · cases hc
  · cases hc

theorem Layout.readable_indented : Layout.indented.Readable := by
  refine ⟨fun level c hc => ?_, [' '], rfl, fun c hc => ?_⟩
  · rcases List.mem_cons.1 hc with rfl | hc
    · rfl
    · rw [List.eq_of_mem_replicate hc]
      rfl
  · rw [List.mem_singleton.1 hc]
    rfl

theorem skip_append {blanks : List Char} (h : ∀ c ∈ blanks, isBlank c = true) (s : List Char) :
    skip (blanks ++ s) = skip s :=
  List.dropWhile_append_of_pos h

theorem skip_cons {c : Char} (hc : isBlank c = false) (s : List Char) :
    skip (c :: s) = c :: s := by
  rw [skip, List.dropWhile_cons_of_neg]
  rw [hc]
  decide

/-- No number goes on with a blank, or begins with one. -/
theorem isNumeric_eq_false_of_isBlank {c : Char} (hc : isBlank c = true) : isNumeric c = false := by
  simp only [isBlank, Bool.or_eq_true, decide_eq_true_eq] at hc
  rcases hc with ((rfl | rfl) | rfl) | rfl <;> decide

/-- No value begins with a blank. -/
theorem Reads.skip_eq {s rest : List Char} {v : Value} (h : Reads s v rest) : skip s = s := by
  cases h with
  | positive h =>
    obtain ⟨hwhole, -, -, -⟩ := h
    obtain ⟨c, t, rfl, hdigit⟩ := hwhole.head
    refine skip_cons ?_ t
    by_contra hblank
    rw [Bool.not_eq_false] at hblank
    have hnumeric := isNumeric_eq_false_of_isBlank hblank
    rw [isNumeric, hdigit] at hnumeric
    cases hnumeric
  | null | true | false | negative | string | emptyArray | array | emptyObject | object => rfl

theorem ends_of_skip {s t : List Char} {c : Char} (hskip : skip s = c :: t)
    (hc : isNumeric c = false) : Ends s := by
  intro d hd
  cases s with
  | nil => cases hd
  | cons e s =>
    cases hd
    by_cases hblank : isBlank d = true
    · exact isNumeric_eq_false_of_isBlank hblank
    · rw [skip_cons (Bool.eq_false_iff.2 hblank), List.cons.injEq] at hskip
      rwa [hskip.1]

section

variable {l : Layout}

/-- Items with commas between them, each behind a line break. -/
def Layout.lines (l : Layout) (level : Nat) (items : List (List Char)) : List Char :=
  List.intercalate [','] (items.map (l.lineBreak level ++ ·))

theorem bracketed_append (level : Nat) (opening closing : Char) {items : List (List Char)}
    (hne : items ≠ []) (rest : List Char) :
    bracketed l level opening closing items ++ rest =
      opening :: (l.lines (level + 1) items ++ (l.lineBreak level ++ closing :: rest)) := by
  have hisEmpty : items.isEmpty = false := by
    rwa [Bool.eq_false_iff, Ne, List.isEmpty_iff]
  rw [bracketed, hisEmpty]
  simp [Layout.lines]

theorem skip_closing (hl : l.Readable) (level : Nat) {c : Char} (hc : isBlank c = false)
    (rest : List Char) : skip (l.lineBreak level ++ c :: rest) = c :: rest := by
  rw [skip_append (hl.lineBreak_blank level), skip_cons hc]

/-- A value on a line of its own. -/
theorem Reads.lineBreak {s rest : List Char} {v : Value} (h : Reads s v rest) (hl : l.Readable)
    (level : Nat) : Reads (skip (l.lineBreak level ++ s)) v rest := by
  rwa [skip_append (hl.lineBreak_blank level), h.skip_eq]

/-- A value behind its key. -/
theorem Reads.member {s rest : List Char} {v : Value} (h : Reads s v rest) (hl : l.Readable)
    (level : Nat) (key : String) :
    ReadsMember (l.lineBreak level ++ (quoted key ++ l.colon ++ s)) (key, v) rest := by
  obtain ⟨blanks, hcolon, hblank⟩ := hl.colon_blank
  have hquote : skip (l.lineBreak level ++ (quoted key ++ l.colon ++ s)) =
      '"' :: (key.toList.flatMap escape ++ '"' :: (l.colon ++ s)) := by
    rw [List.append_assoc, quoted_append]
    exact skip_closing hl level rfl _
  have hcolon' : skip (l.colon ++ s) = ':' :: (blanks ++ s) := by
    rw [hcolon]
    rfl
  have hv : Reads (skip (blanks ++ s)) v rest := by
    rwa [skip_append hblank, h.skip_eq]
  have hmember := ReadsMember.intro hquote (readsChars_flatMap_escape _ _) hcolon' hv
  rwa [String.ofList_toList] at hmember

-- The recursion is that of `write`. A comma or a closing bracket, perhaps with blanks in front,
-- ends the value before it; the grammar reads no number beyond them.
mutual

/-- A written value is read back, in front of whatever ends it. -/
theorem reads_write (hl : l.Readable) (level : Nat) {rest : List Char} (hrest : Ends rest) :
    (v : Json) → Reads (write l level v ++ rest) v.value rest
  | .nat n => .positive (readsMagnitude_digitsOf n hrest)
  | .decimal d => .positive (readsMagnitude_text d hrest)
  | .bool true => .true
  | .bool false => .false
  | .string s => by
    have h := Reads.string (readsChars_flatMap_escape s.toList rest)
    rw [String.ofList_toList] at h
    rw [write, value, quoted_append]
    exact h
  | .array [] => .emptyArray rfl
  | .array (v :: items) => by
    have h := readsItems_write hl (level + 1) (skip_closing hl level rfl rest) (v :: items)
      (List.cons_ne_nil v items)
    have hne : writeItems l (level + 1) (v :: items) ≠ [] := by
      rw [writeItems]
      exact List.cons_ne_nil _ _
    rw [write, value, bracketed_append level _ _ hne]
    exact .array h
  | .object [] => .emptyObject rfl
  | .object (m :: members) => by
    have h := readsMembers_write hl (level + 1) (skip_closing hl level rfl rest) (m :: members)
      (List.cons_ne_nil m members)
    have hne : writeMembers l (level + 1) (m :: members) ≠ [] := by
      rw [writeMembers]
      exact List.cons_ne_nil _ _
    rw [write, value, bracketed_append level _ _ hne]
    exact .object h

/-- So are items in front of a closing bracket. -/
theorem readsItems_write (hl : l.Readable) (level : Nat) {closing rest : List Char}
    (hclosing : skip closing = ']' :: rest) :
    (items : List Json) → items ≠ [] →
      ReadsItems (l.lines level (writeItems l level items) ++ closing) (values items) rest
  | [], hne => absurd rfl hne
  | [v], _ => by
    have hv := reads_write hl level (ends_of_skip hclosing rfl) v
    have h := ReadsItems.last (hv.lineBreak hl level) hclosing
    simpa [Layout.lines, writeItems, values] using h
  | v :: w :: items, _ => by
    have hv (t : List Char) : Reads (write l level v ++ ',' :: t) v.value (',' :: t) :=
      reads_write hl level (ends_of_skip (c := ',') rfl rfl) v
    have hitems := readsItems_write hl level hclosing (w :: items) (List.cons_ne_nil w items)
    have h := ReadsItems.more ((hv _).lineBreak hl level) rfl hitems
    simpa [Layout.lines, writeItems, values] using h

/-- So are members in front of a closing brace. -/
theorem readsMembers_write (hl : l.Readable) (level : Nat) {closing rest : List Char}
    (hclosing : skip closing = '\x7d' :: rest) :
    (members : List (String × Json)) → members ≠ [] →
      ReadsMembers (l.lines level (writeMembers l level members) ++ closing) (memberValues members)
        rest
  | [], hne => absurd rfl hne
  | [(key, v)], _ => by
    have hv := reads_write hl level (ends_of_skip hclosing rfl) v
    have h := ReadsMembers.last (hv.member hl level key) hclosing
    simpa [Layout.lines, writeMembers, memberValues] using h
  | (key, v) :: m :: members, _ => by
    have hv (t : List Char) : Reads (write l level v ++ ',' :: t) v.value (',' :: t) :=
      reads_write hl level (ends_of_skip (c := ',') rfl rfl) v
    have hmembers := readsMembers_write hl level hclosing (m :: members)
      (List.cons_ne_nil m members)
    have h := ReadsMembers.more ((hv _).member hl level key) rfl hmembers
    simpa [Layout.lines, writeMembers, memberValues] using h

end

/-- A written value, with nothing or blanks behind it. -/
theorem reads_text_append (hl : l.Readable) (v : Json) {s : String}
    (hs : s.toList.all isBlank = true) : Reads (v.text l ++ s).toList v.value s.toList := by
  have hends : Ends s.toList := by
    intro c hc
    exact isNumeric_eq_false_of_isBlank (List.all_eq_true.1 hs c (List.mem_of_mem_head? hc))
  rw [text, String.toList_append, String.toList_ofList]
  exact reads_write hl 0 hends v

/-- **What is written can be read.** A written value, perhaps with blanks behind it, is a text of
this value and of no other. -/
theorem isTextOf_text_append_iff (hl : l.Readable) (v : Json) {s : String}
    (hs : s.toList.all isBlank = true) (w : Value) :
    IsTextOf (v.text l ++ s) w ↔ w = v.value := by
  have hreads := reads_text_append hl v hs
  have htext : IsTextOf (v.text l ++ s) v.value := by
    refine ⟨s.toList, ?_, ?_⟩
    · rwa [hreads.skip_eq]
    · rw [← List.append_nil s.toList, skip_append (List.all_eq_true.1 hs)]
      rfl
  constructor
  · exact fun hw => htext.unique hw
  · rintro rfl
    exact htext

end

end ByteSearch.Json
