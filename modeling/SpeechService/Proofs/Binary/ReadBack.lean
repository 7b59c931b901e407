import SpeechService.Proofs.Binary.Shortest
import SpeechService.Proofs.Text.Digits

/-!
# Numbers that are read back

The digits of a decimal, set out with a point, are read back as a decimal of the same value
(`Decimal.read?_positional`), as long as there are not too many of them. The shortest decimal of a
number has few digits, so that every number is read back from its text (`Binary.read?_render`).
-/

namespace SpeechService

open SpeechService.Binary (Format)

namespace Decimal

/-! ### Digits -/

/-- Zeros in front do not count. -/
theorem ofDigitChars_dropWhile (s : List Char) :
    Nat.ofDigitChars 10 (s.dropWhile (· == '0')) 0 = Nat.ofDigitChars 10 s 0 := by
  induction s with
  | nil => rfl
  | cons c s ih =>
    by_cases hc : c = '0'
    · subst hc
      rw [List.dropWhile_cons_of_pos (by decide), ih, Nat.ofDigitChars_cons]
      rfl
    · rw [List.dropWhile_cons_of_neg (by simpa using hc)]

/-- Digits that can all be told make up the number that they write. -/
theorem ofDigits_eq {s : List Char} (h : (s.dropWhile (· == '0')).length ≤ tellingDigits)
    (e : Int) : ofDigits s e = ⟨Nat.ofDigitChars 10 s 0, e⟩ := by
  have hrest : (s.dropWhile (· == '0')).drop tellingDigits = [] := List.drop_eq_nil_iff.mpr h
  have hvalue := ofDigitChars_dropWhile s
  rw [Nat.ofDigitChars_eq_foldl] at hvalue
  simp only [ofDigits, hrest, List.isEmpty_nil, if_true, hvalue, Nat.sub_self, Nat.cast_zero,
    Int.add_zero]

/-! ### Reading -/

private theorem not_exponent {c : Char} (h : c.isDigit = true ∨ c = '.') :
    decide (c ≠ 'e' ∧ c ≠ 'E') = true := by
  rcases h with hdigit | rfl
  · refine decide_eq_true ⟨?_, ?_⟩ <;> rintro rfl <;> exact absurd hdigit (by decide)
  · decide

private theorem not_point {c : Char} (h : c.isDigit = true) : decide (c ≠ '.') = true := by
  refine decide_eq_true ?_
  rintro rfl
  exact absurd h (by decide)

/-- What is read of digits around at most one point. -/
private theorem read?_of_split {s before behind : List Char}
    (hs : ∀ c ∈ s, c.isDigit = true ∨ c = '.') (hbefore : s.takeWhile (· ≠ '.') = before)
    (hbehind : (s.dropWhile (· ≠ '.')).drop 1 = behind) (hne : before ++ behind ≠ [])
    (hdigits : ∀ c ∈ before ++ behind, c.isDigit = true) :
    read? s = some (ofDigits (before ++ behind) (-behind.length)) := by
  have hmantissa : s.takeWhile (fun c => decide (c ≠ 'e' ∧ c ≠ 'E')) = s :=
    List.takeWhile_eq_self_iff.mpr fun c hc => not_exponent (hs c hc)
  have hexponent : s.dropWhile (fun c => decide (c ≠ 'e' ∧ c ≠ 'E')) = [] :=
    List.dropWhile_eq_nil_iff.mpr fun c hc => not_exponent (hs c hc)
  have hread :
      ¬((before ++ behind).isEmpty = true ∨ ¬(before ++ behind).all Char.isDigit = true) := by
    rw [List.isEmpty_iff, not_or, not_not]
    exact ⟨hne, List.all_eq_true.mpr hdigits⟩
  simp only [read?, hmantissa, hexponent, hbefore, hbehind]
  refine (if_neg hread).trans ?_
  rw [Int.zero_sub]

/-- Digits without a point are read as an integer. -/
theorem read?_whole {s : List Char} (hne : s ≠ []) (hs : ∀ c ∈ s, c.isDigit = true) :
    read? s = some (ofDigits s 0) := by
  have hpoint (c : Char) (hc : c ∈ s) := not_point (hs c hc)
  have hbehind : (s.dropWhile (· ≠ '.')).drop 1 = [] := by
    rw [List.dropWhile_eq_nil_iff.mpr hpoint]
    rfl
  have hread := read?_of_split (fun c hc => .inl (hs c hc)) (List.takeWhile_eq_self_iff.mpr hpoint)
    hbehind (by rwa [List.append_nil]) (by rwa [List.append_nil])
  rwa [List.append_nil] at hread

/-- Digits around a point are read together, scaled by the number of those behind it. -/
theorem read?_pointed {before behind : List Char} (hne : before ≠ [])
    (hbefore : ∀ c ∈ before, c.isDigit = true) (hbehind : ∀ c ∈ behind, c.isDigit = true) :
    read? (before ++ '.' :: behind) = some (ofDigits (before ++ behind) (-behind.length)) := by
  have hpoint (c : Char) (hc : c ∈ before) := not_point (hbefore c hc)
  refine read?_of_split ?_ ?_ ?_ (List.append_ne_nil_of_left_ne_nil hne _) ?_
  · simp only [List.mem_append, List.mem_cons]
    rintro c (hc | rfl | hc)
    · exact .inl (hbefore c hc)
    · exact .inr rfl
    · exact .inl (hbehind c hc)
  · rw [List.takeWhile_append_of_pos hpoint, List.takeWhile_cons_of_neg (by decide),
      List.append_nil]
  · rw [List.dropWhile_append_of_pos hpoint, List.dropWhile_cons_of_neg (by decide)]
    rfl
  · intro c hc
    exact (List.mem_append.mp hc).elim (hbefore c) (hbehind c)

/-! ### Digits around a point -/

/-- The digits `before` and `behind` the point that a decimal is set out with. -/
structure SetOut (d : Decimal) (before behind : List Char) : Prop where
  ne_nil : before ≠ []
  isDigit : ∀ c ∈ before ++ behind, c.isDigit = true
  value : (⟨Nat.ofDigitChars 10 (before ++ behind) 0, -behind.length⟩ : Decimal).value = d.value
  /-- Zeros in front apart, no digit is added but the zeros of a positive exponent. -/
  length_le :
    ((before ++ behind).dropWhile (· == '0')).length ≤ d.figures.length + d.exponent.toNat
  text : behind = [] ∧ d.positional = before ∨ d.positional = before ++ '.' :: behind

private theorem isDigit_of_mem_replicate {n : Nat} {c : Char} (h : c ∈ List.replicate n '0') :
    c.isDigit = true := by
  rw [List.eq_of_mem_replicate h]
  decide

/-- Zeros behind the digits of a decimal, for a positive exponent. -/
private theorem setOut_whole {d : Decimal} (h : 0 ≤ d.exponent) :
    d.SetOut (d.figures ++ List.replicate d.exponent.toNat '0') [] where
  ne_nil := List.append_ne_nil_of_left_ne_nil Nat.toDigits_ne_nil _
  isDigit c hc := by
    rw [List.append_nil, List.mem_append] at hc
    exact hc.elim Text.isDigit_of_mem_toDigits isDigit_of_mem_replicate
  value := by
    obtain ⟨k, hk⟩ := Int.eq_ofNat_of_zero_le h
    rw [List.append_nil, Nat.ofDigitChars_append, Nat.ofDigitChars_replicate_zero,
      Nat.ofDigitChars_ten_toDigits, value, value, hk]
    simp [mul_comm]
  length_le := by
    refine Nat.le_trans (List.dropWhile_suffix _).length_le ?_
    rw [List.append_nil, List.length_append, List.length_replicate]
  text := .inl ⟨rfl, if_pos h⟩

/-- A point between the digits of a decimal. -/
private theorem setOut_between {d : Decimal} (h : ¬0 ≤ d.exponent)
    (hbehind : (-d.exponent).toNat < d.figures.length) :
    d.SetOut (d.figures.take (d.figures.length - (-d.exponent).toNat))
      (d.figures.drop (d.figures.length - (-d.exponent).toNat)) where
  ne_nil := by
    rw [ne_eq, List.take_eq_nil_iff, not_or]
    exact ⟨by omega, Nat.toDigits_ne_nil⟩
  isDigit c hc := by
    rw [List.take_append_drop] at hc
    exact Text.isDigit_of_mem_toDigits hc
  value := by
    rw [List.take_append_drop, Nat.ofDigitChars_ten_toDigits, List.length_drop, value, value]
    dsimp only
    congr 2
    omega
  length_le := by
    rw [List.take_append_drop]
    exact Nat.le_trans (List.dropWhile_suffix _).length_le (Nat.le_add_right _ _)
  text := .inr ((if_neg h).trans (if_pos hbehind))

/-- Zeros behind the point. -/
private theorem setOut_behind {d : Decimal} (h : ¬0 ≤ d.exponent)
    (hbehind : ¬(-d.exponent).toNat < d.figures.length) :
    d.SetOut ['0']
      (List.replicate ((-d.exponent).toNat - d.figures.length) '0' ++ d.figures) where
  ne_nil := List.cons_ne_nil _ _
  isDigit c hc := by
    rw [List.mem_append, List.mem_append, List.mem_singleton] at hc
    rcases hc with rfl | hc | hc
    · decide
    · exact isDigit_of_mem_replicate hc
    · exact Text.isDigit_of_mem_toDigits hc
  value := by
    have hzero : Nat.ofDigitChars 10 ['0'] 0 = 0 := rfl
    have hlength : -(((-d.exponent).toNat - d.figures.length + d.figures.length : Nat) : Int)
        = d.exponent := by omega
    rw [Nat.ofDigitChars_append, Nat.ofDigitChars_append, hzero, Nat.ofDigitChars_replicate_zero,
      Nat.mul_zero, Nat.ofDigitChars_ten_toDigits, List.length_append, List.length_replicate,
      hlength]
  length_le := by
    rw [List.singleton_append, List.dropWhile_cons_of_pos (by decide),
      List.dropWhile_append_of_pos fun c hc => beq_iff_eq.mpr (List.eq_of_mem_replicate hc)]
    exact Nat.le_trans (List.dropWhile_suffix _).length_le (Nat.le_add_right _ _)
  text := .inr ((if_neg h).trans (if_neg hbehind))

/-- Every decimal can be set out around a point. -/
theorem exists_setOut (d : Decimal) : ∃ before behind, d.SetOut before behind := by
  by_cases h : 0 ≤ d.exponent
  · exact ⟨_, _, setOut_whole h⟩
  by_cases hbehind : (-d.exponent).toNat < d.figures.length
  · exact ⟨_, _, setOut_between h hbehind⟩
  · exact ⟨_, _, setOut_behind h hbehind⟩

namespace SetOut

variable {d : Decimal} {before behind : List Char} (h : d.SetOut before behind)
include h

/-- The positional form has digits and one point at most. -/
theorem isDigit_or {c : Char} (hc : c ∈ d.positional) : c.isDigit = true ∨ c = '.' := by
  rcases h.text with ⟨-, htext⟩ | htext <;> rw [htext] at hc
  · exact .inl (h.isDigit c (List.mem_append_left _ hc))
  · rw [List.mem_append, List.mem_cons] at hc
    rcases hc with hc | rfl | hc
    · exact .inl (h.isDigit c (List.mem_append_left _ hc))
    · exact .inr rfl
    · exact .inl (h.isDigit c (List.mem_append_right _ hc))

theorem exists_cons : ∃ c rest, d.positional = c :: rest ∧ c.isDigit = true := by
  obtain ⟨c, rest, rfl⟩ := List.exists_cons_of_ne_nil h.ne_nil
  have hc := h.isDigit c (.head _)
  rcases h.text with ⟨-, htext⟩ | htext
  · exact ⟨c, rest, htext, hc⟩
  · exact ⟨c, _, htext, hc⟩

/-- **Reading back.** The positional form is read as the digits that it sets out. -/
theorem read? : read? d.positional = some (ofDigits (before ++ behind) (-behind.length)) := by
  rcases h.text with ⟨rfl, htext⟩ | htext <;> rw [htext]
  · rw [List.append_nil]
    exact read?_whole h.ne_nil fun c hc => h.isDigit c (List.mem_append_left _ hc)
  · exact read?_pointed h.ne_nil (fun c hc => h.isDigit c (List.mem_append_left _ hc))
      fun c hc => h.isDigit c (List.mem_append_right _ hc)

end SetOut

/-- **Digits that are read back.** -/
theorem read?_positional {d : Decimal} (h : d.figures.length + d.exponent.toNat ≤ tellingDigits) :
    ∃ d', read? d.positional = some d' ∧ d'.value = d.value := by
  obtain ⟨before, behind, hout⟩ := d.exists_setOut
  refine ⟨_, hout.read?, ?_⟩
  rw [ofDigits_eq (Nat.le_trans hout.length_le h), hout.value]

end Decimal

namespace Binary

/-! ### Texts of numbers -/

/-- The shortest decimal of a finite number, and how much room its digits take. -/
theorem shortest_up_spec {x : Double} (hfinite : x.isFinite = true) :
    (x.shortest .up).code = x.code ∧
      (x.shortest .up).figures.length + (x.shortest .up).exponent.toNat
        ≤ Decimal.tellingDigits := by
  by_cases hzero : x.code = 0
  · rw [shortest, if_pos hzero, hzero]
    decide
  obtain ⟨hcode, hdigits⟩ := shortest_spec .up hzero hfinite
  have hlength : (x.shortest .up).figures.length ≤ 18 :=
    (Nat.length_toDigits_le_iff (by decide) (by decide)).mpr
      (Nat.lt_of_le_of_lt hdigits (by decide))
  have hbelow : x.code ≠ Format.double.infinity := (of_decide_eq_true hfinite : x.code < _).ne
  -- A large exponent adds zeros, but no more than up to the horizon.
  obtain ⟨-, -, hplaces⟩ := Decimal.places_of_code (hcode ▸ hzero) (hcode ▸ hbelow)
  refine ⟨hcode, ?_⟩
  rw [Decimal.places, Decimal.horizon] at hplaces
  rw [Decimal.tellingDigits]
  omega

theorem toLower_of_isDigit {c : Char} (h : c.isDigit = true) : c.toLower = c := by
  have hdigit : c.toNat ≤ 57 := (Char.isDigit_iff_toNat.mp h).2
  refine dif_neg fun hupper => ?_
  have hletter : 65 ≤ c.toNat := UInt32.le_iff_toNat_le.mp hupper.1
  omega

/-- A text that begins with a digit is none of the words. -/
theorem readUnsigned?_of_isDigit {c : Char} (h : c.isDigit = true) (rest : List Char)
    (negative : Bool) : readUnsigned? negative (c :: rest)
      = (Decimal.read? (c :: rest)).map (Decimal.toDouble negative) := by
  have hword (d : Char) (word : List Char) (hd : d.isDigit = false) :
      (c :: rest).map Char.toLower ≠ d :: word := by
    rw [List.map_cons, toLower_of_isDigit h]
    intro heq
    rw [(List.cons.inj heq).1, hd] at h
    exact nomatch h
  rw [readUnsigned?]
  refine (if_neg ?_).trans (if_neg (hword 'n' _ (by decide)))
  rintro (hinf | hinfinity)
  · exact hword 'i' _ (by decide) hinf
  · exact hword 'i' _ (by decide) hinfinity

/-- The text of a magnitude. -/
def magnitudeText (x : Double) : List Char :=
  if x.isFinite then (x.shortest .up).positional else "inf".toList

/-- The text of a magnitude is read as that magnitude. -/
theorem readUnsigned?_magnitudeText {x : Double} (h : x.isNaN = false) :
    readUnsigned? x.negative x.magnitudeText = some x := by
  rw [magnitudeText]
  split
  · next hfinite =>
    obtain ⟨hcode, hroom⟩ := shortest_up_spec hfinite
    obtain ⟨d, hread, hvalue⟩ := Decimal.read?_positional hroom
    obtain ⟨_, _, hout⟩ := (x.shortest .up).exists_setOut
    obtain ⟨c, rest, htext, hc⟩ := hout.exists_cons
    have hd : d.code = x.code := (Decimal.code_congr hvalue).trans hcode
    rw [htext] at hread ⊢
    rw [readUnsigned?_of_isDigit hc, hread, Option.map_some, Decimal.toDouble]
    simp only [hd]
  · next hfinite =>
    have hcode : x.code = Format.double.infinity :=
      Nat.le_antisymm (Nat.le_of_not_lt (of_decide_eq_false h))
        (Nat.le_of_not_lt fun hlt => hfinite (decide_eq_true hlt))
    have hinfinite : infinite .double x.negative = x := by
      rw [infinite]
      simp only [← hcode]
    exact congrArg some hinfinite

/-- A magnitude begins without a sign. -/
theorem exists_magnitudeText_eq_cons (x : Double) :
    ∃ c rest, x.magnitudeText = c :: rest ∧ c ≠ '+' ∧ c ≠ '-' := by
  rw [magnitudeText]
  split
  · obtain ⟨_, _, hout⟩ := (x.shortest .up).exists_setOut
    obtain ⟨c, rest, htext, hc⟩ := hout.exists_cons
    refine ⟨c, rest, htext, ?_, ?_⟩ <;> rintro rfl <;> exact absurd hc (by decide)
  · exact ⟨'i', ['n', 'f'], rfl, by decide, by decide⟩

theorem toList_render {x : Double} (h : x.isNaN = false) :
    x.render.toList = if x.negative then '-' :: x.magnitudeText else x.magnitudeText := by
  rw [render, if_neg (Bool.eq_false_iff.mp h), String.toList_append, magnitudeText]
  cases x.negative <;> cases x.isFinite <;> simp

/-- **Numbers that are read back.** -/
theorem read?_render {x : Double} (h : x.isNaN = false) : read? x.render.toList = some x := by
  have hread := readUnsigned?_magnitudeText h
  rw [toList_render h]
  cases hsign : x.negative with
  | true =>
    rw [hsign] at hread
    exact hread
  | false =>
    obtain ⟨c, rest, htext, hplus, hminus⟩ := x.exists_magnitudeText_eq_cons
    rw [hsign, htext] at hread
    rw [htext, read?.eq_def]
    split
    · next heq => exact absurd (List.cons.inj heq).1 hplus
    · next heq => exact absurd (List.cons.inj heq).1 hminus
    · exact hread

/-- There is no blank in the text of a number. -/
theorem isBlank_of_mem_render {x : Double} (h : x.isNaN = false) {c : Char}
    (hc : c ∈ x.render.toList) : Text.isBlank c = false := by
  have hmagnitude (hc : c ∈ x.magnitudeText) : Text.isBlank c = false := by
    rw [magnitudeText] at hc
    split at hc
    · obtain ⟨_, _, hout⟩ := (x.shortest .up).exists_setOut
      rcases hout.isDigit_or hc with hdigit | rfl
      · exact Text.isBlank_of_isDigit hdigit
      · decide
    · obtain rfl | rfl | rfl : c = 'i' ∨ c = 'n' ∨ c = 'f' := by simpa using hc
      all_goals decide
  rw [toList_render h] at hc
  split at hc
  · rcases List.mem_cons.mp hc with rfl | hc
    · decide
    · exact hmagnitude hc
  · exact hmagnitude hc

end Binary

end SpeechService
