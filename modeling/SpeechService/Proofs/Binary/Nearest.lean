import Mathlib.Order.Monotone.Basic
import SpeechService.Binary.Number

/-!
# Rounding to the nearest code

The codes of a format stand for increasing magnitudes (`Format.units_strictMono`), and a fraction is
rounded to a code when it lies between the middles around that code (`Format.exists_nearest`); so
it is not rounded beyond a code whose magnitude bounds it (`Format.nearest_le`), and a greater
fraction is not rounded to a smaller code (`Format.nearest_mono`). All this rests on how a code is
made up: above the first two binades, `q` steps of the width `2 ^ s` stand for the code
`s * binade + q`, where `q` fills at least one binade (`Format.units_add`).
-/

namespace SpeechService.Binary

namespace Format

variable (f : Format)

/-- The magnitude of `q` steps of width `2 ^ s`. The last step leads into the next binade. -/
theorem units_add {s q : Nat} (hq : q ≤ 2 * f.binade) (hs : s = 0 ∨ f.binade ≤ q) :
    f.units (s * f.binade + q) = q * Nat.pow 2 s := by
  have hb := f.binade_pos
  rcases Nat.lt_or_ge q f.binade with hlt | hge
  · have hs0 : s = 0 := hs.resolve_right (Nat.not_le.mpr hlt)
    subst hs0
    rw [Nat.zero_mul, Nat.zero_add, units, if_pos hlt]
    exact (Nat.mul_one q).symm
  obtain ⟨r, rfl⟩ := Nat.exists_eq_add_of_le hge
  have hcode : s * f.binade + (f.binade + r) = (s + 1) * f.binade + r := by
    rw [Nat.succ_mul, Nat.add_assoc]
  have hnot : ¬(s + 1) * f.binade + r < f.binade := by
    rw [Nat.succ_mul]
    omega
  rw [hcode, units, if_neg hnot]
  rcases Nat.lt_or_ge r f.binade with hr | hr
  · have hmod : ((s + 1) * f.binade + r) % f.binade = r := by
      rw [Nat.mul_add_mod_self_right, Nat.mod_eq_of_lt hr]
    have hdiv : ((s + 1) * f.binade + r) / f.binade = s + 1 := by
      rw [Nat.mul_comm, Nat.mul_add_div hb, Nat.div_eq_of_lt hr, Nat.add_zero]
    rw [hmod, hdiv, Nat.add_sub_cancel]
  · -- A whole binade more is the first step of the next width.
    obtain rfl : r = f.binade := by omega
    have hnext : (s + 1) * f.binade + f.binade = (s + 2) * f.binade := (Nat.succ_mul _ _).symm
    have hpow : Nat.pow 2 (s + 1) = 2 * Nat.pow 2 s := Nat.pow_succ'
    rw [hnext, Nat.mul_mod_left, Nat.mul_div_cancel _ hb, Nat.add_zero,
      show s + 2 - 1 = s + 1 from rfl, hpow, ← Nat.mul_assoc, Nat.mul_two]

/-- How a code is made up. -/
theorem exists_steps (code : Nat) :
    ∃ s q, code = s * f.binade + q ∧ q < 2 * f.binade ∧ (s = 0 ∨ f.binade ≤ q) := by
  have hb := f.binade_pos
  rcases Nat.lt_or_ge code f.binade with hlt | hge
  · exact ⟨0, code, by omega, by omega, .inl rfl⟩
  · have hdiv := Nat.div_add_mod' code f.binade
    have hpos : 0 < code / f.binade := Nat.div_pos hge hb
    have hmod := Nat.mod_lt code hb
    obtain ⟨s, hs⟩ := Nat.exists_eq_succ_of_ne_zero (Nat.pos_iff_ne_zero.mp hpos)
    rw [hs, Nat.succ_mul] at hdiv
    exact ⟨s, f.binade + code % f.binade, by omega, by omega, .inr (Nat.le_add_right _ _)⟩

/-- Greater codes stand for greater magnitudes. -/
theorem units_strictMono : StrictMono f.units := by
  refine strictMono_nat_of_lt_succ fun code => ?_
  obtain ⟨s, q, rfl, hq, hs⟩ := f.exists_steps code
  rw [Nat.add_assoc, f.units_add (by omega) hs, f.units_add (by omega) (by omega)]
  exact Nat.mul_lt_mul_of_pos_right (Nat.lt_succ_self q) (Nat.two_pow_pos s)

/-- Below the end of a binade, two neighbours are at most as far apart as in this binade. -/
theorem units_succ_le {s code : Nat} (h : code < (s + 2) * f.binade) :
    f.units (code + 1) ≤ f.units code + Nat.pow 2 s := by
  obtain ⟨t, q, rfl, hq, ht⟩ := f.exists_steps code
  have hle : t ≤ s := by
    rcases ht with rfl | ht
    · exact Nat.zero_le s
    · have hmul : (t + 1) * f.binade < (s + 2) * f.binade := by
        rw [Nat.succ_mul]
        omega
      have := Nat.lt_of_mul_lt_mul_right hmul
      omega
  rw [Nat.add_assoc, f.units_add (by omega) ht, f.units_add (by omega) (by omega), Nat.succ_mul]
  exact Nat.add_le_add_left (Nat.pow_le_pow_right (by decide) hle) _

theorem units_pos_iff {code : Nat} : 0 < f.units code ↔ 0 < code := by
  have hzero : f.units 0 = 0 := if_pos f.binade_pos
  have hmono := f.units_strictMono.lt_iff_lt (a := 0) (b := code)
  rwa [hzero] at hmono

/-- The leading bits of a number are fewer than two binades. -/
theorem leading_lt (whole : Nat) :
    whole / Nat.pow 2 (whole.log2 - f.fractionBits) < 2 * f.binade := by
  have hpow : Nat.pow 2 (whole.log2 + 1)
      ≤ Nat.pow 2 (f.fractionBits + 1) * Nat.pow 2 (whole.log2 - f.fractionBits) := by
    have hsum : Nat.pow 2 (f.fractionBits + 1) * Nat.pow 2 (whole.log2 - f.fractionBits)
        = Nat.pow 2 (f.fractionBits + 1 + (whole.log2 - f.fractionBits)) :=
      (Nat.pow_add _ _ _).symm
    rw [hsum]
    exact Nat.pow_le_pow_right (by decide) (by omega)
  have hwhole : whole < Nat.pow 2 (whole.log2 + 1) := Nat.lt_log2_self
  have hbinade : Nat.pow 2 (f.fractionBits + 1) = 2 * f.binade := Nat.pow_succ'
  rw [← hbinade]
  exact (Nat.div_lt_iff_lt_mul (Nat.two_pow_pos _)).mpr (Nat.lt_of_lt_of_le hwhole hpow)

/-- Unless a number fits as a whole, its leading bits fill a binade. -/
theorem le_leading (whole : Nat) : whole.log2 - f.fractionBits = 0 ∨
    f.binade ≤ whole / Nat.pow 2 (whole.log2 - f.fractionBits) := by
  rcases Nat.lt_or_ge f.fractionBits whole.log2 with hlt | hge
  · refine .inr ((Nat.le_div_iff_mul_le (Nat.two_pow_pos _)).mpr ?_)
    have hne : whole ≠ 0 := by
      rintro rfl
      simp at hlt
    have hsum : f.fractionBits + (whole.log2 - f.fractionBits) = whole.log2 := by omega
    calc f.binade * Nat.pow 2 (whole.log2 - f.fractionBits)
        = Nat.pow 2 (f.fractionBits + (whole.log2 - f.fractionBits)) := (Nat.pow_add _ _ _).symm
      _ = Nat.pow 2 whole.log2 := by rw [hsum]
      _ ≤ whole := Nat.log2_self_le hne
  · exact .inl (Nat.sub_eq_zero_of_le hge)

/-- What is kept of a fraction, and what is left above it: the bits of `whole` from `shift` on are
kept, and the rest does not fill the step to the next code. -/
theorem kept_spec {scaled den whole shift lead : Nat} (hden : 0 < den)
    (hwhole : scaled / den = whole) (hshift : whole.log2 - f.fractionBits = shift)
    (hlead : whole / Nat.pow 2 shift = lead) :
    scaled = f.units (shift * f.binade + lead) * den
        + (whole % Nat.pow 2 shift * den + scaled % den) ∧
      whole % Nat.pow 2 shift * den + scaled % den < Nat.pow 2 shift * den ∧
      f.units (shift * f.binade + lead + 1) * den
        = f.units (shift * f.binade + lead) * den + Nat.pow 2 shift * den := by
  have hlt : lead < 2 * f.binade := hlead ▸ hshift ▸ f.leading_lt whole
  have hle : shift = 0 ∨ f.binade ≤ lead := hlead ▸ hshift ▸ f.le_leading whole
  have hunits := f.units_add (Nat.le_of_lt hlt) hle
  have hnext : f.units (shift * f.binade + lead + 1) = (lead + 1) * Nat.pow 2 shift :=
    f.units_add (q := lead + 1) (by omega) (by omega)
  refine ⟨?_, ?_, ?_⟩
  · have hw := Nat.div_add_mod' whole (Nat.pow 2 shift)
    have hs := Nat.div_add_mod' scaled den
    rw [hlead, ← hunits] at hw
    rw [← Nat.add_assoc, ← Nat.add_mul, hw, ← hwhole]
    exact hs.symm
  · have hbits : whole % Nat.pow 2 shift + 1 ≤ Nat.pow 2 shift :=
      Nat.mod_lt _ (Nat.two_pow_pos _)
    have hmul := Nat.mul_le_mul_right den hbits
    have hmod := Nat.mod_lt scaled hden
    rw [Nat.succ_mul] at hmul
    omega
  · rw [hnext, hunits, Nat.succ_mul, Nat.add_mul]

/-- Twice the magnitude in the **middle** between a code and the next one. -/
def middle (code : Nat) : Nat := f.units code + f.units (code + 1)

theorem middle_strictMono : StrictMono f.middle := fun _ _ h =>
  Nat.add_lt_add (f.units_strictMono h) (f.units_strictMono (Nat.succ_lt_succ h))

/-- A fraction lies between the middles around the code to which it is rounded. -/
theorem exists_nearest (num : Nat) {den : Nat} (hden : 0 < den) : ∃ code,
    f.nearest num den = min code f.infinity ∧
    2 * (num * Nat.pow 2 f.depth) ≤ f.middle code * den ∧
    ∀ below < code, f.middle below * den ≤ 2 * (num * Nat.pow 2 f.depth) := by
  rw [nearest]
  generalize num * Nat.pow 2 f.depth = scaled
  generalize hwhole : scaled / den = whole
  generalize hshift : whole.log2 - f.fractionBits = shift
  generalize hlead : whole / Nat.pow 2 shift = lead
  obtain ⟨hscaled, hrest, hstep⟩ := f.kept_spec hden hwhole hshift hlead
  generalize shift * f.binade + lead = down at *
  have hmiddle (code : Nat) : f.middle code * den
      = f.units code * den + f.units (code + 1) * den := Nat.add_mul _ _ _
  have hunits {a b : Nat} (h : a ≤ b) : f.units a * den ≤ f.units b * den :=
    Nat.mul_le_mul_right den (f.units_strictMono.monotone h)
  have hmiddles {a b : Nat} (h : a ≤ b) : f.middle a * den ≤ f.middle b * den :=
    Nat.mul_le_mul_right den (f.middle_strictMono.monotone h)
  split
  · next hup =>
    refine ⟨down + 1, rfl, ?_, fun below hbelow => ?_⟩
    · have hnext : f.units (down + 1) * den ≤ f.units (down + 1 + 1) * den :=
        hunits (Nat.le_succ _)
      rw [hmiddle]
      omega
    · have hdown := hmiddles (Nat.le_of_lt_succ hbelow)
      rw [hmiddle down] at hdown
      omega
  · refine ⟨down, rfl, ?_, fun below hbelow => ?_⟩
    · rw [hmiddle]
      omega
    · have hself := hunits (Nat.le_of_lt hbelow)
      have hsucc : f.units (below + 1) * den ≤ f.units down * den := hunits hbelow
      rw [hmiddle]
      omega

/-- **Bounded rounding.** A fraction is not rounded beyond a code that bounds it. -/
theorem nearest_le {num den code : Nat} (hden : 0 < den)
    (h : num * Nat.pow 2 f.depth ≤ f.units code * den) : f.nearest num den ≤ code := by
  obtain ⟨rounded, hnearest, -, hlower⟩ := f.exists_nearest num hden
  rw [hnearest]
  refine Nat.le_trans (Nat.min_le_left _ _) (Nat.le_of_not_lt fun hlt => ?_)
  -- The middle above the code would still be below the fraction.
  have hmiddle : f.middle code * den = f.units code * den + f.units (code + 1) * den :=
    Nat.add_mul _ _ _
  have hnext : f.units code * den < f.units (code + 1) * den :=
    Nat.mul_lt_mul_of_pos_right (f.units_strictMono (Nat.lt_succ_self code)) hden
  have := hlower code hlt
  omega

/-- **Monotone rounding.** A greater fraction is not rounded to a smaller code. -/
theorem nearest_mono {num num' den : Nat} (hden : 0 < den) (h : num ≤ num') :
    f.nearest num den ≤ f.nearest num' den := by
  rcases Nat.eq_or_lt_of_le h with rfl | hlt
  · exact Nat.le_refl _
  obtain ⟨code, hnearest, -, hlower⟩ := f.exists_nearest num hden
  obtain ⟨code', hnearest', hupper', -⟩ := f.exists_nearest num' hden
  -- Else both fractions would be in the middle above the smaller code.
  have hle : code ≤ code' := Nat.le_of_not_lt fun hgt => by
    have hmiddle := Nat.le_trans hupper' (hlower code' hgt)
    have hmul : num * Nat.pow 2 f.depth < num' * Nat.pow 2 f.depth :=
      Nat.mul_lt_mul_of_pos_right hlt (Nat.two_pow_pos _)
    omega
  rw [hnearest, hnearest']
  omega

end Format

/-- A magnitude that is at most a natural number is rounded to at most that number. -/
theorem rounded_le {f : Format} {x : Binary f} {n : Nat} (h : x.units ≤ n * Nat.pow 2 f.depth) :
    x.rounded ≤ n := by
  have hpow : Nat.pow 2 (f.depth + 1) = 2 * Nat.pow 2 f.depth := Nat.pow_succ'
  have hpos : 0 < Nat.pow 2 f.depth := Nat.two_pow_pos _
  rw [rounded, hpow]
  refine Nat.le_of_lt_succ ((Nat.div_lt_iff_lt_mul (by omega)).mpr ?_)
  have hmul : n.succ * (2 * Nat.pow 2 f.depth)
      = 2 * (n * Nat.pow 2 f.depth) + 2 * Nat.pow 2 f.depth := by
    rw [Nat.succ_mul, Nat.mul_left_comm]
  omega

end SpeechService.Binary
