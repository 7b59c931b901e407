import SpeechService.Proofs.Binary.Exact

/-!
# The shortest decimal of a number

Of the decimals next to a number, the nearer one is off by at most half a unit in its last place
(`Binary.exists_mem_neighbours`). With seventeen digits this is so little that the decimal has the
code of the number. So the search for the shortest decimal ends there at the latest
(`Binary.shortest_spec`), and the exact value with its many digits never comes up.
-/

namespace SpeechService.Binary

/-! ### The leading digit -/

/-- A natural number by the number of its digits. -/
private theorem digits_bounds {n : Nat} (h : 0 < n) :
    (10 : ℚ) ^ ((Nat.toDigits 10 n).length - 1 : Int) ≤ n ∧
      (n : ℚ) < 10 ^ ((Nat.toDigits 10 n).length : Int) := by
  have hvalue : (⟨n, 0⟩ : Decimal).value = n := by simp [Decimal.value]
  have hplaces : (⟨n, 0⟩ : Decimal).places = (Nat.toDigits 10 n).length := Int.zero_add _
  have hlow := Decimal.pow_places_le_value (d := ⟨n, 0⟩) h.ne'
  have hhigh := Decimal.value_lt_pow_places ⟨n, 0⟩
  rw [hvalue, hplaces] at hlow hhigh
  exact ⟨hlow, hhigh⟩

theorem leadingExponent_spec {num den : Nat} (hnum : 0 < num) (hden : 0 < den) :
    (10 : ℚ) ^ leadingExponent num den ≤ num / den ∧
      (num / den : ℚ) < 10 ^ (leadingExponent num den + 1) := by
  have hden' : (0 : ℚ) < den := Nat.cast_pos.mpr hden
  have hten : (10 : ℚ) ≠ 0 := by norm_num
  obtain ⟨hnumLow, hnumHigh⟩ := digits_bounds hnum
  obtain ⟨hdenLow, hdenHigh⟩ := digits_bounds hden
  rw [leadingExponent]
  generalize ((Nat.toDigits 10 num).length : Int) = a at *
  generalize ((Nat.toDigits 10 den).length : Int) = b at *
  -- By the numbers of digits alone, the guess is right or too great by one.
  have hlow : (10 : ℚ) ^ (a - b - 1) ≤ num / den := by
    rw [le_div_iff₀ hden']
    calc (10 : ℚ) ^ (a - b - 1) * den
        ≤ 10 ^ (a - b - 1) * 10 ^ b := mul_le_mul_of_nonneg_left hdenHigh.le (by positivity)
      _ = 10 ^ (a - 1) := by
          rw [← zpow_add₀ hten]
          congr 1
          ring
      _ ≤ num := hnumLow
  have hhigh : (num / den : ℚ) < 10 ^ (a - b + 1) := by
    rw [div_lt_iff₀ hden']
    calc (num : ℚ) < 10 ^ a := hnumHigh
      _ = 10 ^ (a - b + 1) * 10 ^ (b - 1) := by
          rw [← zpow_add₀ hten]
          congr 1
          ring
      _ ≤ 10 ^ (a - b + 1) * den := mul_le_mul_of_nonneg_left hdenLow (by positivity)
  have hguess : den * Nat.pow 10 (a - b).toNat ≤ num * Nat.pow 10 (-(a - b)).toNat
      ↔ (10 : ℚ) ^ (a - b) ≤ num / den := by
    have hpow : (0 : ℚ) < (Nat.pow 10 (-(a - b)).toNat : Nat) :=
      Nat.cast_pos.mpr (Nat.pow_pos (by decide))
    rw [ten_zpow_eq_div, div_le_div_iff₀ hpow hden', mul_comm (Nat.cast _) (den : ℚ)]
    exact_mod_cast Iff.rfl
  split
  · next h => exact ⟨hguess.mp h, hhigh⟩
  · next h =>
    rw [Int.sub_add_cancel]
    exact ⟨hlow, lt_of_not_ge (mt hguess.mpr h)⟩

/-! ### Neighbours -/

/-- A fraction in units of a power of ten. -/
private theorem scaled_mul_pow (num den : Nat) (e : Int) :
    ((num * Nat.pow 10 (-e).toNat : Nat) / (den * Nat.pow 10 e.toNat : Nat) : ℚ) * 10 ^ e
      = num / den := by
  have hpow (k : Nat) : ((Nat.pow 10 k : Nat) : ℚ) ≠ 0 :=
    Nat.cast_ne_zero.mpr (Nat.pow_pos (by decide)).ne'
  have hup := hpow e.toNat
  have hdown := hpow (-e).toNat
  rw [ten_zpow_eq_div, Nat.cast_mul, Nat.cast_mul]
  field_simp

/-- One of two neighbours of a fraction is off by at most a half. -/
private theorem two_mul_abs_sub_le {a b m : Nat} (hb : 0 < b) (h : 2 * (m * b) ≤ 2 * a + b)
    (h' : 2 * a ≤ 2 * (m * b) + b) : 2 * |(m : ℚ) - a / b| ≤ 1 := by
  have hb' : (0 : ℚ) < b := Nat.cast_pos.mpr hb
  have hdiv : (m : ℚ) - a / b = (m * b - a) / b := by
    rw [sub_div, mul_div_cancel_right₀ _ hb'.ne']
  have hq : (2 * (m * b) : ℚ) ≤ 2 * a + b := by exact_mod_cast h
  have hq' : (2 * a : ℚ) ≤ 2 * (m * b) + b := by exact_mod_cast h'
  rw [hdiv, abs_div, abs_of_pos hb', ← mul_div_assoc, div_le_one hb']
  rcases abs_cases ((m * b : ℚ) - a) with ⟨habs, -⟩ | ⟨habs, -⟩ <;> rw [habs] <;> linarith

section Neighbours

variable (h : Halfway) {num den : Nat} {e : Int}

theorem digits_le_of_mem_neighbours {d : Decimal} (hden : 0 < den)
    (hd : d ∈ neighbours h num den e) {k : Nat} (hk : (num / den : ℚ) < 10 ^ (e + k)) :
    d.digits ≤ 10 ^ k := by
  have hscaled := scaled_mul_pow num den e
  have hpos : 0 < den * Nat.pow 10 e.toNat := Nat.mul_pos hden (Nat.pow_pos (by decide))
  rw [neighbours] at hd
  generalize num * Nat.pow 10 (-e).toNat = a at *
  generalize den * Nat.pow 10 e.toNat = b at *
  have hbelow : a / b < 10 ^ k := by
    rw [Nat.div_lt_iff_lt_mul hpos]
    have hten : (0 : ℚ) < 10 ^ e := by positivity
    rw [← hscaled, add_comm, zpow_add₀ (by norm_num), zpow_natCast, mul_lt_mul_iff_left₀ hten,
      div_lt_iff₀ (Nat.cast_pos.mpr hpos)] at hk
    exact_mod_cast hk
  split at hd <;>
  · simp only [List.mem_cons, List.not_mem_nil, or_false] at hd
    rcases hd with rfl | rfl <;> dsimp only <;> omega

/-- The nearer one of the **neighbours** is off by at most half a unit in its last place. -/
theorem exists_mem_neighbours (num : Nat) (hden : 0 < den) (e : Int) :
    ∃ d ∈ neighbours h num den e, 2 * |d.value - num / den| ≤ 10 ^ e := by
  have hscaled := scaled_mul_pow num den e
  have hpos : 0 < den * Nat.pow 10 e.toNat := Nat.mul_pos hden (Nat.pow_pos (by decide))
  rw [neighbours]
  generalize num * Nat.pow 10 (-e).toNat = a at *
  generalize den * Nat.pow 10 e.toNat = b at *
  have hoff {m : Nat} (h : 2 * |(m : ℚ) - a / b| ≤ 1) :
      2 * |(⟨m, e⟩ : Decimal).value - num / den| ≤ 10 ^ e := by
    have hten : (0 : ℚ) < 10 ^ e := by positivity
    rw [Decimal.value, ← hscaled, ← sub_mul, abs_mul, abs_of_pos hten, ← mul_assoc]
    exact mul_le_of_le_one_left hten.le h
  have hdiv := Nat.div_add_mod' a b
  have hmod := Nat.mod_lt a hpos
  split
  · exact ⟨_, .head _, hoff (two_mul_abs_sub_le hpos (by omega) (by omega))⟩
  · have hsucc : (a / b + 1) * b = a / b * b + b := Nat.succ_mul _ _
    exact ⟨_, .head _, hoff (two_mul_abs_sub_le hpos (by omega) (by omega))⟩

end Neighbours

/-! ### The shortest decimal -/

section Search

open Format (double)

variable (h : Halfway) {num den : Nat}

/-- The decimals of at most seventeen digits that are tried for a fraction. -/
private def shortCandidates (num den : Nat) : List Decimal :=
  (List.range 17).flatMap fun n : Nat =>
    (neighbours h num den (leadingExponent num den - (n : Int))).map Decimal.reduced

private theorem digits_le_of_mem (hnum : 0 < num) (hden : 0 < den) {d : Decimal}
    (hd : d ∈ shortCandidates h num den) : d.digits ≤ 10 ^ 17 := by
  obtain ⟨n, hn, hd⟩ := List.mem_flatMap.mp hd
  obtain ⟨neighbour, hneighbour, rfl⟩ := List.mem_map.mp hd
  have hn := List.mem_range.mp hn
  have hplaces : leadingExponent num den + 1
      = leadingExponent num den - (n : Int) + (n + 1 : Nat) := by omega
  have hleading := (leadingExponent_spec hnum hden).2
  rw [hplaces] at hleading
  calc neighbour.reduced.digits
      ≤ neighbour.digits := neighbour.digits_reduced_le
    _ ≤ 10 ^ (n + 1) := digits_le_of_mem_neighbours h hden hneighbour hleading
    _ ≤ 10 ^ 17 := Nat.pow_le_pow_right (by decide) (by omega)

/-- With seventeen digits the nearer neighbour has the code of the number. -/
private theorem exists_mem_shortCandidates (hnum : 0 < num) (hden : 0 < den) {code : Nat}
    (hpos : 0 < code) (hfinite : code < double.infinity)
    (hvalue : double.value code = num / den) :
    ∃ d ∈ shortCandidates h num den, d.code = code := by
  have hleading := (leadingExponent_spec hnum hden).1
  obtain ⟨d, hd, hoff⟩ := exists_mem_neighbours h num hden
    (leadingExponent num den - (16 : Nat))
  -- The last of seventeen places is worth `10 ^ (-16)` of the leading one.
  refine ⟨d.reduced, List.mem_flatMap.mpr ⟨16, by decide, List.mem_map.mpr ⟨d, hd, rfl⟩⟩, ?_⟩
  refine Decimal.code_eq_of_near hpos hfinite ?_
  rw [zpow_sub₀ (by norm_num), zpow_natCast, le_div_iff₀ (by positivity)] at hoff
  rw [Decimal.value_reduced, hvalue]
  linarith

/-- **The shortest decimal** has the code of the number, and it is short. -/
theorem shortest_spec {x : Double} (hzero : x.code ≠ 0) (hfinite : x.isFinite = true) :
    (x.shortest h).code = x.code ∧ (x.shortest h).digits ≤ 10 ^ 17 := by
  have hpos := Nat.pos_of_ne_zero hzero
  have hunits : 0 < x.units := double.units_pos_iff.mpr hpos
  have hden := double.pow_depth_pos
  -- Nothing below depends on how large the denominator is, and it must not be computed.
  have hvalue : double.value x.code = (x.units / (Nat.pow 2 double.depth : Nat) : ℚ) :=
    double.value_eq_div x.code
  have hcandidates : candidates h x = shortCandidates h x.units (Nat.pow 2 double.depth)
      ++ [⟨x.units * Nat.pow 5 double.depth, -double.depth⟩] := rfl
  rw [shortest, if_neg hzero, hcandidates]
  generalize Nat.pow 2 double.depth = den at *
  generalize x.units = num at *
  obtain ⟨d, hd, hcode⟩ :=
    exists_mem_shortCandidates h hunits hden hpos (of_decide_eq_true hfinite) hvalue
  have hsome := List.find?_isSome (p := fun d : Decimal => d.code == x.code).mpr
    ⟨d, hd, beq_iff_eq.mpr hcode⟩
  obtain ⟨found, hfound⟩ := Option.isSome_iff_exists.mp hsome
  rw [List.find?_append, hfound, Option.some_or, Option.getD_some]
  have hfoundCode := List.find?_some hfound
  have hfoundMem := List.mem_of_find?_eq_some hfound
  exact ⟨beq_iff_eq.mp hfoundCode, digits_le_of_mem h hunits hden hfoundMem⟩

end Search

end SpeechService.Binary
