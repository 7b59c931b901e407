import SpeechService.Json.Decode
import SpeechService.Proofs.Text.Digits

/-!
# Values that are read from JSON

What single readers take: a text is a string whose escapes and bytes stand for one
(`Json.Tree.IsText`), a double is any number in range (`Json.Tree.IsDouble`), and an integer is a
number that is spelled without a fraction or an exponent, which also has to lie between bounds
(`Json.Tree.IsInteger`). No reader takes a tree in which something is missing.

Integers are told apart from other numbers while their digits are taken, which ends where they leave
64 bits. `Json.Numeral.value?_eq_integer` says which numbers are integers without following this.
-/

namespace SpeechService.Json

/-! ### Integers -/

namespace Numeral

/-- The number is an **integer literal** of this value: it has no fraction and no exponent. -/
structure IsLiteral (n : Numeral) (i : Int) : Prop where
  fraction : n.fraction = []
  exponent : n.exponent = none
  eq : i = if n.negative then -(Nat.ofDigitChars 10 n.whole 0 : Int)
    else (Nat.ofDigitChars 10 n.whole 0 : Int)

/-- Digits whose value has 64 bits are all taken. -/
theorem absorb_of_le {start taken : Nat} {digits : List Char}
    (h : Nat.ofDigitChars 10 digits start ≤ Text.max64) :
    absorb start taken digits = (Nat.ofDigitChars 10 digits start, taken + digits.length) := by
  induction digits generalizing start taken with
  | nil => rfl
  | cons c digits ih =>
    rw [Nat.ofDigitChars_cons] at h ⊢
    rw [absorb, if_neg (Nat.not_lt.mpr (Nat.le_trans Text.le_ofDigitChars h)), ih h,
      List.length_cons, Nat.add_right_comm, Nat.add_assoc]

/-- Of other digits some are dropped. -/
theorem absorb_snd_lt {start taken : Nat} {digits : List Char} (hstart : start ≤ Text.max64)
    (h : Text.max64 < Nat.ofDigitChars 10 digits start) :
    (absorb start taken digits).2 < taken + digits.length := by
  induction digits generalizing start taken with
  | nil => exact absurd h (Nat.not_lt.mpr hstart)
  | cons c digits ih =>
    rw [Nat.ofDigitChars_cons] at h
    rw [absorb, List.length_cons]
    split
    · exact Nat.lt_add_of_pos_right (Nat.succ_pos _)
    · next hnext =>
      have hlt : (absorb _ (taken + 1) digits).2 < _ := ih (Nat.not_lt.mp hnext) h
      omega

/-- No digit is dropped exactly when the number fits 64 bits. -/
theorem dropped_eq_zero {digits : List Char} :
    digits.length - (absorb 0 0 digits).2 = 0 ↔ Nat.ofDigitChars 10 digits 0 ≤ Text.max64 := by
  constructor
  · intro h
    by_contra hlarge
    have hlt : (absorb 0 0 digits).2 < 0 + digits.length :=
      absorb_snd_lt (Nat.zero_le _) (Nat.not_le.mp hlarge)
    omega
  · intro h
    simp [absorb_of_le h]

/-- The number has no part that an integer does not have, and its digits have 64 bits. -/
def IsShort (n : Numeral) : Prop :=
  n.fraction = [] ∧ n.exponent = none ∧ Nat.ofDigitChars 10 n.whole 0 ≤ Text.max64

theorem value?_of_isShort {n : Numeral} (h : n.IsShort) :
    n.value? = some
      (if n.negative = false then .integer (Nat.ofDigitChars 10 n.whole 0)
      else if 0 < Nat.ofDigitChars 10 n.whole 0
          ∧ Nat.ofDigitChars 10 n.whole 0 ≤ 9223372036854775808 then
        .integer (-(Nat.ofDigitChars 10 n.whole 0 : Int))
      else .float (.neg (.ofNat .double (Nat.ofDigitChars 10 n.whole 0)))) := by
  obtain ⟨hfraction, hexponent, hle⟩ := h
  simp only [value?, absorb_of_le hle, hfraction, hexponent]
  cases n.negative <;> simp [apply_ite some]

/-- A numeral that is not short is not read as an integer. -/
theorem value?_of_not_isShort {n : Numeral} (h : ¬n.IsShort) {i : Int} :
    n.value? ≠ some (.integer i) := by
  have hlong : ¬(n.fraction.isEmpty && n.exponent.isNone
      && n.whole.length - (absorb 0 0 n.whole).2 == 0) = true := by
    simpa [IsShort, dropped_eq_zero, and_assoc] using h
  simp only [value?, if_neg hlong]
  intro heq
  obtain ⟨x, -, hx⟩ := Option.map_eq_some_iff.mp heq
  exact nomatch hx

/-- **Integers.** A number is read as an integer where it is an integer literal of 64 bits, except
that zero with a minus sign is not. -/
theorem value?_eq_integer {n : Numeral} {i : Int} :
    n.value? = some (.integer i) ↔
      n.IsLiteral i ∧ -9223372036854775808 ≤ i ∧ i ≤ Text.max64 ∧ ¬(n.negative = true ∧ i = 0) := by
  constructor
  · intro h
    have hshort : n.IsShort := by
      by_contra hlong
      exact value?_of_not_isShort hlong h
    have hmax := hshort.2.2
    rw [value?_of_isShort hshort] at h
    have hvalue := Option.some.inj h
    cases hn : n.negative with
    | false =>
      rw [hn, if_pos rfl] at hvalue
      obtain rfl := Number.integer.inj hvalue
      exact ⟨⟨hshort.1, hshort.2.1, by rw [hn]; rfl⟩, by omega, by omega, by simp⟩
    | true =>
      rw [hn, if_neg nofun] at hvalue
      split at hvalue
      · obtain rfl := Number.integer.inj hvalue
        exact ⟨⟨hshort.1, hshort.2.1, by rw [hn]; rfl⟩, by omega, by omega, by omega⟩
      · exact nomatch hvalue
  · rintro ⟨⟨hfraction, hexponent, rfl⟩, hlow, hhigh, hzero⟩
    cases hn : n.negative with
    | false =>
      rw [hn, if_neg nofun] at hhigh
      have hshort : n.IsShort := ⟨hfraction, hexponent, by omega⟩
      rw [value?_of_isShort hshort, hn]
      rfl
    | true =>
      rw [hn, if_pos rfl] at hlow hzero
      replace hzero : ¬_ = _ := fun h => hzero ⟨rfl, h⟩
      have hrange : 0 < Nat.ofDigitChars 10 n.whole 0
          ∧ Nat.ofDigitChars 10 n.whole 0 ≤ 9223372036854775808 := by omega
      have hshort : n.IsShort := ⟨hfraction, hexponent, Nat.le_trans hrange.2 (by decide)⟩
      rw [value?_of_isShort hshort, hn, if_neg nofun, if_pos hrange]
      rfl

end Numeral

/-! ### Single values -/

namespace Tree

/-- The tree **is a text**. -/
inductive IsText : Tree → String → Prop
  | string {raw s} (h : decodeString? raw = some s) : IsText (.string raw) s

/-- The tree **is a number** in the range of doubles. -/
inductive IsDouble : Tree → Double → Prop
  | integer {n i} (h : n.value? = some (.integer i)) :
    IsDouble (.number n) (.ofRatio .double (i < 0) i.natAbs 1)
  | float {n x} (h : n.value? = some (.float x)) : IsDouble (.number n) x

/-- The tree **is an integer** between two bounds. -/
inductive IsInteger (low high : Int) : Tree → Int → Prop
  | number {n i} (h : n.IsLiteral i) (hlow : low ≤ i) (hhigh : i ≤ high) :
    IsInteger low high (.number n) i

/-- The tree is zero with a minus sign. -/
def IsMinusZero (t : Tree) : Prop := ∃ n, t = .number n ∧ n.IsLiteral 0 ∧ n.negative = true

variable {t : Tree}

/-- Texts, doubles and integers are whole. -/
theorem IsText.isWhole {s : String} (h : t.IsText s) : t.isWhole = true := by
  cases h
  rfl

theorem IsDouble.isWhole {x : Double} (h : t.IsDouble x) : t.isWhole = true := by
  cases h <;> rfl

theorem IsInteger.isWhole {low high i : Int} (h : t.IsInteger low high i) : t.isWhole = true := by
  cases h
  rfl

end Tree

/-- What may be absent or null. -/
inductive Optionally {α : Type} (P : Tree → α → Prop) : Option Tree → Option α → Prop
  | absent : Optionally P none none
  | null : Optionally P (some .null) none
  | given {t x} (h : P t x) : Optionally P (some t) (some x)

/-- A condition on the tree alone is one on what is there. -/
theorem optionally_and {α : Type} {P : Tree → α → Prop} {Q : Tree → Prop} (hnull : Q .null)
    {o : Option Tree} {v : Option α} :
    Optionally (fun t x => P t x ∧ Q t) o v ↔ Optionally P o v ∧ ∀ t, o = some t → Q t := by
  constructor
  · rintro (_ | _ | ⟨hP, hQ⟩)
    · exact ⟨.absent, nofun⟩
    · exact ⟨.null, fun t ht => Option.some.inj ht ▸ hnull⟩
    · exact ⟨.given hP, fun t ht => Option.some.inj ht ▸ hQ⟩
  · rintro ⟨_ | _ | hP, hQ⟩
    · exact .absent
    · exact .null
    · exact .given ⟨hP, hQ _ rfl⟩

namespace Reader

variable {α : Type} {t : Tree}

theorem mismatch_ne_ok {expected : String} {x : α} : mismatch expected t ≠ .ok x := by
  rw [mismatch]
  split <;> nofun

/-- The reader of texts takes strings that say something. -/
theorem text_eq_ok (t : Tree) (s : String) : text t = .ok s ↔ t.IsText s := by
  constructor
  · intro h
    rw [text.eq_def] at h
    split at h
    · split at h
      · next hraw =>
        obtain rfl := Except.ok.inj h
        exact .string hraw
      · exact nomatch h
    · exact absurd h mismatch_ne_ok
  · rintro ⟨h⟩
    simp [text, h]

theorem double_eq_ok (t : Tree) (x : Double) : double t = .ok x ↔ t.IsDouble x := by
  constructor
  · intro h
    rw [double.eq_def] at h
    split at h
    · split at h
      · next hvalue =>
        obtain rfl := Except.ok.inj h
        exact .integer hvalue
      · next hvalue =>
        obtain rfl := Except.ok.inj h
        exact .float hvalue
      · exact nomatch h
    · exact absurd h mismatch_ne_ok
  · rintro (h | h) <;> simp [double, h]

/-- A number is a zero with a minus sign when its literal is zero and has the sign. -/
theorem not_isMinusZero_number {n : Numeral} {i : Int} (h : n.IsLiteral i) :
    ¬(Tree.number n).IsMinusZero ↔ ¬(n.negative = true ∧ i = 0) := by
  refine not_congr ⟨?_, ?_⟩
  · rintro ⟨n, ⟨⟩, hzero, hn⟩
    exact ⟨hn, h.eq.trans hzero.eq.symm⟩
  · rintro ⟨hn, rfl⟩
    exact ⟨n, rfl, h, hn⟩

/-- An integer is read within bounds of 64 bits, but zero with a minus sign is no integer here. -/
theorem integer_eq_ok {low high : Int} {expected : String} (hlow : -9223372036854775808 ≤ low)
    (hhigh : high ≤ Text.max64) (t : Tree) (i : Int) :
    integer low high expected t = .ok i ↔ t.IsInteger low high i ∧ ¬t.IsMinusZero := by
  constructor
  · intro h
    rw [integer.eq_def] at h
    split at h
    · split at h
      · next hvalue =>
        split at h
        · next hbounds =>
          obtain rfl := Except.ok.inj h
          obtain ⟨hliteral, -, -, hzero⟩ := Numeral.value?_eq_integer.mp hvalue
          exact ⟨.number hliteral hbounds.1 hbounds.2, (not_isMinusZero_number hliteral).mpr hzero⟩
        · exact nomatch h
      · exact absurd h mismatch_ne_ok
    · exact absurd h mismatch_ne_ok
  · rintro ⟨⟨h, hi, hi'⟩, hzero⟩
    have hvalue := Numeral.value?_eq_integer.mpr ⟨h, Int.le_trans hlow hi,
      Int.le_trans hi' hhigh, (not_isMinusZero_number h).mp hzero⟩
    simp [integer, hvalue, hi, hi']

theorem map_eq_ok {ε α β : Type} {x : Except ε α} {g : α → β} {y : β} :
    x.map g = .ok y ↔ ∃ a, x = .ok a ∧ y = g a := by
  cases x with
  | error e => simp [Except.map]
  | ok a => simp [Except.map, eq_comm]

/-- A field that may be null takes null for nothing, and any other value as its reader does. -/
theorem optional_eq_ok {P : Tree → α → Prop} {rd : Reader α}
    (hrd : ∀ t x, rd t = .ok x ↔ P t x) (hnull : ∀ x, ¬P .null x) {v : Option α} :
    rd.optional t = .ok v ↔ Optionally P (some t) v := by
  constructor
  · intro h
    rw [optional.eq_def] at h
    split at h
    · obtain rfl := Except.ok.inj h
      exact .null
    · obtain ⟨x, hx, rfl⟩ := map_eq_ok.mp h
      exact .given ((hrd _ x).mp hx)
  · intro h
    cases h with
    | null => rfl
    | @given t x h =>
      have hne : t ≠ .null := fun ht => hnull x (ht ▸ h)
      rw [optional.eq_def]
      split
      · exact absurd rfl hne
      · exact map_eq_ok.mpr ⟨x, (hrd _ x).mpr h, rfl⟩

theorem isWhole_of_optional {P : Tree → α → Prop} {rd : Reader α}
    (hrd : ∀ t x, rd t = .ok x ↔ P t x) (hnull : ∀ x, ¬P .null x)
    (hwhole : ∀ t x, P t x → t.isWhole = true) {v : Option α} (h : rd.optional t = .ok v) :
    t.isWhole = true := by
  cases (optional_eq_ok hrd hnull).mp h with
  | null => rfl
  | given hx => exact hwhole t _ hx

end Reader

end SpeechService.Json
