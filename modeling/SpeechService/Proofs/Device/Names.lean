import SpeechService.Device
import SpeechService.Proofs.Text.Digits

/-!
# Names of devices

A preference is read from its name in lower case without the blanks around it, and what is read
depends on nothing else. `DevicePreference.IsNameOf` lists the names: a few words, and a prefix with
the ordinal of a device in decimal digits. One of the names of a preference is the one that is
written for it, so that writing leads from every other one to this one
(`DevicePreference.names_canonical`).
-/

namespace SpeechService

open Text (CaseVariant SpellsNatural Trims)

namespace DevicePreference

variable {s : String} {d : DevicePreference}

/-- The **names** of preferences, in lower case and without blanks around them. -/
inductive IsNameOf : List Char → DevicePreference → Prop
  | empty : IsNameOf [] .auto
  | auto : IsNameOf ['a', 'u', 't', 'o'] .auto
  | cpu : IsNameOf ['c', 'p', 'u'] .cpu
  | cuda : IsNameOf ['c', 'u', 'd', 'a'] (.accelerated none)
  | gpu : IsNameOf ['g', 'p', 'u'] (.accelerated none)
  | accelerated :
    IsNameOf ['a', 'c', 'c', 'e', 'l', 'e', 'r', 'a', 't', 'e', 'd'] (.accelerated none)
  /-- Digits up to the limit of 32 bits, with or without a plus sign. -/
  | ordinal {rest : List Char} {n : Nat} (h : SpellsNatural rest n) (hn : n ≤ 4294967295) :
    IsNameOf ('c' :: 'u' :: 'd' :: 'a' :: ':' :: rest) (.accelerated (some (.ofNat n)))

theorem ordinal?_eq_some_iff {rest : List Char} {k : UInt32} :
    ordinal? rest = some k ↔ ∃ n, SpellsNatural rest n ∧ n ≤ 4294967295 ∧ .ofNat n = k := by
  rw [ordinal?, Option.map_eq_some_iff]
  simp only [Text.natural?_eq_some_iff, and_assoc, Text.max32]

/-- **What is read.** -/
theorem parse_eq_ok_iff :
    parse s = .ok d ↔ IsNameOf (Text.lower (Text.trim s)).toList d := by
  rw [parse]
  generalize (Text.lower (Text.trim s)).toList = t
  constructor
  · intro h
    split at h
    case h_7 rest =>
      split at h
      · next k hk =>
        obtain ⟨n, hspells, hn, rfl⟩ := ordinal?_eq_some_iff.mp hk
        exact Except.ok.inj h ▸ .ordinal hspells hn
      · exact nomatch h
    case h_8 => exact nomatch h
    all_goals
      obtain rfl := Except.ok.inj h
      constructor
  · intro h
    cases h with
    | ordinal hspells hn =>
      have hordinal := ordinal?_eq_some_iff.mpr ⟨_, hspells, hn, rfl⟩
      simp only [hordinal]
    | _ => rfl

/-! ### The name that is written -/

theorem toList_acceleratedName (n : UInt32) : (acceleratedName (some n)).toList =
    'c' :: 'u' :: 'd' :: 'a' :: ':' :: Nat.toDigits 10 n.toNat := by
  rw [acceleratedName, String.toList_append, Text.toList_ofNat]
  rfl

/-- What holds of the letters of names, of the colon and of digits holds of all their characters. -/
theorem forall_mem_name {P : Char → Prop}
    (hletters : P 'a' ∧ P 'u' ∧ P 't' ∧ P 'o' ∧ P 'c' ∧ P 'p' ∧ P 'd' ∧ P ':')
    (hdigits : ∀ c, c.isDigit = true → P c) : ∀ c ∈ d.name.toList, P c := by
  obtain ⟨ha, hu, ht, ho, hc, hp, hd, hcolon⟩ := hletters
  have hcuda : ∀ c ∈ ['c', 'u', 'd', 'a'], P c := by
    simp only [List.forall_mem_cons]
    exact ⟨hc, hu, hd, ha, by simp⟩
  cases d with
  | auto =>
    show ∀ c ∈ ['a', 'u', 't', 'o'], P c
    simp only [List.forall_mem_cons]
    exact ⟨ha, hu, ht, ho, by simp⟩
  | cpu =>
    show ∀ c ∈ ['c', 'p', 'u'], P c
    simp only [List.forall_mem_cons]
    exact ⟨hc, hp, hu, by simp⟩
  | accelerated ordinal =>
    cases ordinal with
    | none => exact hcuda
    | some n =>
      rw [name, toList_acceleratedName]
      simp only [List.forall_mem_cons]
      exact ⟨hc, hu, hd, ha, hcolon, fun c hc => hdigits c (Text.isDigit_of_mem_toDigits hc)⟩

theorem isBlank_of_mem_name : ∀ c ∈ d.name.toList, Text.isBlank c = false :=
  forall_mem_name (by decide) fun _ => Text.isBlank_of_isDigit

theorem isAscii_of_mem_name : ∀ c ∈ d.name.toList, c.toNat < 0x80 := by
  refine forall_mem_name (by decide) fun c hc => ?_
  have h9 : c.toNat ≤ 57 := (Char.isDigit_iff_toNat.mp hc).2
  exact Nat.lt_of_le_of_lt h9 (by decide)

theorem not_capital_of_mem_name : ∀ c ∈ d.name.toList, ¬('A' ≤ c ∧ c ≤ 'Z') :=
  forall_mem_name (by decide) fun _ => Text.not_capital_of_isDigit

theorem lower_name : Text.lower d.name = d.name := by
  refine Text.lower_of_settled fun c hc => ?_
  rw [Text.Settled, Text.lowerChar_of_ascii (isAscii_of_mem_name c hc),
    Text.toLower_of_not_capital (not_capital_of_mem_name c hc)]

theorem isNameOf_name : IsNameOf d.name.toList d := by
  cases d with
  | auto => exact .auto
  | cpu => exact .cpu
  | accelerated ordinal =>
    cases ordinal with
    | none => exact .cuda
    | some n =>
      have hn : n.toNat ≤ 4294967295 := Nat.le_of_lt_succ n.toNat_lt
      have h := IsNameOf.ordinal (Text.spellsNatural_toDigits n.toNat) hn
      rwa [UInt32.ofNat_toNat, ← toList_acceleratedName] at h

/-- Blanks have no case. -/
theorem isBlank_toLower (c : Char) : Text.isBlank c.toLower = Text.isBlank c := by
  by_cases hcapital : 'A' ≤ c ∧ c ≤ 'Z'
  · have hascii :
        ∀ n < 0x80, Text.isBlank (Char.ofNat n).toLower = Text.isBlank (Char.ofNat n) := by
      decide +kernel
    have hZ : c.toNat ≤ 0x5A := hcapital.2
    have hc := hascii c.toNat (Nat.lt_of_le_of_lt hZ (by decide))
    rwa [Char.ofNat_toNat] at hc
  · rw [Text.toLower_of_not_capital hcapital]

/-- **Reading the name** in any case, with blanks around it. -/
theorem parse_variant {front v back : String} (hfront : Text.isAllBlank front = true)
    (hback : Text.isAllBlank back = true) (h : CaseVariant d.name v) :
    parse (front ++ v ++ back) = .ok d := by
  have hblank : ∀ c ∈ v.toList, Text.isBlank c = false := by
    intro c hc
    have hmem : c.toLower ∈ d.name.toList.map Char.toLower := h ▸ List.mem_map_of_mem hc
    obtain ⟨b, hb, heq⟩ := List.mem_map.mp hmem
    rw [← isBlank_toLower, ← heq, isBlank_toLower, isBlank_of_mem_name b hb]
  have htrims : Trims (front ++ v ++ back) v :=
    ⟨⟨fun c hc => hblank c (List.mem_of_mem_head? hc),
        fun c hc => hblank c (List.mem_of_mem_getLast? hc)⟩,
      front.toList, back.toList, by rw [String.toList_append, String.toList_append],
      Text.isAllBlank_iff.mp hfront, Text.isAllBlank_iff.mp hback⟩
  rw [parse_eq_ok_iff, Text.trims_iff.mp htrims,
    Text.lower_eq_of_caseVariant isAscii_of_mem_name h, lower_name]
  exact isNameOf_name

theorem parse_name (d : DevicePreference) : parse d.name = .ok d := by
  have h : parse ("" ++ d.name ++ "") = .ok d := parse_variant rfl rfl rfl
  rwa [String.empty_append, String.append_empty] at h

/-- An ordinal may have a plus sign and zeros in front of it. -/
example : parse "\u3000CuDa:+007\n" = .ok (.accelerated (some 7)) := by decide +kernel

/-! ### One name for each preference -/

/-- Names are **canonical**: each preference has one among all that are read as it. -/
structure NamesAreCanonical : Prop where
  /-- A name is read in any case and with blanks around it. -/
  variants : ∀ (d : DevicePreference) (front v back : String), Text.isAllBlank front = true →
    CaseVariant d.name v → Text.isAllBlank back = true → parse (front ++ v ++ back) = .ok d
  /-- The name of what was read is read as the same. -/
  again : ∀ (s : String) (d : DevicePreference), parse s = .ok d → parse d.name = .ok d
  /-- Nothing but a name is read. -/
  names : ∀ (s : String) (d : DevicePreference),
    parse s = .ok d ↔ IsNameOf (Text.lower (Text.trim s)).toList d
  /-- The name of a device asks for that device. -/
  devices : ∀ e : Device, ∃ d, parse e.name = .ok d ∧ d.settle true = e

/-- **Names of devices**, for all texts, preferences and devices. -/
theorem names_canonical : NamesAreCanonical where
  variants _ _ _ _ hfront hv hback := parse_variant hfront hback hv
  again _ d _ := d.parse_name
  names _ _ := parse_eq_ok_iff
  devices e := by
    cases e with
    | cpu => exact ⟨.cpu, parse_name .cpu, rfl⟩
    | accelerated ordinal => exact ⟨.accelerated ordinal, parse_name (.accelerated ordinal), rfl⟩

end DevicePreference

end SpeechService
