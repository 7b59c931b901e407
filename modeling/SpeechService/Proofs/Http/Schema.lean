import SpeechService.Proofs.Http.Bodies
import SpeechService.Proofs.Json.Plain
import SpeechService.Proofs.Json.Strings
import SpeechService.Rehearsal.Backend

/-!
# The schema of a request for speech

The interface promises to take every body that is the text of one JSON object whose members are in
form, to take nothing else, and to carry out exactly what the members state. What this means is
said here without the reader (`Http.Conforms`, `Http.States`): a body is a text in UTF-8, a member
has the name that its key says, a string states the text that it says, and a number states the
double that is nearest to it.

The promise is not kept for every body. `Http.Departs` lists where it is not. Bodies are taken that
are no single object, be it that something stands behind it or that they are an array, that are no
text, or whose number is out of range. Numbers come out as another double than the nearest one, or
as none. Bodies are refused for a key or a text that says nothing, and for zero with a minus sign.
`Session.takes_exactly` says what becomes of all bodies, and that these are all departures.
-/

namespace SpeechService

open Json

namespace Json

/-! ### What a text states -/

/-- The bytes are those of a text in UTF-8. -/
def IsUtf8 (bytes : List UInt8) : Prop := ∃ text : String, bytes = text.toList.flatMap charBytes

/-- The inside of a string says some text. -/
def SaysText (raw : List UInt8) : Prop := ∃ text : String, Says raw text.toList

namespace Tree

/-- The tree is a string. -/
def IsString (t : Tree) : Prop := ∃ raw, t = .string raw

/-- The tree is a string that says a text. -/
inductive States : Tree → String → Prop
  | string {raw} {s : String} (h : Says raw s.toList) : States (.string raw) s

/-- The tree is a number in the range of doubles, and a double is **nearest** to it. -/
inductive IsNearest : Tree → Double → Prop
  | number {n : Numeral} (h : n.nearest.isFinite = true) : IsNearest (.number n) n.nearest

end Tree

/-- The member has the **name** that its key says. -/
def Named (name : String) (m : List UInt8 × Tree) : Prop := Says m.1 name.toList

/-- No two members have the name. -/
def Once (ms : List (List UInt8 × Tree)) (name : String) : Prop :=
  ms.Pairwise fun m m' => ¬(Named name m ∧ Named name m')

/-- Every member of the name is null or has a property. -/
def NullOr (P : Tree → Prop) (ms : List (List UInt8 × Tree)) (name : String) : Prop :=
  ∀ m ∈ ms, Named name m → m.2 = .null ∨ P m.2

/-- The members of a name **give** a value, or they give none. -/
inductive Give {α : Type} (P : Tree → α → Prop) (ms : List (List UInt8 × Tree)) (name : String) :
    Option α → Prop
  | nothing (h : ∀ m ∈ ms, Named name m → m.2 = .null) : Give P ms name none
  | value {m x} (hm : m ∈ ms) (hname : Named name m) (h : P m.2 x) : Give P ms name (some x)

end Json

namespace Http

/-- The tree is an integer of 64 bits. -/
abbrev IsInteger64 : Tree → Int → Prop :=
  Tree.IsInteger (-9223372036854775808) 9223372036854775807

/-- The members are **in form**: none of the four names stands twice, and their values are of the
right kinds. There may be any other members. -/
structure InForm (ms : List (List UInt8 × Tree)) : Prop where
  once : ∀ name ∈ Draft.names, Once ms name
  text : ∃ m ∈ ms, Named "text" m ∧ m.2.IsString
  voice : NullOr Tree.IsString ms "voice"
  cfgScale : NullOr (fun t => ∃ x, t.IsNearest x) ms "cfgScale"
  maxTokens : NullOr (fun t => ∃ i, IsInteger64 t i) ms "maxTokens"

/-- The members **state** the values of the request. -/
structure States (ms : List (List UInt8 × Tree)) (q : Request) : Prop where
  text : ∃ m ∈ ms, Named "text" m ∧ m.2.States q.text
  voice : Give Tree.States ms "voice" q.voice
  cfgScale : Give Tree.IsNearest ms "cfgScale" q.cfgScale
  maxTokens : Give IsInteger64 ms "maxTokens" q.maxTokens

/-- The body is the text of one object with these members, apart from spaces around it, and they are
in form. -/
structure ConformsBy (body : List UInt8) (ms : List (List UInt8 × Tree)) : Prop where
  isUtf8 : IsUtf8 body
  isDocument : IsDocument body (.object ms true)
  inForm : InForm ms

/-- The body **conforms** to the schema of the interface. -/
def Conforms (body : List UInt8) : Prop := ∃ ms, ConformsBy body ms

/-- The body conforms to the schema and states the values of the request. -/
def ConformsWith (body : List UInt8) (q : Request) : Prop :=
  ∃ ms, ConformsBy body ms ∧ States ms q

/-- The body is **taken**: it asks for some request. -/
def Taken (body : List UInt8) : Prop := ∃ q, Asks body q

/-- Where the schema is **departed from**. -/
inductive Departs (body : List UInt8) : Prop
  /-- Something stands behind the object, and is not looked at. -/
  | behind {ms rest} (h : Begins body (.object ms true) rest) (hrest : ¬Spaces rest)
    (htaken : Taken body)
  /-- An array is taken instead of an object. -/
  | array {ts rest} (h : Begins body (.array ts true) rest) (htaken : Taken body)
  /-- The bytes are no text, where they are not looked at. -/
  | noText (h : ¬IsUtf8 body) (htaken : Taken body)
  /-- A number is taken though it is out of range. -/
  | beyond {ms rest m n} (h : Begins body (.object ms true) rest) (hm : m ∈ ms)
    (hname : Named "cfgScale" m) (hn : m.2 = .number n) (hbeyond : n.nearest.isFinite = false)
    (htaken : Taken body)
  /-- A number comes out as another double than the nearest one, or as none. -/
  | misread {ms m n} (h : ConformsBy body ms) (hm : m ∈ ms) (hname : Named "cfgScale" m)
    (hn : m.2 = .number n) (hmisread : ¬m.2.IsDouble n.nearest)
  /-- A key of any member says no text. -/
  | key {ms m} (h : ConformsBy body ms) (hm : m ∈ ms) (hkey : ¬SaysText m.1)
  /-- A string that is asked for says no text. -/
  | string {ms m raw} (h : ConformsBy body ms) (hm : m ∈ ms)
    (hname : Named "text" m ∨ Named "voice" m) (hraw : m.2 = .string raw) (hstring : ¬SaysText raw)
  /-- Zero tokens are given with a minus sign. -/
  | minusZero {ms m} (h : ConformsBy body ms) (hm : m ∈ ms) (hname : Named "maxTokens" m)
    (hzero : m.2.IsMinusZero)

end Http

namespace Json

/-! ### Members of a document -/

variable {ms : List (List UInt8 × Tree)} {m : List UInt8 × Tree} {name : String}

/-- The key and the value of a member are among the tokens of the members. -/
theorem mem_memberTokens (front : List Token) (hm : m ∈ ms) :
    .string m.1 ∈ Tree.memberTokens front ms
      ∧ ∀ c ∈ m.2.toTokens, c ∈ Tree.memberTokens front ms := by
  induction ms generalizing front with
  | nil => exact absurd hm List.not_mem_nil
  | cons first ms ih =>
    obtain ⟨raw, t⟩ := first
    simp only [Tree.memberTokens, List.mem_append, List.mem_cons]
    rcases List.mem_cons.mp hm with rfl | hm
    · exact ⟨.inr (.inl rfl), fun c hc => .inr (.inr (.inr (.inl hc)))⟩
    · obtain ⟨hkey, hvalue⟩ := ih [.comma] hm
      exact ⟨.inr (.inr (.inr (.inr hkey))), fun c hc => .inr (.inr (.inr (.inr (hvalue c hc))))⟩

/-- The keys and values of an object that a text begins with are spelled there. -/
theorem Begins.mem_toTokens {text rest : List UInt8} (_ : Begins text (.object ms true) rest)
    (hm : m ∈ ms) : .string m.1 ∈ (Tree.object ms true).toTokens
      ∧ ∀ c ∈ m.2.toTokens, c ∈ (Tree.object ms true).toTokens := by
  obtain ⟨hkey, hvalue⟩ := mem_memberTokens [] hm
  simp only [Tree.toTokens, List.mem_cons, List.mem_append]
  exact ⟨.inr (.inl hkey), fun c hc => .inr (.inl (hvalue c hc))⟩

/-- The keys of members are decoded to the names that they say. -/
def Decodes (ms : List (List UInt8 × Tree)) : Prop :=
  ∀ m ∈ ms, ∀ name, decodeString? m.1 = some name ↔ Named name m

theorem Begins.decodes {text rest : List UInt8} (h : Begins text (.object ms true) rest) :
    Decodes ms :=
  fun _ hm _ => h.decodeString?_eq_some_iff (h.mem_toTokens hm).1

/-- A string among the values of an object is a text if it says one. -/
theorem Begins.isText_iff {text rest : List UInt8} (h : Begins text (.object ms true) rest)
    (hm : m ∈ ms) {s : String} : m.2.IsText s ↔ m.2.States s := by
  have hmem := (h.mem_toTokens hm).2
  constructor
  · intro htext
    generalize m.2 = t at htext hmem
    obtain ⟨hraw⟩ := htext
    exact .string ((h.decodeString?_eq_some_iff (hmem _ List.mem_cons_self)).mp hraw)
  · intro hstates
    generalize m.2 = t at hstates hmem
    obtain ⟨hraw⟩ := hstates
    exact .string ((h.decodeString?_eq_some_iff (hmem _ List.mem_cons_self)).mpr hraw)

/-- At most one element has a property exactly if no two of them have it. -/
theorem countP_le_one_iff {α : Type} {p : α → Bool} {l : List α} :
    l.countP p ≤ 1 ↔ l.Pairwise fun a b => ¬(p a = true ∧ p b = true) := by
  induction l with
  | nil => simp
  | cons a l ih =>
    rw [List.pairwise_cons, ← ih, List.countP_cons]
    by_cases ha : p a = true
    · have hnone : (∀ b ∈ l, ¬(p a = true ∧ p b = true)) ↔ l.countP p = 0 := by
        simp [ha, List.countP_eq_zero]
      rw [hnone, if_pos ha]
      omega
    · rw [if_neg ha]
      simp [ha]

/-- Counting the keys is looking for members of one name. -/
theorem Decodes.count_keys_le_one_iff (hdecodes : Decodes ms) :
    (Tree.keys ms).count name ≤ 1 ↔ Once ms name := by
  rw [Tree.keys, List.count_filterMap, countP_le_one_iff]
  refine List.Pairwise.iff_of_mem fun hm hm' => ?_
  simp only [beq_iff_eq, hdecodes _ hm, hdecodes _ hm']

/-- The member of a name that stands there once is the only one. -/
theorem Once.eq {m' : List UInt8 × Tree} (h : Once ms name) (hm : m ∈ ms) (hm' : m' ∈ ms)
    (hname : Named name m) (hname' : Named name m') : m = m' := by
  have hsymm : Std.Symm fun m m' : List UInt8 × Tree => ¬(Named name m ∧ Named name m') :=
    ⟨fun _ _ hnot hboth => hnot hboth.symm⟩
  by_contra hne
  exact h.forall hm hm' hne ⟨hname, hname'⟩

/-- The value in a place is that of the member with this name, which stands there once. -/
theorem Decodes.member?_eq_some_iff (hdecodes : Decodes ms)
    (honce : Once ms name) {t : Tree} :
    Tree.member? ms name = some t ↔ ∃ m ∈ ms, Named name m ∧ m.2 = t := by
  rw [Tree.member?, Option.map_eq_some_iff]
  constructor
  · rintro ⟨m, hfind, rfl⟩
    have hm := List.mem_of_find?_eq_some hfind
    have hname : decodeString? m.1 = some name := by simpa using List.find?_some hfind
    exact ⟨m, hm, (hdecodes m hm name).mp hname, rfl⟩
  · rintro ⟨m, hm, hname, rfl⟩
    have hsome : (ms.find? fun m => decodeString? m.1 == some name).isSome := by
      rw [List.find?_isSome]
      exact ⟨m, hm, by simpa using (hdecodes m hm name).mpr hname⟩
    obtain ⟨m', hfind⟩ := Option.isSome_iff_exists.mp hsome
    have hm' := List.mem_of_find?_eq_some hfind
    have hname' : decodeString? m'.1 = some name := by simpa using List.find?_some hfind
    have heq : m' = m := honce.eq hm' hm ((hdecodes m' hm' name).mp hname') hname
    exact ⟨m', hfind, by rw [heq]⟩

/-- The value in a place has a property if the member with this name has it. -/
theorem Decodes.exists_member?_iff (hdecodes : Decodes ms) (honce : Once ms name)
    {P : Tree → Prop} :
    (∃ t, Tree.member? ms name = some t ∧ P t) ↔ ∃ m ∈ ms, Named name m ∧ P m.2 := by
  simp only [hdecodes.member?_eq_some_iff honce]
  constructor
  · rintro ⟨_, ⟨m, hm, hname, rfl⟩, ht⟩
    exact ⟨m, hm, hname, ht⟩
  · rintro ⟨m, hm, hname, ht⟩
    exact ⟨m.2, ⟨m, hm, hname, rfl⟩, ht⟩

/-- What may be absent or null in a place is what the members of its name give. -/
theorem Decodes.optionally_iff {α : Type} {P Q : Tree → α → Prop} {v : Option α}
    (hdecodes : Decodes ms) (honce : Once ms name)
    (hPQ : ∀ m ∈ ms, Named name m → ∀ x, P m.2 x ↔ Q m.2 x) :
    Optionally P (Tree.member? ms name) v ↔ Give Q ms name v := by
  have hmember {t : Tree} : Tree.member? ms name = some t ↔ ∃ m ∈ ms, Named name m ∧ m.2 = t :=
    hdecodes.member?_eq_some_iff honce
  constructor
  · intro h
    generalize hplace : Tree.member? ms name = place at h
    cases h with
    | absent =>
      refine .nothing fun m hm hname => ?_
      cases hplace.symm.trans (hmember.mpr ⟨m, hm, hname, rfl⟩)
    | null =>
      refine .nothing fun m hm hname => ?_
      exact (Option.some.inj (hplace.symm.trans (hmember.mpr ⟨m, hm, hname, rfl⟩))).symm
    | given h =>
      obtain ⟨m, hm, hname, rfl⟩ := hmember.mp hplace
      exact .value hm hname ((hPQ m hm hname _).mp h)
  · intro h
    cases h with
    | nothing h =>
      cases hplace : Tree.member? ms name with
      | none => exact .absent
      | some t =>
        obtain ⟨m, hm, hname, rfl⟩ := hmember.mp hplace
        rw [h m hm hname]
        exact .null
    | value hm hname h =>
      rw [hmember.mpr ⟨_, hm, hname, rfl⟩]
      exact .given ((hPQ _ hm hname _).mpr h)

/-- A member that is not null has the value that its name gives. -/
theorem Give.exists_eq_some {α : Type} {P : Tree → α → Prop} {v : Option α} (honce : Once ms name)
    (h : Give P ms name v) (hm : m ∈ ms) (hname : Named name m) (hvalue : m.2 ≠ .null) :
    ∃ x, v = some x ∧ P m.2 x := by
  cases h with
  | nothing hnull => exact absurd (hnull m hm hname) hvalue
  | @value m' x hm' hname' hx => exact ⟨x, rfl, honce.eq hm hm' hname hname' ▸ hx⟩

/-- What gives a value is null or has it. -/
theorem Give.nullOr {α : Type} {P : Tree → α → Prop} {v : Option α}
    (honce : Once ms name) (h : Give P ms name v) :
    NullOr (fun t => ∃ x, P t x) ms name := by
  intro m hm hname
  by_cases hvalue : m.2 = .null
  · exact .inl hvalue
  · obtain ⟨x, -, hx⟩ := h.exists_eq_some honce hm hname hvalue
    exact .inr ⟨x, hx⟩

/-- What is null or has a value gives one or none. -/
theorem NullOr.exists_give {α : Type} {P : Tree → α → Prop}
    (h : NullOr (fun t => ∃ x, P t x) ms name) : ∃ v, Give P ms name v := by
  by_cases hnull : ∀ m ∈ ms, Named name m → m.2 = .null
  · exact ⟨none, .nothing hnull⟩
  · simp only [not_forall] at hnull
    obtain ⟨m, hm, hname, hne⟩ := hnull
    obtain ⟨x, hx⟩ := (h m hm hname).resolve_left hne
    exact ⟨some x, .value hm hname hx⟩

end Json

namespace Http

/-! ### What the members tell -/

variable {body rest : List UInt8} {ms : List (List UInt8 × Tree)} {m : List UInt8 × Tree}
  {q : Request} {t : Tree}

/-- The members **tell** the reader the values of the request: all keys say texts, none of the four
names stands twice, and the values are taken. -/
structure Tell (ms : List (List UInt8 × Tree)) (q : Request) : Prop where
  keys : ∀ m ∈ ms, SaysText m.1
  once : ∀ name ∈ Draft.names, Once ms name
  text : ∃ m ∈ ms, Named "text" m ∧ m.2.States q.text
  voice : Give Tree.States ms "voice" q.voice
  cfgScale : Give Tree.IsDouble ms "cfgScale" q.cfgScale
  maxTokens : Give IsInteger64 ms "maxTokens" q.maxTokens
  notMinusZero : ∀ m ∈ ms, Named "maxTokens" m → ¬m.2.IsMinusZero

/-- The values in the places of an object that a text begins with are those that its members
give. -/
theorem carries_member?_iff (h : Begins body (.object ms true) rest)
    (honce : ∀ name ∈ Draft.names, Once ms name) :
    Carries (Tree.member? ms) q ↔
      (∃ m ∈ ms, Named "text" m ∧ m.2.States q.text) ∧ Give Tree.States ms "voice" q.voice ∧
        Give Tree.IsDouble ms "cfgScale" q.cfgScale ∧
        Give IsInteger64 ms "maxTokens" q.maxTokens := by
  have htext : (∃ t, Tree.member? ms "text" = some t ∧ t.IsText q.text) ↔
      ∃ m ∈ ms, Named "text" m ∧ m.2.States q.text := by
    rw [h.decodes.exists_member?_iff (honce _ (by decide))]
    exact exists_congr fun m =>
      and_congr_right fun hm => and_congr_right fun _ => h.isText_iff hm
  have hvoice : Optionally Tree.IsText (Tree.member? ms "voice") q.voice ↔
      Give Tree.States ms "voice" q.voice :=
    h.decodes.optionally_iff (honce _ (by decide)) fun _ hm _ _ => h.isText_iff hm
  have hcfgScale : Optionally Tree.IsDouble (Tree.member? ms "cfgScale") q.cfgScale ↔
      Give Tree.IsDouble ms "cfgScale" q.cfgScale :=
    h.decodes.optionally_iff (honce _ (by decide)) fun _ _ _ _ => Iff.rfl
  have hmaxTokens : Optionally IsInteger64 (Tree.member? ms "maxTokens") q.maxTokens ↔
      Give IsInteger64 ms "maxTokens" q.maxTokens :=
    h.decodes.optionally_iff (honce _ (by decide)) fun _ _ _ _ => Iff.rfl
  rw [← htext, ← hvoice, ← hcfgScale, ← hmaxTokens]
  exact ⟨fun ⟨ht, hv, hc, hm⟩ => ⟨ht, hv, hc, hm⟩, fun ⟨ht, hv, hc, hm⟩ => ⟨ht, hv, hc, hm⟩⟩

/-- A minus sign is at zero in the place of the number of tokens if the member has it there. -/
theorem hasMinusZero_member?_iff (h : Begins body (.object ms true) rest)
    (honce : ∀ name ∈ Draft.names, Once ms name) :
    HasMinusZero (Tree.member? ms) ↔ ∃ m ∈ ms, Named "maxTokens" m ∧ m.2.IsMinusZero :=
  h.decodes.exists_member?_iff (honce _ (by decide))

/-- **Members of a text.** Where an object stands at the front of a text, its strings are decoded to
what they say, so that the object describes a request exactly if its members tell it. -/
theorem describes_object_iff (h : Begins body (.object ms true) rest) :
    Describes (.object ms true) q ↔ Tell ms q := by
  have hkeys : (∀ m ∈ ms, ∃ key, decodeString? m.1 = some key) ↔ ∀ m ∈ ms, SaysText m.1 :=
    forall₂_congr fun m hm => exists_congr fun key => h.decodes m hm key
  have honces : (∀ name ∈ Draft.names, (Tree.keys ms).count name ≤ 1) ↔
      ∀ name ∈ Draft.names, Once ms name :=
    forall₂_congr fun name _ => h.decodes.count_keys_le_one_iff
  constructor
  · rintro (⟨⟨hkey, hcounts, hcarries⟩, hzero⟩ | _)
    have honce := honces.mp hcounts
    obtain ⟨htext, hvoice, hcfgScale, hmaxTokens⟩ := (carries_member?_iff h honce).mp hcarries
    rw [hasMinusZero_member?_iff h honce] at hzero
    exact ⟨hkeys.mp hkey, honce, htext, hvoice, hcfgScale, hmaxTokens,
      fun m hm hname hminus => hzero ⟨m, hm, hname, hminus⟩⟩
  · rintro ⟨hkey, honce, htext, hvoice, hcfgScale, hmaxTokens, hzero⟩
    have hcarries := (carries_member?_iff h honce).mpr ⟨htext, hvoice, hcfgScale, hmaxTokens⟩
    refine .object ⟨hkeys.mpr hkey, honces.mpr honce, hcarries⟩ ?_
    rw [hasMinusZero_member?_iff h honce]
    rintro ⟨m, hm, hname, hminus⟩
    exact hzero m hm hname hminus

/-- What stands at the front of a body decides what it asks for. -/
theorem asks_iff (h : Begins body t rest) (ht : t.isBracketed = true) :
    Asks body q ↔ Describes t q := by
  constructor
  · rintro ⟨t', rest', hbegins, hdescribes⟩
    rwa [eq_of_begins h hbegins ht hdescribes.isBracketed]
  · exact fun hdescribes => ⟨t, rest, h, hdescribes⟩

/-- An object at the front of a body asks for the request that its members tell. -/
theorem asks_iff_tell (h : Begins body (.object ms true) rest) : Asks body q ↔ Tell ms q :=
  (asks_iff h rfl).trans (describes_object_iff h)

/-! ### Departures -/

/-- What tells one double tells no other one. -/
theorem isDouble_unique {x y : Double} (hx : t.IsDouble x) (hy : t.IsDouble y) : x = y := by
  cases hx with
  | integer h =>
    cases hy with
    | integer h' =>
      obtain rfl := Number.integer.inj (Option.some.inj (h.symm.trans h'))
      rfl
    | float h' => exact nomatch h.symm.trans h'
  | float h =>
    cases hy with
    | integer h' => exact nomatch h.symm.trans h'
    | float h' => exact Number.float.inj (Option.some.inj (h.symm.trans h'))

theorem ConformsBy.begins (h : ConformsBy body ms) :
    ∃ rest, Begins body (.object ms true) rest ∧ Spaces rest := h.isDocument

/-- Nothing but spaces is behind the object of a body that conforms. -/
theorem ConformsBy.spaces {ms' : List (List UInt8 × Tree)} (h : ConformsBy body ms)
    (hbegins : Begins body (.object ms' true) rest) : Spaces rest := by
  obtain ⟨rest', hbegins', hspaces⟩ := h.begins
  have htokens : tokens rest = tokens rest' := congrArg Prod.snd
    ((Tree.ofBytes_of_begins hbegins rfl).symm.trans (Tree.ofBytes_of_begins hbegins' rfl))
  rwa [← tokens_eq_nil_iff, htokens, tokens_eq_nil_iff]

/-- Only a number comes out as a double. -/
theorem exists_number_of_isDouble {x : Double} (h : t.IsDouble x) : ∃ n, t = .number n := by
  cases h <;> exact ⟨_, rfl⟩

theorem isString_of_states {s : String} (h : t.States s) : t.IsString := by
  obtain ⟨hraw⟩ := h
  exact ⟨_, rfl⟩

/-- The number of members in form is in range. -/
theorem InForm.isFinite_nearest (h : InForm ms) (hm : m ∈ ms) (hname : Named "cfgScale" m)
    {n : Numeral} (hn : m.2 = .number n) : n.nearest.isFinite = true := by
  have hnearest := h.cfgScale m hm hname
  rw [hn] at hnearest
  obtain hnull | ⟨x, ⟨hfinite⟩⟩ := hnearest
  · cases hnull
  · exact hfinite

/-- Members that are told are in form, unless their number is out of range. -/
theorem Tell.inForm (h : Tell ms q)
    (hrange : ∀ m ∈ ms, Named "cfgScale" m → ∀ n, m.2 = .number n → n.nearest.isFinite = true) :
    InForm ms where
  once := h.once
  text := by
    obtain ⟨m, hm, hname, hstates⟩ := h.text
    exact ⟨m, hm, hname, isString_of_states hstates⟩
  voice := fun m hm hname =>
    (h.voice.nullOr (h.once _ (by decide)) m hm hname).imp_right fun ⟨_, hs⟩ =>
      isString_of_states hs
  cfgScale := by
    intro m hm hname
    refine (h.cfgScale.nullOr (h.once _ (by decide)) m hm hname).imp_right ?_
    rintro ⟨x, hx⟩
    obtain ⟨n, hn⟩ := exists_number_of_isDouble hx
    rw [hn]
    exact ⟨_, .number (hrange m hm hname n hn)⟩
  maxTokens := h.maxTokens.nullOr (h.once _ (by decide))

/-- Members that are told state the same values, unless their number is misread. -/
theorem Tell.states (h : Tell ms q) (hform : InForm ms)
    (hread : ∀ m ∈ ms, Named "cfgScale" m → ∀ n, m.2 = .number n → m.2.IsDouble n.nearest) :
    States ms q := by
  refine ⟨h.text, h.voice, ?_, h.maxTokens⟩
  have hcfgScale := h.cfgScale
  generalize q.cfgScale = value at hcfgScale
  cases hcfgScale with
  | nothing hnull => exact .nothing hnull
  | @value m x hm hname hx =>
    obtain ⟨n, hn⟩ := exists_number_of_isDouble hx
    rw [isDouble_unique hx (hread m hm hname n hn)]
    exact .value hm hname (hn ▸ .number (hform.isFinite_nearest hm hname hn))

/-- Members in form are told, if their strings say texts, their number is read as it should be, and
zero tokens have no minus sign. -/
theorem InForm.exists_tell (h : InForm ms) (hkeys : ∀ m ∈ ms, SaysText m.1)
    (hstrings : ∀ m ∈ ms, Named "text" m ∨ Named "voice" m → ∀ raw, m.2 = .string raw →
      SaysText raw)
    (hread : ∀ m ∈ ms, Named "cfgScale" m → ∀ n, m.2 = .number n → m.2.IsDouble n.nearest)
    (hzero : ∀ m ∈ ms, Named "maxTokens" m → ¬m.2.IsMinusZero) : ∃ q, Tell ms q := by
  have hstates {m} (hm : m ∈ ms) (hname : Named "text" m ∨ Named "voice" m)
      (hstring : m.2.IsString) : ∃ s, m.2.States s := by
    obtain ⟨raw, hraw⟩ := hstring
    obtain ⟨s, hs⟩ := hstrings m hm hname raw hraw
    exact ⟨s, hraw ▸ .string hs⟩
  have hdouble {m} (hm : m ∈ ms) (hname : Named "cfgScale" m) (h : ∃ x, m.2.IsNearest x) :
      ∃ x, m.2.IsDouble x := by
    obtain ⟨x, hx⟩ := h
    generalize ht : m.2 = t at hx
    obtain ⟨hfinite⟩ := hx
    exact ⟨_, ht ▸ hread m hm hname _ ht⟩
  obtain ⟨m, hm, hname, hstring⟩ := h.text
  obtain ⟨text, htext⟩ := hstates hm (.inl hname) hstring
  have hvoices : NullOr (fun t => ∃ s, t.States s) ms "voice" := fun m hm hname =>
    (h.voice m hm hname).imp_right (hstates hm (.inr hname))
  have hdoubles : NullOr (fun t => ∃ x, t.IsDouble x) ms "cfgScale" := fun m hm hname =>
    (h.cfgScale m hm hname).imp_right (hdouble hm hname)
  obtain ⟨voice, hvoice⟩ := hvoices.exists_give
  obtain ⟨cfgScale, hcfgScale⟩ := hdoubles.exists_give
  obtain ⟨maxTokens, hmaxTokens⟩ := NullOr.exists_give h.maxTokens
  exact ⟨⟨text, voice, cfgScale, maxTokens⟩, hkeys, h.once, ⟨m, hm, hname, htext⟩, hvoice,
    hcfgScale, hmaxTokens, hzero⟩

/-- A text or a voice that is told says a text, unless it is null. -/
theorem Tell.exists_states (h : Tell ms q) (hm : m ∈ ms)
    (hname : Named "text" m ∨ Named "voice" m) (hvalue : m.2 ≠ .null) : ∃ s, m.2.States s := by
  obtain htext | hvoice := hname
  · obtain ⟨m', hm', hname', hstates⟩ := h.text
    exact ⟨_, (h.once "text" (by decide)).eq hm hm' htext hname' ▸ hstates⟩
  · obtain ⟨s, -, hs⟩ := h.voice.exists_eq_some (h.once _ (by decide)) hm hvoice hvalue
    exact ⟨s, hs⟩

/-- A number that is told as the members state it comes out as the double that is nearest to it. -/
theorem Tell.isDouble_nearest (h : Tell ms q) (hstates : States ms q) (hm : m ∈ ms)
    (hname : Named "cfgScale" m) {n : Numeral} (hn : m.2 = .number n) :
    m.2.IsDouble n.nearest := by
  have honce := h.once "cfgScale" (by decide)
  have hvalue : m.2 ≠ .null := by
    rw [hn]
    nofun
  obtain ⟨x, hx, htold⟩ := h.cfgScale.exists_eq_some honce hm hname hvalue
  obtain ⟨y, hy, hnearest⟩ := hstates.cfgScale.exists_eq_some honce hm hname hvalue
  obtain rfl : x = y := Option.some.inj (hx.symm.trans hy)
  rw [hn] at hnearest
  obtain ⟨hfinite⟩ := hnearest
  exact htold

/-- A body that is taken conforms and states what it asks for, unless it departs from the schema. -/
theorem conformsWith_of_asks (hasks : Asks body q) (hdeparts : ¬Departs body) :
    ConformsWith body q := by
  have htaken : Taken body := ⟨q, hasks⟩
  obtain ⟨t, rest, hbegins, hdescribes⟩ := hasks
  have hwhole := hbegins.isWhole
  cases t with
  | array ts closed =>
    rw [Tree.isWhole, Bool.and_eq_true] at hwhole
    obtain rfl := hwhole.2
    exact absurd (.array hbegins htaken) hdeparts
  | object ms closed =>
    rw [Tree.isWhole, Bool.and_eq_true] at hwhole
    obtain rfl := hwhole.2
    have htell : Tell ms q := (describes_object_iff hbegins).mp hdescribes
    have hspaces : Spaces rest := by
      by_contra hrest
      exact hdeparts (.behind hbegins hrest htaken)
    have htext : IsUtf8 body := by
      by_contra hbytes
      exact hdeparts (.noText hbytes htaken)
    have hform : InForm ms := htell.inForm fun m hm hname n hn => by
      by_contra hbeyond
      exact hdeparts (.beyond hbegins hm hname hn (Bool.eq_false_iff.mpr hbeyond) htaken)
    have hconforms : ConformsBy body ms := ⟨htext, ⟨rest, hbegins, hspaces⟩, hform⟩
    refine ⟨ms, hconforms, htell.states hform fun m hm hname n hn => ?_⟩
    by_contra hmisread
    exact hdeparts (.misread hconforms hm hname hn hmisread)
  | _ => cases hdescribes

/-- A body that conforms is taken, unless it departs from the schema. -/
theorem taken_of_conforms (h : Conforms body) (hdeparts : ¬Departs body) : Taken body := by
  obtain ⟨ms, hconforms⟩ := h
  obtain ⟨rest, hbegins, -⟩ := hconforms.begins
  obtain ⟨q, htell⟩ := hconforms.inForm.exists_tell
    (fun m hm => by_contra fun hkey => hdeparts (.key hconforms hm hkey))
    (fun m hm hname raw hraw =>
      by_contra fun hstring => hdeparts (.string hconforms hm hname hraw hstring))
    (fun m hm hname n hn =>
      by_contra fun hmisread => hdeparts (.misread hconforms hm hname hn hmisread))
    (fun m hm hname hzero => hdeparts (.minusZero hconforms hm hname hzero))
  exact ⟨q, (asks_iff_tell hbegins).mpr htell⟩

/-- A body that conforms and is taken asks for what its members tell. -/
theorem ConformsBy.exists_tell (h : ConformsBy body ms) (htaken : Taken body) :
    ∃ q, Asks body q ∧ Tell ms q := by
  obtain ⟨q, hasks⟩ := htaken
  obtain ⟨rest, hbegins, -⟩ := h.begins
  exact ⟨q, hasks, (asks_iff_tell hbegins).mp hasks⟩

/-- The members of an object at the front of a body are those by which it conforms. -/
theorem ConformsBy.members_eq {ms' : List (List UInt8 × Tree)} (h : ConformsBy body ms)
    (hbegins : Begins body (.object ms' true) rest) : ms = ms' := by
  obtain ⟨rest', hbegins', -⟩ := h.begins
  exact (Tree.object.inj (eq_of_begins hbegins' hbegins rfl rfl)).1

/-- **No departure** is left where the bodies that are taken are those that conform and state what
they ask for. -/
theorem not_departs (htaken : Taken body ↔ Conforms body)
    (hstates : ∀ q, Asks body q → ConformsWith body q) : ¬Departs body := by
  intro hdeparts
  cases hdeparts with
  | behind hbegins hrest ht =>
    obtain ⟨ms, hconforms⟩ := htaken.mp ht
    exact hrest (hconforms.spaces hbegins)
  | array hbegins ht =>
    obtain ⟨ms, hconforms⟩ := htaken.mp ht
    obtain ⟨rest', hbegins', -⟩ := hconforms.begins
    exact nomatch eq_of_begins hbegins hbegins' rfl rfl
  | noText hbytes ht =>
    obtain ⟨ms, hconforms⟩ := htaken.mp ht
    exact hbytes hconforms.isUtf8
  | @beyond ms rest m n hbegins hm hname hn hbeyond ht =>
    obtain ⟨ms', hconforms⟩ := htaken.mp ht
    obtain rfl := hconforms.members_eq hbegins
    have hfinite := hconforms.inForm.isFinite_nearest hm hname hn
    exact absurd (hbeyond.symm.trans hfinite) (by decide)
  | @misread ms m n hconforms hm hname hn hmisread =>
    obtain ⟨q, hasks, htell⟩ := hconforms.exists_tell (htaken.mpr ⟨ms, hconforms⟩)
    obtain ⟨ms', hconforms', hstate⟩ := hstates q hasks
    obtain ⟨rest', hbegins', -⟩ := hconforms'.begins
    obtain rfl := hconforms.members_eq hbegins'
    exact hmisread (htell.isDouble_nearest hstate hm hname hn)
  | @key ms m hconforms hm hkey =>
    obtain ⟨q, -, htell⟩ := hconforms.exists_tell (htaken.mpr ⟨ms, hconforms⟩)
    exact hkey (htell.keys m hm)
  | @string ms m raw hconforms hm hname hraw hstring =>
    obtain ⟨q, -, htell⟩ := hconforms.exists_tell (htaken.mpr ⟨ms, hconforms⟩)
    have hvalue : m.2 ≠ .null := by
      rw [hraw]
      nofun
    obtain ⟨s, hs⟩ := htell.exists_states hm hname hvalue
    rw [hraw] at hs
    obtain ⟨htext⟩ := hs
    exact hstring ⟨s, htext⟩
  | @minusZero ms m hconforms hm hname hzero =>
    obtain ⟨q, -, htell⟩ := hconforms.exists_tell (htaken.mpr ⟨ms, hconforms⟩)
    exact htell.notMinusZero m hm hname hzero

end Http

/-! ### Answering -/

open Http

namespace Session

variable {B : Backend} (S : Session B) (encoder : Encoder) (bodyLimit : Nat) (r : HttpRequest)

/-- What the schema **promises** for a request for speech: it is spoken exactly if its body
conforms, with the values that the body states, and otherwise it is refused and changes nothing. -/
structure KeepsToSchema : Prop where
  spoken_iff : (∃ q, r.decide bodyLimit = .speak q) ↔ Conforms r.body
  states : ∀ q, r.decide bodyLimit = .speak q → ConformsWith r.body q
  speaks : ∀ q, r.decide bodyLimit = .speak q →
    S.exchange encoder bodyLimit r = S.speak encoder q
  refuses : ¬Conforms r.body → S.Refuses encoder bodyLimit r

/-- What becomes of a request for speech in **every case**. -/
structure TakesExactly : Prop where
  /-- It is spoken with exactly the values of its body, if its body asks for a request. -/
  speak_iff : ∀ q, r.decide bodyLimit = .speak q ↔ Asks r.body q
  speaks : ∀ q, Asks r.body q → S.exchange encoder bodyLimit r = S.speak encoder q
  /-- Any other body is refused. -/
  refuses : (¬∃ q, Asks r.body q) → S.Refuses encoder bodyLimit r
  /-- An object at the front of the body asks for what its members tell. -/
  asks_iff_tell : ∀ ms rest q, Begins r.body (.object ms true) rest →
    (Asks r.body q ↔ Tell ms q)
  /-- Keys and texts are those that the strings of the body say. -/
  decode_eq_some_iff : ∀ t rest raw s, Begins r.body t rest → .string raw ∈ t.toTokens →
    (decodeString? raw = some s ↔ Says raw s.toList)
  /-- Numbers are near to those of the body, and plain ones are the nearest doubles. -/
  isReadNearby : ∀ t rest n, Begins r.body t rest → .number n ∈ t.toTokens →
    r.body.length ≤ Numeral.reach → n.IsReadNearby
  isDouble_nearest : ∀ t rest n, Begins r.body t rest → .number n ∈ t.toTokens →
    r.body.length ≤ Numeral.reach → n.IsPlain →
      n.nearest.isFinite = true ∧ (Tree.number n).IsDouble n.nearest
  /-- It does not matter in which order the members of an object stand. -/
  in_any_order : ∀ body rest rest' ms ms' q, ms.Perm ms' →
    Begins r.body (.object ms true) rest → Begins body (.object ms' true) rest' →
      (Asks r.body q ↔ Asks body q)
  /-- The promise is kept, but for the departures. -/
  keepsToSchema_iff : S.KeepsToSchema encoder bodyLimit r ↔ ¬Departs r.body

variable {S encoder bodyLimit r}

/-- **The promise** is kept exactly where the schema is not departed from. -/
theorem keepsToSchema_iff (h : r.IsForSpeech bodyLimit) :
    S.KeepsToSchema encoder bodyLimit r ↔ ¬Departs r.body := by
  have htaken : (∃ q, r.decide bodyLimit = .speak q) ↔ Taken r.body :=
    exists_congr fun q => h.decide_eq_speak
  constructor
  · intro hkeeps
    exact not_departs (htaken.symm.trans hkeeps.spoken_iff)
      fun q hasks => hkeeps.states q (h.decide_eq_speak.mpr hasks)
  · intro hdeparts
    have hconforms : Taken r.body ↔ Conforms r.body := by
      refine ⟨fun ⟨q, hasks⟩ => ?_, fun hconforms => taken_of_conforms hconforms hdeparts⟩
      obtain ⟨ms, hconforms, -⟩ := conformsWith_of_asks hasks hdeparts
      exact ⟨ms, hconforms⟩
    exact ⟨htaken.trans hconforms,
      fun q hq => conformsWith_of_asks (h.decide_eq_speak.mp hq) hdeparts,
      fun q hq => exchange_of_asks h (h.decide_eq_speak.mp hq),
      fun hnone => refuses_of_not_asks h (hnone ∘ hconforms.mp)⟩

/-- **Bodies are taken exactly.** Whatever the backend is and whatever has happened in a session: a
request for speech is spoken with the values of its body if the body begins with an object or an
array that has them in their places, and otherwise it is refused and changes nothing. This is what
the schema promises, unless the body departs from the schema in one of the ways that are listed. -/
theorem takes_exactly (S : Session B) (encoder : Encoder) (h : r.IsForSpeech bodyLimit) :
    S.TakesExactly encoder bodyLimit r where
  speak_iff _ := h.decide_eq_speak
  speaks _ := exchange_of_asks h
  refuses := refuses_of_not_asks h
  asks_iff_tell _ _ _ hbegins := Http.asks_iff_tell hbegins
  decode_eq_some_iff _ _ _ _ hbegins hraw := hbegins.decodeString?_eq_some_iff hraw
  isReadNearby _ _ _ hbegins := hbegins.isReadNearby
  isDouble_nearest _ _ _ hbegins := hbegins.isDouble_nearest
  in_any_order _ _ _ _ _ _ hp hr hbody := ⟨.of_perm hp hr hbody, .of_perm hp.symm hbody hr⟩
  keepsToSchema_iff := keepsToSchema_iff h

/-- Members in another order, one of them unknown, and an escape. -/
theorem takes_exactly_other_order :
    let B := Rehearsal.Script.backend {}
    let S : Session B := { service := { world := {} } }
    let r := HttpRequest.forSpeech
      "\x7b\"maxTokens\":7, \"a\":[\x7b\x7d],\"text\":\"\\u0068i\",\"voice\":null\x7d".toUTF8.toList
    r.IsForSpeech 100 ∧ S.TakesExactly Wav.encoder 100 r ∧
      Asks r.body { text := "hi", maxTokens := some 7 } := by
  intro B S r
  have hr : r.IsForSpeech 100 := HttpRequest.isForSpeech_forSpeech (by decide +kernel)
  have hread : readRequest r.body = .ok { text := "hi", maxTokens := some 7 } := by decide +kernel
  have htakes : S.TakesExactly Wav.encoder 100 r := takes_exactly S Wav.encoder hr
  exact ⟨hr, htakes, readRequest_eq_ok.mp hread⟩

/-! ### Bodies for which the promise is not kept -/

/-- Where the promise is kept, whatever is read conforms and has been read as it stands there. -/
theorem KeepsToSchema.conformsWith (hkeeps : S.KeepsToSchema encoder bodyLimit r)
    (h : r.IsForSpeech bodyLimit) {q : Request} (hread : readRequest r.body = .ok q) :
    ConformsWith r.body q :=
  hkeeps.states q (h.decide_eq_speak.mpr (readRequest_eq_ok.mp hread))

/-- A body with something behind its object is taken, so that the schema is **not kept to**. -/
theorem not_keepsToSchema_trailing :
    let B := Rehearsal.Script.backend {}
    let S : Session B := { service := { world := {} } }
    let r := HttpRequest.forSpeech "\x7b\"text\":\"hi\"\x7d!".toUTF8.toList
    ¬S.KeepsToSchema Wav.encoder 100 r := by
  intro B S r hkeeps
  have hr : r.IsForSpeech 100 := HttpRequest.isForSpeech_forSpeech (by decide +kernel)
  have hread : readRequest r.body = .ok { text := "hi" } := by decide +kernel
  obtain ⟨ms, hconforms, -⟩ := hkeeps.conformsWith hr hread
  obtain ⟨rest, hbegins, hrest⟩ := hconforms.begins
  have hbehind : (Tree.ofBytes r.body).2 = [.junk] := by decide +kernel
  rw [Tree.ofBytes_of_begins hbegins rfl, tokens_eq_nil_iff.mpr hrest] at hbehind
  cases hbehind

/-- Bytes that are no text are taken in a string that is not looked at. -/
theorem not_keepsToSchema_noText :
    let B := Rehearsal.Script.backend {}
    let S : Session B := { service := { world := {} } }
    let r := HttpRequest.forSpeech
      ("\x7b\"text\":\"hi\",\"a\":\"".toUTF8.toList ++ [0xFF] ++ "\"\x7d".toUTF8.toList)
    ¬S.KeepsToSchema Wav.encoder 100 r := by
  intro B S r hkeeps
  have hr : r.IsForSpeech 100 := HttpRequest.isForSpeech_forSpeech (by decide +kernel)
  have hread : readRequest r.body = .ok { text := "hi" } := by decide +kernel
  obtain ⟨ms, hconforms, -⟩ := hkeeps.conformsWith hr hread
  obtain ⟨text, htext⟩ := hconforms.isUtf8
  have hnone : textOfBytes? r.body = none := by decide +kernel
  rw [textOfBytes?_eq_some_iff.mpr htext] at hnone
  cases hnone

/-- A number with more digits than are scaled exactly is read as a double **next to** the nearest
one. -/
theorem not_keepsToSchema_misread :
    let B := Rehearsal.Script.backend {}
    let S : Session B := { service := { world := {} } }
    let r := HttpRequest.forSpeech
      "\x7b\"text\":\"hi\",\"cfgScale\":9.063560847309095\x7d".toUTF8.toList
    ¬S.KeepsToSchema Wav.encoder 100 r := by
  intro B S r hkeeps
  have hr : r.IsForSpeech 100 := HttpRequest.isForSpeech_forSpeech (by decide +kernel)
  let n : Numeral := { negative := false, whole := ['9'], fraction := "063560847309095".toList }
  let x : Double := ⟨false, 4621291949211582283, by decide⟩
  have hnearest : n.nearest ≠ x := by decide +kernel
  have hread : readRequest r.body = .ok { text := "hi", cfgScale := some x } := by decide +kernel
  have htree : (Tree.ofBytes r.body).1 = .object [("text".toUTF8.toList, .string [0x68, 0x69]),
      ("cfgScale".toUTF8.toList, .number n)] true := by
    with_unfolding_all rfl
  obtain ⟨ms, hconforms, hstates⟩ := hkeeps.conformsWith hr hread
  obtain ⟨rest, hbegins, -⟩ := hconforms.begins
  rw [Tree.ofBytes_of_begins hbegins rfl] at htree
  obtain ⟨rfl, -⟩ := Tree.object.inj htree
  have hgive : Give Tree.IsNearest _ "cfgScale" (some x) := hstates.cfgScale
  generalize x = y at *
  cases hgive with
  | value hm _ hy =>
    simp only [List.mem_cons, List.not_mem_nil, or_false] at hm
    obtain rfl | rfl := hm
    · exact nomatch hy
    · cases hy
      exact hnearest rfl

end Session

end SpeechService
