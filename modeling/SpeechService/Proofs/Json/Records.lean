import Mathlib.Data.List.Nodup
import SpeechService.Proofs.Json.Values

/-!
# What records are read from

A record is read from an object when every field that is there has a value that fits, no field is
there twice, and every key is a text (`Json.Reader.members_eq_ok`); from an array when its items fit
the fields one by one (`Json.Reader.positions_eq_ok`). Either way the values can be put in one after
another in the order of the fields: where fields do not disturb each other, it does not matter in
which order the members of an object stand (`Json.Reader.fills_known`).

So the two ways to write a record differ in nothing but the place at which a field has its value:
`Json.Tree.member?` finds it by its name, `Json.Tree.item?` by its position.
-/

namespace SpeechService.Json

/-! ### Whole trees -/

/-- All items are whole when each of them is. -/
theorem Tree.areWhole_iff {items : List Tree} :
    areWhole items = true ↔ ∀ t ∈ items, t.isWhole = true := by
  induction items with
  | nil => simp [areWhole]
  | cons t items ih => simp [areWhole, ih]

theorem Tree.membersAreWhole_iff {members : List (List UInt8 × Tree)} :
    membersAreWhole members = true ↔ ∀ m ∈ members, m.2.isWhole = true := by
  induction members with
  | nil => simp [membersAreWhole]
  | cons m members ih => simp [membersAreWhole, ih]

/-! ### Places -/

namespace Tree

/-- The value of the first member with a name. -/
def member? (members : List (List UInt8 × Tree)) (name : String) : Option Tree :=
  (members.find? fun m => decodeString? m.1 == some name).map (·.2)

/-- The item at the position that a name has in a list. -/
def item? (names : List String) (items : List Tree) (name : String) : Option Tree :=
  (names.zip items).lookup name

/-- The keys of members, as far as they are texts. -/
def keys (members : List (List UInt8 × Tree)) : List String :=
  members.filterMap fun m => decodeString? m.1

/-- The value of a name that does not stand twice is the same in any order. -/
theorem member?_of_perm {members members' : List (List UInt8 × Tree)}
    (hp : members.Perm members') {name : String} (hname : (keys members).count name ≤ 1) :
    member? members name = member? members' name := by
  rw [keys, List.count_filterMap, List.countP_eq_length_filter] at hname
  have hfilter := hp.filter fun m => decodeString? m.1 == some name
  rw [member?, member?, ← List.head?_filter, ← List.head?_filter]
  generalize members.filter _ = found at hname hfilter
  -- With two of that name, the order would matter.
  match found with
  | [] => rw [hfilter.nil_eq]
  | [m] => rw [List.singleton_perm.mp hfilter]
  | _ :: _ :: _ => exact absurd hname (by simp)

theorem keys_cons_of_none {m : List UInt8 × Tree} (ms : List (List UInt8 × Tree))
    (h : decodeString? m.1 = none) : keys (m :: ms) = keys ms :=
  List.filterMap_cons_none h

theorem keys_cons_of_some {m : List UInt8 × Tree} (ms : List (List UInt8 × Tree)) {key : String}
    (h : decodeString? m.1 = some key) : keys (m :: ms) = key :: keys ms :=
  List.filterMap_cons_some h

end Tree

namespace Reader

/-! ### Putting values in -/

variable {ρ : Type} {r r' : ρ} {fields : List (Field ρ)}

/-- Values are put into a record one after another. -/
inductive Fills : ρ → List (Field ρ × Tree) → ρ → Prop
  | nil (r : ρ) : Fills r [] r
  | cons {r r₁ r₂ f t ps} (h : f.put r t = .ok r₁) (hs : Fills r₁ ps r₂) : Fills r ((f, t) :: ps) r₂

theorem fills_nil : Fills r [] r' ↔ r' = r := by
  constructor
  · rintro ⟨⟩
    rfl
  · rintro rfl
    exact .nil _

theorem fills_cons {f : Field ρ} {t : Tree} {ps : List (Field ρ × Tree)} :
    Fills r ((f, t) :: ps) r' ↔ ∃ r₁, f.put r t = .ok r₁ ∧ Fills r₁ ps r' := by
  constructor
  · rintro ⟨⟩
    exact ⟨_, ‹_›, ‹_›⟩
  · rintro ⟨r₁, h, hs⟩
    exact .cons h hs

/-- What is put into a record fits its field. -/
theorem Fills.exists_put {ps : List (Field ρ × Tree)} (h : Fills r ps r') {p : Field ρ × Tree}
    (hp : p ∈ ps) : ∃ r₁ r₂, p.1.put r₁ p.2 = .ok r₂ := by
  induction h with
  | nil => exact nomatch hp
  | cons h _ ih =>
    rcases List.mem_cons.mp hp with rfl | hp
    · exact ⟨_, _, h⟩
    · exact ih hp

/-- Two fields **commute**: it does not matter which one is put in first. -/
def Commute (f g : Field ρ) : Prop :=
  ∀ r t u r', (∃ r₁, f.put r t = .ok r₁ ∧ g.put r₁ u = .ok r')
    ↔ ∃ r₁, g.put r u = .ok r₁ ∧ f.put r₁ t = .ok r'

theorem Commute.symm {f g : Field ρ} (h : Commute f g) : Commute g f :=
  fun r t u r' => (h r u t r').symm

/-- Fields commute whose values are stored at different places. -/
theorem commute_field {α β : Type} {name name' : String} {rd : Reader α} {rd' : Reader β}
    {lack lack' : Bool} {store : ρ → α → ρ} {store' : ρ → β → ρ}
    (h : ∀ r x y, store' (store r x) y = store (store' r y) x) :
    Commute (field name rd lack store) (field name' rd' lack' store') := by
  intro r t u r'
  simp only [field]
  cases rd t <;> cases rd' u <;> simp [Except.map, h]

/-- **The order does not matter** where fields commute. -/
theorem Fills.perm {ps qs : List (Field ρ × Tree)} (hpq : ps.Perm qs)
    (hps : ps.Pairwise fun p q => Commute p.1 q.1) (h : Fills r ps r') : Fills r qs r' := by
  -- A permutation is made of swaps of neighbours, and each of these is one commutation.
  induction hpq generalizing r with
  | nil => exact h
  | cons p _ ih =>
    obtain ⟨r₁, hput, hrest⟩ := fills_cons.mp h
    exact .cons hput (ih (List.pairwise_cons.mp hps).2 hrest)
  | swap p q ps =>
    obtain ⟨r₁, hq, h⟩ := fills_cons.mp h
    obtain ⟨r₂, hp, hrest⟩ := fills_cons.mp h
    have hcomm := (List.pairwise_cons.mp hps).1 p (.head _)
    obtain ⟨r₃, hp', hq'⟩ := (hcomm r q.2 p.2 r₂).mp ⟨r₁, hq, hp⟩
    exact .cons hp' (.cons hq' hrest)
  | trans hps' _ ih ih' =>
    exact ih' (hps'.pairwise hps fun h => h.symm) (ih hps h)

/-! ### Fields in their order -/

/-- The values of fields that are in their places, in the order of the fields. -/
def placed (fields : List (Field ρ)) (place : String → Option Tree) : List (Field ρ × Tree) :=
  fields.filterMap fun f => (place f.name).map (f, ·)

theorem placed_cons_of_none {f : Field ρ} {place : String → Option Tree} (h : place f.name = none) :
    placed (f :: fields) place = placed fields place :=
  List.filterMap_cons_none (by rw [h]; rfl)

theorem placed_cons_of_some {f : Field ρ} {place : String → Option Tree} {t : Tree}
    (h : place f.name = some t) : placed (f :: fields) place = (f, t) :: placed fields place :=
  List.filterMap_cons_some (by rw [h]; rfl)

/-- The values in the places are those that the places have for the names of the fields. -/
theorem mem_placed {place : String → Option Tree} {p : Field ρ × Tree} :
    p ∈ placed fields place ↔ p.1 ∈ fields ∧ place p.1.name = some p.2 := by
  obtain ⟨f, t⟩ := p
  simp only [placed, List.mem_filterMap, Option.map_eq_some_iff, Prod.mk.injEq]
  constructor
  · rintro ⟨f, hf, t, ht, rfl, rfl⟩
    exact ⟨hf, ht⟩
  · rintro ⟨hf, ht⟩
    exact ⟨f, hf, t, ht, rfl, rfl⟩

/-- The names of the fields that have a value, in the order of the fields. -/
theorem map_name_placed (place : String → Option Tree) :
    (placed fields place).map (·.1.name)
      = (fields.map (·.name)).filter fun name => (place name).isSome := by
  induction fields with
  | nil => rfl
  | cons f fields ih =>
    cases h : place f.name with
    | none => simp [placed_cons_of_none h, h, ih]
    | some t => simp [placed_cons_of_some h, h, ih]

theorem placed_congr {place place' : String → Option Tree}
    (h : ∀ f ∈ fields, place f.name = place' f.name) : placed fields place = placed fields place' :=
  List.filterMap_congr fun f hf => by rw [h f hf]

/-- Fields that commute do so where they have values. -/
theorem pairwise_placed (hcomm : fields.Pairwise Commute) (place : String → Option Tree) :
    (placed fields place).Pairwise fun p q => Commute p.1 q.1 := by
  rw [placed, List.pairwise_filterMap]
  refine hcomm.imp fun h p hp q hq => ?_
  obtain ⟨t, -, rfl⟩ := Option.map_eq_some_iff.mp hp
  obtain ⟨u, -, rfl⟩ := Option.map_eq_some_iff.mp hq
  exact h

/-- A field is put in first. -/
theorem fills_placed_cons {f : Field ρ} {place : String → Option Tree} :
    Fills r (placed (f :: fields) place) r' ↔
      (place f.name = none ∧ Fills r (placed fields place) r') ∨
        ∃ t r₁, place f.name = some t ∧ f.put r t = .ok r₁ ∧ Fills r₁ (placed fields place) r' := by
  cases h : place f.name with
  | none => simp [placed_cons_of_none h]
  | some t => simp [placed_cons_of_some h, fills_cons]

/-- A field that may be null is put in first, if it is null in the record so far. -/
theorem fills_placed_optional {α : Type} {P : Tree → α → Prop} {name : String} {rd : Reader α}
    {lack : Bool} {store : ρ → Option α → ρ} {place : String → Option Tree}
    (hrd : ∀ t x, rd t = .ok x ↔ P t x) (hnull : ∀ x, ¬P .null x) (hblank : store r none = r) :
    Fills r (placed (field name rd.optional lack store :: fields) place) r' ↔
      ∃ v, Optionally P (place name) v ∧ Fills (store r v) (placed fields place) r' := by
  rw [fills_placed_cons]
  constructor
  · rintro (⟨habsent, hfills⟩ | ⟨t, r₁, ht, hput, hfills⟩)
    · have hplace : place name = none := habsent
      exact ⟨none, hplace ▸ .absent, hblank.symm ▸ hfills⟩
    · obtain ⟨v, hv, rfl⟩ := map_eq_ok.mp hput
      have hplace : place name = some t := ht
      exact ⟨v, hplace ▸ (optional_eq_ok hrd hnull).mp hv, hfills⟩
  · rintro ⟨v, hv, hfills⟩
    cases hplace : place name with
    | none =>
      rw [hplace] at hv
      cases hv
      exact .inl ⟨hplace, hblank ▸ hfills⟩
    | some t =>
      rw [hplace] at hv
      exact .inr ⟨t, store r v, hplace,
        map_eq_ok.mpr ⟨v, (optional_eq_ok hrd hnull).mpr hv, rfl⟩, hfills⟩

/-! ### Objects -/

/-- The values of members that are fields, with these fields, in the order of the members. -/
def known (fields : List (Field ρ)) (members : List (List UInt8 × Tree)) :
    List (Field ρ × Tree) :=
  members.filterMap fun m =>
    (decodeString? m.1).bind fun key => (fields.find? (·.name == key)).map (·, m.2)

theorem known_cons_of_unknown {m : List UInt8 × Tree} (ms : List (List UInt8 × Tree))
    (h : ∀ key, decodeString? m.1 = some key → fields.find? (·.name == key) = none) :
    known fields (m :: ms) = known fields ms := by
  refine List.filterMap_cons_none ?_
  cases hkey : decodeString? m.1 with
  | none => rfl
  | some key => simp [h key hkey]

theorem known_cons_of_find? {m : List UInt8 × Tree} (ms : List (List UInt8 × Tree)) {key : String}
    {f : Field ρ} (hkey : decodeString? m.1 = some key)
    (hf : fields.find? (·.name == key) = some f) :
    known fields (m :: ms) = (f, m.2) :: known fields ms :=
  List.filterMap_cons_some (by simp [hkey, hf])

/-- None of the fields stands twice, and none was seen before. -/
def Fresh (seen : List String) (ps : List (Field ρ × Tree)) : Prop :=
  (ps.map (·.1.name)).Nodup ∧ ∀ p ∈ ps, p.1.name ∉ seen

theorem fresh_nil_iff {ps : List (Field ρ × Tree)} : Fresh [] ps ↔ (ps.map (·.1.name)).Nodup := by
  simp [Fresh]

/-- The first field is new, and the others are new once it was seen. -/
theorem fresh_cons_iff {seen : List String} {f : Field ρ} {t : Tree}
    {ps : List (Field ρ × Tree)} :
    Fresh seen ((f, t) :: ps) ↔ f.name ∉ seen ∧ Fresh (f.name :: seen) ps := by
  rw [Fresh, Fresh, List.map_cons, List.nodup_cons, List.forall_mem_cons]
  constructor
  · rintro ⟨⟨hnotMem, hnodup⟩, hseen, hnew⟩
    refine ⟨hseen, hnodup, fun p hp hmem => ?_⟩
    rcases List.mem_cons.mp hmem with hname | hmem
    · exact hnotMem (List.mem_map.mpr ⟨p, hp, hname⟩)
    · exact hnew p hp hmem
  · rintro ⟨hseen, hnodup, hnew⟩
    refine ⟨⟨fun hmem => ?_, hnodup⟩, hseen, fun p hp hmem => ?_⟩
    · obtain ⟨p, hp, hname⟩ := List.mem_map.mp hmem
      exact hnew p hp (hname ▸ List.mem_cons_self)
    · exact hnew p hp (List.mem_cons_of_mem _ hmem)

/-- The key of a member is a text, and its value is whole where it is not that of a field. -/
def Passes (fields : List (Field ρ)) (m : List UInt8 × Tree) : Prop :=
  ∃ key, decodeString? m.1 = some key ∧ (key ∉ fields.map (·.name) → m.2.isWhole = true)

/-- A key is unknown when it is the name of no field. -/
theorem find?_name_eq_none {key : String} :
    fields.find? (·.name == key) = none ↔ key ∉ fields.map (·.name) := by
  rw [List.find?_eq_none]
  simp

theorem bind_mapError_eq_ok {ε ε' α β : Type} {x : Except ε α} {g : ε → ε'} {k : α → Except ε' β}
    {y : β} : x.mapError g >>= k = .ok y ↔ ∃ a, x = .ok a ∧ k a = .ok y := by
  cases x with
  | error e => simp [Except.mapError, bind, Except.bind]
  | ok a => simp [Except.mapError, bind, Except.bind]

/-- **Members.** The members of an object are put into a record if all of them pass and those that
are fields can be put in one after another, none of them twice. -/
theorem members_eq_ok {seen : List String} {ms : List (List UInt8 × Tree)} :
    members fields seen r ms = .ok r' ↔
      (∀ m ∈ ms, Passes fields m) ∧ Fresh seen (known fields ms) ∧
        Fills r (known fields ms) r' := by
  induction ms generalizing seen r with
  | nil => simp [members, known, Fresh, fills_nil, eq_comm]
  | cons m ms ih =>
    obtain ⟨raw, t⟩ := m
    rw [members, List.forall_mem_cons]
    -- A member is of one of four kinds: its key is no text, it is unknown, it was seen before, or
    -- it is put in.
    cases hkey : decodeString? raw with
    | none => simp [Passes, hkey]
    | some key =>
      cases hf : fields.find? (·.name == key) with
      | none =>
        have hunknown := find?_name_eq_none.mp hf
        have hknown : known fields ((raw, t) :: ms) = known fields ms :=
          known_cons_of_unknown ms (by simpa [hkey] using hf)
        have hpasses : Passes fields (raw, t) ↔ t.isWhole = true := by
          simp only [Passes, hkey, Option.some.injEq, exists_eq_left', hunknown]
          simp
        rw [hknown, hpasses]
        cases t.isWhole <;> simp [hf, ih]
      | some f =>
        obtain rfl : f.name = key := by simpa using List.find?_some hf
        have hpasses : Passes fields (raw, t) :=
          ⟨f.name, hkey, fun h => absurd (List.mem_map_of_mem (List.mem_of_find?_eq_some hf)) h⟩
        rw [known_cons_of_find? ms hkey hf, fresh_cons_iff, fills_cons]
        simp only [hf]
        split
        · next hseen => simp [hseen]
        · next hseen =>
          simp only [bind_mapError_eq_ok, ih]
          constructor
          · rintro ⟨r₁, hput, hall, hfresh, hfills⟩
            exact ⟨⟨hpasses, hall⟩, ⟨hseen, hfresh⟩, r₁, hput, hfills⟩
          · rintro ⟨⟨-, hall⟩, ⟨-, hfresh⟩, r₁, hput, hfills⟩
            exact ⟨r₁, hput, hall, hfresh, hfills⟩

/-- The names of the members that are fields, in the order of the members. -/
theorem map_name_known (fields : List (Field ρ)) (ms : List (List UInt8 × Tree)) :
    (known fields ms).map (·.1.name) = (Tree.keys ms).filter (· ∈ fields.map (·.name)) := by
  induction ms with
  | nil => rfl
  | cons m ms ih =>
    cases hkey : decodeString? m.1 with
    | none => rwa [known_cons_of_unknown ms (by simp [hkey]), Tree.keys_cons_of_none ms hkey]
    | some key =>
      rw [Tree.keys_cons_of_some ms hkey]
      cases hf : fields.find? (·.name == key) with
      | none =>
        have hnotMem := find?_name_eq_none.mp hf
        rwa [known_cons_of_unknown ms (by simpa [hkey] using hf),
          List.filter_cons_of_neg (by simpa using hnotMem)]
      | some f =>
        obtain rfl : f.name = key := by simpa using List.find?_some hf
        have hmem : f.name ∈ fields.map (·.name) :=
          List.mem_map_of_mem (List.mem_of_find?_eq_some hf)
        rw [known_cons_of_find? ms hkey hf, List.filter_cons_of_pos (by simpa using hmem),
          List.map_cons, ih]

/-- No field stands twice if none of their names does. -/
theorem nodup_map_name_known {ms : List (List UInt8 × Tree)} :
    ((known fields ms).map (·.1.name)).Nodup ↔ ∀ f ∈ fields, (Tree.keys ms).count f.name ≤ 1 := by
  rw [map_name_known, List.nodup_iff_count_le_one]
  constructor
  · intro h f hf
    have hmem : f.name ∈ fields.map (·.name) := List.mem_map_of_mem hf
    have hcount := h f.name
    rwa [List.count_filter (by simpa using hmem)] at hcount
  · intro h key
    by_cases hfield : key ∈ fields.map (·.name)
    · rw [List.count_filter (by simpa using hfield)]
      obtain ⟨f, hf, rfl⟩ := List.mem_map.mp hfield
      exact h f hf
    · have hnotMem : key ∉ (Tree.keys ms).filter (· ∈ fields.map (·.name)) := fun hmem =>
        hfield (by simpa using (List.mem_filter.mp hmem).2)
      rw [List.count_eq_zero_of_not_mem hnotMem]
      exact Nat.zero_le 1

variable (hnames : (fields.map (·.name)).Nodup)

include hnames

/-- Where no two fields have one name, a field is found by its own name only. -/
theorem find?_name_eq_some {f : Field ρ} {key : String} :
    fields.find? (·.name == key) = some f ↔ f ∈ fields ∧ f.name = key := by
  constructor
  · intro h
    exact ⟨List.mem_of_find?_eq_some h, by simpa using List.find?_some h⟩
  · rintro ⟨hf, rfl⟩
    cases h : fields.find? (·.name == f.name) with
    | none => exact absurd (List.mem_map_of_mem hf) (find?_name_eq_none.mp h)
    | some g =>
      have hname : g.name = f.name := by simpa using List.find?_some h
      rw [List.inj_on_of_nodup_map hnames (List.mem_of_find?_eq_some h) hf hname]

/-- The members that are fields are those whose key says the name of a field. -/
theorem mem_known {ms : List (List UInt8 × Tree)} {p : Field ρ × Tree} :
    p ∈ known fields ms ↔
      p.1 ∈ fields ∧ ∃ m ∈ ms, decodeString? m.1 = some p.1.name ∧ m.2 = p.2 := by
  obtain ⟨f, t⟩ := p
  simp only [known, List.mem_filterMap, Option.bind_eq_some_iff, Option.map_eq_some_iff,
    Prod.mk.injEq, find?_name_eq_some hnames]
  constructor
  · rintro ⟨m, hm, key, hkey, f, ⟨hf, rfl⟩, rfl, rfl⟩
    exact ⟨hf, m, hm, hkey, rfl⟩
  · rintro ⟨hf, m, hm, hkey, rfl⟩
    exact ⟨m, hm, f.name, hkey, f, ⟨hf, rfl⟩, rfl, rfl⟩

/-- Members that are fields, none of them twice, are the values in the places of the fields. -/
theorem known_perm_placed {ms : List (List UInt8 × Tree)}
    (hms : ((known fields ms).map (·.1.name)).Nodup) :
    (known fields ms).Perm (placed fields (Tree.member? ms)) := by
  have hplaced : ((placed fields (Tree.member? ms)).map (·.1.name)).Nodup :=
    map_name_placed (Tree.member? ms) ▸ hnames.filter _
  refine (List.perm_ext_iff_of_nodup hms.of_map hplaced.of_map).mpr fun p => ?_
  -- Both lists are without repetition, so that it is enough to compare their members.
  have hsub (q : Field ρ × Tree) (hq : q ∈ placed fields (Tree.member? ms)) :
      q ∈ known fields ms := by
    obtain ⟨hf, hmember⟩ := mem_placed.mp hq
    obtain ⟨m, hm, hvalue⟩ := Option.map_eq_some_iff.mp hmember
    exact (mem_known hnames).mpr
      ⟨hf, m, List.mem_of_find?_eq_some hm, by simpa using List.find?_some hm, hvalue⟩
  refine ⟨fun hp => ?_, hsub p⟩
  obtain ⟨hf, m, hm, hkey, hvalue⟩ := (mem_known hnames).mp hp
  have hsome : (ms.find? fun m => decodeString? m.1 == some p.1.name).isSome := by
    rw [List.find?_isSome]
    exact ⟨m, hm, by simpa using hkey⟩
  obtain ⟨first, hfirst⟩ := Option.isSome_iff_exists.mp hsome
  have hq : (p.1, first.2) ∈ placed fields (Tree.member? ms) :=
    mem_placed.mpr ⟨hf, by rw [Tree.member?, hfirst, Option.map_some]⟩
  -- The first member of this name is the only one.
  have heq : (p.1, first.2) = p := List.inj_on_of_nodup_map hms (hsub _ hq) hp rfl
  exact heq ▸ hq

/-- **In any order.** Where fields commute, members are put in as well in the order of the
fields. -/
theorem fills_known (hcomm : fields.Pairwise Commute) {ms : List (List UInt8 × Tree)}
    (hms : ((known fields ms).map (·.1.name)).Nodup) :
    Fills r (known fields ms) r' ↔ Fills r (placed fields (Tree.member? ms)) r' := by
  have hperm := known_perm_placed hnames hms
  have hpairwise := pairwise_placed hcomm (Tree.member? ms)
  exact ⟨Fills.perm hperm (hperm.symm.pairwise hpairwise fun h => h.symm),
    Fills.perm hperm.symm hpairwise⟩

/-! ### Arrays -/

/-- Items are in the places of the fields whose positions they have. -/
theorem zip_eq_placed (ts : List Tree) :
    fields.zip ts = placed fields (Tree.item? (fields.map (·.name)) ts) := by
  induction fields generalizing ts with
  | nil => rfl
  | cons f fs ih =>
    obtain ⟨hf, hfs⟩ := List.nodup_cons.mp hnames
    cases ts with
    | nil => simp [placed, Tree.item?]
    | cons t ts =>
      -- The first item is in the place of the first field and of no other.
      have hplaces : placed fs (Tree.item? ((f :: fs).map (·.name)) (t :: ts))
          = placed fs (Tree.item? (fs.map (·.name)) ts) := by
        refine placed_congr fun g hg => ?_
        have hne : g.name ≠ f.name := fun h => hf (List.mem_map.mpr ⟨g, hg, h⟩)
        simp [Tree.item?, List.lookup_cons, beq_false_of_ne hne]
      have hfirst : Tree.item? ((f :: fs).map (·.name)) (t :: ts) f.name = some t := by
        simp [Tree.item?]
      rw [List.zip_cons_cons, ih hfs ts, placed_cons_of_some hfirst, hplaces]

omit hnames

/-- **Items.** The items of an array are put into a record if the array is closed, they are not too
many, what is missing may be missing, and they can be put into the fields one after another. -/
theorem positions_eq_ok {expected : String} {closed : Bool} {index : Nat} {ts : List Tree} :
    positions expected closed index r fields ts = .ok r' ↔
      closed = true ∧ ts.length ≤ fields.length ∧ (∀ f ∈ fields.drop ts.length, f.mayLack = true) ∧
        Fills r (fields.zip ts) r' := by
  induction fields generalizing index r ts with
  | nil =>
    cases ts with
    | nil => cases closed <;> simp [positions, fills_nil, @eq_comm _ r r']
    | cons t ts => simp [positions]
  | cons f fs ih =>
    cases ts with
    | nil =>
      have hrest : positions expected closed (index + 1) r fs [] = .ok r' ↔ _ := ih
      rw [List.zip_nil_right] at hrest ⊢
      rw [positions]
      cases closed with
      | false => simp
      | true =>
        cases hlack : f.mayLack with
        | false => simp [hlack]
        | true => simpa [hlack] using hrest
    | cons t ts =>
      rw [positions, bind_mapError_eq_ok, List.zip_cons_cons, fills_cons]
      simp only [ih, List.length_cons, List.drop_succ_cons, Nat.add_le_add_iff_right]
      constructor
      · rintro ⟨r₁, hput, hclosed, hlength, hlack, hfills⟩
        exact ⟨hclosed, hlength, hlack, r₁, hput, hfills⟩
      · rintro ⟨hclosed, hlength, hlack, r₁, hput, hfills⟩
        exact ⟨r₁, hput, hclosed, hlength, hlack, hfills⟩

/-! ### Records -/

variable {name : String} {blank : ρ} {closed : Bool}

/-- Nothing is missing in what fits the fields. -/
def TakeWhole (fields : List (Field ρ)) : Prop :=
  ∀ f ∈ fields, ∀ r t r', f.put r t = .ok r' → t.isWhole = true

theorem isWhole_of_put {α : Type} {rd : Reader α} {lack : Bool} {store : ρ → α → ρ} {t : Tree}
    (hrd : ∀ x, rd t = .ok x → t.isWhole = true)
    (h : (field name rd lack store).put r t = .ok r') : t.isWhole = true := by
  obtain ⟨x, hx, -⟩ := map_eq_ok.mp h
  exact hrd x hx

/-- Whatever is put into a record is whole. -/
theorem TakeWhole.of_mem_placed (hwhole : TakeWhole fields) {place : String → Option Tree}
    (h : Fills r (placed fields place) r') {p : Field ρ × Tree} (hp : p ∈ placed fields place) :
    p.2.isWhole = true := by
  obtain ⟨r₁, r₂, hput⟩ := h.exists_put hp
  exact hwhole p.1 (mem_placed.mp hp).1 r₁ p.2 r₂ hput

/-- **From an array.** -/
theorem record_array_eq_ok (hnames : (fields.map (·.name)).Nodup) (hwhole : TakeWhole fields)
    {ts : List Tree} :
    record name fields blank (.array ts closed) = .ok r ↔
      (Tree.array ts closed).isWhole = true ∧ ts.length ≤ fields.length ∧
        (∀ f ∈ fields.drop ts.length, f.mayLack = true) ∧
        Fills blank (placed fields (Tree.item? (fields.map (·.name)) ts)) r := by
  rw [record, positions_eq_ok, zip_eq_placed hnames, Tree.isWhole, Bool.and_eq_true,
    Tree.areWhole_iff]
  constructor
  · rintro ⟨hclosed, hlength, hlack, hfills⟩
    refine ⟨⟨fun t ht => ?_, hclosed⟩, hlength, hlack, hfills⟩
    rw [← List.map_snd_zip hlength] at ht
    obtain ⟨p, hp, rfl⟩ := List.mem_map.mp ht
    exact hwhole.of_mem_placed hfills (zip_eq_placed hnames ts ▸ hp)
  · rintro ⟨⟨-, hclosed⟩, hlength, hlack, hfills⟩
    exact ⟨hclosed, hlength, hlack, hfills⟩

/-- **From an object.** -/
theorem record_object_eq_ok (hnames : (fields.map (·.name)).Nodup) (hwhole : TakeWhole fields)
    (hcomm : fields.Pairwise Commute) {ms : List (List UInt8 × Tree)} :
    record name fields blank (.object ms closed) = .ok r ↔
      (Tree.object ms closed).isWhole = true ∧ (∀ m ∈ ms, ∃ key, decodeString? m.1 = some key) ∧
        (∀ f ∈ fields, (Tree.keys ms).count f.name ≤ 1) ∧
        Fills blank (placed fields (Tree.member? ms)) r := by
  have hmembers : members fields [] blank ms = .ok r ↔ (∀ m ∈ ms, m.2.isWhole = true) ∧
      (∀ m ∈ ms, ∃ key, decodeString? m.1 = some key) ∧
      ((known fields ms).map (·.1.name)).Nodup ∧
        Fills blank (placed fields (Tree.member? ms)) r := by
    rw [members_eq_ok, fresh_nil_iff]
    constructor
    · rintro ⟨hpass, hnodup, hfills⟩
      have hplaced := (fills_known hnames hcomm hnodup).mp hfills
      refine ⟨fun m hm => ?_, fun m hm => ?_, hnodup, hplaced⟩
      -- An unknown value is whole since it passes, and that of a field since it was put in.
      · obtain ⟨key, hkey, hunknown⟩ := hpass m hm
        by_cases hfield : key ∈ fields.map (·.name)
        · obtain ⟨f, hf, rfl⟩ := List.mem_map.mp hfield
          have hmem : (f, m.2) ∈ known fields ms := (mem_known hnames).mpr ⟨hf, m, hm, hkey, rfl⟩
          exact hwhole.of_mem_placed hplaced ((known_perm_placed hnames hnodup).mem_iff.mp hmem)
        · exact hunknown hfield
      · obtain ⟨key, hkey, -⟩ := hpass m hm
        exact ⟨key, hkey⟩
    · rintro ⟨hall, hkeys, hnodup, hfills⟩
      refine ⟨fun m hm => ?_, hnodup, (fills_known hnames hcomm hnodup).mpr hfills⟩
      obtain ⟨key, hkey⟩ := hkeys m hm
      exact ⟨key, hkey, fun _ => hall m hm⟩
  rw [← nodup_map_name_known, Tree.isWhole, Bool.and_eq_true, Tree.membersAreWhole_iff, and_assoc,
    and_left_comm, ← hmembers, record]
  cases members fields [] blank ms with
  | error e => simp [bind, Except.bind]
  | ok r₁ => cases closed <;> simp [bind, Except.bind, pure, Except.pure]

end Reader

end SpeechService.Json
