import SpeechService.Proofs.Settings.Store
import SpeechService.Settings.Load

/-!
# The leaves of the settings

The settings have sixteen **leaves**: seven keys of their own and the fields of three sections. A
store is **orderly** when every key stands once and every known one has the right shape: a section
is a table, and a leaf has no parts. Nothing is asked of other keys. Writing the members of an
orderly store on top of another one keeps the store orderly (`Store.Orderly.writeAll`), and a look
at a leaf then finds what is written if that has the leaf, and otherwise what was there
(`Store.Orderly.at?_writeAll`). So sections do not hide each other's fields.
-/

namespace SpeechService

/-- The sections of the settings. -/
def Section.all : List Section := [.server, .log, .synthetic]

/-- A **leaf** of the settings. -/
inductive Leaf where
  /-- A key of its own. -/
  | own (key : String)
  /-- A field of a section. -/
  | inside (sect : Section) (field : String)
deriving DecidableEq

namespace Leaf

/-- The keys that belong to no section. -/
def ownKeys : List String :=
  ["model_id", "text_max_chars", "default_cfg_scale", "default_max_tokens", "default_voice",
    "device", "eager_load"]

/-- All leaves. -/
def all : List Leaf :=
  ownKeys.map .own ++ Section.all.flatMap fun sect => sect.fields.map (.inside sect)

/-- The key at which the way to a leaf starts. -/
def front : Leaf → String
  | .own key => key
  | .inside sect _ => sect.key

theorem own_mem_all {key : String} : .own key ∈ all ↔ key ∈ ownKeys := by
  simp [all]

theorem inside_mem_all {sect : Section} {field : String} :
    .inside sect field ∈ all ↔ sect ∈ Section.all ∧ field ∈ sect.fields := by
  simp [all]

end Leaf

namespace Store

variable {s : Store} {k : String} {m : String × Store} {ms : List (String × Store)} {leaf : Leaf}

/-- What stands at a leaf. -/
def at? (s : Store) : Leaf → Option Store
  | .own key => s.get? key
  | .inside sect field => (s.get? sect.key).bind (·.get? field)

/-- What one member has for a leaf. -/
def said (m : String × Store) : Leaf → Option Store
  | .own key => if m.1 = key then some m.2 else none
  | .inside sect field => if m.1 = sect.key then m.2.get? field else none

/-- A member says nothing of a leaf in another place. -/
theorem said_of_ne (h : m.1 ≠ leaf.front) : said m leaf = none := by
  cases leaf with
  | own key => exact if_neg h
  | inside sect field => exact if_neg h

/-- A store without parts. -/
def IsLeaf (s : Store) : Prop := ∃ v origin, s = .leaf v origin

/-- A value without parts replaces what stood there. -/
theorem IsLeaf.merged_eq (h : s.IsLeaf) (stood : Option Store) : merged stood s = s := by
  obtain ⟨v, origin, rfl⟩ := h
  rfl

theorem isLeaf_leaf (v : Scalar) (origin : Option Origin) : (Store.leaf v origin).IsLeaf :=
  ⟨v, origin, rfl⟩

theorem not_isLeaf_array (items : List Store) (origin : Option Origin) :
    ¬(array items origin).IsLeaf :=
  fun ⟨_, _, h⟩ => nomatch h

theorem not_isLeaf_table (ms : List (String × Store)) (origin : Option Origin) :
    ¬(table ms origin).IsLeaf :=
  fun ⟨_, _, h⟩ => nomatch h

/-- A table in which every key stands once. -/
def IsTable (s : Store) : Prop := ∃ ms origin, s = .table ms origin ∧ (ms.map (·.1)).Nodup

/-- A member is **fit** when, if its key is known, it has the right shape. -/
structure Fit (m : String × Store) : Prop where
  own : m.1 ∈ Leaf.ownKeys → m.2.IsLeaf
  table : ∀ sect ∈ Section.all, m.1 = sect.key → m.2.IsTable
  field : ∀ sect ∈ Section.all, m.1 = sect.key →
    ∀ field ∈ sect.fields, ∀ v, m.2.get? field = some v → v.IsLeaf

/-- An **orderly** store: every key stands once, and the known ones have the right shape. -/
structure Orderly (s : Store) : Prop where
  names : (s.members.map (·.1)).Nodup
  fit : ∀ m ∈ s.members, Fit m

/-! ### Tables -/

/-- A table stays a table when a member is written to it. -/
theorem IsTable.write (h : s.IsTable) (k : String) (v : Store) : (s.write k v).IsTable := by
  obtain ⟨ms, origin, rfl, hms⟩ := h
  rw [write_eq_set]
  exact ⟨_, origin, rfl, Roster.nodup_cons_filter hms k _⟩

theorem IsTable.writeAll (h : s.IsTable) (ms : List (String × Store)) :
    (s.writeAll ms).IsTable := by
  induction ms generalizing s with
  | nil => exact h
  | cons m ms ih => exact ih (h.write m.1 m.2)

theorem isTable_empty : empty.IsTable := ⟨[], none, rfl, .nil⟩

/-! ### One member -/

/-- Every member of an orderly table fits its name. -/
theorem Orderly.fit_of_get? (hs : s.Orderly) {v : Store} (h : s.get? k = some v) : Fit (k, v) :=
  hs.fit _ ((Roster.mem_iff_lookup hs.names).mpr h)

/-- A field of a merged table is the one that is written, or else the one that stood there. -/
theorem get?_merged {v : Store} {field : String} (hv : v.IsTable)
    (hleaf : ∀ x, v.get? field = some x → x.IsLeaf) (stood : Option Store) :
    (merged stood v).get? field = (v.get? field).or (stood.bind (·.get? field)) := by
  obtain ⟨ms, origin, rfl, hms⟩ := hv
  have hstood : (stood.getD empty).get? field = stood.bind (·.get? field) := by
    cases stood <;> rfl
  have hget : (table ms origin).get? field = ms.lookup field := rfl
  rw [merged, get?_writeAll hms, hstood, hget]
  cases hfield : ms.lookup field with
  | none => rfl
  | some x => rw [Option.map_some, (hleaf x hfield).merged_eq]

/-- **Writing.** What a member says of a leaf is said from now on, and what it does not say stays.
-/
theorem at?_write (hm : Fit m) (hleaf : leaf ∈ Leaf.all) :
    (s.write m.1 m.2).at? leaf = (said m leaf).or (s.at? leaf) := by
  by_cases hfront : m.1 = leaf.front
  case neg =>
    rw [said_of_ne hfront, Option.none_or]
    cases leaf with
    | own key => exact get?_write_of_ne fun h => hfront h.symm
    | inside sect field =>
      exact congrArg (·.bind (·.get? field)) (get?_write_of_ne fun h => hfront h.symm)
  case pos =>
    cases leaf with
    | own key =>
      obtain rfl : m.1 = key := hfront
      rw [at?, said, if_pos rfl, get?_write_self, (hm.own (Leaf.own_mem_all.mp hleaf)).merged_eq]
      rfl
    | inside sect field =>
      obtain ⟨hsect, hfield⟩ := Leaf.inside_mem_all.mp hleaf
      have hkey : m.1 = sect.key := hfront
      rw [at?, at?, said, if_pos hkey, ← hkey, get?_write_self, Option.bind_some,
        get?_merged (hm.table sect hsect hkey) (hm.field sect hsect hkey _ hfield)]

/-- What a fit member leaves is fit. -/
theorem Fit.merged {v : Store} (hv : Fit (k, v)) (hs : s.Orderly) :
    Fit (k, merged (s.get? k) v) where
  own hk := by
    rw [(hv.own hk).merged_eq]
    exact hv.own hk
  table sect hsect hk := by
    obtain ⟨ms, origin, rfl, -⟩ := hv.table sect hsect hk
    cases hstood : s.get? k with
    | none => exact isTable_empty.writeAll ms
    | some x => exact ((hs.fit_of_get? hstood).table sect hsect hk).writeAll ms
  field sect hsect hk field hfield x hx := by
    have hleaf := hv.field sect hsect hk field hfield
    change (Store.merged (s.get? k) v).get? field = some x at hx
    rw [get?_merged (hv.table sect hsect hk) hleaf] at hx
    obtain hx | ⟨-, hx⟩ := Option.or_eq_some_iff.mp hx
    · exact hleaf x hx
    · obtain ⟨y, hstood, hx⟩ := Option.bind_eq_some_iff.mp hx
      exact (hs.fit_of_get? hstood).field sect hsect hk field hfield x hx

/-- An orderly table stays orderly when a member that fits is written to it. -/
theorem Orderly.write (hs : s.Orderly) (hm : Fit m) : (s.write m.1 m.2).Orderly := by
  rw [write_eq_set]
  constructor
  · rw [members_set]
    exact Roster.nodup_cons_filter hs.names _ _
  · rw [members_set]
    refine List.forall_mem_cons.mpr ⟨hm.merged hs, fun m' hm' => ?_⟩
    exact hs.fit m' (List.mem_filter.mp hm').1

/-! ### All members -/

theorem Orderly.writeAll (hs : s.Orderly) (hms : ∀ m ∈ ms, Fit m) : (s.writeAll ms).Orderly := by
  induction ms generalizing s with
  | nil => exact hs
  | cons m ms ih =>
    obtain ⟨hm, hms⟩ := List.forall_mem_cons.mp hms
    exact ih (hs.write hm) hms

/-- A table says nothing of a leaf whose front is not among its names. -/
theorem at?_of_not_mem {origin : Option Origin} (h : leaf.front ∉ ms.map (·.1)) :
    (table ms origin).at? leaf = none := by
  have hnone : (table ms origin).get? leaf.front = none := Roster.lookup_eq_none h
  cases leaf with
  | own key => exact hnone
  | inside sect field => exact congrArg (·.bind (·.get? field)) hnone

/-- A table says of a leaf what its first member of that name says. -/
theorem at?_cons (m : String × Store) (ms : List (String × Store)) (origin : Option Origin)
    (leaf : Leaf) : (table (m :: ms) origin).at? leaf
      = if m.1 = leaf.front then said m leaf else (table ms origin).at? leaf := by
  have hget (k : String) : (table (m :: ms) origin).get? k
      = if m.1 = k then some m.2 else (table ms origin).get? k :=
    Roster.lookup_cons m ms k
  by_cases hfront : m.1 = leaf.front
  · rw [if_pos hfront]
    cases leaf with
    | own key => exact (hget key).trans ((if_pos hfront).trans (if_pos hfront).symm)
    | inside sect field =>
      have hsect := (hget sect.key).trans (if_pos hfront)
      rw [at?, said, hsect, Option.bind_some]
      exact (if_pos hfront).symm
  · rw [if_neg hfront]
    cases leaf with
    | own key => exact (hget key).trans (if_neg hfront)
    | inside sect field =>
      have hsect := (hget sect.key).trans (if_neg hfront)
      rw [at?, at?, hsect]

/-- A table that is written into another one says what it says, and the other one says the rest. -/
theorem at?_table_writeAll (hnames : (ms.map (·.1)).Nodup) (hms : ∀ m ∈ ms, Fit m) (s : Store)
    (hleaf : leaf ∈ Leaf.all) :
    (s.writeAll ms).at? leaf = ((table ms none).at? leaf).or (s.at? leaf) := by
  induction ms generalizing s with
  | nil => rw [at?_of_not_mem List.not_mem_nil, Option.none_or, writeAll]
  | cons m ms ih =>
    obtain ⟨hm, hms⟩ := List.forall_mem_cons.mp hms
    obtain ⟨hfirst, hnames⟩ := List.nodup_cons.mp hnames
    rw [writeAll, ih hnames hms, at?_write hm hleaf, at?_cons]
    -- The keys are distinct, so what the first member says is not written over by the others.
    split
    case isTrue hfront => rw [at?_of_not_mem (hfront ▸ hfirst), Option.none_or]
    case isFalse hfront => rw [said_of_ne hfront, Option.none_or]

/-- A leaf is found in what is **written**, or else in what was there. -/
theorem Orderly.at?_writeAll {t : Store} (ht : t.Orderly) (s : Store) (hleaf : leaf ∈ Leaf.all) :
    (s.writeAll t.members).at? leaf = (t.at? leaf).or (s.at? leaf) := by
  have ht' : (table t.members none).at? leaf = t.at? leaf := by cases leaf <;> rfl
  rw [at?_table_writeAll ht.names ht.fit s hleaf, ht']

end Store

end SpeechService
