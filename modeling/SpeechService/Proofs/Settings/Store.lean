import SpeechService.Proofs.Slot.Roster
import SpeechService.Settings.Store

/-!
# What a store gives

A look-up in a store sees the last write to its key: a value that is no table stands there as it is,
and a table is merged into what stood there (`Store.merged`). Writes to other keys are not seen, and
neither are paths that start with other keys. A path of keys alone writes tables within tables
(`Store.put_names`).
-/

namespace SpeechService.Store

variable {s : Store} {j k : String} {v : Store} {ms : List (String × Store)}

/-! ### One key -/

theorem members_set (s : Store) (k : String) (v : Store) :
    (s.set k v).members = (k, v) :: s.members.filter (·.1 ≠ k) := by
  cases s <;> rfl

theorem get?_set_self (s : Store) (k : String) (v : Store) : (s.set k v).get? k = some v := by
  rw [get?, members_set, Roster.lookup_cons, if_pos rfl]

theorem get?_set_of_ne (h : j ≠ k) : (s.set k v).get? j = s.get? j := by
  rw [get?, members_set, Roster.lookup_cons, if_neg (Ne.symm h), Roster.lookup_filter_of_ne _ h]
  rfl

/-- What a write makes of the value and of what **stood** at its place: a table is merged. -/
def merged (stood : Option Store) : Store → Store
  | .table ms _ => (stood.getD empty).writeAll ms
  | v => v

theorem write_eq_set (s : Store) (k : String) (v : Store) :
    s.write k v = s.set k (merged (s.get? k) v) := by
  cases v <;> rfl

theorem get?_write_self (s : Store) (k : String) (v : Store) :
    (s.write k v).get? k = some (merged (s.get? k) v) := by
  rw [write_eq_set, get?_set_self]

theorem get?_write_of_ne (h : j ≠ k) : (s.write k v).get? j = s.get? j := by
  rw [write_eq_set, get?_set_of_ne h]

/-! ### Many keys -/

theorem get?_writeAll_of_lookup_none (h : ms.lookup k = none) :
    (s.writeAll ms).get? k = s.get? k := by
  induction ms generalizing s with
  | nil => rfl
  | cons m ms ih =>
    rw [Roster.lookup_cons] at h
    split at h
    case isTrue => exact nomatch h
    case isFalse hk => rw [writeAll, ih h, get?_write_of_ne (Ne.symm hk)]

/-- The **last write** counts; of members with different keys only one writes to a key. -/
theorem get?_writeAll (h : (ms.map (·.1)).Nodup) :
    (s.writeAll ms).get? k = ((ms.lookup k).map (merged (s.get? k))).or (s.get? k) := by
  induction ms generalizing s with
  | nil => rfl
  | cons m ms ih =>
    obtain ⟨hfirst, hms⟩ := List.nodup_cons.mp h
    rw [writeAll, Roster.lookup_cons]
    split
    case isTrue hk =>
      subst hk
      rw [get?_writeAll_of_lookup_none (Roster.lookup_eq_none hfirst), get?_write_self]
      rfl
    case isFalse hk => rw [ih hms, get?_write_of_ne (Ne.symm hk)]

/-! ### Paths -/

/-- A value under several keys, each in the table of the one before. -/
def nested : List String → Store → Store
  | [], v => v
  | k :: names, v => .table [(k, nested names v)] none

/-- A write below nothing makes a table. -/
theorem write_null (k : String) (v : Store) : null.write k v = empty.write k v := by
  rw [write_eq_set, write_eq_set]
  rfl

theorem put_names (s : Store) (k : String) (names : List String) (v : Store) :
    s.put ((k :: names).map .key) v = s.write k (nested names v) := by
  induction names generalizing s k with
  | nil => rfl
  | cons j names ih =>
    have hput : s.put ((k :: j :: names).map .key) v
        = s.set k (((s.get? k).getD null).put ((j :: names).map .key) v) := rfl
    have hwrite : s.write k (nested (j :: names) v)
        = s.set k (((s.get? k).getD empty).write j (nested names v)) := rfl
    rw [hput, hwrite, ih]
    cases s.get? k with
    | none => exact congrArg (s.set k) (write_null j _)
    | some old => rfl

theorem get?_put_of_ne (h : j ≠ k) (path : List PathStep) :
    (s.put (.key k :: path) v).get? j = s.get? j := by
  cases path with
  | nil => exact get?_write_of_ne h
  | cons step path => exact get?_set_of_ne h

/-- A layer is not seen at a key that no path of it starts with. -/
theorem get?_writeTo {layer : Layer}
    (h : ∀ e ∈ layer, ∃ name path, e.1 = .key name :: path ∧ k ≠ name) :
    (layer.writeTo s).get? k = s.get? k := by
  induction layer generalizing s with
  | nil => rfl
  | cons e layer ih =>
    obtain ⟨he, hlayer⟩ := List.forall_mem_cons.mp h
    obtain ⟨name, path, hpath, hk⟩ := he
    have hwrite : Layer.writeTo s (e :: layer) = Layer.writeTo (s.put e.1 e.2) layer := rfl
    rw [hwrite, ih hlayer, hpath, get?_put_of_ne hk]

/-- A layer of single keys is written like the members of a table. -/
theorem writeTo_keys (s : Store) (ms : List (String × Store)) :
    Layer.writeTo s (ms.map fun m => ([.key m.1], m.2)) = s.writeAll ms := by
  induction ms generalizing s with
  | nil => rfl
  | cons m ms ih =>
    rw [List.map_cons, writeAll, ← ih]
    rfl

/-! ### Documents -/

theorem ofMembers_eq_map (origin : Option Origin) (ms : List (String × Json)) :
    ofMembers origin ms = ms.map fun m => (m.1, ofJson origin m.2) := by
  induction ms with
  | nil => rfl
  | cons m ms ih => rw [List.map_cons, ← ih, ofMembers]

/-- Where no two keys differ only in case, all members are kept in their order. -/
theorem distinct_eq_map (h : (ms.map fun m => Text.lower m.1).Nodup) :
    distinct ms = ms.map fun m => (Text.lower m.1, m.2) := by
  induction ms with
  | nil => rfl
  | cons m ms ih =>
    obtain ⟨key, value⟩ := m
    obtain ⟨hkey, hms⟩ := List.nodup_cons.mp h
    have hne : ∀ m ∈ ms, Text.lower m.1 ≠ Text.lower key := fun m hm heq =>
      hkey (List.mem_map.mpr ⟨m, hm, heq⟩)
    have hnone :
        (ms.any fun m => Text.lower m.1 == Text.lower key && decide (key ≤ m.1)) = false := by
      rw [List.any_eq_false]
      intro m hm
      simp [hne m hm]
    have hkept : ((ms.map fun m => (Text.lower m.1, m.2)).filter fun m => m.1 ≠ Text.lower key)
        = ms.map fun m => (Text.lower m.1, m.2) := by
      rw [List.filter_eq_self]
      intro m' hm'
      obtain ⟨m, hm, rfl⟩ := List.mem_map.mp hm'
      simpa using hne m hm
    rw [distinct, if_neg (by simp [hnone]), ih hms, hkept, List.map_cons]

end SpeechService.Store
