import Mathlib.Data.List.Nodup

/-!
# Rosters

A **roster** is a list of entries by name in which the first entry of a name is the one that
counts. A name is struck off with a filter, and a new entry goes to the front of what is left, so
that every name stands once.
-/

namespace SpeechService.Roster

variable {κ β : Type} [DecidableEq κ] {l : List (κ × β)} {j k : κ}

/-- The name that was struck off has no entry. -/
theorem lookup_filter_self (l : List (κ × β)) (k : κ) :
    (l.filter (·.1 ≠ k)).lookup k = none := by
  rw [List.lookup_eq_none_iff]
  intro p hp
  have hne : p.1 ≠ k := by simpa using (List.mem_filter.mp hp).2
  simpa using fun h : k = p.1 => hne h.symm

/-- Every other name keeps its entry. -/
theorem lookup_filter_of_ne (l : List (κ × β)) (h : j ≠ k) :
    (l.filter (·.1 ≠ k)).lookup j = l.lookup j := by
  induction l with
  | nil => rfl
  | cons p l ih =>
    by_cases hp : p.1 = k
    · have hj : (j == p.1) = false := by simpa [hp] using h
      rw [List.filter_cons_of_neg (by simpa using hp), ih, List.lookup_cons, hj]
    · rw [List.filter_cons_of_pos (by simpa using hp), List.lookup_cons, List.lookup_cons, ih]

/-- The first entry counts if it has the name, and otherwise those behind it. -/
theorem lookup_cons (p : κ × β) (l : List (κ × β)) (k : κ) :
    (p :: l).lookup k = if p.1 = k then some p.2 else l.lookup k := by
  rw [List.lookup_cons]
  by_cases hk : p.1 = k
  · rw [if_pos hk, beq_iff_eq.mpr hk.symm]
  · rw [if_neg hk, beq_eq_false_iff_ne.mpr (Ne.symm hk)]

/-- A name that does not stand in the roster has no entry. -/
theorem lookup_eq_none (h : k ∉ l.map (·.1)) : l.lookup k = none := by
  rw [List.lookup_eq_none_iff]
  intro p hp
  exact bne_iff_ne.mpr fun hk => h (List.mem_map.mpr ⟨p, hp, hk.symm⟩)

/-- Where every name stands once, the entries are those that a look-up finds. -/
theorem mem_iff_lookup (h : (l.map (·.1)).Nodup) {b : β} :
    (k, b) ∈ l ↔ l.lookup k = some b := by
  induction l with
  | nil => simp
  | cons p l ih =>
    obtain ⟨hp, hl⟩ := List.nodup_cons.mp h
    rw [List.mem_cons, lookup_cons, ih hl]
    by_cases hk : p.1 = k
    · subst hk
      simp [lookup_eq_none hp, Prod.ext_iff, eq_comm]
    · simp [hk, Prod.ext_iff, Ne.symm hk]

/-- The names whose entries are of some kind. -/
theorem mem_names_filter (h : (l.map (·.1)).Nodup) (f : β → Bool) :
    k ∈ (l.filter fun p => f p.2).map (·.1) ↔ ∃ b, l.lookup k = some b ∧ f b = true := by
  rw [List.mem_map]
  constructor
  · rintro ⟨⟨j, b⟩, hj, rfl⟩
    obtain ⟨hm, hf⟩ := List.mem_filter.mp hj
    exact ⟨b, (mem_iff_lookup h).mp hm, hf⟩
  · rintro ⟨b, hb, hf⟩
    exact ⟨(k, b), List.mem_filter.mpr ⟨(mem_iff_lookup h).mpr hb, hf⟩, rfl⟩

omit [DecidableEq κ] in
theorem nodup_names_filter (h : (l.map (·.1)).Nodup) (f : β → Bool) :
    ((l.filter fun p => f p.2).map (·.1)).Nodup :=
  h.sublist (List.filter_sublist.map _)

theorem nodup_filter (h : (l.map (·.1)).Nodup) (k : κ) :
    ((l.filter (·.1 ≠ k)).map (·.1)).Nodup :=
  h.sublist (List.filter_sublist.map _)

/-- A new entry stands in front of what is left of the roster. -/
theorem nodup_cons_filter (h : (l.map (·.1)).Nodup) (k : κ) (b : β) :
    (((k, b) :: l.filter (·.1 ≠ k)).map (·.1)).Nodup := by
  refine List.nodup_cons.mpr ⟨fun hk => ?_, nodup_filter h k⟩
  obtain ⟨p, hp, rfl⟩ := List.mem_map.mp hk
  simpa using (List.mem_filter.mp hp).2

omit [DecidableEq κ] in
/-- A list without repetitions whose only member is `k`. -/
theorem eq_singleton_of_mem_iff {names : List κ} (hn : names.Nodup) (h : ∀ j, j ∈ names ↔ j = k) :
    names = [k] :=
  List.perm_singleton.mp ((List.perm_ext_iff_of_nodup hn (List.nodup_singleton k)).mpr
    fun j => (h j).trans List.mem_singleton.symm)

end SpeechService.Roster
