import Mathlib.Data.List.Infix
import SpeechService.Proofs.Text.Lowercase
import SpeechService.Settings.Layers

/-!
# Names on paths

A key without points and brackets stands for itself (`KeyPath.ofKey_of_plain`). The name of a
variable without them spells out names between doubled underscores: the path leads through keys only
(`KeyPath.ofVariable?_eq_some`), and where its first names are known, the name of the variable
starts with these names (`KeyPath.pointed_cases`).
-/

namespace SpeechService.KeyPath

variable {s rest : List Char} {step : PathStep} {path : List PathStep}

/-- A text is **plain** when it has neither points nor brackets, so that it spells out no path. -/
def Plain (s : String) : Prop := '.' ∉ s.toList ∧ '[' ∉ s.toList

instance (s : String) : Decidable (Plain s) := inferInstanceAs (Decidable (_ ∧ _))

/-- Names between points. -/
def joined : List String → List Char
  | [] => []
  | name :: names => name.toList ++ names.flatMap fun n => '.' :: n.toList

/-! ### Reading -/

theorem name?_eq_some (h : name? s = some (step, rest)) :
    ∃ name, step = .key name ∧ s = name.toList ++ rest := by
  rw [name?] at h
  split at h
  · exact nomatch h
  · injection h with h
    obtain ⟨rfl, rfl⟩ := Prod.mk.inj h
    exact ⟨_, rfl, by rw [String.toList_ofList, List.takeWhile_append_dropWhile]⟩

theorem steps?_eq_some {bound : Nat} (h : steps? bound s = some path) (hs : '[' ∉ s) :
    ∃ names : List String, path = names.map .key ∧ s = names.flatMap fun n => '.' :: n.toList := by
  induction bound generalizing s path with
  | zero =>
    cases s with
    | nil => exact ⟨[], by simpa [steps?] using h.symm, rfl⟩
    | cons c s => exact nomatch h
  | succ bound ih =>
    rw [steps?.eq_def] at h
    split at h
    case h_1 => exact ⟨[], by simpa using h.symm, rfl⟩
    case h_2 heq _ => exact nomatch heq
    case h_3 heq =>
      obtain rfl := Nat.succ.inj heq
      obtain ⟨⟨step, rest⟩, hname, hrest⟩ := Option.bind_eq_some_iff.mp h
      obtain ⟨steps, hsteps, rfl⟩ := Option.map_eq_some_iff.mp hrest
      obtain ⟨name, rfl, rfl⟩ := name?_eq_some hname
      obtain ⟨names, rfl, rfl⟩ := ih hsteps fun hmem =>
        hs (List.mem_cons_of_mem _ (List.mem_append_right _ hmem))
      exact ⟨name :: names, rfl, rfl⟩
    case h_4 => exact absurd (.head _) hs
    case h_5 => exact nomatch h

theorem read?_eq_some (h : read? s = some path) (hs : '[' ∉ s) :
    ∃ name names, path = (name :: names).map .key ∧ s = joined (name :: names) := by
  obtain ⟨⟨step, rest⟩, hname, hrest⟩ := Option.bind_eq_some_iff.mp h
  obtain ⟨steps, hsteps, rfl⟩ := Option.map_eq_some_iff.mp hrest
  obtain ⟨name, rfl, rfl⟩ := name?_eq_some hname
  obtain ⟨names, rfl, rfl⟩ := steps?_eq_some hsteps fun hmem => hs (List.mem_append_right _ hmem)
  exact ⟨name, names, rfl, rfl⟩

/-- Every path starts with a name. -/
theorem exists_ofKey_eq (key : String) : ∃ name path, ofKey key = .key name :: path := by
  cases hread : read? (Text.lower key).toList with
  | none => exact ⟨Text.lower key, [], by rw [ofKey, hread]; rfl⟩
  | some path =>
    obtain ⟨⟨step, rest⟩, hname, hrest⟩ := Option.bind_eq_some_iff.mp hread
    obtain ⟨steps, -, rfl⟩ := Option.map_eq_some_iff.mp hrest
    obtain ⟨name, rfl, -⟩ := name?_eq_some hname
    exact ⟨name, steps, by rw [ofKey, hread]; rfl⟩

/-- A text without brackets leads through keys only, and their names are what it is made of. -/
theorem getD_read?_eq (hs : '[' ∉ s) (h : (read? s).getD [.key (String.ofList s)] = path) :
    ∃ name names, path = (name :: names).map .key ∧ s = joined (name :: names) := by
  cases hread : read? s with
  | none =>
    rw [hread] at h
    refine ⟨String.ofList s, [], h.symm, ?_⟩
    rw [joined, List.flatMap_nil, List.append_nil, String.toList_ofList]
  | some steps =>
    rw [hread] at h
    exact read?_eq_some (hread.trans (congrArg some h)) hs

/-- A **plain key** stands for itself. -/
theorem ofKey_of_plain {key : String} (h : Plain (Text.lower key)) :
    ofKey key = [.key (Text.lower key)] := by
  have hself : (read? (Text.lower key).toList).getD [.key (String.ofList (Text.lower key).toList)]
      = ofKey key := by
    rw [String.ofList_toList, ofKey]
  obtain ⟨name, names, hpath, hkey⟩ := getD_read?_eq h.2 hself
  cases names with
  | nil =>
    have hname : Text.lower key = name := String.toList_inj.mp (hkey.trans (List.append_nil _))
    rw [hpath, hname]
    rfl
  | cons n names =>
    have hpoint : '.' ∈ joined (name :: n :: names) := List.mem_append_right _ (.head _)
    exact absurd (hkey ▸ hpoint) h.1

/-! ### Doubled underscores -/

theorem mem_pointed {c : Char} (h : c ∈ pointed s) : c = '.' ∨ c ∈ s := by
  induction s using pointed.induct with
  | case1 rest ih =>
    rw [pointed] at h
    obtain rfl | h := List.mem_cons.mp h
    · exact .inl rfl
    · exact (ih h).imp_right fun h => List.mem_cons_of_mem _ (List.mem_cons_of_mem _ h)
  | case2 d rest hne ih =>
    rw [pointed] at h
    · obtain rfl | h := List.mem_cons.mp h
      · exact .inr (.head _)
      · exact (ih h).imp_right (List.mem_cons_of_mem _)
    · exact hne
  | case3 => exact nomatch h

/-- Without a point in the result nothing was changed. -/
theorem pointed_eq_self (h : '.' ∉ pointed s) : pointed s = s := by
  induction s using pointed.induct with
  | case1 rest ih =>
    rw [pointed] at h
    exact absurd (.head _) h
  | case2 d rest hne ih =>
    rw [pointed.eq_2 _ _ hne] at h ⊢
    rw [ih fun hmem => h (List.mem_cons_of_mem _ hmem)]
  | case3 => rfl

/-- Where a point comes from two underscores, the first point tells where they stood. -/
theorem pointed_eq_append {a b : List Char} (hs : '.' ∉ s) (ha : '.' ∉ a)
    (h : pointed s = a ++ '.' :: b) : ∃ b', s = a ++ '_' :: '_' :: b' ∧ pointed b' = b := by
  induction s using pointed.induct generalizing a with
  | case1 rest ih =>
    rw [pointed] at h
    cases a with
    | nil => exact ⟨rest, rfl, (List.cons.inj h).2⟩
    | cons d a => exact absurd ((List.cons.inj h).1 ▸ .head _) ha
  | case2 d rest hne ih =>
    rw [pointed.eq_2 _ _ hne] at h
    cases a with
    | nil => exact absurd ((List.cons.inj h).1 ▸ .head _) hs
    | cons d' a =>
      obtain ⟨rfl, hrest⟩ := List.cons.inj h
      obtain ⟨b', rfl, hb'⟩ := ih (fun hmem => hs (List.mem_cons_of_mem _ hmem))
        (fun hmem => ha (List.mem_cons_of_mem _ hmem)) hrest
      exact ⟨b', rfl, hb'⟩
  | case3 => exact absurd h.symm (by simp [pointed])

/-- The first of several names stands in front of two underscores, and a single one stands alone. -/
theorem pointed_cases {name : String} {names : List String} (hs : '.' ∉ s) (hn : '.' ∉ name.toList)
    (h : pointed s = joined (name :: names)) :
    names = [] ∧ s = name.toList
      ∨ ∃ n more rest, names = n :: more ∧ s = name.toList ++ '_' :: '_' :: rest
        ∧ pointed rest = joined (n :: more) := by
  cases names with
  | nil =>
    have hname : pointed s = name.toList := h.trans (List.append_nil _)
    exact .inl ⟨rfl, (pointed_eq_self (hname ▸ hn)).symm.trans hname⟩
  | cons n more =>
    obtain ⟨rest, hrest, hpointed⟩ := pointed_eq_append hs hn h
    exact .inr ⟨n, more, rest, rfl, hrest, hpointed⟩

/-- What follows the start of the name of a variable spells out the path. -/
theorem ofVariable?_eq {name : String}
    (h : (Text.lower name).toList = variableStart.toList ++ rest) : ofVariable? name
      = some ((read? (pointed rest)).getD [.key (String.ofList (pointed rest))]) := by
  have hsettled : Text.lower (String.ofList (pointed rest)) = String.ofList (pointed rest) := by
    refine Text.lower_of_settled fun c hc => ?_
    rw [String.toList_ofList] at hc
    obtain rfl | hc := mem_pointed hc
    · exact rfl
    · exact Text.settled_of_mem_lower (h ▸ List.mem_append_right _ hc)
  have hprefix : variableStart.toList.isPrefixOf? (Text.lower name).toList = some rest :=
    List.isPrefixOf?_eq_some_iff_append_eq.mpr h.symm
  rw [ofVariable?, hprefix, Option.map_some, ofKey, hsettled, String.toList_ofList]

/-- The variables in question are those whose names start in the right way; the path is spelled out
by what follows. -/
theorem ofVariable?_eq_some {name : String} (hname : Plain (Text.lower name))
    (h : ofVariable? name = some path) :
    ∃ rest k names, (Text.lower name).toList = variableStart.toList ++ rest
      ∧ path = (k :: names).map .key ∧ pointed rest = joined (k :: names) := by
  obtain ⟨rest, hrest, -⟩ := Option.map_eq_some_iff.mp h
  have hsplit : (Text.lower name).toList = variableStart.toList ++ rest :=
    (List.isPrefixOf?_eq_some_iff_append_eq.mp hrest).symm
  have hpath := Option.some.inj ((ofVariable?_eq hsplit).symm.trans h)
  have hbracket : '[' ∉ pointed rest := by
    intro hmem
    obtain h | hmem := mem_pointed hmem
    · exact absurd h (by decide)
    · exact hname.2 (hsplit ▸ List.mem_append_right _ hmem)
  obtain ⟨k, names, rfl, hjoined⟩ := getD_read?_eq hbracket hpath
  exact ⟨rest, k, names, hsplit, rfl, hjoined⟩

end SpeechService.KeyPath
