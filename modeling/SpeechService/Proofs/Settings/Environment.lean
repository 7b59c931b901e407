import SpeechService.Proofs.Settings.Assignments
import SpeechService.Proofs.Settings.KeyNames

/-!
# The environment as a source of settings

What an environment states is read off the names of its variables, in whatever case they are
written: behind the start that they have in common stand the names on the way to a leaf, with two
underscores between them. An environment is *plain* when no variable in question is given twice,
stands for a section as a whole or goes below a leaf.

In a plain environment the path of a variable is *clear*: it ends at a leaf or passes by all of them
(`Store.Clear`). So every variable writes the leaf whose variable it is, and nothing else that is
known, and the layer of the environment gives what the environment states
(`Environment.Plain.gives`).
-/

namespace SpeechService

/-! ### The environment -/

namespace Environment

/-- The name of a leaf in the environment, behind the start that all names have in common. -/
def nameOf : Leaf → String
  | .own key => key
  | .inside sect field => sect.key ++ "__" ++ field

/-- The name of the variable for a leaf, in lower case. -/
def variableName (leaf : Leaf) : String := KeyPath.variableStart ++ nameOf leaf

/-- What an environment **states**. -/
def states (env : List (String × String)) : Assignment := fun leaf =>
  (env.find? fun b => Text.lower b.1 == variableName leaf).map
    fun b => ⟨.string b.2, some .environment⟩

/-- A variable **in question** has a name that starts in the right way. -/
def InQuestion (name : String) : Prop :=
  KeyPath.variableStart.toList <+: (Text.lower name).toList

instance (name : String) : Decidable (InQuestion name) := inferInstanceAs (Decidable (_ <+: _))

/-- A **plain** environment: of the variables in question no two have the same name, none stands for
a section as a whole, and none goes below a leaf. -/
structure Plain (env : List (String × String)) : Prop where
  names : ∀ b ∈ env, InQuestion b.1 → KeyPath.Plain (Text.lower b.1)
  once : env.Pairwise fun b b' => InQuestion b.1 → Text.lower b.1 ≠ Text.lower b'.1
  table : ∀ b ∈ env, ∀ sect ∈ Section.all, Text.lower b.1 ≠ KeyPath.variableStart ++ sect.key
  scalar : ∀ b ∈ env, ∀ leaf ∈ Leaf.all,
    ¬(variableName leaf ++ "__").toList <+: (Text.lower b.1).toList

instance (env : List (String × String)) : Decidable (Plain env) :=
  decidable_of_iff ((∀ b ∈ env, InQuestion b.1 → KeyPath.Plain (Text.lower b.1))
      ∧ env.Pairwise (fun b b' => InQuestion b.1 → Text.lower b.1 ≠ Text.lower b'.1)
      ∧ (∀ b ∈ env, ∀ sect ∈ Section.all, Text.lower b.1 ≠ KeyPath.variableStart ++ sect.key)
      ∧ ∀ b ∈ env, ∀ leaf ∈ Leaf.all,
        ¬(variableName leaf ++ "__").toList <+: (Text.lower b.1).toList)
    ⟨fun ⟨hnames, honce, htable, hscalar⟩ => ⟨hnames, honce, htable, hscalar⟩,
      fun h => ⟨h.names, h.once, h.table, h.scalar⟩⟩

end Environment

/-! ### What the environment gives -/

namespace Leaf

/-- The names on the way to a leaf. -/
def path : Leaf → List String
  | .own key => [key]
  | .inside sect field => [sect.key, field]

theorem point_not_mem {leaf : Leaf} (hleaf : leaf ∈ all) :
    ∀ name ∈ leaf.path, '.' ∉ name.toList := by
  revert leaf
  decide

end Leaf

namespace Store

variable {k : String} {names : List String} {v : Store} {leaf : Leaf}

/-- Names are **clear** of the leaves when they lead to one of them or pass by all of them. -/
def Clear (names : List String) : Prop :=
  ∀ leaf ∈ Leaf.all, leaf.path <+: names ∨ names <+: leaf.path → names = leaf.path

variable {sect : Section} {field : String}

/-- Names that start with a section go on. -/
theorem Clear.exists_cons (h : Clear (sect.key :: names)) (hsect : sect ∈ Section.all) :
    ∃ n more, names = n :: more := by
  have hfields : ∀ sect ∈ Section.all, sect.fields ≠ [] := by decide
  obtain ⟨field, hfield⟩ := List.exists_mem_of_ne_nil _ (hfields sect hsect)
  cases names with
  | nil =>
    have hleaf := Leaf.inside_mem_all.mpr ⟨hsect, hfield⟩
    exact nomatch h (.inside sect field) hleaf (.inr ⟨[field], rfl⟩)
  | cons n more => exact ⟨n, more, rfl⟩

/-- Names end with a leaf. -/
theorem Clear.eq_nil (h : Clear (sect.key :: field :: names)) (hsect : sect ∈ Section.all)
    (hfield : field ∈ sect.fields) : names = [] := by
  have hleaf := Leaf.inside_mem_all.mpr ⟨hsect, hfield⟩
  simpa [Leaf.path] using h (.inside sect field) hleaf (.inl ⟨names, rfl⟩)

theorem get?_nested_cons (n : String) (more : List String) (v : Store) (field : String) :
    (nested (n :: more) v).get? field = if n = field then some (nested more v) else none :=
  Roster.lookup_cons (n, nested more v) [] field

theorem fit_nested (hv : v.IsLeaf) (h : Clear (k :: names)) : Fit (k, nested names v) where
  own hk := by
    obtain ⟨-, rfl⟩ := List.cons.inj (h (.own k) (Leaf.own_mem_all.mpr hk) (.inl ⟨names, rfl⟩))
    exact hv
  table sect hsect hk := by
    obtain rfl : k = sect.key := hk
    obtain ⟨n, more, rfl⟩ := h.exists_cons hsect
    exact ⟨_, none, rfl, List.nodup_singleton _⟩
  field sect hsect hk field hfield x hx := by
    obtain rfl : k = sect.key := hk
    obtain ⟨n, more, rfl⟩ := h.exists_cons hsect
    rw [get?_nested_cons] at hx
    split at hx
    case isTrue hn =>
      subst hn
      obtain rfl := h.eq_nil hsect hfield
      exact Option.some.inj hx ▸ hv
    case isFalse => exact nomatch hx

theorem said_nested (h : Clear (k :: names)) (hleaf : leaf ∈ Leaf.all) :
    said (k, nested names v) leaf = if k :: names = leaf.path then some v else none := by
  by_cases hpath : k :: names = leaf.path
  · rw [if_pos hpath]
    cases leaf with
    | own key =>
      obtain ⟨rfl, rfl⟩ := List.cons.inj hpath
      exact if_pos rfl
    | inside sect field =>
      obtain ⟨rfl, rfl⟩ := List.cons.inj hpath
      rw [said, if_pos rfl, get?_nested_cons, if_pos rfl]
      rfl
  · rw [if_neg hpath]
    cases leaf with
    | own key =>
      refine if_neg fun hk => hpath (h _ hleaf (.inl ⟨names, ?_⟩))
      exact congrArg (· :: names) hk.symm
    | inside sect field =>
      refine ite_eq_right_iff.mpr fun hk => ?_
      obtain rfl : k = sect.key := hk
      obtain ⟨n, more, rfl⟩ := h.exists_cons (Leaf.inside_mem_all.mp hleaf).1
      rw [get?_nested_cons, if_neg]
      rintro rfl
      exact hpath (h _ hleaf (.inl ⟨more, rfl⟩))

end Store

namespace Environment

variable {name : String} {k : String} {names : List String} {rest : List Char} {leaf : Leaf}

/-- The name of the variable for a leaf leads to it. -/
theorem ofVariable?_of_variableName (hleaf : leaf ∈ Leaf.all)
    (h : Text.lower name = variableName leaf) :
    KeyPath.ofVariable? name = some (leaf.path.map .key) := by
  have hread : ∀ leaf ∈ Leaf.all,
      KeyPath.read? (KeyPath.pointed (nameOf leaf).toList) = some (leaf.path.map .key) := by
    decide +kernel
  have hsplit :
      (Text.lower name).toList = KeyPath.variableStart.toList ++ (nameOf leaf).toList := by
    rw [h, variableName, String.toList_append]
  rw [KeyPath.ofVariable?_eq hsplit, hread leaf hleaf]
  rfl

/-- A variable that does not go below a leaf, and does not stand for a section, leads to the leaf
that has its name, or passes by all of them. -/
theorem path_cases
    (hrest : (Text.lower name).toList = KeyPath.variableStart.toList ++ rest) (hpoint : '.' ∉ rest)
    (hpath : KeyPath.pointed rest = KeyPath.joined (k :: names))
    (htable : ∀ sect ∈ Section.all, Text.lower name ≠ KeyPath.variableStart ++ sect.key)
    (hscalar : ¬(variableName leaf ++ "__").toList <+: (Text.lower name).toList)
    (hleaf : leaf ∈ Leaf.all) (h : leaf.path <+: k :: names ∨ k :: names <+: leaf.path) :
    k :: names = leaf.path ∧ Text.lower name = variableName leaf := by
  have hnames := Leaf.point_not_mem hleaf
  cases leaf with
  | own key =>
    obtain rfl : k = key := by
      obtain h | h := h
      · exact (List.cons_prefix_cons.mp h).1.symm
      · exact (List.cons_prefix_cons.mp h).1
    obtain ⟨rfl, rfl⟩ | ⟨n, more, rest, -, rfl, -⟩ :=
      KeyPath.pointed_cases hpoint (hnames k (.head _)) hpath
    · exact ⟨rfl, String.toList_inj.mp (hrest.trans (String.toList_append ..).symm)⟩
    · exact absurd ⟨rest, by simp [hrest, variableName, nameOf]⟩ hscalar
  | inside sect field =>
    obtain ⟨rfl, hnext⟩ : k = sect.key ∧ ([field] <+: names ∨ names <+: [field]) := by
      obtain h | h := h
      · obtain ⟨hk, h⟩ := List.cons_prefix_cons.mp h
        exact ⟨hk.symm, .inl h⟩
      · exact (List.cons_prefix_cons.mp h).imp_right .inr
    obtain ⟨rfl, rfl⟩ | ⟨n, more, rest, rfl, rfl, hbehind⟩ :=
      KeyPath.pointed_cases hpoint (hnames sect.key (.head _)) hpath
    · refine absurd ?_ (htable sect (Leaf.inside_mem_all.mp hleaf).1)
      exact String.toList_inj.mp (hrest.trans (String.toList_append ..).symm)
    obtain rfl : n = field := by
      obtain h | h := hnext
      · exact (List.cons_prefix_cons.mp h).1.symm
      · exact (List.cons_prefix_cons.mp h).1
    have hpoint : '.' ∉ rest := fun h =>
      hpoint (List.mem_append_right _ (List.mem_cons_of_mem _ (List.mem_cons_of_mem _ h)))
    obtain ⟨rfl, rfl⟩ | ⟨n', more, rest, -, rfl, -⟩ :=
      KeyPath.pointed_cases hpoint (hnames n (.tail _ (.head _))) hbehind
    · exact ⟨rfl, String.toList_inj.mp (by simp [hrest, variableName, nameOf])⟩
    · exact absurd ⟨rest, by simp [hrest, variableName, nameOf]⟩ hscalar

variable {env : List (String × String)} {b : String × String}

theorem inQuestion_of_ofVariable? {path : List PathStep}
    (h : KeyPath.ofVariable? name = some path) : InQuestion name := by
  obtain ⟨rest, hrest, -⟩ := Option.map_eq_some_iff.mp h
  exact ⟨rest, List.isPrefixOf?_eq_some_iff_append_eq.mp hrest⟩

theorem Plain.tail (h : Plain (b :: env)) : Plain env where
  names b' hb' := h.names b' (.tail _ hb')
  once := (List.pairwise_cons.mp h.once).2
  table b' hb' := h.table b' (.tail _ hb')
  scalar b' hb' := h.scalar b' (.tail _ hb')

/-- A variable in question writes one fit member, and this has its value for the leaf whose variable
it is, if there is one, and nothing for any other leaf. -/
theorem Plain.exists_member (h : Plain env) (hb : b ∈ env) {path : List PathStep}
    (hpath : KeyPath.ofVariable? b.1 = some path) {v : Store} (hv : v.IsLeaf) :
    ∃ m, Store.Fit m ∧ (∀ s : Store, s.put path v = s.write m.1 m.2)
      ∧ ∀ leaf ∈ Leaf.all,
        Store.said m leaf = if Text.lower b.1 = variableName leaf then some v else none := by
  have hplain := h.names b hb (inQuestion_of_ofVariable? hpath)
  obtain ⟨rest, k, names, hrest, rfl, hpointed⟩ := KeyPath.ofVariable?_eq_some hplain hpath
  have hpoint : '.' ∉ rest := fun hmem => hplain.1 (hrest ▸ List.mem_append_right _ hmem)
  -- A prefix either way between the path and a leaf means that the variable is that of the leaf.
  have hcases := fun leaf hleaf =>
    path_cases hrest hpoint hpointed (h.table b hb) (h.scalar b hb leaf hleaf) hleaf
  have hclear : Store.Clear (k :: names) := fun leaf hleaf hprefix => (hcases leaf hleaf hprefix).1
  refine ⟨(k, Store.nested names v), Store.fit_nested hv hclear,
    fun s => Store.put_names s k names v, fun leaf hleaf => ?_⟩
  have hiff : k :: names = leaf.path ↔ Text.lower b.1 = variableName leaf := by
    constructor
    · intro heq
      exact (hcases leaf hleaf (.inl (heq ▸ List.prefix_rfl))).2
    · intro heq
      have hmap := Option.some.inj (hpath.symm.trans (ofVariable?_of_variableName hleaf heq))
      exact List.map_injective_iff.mpr (fun _ _ hkey => PathStep.key.inj hkey) hmap
  rw [Store.said_nested hclear hleaf]
  exact if_congr hiff rfl rfl

theorem states_cons (b : String × String) (env : List (String × String)) (leaf : Leaf) :
    states (b :: env) leaf = if Text.lower b.1 = variableName leaf
      then some ⟨.string b.2, some .environment⟩ else states env leaf := by
  rw [states, List.find?_cons]
  by_cases hb : Text.lower b.1 = variableName leaf
  · rw [if_pos hb, beq_iff_eq.mpr hb]
    rfl
  · rw [if_neg hb, beq_eq_false_iff_ne.mpr hb]
    rfl

/-- No other variable is that of the same leaf. -/
theorem Plain.states_tail (h : Plain (b :: env)) (hq : InQuestion b.1)
    (hb : Text.lower b.1 = variableName leaf) : states env leaf = none := by
  have hnone : env.find? (fun b' => Text.lower b'.1 == variableName leaf) = none := by
    rw [List.find?_eq_none]
    intro b' hb' heq
    exact (List.pairwise_cons.mp h.once).1 b' hb' hq (hb.trans (beq_iff_eq.mp heq).symm)
  rw [states, hnone]
  rfl

/-- The layer of the environment **gives** what the environment states. -/
theorem Plain.gives (h : Plain env) : (Layer.ofEnvironment env).Gives (states env) := by
  induction env with
  | nil => exact fun s hs => ⟨hs, fun leaf _ => rfl⟩
  | cons b env ih =>
    intro s hs
    cases hpath : KeyPath.ofVariable? b.1 with
    | none =>
      have hlayer : Layer.ofEnvironment (b :: env) = Layer.ofEnvironment env :=
        List.filterMap_cons_none (congrArg (Option.map _) hpath)
      obtain ⟨horderly, hat⟩ := ih h.tail s hs
      rw [hlayer]
      refine ⟨horderly, fun leaf hleaf => ?_⟩
      -- The variable leads nowhere, so it is not that of a leaf.
      have hb : Text.lower b.1 ≠ variableName leaf := fun heq =>
        nomatch hpath.symm.trans (ofVariable?_of_variableName hleaf heq)
      rw [hat leaf hleaf, states_cons, if_neg hb]
    | some path =>
      have hlayer : Layer.ofEnvironment (b :: env)
          = (path, .leaf (.string b.2) (some .environment)) :: Layer.ofEnvironment env :=
        List.filterMap_cons_some (congrArg (Option.map _) hpath)
      obtain ⟨m, hfit, hput, hsaid⟩ := h.exists_member (.head _) hpath
        (Store.isLeaf_leaf (.string b.2) (some .environment))
      obtain ⟨horderly, hat⟩ := ih h.tail (s.write m.1 m.2) (hs.write hfit)
      have hwrite : (Layer.ofEnvironment (b :: env)).writeTo s
          = (Layer.ofEnvironment env).writeTo (s.write m.1 m.2) := by
        rw [hlayer, ← hput]
        rfl
      rw [hwrite]
      refine ⟨horderly, fun leaf hleaf => (hat leaf hleaf).trans ?_⟩
      rw [Store.at?_write hfit hleaf, hsaid leaf hleaf, states_cons]
      split
      case isTrue hb =>
        rw [h.states_tail (inQuestion_of_ofVariable? hpath) hb]
        rfl
      case isFalse => rw [Option.none_or]

end Environment

end SpeechService
