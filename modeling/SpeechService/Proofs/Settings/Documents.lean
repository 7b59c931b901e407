import SpeechService.Proofs.Settings.Assignments
import SpeechService.Proofs.Settings.KeyNames

/-!
# Documents of settings

What a file of settings states is read off its document: the value under the key of a leaf, in
whatever case the key is written. A document is *plain* when sections are tables, leaves have no
parts, and no key is given twice. The store of a plain document is orderly, and the layer that is
made of it gives what the document states (`Document.Found.exists_layer`).
-/

namespace SpeechService

/-! ### Documents -/

namespace Json

/-- The value under a key of an object, in whatever case it is written. -/
def member? (ms : List (String × Json)) (key : String) : Option Json :=
  (ms.find? fun m => Text.lower m.1 == key).map (·.2)

/-- The members of an object; nothing else has any. -/
def fields : Json → List (String × Json)
  | .object ms => ms
  | _ => []

/-- A value without parts. -/
def scalar? : Json → Option Scalar
  | .null => some .null
  | .bool b => some (.bool b)
  | .integer n => some (Store.ofInteger n)
  | .float x => some (.float x)
  | .string s => some (.string s)
  | .array _ | .object _ => none

/-- No two members have the same key, in whatever case it is written. -/
def KeysOnce (ms : List (String × Json)) : Prop := (ms.map fun m => Text.lower m.1).Nodup

instance (ms : List (String × Json)) : Decidable (KeysOnce ms) :=
  inferInstanceAs (Decidable (List.Nodup _))

/-- An object that has every key once. -/
def IsTable : Json → Prop
  | .object ms => KeysOnce ms
  | _ => False

instance : (v : Json) → Decidable v.IsTable
  | .object ms => inferInstanceAs (Decidable (KeysOnce ms))
  | .null | .bool _ | .integer _ | .float _ | .string _ | .array _ => .isFalse id

end Json

/-- A **document** of settings, read from a file. -/
structure Document where
  path : String
  members : List (String × Json)

namespace Document

/-- The value that stands at a leaf. -/
def value? (d : Document) : Leaf → Option Json
  | .own key => Json.member? d.members key
  | .inside sect field =>
    (Json.member? d.members sect.key).bind fun v => Json.member? v.fields field

/-- What a document **states**. -/
def states (d : Document) : Assignment := fun leaf =>
  ((d.value? leaf).bind Json.scalar?).map (⟨·, some (.file d.path)⟩)

/-- What a document states that may be missing. -/
def statesOf (d : Option Document) : Assignment := fun leaf => d.bind (·.states leaf)

/-- A **plain** document. -/
structure Plain (d : Document) : Prop where
  names : ∀ m ∈ d.members, KeyPath.Plain (Text.lower m.1)
  once : Json.KeysOnce d.members
  table : ∀ sect ∈ Section.all, ∀ v ∈ Json.member? d.members sect.key, v.IsTable
  scalar : ∀ leaf ∈ Leaf.all, ∀ v ∈ d.value? leaf, v.scalar?.isSome

instance (d : Document) : Decidable d.Plain :=
  decidable_of_iff ((∀ m ∈ d.members, KeyPath.Plain (Text.lower m.1)) ∧ Json.KeysOnce d.members
      ∧ (∀ sect ∈ Section.all, ∀ v ∈ Json.member? d.members sect.key, v.IsTable)
      ∧ ∀ leaf ∈ Leaf.all, ∀ v ∈ d.value? leaf, v.scalar?.isSome)
    ⟨fun ⟨hnames, honce, htable, hscalar⟩ => ⟨hnames, honce, htable, hscalar⟩,
      fun h => ⟨h.names, h.once, h.table, h.scalar⟩⟩

/-- The document that a name leads to, if there is a file of this name. -/
inductive Found (files : Files) (name : String) : Option Document → Prop
  | missing (h : Layer.locate? files name = none) : Found files name none
  | read {path : String} {form : FileForm} {content : List UInt8} {text : String}
      {members : List (String × Json)}
      (hfile : Layer.locate? files name = some (path, form, content))
      (htext : Json.textOfBytes? content = some text)
      (hvalue : Layer.value? form text = some (.object members)) :
      Found files name (some ⟨path, members⟩)

end Document

/-! ### What documents give -/

namespace Json

variable {ms : List (String × Json)} {origin : Option Origin} {v : Json}

theorem IsTable.exists_fields (h : v.IsTable) : ∃ fields, v = .object fields ∧ KeysOnce fields := by
  cases v with
  | object fields => exact ⟨fields, rfl, h⟩
  | null | bool | integer | float | string | array => exact h.elim

theorem ofJson_of_scalar {x : Scalar} (h : v.scalar? = some x) :
    Store.ofJson origin v = .leaf x origin := by
  cases v with
  | array => exact nomatch h
  | object => exact nomatch h
  | null | bool | integer | float | string =>
    exact congrArg (Store.leaf · origin) (Option.some.inj h)

theorem ofJson_object (h : KeysOnce ms) : Store.ofJson origin (.object ms)
    = .table (ms.map fun m => (Text.lower m.1, Store.ofJson origin m.2)) origin := by
  rw [Store.ofJson, Store.ofMembers_eq_map, Store.distinct_eq_map (by rwa [List.map_map]),
    List.map_map]
  rfl

theorem isTable_ofJson_object (h : KeysOnce ms) : (Store.ofJson origin (.object ms)).IsTable :=
  ⟨_, origin, ofJson_object h, by rwa [List.map_map]⟩

theorem get?_ofJson_object (h : KeysOnce ms) (key : String) :
    (Store.ofJson origin (.object ms)).get? key = (member? ms key).map (Store.ofJson origin) := by
  have hget : (Store.ofJson origin (.object ms)).get? key
      = (ms.map fun m => (Text.lower m.1, Store.ofJson origin m.2)).lookup key := by
    rw [ofJson_object h]
    rfl
  rw [hget, member?]
  clear h hget
  induction ms with
  | nil => rfl
  | cons m ms ih =>
    rw [List.map_cons, Roster.lookup_cons, List.find?_cons, ih]
    by_cases hkey : Text.lower m.1 = key
    · rw [if_pos hkey, beq_iff_eq.mpr hkey]
      rfl
    · rw [if_neg hkey, beq_eq_false_iff_ne.mpr hkey]

end Json

namespace Document

variable {d : Document} {leaf : Leaf}

/-- The document as a store. -/
def store (d : Document) : Store := .ofJson (some (.file d.path)) (.object d.members)

theorem Plain.get?_store (h : d.Plain) (key : String) :
    d.store.get? key = (Json.member? d.members key).map (.ofJson (some (.file d.path))) :=
  Json.get?_ofJson_object h.once key

/-- A leaf of the store is the value that stands there in the document. -/
theorem Plain.at?_store_eq (h : d.Plain) (hleaf : leaf ∈ Leaf.all) :
    d.store.at? leaf = (d.value? leaf).map (.ofJson (some (.file d.path))) := by
  cases leaf with
  | own key => exact h.get?_store key
  | inside sect field =>
    rw [Store.at?, h.get?_store, value?]
    cases hsection : Json.member? d.members sect.key with
    | none => rfl
    | some v =>
      have htable := h.table sect (Leaf.inside_mem_all.mp hleaf).1 v hsection
      obtain ⟨fields, rfl, honce⟩ := htable.exists_fields
      exact Json.get?_ofJson_object honce field

theorem Plain.isLeaf (h : d.Plain) (hleaf : leaf ∈ Leaf.all) {x : Store}
    (hx : d.store.at? leaf = some x) : x.IsLeaf := by
  rw [h.at?_store_eq hleaf] at hx
  obtain ⟨v, hv, rfl⟩ := Option.map_eq_some_iff.mp hx
  obtain ⟨y, hy⟩ := Option.isSome_iff_exists.mp (h.scalar leaf hleaf v hv)
  exact ⟨y, _, Json.ofJson_of_scalar hy⟩

/-- The leaves of the store are what the document states. -/
theorem Plain.at?_store (h : d.Plain) (hleaf : leaf ∈ Leaf.all) :
    d.store.at? leaf = (d.states leaf).map Stated.store := by
  rw [h.at?_store_eq hleaf, states]
  cases hv : d.value? leaf with
  | none => rfl
  | some v =>
    obtain ⟨x, hx⟩ := Option.isSome_iff_exists.mp (h.scalar leaf hleaf v hv)
    rw [Option.map_some, Json.ofJson_of_scalar hx, Option.bind_some, hx]
    rfl

theorem Plain.orderly (h : d.Plain) : d.store.Orderly := by
  obtain ⟨ms, origin, hstore, hnames⟩ : d.store.IsTable := Json.isTable_ofJson_object h.once
  have hnames : (d.store.members.map (·.1)).Nodup := by rwa [hstore]
  refine ⟨hnames, fun m hm => ?_⟩
  have hget : d.store.get? m.1 = some m.2 := (Roster.mem_iff_lookup hnames).mp hm
  refine ⟨fun hown => h.isLeaf (Leaf.own_mem_all.mpr hown) hget, fun sect hsect hkey => ?_,
    fun sect hsect hkey field hfield x hx => ?_⟩
  · rw [h.get?_store] at hget
    obtain ⟨v, hv, hm⟩ := Option.map_eq_some_iff.mp hget
    obtain ⟨fields, rfl, honce⟩ := (h.table sect hsect v (hkey ▸ hv)).exists_fields
    exact hm ▸ Json.isTable_ofJson_object honce
  · have hat : d.store.at? (.inside sect field) = some x := by
      rw [Store.at?, ← hkey, hget]
      exact hx
    exact h.isLeaf (Leaf.inside_mem_all.mpr ⟨hsect, hfield⟩) hat

/-- The layer of a document gives what the document states. -/
theorem Plain.exists_layer (h : d.Plain) :
    ∃ layer, Layer.ofStore? d.store = some layer ∧ layer.Gives d.states := by
  have hstore : d.store = .table (d.members.map fun m =>
      (Text.lower m.1, Store.ofJson (some (.file d.path)) m.2)) (some (.file d.path)) :=
    Json.ofJson_object h.once
  -- The keys of the store are in lower case, so reading them as paths leaves them as they are.
  have hkeys : ∀ m ∈ d.store.members, KeyPath.ofKey m.1 = [.key m.1] := by
    rw [hstore]
    intro m' hm'
    obtain ⟨m, hm, rfl⟩ := List.mem_map.mp hm'
    have hplain := h.names m hm
    rw [← Text.lower_lower] at hplain
    exact (KeyPath.ofKey_of_plain hplain).trans (by rw [Text.lower_lower])
  have hlayer : d.store.members.map (fun m => (KeyPath.ofKey m.1, m.2))
      = d.store.members.map fun m => ([.key m.1], m.2) :=
    List.map_congr_left fun m hm => by rw [hkeys m hm]
  refine ⟨d.store.members.map fun m => ([.key m.1], m.2), ?_, fun s hs => ?_⟩
  · rw [← hlayer, hstore]
    rfl
  · rw [Store.writeTo_keys]
    refine ⟨hs.writeAll h.orderly.fit, fun leaf hleaf => ?_⟩
    rw [h.orderly.at?_writeAll s hleaf, h.at?_store hleaf]

theorem Found.exists_layer {files : Files} {name : String} {d : Option Document}
    (h : Found files name d) (hplain : ∀ d' ∈ d, d'.Plain) :
    ∃ layer, Layer.ofFile? files false name = some layer ∧ layer.Gives (statesOf d) := by
  cases h with
  | missing h =>
    refine ⟨[], by rw [Layer.ofFile?, h]; rfl, fun s hs => ⟨hs, fun leaf _ => rfl⟩⟩
  | read hfile htext hvalue =>
    obtain ⟨layer, hlayer, hgives⟩ := (hplain _ rfl).exists_layer
    refine ⟨layer, ?_, hgives⟩
    simp only [Layer.ofFile?, hfile, Option.bind_some, htext, Option.map_some, hvalue]
    exact hlayer

end Document

end SpeechService
