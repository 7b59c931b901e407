import Mathlib
import SpeechService.Proofs.Settings.Documents
import SpeechService.Proofs.Settings.Environment

/-!
# Precedence among sources

Without a path the settings come from up to three **sources**: the environment, the file of one's
own settings and the file of shared ones. Every source states some of the leaves. What it states of
keys that are not known does not matter.

`Sources.load_takes_first` says that loading is a look-up leaf by leaf: every leaf has the value of
the first source that states it, or else its default, and the outcome, settings or error, is that of
these values. What a later source states of a leaf is not seen, and a source cannot hide what
another one states of another leaf, also of the same section.
-/

namespace SpeechService

/-! ### Sources -/

/-- All that the settings are loaded from, where every part of it is plain. -/
structure Sources where
  files : Files
  environment : List (String × String)
  /-- The settings of one's own, which come before the shared ones. -/
  own : Option Document
  shared : Option Document
  own_found : Document.Found files "config.local" own
  shared_found : Document.Found files "config" shared
  own_plain : ∀ d ∈ own, d.Plain
  shared_plain : ∀ d ∈ shared, d.Plain
  environment_plain : Environment.Plain environment

namespace Sources

/-- What the sources state, the strongest one first. -/
def states (S : Sources) : List Assignment :=
  [Environment.states S.environment, Document.statesOf S.own, Document.statesOf S.shared]

/-- The outcome of loading the settings. -/
def load (S : Sources) : Except ConfigError Settings := Settings.load S.files S.environment none

/-- **Key by key**, the first source that has a leaf decides. -/
structure Precedence (S : Sources) : Prop where
  /-- The outcome is that of the assignment in which every leaf has its first value. -/
  outcome : S.load = (Assignment.firstOf S.states).settings
  /-- What is stated below the first value of a leaf, and what is stated of other keys, changes
  nothing. -/
  stable : ∀ T : Sources, (∀ leaf ∈ Leaf.all, Assignment.Agree leaf S.states T.states) →
    T.load = S.load

end Sources

/-! ### Loading -/

theorem Layer.orderly_builtIn : Layer.builtIn.Orderly := by
  have hleaves : ∀ m ∈ Layer.builtIn.members, ∃ ms, m.2 = .table ms none
      ∧ (ms.map (·.1)).Nodup ∧ ∀ m' ∈ ms, m'.2.IsLeaf := by
    refine List.forall_mem_cons.mpr ⟨⟨_, rfl, by decide, ?_⟩, List.forall_mem_singleton.mpr
      ⟨_, rfl, by decide, ?_⟩⟩
    all_goals
      exact List.forall_mem_cons.mpr
        ⟨Store.isLeaf_leaf _ _, List.forall_mem_singleton.mpr (Store.isLeaf_leaf _ _)⟩
  refine ⟨by decide, fun m hm => ?_⟩
  obtain ⟨ms, htable, hnames, hms⟩ := hleaves m hm
  have hown : ∀ k ∈ Layer.builtIn.members.map (·.1), k ∉ Leaf.ownKeys := by decide
  refine ⟨fun hkey => absurd hkey (hown _ (List.mem_map_of_mem hm)),
    fun _ _ _ => ⟨ms, none, htable, hnames⟩, fun _ _ _ field _ v hv => ?_⟩
  rw [htable] at hv
  exact hms _ ((Roster.mem_iff_lookup hnames).mpr hv)

namespace Sources

theorem orderly_empty : Store.empty.Orderly := ⟨.nil, fun _ hm => nomatch hm⟩

/-- What the sources state together, leaf by leaf. -/
theorem firstOf_states (S : Sources) (leaf : Leaf) : Assignment.firstOf S.states leaf
    = (Environment.states S.environment leaf).or
      ((Document.statesOf S.own leaf).or (Document.statesOf S.shared leaf)) := by
  rw [Assignment.firstOf, states, List.findSome?_cons, List.findSome?_cons,
    List.findSome?_singleton]
  cases Environment.states S.environment leaf <;> cases Document.statesOf S.own leaf <;> rfl

theorem load_eq (S : Sources) : S.load = (Assignment.firstOf S.states).settings := by
  obtain ⟨shared, hshared, hsharedGives⟩ := S.shared_found.exists_layer S.shared_plain
  obtain ⟨own, hown, hownGives⟩ := S.own_found.exists_layer S.own_plain
  have hall : Layer.all? S.files S.environment none
      = some [shared, own, Layer.ofEnvironment S.environment] := by
    simp [Layer.all?, Layer.usualNames, hshared, hown]
  -- Each layer is written on the store that the weaker ones leave.
  obtain ⟨horderly₁, hat₁⟩ := hsharedGives .empty orderly_empty
  obtain ⟨horderly₂, hat₂⟩ := hownGives _ horderly₁
  obtain ⟨horderly, hat₃⟩ := S.environment_plain.gives _ horderly₂
  have hraw : RawSettings.ofStore (Layer.builtIn.writeAll
      (Layer.stack [shared, own, Layer.ofEnvironment S.environment]).members)
        = (Assignment.firstOf S.states).toRaw := by
    have hview := Store.ofStore_eq_toRaw
      (b := fun leaf => (Assignment.firstOf S.states leaf).or (Assignment.builtIn leaf))
      (Layer.orderly_builtIn.writeAll horderly.fit) fun leaf hleaf => ?_
    · exact hview.trans (Assignment.toRaw_of_builtIn fun leaf _ => rfl)
    · have hempty : Store.empty.at? leaf = none := Store.at?_of_not_mem List.not_mem_nil
      rw [horderly.at?_writeAll _ hleaf, Assignment.at?_builtIn hleaf, hat₃ leaf hleaf,
        hat₂ leaf hleaf, hat₁ leaf hleaf, firstOf_states, hempty]
      simp only [Option.map_or, Option.or_assoc, Option.none_or]
  simp only [load, Settings.load, hall, Settings.ofLayers, hraw]
  rfl

/-- **Precedence.** -/
theorem load_takes_first (S : Sources) : Precedence S where
  outcome := S.load_eq
  stable T h := by
    rw [S.load_eq, T.load_eq]
    refine Assignment.settings_congr fun leaf hleaf => ?_
    exact (Assignment.firstOf_of_agree (h leaf hleaf)).symm

/-- A shared file and one's own, which state parts of the same section. -/
def partsOfServer : Files where
  workingDirectory := ["srv", "speech"]
  entries :=
    [(["srv", "speech", "config.toml"],
        .file "[server]\nport = 9000\nbody_limit_bytes = 512".toUTF8.toList),
      (["srv", "speech", "config.local.toml"], .file "[Server]\nhost = 'local'".toUTF8.toList)]

/-- What the shared file has of the section. -/
def sharedPart : Document where
  path := "config.toml"
  members := [("server", .object [("port", .integer 9000), ("body_limit_bytes", .integer 512)])]

/-- What the file of one's own has of it. -/
def ownPart : Document where
  path := "config.local.toml"
  members := [("Server", .object [("host", .string "local")])]

theorem found_sharedPart : Document.Found partsOfServer "config" (some sharedPart) := by
  have hfile : Layer.locate? partsOfServer "config" = some ("config.toml", .toml,
      "[server]\nport = 9000\nbody_limit_bytes = 512".toUTF8.toList) := by
    decide +kernel
  have htext : Json.textOfBytes? "[server]\nport = 9000\nbody_limit_bytes = 512".toUTF8.toList
      = some "[server]\nport = 9000\nbody_limit_bytes = 512" := by
    decide +kernel
  have hvalue : Layer.value? .toml "[server]\nport = 9000\nbody_limit_bytes = 512" = some (.object
      [("server", .object [("port", .integer 9000), ("body_limit_bytes", .integer 512)])]) := by
    cbv
  exact .read hfile htext hvalue

theorem found_ownPart : Document.Found partsOfServer "config.local" (some ownPart) := by
  have hfile : Layer.locate? partsOfServer "config.local" = some ("config.local.toml", .toml,
      "[Server]\nhost = 'local'".toUTF8.toList) := by
    decide +kernel
  have htext : Json.textOfBytes? "[Server]\nhost = 'local'".toUTF8.toList
      = some "[Server]\nhost = 'local'" := by
    decide +kernel
  have hvalue : Layer.value? .toml "[Server]\nhost = 'local'"
      = some (.object [("Server", .object [("host", .string "local")])]) := by
    cbv
  exact .read hfile htext hvalue

/-- One section that all three sources state a part of, each field as the first of them has it. -/
theorem load_takes_first_in_one_section :
    ∃ S : Sources, S.files = partsOfServer ∧ S.environment = [("KUGELAUDIO_SERVER__PORT", "7000")]
      ∧ Precedence S ∧ S.load.toOption.map (·.server) = some ⟨"local", 7000, 512⟩ := by
  let S : Sources := {
    files := partsOfServer
    environment := [("KUGELAUDIO_SERVER__PORT", "7000")]
    own := some ownPart
    shared := some sharedPart
    own_found := found_ownPart
    shared_found := found_sharedPart
    own_plain := by decide +kernel
    shared_plain := by decide +kernel
    environment_plain := by decide +kernel }
  refine ⟨S, rfl, rfl, load_takes_first S, ?_⟩
  rw [(load_takes_first S).outcome]
  decide +kernel

end Sources

end SpeechService
