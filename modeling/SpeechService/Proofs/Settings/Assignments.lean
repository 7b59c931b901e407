import SpeechService.Proofs.Settings.Leaves

/-!
# Assignments

An **assignment** says what the leaves of the settings are, as far as they are given, and what
stands in a store at the leaves is one. Reading an orderly store is reading its assignment leaf by
leaf (`Store.ofStore_eq_toRaw`). The values of the server and the log that stand below all layers
are the defaults of absent leaves (`Assignment.toRaw_of_builtIn`).

Several assignments make one in which every leaf has its first value. A layer *gives* an assignment
when writing it on an orderly store changes exactly the leaves of the assignment (`Layer.Gives`).
-/

namespace SpeechService

/-! ### Assignments -/

/-- A value that a source **states**, and where it comes from. -/
structure Stated where
  value : Scalar
  origin : Option Origin
deriving DecidableEq, Repr

/-- The value in a store. -/
def Stated.store (v : Stated) : Store := .leaf v.value v.origin

/-- The name of a leaf in messages. -/
def Leaf.name : Leaf → String
  | .own key => key
  | .inside sect field => sect.key ++ "." ++ field

/-- An **assignment** says what the leaves are, as far as they are given. -/
abbrev Assignment := Leaf → Option Stated

namespace Assignment

/-- Every leaf as the **first** of several assignments has it. -/
def firstOf (sources : List Assignment) : Assignment := fun leaf => sources.findSome? (· leaf)

/-- Reads the value of a leaf; a leaf that is not given has its default. -/
def read {α : Type} (a : Assignment) (leaf : Leaf) (r : Store.Reader α) (fallback : α) :
    Except Mismatch α :=
  match a leaf with
  | some v => r leaf.name v.store
  | none => .ok fallback

/-- The raw settings of an assignment, leaf by leaf. -/
def toRaw (a : Assignment) : Except Mismatch RawSettings := do
  let blank : RawSettings := {}
  let host ← a.read (.inside .server "host") Store.text blank.server.host
  let port ← a.read (.inside .server "port") Store.natural16 blank.server.port
  let bodyLimit ← a.read (.inside .server "body_limit_bytes") Store.natural blank.server.bodyLimit
  let level ← a.read (.inside .log "level") Store.text blank.log.level
  let json ← a.read (.inside .log "json") Store.flag blank.log.json
  let modelId ← a.read (.own "model_id") Store.textOrNull none
  let textMaxChars ← a.read (.own "text_max_chars") Store.textOrNull none
  let defaultCfgScale ← a.read (.own "default_cfg_scale") Store.textOrNull none
  let defaultMaxTokens ← a.read (.own "default_max_tokens") Store.textOrNull none
  let defaultVoice ← a.read (.own "default_voice") Store.textOrNull none
  let device ← a.read (.own "device") Store.textOrNull none
  let eagerLoad ← a.read (.own "eager_load") Store.textOrNull none
  let sampleRate ← a.read (.inside .synthetic "sample_rate") Store.textOrNull none
  let samplesPerToken ← a.read (.inside .synthetic "samples_per_token") Store.textOrNull none
  let latencyMs ← a.read (.inside .synthetic "latency_ms") Store.textOrNull none
  let accelerator ← a.read (.inside .synthetic "accelerator") Store.textOrNull none
  return {
    server := { host, port, bodyLimit }
    log := { level, json }
    modelId, textMaxChars, defaultCfgScale, defaultMaxTokens, defaultVoice, device, eagerLoad
    synthetic := { sampleRate, samplesPerToken, latencyMs, accelerator } }

/-- The settings of an assignment, or the reason why there are none. -/
def settings (a : Assignment) : Except ConfigError Settings :=
  match a.toRaw with
  | .error cause => .error (.mismatch cause)
  | .ok raw => Settings.checked raw

/-- Two lists of assignments **agree** on a leaf up to the first one that has it; what comes below
that one may differ. -/
inductive Agree (leaf : Leaf) : List Assignment → List Assignment → Prop
  | nil : Agree leaf [] []
  | found {a b : Assignment} (h : a leaf = b leaf) (hsome : (a leaf).isSome)
      {below below' : List Assignment} : Agree leaf (a :: below) (b :: below')
  | next {a b : Assignment} (h : a leaf = b leaf) {below below' : List Assignment}
      (hbelow : Agree leaf below below') : Agree leaf (a :: below) (b :: below')

end Assignment

/-! ### Reading an orderly store -/

namespace Assignment

variable {a b : Assignment} {leaf : Leaf}

theorem firstOf_of_agree {l l' : List Assignment} (h : Agree leaf l l') :
    firstOf l leaf = firstOf l' leaf := by
  rw [firstOf, firstOf]
  induction h with
  | nil => rfl
  | found h hsome =>
    obtain ⟨v, hv⟩ := Option.isSome_iff_exists.mp hsome
    rw [List.findSome?_cons, List.findSome?_cons, ← h, hv]
  | next h _ ih => rw [List.findSome?_cons, List.findSome?_cons, ← h, ih]

/-- The outcome depends on the leaves only. -/
theorem settings_congr (h : ∀ leaf ∈ Leaf.all, a leaf = b leaf) : a.settings = b.settings := by
  have hread {α : Type} (leaf : Leaf) (hleaf : leaf ∈ Leaf.all) (r : Store.Reader α) (d : α) :
      a.read leaf r d = b.read leaf r d := by
    rw [read, read, h leaf hleaf]
  have hraw : a.toRaw = b.toRaw := by
    simp (disch := decide) only [toRaw, hread]
  rw [settings, settings, hraw]

/-- What stands below all layers. -/
def builtIn : Assignment
  | .own _ => none
  | .inside sect field =>
    ([((Section.server, "host"), Scalar.string "0.0.0.0"), ((.server, "port"), .integer 8000),
      ((.log, "level"), .string "info"), ((.log, "json"), .bool false)].lookup (sect, field)).map
        (⟨·, none⟩)

theorem at?_builtIn (hleaf : leaf ∈ Leaf.all) :
    Layer.builtIn.at? leaf = (builtIn leaf).map Stated.store := by
  cases leaf with
  | own key =>
    have hkeys : ∀ key ∈ Leaf.ownKeys, key ∉ ["server", "log"] := by decide
    exact Store.at?_of_not_mem (hkeys key (Leaf.own_mem_all.mp hleaf))
  | inside sect field =>
    obtain ⟨hsect, hfield⟩ := Leaf.inside_mem_all.mp hleaf
    obtain rfl | rfl | rfl : sect = .server ∨ sect = .log ∨ sect = .synthetic := by
      simpa [Section.all] using hsect
    · obtain rfl | rfl | rfl : field = "host" ∨ field = "port" ∨ field = "body_limit_bytes" := by
        simpa [Section.server] using hfield
      all_goals rfl
    · obtain rfl | rfl : field = "level" ∨ field = "json" := by simpa [Section.log] using hfield
      all_goals rfl
    · rfl

theorem read_of_or {α : Type} {r : Store.Reader α} {d : α} {x : Option Stated}
    (h : b leaf = (a leaf).or x) (hx : ∀ v ∈ x, r leaf.name v.store = .ok d) :
    b.read leaf r d = a.read leaf r d := by
  rw [read, read, h]
  cases a leaf with
  | some v => rfl
  | none =>
    cases x with
    | none => rfl
    | some v => exact hx v rfl

/-- What stands below all layers is the same as the defaults of absent leaves. -/
theorem toRaw_of_builtIn (h : ∀ leaf ∈ Leaf.all, b leaf = (a leaf).or (builtIn leaf)) :
    b.toRaw = a.toRaw := by
  have hread {α : Type} (leaf : Leaf) (hleaf : leaf ∈ Leaf.all) (r : Store.Reader α) (d : α)
      (hd : ∀ v ∈ builtIn leaf, r leaf.name v.store = .ok d) : b.read leaf r d = a.read leaf r d :=
    read_of_or (h leaf hleaf) hd
  have htext (leaf : Leaf) (hleaf : leaf ∈ Leaf.all) (hnone : builtIn leaf = none) :
      b.read leaf Store.textOrNull none = a.read leaf Store.textOrNull none :=
    read_of_or (h leaf hleaf) (hnone ▸ fun _ hv => nomatch hv)
  have hhost := hread (.inside .server "host") (by decide) Store.text "0.0.0.0"
    (by rintro _ ⟨⟩; rfl)
  have hport := hread (.inside .server "port") (by decide) Store.natural16 8000
    (by rintro _ ⟨⟩; rfl)
  have hlimit := hread (.inside .server "body_limit_bytes") (by decide) Store.natural (1024 * 1024)
    (by rintro _ ⟨⟩)
  have hlevel := hread (.inside .log "level") (by decide) Store.text "info" (by rintro _ ⟨⟩; rfl)
  have hjson := hread (.inside .log "json") (by decide) Store.flag false (by rintro _ ⟨⟩; rfl)
  simp (disch := decide) only [toRaw, hhost, hport, hlimit, hlevel, hjson, htext]

end Assignment

namespace Store

variable {s : Store} {b : Assignment}

/-- What is given for a section of an orderly store. -/
theorem exists_given (hs : s.Orderly) (sect : Section) (hsect : sect ∈ Section.all) :
    ∃ t, sect.given s = .ok (.named t) ∧ ∀ field, t.get? field = s.at? (.inside sect field) := by
  cases hget : s.get? sect.key with
  | none => exact ⟨.empty, by rw [Section.given, hget], fun field => by rw [at?, hget]; rfl⟩
  | some t =>
    obtain ⟨ms, origin, rfl, -⟩ := (hs.fit_of_get? hget).table sect hsect rfl
    exact ⟨_, by rw [Section.given, hget], fun field => by rw [at?, hget]; rfl⟩

theorem ofStore_eq_toRaw (hs : s.Orderly)
    (h : ∀ leaf ∈ Leaf.all, s.at? leaf = (b leaf).map Stated.store) :
    RawSettings.ofStore s = b.toRaw := by
  obtain ⟨server, hserver, hserverAt⟩ := exists_given hs .server (by decide)
  obtain ⟨log, hlog, hlogAt⟩ := exists_given hs .log (by decide)
  obtain ⟨synthetic, hsynthetic, hsyntheticAt⟩ := exists_given hs .synthetic (by decide)
  have hgiven {sect : Section} {t : Store} (field : String) (hleaf : .inside sect field ∈ Leaf.all)
      (ht : ∀ field, t.get? field = s.at? (.inside sect field)) : sect.field? (.named t) field
        = ((b (.inside sect field)).map Stated.store).map (sect.key ++ "." ++ field, ·) := by
    rw [← h _ hleaf, ← ht]
    rfl
  have hread {α : Type} {sect : Section} {t : Store} (field : String)
      (hleaf : .inside sect field ∈ Leaf.all)
      (ht : ∀ field, t.get? field = s.at? (.inside sect field)) (r : Reader α) (d : α) :
      sect.read (.named t) r d field = b.read (.inside sect field) r d := by
    rw [Section.read, hgiven field hleaf ht, Assignment.read]
    cases b (.inside sect field) <;> rfl
  have hfield (field : String) (hleaf : .inside .synthetic field ∈ Leaf.all) :
      Section.synthetic.readText (.named synthetic) field
        = b.read (.inside .synthetic field) textOrNull none := by
    rw [Section.readText.eq_def, hgiven field hleaf hsyntheticAt, Assignment.read]
    cases b (.inside .synthetic field) <;> rfl
  have hown (key : String) (hleaf : .own key ∈ Leaf.all) :
      ((s.get? key).map (textOrNull key)).getD (.ok none) = b.read (.own key) textOrNull none := by
    have hat : s.get? key = (b (.own key)).map Stated.store := h _ hleaf
    rw [hat, Assignment.read]
    cases b (.own key) <;> rfl
  have hbind {α β : Type} (x : α) (f : α → Except Mismatch β) : Except.ok x >>= f = f x := rfl
  simp (disch := first | decide | assumption) only [RawSettings.ofStore, Assignment.toRaw, hbind,
    hserver, hlog, hsynthetic, hread, hfield, hown]

end Store

/-! ### Layers -/

/-- A layer **gives** an assignment when writing it on an orderly store changes exactly the leaves
of the assignment. -/
def Layer.Gives (layer : Layer) (a : Assignment) : Prop :=
  ∀ s : Store, s.Orderly → (layer.writeTo s).Orderly
    ∧ ∀ leaf ∈ Leaf.all,
      (layer.writeTo s).at? leaf = ((a leaf).map Stated.store).or (s.at? leaf)

end SpeechService
