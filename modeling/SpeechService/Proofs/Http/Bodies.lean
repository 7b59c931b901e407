import SpeechService.Http.Exchange
import SpeechService.Proofs.Json.Building
import SpeechService.Proofs.Json.Records

/-!
# Which bodies are taken

A body asks for a request when it begins with an object or an array that has its values in their
places (`Http.Asks`). Such a body is spoken (`Session.exchange_of_asks`), while every other one is
refused and changes nothing (`Session.refuses_of_not_asks`).

The values are those that the reader takes: the texts that strings are decoded to, and the doubles
that numbers come out as. How these stand to what the body spells is the subject of
`Proofs/Http/Schema`.
-/

namespace SpeechService

open Json

namespace Http

/-! ### What a body asks for -/

namespace Draft

/-- The names of the fields, in the order in which an array has them. -/
def names : List String := ["text", "voice", "cfgScale", "maxTokens"]

end Draft

/-- The values in their **places** are those of the request. -/
structure Carries (place : String → Option Tree) (q : Request) : Prop where
  text : ∃ t, place "text" = some t ∧ t.IsText q.text
  voice : Optionally Tree.IsText (place "voice") q.voice
  cfgScale : Optionally Tree.IsDouble (place "cfgScale") q.cfgScale
  maxTokens : Optionally (Tree.IsInteger (-9223372036854775808) 9223372036854775807)
    (place "maxTokens") q.maxTokens

/-- The members are those of the request: in any order, with any others between them, and none of
them twice. -/
structure Lists (ms : List (List UInt8 × Tree)) (q : Request) : Prop where
  keys : ∀ m ∈ ms, ∃ key, decodeString? m.1 = some key
  once : ∀ name ∈ Draft.names, (Tree.keys ms).count name ≤ 1
  carries : Carries (Tree.member? ms) q

/-- The number of tokens is given as zero with a minus sign. -/
def HasMinusZero (place : String → Option Tree) : Prop :=
  ∃ t, place "maxTokens" = some t ∧ t.IsMinusZero

/-- The tree **describes** the request. Zero with a minus sign is no number of tokens. -/
inductive Describes : Tree → Request → Prop
  | object {ms closed q} (h : Lists ms q) (hzero : ¬HasMinusZero (Tree.member? ms)) :
    Describes (.object ms closed) q
  /-- An array has the values of the first fields. -/
  | array {ts closed q} (hlength : ts.length ≤ Draft.names.length)
    (h : Carries (Tree.item? Draft.names ts) q)
    (hzero : ¬HasMinusZero (Tree.item? Draft.names ts)) :
    Describes (.array ts closed) q

/-- The body **asks** for the request: it begins with a tree that describes it. -/
def Asks (body : List UInt8) (q : Request) : Prop := ∃ t rest, Begins body t rest ∧ Describes t q

/-! ### Reading a tree -/

namespace Draft

theorem forall_mem_names {P : String → Prop} :
    (∀ name ∈ names, P name) ↔ ∀ f ∈ fields, P f.name :=
  List.forall_mem_map (f := Reader.Field.name) (l := fields)

theorem nodup_names : (fields.map (·.name)).Nodup := by decide

/-- The fields are stored at different places of a draft. -/
theorem pairwise_commute : fields.Pairwise Reader.Commute := by
  simp only [fields, List.pairwise_cons, List.forall_mem_cons, List.not_mem_nil, false_implies,
    implies_true, List.Pairwise.nil, and_true]
  refine ⟨⟨?_, ?_, ?_⟩, ⟨?_, ?_⟩, ?_⟩ <;> exact Reader.commute_field fun _ _ _ => rfl

theorem isText_null (s : String) : ¬Tree.null.IsText s := nofun

theorem isDouble_null (x : Double) : ¬Tree.null.IsDouble x := nofun

theorem isInteger_null {low high : Int} (i : Int) :
    ¬(Tree.null.IsInteger low high i ∧ ¬Tree.null.IsMinusZero) :=
  fun h => nomatch h.1

/-- The reader of integers takes those of 64 bits, but for a zero with a minus sign. -/
theorem integer_eq_ok (t : Tree) (i : Int) :
    Reader.integer (-9223372036854775808) 9223372036854775807 "i64" t = .ok i ↔
      t.IsInteger (-9223372036854775808) 9223372036854775807 i ∧ ¬t.IsMinusZero :=
  Reader.integer_eq_ok (by decide) (by decide) t i

/-- Nothing is missing in a value that a field takes. -/
theorem takeWhole_fields : Reader.TakeWhole fields := by
  simp only [Reader.TakeWhole, fields, List.forall_mem_cons, List.not_mem_nil, false_implies,
    implies_true, and_true]
  refine ⟨fun _ _ _ => Reader.isWhole_of_put fun _ h => ?_,
    fun _ _ _ => Reader.isWhole_of_put fun _ => ?_, fun _ _ _ => Reader.isWhole_of_put fun _ => ?_,
    fun _ _ _ => Reader.isWhole_of_put fun _ => ?_⟩
  · exact ((Reader.text_eq_ok _ _).mp h).isWhole
  · exact Reader.isWhole_of_optional Reader.text_eq_ok isText_null fun _ _ h => h.isWhole
  · exact Reader.isWhole_of_optional Reader.double_eq_ok isDouble_null fun _ _ h => h.isWhole
  · exact Reader.isWhole_of_optional integer_eq_ok isInteger_null fun _ _ h => h.1.isWhole

/-- A zero with a minus sign is left out at its place. -/
theorem optionally_integer {place : String → Option Tree} {v : Option Int} :
    Optionally (fun t i => t.IsInteger (-9223372036854775808) 9223372036854775807 i
        ∧ ¬t.IsMinusZero) (place "maxTokens") v ↔
      Optionally (Tree.IsInteger (-9223372036854775808) 9223372036854775807)
        (place "maxTokens") v ∧ ¬HasMinusZero place := by
  have hnull : ¬Tree.null.IsMinusZero := nofun
  rw [optionally_and hnull, HasMinusZero]
  simp only [not_exists, not_and]

/-- The fields that may be null are filled with the values in their places. -/
theorem fills_tail_iff {place : String → Option Tree} {text : Option String} {d : Draft} :
    Reader.Fills { text } (Reader.placed fields.tail place) d ↔
      d.text = text ∧ Optionally Tree.IsText (place "voice") d.voice ∧
        Optionally Tree.IsDouble (place "cfgScale") d.cfgScale ∧
        Optionally (Tree.IsInteger (-9223372036854775808) 9223372036854775807)
          (place "maxTokens") d.maxTokens ∧ ¬HasMinusZero place := by
  rw [← optionally_integer]
  simp only [fields, List.tail_cons]
  rw [Reader.fills_placed_optional Reader.text_eq_ok isText_null rfl]
  -- The fields are put in one by one, each of them blank in the draft so far.
  constructor
  · rintro ⟨voice, hvoice, h⟩
    rw [Reader.fills_placed_optional Reader.double_eq_ok isDouble_null rfl] at h
    obtain ⟨cfgScale, hcfgScale, h⟩ := h
    rw [Reader.fills_placed_optional integer_eq_ok isInteger_null rfl] at h
    obtain ⟨maxTokens, hmaxTokens, h⟩ := h
    obtain rfl := Reader.fills_nil.mp h
    exact ⟨rfl, hvoice, hcfgScale, hmaxTokens⟩
  · rintro ⟨rfl, hvoice, hcfgScale, hmaxTokens⟩
    refine ⟨_, hvoice, ?_⟩
    rw [Reader.fills_placed_optional Reader.double_eq_ok isDouble_null rfl]
    refine ⟨_, hcfgScale, ?_⟩
    rw [Reader.fills_placed_optional integer_eq_ok isInteger_null rfl]
    exact ⟨_, hmaxTokens, .nil _⟩

/-- A draft is filled with the values in their places, and then is a request. -/
theorem exists_fills_iff {place : String → Option Tree} {q : Request} :
    (∃ d, Reader.Fills {} (Reader.placed fields place) d ∧ d.request = .ok q)
      ↔ Carries place q ∧ ¬HasMinusZero place := by
  have hfields : fields = Reader.field "text" Reader.text false
      (fun d text => { d with text := some text }) :: fields.tail := rfl
  rw [hfields]
  simp only [Reader.fills_placed_cons]
  constructor
  · rintro ⟨d, ⟨-, hfills⟩ | ⟨t, r, ht, hput, hfills⟩, hrequest⟩
    -- Without a text the draft is no request.
    · have htext := (fills_tail_iff.mp hfills).1
      rw [request, htext] at hrequest
      exact nomatch hrequest
    · obtain ⟨s, hs, rfl⟩ := Reader.map_eq_ok.mp hput
      obtain ⟨htext, hvoice, hcfgScale, hmaxTokens, hzero⟩ := fills_tail_iff.mp hfills
      rw [request, htext] at hrequest
      obtain rfl := Except.ok.inj hrequest
      exact ⟨⟨⟨t, ht, (Reader.text_eq_ok t s).mp hs⟩, hvoice, hcfgScale, hmaxTokens⟩, hzero⟩
  · rintro ⟨⟨⟨t, ht, hs⟩, hvoice, hcfgScale, hmaxTokens⟩, hzero⟩
    have hfills : Reader.Fills { text := some q.text } (Reader.placed fields.tail place)
        ⟨some q.text, q.voice, q.cfgScale, q.maxTokens⟩ :=
      fills_tail_iff.mpr ⟨rfl, hvoice, hcfgScale, hmaxTokens, hzero⟩
    have hread := (Reader.text_eq_ok t q.text).mpr hs
    exact ⟨_, .inr ⟨t, _, ht, Reader.map_eq_ok.mpr ⟨q.text, hread, rfl⟩, hfills⟩, rfl⟩

/-- Once the text is there, an array may end anywhere. -/
theorem mayLack_of_mem_drop {n : Nat} (hn : n ≠ 0) : ∀ f ∈ fields.drop n, f.mayLack = true := by
  obtain ⟨n, rfl⟩ := Nat.exists_eq_succ_of_ne_zero hn
  have htail : ∀ f ∈ fields.tail, f.mayLack = true := by simp [fields, Reader.field]
  exact fun f hf => htail f (List.mem_of_mem_drop hf)

/-- A request is a draft in which there is a text. -/
theorem reader_eq_ok_iff_exists {t : Tree} {q : Request} :
    reader t = .ok q ↔
      ∃ d, Reader.record "TtsRequest" fields {} t = .ok d ∧ d.request = .ok q := by
  rw [reader]
  cases Reader.record "TtsRequest" fields {} t <;> simp [bind, Except.bind]

/-- **Reading a tree**: nothing is missing in it, and it describes the request. -/
theorem reader_eq_ok {t : Tree} {q : Request} :
    reader t = .ok q ↔ t.isWhole = true ∧ Describes t q := by
  rw [reader_eq_ok_iff_exists]
  cases t with
  | object ms closed =>
    simp only [Reader.record_object_eq_ok nodup_names takeWhole_fields pairwise_commute]
    constructor
    · rintro ⟨d, ⟨hwhole, hkeys, honce, hfills⟩, hrequest⟩
      obtain ⟨hcarries, hzero⟩ := exists_fills_iff.mp ⟨d, hfills, hrequest⟩
      exact ⟨hwhole, .object ⟨hkeys, forall_mem_names.mpr honce, hcarries⟩ hzero⟩
    · rintro ⟨hwhole, ⟨⟨hkeys, honce, hcarries⟩, hzero⟩⟩
      obtain ⟨d, hfills, hrequest⟩ := exists_fills_iff.mpr ⟨hcarries, hzero⟩
      exact ⟨d, ⟨hwhole, hkeys, forall_mem_names.mp honce, hfills⟩, hrequest⟩
  | array ts closed =>
    simp only [Reader.record_array_eq_ok nodup_names takeWhole_fields]
    constructor
    · rintro ⟨d, ⟨hwhole, hlength, -, hfills⟩, hrequest⟩
      obtain ⟨hcarries, hzero⟩ := exists_fills_iff.mp ⟨d, hfills, hrequest⟩
      exact ⟨hwhole, .array hlength hcarries hzero⟩
    · rintro ⟨hwhole, _ | ⟨hlength, hcarries, hzero⟩⟩
      obtain ⟨d, hfills, hrequest⟩ := exists_fills_iff.mpr ⟨hcarries, hzero⟩
      -- The text is the first item, so that only what may be missing is missing.
      have hne : ts.length ≠ 0 := by
        intro hts
        obtain ⟨t, ht, -⟩ := hcarries.text
        rw [List.eq_nil_of_length_eq_zero hts] at ht
        exact nomatch ht
      exact ⟨d, ⟨hwhole, hlength, mayLack_of_mem_drop hne, hfills⟩, hrequest⟩
  | _ =>
    constructor
    · rintro ⟨d, hd, -⟩
      simp only [Reader.record] at hd
      exact absurd hd Reader.mismatch_ne_ok
    · rintro ⟨-, ⟨⟩⟩

end Draft

/-! ### Reading a body -/

theorem Describes.isBracketed {t : Tree} {q : Request} (h : Describes t q) :
    t.isBracketed = true := by
  cases h <;> rfl

/-- **Reading a body**: it is read as a request exactly if it asks for this request. -/
theorem readRequest_eq_ok {body : List UInt8} {q : Request} :
    readRequest body = .ok q ↔ Asks body q := by
  rw [readRequest, Draft.reader_eq_ok]
  constructor
  · rintro ⟨hwhole, h⟩
    obtain ⟨rest, hbegins, -⟩ := Tree.exists_begins_of_ofBytes rfl hwhole
    exact ⟨_, rest, hbegins, h⟩
  · rintro ⟨t, rest, hbegins, h⟩
    rw [Tree.ofBytes_of_begins hbegins h.isBracketed]
    exact ⟨hbegins.isWhole, h⟩

/-- A text is read in one way only. -/
theorem eq_of_begins {body rest rest' : List UInt8} {t t' : Tree} (h : Begins body t rest)
    (h' : Begins body t' rest') (ht : t.isBracketed = true) (ht' : t'.isBracketed = true) :
    t = t' :=
  congrArg Prod.fst ((Tree.ofBytes_of_begins h ht).symm.trans (Tree.ofBytes_of_begins h' ht'))

/-- **In any order.** Members are those of the request as well in any other order. -/
theorem Lists.of_perm {ms ms' : List (List UInt8 × Tree)} {q : Request} (hp : ms.Perm ms')
    (h : Lists ms q) : Lists ms' q := by
  obtain ⟨hkeys, honce, htext, hvoice, hcfgScale, hmaxTokens⟩ := h
  -- No name that counts stands twice, so that the order does not decide.
  have hplace {name : String} (hname : name ∈ Draft.names) :
      Tree.member? ms name = Tree.member? ms' name := Tree.member?_of_perm hp (honce name hname)
  have hkeysPerm : (Tree.keys ms).Perm (Tree.keys ms') := hp.filterMap _
  rw [hplace (by decide)] at htext hvoice hcfgScale hmaxTokens
  exact ⟨fun m hm => hkeys m (hp.mem_iff.mpr hm),
    fun name hname => hkeysPerm.count_eq name ▸ honce name hname,
    htext, hvoice, hcfgScale, hmaxTokens⟩

/-- The members of an object may stand in any order. -/
theorem Asks.of_perm {body body' rest rest' : List UInt8} {ms ms' : List (List UInt8 × Tree)}
    {q : Request} (hp : ms.Perm ms') (h : Begins body (.object ms true) rest)
    (h' : Begins body' (.object ms' true) rest') (hasks : Asks body q) : Asks body' q := by
  obtain ⟨t, _, hbegins, hdescribes⟩ := hasks
  obtain rfl := eq_of_begins hbegins h hdescribes.isBracketed rfl
  cases hdescribes with
  | object hlists hzero =>
    refine ⟨_, rest', h', .object (hlists.of_perm hp) ?_⟩
    rwa [HasMinusZero, ← Tree.member?_of_perm hp (hlists.once _ (by decide))]

end Http

/-! ### Answering -/

open Http

namespace HttpRequest

variable {r : HttpRequest} {bodyLimit : Nat}

/-- The request is one for speech, with a JSON body within the limit. -/
structure IsForSpeech (r : HttpRequest) (bodyLimit : Nat) : Prop where
  path : r.path = "/v1/tts"
  method : r.method = "POST"
  json : (r.header? "content-type").any MediaType.isJson = true
  size : r.body.length ≤ bodyLimit

/-- The request **for speech** with a body. -/
def forSpeech (body : List UInt8) : HttpRequest where
  method := "POST"
  uri := "/v1/tts"
  headers := [("content-type", "application/json")]
  body := body

/-- A body that is not too large, posted where speech is asked for, is for speech. -/
theorem isForSpeech_forSpeech {body : List UInt8} (h : body.length ≤ bodyLimit) :
    (forSpeech body).IsForSpeech bodyLimit where
  path := by
    change (forSpeech []).path = "/v1/tts"
    decide +kernel
  method := rfl
  json := by
    change ((forSpeech []).header? "content-type").any MediaType.isJson = true
    decide +kernel
  size := h

/-- Of a request for speech only the body is left to look at. -/
theorem IsForSpeech.decide_eq (h : r.IsForSpeech bodyLimit) :
    r.decide bodyLimit = r.decideSpeech bodyLimit := by
  have hother : r.path ≠ "/healthz" := by
    rw [h.path]
    decide
  rw [decide, if_neg hother, if_pos h.path, if_pos h.method]

/-- A body that is read is spoken. -/
theorem IsForSpeech.decide_of_ok (h : r.IsForSpeech bodyLimit) {q : Request}
    (hread : readRequest r.body = .ok q) : r.decide bodyLimit = .speak q := by
  rw [h.decide_eq, decideSpeech, h.json, if_neg (by decide), if_neg (Nat.not_lt.mpr h.size), hread]

theorem IsForSpeech.decide_of_error (h : r.IsForSpeech bodyLimit) {problem : Problem}
    (hread : readRequest r.body = .error problem) :
    r.decide bodyLimit = .reply (failed (.badRequest (problemMessage problem)) false) := by
  rw [h.decide_eq, decideSpeech, h.json, if_neg (by decide), if_neg (Nat.not_lt.mpr h.size), hread]

/-- What is spoken is what the body asks for. -/
theorem IsForSpeech.decide_eq_speak (h : r.IsForSpeech bodyLimit) {q : Request} :
    r.decide bodyLimit = .speak q ↔ Asks r.body q := by
  rw [← readRequest_eq_ok]
  cases hread : readRequest r.body with
  | ok request => simp [h.decide_of_ok hread]
  | error problem => simp [h.decide_of_error hread]

end HttpRequest

namespace Session

variable {B : Backend} (S : Session B) (encoder : Encoder) (bodyLimit : Nat) (r : HttpRequest)

/-- The request is **refused** as a bad one, and nothing else happens. -/
structure Refuses : Prop where
  session_eq : (S.exchange encoder bodyLimit r).1 = S
  status : (S.exchange encoder bodyLimit r).2.status = 400
  body : ∃ message, (S.exchange encoder bodyLimit r).2.body = jsonBytes
    (.object [("errno", .integer 400), ("error", .string message), ("data", .null)])

variable {S encoder bodyLimit r}

/-- A body that asks for nothing is refused, and the session stays as it is. -/
theorem refuses_of_not_asks (h : r.IsForSpeech bodyLimit) (hasks : ¬∃ q, Asks r.body q) :
    S.Refuses encoder bodyLimit r := by
  obtain ⟨problem, hproblem⟩ : ∃ problem, readRequest r.body = .error problem := by
    cases hread : readRequest r.body with
    | error problem => exact ⟨problem, rfl⟩
    | ok q => exact absurd ⟨q, readRequest_eq_ok.mp hread⟩ hasks
  have hexchange : S.exchange encoder bodyLimit r
      = (S, failed (.badRequest (problemMessage problem)) false) := by
    rw [exchange, h.decide_of_error hproblem]
  exact ⟨by rw [hexchange], by rw [hexchange]; rfl, problemMessage problem, by rw [hexchange]; rfl⟩

/-- A body that asks for something is served like that request. -/
theorem exchange_of_asks (h : r.IsForSpeech bodyLimit) {q : Request} (hasks : Asks r.body q) :
    S.exchange encoder bodyLimit r = S.speak encoder q := by
  rw [exchange, h.decide_eq_speak.mpr hasks]

end Session

end SpeechService
