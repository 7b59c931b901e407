import SpeechService.Proofs.Json.Tokens

/-!
# Trees are put together as they are spelled

`Tree.build` keeps the open brackets in a stack and is told what may come next. The two are as good
as the tokens that were read so far: `Tree.Reaches` says which tokens lead to them, and a step keeps
this up (`Tree.reached_step`). So a tree in which nothing is missing has the tokens that it was put
together from (`Tree.append_eq_of_build`).

The other way round, the tokens of a whole tree are put together to this tree, under any open
brackets and whatever is behind it (`Tree.build_toTokens`).
-/

namespace SpeechService.Json.Tree

/-! ### Every whole tree is built -/

/-- What is built behind a finished value. -/
def buildBehind (t : Tree) (rest : List Token) : List Frame → Tree × List Token
  | [] => (t, rest)
  | frame :: frames => build .commaOrEnd (frame.add t :: frames) rest

variable {e : Expectation} {frames : List Frame} {c : Token} {rest : List Token}

/-- After a token that settles a value, building goes on behind the value. -/
theorem build_cons_of_settle {t : Tree} {fs : List Frame} (h : step e frames c = settle t fs) :
    build e frames (c :: rest) = buildBehind t rest fs := by
  cases fs <;> simp only [build, h, settle, buildBehind]

/-- After any other token that fits, building goes on with what is expected next. -/
theorem build_cons_of_onward {e' : Expectation} {fs : List Frame}
    (h : step e frames c = .onward e' fs) : build e frames (c :: rest) = build e' fs rest := by
  simp only [build, h]

/-- A value may come next. -/
def Expectation.takesValue : Expectation → Bool
  | .value | .valueOrEnd => true
  | _ => false

/-- Where a value is expected, a token starts one, but for the end of an array. -/
theorem step_of_takesValue (he : e.takesValue = true) (frames : List Frame)
    (hc : c ≠ .closeBracket) : step e frames c = start frames c := by
  cases e with
  | value => cases frames <;> cases c <;> rfl
  | valueOrEnd =>
    cases c with
    | closeBracket => exact absurd rfl hc
    | _ => obtain _ | ⟨_ | _, _⟩ := frames <;> rfl
  | _ => exact nomatch he

/-- A value of one token is settled at once. -/
theorem build_cons_of_scalar {t : Tree} (he : e.takesValue = true)
    (ht : start frames c = settle t frames) (hc : c ≠ .closeBracket) :
    build e frames (c :: rest) = buildBehind t rest frames :=
  build_cons_of_settle ((step_of_takesValue he frames hc).trans ht)

/-- A key and its colon. -/
theorem build_key {members : List (List UInt8 × Tree)} {key raw : List UInt8}
    (h : step e (.object members key :: frames) (.string raw)
      = .onward .colon (.object members raw :: frames)) :
    build e (.object members key :: frames) (.string raw :: .colon :: rest)
      = build .value (.object members raw :: frames) rest := by
  rw [build_cons_of_onward h, build_cons_of_onward rfl]

mutual

/-- **Every whole tree is built** from its tokens, whatever stands around it. -/
theorem build_toTokens {e : Expectation} (he : e.takesValue = true) (frames : List Frame)
    (rest : List Token) : ∀ t : Tree, t.isWhole = true →
      build e frames (t.toTokens ++ rest) = buildBehind t rest frames
  | .missing, h => nomatch h
  | .null, _ | .bool _, _ | .number _, _ | .string _, _ => build_cons_of_scalar he rfl nofun
  | .array items closed, h => by
    obtain ⟨hitems, rfl⟩ := Bool.and_eq_true_iff.mp h
    have hopen : step e frames .openBracket = .onward .valueOrEnd (.array [] :: frames) :=
      step_of_takesValue he frames nofun
    rw [toTokens, List.cons_append, List.append_assoc, build_cons_of_onward hopen]
    exact build_items frames rest items hitems
  | .object members closed, h => by
    obtain ⟨hmembers, rfl⟩ := Bool.and_eq_true_iff.mp h
    have hopen : step e frames .openBrace = .onward .keyOrEnd (.object [] [] :: frames) :=
      step_of_takesValue he frames nofun
    rw [toTokens, List.cons_append, List.append_assoc, build_cons_of_onward hopen]
    exact build_members frames rest members hmembers

/-- The items of an array are built up to its closing bracket. -/
theorem build_items (frames : List Frame) (rest : List Token) :
    ∀ items : List Tree, areWhole items = true →
      build .valueOrEnd (.array [] :: frames) (itemTokens [] items ++ ([.closeBracket] ++ rest))
        = buildBehind (.array items true) rest frames
  | [], _ => build_cons_of_settle rfl
  | t :: items, h => by
    obtain ⟨ht, hitems⟩ := Bool.and_eq_true_iff.mp h
    rw [itemTokens, List.nil_append, List.append_assoc, build_toTokens rfl _ _ t ht]
    exact build_moreItems frames rest [t] items hitems

/-- Items behind the first one; `front` are those that are put together, the last one first. -/
theorem build_moreItems (frames : List Frame) (rest : List Token) (front : List Tree) :
    ∀ items : List Tree, areWhole items = true →
      build .commaOrEnd (.array front :: frames)
          (itemTokens [.comma] items ++ ([.closeBracket] ++ rest))
        = buildBehind (.array (front.reverse ++ items) true) rest frames
  | [], _ => by
    rw [List.append_nil]
    exact build_cons_of_settle rfl
  | t :: items, h => by
    obtain ⟨ht, hitems⟩ := Bool.and_eq_true_iff.mp h
    have hcomma : step .commaOrEnd (.array front :: frames) .comma
        = .onward .value (.array front :: frames) := rfl
    have hmore := build_moreItems frames rest (t :: front) items hitems
    rw [List.reverse_cons, List.append_assoc] at hmore
    rw [itemTokens, List.append_assoc, List.singleton_append, build_cons_of_onward hcomma,
      List.append_assoc, build_toTokens rfl _ _ t ht]
    exact hmore

theorem build_members (frames : List Frame) (rest : List Token) :
    ∀ members : List (List UInt8 × Tree), membersAreWhole members = true →
      build .keyOrEnd (.object [] [] :: frames)
          (memberTokens [] members ++ ([.closeBrace] ++ rest))
        = buildBehind (.object members true) rest frames
  | [], _ => build_cons_of_settle rfl
  | (raw, t) :: members, h => by
    obtain ⟨ht, hmembers⟩ := Bool.and_eq_true_iff.mp h
    rw [memberTokens, List.nil_append, List.cons_append, List.cons_append, build_key rfl,
      List.append_assoc, build_toTokens rfl _ _ t ht]
    exact build_moreMembers frames rest [(raw, t)] raw members hmembers

/-- Members behind the first one; `front` are those that are put together, the last one first. -/
theorem build_moreMembers (frames : List Frame) (rest : List Token)
    (front : List (List UInt8 × Tree)) (key : List UInt8) :
    ∀ members : List (List UInt8 × Tree), membersAreWhole members = true →
      build .commaOrEnd (.object front key :: frames)
          (memberTokens [.comma] members ++ ([.closeBrace] ++ rest))
        = buildBehind (.object (front.reverse ++ members) true) rest frames
  | [], _ => by
    rw [List.append_nil]
    exact build_cons_of_settle rfl
  | (raw, t) :: members, h => by
    obtain ⟨ht, hmembers⟩ := Bool.and_eq_true_iff.mp h
    have hcomma : step .commaOrEnd (.object front key :: frames) .comma
        = .onward .key (.object front key :: frames) := rfl
    have hmore := build_moreMembers frames rest ((raw, t) :: front) raw members hmembers
    rw [List.reverse_cons, List.append_assoc] at hmore
    rw [memberTokens, List.append_assoc, List.singleton_append, build_cons_of_onward hcomma,
      List.cons_append, List.cons_append, build_key rfl, List.append_assoc,
      build_toTokens rfl _ _ t ht]
    exact hmore

end

/-! ### What is built was read -/

/-- The tokens in front of the next item or member, where some are there already. -/
def frontOfNext {α : Type} (front : List Token) (there : List α) : List Token :=
  if there.isEmpty then front else [.comma]

theorem itemTokens_append (front : List Token) (items : List Tree) (t : Tree) :
    itemTokens front (items ++ [t])
      = itemTokens front items ++ frontOfNext front items ++ t.toTokens := by
  induction items generalizing front with
  | nil => simp [itemTokens, frontOfNext]
  | cons t' items ih =>
    rw [List.cons_append, itemTokens, ih, itemTokens]
    cases items <;> simp [itemTokens, frontOfNext]

theorem memberTokens_append (front : List Token) (members : List (List UInt8 × Tree))
    (raw : List UInt8) (t : Tree) :
    memberTokens front (members ++ [(raw, t)])
      = memberTokens front members ++ frontOfNext front members
        ++ .string raw :: .colon :: t.toTokens := by
  induction members generalizing front with
  | nil => simp [memberTokens, frontOfNext]
  | cons m members ih =>
    rw [List.cons_append, memberTokens, ih, memberTokens]
    cases members <;> simp [memberTokens, frontOfNext]

/-- The tokens of an open bracket and of what stands in it. -/
def Frame.toTokens : Frame → List Token
  | .array items => .openBracket :: itemTokens [] items.reverse
  | .object members _ => .openBrace :: memberTokens [] members.reverse

/-- The tokens of an open bracket in front of the next value. -/
def Frame.beforeValue : Frame → List Token
  | .array items => (Frame.array items).toTokens ++ frontOfNext [] items
  | .object members key =>
    (Frame.object members key).toTokens ++ frontOfNext [] members ++ [.string key, .colon]

/-- The tokens of open brackets in front of the next value. -/
def beforeValue : List Frame → List Token
  | [] => []
  | frame :: frames => beforeValue frames ++ frame.beforeValue

/-- The tokens **reach** an expectation and the open brackets. -/
inductive Reaches : Expectation → List Frame → List Token → Prop
  | value (frames : List Frame) : Reaches .value frames (beforeValue frames)
  | valueOrEnd (frames : List Frame) :
    Reaches .valueOrEnd (.array [] :: frames) (beforeValue (.array [] :: frames))
  | commaOrEnd (t : Tree) (frame : Frame) (frames : List Frame) :
    Reaches .commaOrEnd (frame.add t :: frames) (beforeValue frames ++ (frame.add t).toTokens)
  | key (m : List UInt8 × Tree) (members : List (List UInt8 × Tree)) (key : List UInt8)
      (frames : List Frame) :
    Reaches .key (.object (m :: members) key :: frames)
      (beforeValue frames ++ ((Frame.object (m :: members) key).toTokens ++ [.comma]))
  | keyOrEnd (key : List UInt8) (frames : List Frame) :
    Reaches .keyOrEnd (.object [] key :: frames)
      (beforeValue frames ++ (Frame.object [] key).toTokens)
  | colon (members : List (List UInt8 × Tree)) (key : List UInt8) (frames : List Frame) :
    Reaches .colon (.object members key :: frames)
      (beforeValue frames
        ++ ((Frame.object members key).toTokens ++ frontOfNext [] members ++ [.string key]))

/-- The tokens reach the place where a token leads. -/
def Progress.Reached (before : List Token) : Progress → Prop
  | .onward e frames => Reaches e frames before
  | .whole t => before = t.toTokens
  | .misfit => True

/-- A frame with one more value has the tokens of the value behind its own. -/
theorem Frame.beforeValue_append (frame : Frame) (t : Tree) :
    frame.beforeValue ++ t.toTokens = (frame.add t).toTokens := by
  cases frame with
  | array items => simp [beforeValue, toTokens, add, itemTokens_append, frontOfNext]
  | object members key => simp [beforeValue, toTokens, add, memberTokens_append, frontOfNext]

/-- A value that is settled was reached by its tokens. -/
theorem reached_settle (t : Tree) (frames : List Frame) :
    (settle t frames).Reached (beforeValue frames ++ t.toTokens) := by
  cases frames with
  | nil => rfl
  | cons frame frames =>
    rw [beforeValue, List.append_assoc, Frame.beforeValue_append]
    exact .commaOrEnd t frame frames

/-- A token that starts a value or a frame reaches just this. -/
theorem reached_start (frames : List Frame) (c : Token) :
    (start frames c).Reached (beforeValue frames ++ [c]) := by
  cases c with
  | openBracket => exact .valueOrEnd frames
  | openBrace => exact .keyOrEnd [] frames
  | null | bool | number | string => exact reached_settle _ frames
  | _ => trivial

/-- Behind the closing bracket stands a finished value. -/
theorem reached_close (frame : Frame) (frames : List Frame)
    (hc : (frame.finish true).toTokens = frame.toTokens ++ [c]) :
    (settle (frame.finish true) frames).Reached (beforeValue frames ++ frame.toTokens ++ [c]) := by
  rw [List.append_assoc, ← hc]
  exact reached_settle _ frames

/-- **One step.** A token leads to where the tokens reach that were read with it. -/
theorem reached_step {before : List Token} (h : Reaches e frames before) (c : Token) :
    (step e frames c).Reached (before ++ [c]) := by
  cases h with
  | value =>
    rw [show step .value frames c = start frames c by cases frames <;> cases c <;> rfl]
    exact reached_start frames c
  | valueOrEnd frames =>
    by_cases hc : c = .closeBracket
    · subst hc
      exact reached_close (.array []) frames rfl
    · rw [step_of_takesValue rfl _ hc]
      exact reached_start _ c
  | commaOrEnd t frame frames =>
    cases frame with
    | array items =>
      cases c with
      | comma =>
        rw [List.append_assoc]
        exact .value (.array (t :: items) :: frames)
      | closeBracket => exact reached_close (.array (t :: items)) frames rfl
      | _ => trivial
    | object members key =>
      cases c with
      | comma =>
        rw [List.append_assoc]
        exact .key (key, t) members key frames
      | closeBrace => exact reached_close (.object ((key, t) :: members) key) frames rfl
      | _ => trivial
  | key m members key frames =>
    cases c with
    | string raw =>
      rw [List.append_assoc]
      exact .colon (m :: members) raw frames
    | _ => trivial
  | keyOrEnd key frames =>
    cases c with
    | string raw =>
      rw [List.append_assoc]
      exact .colon [] raw frames
    | closeBrace => exact reached_close (.object [] key) frames rfl
    | _ => trivial
  | colon members key frames =>
    cases c with
    | colon =>
      rw [List.append_assoc, List.append_assoc (_ ++ _)]
      exact .value (.object members key :: frames)
    | _ => trivial

theorem isWhole_finish_false (frame : Frame) : (frame.finish false).isWhole = false := by
  cases frame <;> exact Bool.and_false _

/-- Where building breaks off, what is left around it is not whole. -/
theorem isWhole_breakOff {t : Tree} (ht : t.isWhole = false) (frames : List Frame) :
    (breakOff t frames).isWhole = false := by
  induction frames generalizing t with
  | nil => exact ht
  | cons frame frames ih => exact ih (isWhole_finish_false _)

/-- Something is missing where the grammar is left. -/
theorem isWhole_abandon (e : Expectation) (frames : List Frame) :
    (abandon e frames).isWhole = false := by
  have hmissing := isWhole_breakOff (t := .missing) rfl
  have hopen (frames : List Frame) : (breakOffOpen frames).isWhole = false := by
    cases frames with
    | nil => rfl
    | cons frame frames => exact isWhole_breakOff (isWhole_finish_false frame) frames
  rw [abandon.eq_def]
  split
  · exact hmissing _
  · exact hmissing _
  · exact hopen _

/-- **A run.** A tree in which nothing is missing has the tokens that were read for it. -/
theorem append_eq_of_build {before ts rest : List Token} {t : Tree} (h : Reaches e frames before)
    (hbuild : build e frames ts = (t, rest)) (ht : t.isWhole = true) :
    before ++ ts = t.toTokens ++ rest := by
  induction ts generalizing e frames before with
  | nil =>
    obtain ⟨rfl, -⟩ := Prod.mk.inj hbuild
    exact absurd ht (by simp [isWhole_abandon])
  | cons c ts ih =>
    have hstep := reached_step h c
    rw [build] at hbuild
    split at hbuild
    · next e' fs heq =>
      rw [heq] at hstep
      rw [← ih hstep hbuild, List.append_assoc, List.singleton_append]
    · next t' heq =>
      rw [heq] at hstep
      obtain ⟨rfl, rfl⟩ := Prod.mk.inj hbuild
      rw [← (hstep : before ++ [c] = _), List.append_assoc, List.singleton_append]
    · obtain ⟨rfl, -⟩ := Prod.mk.inj hbuild
      exact absurd ht (by simp [isWhole_abandon])

/-! ### Texts -/

variable {text rest : List UInt8} {t : Tree}

/-- A text that begins with a tree is read as this tree. -/
theorem ofBytes_of_begins (h : Begins text t rest) (ht : t.isBracketed = true) :
    ofBytes text = (t, tokens rest) := by
  obtain ⟨hwhole, s, rfl, hs⟩ := h
  rw [ofBytes, tokens_append (orderly_of_isBracketed ht) hs]
  exact build_toTokens rfl [] _ t hwhole

/-- A text that is read as a whole tree begins with this tree. -/
theorem exists_begins_of_ofBytes {ts : List Token} (h : ofBytes text = (t, ts))
    (ht : t.isWhole = true) : ∃ rest, Begins text t rest ∧ tokens rest = ts := by
  have htokens : tokens text = t.toTokens ++ ts := append_eq_of_build (.value []) h ht
  obtain ⟨s, rest, rfl, hs, hrest⟩ := exists_spelled_of_tokens htokens (junk_notMem_toTokens t)
  exact ⟨rest, ⟨ht, s, rfl, hs⟩, hrest⟩

end SpeechService.Json.Tree
