/-
Documents that mean the same. The reader goes through a document once, from left to right, with the fields that it
has had; where it stands between two members, it holds just what the members before it assign. So it accepts an
object where that means a configuration, and comes to that configuration. Main result: however often a document is
changed, and however its white space is, the configuration is the same.
-/
import ScriptHost.Proofs.Config.Meaning
import ScriptHost.Proofs.Config.Outcome

namespace ScriptHost.Config

/-- Neither a list nor an object. -/
def Json.IsScalar : Json → Prop
  | .list _ | .object _ => False
  | _ => True

namespace Reader

variable {text rest : List Char} {bs outer : List Bracket}

/-! ## Values of fields -/

theorem text_of_scan (chars : List Char) :
    (StringState.mk (chars.reverse ++ []) .closed).text = String.ofList chars := by
  simp [StringState.text]

theorem exists_tokens_bracket {value : Json} (h : ¬ value.IsScalar) :
    ∃ c tokens, value.tokens = [c] :: tokens ∧ (c = '[' ∨ c = '\x7b') := by
  cases value with
  | list items => cases items <;> exact ⟨'[', _, rfl, .inl rfl⟩
  | object members => cases members <;> exact ⟨'\x7b', _, rfl, .inr rfl⟩
  | _ => exact absurd trivial h

/-- Lists and objects are for the debugger only. -/
theorem outcome_refused (r : Reader) {f : Field} (hf : f ≠ .debugger) {value : Json} (hvalue : ¬ value.IsScalar)
    (hlayout : Layout value.tokens text) : (r.expecting (.value (.field f))).outcome (text ++ rest) = none := by
  obtain ⟨c, tokens, htokens, hc⟩ := exists_tokens_bracket hvalue
  rw [htokens] at hlayout
  obtain ⟨more, -, htext⟩ := exists_outcome_token hlayout
  have herror : ∃ e, (r.expecting (.value (.field f))).step c = .error e := by
    rcases hc with rfl | rfl <;> cases f <;> first | exact absurd rfl hf | exact ⟨_, rfl⟩
  obtain ⟨e, he⟩ := herror
  rw [htext r (.value (.field f)) trivial]
  exact outcome_of_error he

/-- What a field makes of a value, unless it is the debugger and the value a list or an object. -/
theorem outcome_field (r : Reader) {f : Field} (hf : Follows rest) : ∀ {value : Json},
    f ≠ .debugger ∨ value.IsScalar → Layout value.tokens text →
      (r.expecting (.value (.field f))).outcome (text ++ rest) =
        (value.scalar?.bind fun s => (r.complete (.field f) s).toOption).bind (outcome · rest)
  | .null, _, h => outcome_null r (.field f) h rest
  | .bool b, _, h => outcome_bool r (.field f) h rest
  | .number n, _, h => by
    rw [outcome_number r (.field f) h hf, completeNumber, if_neg (by simp), List.reverse_reverse, Json.scalar?]
    cases readNumber n.text <;> rfl
  | .string pieces, _, h => by
    rw [outcome_quoted r (.field f) h]
    show Option.bind (StringState.scan true ⟨[], StringState.pending none⟩ _) _ = _
    rw [StringState.scan_strict, Json.scalar?, Piece.string?]
    cases Piece.decode none pieces with
    | none => rfl
    | some chars =>
      simp only [Option.map_some, Option.bind_some, text_of_scan]
  | .list items, hf', h =>
    have hvalue : ¬ (Json.list items).IsScalar := not_false
    outcome_refused r (hf'.resolve_right hvalue) hvalue h
  | .object members, hf', h =>
    have hvalue : ¬ (Json.object members).IsScalar := not_false
    outcome_refused r (hf'.resolve_right hvalue) hvalue h

theorem toOption_complete (r : Reader) (f : Field) (s : Scalar) :
    (r.complete (.field f) s).toOption = (r.store f s).toOption.map (expecting · .after) := by
  rw [complete_field]
  cases r.store f s <;> rfl

theorem store_setting (m : Assignment) (c : Config) (p : Point) {f : Field} (hf : f ∈ Group.debugger.fields)
    (s : Scalar) : (store ⟨c, m.settings, bs, p⟩ f s).toOption =
      (f.ofScalar? s).map fun a => ⟨c, (m.set f a).settings, bs, p⟩ := by
  cases f with
  | debugger | loadstat => exact absurd hf (by decide)
  | port =>
    cases s with
    | integer n =>
      simp only [store, Field.ofScalar?]
      split <;> rfl
    | _ => rfl
  | _ => cases s <;> rfl

theorem store_option (m : Assignment) (d : DebuggerSettings) (p : Point) {f : Field} (hf : f ∈ Group.config.fields)
    (s : Scalar) : (store ⟨m.config, d, bs, p⟩ f s).toOption =
      (f.ofScalar? s).map fun a => ⟨(m.set f a).config, d, bs, p⟩ := by
  cases f with
  | debugger | loadstat => cases s <;> rfl
  | _ => exact absurd hf (by decide)

/-- A setting of a debugger is stored with the settings. -/
theorem outcome_setting (m : Assignment) (c : Config) {f : Field} (hf : f ∈ Group.debugger.fields) {value : Json}
    (hlayout : Layout value.tokens text) (hfollows : Follows rest) :
    (Reader.mk c m.settings bs (.value (.field f))).outcome (text ++ rest) =
      (scalarIn f value).bind fun a => (Reader.mk c (m.set f a).settings bs .after).outcome rest := by
  have hne : f ≠ .debugger := by
    rintro rfl
    exact absurd hf (by decide)
  let r : Reader := ⟨c, m.settings, bs, .value (.field f)⟩
  show (r.expecting (.value (.field f))).outcome (text ++ rest) = _
  rw [outcome_field r hfollows (.inl hne) hlayout, scalarIn, Option.bind_assoc, Option.bind_assoc]
  refine Option.bind_congr fun s _ => ?_
  rw [toOption_complete, store_setting m c _ hf, Option.map_map, Option.bind_map]
  rfl

/-- A scalar of the configuration is stored there. -/
theorem outcome_option (m : Assignment) (d : DebuggerSettings) {f : Field} (hf : f ∈ Group.config.fields) {value : Json}
    (hscalar : f ≠ .debugger ∨ value.IsScalar) (hlayout : Layout value.tokens text) (hfollows : Follows rest) :
    (Reader.mk m.config d bs (.value (.field f))).outcome (text ++ rest) =
      (scalarIn f value).bind fun a => (Reader.mk (m.set f a).config d bs .after).outcome rest := by
  let r : Reader := ⟨m.config, d, bs, .value (.field f)⟩
  show (r.expecting (.value (.field f))).outcome (text ++ rest) = _
  rw [outcome_field r hfollows hscalar hlayout, scalarIn, Option.bind_assoc, Option.bind_assoc]
  refine Option.bind_congr fun s _ => ?_
  rw [toOption_complete, store_option m d _ hf, Option.map_map, Option.bind_map]
  rfl

/-! ## Objects and lists of settings -/

/-- The outcome of a reader that is at some point in some brackets, whatever it holds besides. -/
def Yields (holds : Config → DebuggerSettings → Prop) (bs : List Bracket) (p : Point) (text : List Char)
    (out : Option Config) : Prop :=
  ∀ c d, holds c d → (Reader.mk c d bs p).outcome text = out

/-- The fields that were seen are those that have a value. -/
def Sees (g : Group) (seen : List Field) (m : Assignment) : Prop := ∀ f ∈ g.fields, f ∈ seen ↔ (m f).isSome = true

theorem sees_empty (g : Group) : Sees g [] .empty := by
  intro f _
  simp [Assignment.empty]

theorem Sees.set {g : Group} {seen : List Field} {m : Assignment} (h : Sees g seen m) (f : Field) (a : f.Holds) :
    Sees g (seen ++ [f]) (m.set f a) := by
  intro f' hf'
  by_cases he : f' = f
  · subst he
    simp
  · rw [Assignment.set_of_ne he, ← h f' hf']
    simp [he]

/-- How a reader takes the values of a group, where it holds what an assignment says. -/
def Takes (value? : (f : Field) → Json → Option f.Holds) (g : Group)
    (holds : Assignment → Config → DebuggerSettings → Prop) : Prop :=
  ∀ {f : Field} {value : Json} {text rest : List Char} {bs : List Bracket} {m : Assignment}
    {k : f.Holds → Option Config}, f ∈ g.fields → Layout value.tokens text → Follows rest →
    (∀ a, Yields (holds (m.set f a)) bs .after rest (k a)) →
    Yields (holds m) bs (.value (.field f)) (text ++ rest) ((value? f value).bind k)

section Objects

variable {value? : (f : Field) → Json → Option f.Holds} {g : Group}
  {holds : Assignment → Config → DebuggerSettings → Prop} {k : Assignment → Option Config} {seen : List Field}
  {m : Assignment}

/-- A key and its colon. No field comes twice. -/
theorem exists_outcome_memberKey (c : Config) (d : DebuggerSettings) {p : Point} (hp : p = .opened ∨ p = .comma)
    {key : List Piece} {tokens : List (List Char)} (hlayout : Layout (Piece.quoted key :: [':'] :: tokens) text) :
    ∃ more, Layout tokens more ∧ ∀ rest,
      (Reader.mk c d (.settings g .object seen :: outer) p).outcome (text ++ rest) =
        (Piece.string? key).bind fun name => match g.field? name with
          | none => (Reader.mk c d (.settings g .object seen :: outer) (.value .skipped)).outcome (more ++ rest)
          | some f =>
            if f ∈ seen then none
            else
              (Reader.mk c d (.settings g .object (seen ++ [f]) :: outer) (.value (.field f))).outcome
                (more ++ rest) := by
  obtain ⟨back, hback, htext⟩ := exists_outcome_token hlayout
  obtain ⟨more, hmore, hcolon⟩ := exists_outcome_token hback
  refine ⟨more, hmore, fun rest => ?_⟩
  let r : Reader := ⟨c, d, .settings g .object seen :: outer, p⟩
  show (r.expecting p).outcome (text ++ rest) = _
  rw [htext r p (Point.isGap_of_first hp), outcome_quotedKey hp rfl rfl, Piece.string?]
  show Option.bind (StringState.scan true ⟨[], StringState.pending none⟩ _) _ = _
  rw [StringState.scan_strict]
  cases Piece.decode none key with
  | none => rfl
  | some chars =>
    simp only [Option.map_some, Option.bind_some, text_of_scan, completeKey, r]
    -- the name decides what the value is read for, and a field that was seen ends the reading
    cases hfield : g.field? (String.ofList chars) with
    | none => exact (hcolon r (.colon .skipped) trivial rest).trans (outcome_colon r .skipped _)
    | some f =>
      by_cases hseen : f ∈ seen
      · simp only [if_pos hseen]
        rfl
      · let r' : Reader := ⟨c, d, .settings g .object (seen ++ [f]) :: outer, p⟩
        simp only [if_neg hseen]
        exact (hcolon r' (.colon (.field f)) trivial rest).trans (outcome_colon r' (.field f) _)

/-- A member and those behind it, if the object is as it should be from there on. -/
theorem yields_member (htakes : Takes value? g holds) {p : Point} (hp : p = .opened ∨ p = .comma)
    (hsees : Sees g seen m) {key : List Piece} {value : Json} {members : List Member}
    (hlayout : Layout (Piece.quoted key :: [':'] :: (value.tokens ++ memberTokens members)) text)
    (hrest : ∀ {seen m more}, Sees g seen m → Layout (memberTokens members) more →
      Yields (holds m) (.settings g .object seen :: outer) .after (more ++ rest)
        ((assignMembers value? g members m).bind k)) :
    Yields (holds m) (.settings g .object seen :: outer) p (text ++ rest)
      ((assignMembers value? g ((key, value) :: members) m).bind k) := by
  intro c d hholds
  obtain ⟨more, hmore, hmember⟩ := exists_outcome_memberKey c d hp hlayout
  obtain ⟨front, back, rfl, hfront, hback⟩ := hmore.exists_of_append
  have hfollows := follows_memberTokens hback rest
  rw [hmember, assignMembers_cons, List.append_assoc]
  cases hname : Piece.string? key with
  | none => simp [assignMember, hname]
  | some name =>
    rw [Option.bind_some]
    cases hfield : g.field? name with
    | none =>
      let r : Reader := ⟨c, d, .settings g .object seen :: outer, .value .skipped⟩
      rw [assignMember_unknown hname hfield]
      exact (outcome_skipped r hfollows value hfront).trans (hrest hsees hback c d hholds)
    | some f =>
      have hmem : f ∈ g.fields := List.mem_of_find?_eq_some hfield
      rw [assignMember_known hname hfield]
      by_cases hseen : f ∈ seen
      · rw [Assignment.add?, if_pos ((hsees f hmem).1 hseen)]
        exact if_pos hseen
      · -- the field is new: its value is stored, and the members behind it start from there
        have hfree : m f = none := by
          simpa using mt (hsees f hmem).2 hseen
        have hvalue := htakes (k := fun a => (assignMembers value? g members (m.set f a)).bind k) hmem hfront hfollows
          (fun a => hrest (hsees.set f a) hback) c d hholds
        rw [Assignment.add?_of_none hfree, Option.bind_map, Option.bind_assoc]
        exact (if_neg hseen).trans hvalue

/-- The members behind another one, and the bracket that closes the object. -/
theorem yields_members (htakes : Takes value? g holds)
    (hclose : ∀ {seen m c d}, holds m c d →
      (close ⟨c, d, .settings g .object seen :: outer, .after⟩).outcome rest = k m) :
    ∀ (members : List Member) {seen : List Field} {m : Assignment} {text : List Char}, Sees g seen m →
      Layout (memberTokens members) text → Yields (holds m) (.settings g .object seen :: outer) .after (text ++ rest)
        ((assignMembers value? g members m).bind k)
  | [], seen, m, text, _, h => by
    intro c d hholds
    let r : Reader := ⟨c, d, .settings g .object seen :: outer, .after⟩
    exact (outcome_close (r := r) (.inr rfl) rfl (.inr ⟨rfl, rfl⟩) h rest).trans (hclose hholds)
  | (key, value) :: members, seen, m, text, hsees, h => by
    intro c d hholds
    let r : Reader := ⟨c, d, .settings g .object seen :: outer, .after⟩
    obtain ⟨more, hmore, hcomma⟩ := exists_outcome_comma (r := r) rfl rfl h
    exact (hcomma rest).trans
      (yields_member htakes (.inr rfl) hsees hmore (yields_members htakes hclose members) c d hholds)

/-- An object of settings, behind its opening bracket. -/
theorem exists_yields_object (htakes : Takes value? g holds)
    (hclose : ∀ {seen m c d}, holds m c d →
      (close ⟨c, d, .settings g .object seen :: outer, .after⟩).outcome rest = k m)
    {members : List Member} (h : Layout (Json.object members).tokens text) : ∃ more,
      (∀ (r : Reader) (p : Point), p.IsGap →
        (r.expecting p).outcome (text ++ rest) = (r.expecting p).outcome ('\x7b' :: (more ++ rest))) ∧
      Yields (holds .empty) (.settings g .object [] :: outer) .opened (more ++ rest)
        ((assignMembers value? g members .empty).bind k) := by
  cases members with
  | nil =>
    obtain ⟨more, hmore, htext⟩ := exists_outcome_token h
    refine ⟨more, fun r p hp => htext r p hp rest, fun c d hholds => ?_⟩
    let r : Reader := ⟨c, d, .settings g .object [] :: outer, .opened⟩
    exact (outcome_close (r := r) (.inl rfl) rfl (.inr ⟨rfl, rfl⟩) hmore rest).trans (hclose hholds)
  | cons member members =>
    obtain ⟨more, hmore, htext⟩ := exists_outcome_token h
    exact ⟨more, fun r p hp => htext r p hp rest,
      yields_member htakes (.inl rfl) (sees_empty g) hmore (yields_members htakes hclose members)⟩

end Objects

/-! ## The debugger -/

/-- A reader inside the settings of a debugger. -/
def HoldsSettings (c : Config) (m : Assignment) (c' : Config) (d : DebuggerSettings) : Prop := c' = c ∧ d = m.settings

theorem takes_settings (c : Config) : Takes scalarIn .debugger (HoldsSettings c) := by
  rintro f value text rest bs m k hf hlayout hfollows hk c' d ⟨rfl, rfl⟩
  rw [outcome_setting m c' hf hlayout hfollows]
  exact Option.bind_congr fun a _ => hk a c' _ ⟨rfl, rfl⟩

/-- An item of a list is the value of the field whose turn it is. -/
theorem outcome_element {c : Config} {d : DebuggerSettings} {p : Point} (hp : p = .opened ∨ p = .comma)
    {seen fields : List Field} {f : Field} (hfields : Group.debugger.fields = seen ++ f :: fields) {value : Json}
    (hlayout : Layout value.tokens text) (rest : List Char) :
    (Reader.mk c d (.settings .debugger .list seen :: outer) p).outcome (text ++ rest) =
      (Reader.mk c d (.settings .debugger .list (seen ++ [f]) :: outer) (.value (.field f))).outcome
        (text ++ rest) := by
  let r : Reader := ⟨c, d, .settings .debugger .list seen :: outer, p⟩
  let r' : Reader := ⟨c, d, .settings .debugger .list (seen ++ [f]) :: outer, p⟩
  show (r.expecting p).outcome (text ++ rest) = (r'.expecting (.value (.field f))).outcome (text ++ rest)
  have hturn : Group.debugger.fields[seen.length]? = some f := by
    rw [hfields, List.getElem?_append_right le_rfl, Nat.sub_self]
    rfl
  refine outcome_value (Point.isGap_of_first hp) hlayout (fun ch hch => ?_) rest
  rcases hp with rfl | rfl <;>
    simp [r, r', step, expecting, hch.space, hch.bracket, stepOpened, stepComma, startElement, hturn, Bracket.shape]

/-- A list of settings from one of its items on: an item for which no field is left is an error. -/
theorem outcome_item {c : Config} {p : Point} (hp : p = .opened ∨ p = .comma) {seen fields : List Field} {f : Field}
    (hfields : Group.debugger.fields = seen ++ f :: fields) {m : Assignment} {item : Json} {items : List Json}
    {out : Assignment → Option Config} (hlayout : Layout (item.tokens ++ itemTokens items) text)
    (hrest : ∀ {m more}, Layout (itemTokens items) more →
      (Reader.mk c m.settings (.settings .debugger .list (seen ++ [f]) :: outer) .after).outcome (more ++ rest) =
        (assignItems fields items m).bind out) :
    (Reader.mk c m.settings (.settings .debugger .list seen :: outer) p).outcome (text ++ rest) =
      (assignItems (f :: fields) (item :: items) m).bind out := by
  obtain ⟨front, back, rfl, hfront, hback⟩ := hlayout.exists_of_append
  have hmem : f ∈ Group.debugger.fields := by
    rw [hfields]
    exact List.mem_append_right seen List.mem_cons_self
  rw [List.append_assoc, outcome_element hp hfields hfront,
    outcome_setting m c hmem hfront (follows_itemTokens hback rest), assignItems, Option.bind_assoc]
  exact Option.bind_congr fun a _ => hrest hback

/-- Further items of a list of settings, and the bracket that closes it. -/
theorem outcome_items (c : Config) : ∀ (items : List Json) {seen fields : List Field} {m : Assignment}
    {text : List Char}, Group.debugger.fields = seen ++ fields → Layout (itemTokens items) text →
      (Reader.mk c m.settings (.settings .debugger .list seen :: outer) .after).outcome (text ++ rest) =
        (assignItems fields items m).bind fun m' =>
          (Reader.mk { c with debugger := some m'.settings } m'.settings outer .after).outcome rest
  | [], seen, fields, m, text, hfields, h => by
    let r : Reader := ⟨c, m.settings, .settings .debugger .list seen :: outer, .after⟩
    rw [assignItems]
    exact outcome_close (r := r) (.inr rfl) rfl (.inl ⟨rfl, rfl⟩) h rest
  | item :: items, seen, [], m, text, hfields, h => by
    obtain ⟨more, hmore, htext⟩ := exists_outcome_token h
    let r : Reader := ⟨c, m.settings, .settings .debugger .list seen :: outer, .after⟩
    show (r.expecting .after).outcome (text ++ rest) = _
    have hcomma : (r.expecting .after).step ',' = .ok (r.expecting .lastComma) := by
      simp [r, step, expecting, isSpace, stepAfter, full, hfields, Bracket.shape]
    obtain ⟨ch, token, tokens, htokens, hch⟩ := exists_tokens_begins item
    rw [htokens] at hmore
    obtain ⟨more', -, htext'⟩ := exists_outcome_token hmore
    -- every field has its item, so the reader stops at the first character behind the comma
    have herror : (r.expecting .lastComma).step ch = .error .trailingCharacters := by
      simp [step, expecting, hch.space, hch.bracket]
    rw [htext r .after trivial, List.singleton_append, outcome_of_step hcomma, htext' r .lastComma trivial,
      List.cons_append, outcome_of_error herror]
    rfl
  | item :: items, seen, f :: fields, m, text, hfields, h => by
    let r : Reader := ⟨c, m.settings, .settings .debugger .list seen :: outer, .after⟩
    have hfull : full (.settings .debugger .list seen) = false := by
      simp [full, hfields]
    obtain ⟨more, hmore, hcomma⟩ := exists_outcome_comma (r := r) rfl hfull h
    refine (hcomma rest).trans ?_
    refine outcome_item (.inr rfl) hfields hmore fun hmore => outcome_items c items ?_ hmore
    rw [hfields, List.append_assoc]
    rfl

/-- The settings of a debugger go into the configuration as a whole. -/
theorem outcome_debugger (c : Config) (d : DebuggerSettings) : ∀ {value : Json}, ¬ value.IsScalar →
    Layout value.tokens text → (Reader.mk c d bs (.value (.field .debugger))).outcome (text ++ rest) =
      (debuggerIn? value).bind fun s => (Reader.mk { c with debugger := some s } s bs .after).outcome rest
  | .object members, _, h => by
    let r : Reader := ⟨c, d, bs, .value (.field .debugger)⟩
    show (r.expecting (.value (.field .debugger))).outcome (text ++ rest) = _
    -- what the object assigned goes into the configuration when its bracket closes
    have hclose : ∀ {seen m c' d'}, HoldsSettings c m c' d' →
        (close ⟨c', d', .settings .debugger .object seen :: bs, .after⟩).outcome rest =
          (Reader.mk { c with debugger := some m.settings } m.settings bs .after).outcome rest := by
      rintro seen m _ _ ⟨rfl, rfl⟩
      rfl
    obtain ⟨more, htext, hmore⟩ := exists_yields_object
      (k := fun m => (Reader.mk { c with debugger := some m.settings } m.settings bs .after).outcome rest)
      (takes_settings c) hclose h
    have hopen : (r.expecting (.value (.field .debugger))).step '\x7b' =
        .ok ⟨c, .default, .settings .debugger .object [] :: bs, .opened⟩ := rfl
    rw [htext r (.value (.field .debugger)) trivial, outcome_of_step hopen, debuggerIn?, Option.bind_map]
    exact hmore c .default ⟨rfl, rfl⟩
  | .list items, _, h => by
    let r : Reader := ⟨c, d, bs, .value (.field .debugger)⟩
    show (r.expecting (.value (.field .debugger))).outcome (text ++ rest) = _
    have hopen : (r.expecting (.value (.field .debugger))).step '[' =
        .ok ⟨c, .default, .settings .debugger .list [] :: bs, .opened⟩ := rfl
    rw [debuggerIn?, Option.bind_map]
    cases items with
    | nil =>
      obtain ⟨more, hmore, htext⟩ := exists_outcome_token h
      let opened : Reader := ⟨c, .default, .settings .debugger .list [] :: bs, .opened⟩
      rw [htext r (.value (.field .debugger)) trivial, List.singleton_append, outcome_of_step hopen]
      exact outcome_close (r := opened) (.inl rfl) rfl (.inl ⟨rfl, rfl⟩) hmore rest
    | cons item items =>
      obtain ⟨more, hmore, htext⟩ := exists_outcome_token h
      rw [htext r (.value (.field .debugger)) trivial, List.singleton_append, outcome_of_step hopen]
      exact outcome_item (m := .empty) (.inl rfl) rfl hmore fun hmore => outcome_items c items rfl hmore
  | .null, hvalue, _ | .bool _, hvalue, _ | .number _, hvalue, _ | .string _, hvalue, _ => absurd trivial hvalue

/-! ## The configuration -/

/-- A reader inside a configuration. -/
def HoldsConfig (m : Assignment) (c : Config) (_ : DebuggerSettings) : Prop := c = m.config

theorem takes_config : Takes valueIn .config HoldsConfig := by
  rintro f value text rest bs m k hf hlayout hfollows hk c d rfl
  by_cases hscalar : f ≠ .debugger ∨ value.IsScalar
  · have hvalue : valueIn f value = scalarIn f value := by
      cases f <;> cases value <;> first | rfl | exact (hscalar.elim (fun h => h rfl) not_false).elim
    rw [outcome_option m d hf hscalar hlayout hfollows, hvalue]
    exact Option.bind_congr fun a _ => hk a _ d rfl
  · obtain ⟨rfl, hnot⟩ : f = .debugger ∧ ¬ value.IsScalar := by simpa using hscalar
    have hvalue : (valueIn .debugger value).bind k = (debuggerIn? value).bind fun s => k (some s) := by
      cases value <;> first | exact absurd trivial hnot | exact Option.bind_map ..
    rw [outcome_debugger m.config d hnot hlayout, hvalue]
    exact Option.bind_congr fun s _ => hk (some s) _ s rfl

end Reader

/-- The reader comes to what a document means, and accepts no object that means nothing. -/
theorem ofJson_written {members : List Member} {text : String} (h : Written members text.toList) :
    (ofJson text).toOption = meaning? members := by
  obtain ⟨front, blank, hlayout, hblank, htext⟩ := h
  show Reader.start.outcome text.toList = _
  have hclose : ∀ {seen m c d}, Reader.HoldsConfig m c d →
      (Reader.close ⟨c, d, [.settings .config .object seen], .after⟩).outcome blank = some m.config := by
    rintro seen m c d rfl
    let r : Reader := ⟨m.config, d, [], .after⟩
    show r.outcome blank = _
    rw [← List.append_nil blank, Reader.outcome_blank (r := r) trivial hblank]
    rfl
  obtain ⟨more, hfront, hmore⟩ :=
    Reader.exists_yields_object (k := fun m => some m.config) Reader.takes_config hclose hlayout
  have hopen : (Reader.start.expecting (.value .document)).step '\x7b' =
      .ok ⟨.default, .default, [.settings .config .object []], .opened⟩ := rfl
  show (Reader.start.expecting (.value .document)).outcome text.toList = _
  rw [htext, hfront Reader.start (.value .document) trivial, Reader.outcome_of_step hopen, meaning?,
    Option.map_eq_bind]
  exact hmore .default .default rfl

/-- Changes of a document, as many as there are, and of its white space do not change the configuration. -/
theorem equivalent_documents {members members' : List Member} {text text' : String} {c : Config}
    (hw : Written members text.toList) (hc : ofJson text = .ok c)
    (hchange : Relation.ReflTransGen DocumentChange members members') (hw' : Written members' text'.toList) :
    ofJson text' = .ok c := by
  have hmeaning : meaning? members = some c := by
    rw [← ofJson_written hw, hc]
    rfl
  -- the reader is gone by now: each change is followed in the meaning of the members alone
  have hsame : meaning? members' = some c := by
    clear hw'
    induction hchange with
    | refl => exact hmeaning
    | tail _ hstep ih => exact hstep.meaning? ih
  have hread : (ofJson text').toOption = some c := (ofJson_written hw').trans hsame
  cases hresult : ofJson text' with
  | error e =>
    rw [hresult] at hread
    cases hread
  | ok c' =>
    rw [hresult] at hread
    cases hread
    rfl

/-- A member that is dropped, one that moves, and one that is dropped and another that is added further in. -/
theorem equivalent_documents_nested :
    ofJson "\x7b\"loadstat\":false,\"debugger\":\x7b\"port\":5001,\"wait_source\":true\x7d\x7d" =
      .ok ⟨some ⟨5001, "websocket", true, false⟩, false⟩ ∧
    ofJson "\x7b \"debugger\": \x7b\"n\": [\x7b\"port\":[]\x7d], \"wait_source\": true\x7d\n\x7d\n" =
      .ok ⟨some ⟨5001, "websocket", true, false⟩, false⟩ := by
  let loadstat : Member := (Piece.plains "loadstat" (by decide), .bool false)
  let port : Member := (Piece.plains "port" (by decide), .number (.ofWhole "5001".toList (by decide)))
  let wait : Member := (Piece.plains "wait_source" (by decide), .bool true)
  let nested : Member := (Piece.plains "n" (by decide), .list [.object [(Piece.plains "port" (by decide), .list [])]])
  let debugger : List Member → Member := fun inner => (Piece.plains "debugger" (by decide), .object inner)
  have hw : Written [loadstat, debugger [port, wait]]
      "\x7b\"loadstat\":false,\"debugger\":\x7b\"port\":5001,\"wait_source\":true\x7d\x7d".toList :=
    ⟨_, [], .of_blanks (List.replicate 17 []) _ rfl (by decide), by decide, rfl⟩
  have hw' : Written [debugger [nested, wait]]
      "\x7b \"debugger\": \x7b\"n\": [\x7b\"port\":[]\x7d], \"wait_source\": true\x7d\n\x7d\n".toList :=
    ⟨_, ['\n'], .of_blanks [[], [' '], [], [' '], [], [], [' '], [], [], [], [], [], [], [], [], [' '], [], [' '], [],
      ['\n']] _ rfl (by decide), by decide, rfl⟩
  -- the first member moves and goes, then one goes and another comes further in
  have hmove : DocumentChange [loadstat, debugger [port, wait]] [debugger [port, wait], loadstat] :=
    .top (.permute (.swap ..))
  have hdrop : DocumentChange [debugger [port, wait], loadstat] [debugger [port, wait]] :=
    .top (@Change.remove _ [debugger [port, wait]] [] _ .loadstat _ (Piece.string?_plains _) (by decide) .loadstat)
  have hdropPort : DocumentChange [debugger [port, wait]] [debugger [wait]] :=
    @DocumentChange.debugger [] [] _ _ _ (Piece.string?_plains _)
      (@Change.remove _ [] [wait] _ .port _ (Piece.string?_plains _) (by decide) (.port rfl))
  have hadd : DocumentChange [debugger [wait]] [debugger [nested, wait]] :=
    @DocumentChange.debugger [] [] _ _ _ (Piece.string?_plains _)
      (@Change.insert _ [] [wait] _ "n" _ (Piece.string?_plains _) (by decide))
  have hread : ofJson "\x7b\"loadstat\":false,\"debugger\":\x7b\"port\":5001,\"wait_source\":true\x7d\x7d" =
      .ok ⟨some ⟨5001, "websocket", true, false⟩, false⟩ := rfl
  have hchange := (((Relation.ReflTransGen.refl.tail hmove).tail hdrop).tail hdropPort).tail hadd
  exact ⟨hread, equivalent_documents hw hread hchange hw'⟩

end ScriptHost.Config
