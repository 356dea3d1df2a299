import Responder.Json.Writer
import Responder.Proofs.Json.Margins
import Responder.Proofs.Json.Members

/-!
# Compact texts are read back

The scanner cuts the compact text of a value into its tokens, and these build the value again.
Strings are read back whatever they hold, and so is what is made of values that are. Main
statement: a value that is legible is what its compact text is parsed as, if it is not nested too
deeply.
-/

namespace Responder.Json

open Text (isWhite)

/-- What may stand behind a value: nothing, a comma, or the end of a container. -/
def Ends (rest : List Char) : Prop := ∀ c ∈ rest.head?, c = ',' ∨ c = ']' ∨ c = '\x7d'

/-- Wherever it stands, a value is cut into these tokens, and they build this raw value; the value
is nested so deeply. -/
structure Spelling (value : Json) (depth : Nat) (tokens : List Token) (raw : Raw) : Prop where
  scanned : ∀ rest, Ends rest → Pending.blank.readOut (value.compact ++ rest) =
    (Pending.blank.readOut rest).map (tokens ++ ·)
  built : ∀ expecting frames rest, expecting = .value ∨ expecting = .firstItem →
    (tokens ++ rest).foldlM Builder.step ⟨frames, expecting, none⟩ =
      rest.foldlM Builder.step (.deliver raw frames)
  valued : ∀ room, depth < room → raw.toJson room = .ok value

/-- A value that is read back from its compact text, nested so deeply. -/
def Legible (depth : Nat) (value : Json) : Prop := ∃ tokens raw, Spelling value depth tokens raw

namespace Pending

/-- A character that completes no token. -/
theorem readOut_silent {p : Pending} {c : Char} (next : Pending) (rest : List Char)
    (stepped : p.step c = .ok ([], next)) : p.readOut (c :: rest) = next.readOut rest := by
  rw [readOut, stepped]
  exact Option.map_id'

theorem readOut_token {p : Pending} {c : Char} (token : Token) (next : Pending) (rest : List Char)
    (stepped : p.step c = .ok ([token], next)) :
    p.readOut (c :: rest) = (next.readOut rest).map (token :: ·) := by
  rw [readOut, stepped]
  rfl

theorem hexDigit?_hexDigitChar : ∀ n < 16, hexDigit? (hexDigitChar n) = some n := by
  decide

theorem ofEscape_toNat {c : Char} (control : c.toNat < 0x20) :
    TextUnit.ofEscape c.toNat = .scalar c := by
  have high : ¬ 0xD800 ≤ c.toNat := by omega
  have low : ¬ 0xDC00 ≤ c.toNat := by omega
  simp [TextUnit.ofEscape, TextUnit.isHigh, TextUnit.isLow, high, low, Char.ofNat_toNat]

variable {units : List TextUnit} {rest : List Char}

/-- An escape of one letter stands for its character. -/
theorem readOut_shortEscape {letter c : Char} (short : shortEscape? letter = some c)
    (other : letter ≠ 'u') : (string units .none).readOut ('\\' :: letter :: rest) =
      (string (.scalar c :: units) .none).readOut rest := by
  rw [readOut_silent (string units .backslash) _ rfl]
  apply readOut_silent
  simp only [step, inString, if_neg other, short]

/-- So does one of four digits for a control character. -/
theorem readOut_controlEscape {c : Char} (control : c.toNat < 0x20) :
    (string units .none).readOut ('\\' :: 'u' :: '0' :: '0' :: hexDigitChar (c.toNat / 16) ::
      hexDigitChar (c.toNat % 16) :: rest) = (string (.scalar c :: units) .none).readOut rest := by
  have third := hexDigit?_hexDigitChar (c.toNat / 16) (by omega)
  have fourth := hexDigit?_hexDigitChar (c.toNat % 16) (by omega)
  have whole : c.toNat / 16 * 16 + c.toNat % 16 = c.toNat := by omega
  rw [readOut_silent (string units .backslash) _ rfl,
    readOut_silent (string units (.unicode 0 0)) _ rfl,
    readOut_silent (string units (.unicode 1 0)) _ rfl,
    readOut_silent (string units (.unicode 2 0)) _ rfl,
    readOut_silent (string units (.unicode 3 (c.toNat / 16)))]
  · apply readOut_silent
    simp [step, inString, fourth, whole, ofEscape_toNat control]
  · simp [step, inString, third]

/-- A character is read back, escaped or not. -/
theorem readOut_escapeChar (c : Char) :
    (string units .none).readOut (escapeChar c ++ rest) =
      (string (.scalar c :: units) .none).readOut rest := by
  unfold escapeChar
  -- Seven characters have a letter of their own.
  iterate 7
    split
    · next same =>
      subst same
      exact readOut_shortEscape rfl (by decide)
  split
  · next control => exact readOut_controlEscape control
  · next quote backslash _ _ _ _ _ plain =>
    apply readOut_silent
    simp only [step, inString, if_neg quote, if_neg backslash, if_neg plain]

theorem readOut_escaped (text : List Char) :
    (string units .none).readOut (text.flatMap escapeChar ++ rest) =
      (string ((text.map TextUnit.scalar).reverse ++ units) .none).readOut rest := by
  induction text generalizing units with
  | nil => rfl
  | cons c text ih =>
    rw [List.flatMap_cons, List.append_assoc, readOut_escapeChar, ih, List.map_cons,
      List.reverse_cons, List.append_assoc]
    rfl

theorem chars?_scalars (text : List Char) :
    TextUnit.chars? (text.map TextUnit.scalar) = some text := by
  induction text with
  | nil => rfl
  | cons c text ih => rw [List.map_cons, TextUnit.chars?, ih, Option.map_some]

/-- A string is one token, whatever it holds. -/
theorem readOut_quoted (text : String) (rest : List Char) :
    blank.readOut (quoted text ++ rest) =
      (blank.readOut rest).map (.string (some text) :: ·) := by
  rw [quoted, List.cons_append, List.append_assoc,
    readOut_silent (string [] .none) _ rfl, readOut_escaped, List.append_nil]
  apply readOut_token
  simp only [step, inString, if_true, List.reverse_reverse, chars?_scalars, Option.map_some,
    String.ofList_toList]

/-- A word is one token, once it is begun. -/
theorem readOut_word (c : Char) (left rest : List Char) (token : Token) :
    (word (c :: left) token).readOut (c :: (left ++ rest)) =
      (blank.readOut rest).map (token :: ·) := by
  induction left generalizing c with
  | nil =>
    apply readOut_token
    simp only [step, if_true]
  | cons d left ih =>
    rw [← ih d]
    apply readOut_silent
    simp only [step, if_true, if_neg (List.cons_ne_nil d left)]

/-- A number that is complete is one token, if its value is to end there. -/
theorem readOut_number {part : NumberPart} {literal : Literal} (complete : part.isComplete = true)
    (ends : Ends rest) : (number part literal).readOut rest =
      (blank.readOut rest).map (.number literal :: ·) := by
  cases rest with
  | nil => simp [readOut, finish, complete, Except.toOption]
  | cons c rest =>
    have other : part.take literal c = none ∧ digit? c = none := by
      obtain rfl | rfl | rfl := ends c rfl <;> cases part <;> exact ⟨rfl, rfl⟩
    rw [readOut, readOut]
    simp only [step, other.1, other.2, complete, Option.isNone_none, Bool.and_self, if_true]
    cases start c with
    | error fault => rfl
    | ok started => simp [bind, Except.bind, pure, Except.pure, Function.comp_def]

end Pending

section ends
variable {rest : List Char}

theorem Ends.nil : Ends [] := nofun

theorem Ends.comma : Ends (',' :: rest) := by
  rintro _ ⟨⟩
  exact .inl rfl

theorem Ends.bracket : Ends (']' :: rest) := by
  rintro _ ⟨⟩
  exact .inr (.inl rfl)

theorem Ends.brace : Ends ('\x7d' :: rest) := by
  rintro _ ⟨⟩
  exact .inr (.inr rfl)

/-- The rest of an array, or of an object, may stand behind a value. -/
theorem ends_compactItems (items : List Json) : Ends (compactItems items ++ rest) := by
  cases items with
  | nil => exact .bracket
  | cons => exact .comma

theorem ends_compactMembers (members : List (String × Json)) :
    Ends (compactMembers members ++ rest) := by
  cases members with
  | nil => exact .brace
  | cons => exact .comma

end ends

/-- A token that is a value. -/
theorem Spelling.single {value : Json} {token : Token} {raw : Raw}
    (scanned : ∀ rest, Ends rest → Pending.blank.readOut (value.compact ++ rest) =
      (Pending.blank.readOut rest).map (token :: ·))
    (built : ∀ expecting frames, expecting = .value ∨ expecting = .firstItem →
      Builder.step ⟨frames, expecting, none⟩ token = .ok (.deliver raw frames))
    (valued : ∀ room, raw.toJson room = .ok value) : Spelling value 0 [token] raw where
  scanned := scanned
  built expecting frames rest begins := by
    rw [List.singleton_append, List.foldlM_cons, built expecting frames begins]
    rfl
  valued room _ := valued room

theorem Legible.mono {depth depth' : Nat} {value : Json} (h : Legible depth value)
    (deeper : depth ≤ depth') : Legible depth' value := by
  obtain ⟨tokens, raw, scanned, built, valued⟩ := h
  exact ⟨tokens, raw, scanned, built, fun room deep => valued room (Nat.lt_of_le_of_lt deeper deep)⟩

theorem legible_string (text : String) : Legible 0 (.string text) := by
  refine ⟨_, .string (some text), .single (fun rest _ => Pending.readOut_quoted text rest) ?_
    fun room => rfl⟩
  rintro expecting frames (rfl | rfl) <;> rfl

theorem legible_null : Legible 0 .null := by
  refine ⟨[.null], .null, .single (fun rest _ => ?_) ?_ fun room => rfl⟩
  · rw [compact]
    exact (Pending.readOut_silent _ _ rfl).trans (Pending.readOut_word 'u' ['l', 'l'] rest _)
  · rintro expecting frames (rfl | rfl) <;> rfl

theorem legible_bool (value : Bool) : Legible 0 (.bool value) := by
  refine ⟨[.bool value], .bool value, .single (fun rest _ => ?_) ?_ fun room => rfl⟩
  · cases value <;> rw [compact] <;> refine (Pending.readOut_silent _ _ rfl).trans ?_
    · exact Pending.readOut_word 'a' ['l', 's', 'e'] rest _
    · exact Pending.readOut_word 'r' ['u', 'e'] rest _
  · rintro expecting frames (rfl | rfl) <;> rfl

/-- A number is read back if its text is scanned as a literal of this value. -/
theorem legible_number {n : Number} (literal : Literal) (valued : literal.number? = some n)
    (scanned : ∀ rest, Ends rest → Pending.blank.readOut (n.text ++ rest) =
      (Pending.blank.readOut rest).map (.number literal :: ·)) : Legible 0 (.number n) := by
  refine ⟨[.number literal], .number literal, .single (fun rest ends => ?_) ?_ fun room => ?_⟩
  · rw [compact]
    exact scanned rest ends
  · rintro expecting frames (rfl | rfl) <;> rfl
  · rw [Raw.toJson, valued]

theorem enter_eq {depth room : Nat} (deep : depth + 1 < room) :
    Raw.enter room = .ok (room - 1) ∧ depth < room - 1 := by
  refine ⟨if_neg ?_, ?_⟩ <;> omega

/-- How items are read that follow others in an array, and its end. -/
structure ItemsSpelling (items : List Json) (depth : Nat) (tokens : List Token)
    (raws : List Raw) : Prop where
  scanned : ∀ rest, Pending.blank.readOut (compactItems items ++ rest) =
    (Pending.blank.readOut rest).map (tokens ++ ·)
  built : ∀ done outer rest,
    (tokens ++ rest).foldlM Builder.step ⟨.array done :: outer, .separator, none⟩ =
      rest.foldlM Builder.step (.deliver (.array (done.reverse ++ raws)) outer)
  valued : ∀ room, depth < room → Raw.toJsonItems room raws = .ok items

theorem exists_itemsSpelling {depth : Nat} {items : List Json}
    (each : ∀ item ∈ items, Legible depth item) :
    ∃ tokens raws, ItemsSpelling items depth tokens raws := by
  induction items with
  | nil =>
    refine ⟨[.closeArray], [], fun rest => Pending.readOut_token _ _ rest rfl,
      fun done outer rest => ?_, fun room _ => rfl⟩
    rw [List.append_nil]
    rfl
  | cons item items ih =>
    obtain ⟨first, others⟩ := List.forall_mem_cons.1 each
    obtain ⟨tokens, raw, item⟩ := first
    obtain ⟨more, raws, items⟩ := ih others
    refine ⟨.comma :: (tokens ++ more), raw :: raws, fun rest => ?_, fun done outer rest => ?_,
      fun room deep => ?_⟩
    · rw [compactItems, List.cons_append, List.append_assoc,
        Pending.readOut_token .comma .blank _ rfl, item.scanned _ (ends_compactItems _),
        items.scanned, Option.map_map, Option.map_map]
      simp only [Function.comp_def, List.cons_append, List.append_assoc]
    · have next := items.built (raw :: done) outer rest
      rw [List.reverse_cons, List.append_assoc] at next
      refine Eq.trans ?_ next
      rw [List.cons_append, List.append_assoc]
      exact item.built .value (.array done :: outer) (more ++ rest) (.inl rfl)
    · simp only [Raw.toJsonItems, item.valued room deep, items.valued room deep]
      rfl

theorem legible_array {depth : Nat} {items : List Json}
    (each : ∀ item ∈ items, Legible depth item) : Legible (depth + 1) (.array items) := by
  cases items with
  | nil =>
    refine ⟨[.openArray, .closeArray], .array [], fun rest _ => ?_, ?_, fun room deep => ?_⟩
    · rw [compact, List.cons_append,
        Pending.readOut_token .openArray .blank _ rfl, List.singleton_append,
        Pending.readOut_token .closeArray .blank _ rfl, Option.map_map]
      rfl
    · rintro expecting frames rest (rfl | rfl) <;> rfl
    · simp only [Raw.toJson, (enter_eq deep).1, Raw.toJsonItems]
      rfl
  | cons item items =>
    obtain ⟨first, others⟩ := List.forall_mem_cons.1 each
    obtain ⟨tokens, raw, item⟩ := first
    obtain ⟨more, raws, items⟩ := exists_itemsSpelling others
    refine ⟨.openArray :: (tokens ++ more), .array (raw :: raws), fun rest _ => ?_, ?_,
      fun room deep => ?_⟩
    · rw [compact, List.cons_append, List.append_assoc,
        Pending.readOut_token .openArray .blank _ rfl,
        item.scanned _ (ends_compactItems _), items.scanned, Option.map_map, Option.map_map]
      simp only [Function.comp_def, List.cons_append, List.append_assoc]
    · rintro expecting frames rest begins
      refine Eq.trans ?_ (items.built [raw] frames rest)
      rw [List.cons_append, List.append_assoc]
      refine Eq.trans ?_ (item.built .firstItem (.array [] :: frames) (more ++ rest) (.inr rfl))
      obtain rfl | rfl := begins <;> rfl
    · obtain ⟨entered, inside⟩ := enter_eq deep
      simp only [Raw.toJson, entered, Raw.toJsonItems, item.valued _ inside,
        items.valued _ inside, bind, Except.bind]
      rfl

/-- How members are read that follow others in an object, and its end. -/
structure MembersSpelling (members : List (String × Json)) (depth : Nat) (tokens : List Token)
    (raws : List (Option String × Raw)) : Prop where
  scanned : ∀ rest, Pending.blank.readOut (compactMembers members ++ rest) =
    (Pending.blank.readOut rest).map (tokens ++ ·)
  built : ∀ done name outer rest,
    (tokens ++ rest).foldlM Builder.step ⟨.object done name :: outer, .separator, none⟩ =
      rest.foldlM Builder.step (.deliver (.object (done.reverse ++ raws)) outer)
  valued : ∀ room, depth < room → Raw.toJsonMembers room raws = .ok members

theorem exists_membersSpelling {depth : Nat} {members : List (String × Json)}
    (each : ∀ member ∈ members, Legible depth member.2) :
    ∃ tokens raws, MembersSpelling members depth tokens raws := by
  induction members with
  | nil =>
    refine ⟨[.closeObject], [], fun rest => Pending.readOut_token _ _ rest rfl,
      fun done name outer rest => ?_, fun room _ => rfl⟩
    rw [List.append_nil]
    rfl
  | cons member members ih =>
    obtain ⟨name, value⟩ := member
    obtain ⟨first, others⟩ := List.forall_mem_cons.1 each
    obtain ⟨tokens, raw, value⟩ := first
    obtain ⟨more, raws, members⟩ := ih others
    refine ⟨.comma :: .string (some name) :: .colon :: (tokens ++ more), (some name, raw) :: raws,
      fun rest => ?_, fun done last outer rest => ?_, fun room deep => ?_⟩
    · rw [compactMembers, List.cons_append, List.append_assoc, List.cons_append, List.append_assoc,
        Pending.readOut_token .comma .blank _ rfl, Pending.readOut_quoted,
        Pending.readOut_token .colon .blank _ rfl,
        value.scanned _ (ends_compactMembers _), members.scanned]
      simp only [Option.map_map, Function.comp_def, List.cons_append, List.append_assoc]
    · have next := members.built ((some name, raw) :: done) none outer rest
      rw [List.reverse_cons, List.append_assoc] at next
      refine Eq.trans ?_ next
      rw [List.cons_append, List.cons_append, List.cons_append, List.append_assoc]
      exact value.built .value (.object done (some name) :: outer) (more ++ rest) (.inl rfl)
    · simp only [Raw.toJsonMembers, Raw.text?, value.valued room deep, members.valued room deep]
      rfl

theorem legible_object {depth : Nat} {members : List (String × Json)} (ordered : Ordered members)
    (each : ∀ member ∈ members, Legible depth member.2) :
    Legible (depth + 1) (.object members) := by
  have whole : ofMembers members = .object members := congrArg _ (sorted_of_ordered ordered)
  cases members with
  | nil =>
    refine ⟨[.openObject, .closeObject], .object [], fun rest _ => ?_, ?_, fun room deep => ?_⟩
    · rw [compact, List.cons_append,
        Pending.readOut_token .openObject .blank _ rfl, List.singleton_append,
        Pending.readOut_token .closeObject .blank _ rfl, Option.map_map]
      rfl
    · rintro expecting frames rest (rfl | rfl) <;> rfl
    · simp only [Raw.toJson, (enter_eq deep).1, Raw.toJsonMembers]
      rfl
  | cons member members =>
    obtain ⟨name, value⟩ := member
    obtain ⟨first, others⟩ := List.forall_mem_cons.1 each
    obtain ⟨tokens, raw, value⟩ := first
    obtain ⟨more, raws, members⟩ := exists_membersSpelling others
    refine ⟨.openObject :: .string (some name) :: .colon :: (tokens ++ more),
      .object ((some name, raw) :: raws), fun rest _ => ?_, ?_, fun room deep => ?_⟩
    · rw [compact, List.cons_append, List.append_assoc, List.cons_append, List.append_assoc,
        Pending.readOut_token .openObject .blank _ rfl,
        Pending.readOut_quoted, Pending.readOut_token .colon .blank _ rfl,
        value.scanned _ (ends_compactMembers _), members.scanned]
      simp only [Option.map_map, Function.comp_def, List.cons_append, List.append_assoc]
    · rintro expecting frames rest begins
      refine Eq.trans ?_ (members.built [(some name, raw)] none frames rest)
      rw [List.cons_append, List.cons_append, List.cons_append, List.append_assoc]
      refine Eq.trans ?_
        (value.built .value (.object [] (some name) :: frames) (more ++ rest) (.inl rfl))
      obtain rfl | rfl := begins <;> rfl
    · obtain ⟨entered, inside⟩ := enter_eq deep
      simp only [Raw.toJson, entered, Raw.toJsonMembers, Raw.text?, value.valued _ inside,
        members.valued _ inside, bind, Except.bind]
      exact congrArg _ whole

theorem legible_ofMembers {depth : Nat} {members : List (String × Json)}
    (each : ∀ member ∈ members, Legible depth member.2) :
    Legible (depth + 1) (.ofMembers members) := by
  obtain ⟨ordered, found⟩ := sorted_spec members
  exact legible_object ordered fun member mem => each member (found member mem)

theorem exists_compactMembers (members : List (String × Json)) :
    ∃ inner, compactMembers members = inner ++ ['\x7d'] := by
  induction members with
  | nil => exact ⟨[], rfl⟩
  | cons member members ih =>
    obtain ⟨inner, ends⟩ := ih
    refine ⟨',' :: (quoted member.1 ++ ':' :: (member.2.compact ++ inner)), ?_⟩
    rw [compactMembers, ends]
    simp only [List.cons_append, List.append_assoc]

/-- The text of an object has no white space at its ends. -/
theorem trim_object (members : List (String × Json)) :
    Text.trim (object members).text.toList = (object members).text.toList := by
  obtain ⟨inner, braces⟩ :
      ∃ inner, (object members).compact = '\x7b' :: (inner ++ ['\x7d']) := by
    cases members with
    | nil => exact ⟨[], rfl⟩
    | cons member members =>
      obtain ⟨inner, ends⟩ := exists_compactMembers members
      refine ⟨quoted member.1 ++ ':' :: (member.2.compact ++ inner), ?_⟩
      rw [compact, ends]
      simp only [List.cons_append, List.append_assoc]
  have first : isWhite '\x7b' = false := by decide
  have last : isWhite '\x7d' = false := by decide
  rw [text, String.toList_ofList, braces]
  simp [Text.trim, first, last]

/-- A value that is legible is what its compact text is parsed as. -/
theorem parse_text {depth : Nat} {value : Json} (legible : Legible depth value)
    (shallow : depth < Raw.maxRoom) : parse value.text = .ok value := by
  obtain ⟨tokens, raw, spelling⟩ := legible
  have scanned := spelling.scanned [] .nil
  have built := spelling.built .value [] [] (.inl rfl)
  rw [List.append_nil] at scanned built
  have out : Pending.blank.readOut value.compact = some tokens := by
    rw [scanned]
    exact congrArg some (List.append_nil tokens)
  rw [parse_eq_ok_iff, text, String.toList_ofList, out, Option.bind_some, valueOf]
  have made : tokens.foldlM Builder.step {} = .ok (.deliver raw []) := built
  rw [made]
  simp only [Builder.deliver, Except.toOption, bind, Option.bind, spelling.valued _ shallow]

end Responder.Json
