import Mathlib.Data.List.DropRight
import Responder.Json.Raw
import Responder.Text

/-!
# White space around JSON texts

JSON has four characters of white space, Unicode many more. `trim` takes all of them from the ends
of a text, and the scanner passes over the four only. Main statement: if a trimmed text is JSON,
then the text itself is JSON exactly if nothing but white space of JSON was trimmed, and its value
is the same.
-/

namespace Responder

section
variable {ε δ α β : Type}

theorem toOption_eq_some_iff {x : Except ε α} {a : α} : x.toOption = some a ↔ x = .ok a := by
  cases x <;> simp [Except.toOption]

theorem toOption_bind (x : Except ε α) (f : α → Except ε β) :
    (x >>= f).toOption = x.toOption.bind fun a => (f a).toOption := by
  cases x <;> rfl

theorem toOption_mapError (x : Except ε α) (f : ε → δ) :
    (x.mapError f).toOption = x.toOption := by
  cases x <;> rfl

end

namespace Text

/-- What `trim` takes from the beginning of a text. -/
def leading (text : List Char) : List Char := text.takeWhile isWhite

/-- What `trim` takes from the end of a text. -/
def trailing (text : List Char) : List Char := (text.dropWhile isWhite).rtakeWhile isWhite

theorem leading_trim_trailing (text : List Char) :
    leading text ++ (trim text ++ trailing text) = text := by
  have rest : trim text ++ trailing text = text.dropWhile isWhite :=
    List.rdropWhile_append_rtakeWhile
  rw [rest, leading, List.takeWhile_append_dropWhile]

theorem isWhite_of_mem_leading {text : List Char} {c : Char} (h : c ∈ leading text) :
    isWhite c = true :=
  List.mem_takeWhile_imp h

theorem isWhite_of_mem_trailing {text : List Char} {c : Char} (h : c ∈ trailing text) :
    isWhite c = true :=
  List.mem_rtakeWhile_imp h

end Text

namespace Json

open Text (isWhite)

section
variable {c : Char}

theorem digit?_of_isWhite (white : isWhite c = true) : digit? c = none := by
  refine if_neg ?_
  rintro ⟨low, high⟩
  have low : 48 ≤ c.toNat := low
  have high : c.toNat ≤ 57 := high
  simp only [isWhite, Bool.or_eq_true, Bool.and_eq_true, decide_eq_true_eq, beq_iff_eq] at white
  omega

/-- No white space continues a number. -/
theorem NumberPart.take_of_isWhite {part : NumberPart} (literal : Literal)
    (white : isWhite c = true) : part.take literal c = none := by
  have other : ∀ mark : Char, isWhite mark = false → c ≠ mark := by
    rintro mark black rfl
    exact Bool.false_ne_true (black.symm.trans white)
  simp only [take, digit?_of_isWhite white]
  cases part <;> simp [takeMark, other _ (show isWhite '.' = false by decide),
    other _ (show isWhite 'e' = false by decide), other _ (show isWhite 'E' = false by decide),
    other _ (show isWhite '+' = false by decide), other _ (show isWhite '-' = false by decide)]

namespace Pending

/-- Between tokens the scanner passes over white space of JSON and refuses any other. -/
theorem start_of_isWhite (white : isWhite c = true) :
    start c = if isBlank c then .ok ([], blank) else .error .unexpectedCharacter := by
  unfold start
  split
  · rfl
  · split
    all_goals first
      | cases (show isWhite _ = false by decide).symm.trans white
      | rw [NumberPart.take_of_isWhite _ white]

/-- Where a text may end, white space acts as its end does. -/
theorem step_of_isWhite {p : Pending} {last : List Token} (white : isWhite c = true)
    (whole : p.finish = .ok last) :
    p.step c = if isBlank c then .ok (last, blank) else .error .unexpectedCharacter := by
  cases p with
  | blank =>
    cases whole
    exact start_of_isWhite white
  | number part literal =>
    simp only [finish] at whole
    split at whole
    · next complete =>
      cases whole
      simp only [step, NumberPart.take_of_isWhite literal white, complete,
        digit?_of_isWhite white, start_of_isWhite white, Option.isNone_none, Bool.and_self, if_true]
      split <;> rfl
    · cases whole
  | word | string => cases whole

/-- The tokens that a text completes, where the scanner is inside of `p`; none if the text has a
fault. -/
def readOut (p : Pending) : List Char → Option (List Token)
  | [] => p.finish.toOption
  | c :: rest =>
    match p.step c with
    | .ok (now, next) => (next.readOut rest).map (now ++ ·)
    | .error _ => none

theorem readOut_of_isWhite {text : List Char} (white : ∀ c ∈ text, isWhite c = true)
    {p : Pending} {last : List Token} (whole : p.finish = .ok last) :
    p.readOut text = if text.all isBlank then some last else none := by
  induction text generalizing p last with
  | nil => simp [readOut, whole, Except.toOption]
  | cons c rest ih =>
    obtain ⟨here, there⟩ := List.forall_mem_cons.1 white
    rw [readOut, step_of_isWhite here whole, List.all_cons]
    by_cases plain : isBlank c
    · simp only [plain, if_true, ih there (p := blank) rfl, Bool.true_and]
      split <;> simp
    · simp [plain]

/-- White space after a text. -/
theorem readOut_append {text after : List Char} (white : ∀ c ∈ after, isWhite c = true)
    {p : Pending} {all : List Token} (whole : p.readOut text = some all) :
    p.readOut (text ++ after) = if after.all isBlank then some all else none := by
  induction text generalizing p all with
  | nil =>
    cases ends : p.finish with
    | error fault => simp [readOut, ends, Except.toOption] at whole
    | ok last =>
      obtain rfl : last = all := by simpa [readOut, ends, Except.toOption] using whole
      exact readOut_of_isWhite white ends
  | cons c rest ih =>
    rw [List.cons_append, readOut]
    rw [readOut] at whole
    split at whole
    · obtain ⟨later, read, rfl⟩ := Option.map_eq_some_iff.1 whole
      rw [ih read]
      split <;> rfl
    · cases whole

/-- White space before a text. -/
theorem readOut_blank_append {before : List Char} (white : ∀ c ∈ before, isWhite c = true)
    (text : List Char) : blank.readOut (before ++ text) =
      if before.all isBlank then blank.readOut text else none := by
  induction before with
  | nil => simp
  | cons c rest ih =>
    obtain ⟨here, there⟩ := List.forall_mem_cons.1 white
    rw [List.cons_append, readOut, step_of_isWhite here (p := blank) rfl]
    rw [List.all_cons]
    by_cases plain : isBlank c
    · simp only [plain, if_true, ih there, Bool.true_and]
      split <;> simp
    · simp [plain]

end Pending

end

theorem map_token_emit (s : Scanner) (tokens : List Token) :
    (s.emit tokens).reverse.map (·.token) = s.tokens.reverse.map (·.token) ++ tokens := by
  simp [Scanner.emit, Function.comp_def]

/-- Faults aside, the scanner finds what is read out, whatever places the tokens are given. -/
theorem scan_toOption (s : Scanner) (text : List Char) :
    (text.foldlM Scanner.step s >>= Scanner.finish).toOption.map (·.map (·.token)) =
      (s.pending.readOut text).map (s.tokens.reverse.map (·.token) ++ ·) := by
  induction text generalizing s with
  | nil =>
    change s.finish.toOption.map _ = s.pending.finish.toOption.map _
    rw [Scanner.finish]
    cases s.pending.finish with
    | error fault => rfl
    | ok last => exact congrArg some (map_token_emit s last)
  | cons c rest ih =>
    rw [List.foldlM_cons, Pending.readOut, Scanner.step]
    cases s.pending.step c with
    | error fault => rfl
    | ok stepped =>
      refine (ih _).trans ?_
      simp only [map_token_emit, Option.map_map, Function.comp_def, List.append_assoc]

theorem tokens_toOption (text : List Char) :
    (tokens text).toOption.map (·.map (·.token)) = Pending.blank.readOut text :=
  (scan_toOption {} text).trans (by simp)

theorem build_toOption (placed : List Placed) (b : Builder) :
    (placed.foldlM Raw.stepPlaced b).toOption =
      ((placed.map (·.token)).foldlM Builder.step b).toOption := by
  induction placed generalizing b with
  | nil => rfl
  | cons first rest ih =>
    rw [List.map_cons, List.foldlM_cons, List.foldlM_cons, Raw.stepPlaced]
    cases b.step first.token with
    | error fault => rfl
    | ok next => exact ih next

/-- The value that tokens make up. -/
def valueOf (tokens : List Token) : Option Json := do
  let built ← (tokens.foldlM Builder.step {}).toOption
  let raw ← built.result
  (raw.toJson Raw.maxRoom).toOption

/-- The value of a text depends on its tokens only. -/
theorem read_toOption (text : List Char) :
    (read text).toOption = (Pending.blank.readOut text).bind valueOf := by
  rw [← tokens_toOption, Option.bind_map]
  simp only [read, readAs, Raw.read, toOption_bind, toOption_mapError, build_toOption,
    Option.bind_assoc]
  refine congrArg (Option.bind _) (funext fun placed => ?_)
  refine congrArg (Option.bind _) (funext fun built => ?_)
  cases built.result <;> rfl

theorem parse_eq_ok_iff {text : String} {value : Json} :
    parse text = .ok value ↔ (Pending.blank.readOut text.toList).bind valueOf = some value := by
  rw [← read_toOption, ← toOption_eq_some_iff, parse, toOption_mapError]

/-- All white space at the ends of a text is white space of JSON. -/
def PlainMargins (text : List Char) : Prop :=
  (Text.leading text).all isBlank ∧ (Text.trailing text).all isBlank

instance (text : List Char) : Decidable (PlainMargins text) :=
  inferInstanceAs (Decidable (_ = true ∧ _ = true))

/-- If a trimmed text is JSON, then the whole text is JSON exactly if its margins are plain, and
its value is the same. -/
theorem parse_eq_ok_of_trim {text : String} {value : Json}
    (trimmed : parse (String.ofList (Text.trim text.toList)) = .ok value) (other : Json) :
    parse text = .ok other ↔ other = value ∧ PlainMargins text.toList := by
  rw [parse_eq_ok_iff, String.toList_ofList] at trimmed
  obtain ⟨tokens, whole, made⟩ := Option.bind_eq_some_iff.1 trimmed
  have white : ∀ c ∈ Text.leading text.toList, isWhite c = true :=
    fun c mem => Text.isWhite_of_mem_leading mem
  have white' : ∀ c ∈ Text.trailing text.toList, isWhite c = true :=
    fun c mem => Text.isWhite_of_mem_trailing mem
  have read := Pending.readOut_blank_append white
    (Text.trim text.toList ++ Text.trailing text.toList)
  rw [Text.leading_trim_trailing, Pending.readOut_append white' whole, ← ite_and] at read
  rw [parse_eq_ok_iff, read, PlainMargins]
  split
  · next plain =>
    rw [Option.bind_some, made, Option.some_inj]
    exact ⟨fun same => ⟨same.symm, plain⟩, fun same => same.1.symm⟩
  · next odd =>
    rw [Option.bind_none]
    exact iff_of_false (Option.some_ne_none other).symm fun same => odd same.2

end Json

end Responder
