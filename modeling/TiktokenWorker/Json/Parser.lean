import TiktokenWorker.Json.Lexer

/-!
# A JSON parser

Recursive descent over the rules with values in them. `parse_eq_some_iff` says that it reads
exactly the texts of the grammar, each as the value it denotes: so a text denotes one value at
most.
-/

namespace TiktokenWorker.Json

/-! ## Lists between an opening and its end -/

section Lists

variable {α : Type}

/-- Read what follows an opening: its end, or items and the end with them. -/
def readBetween (close : Char) (items : List Char → Option (List α × List Char))
    (wrap : List α → Value) (text : List Char) : Option (Value × List Char) :=
  match readStructural close text with
  | some text => some (wrap [], text)
  | none => do
    let (found, text) ← items text
    some (wrap found, text)

/-- Read what follows an item: the end, or a comma and more items. -/
def readMore (close : Char) (more : List Char → Option (List α × List Char)) (item : α)
    (text : List Char) : Option (List α × List Char) :=
  match readStructural close text with
  | some text => some ([item], text)
  | none => do
    let text ← readStructural ',' text
    let (items, text) ← more text
    some (item :: items, text)

variable {close : Char} {items more : List Char → Option (List α × List Char)}
  {wrap : List α → Value} {item : α} {found : List α} {text rest : List Char}

/-- An opening may be followed by its end. -/
theorem readBetween_end {closing : List Char} (closes : Structural close closing)
    (solid : isWs close = false) (rest : List Char) :
    readBetween close items wrap (skipWs (closing ++ rest)) = some (wrap [], skipWs rest) := by
  simp only [readBetween, closes.read solid]

/-- It may be followed by items, which do not start with the end. -/
theorem readBetween_items (starts : readStructural close text = none)
    (read : items text = some (found, rest)) :
    readBetween close items wrap text = some (wrap found, rest) := by
  simp only [readBetween, starts, read]
  rfl

/-- It is followed by one of the two. -/
theorem between_of_read {value : Value}
    (read : readBetween close items wrap text = some (value, rest)) :
    (∃ closing, Structural close closing ∧ text = closing ++ rest ∧ value = wrap []) ∨
      ∃ found, items text = some (found, rest) ∧ value = wrap found := by
  rw [readBetween] at read
  cases closed : readStructural close text with
  | some following =>
    rw [closed] at read
    cases read
    obtain ⟨closing, closes, split⟩ := structural_of_split .nil closed
    exact Or.inl ⟨closing, closes, split, rfl⟩
  | none =>
    rw [closed] at read
    obtain ⟨⟨found, following⟩, within, read⟩ := Option.bind_eq_some_iff.mp read
    cases read
    exact Or.inr ⟨found, within, rfl⟩

/-- An item may be the last. -/
theorem readMore_end {closing : List Char} (closes : Structural close closing)
    (solid : isWs close = false) (rest : List Char) :
    readMore close more item (skipWs (closing ++ rest)) = some ([item], skipWs rest) := by
  simp only [readMore, closes.read solid]

/-- It may be followed by a comma and more items. -/
theorem readMore_items {separator following : List Char} (separates : Structural ',' separator)
    (different : ',' ≠ close) (read : more (skipWs following) = some (found, rest)) :
    readMore close more item (skipWs (separator ++ following)) = some (item :: found, rest) := by
  simp only [readMore, separates.read_other (show isWs ',' = false by decide) different,
    Option.bind_eq_bind, separates.read (by decide), Option.bind_some, read]

/-- It is followed by one of the two, after whitespace. -/
theorem more_of_read {before : List Char} (blank : Ws before)
    (read : readMore close more item text = some (found, rest)) :
    (∃ closing, Structural close closing ∧ before ++ text = closing ++ rest ∧ found = [item]) ∨
      ∃ separator following others, Structural ',' separator ∧
        before ++ text = separator ++ following ∧ more following = some (others, rest) ∧
        found = item :: others := by
  rw [readMore] at read
  cases closed : readStructural close text with
  | some last =>
    rw [closed] at read
    cases read
    obtain ⟨closing, closes, split⟩ := structural_of_split blank closed
    exact Or.inl ⟨closing, closes, split, rfl⟩
  | none =>
    rw [closed] at read
    obtain ⟨following, separated, read⟩ := Option.bind_eq_some_iff.mp read
    obtain ⟨⟨others, last⟩, later, read⟩ := Option.bind_eq_some_iff.mp read
    cases read
    obtain ⟨separator, separates, split⟩ := structural_of_split blank separated
    exact Or.inr ⟨separator, following, others, separates, split, later, rfl⟩

end Lists

/-! ## Values -/

mutual

/-- Read `value`. -/
def parseValue : Nat → List Char → Option (Value × List Char)
  | 0, _ => none
  | _ + 1, [] => none
  | fuel + 1, c :: text =>
    if c = '"' then do
      let (value, text) ← readString (c :: text)
      some (.string value, text)
    else if c = '[' then readBetween ']' (parseElements fuel) .array (skipWs text)
    else if c = '\x7b' then readBetween '\x7d' (parseMembers fuel) .object (skipWs text)
    else if c = 'n' then readLiteral ['n', 'u', 'l', 'l'] .null (c :: text)
    else if c = 't' then readLiteral ['t', 'r', 'u', 'e'] (.bool true) (c :: text)
    else if c = 'f' then readLiteral ['f', 'a', 'l', 's', 'e'] (.bool false) (c :: text)
    else readNumber (c :: text)

/-- Read the elements of an array and its end. -/
def parseElements : Nat → List Char → Option (List Value × List Char)
  | 0, _ => none
  | fuel + 1, text => do
    let (value, text) ← parseValue fuel text
    readMore ']' (parseElements fuel) value text

/-- Read the members of an object and its end. -/
def parseMembers : Nat → List Char → Option (List (String × Value) × List Char)
  | 0, _ => none
  | fuel + 1, text => do
    let (name, text) ← readString text
    let text ← readStructural ':' text
    let (value, text) ← parseValue fuel text
    readMore '\x7d' (parseMembers fuel) (name, value) text

end

/-- What follows a rule is read up to: a value is followed by something that ends a number, the
elements of an array and the members of an object by the end of theirs. -/
def Reads : Phrase → List Char → Prop
  | .value value, text => ∀ fuel rest, text.length ≤ fuel → Stops isNumberChar rest →
      parseValue fuel (skipWs (text ++ rest)) = some (value, skipWs rest)
  | .elements elements, text => ∀ fuel closing rest, text.length < fuel →
      Structural ']' closing →
      parseElements fuel (skipWs (text ++ (closing ++ rest))) = some (elements, skipWs rest)
  | .members members, text => ∀ fuel closing rest, text.length < fuel →
      Structural '\x7d' closing →
      parseMembers fuel (skipWs (text ++ (closing ++ rest))) = some (members, skipWs rest)

/-- No value starts with the end of an array. -/
theorem parseValue_close (fuel : Nat) (text : List Char) :
    parseValue fuel (']' :: text) = none := by
  cases fuel with
  | zero => rfl
  | succ fuel => simp [parseValue, readNumber, isNumberChar, isNumber, isUnsigned, isIntPart]

/-- What follows the opening of an array is not its end when elements are read from it. -/
theorem readStructural_of_elements {fuel : Nat} {text : List Char}
    {found : List Value × List Char} (read : parseElements fuel text = some found) :
    readStructural ']' text = none := by
  cases fuel with
  | zero => cases read
  | succ fuel =>
    cases text with
    | nil => rfl
    | cons c text =>
      rw [readStructural, if_neg]
      rintro rfl
      rw [parseElements, parseValue_close] at read
      cases read

/-- What follows the opening of an object is not its end when members are read from it. -/
theorem readStructural_of_members {fuel : Nat} {text : List Char}
    {found : List (String × Value) × List Char} (read : parseMembers fuel text = some found) :
    readStructural '\x7d' text = none := by
  cases fuel with
  | zero => cases read
  | succ fuel =>
    cases text with
    | nil => rfl
    | cons c text =>
      rw [readStructural, if_neg]
      rintro rfl
      cases read

/-- A sign or a digit starts a number. -/
theorem parseValue_number {c : Char} (starts : c = '-' ∨ c.isDigit = true) (fuel : Nat)
    (text : List Char) : parseValue (fuel + 1) (c :: text) = readNumber (c :: text) := by
  have different {d : Char} (other : d ≠ '-' ∧ d.isDigit = false) : c ≠ d := by
    rintro rfl
    rcases starts with rfl | digit
    · exact other.1 rfl
    · rw [other.2] at digit
      cases digit
  rw [parseValue, if_neg (different (by decide)), if_neg (different (by decide)),
    if_neg (different (by decide)), if_neg (different (by decide)),
    if_neg (different (by decide)), if_neg (different (by decide))]

/-- A sign or a digit is not whitespace. -/
theorem solid_of_number {c : Char} (starts : c = '-' ∨ c.isDigit = true) : isWs c = false := by
  rcases starts with rfl | digit
  · rfl
  · rw [Bool.eq_false_iff]
    intro space
    simp only [isWs, Bool.or_eq_true, beq_iff_eq] at space
    rcases space with ((rfl | rfl) | rfl) | rfl <;> exact absurd digit (by decide)

/-- A value takes room, so there is fuel to read it. -/
theorem reads_value {value : Value} {text : List Char} (room : 0 < text.length)
    (read : ∀ fuel rest, text.length ≤ fuel + 1 → Stops isNumberChar rest →
      parseValue (fuel + 1) (skipWs (text ++ rest)) = some (value, skipWs rest)) :
    Reads (.value value) text := by
  intro fuel rest enough stops
  cases fuel with
  | zero => omega
  | succ fuel => exact read fuel rest enough stops

/-- There is fuel for the elements of an array. -/
theorem reads_elements {elements : List Value} {text : List Char}
    (read : ∀ fuel closing rest, text.length ≤ fuel → Structural ']' closing →
      parseElements (fuel + 1) (skipWs (text ++ (closing ++ rest))) =
        some (elements, skipWs rest)) : Reads (.elements elements) text := by
  intro fuel closing rest enough closes
  cases fuel with
  | zero => omega
  | succ fuel => exact read fuel closing rest (Nat.le_of_lt_succ enough) closes

/-- There is fuel for the members of an object. -/
theorem reads_members {members : List (String × Value)} {text : List Char}
    (read : ∀ fuel closing rest, text.length ≤ fuel → Structural '\x7d' closing →
      parseMembers (fuel + 1) (skipWs (text ++ (closing ++ rest))) =
        some (members, skipWs rest)) : Reads (.members members) text := by
  intro fuel closing rest enough closes
  cases fuel with
  | zero => omega
  | succ fuel => exact read fuel closing rest (Nat.le_of_lt_succ enough) closes

/-- What the grammar derives is read. -/
theorem Denotes.read {phrase : Phrase} {text : List Char} (denotes : Denotes phrase text) :
    Reads phrase text := by
  induction denotes with
  | null =>
    apply reads_value (by decide)
    intro fuel rest _ _
    exact readLiteral_append ['n', 'u', 'l', 'l'] .null rest
  | bool_true =>
    apply reads_value (by decide)
    intro fuel rest _ _
    exact readLiteral_append ['t', 'r', 'u', 'e'] (.bool true) rest
  | bool_false =>
    apply reads_value (by decide)
    intro fuel rest _ _
    exact readLiteral_append ['f', 'a', 'l', 's', 'e'] (.bool false) rest
  | number number =>
    obtain ⟨first, others, rfl, starts⟩ := number.head
    apply reads_value (by simp)
    intro fuel rest _ stops
    rw [List.cons_append, skipWs_cons (solid_of_number starts), parseValue_number starts]
    exact number.read stops
  | string string =>
    have read := string.read
    obtain ⟨inner, _, rfl⟩ := string
    apply reads_value (by simp)
    intro fuel rest _ _
    have found := read rest
    rw [List.cons_append, List.cons_append] at found ⊢
    rw [skipWs_cons (by decide), parseValue, if_pos rfl, found]
    rfl
  | array_empty opens closes =>
    have room := opens.length_pos
    apply reads_value (by rw [List.length_append]; omega)
    intro fuel rest _ _
    obtain ⟨after, trailing, skipped⟩ := opens.skip (by decide)
    rw [List.append_assoc, skipped, parseValue, if_neg (by decide), if_pos rfl, trailing.skip]
    exact readBetween_end closes (by decide) rest
  | array opens _ closes ih =>
    have room := opens.length_pos
    have more := closes.length_pos
    apply reads_value (by simp only [List.length_append]; omega)
    intro fuel rest enough _
    simp only [List.length_append] at enough
    obtain ⟨after, trailing, skipped⟩ := opens.skip (by decide)
    have read := ih fuel _ rest (by omega) closes
    rw [List.append_assoc, List.append_assoc, skipped, parseValue, if_neg (by decide), if_pos rfl,
      trailing.skip]
    exact readBetween_items (readStructural_of_elements read) read
  | object_empty opens closes =>
    have room := opens.length_pos
    apply reads_value (by rw [List.length_append]; omega)
    intro fuel rest _ _
    obtain ⟨after, trailing, skipped⟩ := opens.skip (by decide)
    rw [List.append_assoc, skipped, parseValue, if_neg (by decide), if_neg (by decide), if_pos rfl,
      trailing.skip]
    exact readBetween_end closes (by decide) rest
  | object opens _ closes ih =>
    have room := opens.length_pos
    have more := closes.length_pos
    apply reads_value (by simp only [List.length_append]; omega)
    intro fuel rest enough _
    simp only [List.length_append] at enough
    obtain ⟨after, trailing, skipped⟩ := opens.skip (by decide)
    have read := ih fuel _ rest (by omega) closes
    rw [List.append_assoc, List.append_assoc, skipped, parseValue, if_neg (by decide),
      if_neg (by decide), if_pos rfl, trailing.skip]
    exact readBetween_items (readStructural_of_members read) read
  | element _ ih =>
    apply reads_elements
    intro fuel closing rest enough closes
    have value := ih fuel (closing ++ rest) enough (closes.stops (by decide) rest)
    rw [parseElements, value]
    exact readMore_end closes (by decide) rest
  | @elements _ separator others _ _ _ separates _ ihFirst ihLater =>
    apply reads_elements
    intro fuel closing rest enough closes
    have room := separates.length_pos
    simp only [List.length_append] at enough
    have value := ihFirst fuel (separator ++ (others ++ (closing ++ rest))) (by omega)
      (separates.stops (by decide) _)
    have later := ihLater fuel closing rest (by omega) closes
    rw [List.append_assoc, List.append_assoc, parseElements, value]
    exact readMore_items separates (by decide) later
  | member named separates _ ih =>
    apply reads_members
    intro fuel closing rest enough closes
    simp only [List.length_append] at enough
    have colon : isWs ':' = false := rfl
    have value := ih fuel (closing ++ rest) (by omega) (closes.stops (by decide) rest)
    simp only [List.append_assoc, parseMembers, named.skip, named.read, value,
      Option.bind_eq_bind, Option.bind_some, separates.read colon]
    exact readMore_end closes (by decide) rest
  | @members _ _ _ comma others _ _ _ named separates _ continues _ ihFirst ihLater =>
    apply reads_members
    intro fuel closing rest enough closes
    have room := continues.length_pos
    simp only [List.length_append] at enough
    have colon : isWs ':' = false := rfl
    have value := ihFirst fuel (comma ++ (others ++ (closing ++ rest))) (by omega)
      (continues.stops (by decide) _)
    have later := ihLater fuel closing rest (by omega) closes
    simp only [List.append_assoc, parseMembers, named.skip, named.read, value,
      Option.bind_eq_bind, Option.bind_some, separates.read colon]
    exact readMore_items continues (by decide) later

/-- What is read at a fuel derives from the grammar. -/
structure Sound (fuel : Nat) : Prop where
  value {text rest : List Char} {value : Value} :
    parseValue fuel text = some (value, rest) →
      ∃ inner after, Denotes (.value value) inner ∧ Ws after ∧ text = inner ++ (after ++ rest)
  elements {text rest : List Char} {elements : List Value} :
    parseElements fuel text = some (elements, rest) →
      ∃ inner closing, Denotes (.elements elements) inner ∧ Structural ']' closing ∧
        text = inner ++ (closing ++ rest)
  members {text rest : List Char} {members : List (String × Value)} :
    parseMembers fuel text = some (members, rest) →
      ∃ inner closing, Denotes (.members members) inner ∧ Structural '\x7d' closing ∧
        text = inner ++ (closing ++ rest)

/-- A value that was read derives from the grammar when what it holds does. -/
theorem Sound.value_succ {fuel : Nat} (sound : Sound fuel) {text rest : List Char} {value : Value}
    (read : parseValue (fuel + 1) text = some (value, rest)) :
    ∃ inner after, Denotes (.value value) inner ∧ Ws after ∧ text = inner ++ (after ++ rest) := by
  cases text with
  | nil => cases read
  | cons c text =>
    rw [parseValue] at read
    split_ifs at read with quote bracket brace n t f
    · obtain ⟨⟨string, following⟩, within, read⟩ := Option.bind_eq_some_iff.mp read
      cases read
      obtain ⟨inner, after, denotes, blank, split⟩ := str_of_read within
      exact ⟨inner, after, .string denotes, blank, split⟩
    · obtain ⟨opening, opens, split⟩ := structural_of_cons c text
      rw [bracket] at opens
      rcases between_of_read read with ⟨closing, closes, remaining, rfl⟩ | ⟨found, within, rfl⟩
      · exact ⟨_, [], .array_empty opens closes, .nil, by simp [split, remaining]⟩
      · obtain ⟨inner, closing, denotes, closes, remaining⟩ := sound.elements within
        exact ⟨_, [], .array opens denotes closes, .nil, by simp [split, remaining]⟩
    · obtain ⟨opening, opens, split⟩ := structural_of_cons c text
      rw [brace] at opens
      rcases between_of_read read with ⟨closing, closes, remaining, rfl⟩ | ⟨found, within, rfl⟩
      · exact ⟨_, [], .object_empty opens closes, .nil, by simp [split, remaining]⟩
      · obtain ⟨inner, closing, denotes, closes, remaining⟩ := sound.members within
        exact ⟨_, [], .object opens denotes closes, .nil, by simp [split, remaining]⟩
    · obtain ⟨rfl, after, blank, split⟩ := literal_of_read read
      exact ⟨_, after, .null, blank, split⟩
    · obtain ⟨rfl, after, blank, split⟩ := literal_of_read read
      exact ⟨_, after, .bool_true, blank, split⟩
    · obtain ⟨rfl, after, blank, split⟩ := literal_of_read read
      exact ⟨_, after, .bool_false, blank, split⟩
    · obtain ⟨literal, after, rfl, number, blank, split⟩ := number_of_read read
      exact ⟨literal, after, .number number, blank, split⟩

/-- Elements that were read derive from the grammar. -/
theorem Sound.elements_succ {fuel : Nat} (sound : Sound fuel) {text rest : List Char}
    {elements : List Value} (read : parseElements (fuel + 1) text = some (elements, rest)) :
    ∃ inner closing, Denotes (.elements elements) inner ∧ Structural ']' closing ∧
      text = inner ++ (closing ++ rest) := by
  rw [parseElements] at read
  obtain ⟨⟨value, following⟩, first, ending⟩ := Option.bind_eq_some_iff.mp read
  obtain ⟨inner, after, denotes, blank, rfl⟩ := sound.value first
  rcases more_of_read blank ending with
    ⟨closing, closes, split, rfl⟩ | ⟨separator, later, others, separates, split, more, rfl⟩
  · exact ⟨inner, closing, .element denotes, closes, by rw [split]⟩
  · obtain ⟨continued, closing, values, closes, rfl⟩ := sound.elements more
    exact ⟨_, closing, .elements denotes separates values, closes, by simp [split]⟩

/-- Members that were read derive from the grammar. -/
theorem Sound.members_succ {fuel : Nat} (sound : Sound fuel) {text rest : List Char}
    {members : List (String × Value)}
    (read : parseMembers (fuel + 1) text = some (members, rest)) :
    ∃ inner closing, Denotes (.members members) inner ∧ Structural '\x7d' closing ∧
      text = inner ++ (closing ++ rest) := by
  rw [parseMembers] at read
  obtain ⟨⟨name, following⟩, named, introduced⟩ := Option.bind_eq_some_iff.mp read
  obtain ⟨key, padding, string, padded, rfl⟩ := str_of_read named
  obtain ⟨valued, colon, begun⟩ := Option.bind_eq_some_iff.mp introduced
  obtain ⟨separator, separates, joined⟩ := structural_of_split padded colon
  obtain ⟨⟨value, following⟩, first, ending⟩ := Option.bind_eq_some_iff.mp begun
  obtain ⟨inner, after, denotes, blank, rfl⟩ := sound.value first
  rcases more_of_read blank ending with
    ⟨closing, closes, split, rfl⟩ | ⟨comma, later, others, continues, split, more, rfl⟩
  · exact ⟨_, closing, .member string separates denotes, closes, by simp [joined, split]⟩
  · obtain ⟨continued, closing, values, closes, rfl⟩ := sound.members more
    exact ⟨_, closing, .members string separates denotes continues values, closes,
      by simp [joined, split]⟩

/-- Only what the grammar derives is read. -/
theorem sound (fuel : Nat) : Sound fuel := by
  induction fuel with
  | zero =>
    constructor
    · exact fun read => by cases read
    · exact fun read => by cases read
    · exact fun read => by cases read
  | succ fuel ih =>
    constructor
    · exact ih.value_succ
    · exact ih.elements_succ
    · exact ih.members_succ

/-! ## Texts -/

/-- Read a whole text. -/
def parse (text : List Char) : Option Value :=
  match parseValue text.length (skipWs text) with
  | some (value, []) => some value
  | _ => none

/-- Whitespace alone is skipped whole. -/
theorem Ws.skip_all {text : List Char} (blank : Ws text) : skipWs text = [] :=
  List.dropWhile_eq_nil_iff.mpr blank

/-- The parser reads the texts of the grammar, each as what it denotes. -/
theorem parse_eq_some_iff (text : List Char) (value : Value) :
    parse text = some value ↔ Text text value := by
  constructor
  · intro read
    unfold parse at read
    split at read
    · rename_i found within
      cases read
      obtain ⟨before, blank, split⟩ := skipWs_split text
      obtain ⟨inner, after, denotes, trailing, remaining⟩ := (sound _).value within
      rw [List.append_nil] at remaining
      exact ⟨before, inner, after, blank, denotes, trailing, by
        rw [List.append_assoc, ← remaining, ← split]⟩
    · cases read
  · rintro ⟨before, inner, after, blank, denotes, trailing, rfl⟩
    have stops : Stops isNumberChar after := by
      have none_left : Stops isNumberChar [] := fun c first => by cases first
      have ended := trailing.stops none_left
      rwa [List.append_nil] at ended
    have read := denotes.read (before ++ inner ++ after).length after (by simp; omega) stops
    rw [parse, List.append_assoc, blank.skip, ← List.append_assoc, read, trailing.skip_all]

/-- A text denotes one value at most. -/
theorem Text.unique {text : List Char} {value other : Value} (denotes : Text text value)
    (denotes_other : Text text other) : value = other := by
  have read := (parse_eq_some_iff text value).mpr denotes
  have read_other := (parse_eq_some_iff text other).mpr denotes_other
  rw [read] at read_other
  exact Option.some.inj read_other

end TiktokenWorker.Json
