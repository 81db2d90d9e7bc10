import Mathlib.Data.List.TakeWhile
import TiktokenWorker.Json.Grammar

/-!
# JSON tokens

Readers of the rules with no values in them. Every reader starts at a character that is not
whitespace and leaves what follows its rule and the whitespace after it. Of each rule it is shown
that its texts are read, in front of anything that does not continue them, and that what is read
is a text of the rule.
-/

namespace TiktokenWorker.Json

/-! ## Whitespace and numbers -/

/-- Skip `ws`. -/
def skipWs (text : List Char) : List Char := text.dropWhile isWs

/-- The characters of a number. -/
def isNumberChar (c : Char) : Bool :=
  c.isDigit || c == '-' || c == '+' || c == '.' || c == 'e' || c == 'E'

/-- Whether a text is `1*DIGIT`. -/
def isDigits (text : List Char) : Bool := text != [] && text.all Char.isDigit

/-- Whether a text of digits is `int`. -/
def isIntPart (text : List Char) : Bool := text == ['0'] || text != [] && text.head? != some '0'

/-- Whether a text is `[ exp ]`. -/
def isExpPart : List Char → Bool
  | [] => true
  | e :: '-' :: digits => (e == 'e' || e == 'E') && isDigits digits
  | e :: '+' :: digits => (e == 'e' || e == 'E') && isDigits digits
  | e :: digits => (e == 'e' || e == 'E') && isDigits digits

/-- Whether a text is `[ frac ] [ exp ]`. -/
def isFracPart : List Char → Bool
  | '.' :: text => text.takeWhile Char.isDigit != [] && isExpPart (text.dropWhile Char.isDigit)
  | text => isExpPart text

/-- Whether a text is `int [ frac ] [ exp ]`. -/
def isUnsigned (text : List Char) : Bool :=
  isIntPart (text.takeWhile Char.isDigit) && isFracPart (text.dropWhile Char.isDigit)

/-- Whether a text is `number`. -/
def isNumber : List Char → Bool
  | '-' :: text => isUnsigned text
  | text => isUnsigned text

/-- What a run of characters stops at. -/
def Stops (p : Char → Bool) (text : List Char) : Prop := ∀ c ∈ text.head?, p c = false

/-- A run of characters up to where it stops. -/
theorem takeWhile_stops {p : Char → Bool} {run rest : List Char} (all : ∀ c ∈ run, p c = true)
    (stops : Stops p rest) : (run ++ rest).takeWhile p = run := by
  rw [List.takeWhile_append_of_pos all]
  cases rest with
  | nil => simp
  | cons c rest =>
    have unmatched := stops c rfl
    simp [unmatched]

/-- What is left of a run of characters where it stops. -/
theorem dropWhile_stops {p : Char → Bool} {run rest : List Char} (all : ∀ c ∈ run, p c = true)
    (stops : Stops p rest) : (run ++ rest).dropWhile p = rest := by
  rw [List.dropWhile_append_of_pos all]
  cases rest with
  | nil => simp
  | cons c rest =>
    have unmatched := stops c rfl
    simp [unmatched]

/-! ## Numbers -/

theorem isDigits_iff (text : List Char) : isDigits text = true ↔ Digits text := by
  simp [isDigits, Digits]

/-- Digits do not start with a sign. -/
theorem Digits.ne_sign {first : Char} {rest : List Char} (digits : Digits (first :: rest)) :
    first ≠ '-' ∧ first ≠ '+' := by
  have digit := digits.2 first List.mem_cons_self
  constructor
  · rintro rfl
    exact absurd digit (by decide)
  · rintro rfl
    exact absurd digit (by decide)

theorem isExpPart_iff (text : List Char) : isExpPart text = true ↔ text = [] ∨ ExpPart text := by
  constructor
  · intro checked
    unfold isExpPart at checked
    split at checked
    · exact Or.inl rfl
    · rename_i e digits
      simp only [Bool.and_eq_true, Bool.or_eq_true, beq_iff_eq, isDigits_iff] at checked
      exact Or.inr ⟨e, ['-'], digits, checked.1, by simp, checked.2, rfl⟩
    · rename_i e digits
      simp only [Bool.and_eq_true, Bool.or_eq_true, beq_iff_eq, isDigits_iff] at checked
      exact Or.inr ⟨e, ['+'], digits, checked.1, by simp, checked.2, rfl⟩
    · rename_i e digits _ _
      simp only [Bool.and_eq_true, Bool.or_eq_true, beq_iff_eq, isDigits_iff] at checked
      exact Or.inr ⟨e, [], digits, checked.1, by simp, checked.2, rfl⟩
  · rintro (rfl | ⟨e, sign, digits, letter, signed, exact_digits, rfl⟩)
    · rfl
    · have checked := (isDigits_iff digits).mpr exact_digits
      rcases signed with rfl | rfl | rfl
      · cases digits with
        | nil => exact absurd rfl exact_digits.1
        | cons first rest =>
          have unsigned := exact_digits.ne_sign
          unfold isExpPart
          split <;> simp_all
      · simpa [isExpPart, checked] using letter
      · simpa [isExpPart, checked] using letter

/-- An optional exponent stops a run of digits. -/
theorem stops_exp {exp : List Char} (optional : exp = [] ∨ ExpPart exp) :
    Stops Char.isDigit exp := by
  rcases optional with rfl | ⟨e, sign, digits, letter, _, _, rfl⟩
  · exact fun c first => by cases first
  · intro c first
    cases first
    rcases letter with rfl | rfl <;> decide

theorem isFracPart_iff (text : List Char) : isFracPart text = true ↔
    ∃ frac exp, (frac = [] ∨ FracPart frac) ∧ (exp = [] ∨ ExpPart exp) ∧ text = frac ++ exp := by
  constructor
  · intro checked
    unfold isFracPart at checked
    split at checked
    · rename_i text
      simp only [Bool.and_eq_true, bne_iff_ne, isExpPart_iff] at checked
      refine ⟨'.' :: text.takeWhile Char.isDigit, text.dropWhile Char.isDigit,
        Or.inr ⟨_, ⟨checked.1, ?_⟩, rfl⟩, checked.2, ?_⟩
      · exact fun c member => List.mem_takeWhile_imp member
      · rw [List.cons_append, List.takeWhile_append_dropWhile]
    · exact ⟨[], text, Or.inl rfl, (isExpPart_iff _).mp checked, rfl⟩
  · rintro ⟨frac, exp, fraction, exponent, rfl⟩
    have checked := (isExpPart_iff exp).mpr exponent
    rcases fraction with rfl | ⟨digits, exact_digits, rfl⟩
    · unfold isFracPart
      split
      · rename_i text split
        rcases exponent with rfl | ⟨e, sign, digits, letter, _, _, rfl⟩
        · cases split
        · simp only [List.nil_append, List.cons_append, List.cons.injEq] at split
          rcases letter with rfl | rfl
          · exact absurd split.1 (by decide)
          · exact absurd split.1 (by decide)
      · exact checked
    · have stops := stops_exp exponent
      simp only [List.cons_append, isFracPart, takeWhile_stops exact_digits.2 stops,
        dropWhile_stops exact_digits.2 stops, checked, Bool.and_true, bne_iff_ne]
      exact exact_digits.1

/-- An optional fraction and an optional exponent stop a run of digits. -/
theorem stops_frac {frac exp : List Char} (fraction : frac = [] ∨ FracPart frac)
    (exponent : exp = [] ∨ ExpPart exp) : Stops Char.isDigit (frac ++ exp) := by
  rcases fraction with rfl | ⟨digits, _, rfl⟩
  · exact stops_exp exponent
  · intro c first
    cases first
    decide

theorem isIntPart_iff {text : List Char} (digits : ∀ c ∈ text, c.isDigit = true) :
    isIntPart text = true ↔ IntPart text := by
  unfold isIntPart IntPart
  cases text with
  | nil => simp
  | cons first rest =>
    have exact_digits : Digits (first :: rest) := ⟨List.cons_ne_nil _ _, digits⟩
    simp [exact_digits]

/-- Every character of `int` is a digit. -/
theorem IntPart.all_digits {text : List Char} (int : IntPart text) :
    ∀ c ∈ text, c.isDigit = true := by
  rcases int with rfl | ⟨first, rest, rfl, _, digits⟩
  · exact List.forall_mem_singleton.mpr rfl
  · exact digits.2

theorem isUnsigned_iff (text : List Char) : isUnsigned text = true ↔
    ∃ int frac exp, IntPart int ∧ (frac = [] ∨ FracPart frac) ∧ (exp = [] ∨ ExpPart exp) ∧
      text = int ++ (frac ++ exp) := by
  have digits : ∀ c ∈ text.takeWhile Char.isDigit, c.isDigit = true := fun c member =>
    List.mem_takeWhile_imp member
  rw [isUnsigned, Bool.and_eq_true, isFracPart_iff, isIntPart_iff digits]
  constructor
  · rintro ⟨int, frac, exp, fraction, exponent, rest⟩
    refine ⟨_, frac, exp, int, fraction, exponent, ?_⟩
    rw [← rest, List.takeWhile_append_dropWhile]
  · rintro ⟨int, frac, exp, integer, fraction, exponent, rfl⟩
    have stops := stops_frac fraction exponent
    rw [takeWhile_stops integer.all_digits stops, dropWhile_stops integer.all_digits stops]
    exact ⟨integer, frac, exp, fraction, exponent, rfl⟩

theorem isNumber_iff (text : List Char) : isNumber text = true ↔ Number text := by
  constructor
  · intro checked
    unfold isNumber at checked
    split at checked
    · obtain ⟨int, frac, exp, integer, fraction, exponent, rfl⟩ := (isUnsigned_iff _).mp checked
      exact ⟨['-'], int, frac, exp, by simp, integer, fraction, exponent, by simp⟩
    · obtain ⟨int, frac, exp, integer, fraction, exponent, rfl⟩ := (isUnsigned_iff _).mp checked
      exact ⟨[], int, frac, exp, by simp, integer, fraction, exponent, by simp⟩
  · rintro ⟨minus, int, frac, exp, signed, integer, fraction, exponent, rfl⟩
    have checked := (isUnsigned_iff _).mpr
      ⟨int, frac, exp, integer, fraction, exponent, rfl⟩
    rw [List.append_assoc, List.append_assoc]
    rcases signed with rfl | rfl
    · unfold isNumber
      split
      · rename_i text same
        rcases integer with rfl | ⟨first, rest, rfl, _, digits⟩
        · cases same
        · simp only [List.nil_append, List.cons_append, List.cons.injEq] at same
          exact absurd same.1 digits.ne_sign.1
      · exact checked
    · exact checked

/-- A number has the characters of one. -/
theorem Number.all_numberChar {text : List Char} (number : Number text) :
    ∀ c ∈ text, isNumberChar c = true := by
  have digit {c : Char} (isDigit : c.isDigit = true) : isNumberChar c = true := by
    simp [isNumberChar, isDigit]
  obtain ⟨minus, int, frac, exp, signed, integer, fraction, exponent, rfl⟩ := number
  simp only [List.mem_append]
  rintro c (((member | member) | member) | member)
  · rcases signed with rfl | rfl
    · cases member
    · cases List.mem_singleton.mp member
      decide
  · exact digit (integer.all_digits c member)
  · rcases fraction with rfl | ⟨digits, all, rfl⟩
    · cases member
    · rcases List.mem_cons.mp member with rfl | member
      · decide
      · exact digit (all.2 c member)
  · rcases exponent with rfl | ⟨e, sign, digits, letter, signed, all, rfl⟩
    · cases member
    · rcases List.mem_append.mp member with member | member
      · rcases List.mem_cons.mp member with rfl | member
        · rcases letter with rfl | rfl <;> decide
        · rcases signed with rfl | rfl | rfl
          · cases member
          · cases List.mem_singleton.mp member
            decide
          · cases List.mem_singleton.mp member
            decide
      · exact digit (all.2 c member)

/-- A number starts with a sign or a digit. -/
theorem Number.head {text : List Char} (number : Number text) :
    ∃ first rest, text = first :: rest ∧ (first = '-' ∨ first.isDigit = true) := by
  obtain ⟨minus, int, frac, exp, rfl | rfl, integer, _, _, rfl⟩ := number
  · rcases integer with rfl | ⟨first, rest, rfl, _, digits⟩
    · exact ⟨'0', _, rfl, Or.inr (by decide)⟩
    · exact ⟨first, _, rfl, Or.inr (digits.2 first List.mem_cons_self)⟩
  · exact ⟨'-', _, rfl, Or.inl rfl⟩

/-! ## Strings -/

/-- Read four digits. -/
def readUnit (text : List Char) : Option (Nat × List Char) := do
  let unit ← unitValue (text.take 4)
  some (unit, text.drop 4)

/-- Read what follows a backslash. -/
def readEscape : List Char → Option (Char × List Char)
  | [] => none
  | c :: text =>
    if c = 'u' then do
      let (unit, text) ← readUnit text
      if isHigh unit then
        if text.take 2 = ['\\', 'u'] then do
          let (low, text) ← readUnit (text.drop 2)
          if isLow low then some (ofPair unit low, text) else none
        else none
      else if isLow unit then none
      else some (Char.ofNat unit, text)
    else do
      let c ← escapes.lookup c
      some (c, text)

/-- Read the characters of a string up to the quote that ends it. -/
def parseChars : Nat → List Char → Option (List Char × List Char)
  | 0, _ => none
  | _ + 1, [] => none
  | fuel + 1, c :: text =>
    if c = '"' then some ([], text)
    else if c = '\\' then do
      let (c, text) ← readEscape text
      let (chars, text) ← parseChars fuel text
      some (c :: chars, text)
    else if isUnescaped c then do
      let (chars, text) ← parseChars fuel text
      some (c :: chars, text)
    else none

/-- Only four characters have a value. -/
theorem length_of_unitValue {digits : List Char} {unit : Nat}
    (value : unitValue digits = some unit) : digits.length = 4 := by
  unfold unitValue at value
  split at value
  · rfl
  · cases value

/-- The digits of a value are read. -/
theorem readUnit_append {digits : List Char} {unit : Nat} (value : unitValue digits = some unit)
    (rest : List Char) : readUnit (digits ++ rest) = some (unit, rest) := by
  have four := length_of_unitValue value
  simp [readUnit, List.take_left' four, List.drop_left' four, value]

/-- What is read are the digits of a value. -/
theorem unit_of_read {text rest : List Char} {unit : Nat}
    (read : readUnit text = some (unit, rest)) :
    ∃ digits, unitValue digits = some unit ∧ text = digits ++ rest := by
  obtain ⟨value, digits, read⟩ := Option.bind_eq_some_iff.mp read
  cases read
  exact ⟨_, digits, (List.take_append_drop 4 text).symm⟩

/-- An escape is read as the character it stands for. -/
theorem Escape.read {escape : List Char} {c : Char} (stands : Escape escape c) (rest : List Char) :
    readEscape (escape ++ rest) = some (c, rest) := by
  cases stands with
  | short listed =>
    rename_i e
    have different : e ≠ 'u' := by
      rintro rfl
      cases listed
    simp [readEscape, different, listed]
  | unit value single =>
    simp [readEscape, readUnit_append value, single]
  | pair firstValue isFirst secondValue isSecond =>
    simp [readEscape, readUnit_append firstValue, isFirst, readUnit_append secondValue, isSecond]

/-- What is read is an escape. -/
theorem escape_of_read {text rest : List Char} {c : Char}
    (read : readEscape text = some (c, rest)) :
    ∃ escape, Escape escape c ∧ text = escape ++ rest := by
  cases text with
  | nil => cases read
  | cons e text =>
    rw [readEscape] at read
    split_ifs at read with unicode
    · subst unicode
      obtain ⟨⟨unit, following⟩, first, read⟩ := Option.bind_eq_some_iff.mp read
      obtain ⟨digits, value, parted⟩ := unit_of_read first
      dsimp only at read
      split_ifs at read with high prefixed low
      · obtain ⟨⟨second, last⟩, later, read⟩ := Option.bind_eq_some_iff.mp read
        obtain ⟨others, secondValue, remaining⟩ := unit_of_read later
        dsimp only at read
        split_ifs at read with isSecond
        simp only [Option.some.injEq, Prod.mk.injEq] at read
        obtain ⟨rfl, rfl⟩ := read
        refine ⟨_, .pair value high secondValue isSecond, ?_⟩
        rw [parted, ← List.take_append_drop 2 following, prefixed, remaining]
        simp
      · cases read
        exact ⟨_, .unit value ⟨by simpa using high, by simpa using low⟩, by rw [parted]; rfl⟩
    · obtain ⟨stands, listed, read⟩ := Option.bind_eq_some_iff.mp read
      cases read
      exact ⟨[e], .short listed, rfl⟩

/-- A plain character is neither a quote nor a backslash. -/
theorem ne_of_isUnescaped {c : Char} (plain : isUnescaped c = true) : c ≠ '"' ∧ c ≠ '\\' := by
  simp only [isUnescaped, Bool.and_eq_true, bne_iff_ne] at plain
  exact ⟨plain.1.2, plain.2⟩

/-- The characters of a string are read up to its quote. -/
theorem Chars.read {text chars : List Char} (denotes : Chars text chars) (rest : List Char)
    {fuel : Nat} (enough : text.length < fuel) :
    parseChars fuel (text ++ '"' :: rest) = some (chars, rest) := by
  induction denotes generalizing fuel with
  | nil =>
    obtain ⟨fuel, rfl⟩ := Nat.exists_eq_add_one_of_ne_zero (Nat.ne_zero_of_lt enough)
    simp [parseChars]
  | unescaped plain _ ih =>
    obtain ⟨fuel, rfl⟩ := Nat.exists_eq_add_one_of_ne_zero (Nat.ne_zero_of_lt enough)
    have different := ne_of_isUnescaped plain
    rw [List.length_cons, Nat.add_lt_add_iff_right] at enough
    simp [parseChars, different, plain, ih enough]
  | escaped stands _ ih =>
    obtain ⟨fuel, rfl⟩ := Nat.exists_eq_add_one_of_ne_zero (Nat.ne_zero_of_lt enough)
    simp only [List.cons_append, List.length_cons, List.length_append] at enough
    simp [parseChars, stands.read, ih (show _ < fuel by omega)]

/-- What is read up to a quote are the characters of a string. -/
theorem chars_of_parse {fuel : Nat} {text chars rest : List Char}
    (read : parseChars fuel text = some (chars, rest)) :
    ∃ inner, Chars inner chars ∧ text = inner ++ '"' :: rest := by
  induction fuel generalizing text chars with
  | zero => cases read
  | succ fuel ih =>
    cases text with
    | nil => cases read
    | cons c text =>
      rw [parseChars] at read
      split_ifs at read with quote backslash plain
      · cases read
        exact ⟨[], .nil, by rw [quote, List.nil_append]⟩
      · obtain ⟨⟨stands, text⟩, escape, read⟩ := Option.bind_eq_some_iff.mp read
        obtain ⟨⟨later, text⟩, following, read⟩ := Option.bind_eq_some_iff.mp read
        cases read
        obtain ⟨escape, stands, rfl⟩ := escape_of_read escape
        obtain ⟨inner, denotes, rfl⟩ := ih following
        exact ⟨_, .escaped stands denotes, by simp [backslash]⟩
      · obtain ⟨⟨later, text⟩, following, read⟩ := Option.bind_eq_some_iff.mp read
        cases read
        obtain ⟨inner, denotes, rfl⟩ := ih following
        exact ⟨_, .unescaped plain denotes, rfl⟩

/-- Read `string`. -/
def readString : List Char → Option (String × List Char)
  | [] => none
  | c :: text =>
    if c = '"' then do
      let (chars, text) ← parseChars text.length text
      some (String.ofList chars, skipWs text)
    else none

/-! ## Structural characters and literals -/

/-- Read a structural character. -/
def readStructural (c : Char) : List Char → Option (List Char)
  | [] => none
  | d :: text => if d = c then some (skipWs text) else none

/-- Read a name for the value it stands for. -/
def readLiteral (name : List Char) (value : Value) (text : List Char) :
    Option (Value × List Char) :=
  if name.isPrefixOf text then some (value, skipWs (text.drop name.length)) else none

/-- Read `number`. -/
def readNumber (text : List Char) : Option (Value × List Char) :=
  let literal := text.takeWhile isNumberChar
  if isNumber literal then some (.number literal, skipWs (text.dropWhile isNumberChar)) else none

/-- Whitespace in front is skipped. -/
theorem Ws.skip {before : List Char} (blank : Ws before) (text : List Char) :
    skipWs (before ++ text) = skipWs text := by
  rw [skipWs, List.dropWhile_append_of_pos blank, skipWs]

/-- Nothing is skipped in front of a character that is not whitespace. -/
theorem skipWs_cons {c : Char} (solid : isWs c = false) (text : List Char) :
    skipWs (c :: text) = c :: text := by
  simp [skipWs, solid]

/-- What is skipped is whitespace. -/
theorem skipWs_split (text : List Char) : ∃ before, Ws before ∧ text = before ++ skipWs text :=
  ⟨text.takeWhile isWs, fun _ member => List.mem_takeWhile_imp member,
    (List.takeWhile_append_dropWhile).symm⟩

/-- Whitespace ends a number. -/
theorem Ws.stops {after rest : List Char} (blank : Ws after) (stops : Stops isNumberChar rest) :
    Stops isNumberChar (after ++ rest) := by
  cases after with
  | nil => exact stops
  | cons c after =>
    intro d first
    cases first
    have space := blank c List.mem_cons_self
    simp only [isWs, Bool.or_eq_true, beq_iff_eq] at space
    rcases space with ((rfl | rfl) | rfl) | rfl <;> decide

/-- A structural character ends a number. -/
theorem Structural.stops {c : Char} {text : List Char} (structural : Structural c text)
    (ends : isNumberChar c = false) (rest : List Char) : Stops isNumberChar (text ++ rest) := by
  obtain ⟨before, after, blank, _, rfl⟩ := structural
  rw [List.append_assoc]
  apply blank.stops
  intro d first
  cases first
  exact ends

/-- The whitespace in front of a structural character is skipped. -/
theorem Structural.skip {c : Char} {text : List Char} (structural : Structural c text)
    (solid : isWs c = false) :
    ∃ after, Ws after ∧ ∀ rest, skipWs (text ++ rest) = c :: (after ++ rest) := by
  obtain ⟨before, after, blank, trailing, rfl⟩ := structural
  refine ⟨after, trailing, fun rest => ?_⟩
  rw [List.append_assoc, blank.skip, List.cons_append, skipWs_cons solid]

/-- A structural character is read with the whitespace around it. -/
theorem Structural.read {c : Char} {text : List Char} (structural : Structural c text)
    (solid : isWs c = false) (rest : List Char) :
    readStructural c (skipWs (text ++ rest)) = some (skipWs rest) := by
  obtain ⟨after, trailing, skipped⟩ := structural.skip solid
  rw [skipped, readStructural, if_pos rfl, trailing.skip]

/-- A structural character is not another one. -/
theorem Structural.read_other {c d : Char} {text : List Char} (structural : Structural c text)
    (solid : isWs c = false) (different : c ≠ d) (rest : List Char) :
    readStructural d (skipWs (text ++ rest)) = none := by
  obtain ⟨after, _, skipped⟩ := structural.skip solid
  rw [skipped, readStructural, if_neg different]

/-- A structural character takes room. -/
theorem Structural.length_pos {c : Char} {text : List Char} (structural : Structural c text) :
    0 < text.length := by
  obtain ⟨before, after, _, _, rfl⟩ := structural
  simp

/-- What is read is a structural character with the whitespace after it. -/
theorem structural_of_read {c : Char} {text rest : List Char}
    (read : readStructural c text = some rest) :
    ∃ after, Ws after ∧ text = c :: (after ++ rest) := by
  cases text with
  | nil => cases read
  | cons d text =>
    rw [readStructural] at read
    split_ifs at read with same
    cases read
    obtain ⟨after, blank, split⟩ := skipWs_split text
    exact ⟨after, blank, by rw [same, ← split]⟩

/-- Whitespace and a character that was read make a structural character. -/
theorem structural_of_split {c : Char} {before text rest : List Char} (blank : Ws before)
    (read : readStructural c text = some rest) :
    ∃ structural, Structural c structural ∧ before ++ text = structural ++ rest := by
  obtain ⟨after, trailing, rfl⟩ := structural_of_read read
  exact ⟨before ++ c :: after, ⟨before, after, blank, trailing, rfl⟩, by simp⟩

/-- A character and the whitespace skipped after it make a structural character. -/
theorem structural_of_cons (c : Char) (text : List Char) :
    ∃ structural, Structural c structural ∧ c :: text = structural ++ skipWs text := by
  obtain ⟨after, blank, split⟩ := skipWs_split text
  exact ⟨c :: after, ⟨[], after, .nil, blank, rfl⟩, by rw [List.cons_append, ← split]⟩

/-- A string is read. -/
theorem Str.read {text : List Char} {value : String} (string : Str text value)
    (rest : List Char) : readString (text ++ rest) = some (value, skipWs rest) := by
  obtain ⟨inner, denotes, rfl⟩ := string
  have read := denotes.read rest (show inner.length < (inner ++ '"' :: rest).length by simp)
  have split : ('"' :: inner ++ ['"']) ++ rest = '"' :: (inner ++ '"' :: rest) := by simp
  rw [split, readString, if_pos rfl, read]
  simp

/-- A string does not start with whitespace. -/
theorem Str.skip {text : List Char} {value : String} (string : Str text value)
    (rest : List Char) : skipWs (text ++ rest) = text ++ rest := by
  obtain ⟨inner, _, rfl⟩ := string
  rw [List.cons_append, List.cons_append, skipWs_cons (by decide)]

/-- What is read is a string with the whitespace after it. -/
theorem str_of_read {text rest : List Char} {value : String}
    (read : readString text = some (value, rest)) :
    ∃ inner after, Str inner value ∧ Ws after ∧ text = inner ++ (after ++ rest) := by
  cases text with
  | nil => cases read
  | cons c text =>
    rw [readString] at read
    split_ifs at read with quote
    obtain ⟨⟨chars, text⟩, within, read⟩ := Option.bind_eq_some_iff.mp read
    cases read
    obtain ⟨inner, denotes, rfl⟩ := chars_of_parse within
    obtain ⟨after, blank, split⟩ := skipWs_split text
    refine ⟨'"' :: inner ++ ['"'], after, ⟨inner, ?_, rfl⟩, blank, ?_⟩
    · rwa [String.toList_ofList]
    · rw [quote, ← split]
      simp

/-- A name is read. -/
theorem readLiteral_append (name : List Char) (value : Value) (rest : List Char) :
    readLiteral name value (name ++ rest) = some (value, skipWs rest) := by
  rw [readLiteral, if_pos (List.isPrefixOf_iff_prefix.mpr (List.prefix_append name rest)),
    List.drop_left]

/-- What is read is the name with the whitespace after it. -/
theorem literal_of_read {name text rest : List Char} {value found : Value}
    (read : readLiteral name value text = some (found, rest)) :
    found = value ∧ ∃ after, Ws after ∧ text = name ++ (after ++ rest) := by
  rw [readLiteral] at read
  split_ifs at read with listed
  cases read
  obtain ⟨following, rfl⟩ := List.isPrefixOf_iff_prefix.mp listed
  obtain ⟨after, blank, split⟩ := skipWs_split following
  rw [List.drop_left]
  exact ⟨rfl, after, blank, by rw [← split]⟩

/-- A number is read up to where it ends. -/
theorem Number.read {literal rest : List Char} (number : Number literal)
    (stops : Stops isNumberChar rest) :
    readNumber (literal ++ rest) = some (.number literal, skipWs rest) := by
  have checked := (isNumber_iff literal).mpr number
  simp only [readNumber, takeWhile_stops number.all_numberChar stops, checked,
    dropWhile_stops number.all_numberChar stops, if_true]

/-- What is read is a number with the whitespace after it. -/
theorem number_of_read {text rest : List Char} {value : Value}
    (read : readNumber text = some (value, rest)) :
    ∃ literal after, value = .number literal ∧ Number literal ∧ Ws after ∧
      text = literal ++ (after ++ rest) := by
  simp only [readNumber] at read
  split_ifs at read with checked
  cases read
  obtain ⟨after, blank, split⟩ := skipWs_split (text.dropWhile isNumberChar)
  refine ⟨_, after, rfl, (isNumber_iff _).mp checked, blank, ?_⟩
  rw [← split, List.takeWhile_append_dropWhile]

end TiktokenWorker.Json
