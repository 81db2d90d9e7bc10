import TiktokenWorker.Utf8.Lossy

/-!
# Byte windows of valid text

A window `[p, q)` of the bytes of a text may start and end inside characters. `decodedWindow`
says what it decodes to in terms of the text alone: the bytes of a character begun before the
window, the characters wholly inside it, and the character it cuts at its end. `decode_window`
proves that the lossy reader returns exactly that, by induction on the text with the offset of
its first character.
-/

namespace TiktokenWorker.Utf8

/-- A character of a text and the byte offset it starts at. -/
structure Span where
  /-- Offset of the first byte. -/
  start : Nat
  /-- The character. -/
  char : Char

/-- Offset of the first byte after the character. -/
def Span.stop (span : Span) : Nat := span.start + span.char.utf8Size

/-- A character has at least one byte. -/
theorem Span.start_lt_stop (span : Span) : span.start < span.stop :=
  Nat.lt_add_of_pos_right span.char.utf8Size_pos

/-- The characters of a text whose first byte has the given offset. -/
def spans : Nat → List Char → List Span
  | _, [] => []
  | start, c :: text => ⟨start, c⟩ :: spans (start + c.utf8Size) text

/-- Bytes of the window that belong to a character begun before it. -/
def headBytes (text : List Span) (p q : Nat) : Nat :=
  (text.map fun span => if span.start < p then min q span.stop - p else 0).sum

/-- Characters lying wholly inside the window. -/
def innerChars (text : List Span) (p q : Nat) : List Char :=
  (text.filter fun span => p ≤ span.start ∧ span.stop ≤ q).map Span.char

/-- A character begun inside the window is cut by its end. -/
def CutBy (text : List Span) (p q : Nat) : Prop :=
  ∃ span ∈ text, p ≤ span.start ∧ span.start < q ∧ q < span.stop

instance (text : List Span) (p q : Nat) : Decidable (CutBy text p q) :=
  inferInstanceAs (Decidable (∃ span ∈ text, p ≤ span.start ∧ span.start < q ∧ q < span.stop))

/-- What a window decodes to: one U+FFFD for each byte of a character begun before it, the
characters inside it, and one U+FFFD if it cuts a character at its end. -/
def decodedWindow (text : List Span) (p q : Nat) : List Char :=
  List.replicate (headBytes text p q) replacement ++ innerChars text p q ++
    if CutBy text p q then [replacement] else []

/-- The offset lies strictly inside a character. -/
def InsideChar (text : List Span) (offset : Nat) : Prop :=
  ∃ span ∈ text, span.start < offset ∧ offset < span.stop

instance (text : List Span) (offset : Nat) : Decidable (InsideChar text offset) :=
  inferInstanceAs (Decidable (∃ span ∈ text, span.start < offset ∧ offset < span.stop))

/-! ## One character at a time -/

section Cons

variable (span : Span) (text : List Span) (p q : Nat)

theorem headBytes_cons : headBytes (span :: text) p q =
    (if span.start < p then min q span.stop - p else 0) + headBytes text p q := rfl

theorem innerChars_cons : innerChars (span :: text) p q =
    if p ≤ span.start ∧ span.stop ≤ q then span.char :: innerChars text p q
    else innerChars text p q := by
  simp only [innerChars, List.filter_cons]
  split <;> simp_all

theorem cutBy_cons : CutBy (span :: text) p q ↔
    (p ≤ span.start ∧ span.start < q ∧ q < span.stop) ∨ CutBy text p q := by
  simp [CutBy]

end Cons

/-- Every character of a text starts at or after its first byte. -/
theorem spans_start (text : List Char) (base : Nat) :
    ∀ span ∈ spans base text, base ≤ span.start := by
  induction text generalizing base with
  | nil => simp [spans]
  | cons c text ih =>
    intro span member
    rcases List.mem_cons.mp member with rfl | member
    · exact le_refl _
    · exact le_trans (Nat.le_add_right _ _) (ih _ span member)

/-- Characters that all start at or after a window's start leave no bytes before it. -/
theorem headBytes_of_start_ge (text : List Span) (p q : Nat)
    (after : ∀ span ∈ text, p ≤ span.start) : headBytes text p q = 0 := by
  simp only [headBytes, List.sum_eq_zero_iff, List.mem_map, forall_exists_index, and_imp]
  rintro _ span member rfl
  exact if_neg (Nat.not_lt.mpr (after span member))

/-- Characters that all start at or after the end of a window are not inside it. -/
theorem innerChars_after (text : List Span) (p q : Nat) (after : ∀ span ∈ text, q ≤ span.start) :
    innerChars text p q = [] := by
  simp only [innerChars, List.map_eq_nil_iff, List.filter_eq_nil_iff, decide_eq_true_eq]
  intro span member
  have := after span member
  have := span.start_lt_stop
  omega

/-- Characters that all start at or after the end of a window contribute nothing to it. -/
theorem decodedWindow_after (text : List Span) (p q : Nat) (ordered : p ≤ q)
    (after : ∀ span ∈ text, q ≤ span.start) :
    headBytes text p q = 0 ∧ innerChars text p q = [] ∧ ¬CutBy text p q := by
  refine ⟨headBytes_of_start_ge text p q fun span member => le_trans ordered (after span member),
    innerChars_after text p q after, ?_⟩
  · rintro ⟨span, member, _, before, _⟩
    have := after span member
    omega

/-- A window over a sequence of bytes and the rest is a window over each. -/
theorem window_append (bytes rest : List UInt8) (p q : Nat) :
    ((bytes ++ rest).take q).drop p =
      (bytes.take q).drop p ++ (rest.take (q - bytes.length)).drop (p - bytes.length) := by
  rw [List.take_append, List.drop_append, List.length_take]
  by_cases inside : bytes.length ≤ q
  · rw [Nat.min_eq_right inside]
  · simp [show q - bytes.length = 0 by omega]

/-- The part of a sequence after its first byte holds continuation bytes only. -/
theorem Sequence.window_continuation {c : Char} {bytes : List UInt8} (seq : Sequence c bytes)
    {p : Nat} (after : 0 < p) (q : Nat) :
    ∀ byte ∈ (bytes.take q).drop p, isContinuation byte = true := by
  intro byte member
  obtain ⟨p, rfl⟩ : ∃ k, p = k + 1 := ⟨p - 1, by omega⟩
  have tails := seq.tail_continuation
  cases bytes with
  | nil => simp at member
  | cons b0 tail =>
    cases q with
    | zero => simp at member
    | succ q => exact tails byte (List.mem_of_mem_take (List.mem_of_mem_drop member))

/-- The reader on a window of a text is `decodedWindow`. The induction carries the offset of the
first character not yet passed; a character starts before the window, after it, or in it, and in
the last case it is inside or cut. -/
theorem decode_window_from (text : List Char) (base p q : Nat) (ordered : p ≤ q) :
    fromUtf8Lossy (((utf8 text).take (q - base)).drop (p - base)) =
      decodedWindow (spans base text) p q := by
  induction text generalizing base with
  | nil => simp [spans, decodedWindow, headBytes, innerChars, CutBy]
  | cons c text ih =>
    have size : (String.utf8EncodeChar c).length = c.utf8Size := String.length_utf8EncodeChar c
    have positive := c.utf8Size_pos
    have following := spans_start text (base + c.utf8Size)
    have seq := encode_sequence c
    rw [utf8_cons, window_append, size,
      show q - base - c.utf8Size = q - (base + c.utf8Size) by omega,
      show p - base - c.utf8Size = p - (base + c.utf8Size) by omega]
    simp only [spans, decodedWindow, headBytes_cons, innerChars_cons, cutBy_cons, Span.stop]
    generalize String.utf8EncodeChar c = bytes at size seq
    by_cases begun : base < p
    · -- only continuation bytes of this character can be in the window
      rw [fromUtf8Lossy_continuations _ _ (seq.window_continuation (by omega) _), ih]
      have count : ((bytes.take (q - base)).drop (p - base)).length =
          min q (base + c.utf8Size) - p := by
        simp only [List.length_drop, List.length_take, size]
        omega
      simp only [count, begun, if_true, show ¬p ≤ base by omega, false_and, if_false, false_or,
        decodedWindow, List.replicate_add, List.append_assoc]
    · -- the window starts at or before this character
      have front : p - base = 0 := by omega
      have none_before := headBytes_of_start_ge (spans (base + c.utf8Size) text) p q
        (fun span member => by have := following span member; omega)
      have later := ih (base + c.utf8Size)
      rw [show p - (base + c.utf8Size) = 0 by omega, List.drop_zero] at later
      rw [front, List.drop_zero, show p - (base + c.utf8Size) = 0 by omega, List.drop_zero]
      simp only [decodedWindow, none_before, List.replicate_zero, List.nil_append] at later
      simp only [if_neg begun, none_before, Nat.add_zero, List.replicate_zero, List.nil_append,
        show p ≤ base by omega, true_and]
      by_cases inside : base + c.utf8Size ≤ q
      · rw [List.take_of_length_le (by omega), seq.read, later]
        simp only [inside, if_true, show ¬q < base + c.utf8Size by omega, and_false, false_or,
          List.cons_append]
      · have none_later := decodedWindow_after (spans (base + c.utf8Size) text) p q ordered
          (fun span member => by have := following span member; omega)
        rw [show q - (base + c.utf8Size) = 0 by omega, List.take_zero, List.append_nil]
        simp only [inside, if_false, none_later, or_false, List.nil_append]
        by_cases cut : base < q
        · rw [seq.read_cut (by omega) (by omega), if_pos ⟨cut, by omega⟩]
        · rw [if_neg (by omega), show q - base = 0 by omega, List.take_zero, fromUtf8Lossy_nil]

/-- The reader on the window `[p, q)` of a text is `decodedWindow`. -/
theorem decode_window (text : List Char) {p q : Nat} (ordered : p ≤ q) :
    fromUtf8Lossy (((utf8 text).take q).drop p) = decodedWindow (spans 0 text) p q := by
  simpa using decode_window_from text 0 p q ordered

/-! ## Two adjacent windows -/

/-- Characters a window emits for one character of the text. -/
def emitted (p q : Nat) (span : Span) : Nat :=
  if span.start < p then min q span.stop - p else if span.start < q then 1 else 0

/-- A window emits at most one character for each character begun in it. -/
theorem length_decodedWindow (text : List Char) (base p q : Nat) (ordered : p ≤ q) :
    (decodedWindow (spans base text) p q).length = ((spans base text).map (emitted p q)).sum := by
  induction text generalizing base with
  | nil => simp [spans, decodedWindow, headBytes, innerChars, CutBy]
  | cons c text ih =>
    have following := spans_start text (base + c.utf8Size)
    have positive := c.utf8Size_pos
    have later := ih (base + c.utf8Size)
    simp only [decodedWindow, List.length_append, List.length_replicate] at later ⊢
    simp only [spans, headBytes_cons, innerChars_cons, cutBy_cons, List.map_cons, List.sum_cons,
      ← later, emitted, Span.stop]
    by_cases begun : base < p
    · simp only [begun, if_true, show ¬p ≤ base by omega, false_and, if_false, false_or]
      omega
    · simp only [begun, if_false, show p ≤ base by omega, true_and]
      by_cases inside : base + c.utf8Size ≤ q
      · simp only [inside, if_true, show ¬q < base + c.utf8Size by omega, and_false, false_or,
          List.length_cons, show base < q by omega]
        omega
      · have none_later := decodedWindow_after (spans (base + c.utf8Size) text) p q ordered
          (fun span member => by have := following span member; omega)
        simp only [inside, if_false, none_later, or_false, List.length_nil]
        by_cases cut : base < q
        · simp [cut, show q < base + c.utf8Size by omega]
        · simp [cut]

/-- Decoding a prefix in two windows emits as many characters as decoding it in one, and one more
for each byte of a character the second window finds begun. -/
theorem length_decodedWindow_split (text : List Char) {p q : Nat} (ordered : p ≤ q) :
    (decodedWindow (spans 0 text) 0 p).length + (decodedWindow (spans 0 text) p q).length =
      (decodedWindow (spans 0 text) 0 q).length + headBytes (spans 0 text) p q := by
  rw [length_decodedWindow _ _ _ _ (Nat.zero_le p), length_decodedWindow _ _ _ _ ordered,
    length_decodedWindow _ _ _ _ (Nat.zero_le q), headBytes, ← List.sum_map_add,
    ← List.sum_map_add]
  congr 1
  apply List.map_congr_left
  intro span _
  have := span.start_lt_stop
  simp only [emitted, Nat.not_lt_zero, if_false]
  split_ifs <;> omega

/-- A nonempty window starts inside no character exactly when it holds no byte of one begun
before it. -/
theorem headBytes_eq_zero_iff (text : List Span) {p q : Nat} (nonempty : p < q) :
    headBytes text p q = 0 ↔ ¬InsideChar text p := by
  simp only [headBytes, List.sum_eq_zero_iff, List.mem_map, forall_exists_index, and_imp,
    InsideChar, not_exists, not_and]
  constructor
  · intro zero span member begun
    have none := zero _ span member rfl
    rw [if_pos begun] at none
    omega
  · rintro outside _ span member rfl
    by_cases begun : span.start < p
    · have := outside span member begun
      rw [if_pos begun]
      omega
    · exact if_neg begun

/-- An offset of a text that lies inside no character splits the text there. -/
theorem split_of_not_insideChar (text : List Char) (base p : Nat) (after : base ≤ p)
    (within : p ≤ base + (utf8 text).length) (outside : ¬InsideChar (spans base text) p) :
    ∃ before rest, text = before ++ rest ∧ base + (utf8 before).length = p := by
  induction text generalizing base with
  | nil => exact ⟨[], [], rfl, by simp at within ⊢; omega⟩
  | cons c text ih =>
    by_cases here : p = base
    · exact ⟨[], c :: text, rfl, by simp [here]⟩
    · simp only [spans, InsideChar, List.mem_cons, exists_eq_or_imp, Span.stop, not_or,
        not_and] at outside
      have passed : base + c.utf8Size ≤ p := by
        have := outside.1 (by omega)
        omega
      simp only [utf8_cons, List.length_append, String.length_utf8EncodeChar] at within
      obtain ⟨before, rest, split, size⟩ := ih (base + c.utf8Size) passed (by omega) outside.2
      refine ⟨c :: before, rest, by rw [split, List.cons_append], ?_⟩
      simp only [utf8_cons, List.length_append, String.length_utf8EncodeChar]
      omega

/-- Two windows that meet between characters decode to what their union decodes to. -/
theorem decodedWindow_append (text : List Char) {p q : Nat} (ordered : p ≤ q)
    (within : p ≤ (utf8 text).length) (outside : ¬InsideChar (spans 0 text) p) :
    decodedWindow (spans 0 text) 0 p ++ decodedWindow (spans 0 text) p q =
      decodedWindow (spans 0 text) 0 q := by
  obtain ⟨before, rest, rfl, size⟩ :=
    split_of_not_insideChar text 0 p (Nat.zero_le p) (by omega) outside
  rw [Nat.zero_add] at size
  subst size
  simp only [← decode_window _ (Nat.zero_le _), ← decode_window _ ordered, List.drop_zero,
    utf8_append, List.take_append, List.take_of_length_le ordered, List.drop_left,
    Nat.sub_self, List.take_length, List.take_zero, List.append_nil,
    fromUtf8Lossy_utf8, fromUtf8Lossy_utf8_append]

/-- A prefix that holds every byte decodes to the text. -/
theorem decodedWindow_all (text : List Char) {q : Nat} (all : (utf8 text).length ≤ q) :
    decodedWindow (spans 0 text) 0 q = text := by
  rw [← decode_window _ (Nat.zero_le q), List.drop_zero, List.take_of_length_le all,
    fromUtf8Lossy_utf8]

/-- A window from the first byte on decodes to whole characters and one U+FFFD if it ends inside
one. -/
theorem decodedWindow_zero (text : List Span) (q : Nat) : decodedWindow text 0 q =
    innerChars text 0 q ++ if InsideChar text q then [replacement] else [] := by
  have none := headBytes_of_start_ge text 0 q fun span _ => Nat.zero_le span.start
  have same : CutBy text 0 q ↔ InsideChar text q := by simp [CutBy, InsideChar]
  rw [decodedWindow, none, List.replicate_zero, List.nil_append]
  simp only [same]

/-- No character starts before the first byte. -/
theorem not_insideChar_zero (text : List Span) : ¬InsideChar text 0 := by
  rintro ⟨span, _, before, _⟩
  exact Nat.not_lt_zero _ before

/-! ## A run of adjacent windows -/

section Run

variable (text : List Char) (bound : Nat → Nat)

/-- What the first `windows` windows between consecutive bounds decode to. -/
def decodedRun (windows : Nat) : List Char :=
  (List.range windows).flatMap fun i => decodedWindow (spans 0 text) (bound i) (bound (i + 1))

theorem decodedRun_succ (windows : Nat) : decodedRun text bound (windows + 1) =
    decodedRun text bound windows ++
      decodedWindow (spans 0 text) (bound windows) (bound (windows + 1)) := by
  simp [decodedRun, List.range_succ]

/-- A run of windows emits what one window would, and one character more for each byte that some
window finds of a character begun before it. -/
theorem length_decodedRun (start : bound 0 = 0) (windows : Nat)
    (ordered : ∀ i < windows, bound i ≤ bound (i + 1)) :
    (decodedRun text bound windows).length =
      (decodedWindow (spans 0 text) 0 (bound windows)).length +
        ((List.range windows).map fun i =>
          headBytes (spans 0 text) (bound i) (bound (i + 1))).sum := by
  induction windows with
  | zero =>
    have none := length_decodedWindow_split text (Nat.le_refl 0)
    simp only [decodedRun, List.range_zero, List.flatMap_nil, List.length_nil, List.map_nil,
      List.sum_nil, start]
    rw [← decode_window text (Nat.le_refl 0)]
    simp
  | succ windows ih =>
    have split := length_decodedWindow_split text (ordered windows (Nat.lt_succ_self _))
    have earlier := ih (fun i below => ordered i (by omega))
    rw [decodedRun_succ, List.length_append, earlier, List.range_succ, List.map_append,
      List.sum_append, List.map_singleton, List.sum_singleton]
    omega

/-- A run of windows that meet between characters decodes to what one window would. -/
theorem decodedRun_of_aligned (start : bound 0 = 0) (windows : Nat)
    (ordered : ∀ i < windows, bound i ≤ bound (i + 1))
    (within : ∀ i < windows, bound i ≤ (utf8 text).length)
    (aligned : ∀ i < windows, ¬InsideChar (spans 0 text) (bound i)) :
    decodedRun text bound windows = decodedWindow (spans 0 text) 0 (bound windows) := by
  induction windows with
  | zero =>
    rw [start, ← decode_window text (Nat.le_refl 0)]
    simp [decodedRun]
  | succ windows ih =>
    rw [decodedRun_succ, ih (fun i below => ordered i (by omega))
      (fun i below => within i (by omega)) (fun i below => aligned i (by omega))]
    exact decodedWindow_append text (ordered windows (by omega)) (within windows (by omega))
      (aligned windows (by omega))

/-- Bounds that do not move back stay below the last one. -/
theorem bound_le_last (bound : Nat → Nat) (windows : Nat)
    (ordered : ∀ i < windows, bound i ≤ bound (i + 1)) {i : Nat} (below : i ≤ windows) :
    bound i ≤ bound windows := by
  induction windows with
  | zero => rw [Nat.le_zero.mp below]
  | succ windows ih =>
    rcases Nat.le_succ_iff.mp below with earlier | rfl
    · have before := ih (fun j before => ordered j (by omega)) earlier
      exact le_trans before (ordered windows (by omega))
    · exact le_refl _

/-- Windows that partition a text decode to it exactly when none starts inside a character: a
window that does emits a character for each byte it finds of one begun before it, and the first
window already emitted one for that character. -/
theorem decodedRun_eq_iff (start : bound 0 = 0) (windows : Nat)
    (reaches : bound windows = (utf8 text).length)
    (increasing : ∀ i < windows, bound i < bound (i + 1)) :
    decodedRun text bound windows = text ↔
      ∀ i < windows, ¬InsideChar (spans 0 text) (bound i) := by
  have ordered : ∀ i < windows, bound i ≤ bound (i + 1) := fun i below => (increasing i below).le
  have within (i : Nat) (below : i ≤ windows) : bound i ≤ (utf8 text).length := by
    rw [← reaches]
    exact bound_le_last bound windows ordered below
  constructor
  · intro same i below
    have lengths := length_decodedRun text bound start windows ordered
    rw [same, reaches, decodedWindow_all text le_rfl] at lengths
    have none : ((List.range windows).map fun i =>
        headBytes (spans 0 text) (bound i) (bound (i + 1))).sum = 0 := by omega
    rw [List.sum_eq_zero_iff] at none
    exact (headBytes_eq_zero_iff (spans 0 text) (increasing i below)).mp
      (none _ (List.mem_map.mpr ⟨i, List.mem_range.mpr below, rfl⟩))
  · intro aligned
    rw [decodedRun_of_aligned text bound start windows ordered
      (fun i below => within i below.le) aligned, reaches, decodedWindow_all text le_rfl]

end Run

/-! ## Whole characters of a window -/

theorem innerChars_append (left right : List Span) (p q : Nat) :
    innerChars (left ++ right) p q = innerChars left p q ++ innerChars right p q := by
  simp [innerChars]

theorem spans_append (left right : List Char) (base : Nat) :
    spans base (left ++ right) = spans base left ++ spans (base + (utf8 left).length) right := by
  induction left generalizing base with
  | nil => simp [spans]
  | cons c left ih => simp [spans, ih, Nat.add_assoc]

/-- From the start of a text on, the characters inside a window are a prefix of it, and the next
character, if any, ends after the window. -/
theorem innerChars_prefix (text : List Char) (base p q : Nat) (started : p ≤ base)
    (ordered : base ≤ q) :
    ∃ rest, text = innerChars (spans base text) p q ++ rest ∧
      base + (utf8 (innerChars (spans base text) p q)).length ≤ q ∧
      ∀ c ∈ rest.head?,
        q < base + (utf8 (innerChars (spans base text) p q)).length + c.utf8Size := by
  induction text generalizing base with
  | nil => exact ⟨[], by simp [spans, innerChars, ordered]⟩
  | cons c text ih =>
    simp only [spans, innerChars_cons, started, true_and, Span.stop]
    by_cases inside : base + c.utf8Size ≤ q
    · obtain ⟨rest, split, fits, next⟩ := ih (base + c.utf8Size) (by omega) inside
      rw [if_pos inside]
      refine ⟨rest, by rw [List.cons_append, ← split], ?_, fun d found => ?_⟩
      · simp only [utf8_cons, List.length_append, String.length_utf8EncodeChar]
        omega
      · have := next d found
        simp only [utf8_cons, List.length_append, String.length_utf8EncodeChar]
        omega
    · have none_later := innerChars_after (spans (base + c.utf8Size) text) p q
        (fun span member => by have := spans_start text (base + c.utf8Size) span member; omega)
      rw [if_neg inside, none_later]
      refine ⟨c :: text, rfl, by simpa using ordered, fun d found => ?_⟩
      simp only [List.head?_cons, Option.mem_def, Option.some.injEq] at found
      subst found
      simp only [utf8_nil, List.length_nil]
      omega

/-- A window that holds every byte of a text holds every character. -/
theorem innerChars_all (text : List Char) (base p q : Nat) (started : p ≤ base)
    (reaches : base + (utf8 text).length ≤ q) : innerChars (spans base text) p q = text := by
  induction text generalizing base with
  | nil => rfl
  | cons c text ih =>
    simp only [utf8_cons, List.length_append, String.length_utf8EncodeChar] at reaches
    have later := ih (base + c.utf8Size) (by omega) (by omega)
    simp only [spans, innerChars_cons, Span.stop, started, show base + c.utf8Size ≤ q by omega,
      and_self, if_true, later]

/-- Up to the end of a text, the characters inside a window are a suffix of it. -/
theorem innerChars_suffix (text : List Char) (base p q : Nat)
    (reaches : base + (utf8 text).length ≤ q) : innerChars (spans base text) p q <:+ text := by
  induction text generalizing base with
  | nil => exact List.suffix_refl _
  | cons c text ih =>
    simp only [utf8_cons, List.length_append, String.length_utf8EncodeChar] at reaches
    have later := ih (base + c.utf8Size) (by omega)
    simp only [spans, innerChars_cons, Span.stop, show base + c.utf8Size ≤ q by omega, and_true]
    by_cases started : p ≤ base
    · rw [if_pos started, innerChars_all text _ _ _ (by omega) (by omega)]
    · rw [if_neg started]
      exact later.trans (List.suffix_cons c text)

/-- A character whose bytes lie in a window is inside it, between whole characters of the text
that precede it and whole characters that follow it. -/
theorem innerChars_intact (before : List Char) (c : Char) (after : List Char) (p q : Nat)
    (started : p ≤ (utf8 before).length) (ended : (utf8 before).length + c.utf8Size ≤ q) :
    ∃ left right, left <:+ before ∧ right <+: after ∧
      innerChars (spans 0 (before ++ c :: after)) p q = left ++ c :: right := by
  refine ⟨innerChars (spans 0 before) p q, innerChars
    (spans ((utf8 before).length + c.utf8Size) after) p q, ?_, ?_, ?_⟩
  · exact innerChars_suffix before 0 p q (by omega)
  · obtain ⟨rest, split, _⟩ := innerChars_prefix after ((utf8 before).length + c.utf8Size) p q
      (by omega) ended
    exact ⟨rest, split.symm⟩
  · rw [spans_append, innerChars_append, Nat.zero_add]
    simp only [spans, innerChars_cons, Span.stop, started, ended, and_self, if_true]

/-- So a window decodes to that character among the ones that surround it, after and before the
replacements of the characters it cuts. -/
theorem decodedWindow_intact (before : List Char) (c : Char) (after : List Char) (p q : Nat)
    (started : p ≤ (utf8 before).length) (ended : (utf8 before).length + c.utf8Size ≤ q) :
    ∃ left right head tail, left <:+ before ∧ right <+: after ∧
      decodedWindow (spans 0 (before ++ c :: after)) p q =
        List.replicate head replacement ++ (left ++ c :: right) ++
          List.replicate tail replacement := by
  obtain ⟨left, right, ofBefore, ofAfter, inner⟩ :=
    innerChars_intact before c after p q started ended
  refine ⟨left, right, headBytes (spans 0 (before ++ c :: after)) p q,
    if CutBy (spans 0 (before ++ c :: after)) p q then 1 else 0, ofBefore, ofAfter, ?_⟩
  rw [decodedWindow, inner]
  split <;> rfl

/-! ## Prefixes that decode to the text -/

/-- An offset inside a character splits the text around it. -/
theorem insideChar_split (text : List Char) (base offset : Nat)
    (inside : InsideChar (spans base text) offset) :
    ∃ before c after, text = before ++ c :: after ∧ base + (utf8 before).length < offset ∧
      offset < base + (utf8 before).length + c.utf8Size := by
  induction text generalizing base with
  | nil => simp [InsideChar, spans] at inside
  | cons d text ih =>
    obtain ⟨span, member, begun, ended⟩ := inside
    rcases List.mem_cons.mp member with rfl | later
    · exact ⟨[], d, text, rfl, by simpa using begun, by simpa [Span.stop] using ended⟩
    · obtain ⟨before, c, after, split, begun, ended⟩ := ih _ ⟨span, later, begun, ended⟩
      refine ⟨d :: before, c, after, by rw [split, List.cons_append], ?_, ?_⟩
      · simp only [utf8_cons, List.length_append, String.length_utf8EncodeChar]
        omega
      · simp only [utf8_cons, List.length_append, String.length_utf8EncodeChar]
        omega

/-- A prefix that ends inside a character decodes to the characters before it and one U+FFFD. -/
theorem decodedWindow_cut (before : List Char) (c : Char) (after : List Char) {q : Nat}
    (begun : (utf8 before).length < q) (cut : q < (utf8 before).length + c.utf8Size) :
    decodedWindow (spans 0 (before ++ c :: after)) 0 q = before ++ [replacement] := by
  have size : (String.utf8EncodeChar c).length = c.utf8Size := String.length_utf8EncodeChar c
  have none_after : q - (utf8 before).length - c.utf8Size = 0 := by omega
  rw [← decode_window _ (Nat.zero_le q), List.drop_zero, utf8_append, utf8_cons,
    List.take_append, List.take_of_length_le begun.le, fromUtf8Lossy_utf8_append,
    List.take_append, size, none_after, List.take_zero, List.append_nil,
    (encode_sequence c).read_cut (by omega) (by omega)]

/-- A prefix of a text decodes to the whole text exactly when it is the whole text or cuts a last
character that is U+FFFD itself. -/
theorem decodedWindow_eq_self_iff (text : List Char) (q : Nat) :
    decodedWindow (spans 0 text) 0 q = text ↔ (utf8 text).length ≤ q ∨
      ∃ before, text = before ++ [replacement] ∧ (utf8 before).length < q := by
  by_cases all : (utf8 text).length ≤ q
  · exact ⟨fun _ => Or.inl all, fun _ => decodedWindow_all text all⟩
  rw [Nat.not_le] at all
  constructor
  · intro same
    by_cases inside : InsideChar (spans 0 text) q
    · obtain ⟨before, c, after, rfl, begun, cut⟩ := insideChar_split text 0 q inside
      rw [Nat.zero_add] at begun cut
      rw [decodedWindow_cut before c after begun cut] at same
      exact Or.inr ⟨before, same.symm, begun⟩
    · obtain ⟨before, rest, rfl, size⟩ :=
        split_of_not_insideChar text 0 q (Nat.zero_le q) (by omega) inside
      rw [Nat.zero_add] at size
      rw [← decode_window _ (Nat.zero_le q), List.drop_zero, utf8_append, ← size, List.take_left,
        fromUtf8Lossy_utf8] at same
      rw [← same] at all
      omega
  · rintro (whole | ⟨before, rfl, begun⟩)
    · omega
    · rw [utf8_append, utf8_cons, utf8_nil, List.append_nil, List.length_append,
        String.length_utf8EncodeChar] at all
      exact decodedWindow_cut before replacement [] begun all

/-! ## Windows between characters -/

/-- What follows the bytes of a text is read on its own, from whichever of them reading starts. -/
theorem fromUtf8Lossy_drop_append (text : List Char) (skip : Nat) (rest : List UInt8) :
    fromUtf8Lossy ((utf8 text).drop skip ++ rest) =
      fromUtf8Lossy ((utf8 text).drop skip) ++ fromUtf8Lossy rest := by
  induction text generalizing skip with
  | nil => simp
  | cons c text ih =>
    have size : (String.utf8EncodeChar c).length = c.utf8Size := String.length_utf8EncodeChar c
    rw [utf8_cons, List.drop_append, List.append_assoc]
    by_cases start : skip = 0
    · -- the character is read whole
      subst start
      have later := ih 0
      rw [List.drop_zero] at later
      rw [Nat.zero_sub, List.drop_zero, List.drop_zero, (encode_sequence c).read,
        (encode_sequence c).read, later, List.cons_append]
    · -- what is left of it are continuation bytes
      have begun : ∀ byte ∈ (String.utf8EncodeChar c).drop skip, isContinuation byte = true := by
        have window := (encode_sequence c).window_continuation (Nat.pos_of_ne_zero start)
          (String.utf8EncodeChar c).length
        rwa [List.take_length] at window
      rw [fromUtf8Lossy_continuations _ _ begun, fromUtf8Lossy_continuations _ _ begun, ih,
        List.append_assoc]

/-- A window is the two it is cut into between characters. -/
theorem decodedWindow_split (text : List Char) {p m q : Nat} (first : p ≤ m) (second : m ≤ q)
    (within : m ≤ (utf8 text).length) (outside : ¬InsideChar (spans 0 text) m) :
    decodedWindow (spans 0 text) p q =
      decodedWindow (spans 0 text) p m ++ decodedWindow (spans 0 text) m q := by
  obtain ⟨before, after, rfl, size⟩ :=
    split_of_not_insideChar text 0 m (Nat.zero_le m) (by omega) outside
  rw [Nat.zero_add] at size
  subst size
  rw [← decode_window _ (first.trans second), ← decode_window _ first, ← decode_window _ second,
    utf8_append, List.take_append, List.take_of_length_le second, List.drop_append,
    Nat.sub_eq_zero_of_le first, List.drop_zero, List.take_left, List.drop_left,
    fromUtf8Lossy_drop_append]

/-- Two offsets of a text inside no character enclose a piece of it. -/
theorem piece_of_not_insideChar (text : List Char) {p q : Nat} (ordered : p ≤ q)
    (within : q ≤ (utf8 text).length) (outsideLeft : ¬InsideChar (spans 0 text) p)
    (outsideRight : ¬InsideChar (spans 0 text) q) :
    ∃ before piece after, text = before ++ piece ++ after ∧ (utf8 before).length = p ∧
      (utf8 before).length + (utf8 piece).length = q := by
  obtain ⟨front, after, rfl, sizeFront⟩ :=
    split_of_not_insideChar text 0 q (Nat.zero_le q) (by omega) outsideRight
  have outside : ¬InsideChar (spans 0 front) p := by
    rintro ⟨span, member, begun, ended⟩
    apply outsideLeft
    rw [spans_append]
    exact ⟨span, List.mem_append_left _ member, begun, ended⟩
  obtain ⟨before, piece, rfl, size⟩ :=
    split_of_not_insideChar front 0 p (Nat.zero_le p) (by omega) outside
  rw [utf8_append, List.length_append] at sizeFront
  exact ⟨before, piece, after, rfl, by omega, by omega⟩

end TiktokenWorker.Utf8
