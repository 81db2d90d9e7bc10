import Mathlib.Data.List.Basic
import Mathlib.Algebra.Order.Floor.Div
import Mathlib.Tactic

/-!
# Sliding windows over a finite sequence

Windows of a fixed size advance by the size less the overlap until one reaches the end of the
sequence. Whether a window has a successor is one comparison, `succ_lt_count_iff`; the bounds,
the shared items, the coverage of every short span and the reconstruction of the sequence are
all read off it. What a quantity that grows along the sequence adds up to over all windows is
bounded by how many of them an item can be in.
-/

namespace TiktokenWorker.Sliding

/-- A window size and an overlap it leaves room to advance past. -/
structure Window where
  /-- Items in a full window. -/
  size : Nat
  /-- Items a window shares with the next one. -/
  overlap : Nat
  /-- Every window starts after the one before it. -/
  advances : overlap < size

namespace Window

variable {α : Type*} (window : Window)

/-- Items between the starts of two consecutive windows. -/
def step : Nat := window.size - window.overlap

/-- Every window starts after the one before it. -/
theorem step_pos : 0 < window.step := Nat.sub_pos_of_lt window.advances

/-- A full window is one step and one overlap. -/
theorem step_add_overlap : window.step + window.overlap = window.size :=
  Nat.sub_add_cancel window.advances.le

/-- First item of a window. -/
def start (i : Nat) : Nat := i * window.step

/-- First item after a window, in a sequence of the given length. -/
def stop (length i : Nat) : Nat := min (window.start i + window.size) length

/-- Windows needed to reach the end of a sequence. -/
def count (length : Nat) : Nat :=
  if length ≤ window.size then 1
  else 1 + (length - window.size) ⌈/⌉ window.step

/-- The items of a window. -/
def slice (items : List α) (i : Nat) : List α :=
  items.extract (window.start i) (window.stop items.length i)

@[simp] theorem start_zero : window.start 0 = 0 := Nat.zero_mul _

theorem start_succ (i : Nat) : window.start (i + 1) = window.start i + window.step :=
  Nat.succ_mul i window.step

theorem start_mono {i j : Nat} (ordered : i ≤ j) : window.start i ≤ window.start j :=
  Nat.mul_le_mul_right _ ordered

/-- A window starts at its position or later. -/
theorem le_start (i : Nat) : i ≤ window.start i := Nat.le_mul_of_pos_right i window.step_pos

theorem stop_mono (length : Nat) {i j : Nat} (ordered : i ≤ j) :
    window.stop length i ≤ window.stop length j := by
  have := window.start_mono ordered
  simp only [stop]
  omega

/-- There is a first window. -/
theorem count_pos (length : Nat) : 0 < window.count length := by
  simp only [count]
  split
  · exact Nat.one_pos
  · exact Nat.add_pos_left Nat.one_pos _

/-- A window has a successor exactly when it ends before the sequence does. -/
theorem succ_lt_count_iff (length i : Nat) :
    i + 1 < window.count length ↔ window.start i + window.size < length := by
  have positive := window.step_pos
  simp only [count, start]
  split
  · omega
  · rw [Nat.add_comm i 1, Nat.add_lt_add_iff_left, ← not_le, ceilDiv_le_iff_le_mul positive,
      Nat.mul_comm]
    omega

/-- A window with a successor is full. -/
theorem stop_of_succ {length i : Nat} (next : i + 1 < window.count length) :
    window.stop length i = window.start i + window.size :=
  Nat.min_eq_left ((window.succ_lt_count_iff length i).mp next).le

/-- A window without a successor reaches the end. -/
theorem stop_of_last {length i : Nat} (last : ¬i + 1 < window.count length) :
    window.stop length i = length := by
  rw [succ_lt_count_iff, Nat.not_lt] at last
  exact Nat.min_eq_right last

/-- Whether a window reaches the end is whether it is the last. -/
theorem stop_eq_length_iff {length i : Nat} :
    window.stop length i = length ↔ ¬i + 1 < window.count length := by
  constructor
  · intro reaches next
    have full := window.stop_of_succ next
    have before := (window.succ_lt_count_iff length i).mp next
    omega
  · exact window.stop_of_last

/-- One item more than a window holds makes a second window. -/
theorem count_succ_size : window.count (window.size + 1) = 2 := by
  have positive := window.step_pos
  have second := (window.succ_lt_count_iff (window.size + 1) 0).mpr (by simp)
  have last := (window.succ_lt_count_iff (window.size + 1) 1).not.mpr (by
    rw [start, Nat.one_mul]
    omega)
  omega

/-- Windows that advance by one item are more than windows of the same size that advance by
several, unless one item is left after the first. -/
theorem length_of_count_eq (other : Window) (same : other.size = window.size)
    (several : 2 ≤ window.step) (single : other.step = 1) {length : Nat}
    (more : window.size < length) (counts : window.count length = other.count length) :
    length = window.size + 1 := by
  by_contra longer
  obtain ⟨left, rfl⟩ : ∃ left, length = window.size + (left + 2) :=
    ⟨length - window.size - 2, by omega⟩
  have next := (other.succ_lt_count_iff (window.size + (left + 2)) (left + 1)).mpr (by
    rw [start, single, same]
    omega)
  have last := (window.succ_lt_count_iff (window.size + (left + 2)) (left + 1)).not.mpr (by
    have := Nat.mul_le_mul_left (left + 1) several
    rw [start]
    omega)
  omega

/-- Every window of a nonempty sequence starts inside it. -/
theorem start_lt {length i : Nat} (nonempty : 0 < length)
    (exists_window : i < window.count length) : window.start i < length := by
  cases i with
  | zero => simpa using nonempty
  | succ i =>
    have before := (window.succ_lt_count_iff length i).mp exists_window
    have := window.step_add_overlap
    rw [start_succ]
    omega

/-- A later position is that of a window exactly when more than the overlap is left there. -/
theorem lt_count_iff (length : Nat) {i : Nat} (later : 0 < i) :
    i < window.count length ↔ window.start i + window.overlap < length := by
  obtain ⟨i, rfl⟩ : ∃ k, i = k + 1 := ⟨i - 1, by omega⟩
  have := window.step_add_overlap
  rw [succ_lt_count_iff, start_succ]
  omega

/-- Every window of a nonempty sequence holds an item. -/
theorem start_lt_stop {length i : Nat} (nonempty : 0 < length)
    (exists_window : i < window.count length) : window.start i < window.stop length i := by
  have inside := window.start_lt nonempty exists_window
  have := window.advances
  simp only [stop]
  omega

/-- A window ends the overlap after its successor starts. -/
theorem stop_eq_start_succ {length i : Nat} (next : i + 1 < window.count length) :
    window.stop length i = window.start (i + 1) + window.overlap := by
  have := window.step_add_overlap
  rw [window.stop_of_succ next, start_succ]
  omega

/-- A successor reaches further than every window before it. -/
theorem stop_lt_stop_succ {length i : Nat} (next : i + 1 < window.count length) :
    window.stop length i < window.stop length (i + 1) := by
  have before := (window.succ_lt_count_iff length i).mp next
  have := window.step_pos
  rw [window.stop_of_succ next]
  simp only [stop, start_succ]
  omega

/-- Two consecutive windows share exactly the overlap. -/
theorem card_shared {length i : Nat} (next : i + 1 < window.count length) :
    (Finset.Ico (window.start i) (window.stop length i) ∩
      Finset.Ico (window.start (i + 1)) (window.stop length (i + 1))).card = window.overlap := by
  have full := window.stop_eq_start_succ next
  have further := window.stop_lt_stop_succ next
  have later := window.start_mono (Nat.le_add_right i 1)
  rw [Finset.Ico_inter_Ico, Nat.card_Ico, max_eq_right later, min_eq_left further.le, full]
  omega

/-- Every window after the first holds an item that no earlier window holds: the one the window
before it stops at. -/
theorem exists_new_item {length i : Nat} (next : i + 1 < window.count length) :
    ∃ t ∈ Finset.Ico (window.start (i + 1)) (window.stop length (i + 1)),
      ∀ j < i + 1, t ∉ Finset.Ico (window.start j) (window.stop length j) := by
  have full := window.stop_eq_start_succ next
  have further := window.stop_lt_stop_succ next
  refine ⟨window.stop length i, Finset.mem_Ico.mpr ⟨by omega, further⟩, fun j earlier held => ?_⟩
  have := window.stop_mono length (Nat.le_of_lt_succ earlier)
  have := (Finset.mem_Ico.mp held).2
  omega

/-- A span no longer than the overlap and one more item lies in one window: the last one that
starts at or before it. -/
theorem exists_window_of_span {length a d : Nat} (ordered : a ≤ d) (within : d < length)
    (short : d - a ≤ window.overlap) :
    ∃ i < window.count length, window.start i ≤ a ∧ d < window.stop length i := by
  have positive := window.step_pos
  have sum := window.step_add_overlap
  by_cases exists_window : a / window.step < window.count length
  · refine ⟨a / window.step, exists_window, Nat.div_mul_le_self a _, ?_⟩
    have floor : window.start (a / window.step) + a % window.step = a := by
      rw [start, Nat.mul_comm]
      exact Nat.div_add_mod a window.step
    have remainder := Nat.mod_lt a positive
    simp only [stop]
    omega
  · -- the windows stop before the one that would start here, so the last one covers the span
    have some_window := window.count_pos length
    refine ⟨window.count length - 1, by omega, ?_, ?_⟩
    · apply le_trans (window.start_mono (show _ ≤ a / window.step by omega))
      exact Nat.div_mul_le_self a _
    · rw [window.stop_of_last (by omega)]
      exact within

/-! ## Sums over windows -/

/-- What a monotone quantity grows by over `c` items, summed from `n` positions on, is what it
grows by over `n` items, summed from `c`. -/
theorem sum_shift_sub (F : Nat → Nat) (mono : Monotone F) (c n : Nat) :
    ∑ i ∈ Finset.range n, (F (c + i) - F i) = ∑ i ∈ Finset.range c, (F (n + i) - F i) := by
  have rows := Finset.sum_range_add F n c
  have columns := Finset.sum_range_add F c n
  rw [Nat.add_comm c n, rows] at columns
  rw [Finset.sum_tsub_distrib _ fun i _ => mono (Nat.le_add_left i c),
    Finset.sum_tsub_distrib _ fun i _ => mono (Nat.le_add_left i n)]
  omega

/-- No item is in more windows than steps it takes to cross one: what a monotone quantity grows by
over every window adds up to at most that many times what it grows by over the sequence. -/
theorem sum_growth_le (F : Nat → Nat) (mono : Monotone F) (length windows : Nat) :
    ∑ i ∈ Finset.range windows, (F (window.stop length i) - F (window.start i)) ≤
      (window.size ⌈/⌉ window.step) * (F length - F 0) := by
  let crossed := window.size ⌈/⌉ window.step
  let G := fun k => F (min (window.start k) length)
  have monoG : Monotone G := fun i j ordered =>
    mono (min_le_min_right length (window.start_mono ordered))
  have crosses : window.size ≤ window.step * crossed :=
    (ceilDiv_le_iff_le_mul window.step_pos).mp le_rfl
  have within (i : Nat) :
      F (window.stop length i) - F (window.start i) ≤ G (crossed + i) - G i := by
    have later : window.start (crossed + i) = window.start i + window.step * crossed := by
      rw [start, start, Nat.add_mul, Nat.mul_comm crossed, Nat.add_comm]
    apply tsub_le_tsub (mono _) (mono (min_le_left _ _))
    rw [stop, later]
    omega
  calc ∑ i ∈ Finset.range windows, (F (window.stop length i) - F (window.start i))
      ≤ ∑ i ∈ Finset.range windows, (G (crossed + i) - G i) :=
        Finset.sum_le_sum fun i _ => within i
    _ = ∑ i ∈ Finset.range crossed, (G (windows + i) - G i) := sum_shift_sub G monoG _ _
    _ ≤ ∑ i ∈ Finset.range crossed, (F length - F 0) :=
        Finset.sum_le_sum fun i _ =>
          tsub_le_tsub (mono (min_le_right _ _)) (mono (Nat.zero_le _))
    _ = crossed * (F length - F 0) := by rw [Finset.sum_const, Finset.card_range, smul_eq_mul]

/-! ## Items of the windows -/

/-- A window holds the items between its bounds. -/
theorem length_slice (items : List α) (i : Nat) :
    (window.slice items i).length = window.stop items.length i - window.start i := by
  simp only [slice, List.extract_eq_take_drop, List.length_take, List.length_drop, stop]
  omega

/-- No window holds more items than its size. -/
theorem length_slice_le (items : List α) (i : Nat) :
    (window.slice items i).length ≤ window.size := by
  rw [length_slice, stop]
  omega

/-- A window is a run of consecutive items. -/
theorem slice_isInfix (items : List α) (i : Nat) : window.slice items i <:+: items := by
  rw [slice, List.extract_eq_take_drop]
  exact (List.take_prefix _ _).isInfix.trans (List.drop_suffix _ _).isInfix

/-- A window with a successor has the full size. -/
theorem length_slice_of_succ {items : List α} {i : Nat}
    (next : i + 1 < window.count items.length) : (window.slice items i).length = window.size := by
  rw [length_slice, window.stop_of_succ next]
  omega

/-- The end of a window after one step is the start of its successor. -/
theorem slice_drop_step {items : List α} {i : Nat} (next : i + 1 < window.count items.length) :
    (window.slice items i).drop window.step = (window.slice items (i + 1)).take window.overlap := by
  have full := window.stop_eq_start_succ next
  have further := window.stop_lt_stop_succ next
  have before := window.start_succ i
  simp only [slice, List.extract_eq_take_drop, List.drop_take, List.take_take, List.drop_drop]
  rw [← before, Nat.min_eq_left (by omega)]
  congr 1
  omega

/-- The first window and what each later one adds are a prefix of the sequence, up to where the
last of them ends. The induction is on the number of later windows. -/
theorem rebuild_prefix (items : List α) (later : Nat)
    (exists_window : later < window.count items.length) :
    window.slice items 0 ++ (List.range later).flatMap
        (fun i => (window.slice items (i + 1)).drop window.overlap) =
      items.take (window.stop items.length later) := by
  induction later with
  | zero => simp [slice, List.extract_eq_take_drop]
  | succ later ih =>
    have full := window.stop_eq_start_succ exists_window
    have further := window.stop_lt_stop_succ exists_window
    rw [List.range_succ, List.flatMap_append, ← List.append_assoc, ih (by omega)]
    simp only [List.flatMap_cons, List.flatMap_nil, List.append_nil, slice,
      List.extract_eq_take_drop, List.drop_take, List.drop_drop]
    rw [← full, Nat.sub_sub, ← full, ← List.take_add]
    congr 1
    omega

/-- Dropping the shared items of every later window leaves the sequence, each item once. -/
theorem rebuild (items : List α) :
    window.slice items 0 ++ (List.range (window.count items.length - 1)).flatMap
        (fun i => (window.slice items (i + 1)).drop window.overlap) = items := by
  have some_window := window.count_pos items.length
  rw [window.rebuild_prefix items _ (by omega), window.stop_of_last (by omega), List.take_length]

/-! ## How many windows and items -/

/-- A nonempty sequence has no more windows than items. -/
theorem count_le {length : Nat} (nonempty : 0 < length) : window.count length ≤ length := by
  have some_window := window.count_pos length
  have inside := window.start_lt nonempty (Nat.sub_lt some_window Nat.one_pos)
  have position := window.le_start (window.count length - 1)
  omega

/-- Larger windows that share no more items are no more. -/
theorem count_le_count (other : Window) (larger : window.size ≤ other.size)
    (shared : other.overlap ≤ window.overlap) (length : Nat) :
    other.count length ≤ window.count length := by
  by_contra more
  have some_window := window.count_pos length
  obtain ⟨last, total⟩ : ∃ last, window.count length = last + 1 :=
    ⟨window.count length - 1, by omega⟩
  have before := (other.succ_lt_count_iff length last).mp (by omega)
  have further : window.start last ≤ other.start last :=
    Nat.mul_le_mul_left last (Nat.sub_le_sub_right larger _ |>.trans (Nat.sub_le_sub_left shared _))
  have next := (window.succ_lt_count_iff length last).mpr (by omega)
  omega

/-- Items in the first windows, each counted in every one that holds it. The induction is on the
number of later windows. -/
theorem sum_length_prefix (items : List α) (later : Nat)
    (exists_window : later < window.count items.length) :
    ∑ i ∈ Finset.range (later + 1), (window.slice items i).length =
      window.stop items.length later + later * window.overlap := by
  induction later with
  | zero => simp [length_slice]
  | succ later ih =>
    have earlier := ih (by omega)
    have full := window.stop_eq_start_succ exists_window
    have further := window.stop_lt_stop_succ exists_window
    rw [Finset.sum_range_succ, earlier, length_slice, Nat.add_mul, Nat.one_mul]
    omega

/-- Every item is counted once, and the overlap once more for each window that has a successor. -/
theorem sum_length (items : List α) :
    ∑ i ∈ Finset.range (window.count items.length), (window.slice items i).length =
      items.length + (window.count items.length - 1) * window.overlap := by
  have some_window := window.count_pos items.length
  have counted := window.sum_length_prefix items (window.count items.length - 1) (by omega)
  rwa [Nat.sub_add_cancel some_window, window.stop_of_last (by omega)] at counted

/-! ## All windows -/

/-- The windows of a sequence, in order. -/
def windows (items : List α) : List (List α) :=
  (List.range (window.count items.length)).map (window.slice items)

theorem length_windows (items : List α) :
    (window.windows items).length = window.count items.length := by
  rw [windows, List.length_map, List.length_range]

/-- A window by its position. -/
theorem getElem?_windows (items : List α) {i : Nat} (inside : i < window.count items.length) :
    (window.windows items)[i]? = some (window.slice items i) := by
  rw [windows, List.getElem?_map, List.getElem?_range inside, Option.map_some]

/-- A sequence no longer than a window is its only one. -/
theorem windows_of_le {items : List α} (fits : items.length ≤ window.size) :
    window.windows items = [items] := by
  have one : window.count items.length = 1 := if_pos fits
  have whole : window.slice items 0 = items := by
    rw [slice, stop, start_zero, Nat.zero_add, Nat.min_eq_right fits, List.extract_eq_take_drop,
      Nat.sub_zero, List.drop_zero, List.take_length]
  rw [windows, one, List.range_one, List.map_singleton, whole]

/-- A longer one has one window more than what is left after a step. -/
theorem count_of_lt {length : Nat} (longer : window.size < length) :
    window.count length = window.count (length - window.step) + 1 := by
  have positive := window.step_pos
  have some_window := window.count_pos (length - window.step)
  obtain ⟨last, total⟩ : ∃ last, window.count (length - window.step) = last + 1 :=
    ⟨window.count (length - window.step) - 1, by omega⟩
  have ends := (window.succ_lt_count_iff (length - window.step) last).not.mp (by omega)
  have further := window.start_succ last
  have next : last + 1 < window.count length := by
    rw [succ_lt_count_iff]
    cases last with
    | zero =>
      rw [start_zero]
      omega
    | succ last =>
      have before := (window.succ_lt_count_iff (length - window.step) last).mp (by omega)
      have step := window.start_succ last
      omega
  have stops := (window.succ_lt_count_iff length (last + 1)).not.mpr (by omega)
  omega

/-- Its later windows are those of what is left after a step. -/
theorem slice_succ {items : List α} (longer : window.size < items.length) (i : Nat) :
    window.slice items (i + 1) = window.slice (items.drop window.step) i := by
  have step := window.start_succ i
  have within : window.step ≤ window.size := Nat.sub_le _ _
  have ends : window.stop items.length (i + 1) - window.start (i + 1) =
      window.stop (items.length - window.step) i - window.start i := by
    simp only [stop]
    omega
  rw [slice, slice, List.extract_eq_take_drop, List.extract_eq_take_drop, List.drop_drop,
    List.length_drop, ends, step, Nat.add_comm]

/-- The first window, then those of what is left after a step. -/
theorem windows_of_lt {items : List α} (longer : window.size < items.length) :
    window.windows items =
      items.take window.size :: window.windows (items.drop window.step) := by
  have first : window.slice items 0 = items.take window.size := by
    rw [slice, stop, start_zero, Nat.zero_add, Nat.min_eq_left longer.le, List.extract_eq_take_drop,
      Nat.sub_zero, List.drop_zero]
  have later (i : Nat) := window.slice_succ longer i
  rw [windows, window.count_of_lt longer, List.range_succ_eq_map, List.map_cons, List.map_map,
    first, windows, List.length_drop]
  exact congrArg _ (List.map_congr_left fun i _ => later i)

/-- Keeping the items up to the end of a window keeps the windows up to that one. -/
theorem windows_take (items : List α) {i : Nat} (exists_window : i < window.count items.length) :
    window.windows (items.take (window.start i + window.size)) =
      (window.windows items).take (i + 1) := by
  have positive := window.step_pos
  have length : (items.take (window.start i + window.size)).length =
      min (window.start i + window.size) items.length := List.length_take
  have total : window.count (min (window.start i + window.size) items.length) = i + 1 := by
    have last := (window.succ_lt_count_iff
      (min (window.start i + window.size) items.length) i).not.mpr (by omega)
    cases i with
    | zero =>
      have some_window := window.count_pos (min (window.start 0 + window.size) items.length)
      omega
    | succ i =>
      have before := (window.succ_lt_count_iff items.length i).mp exists_window
      have step := window.start_succ i
      have next := (window.succ_lt_count_iff
        (min (window.start (i + 1) + window.size) items.length) i).mpr (by omega)
      omega
  have kept (j : Nat) (earlier : j < i + 1) :
      window.slice (items.take (window.start i + window.size)) j = window.slice items j := by
    have ordered := window.start_mono (Nat.le_of_lt_succ earlier)
    have ends : window.stop (min (window.start i + window.size) items.length) j =
        window.stop items.length j := by
      simp only [stop]
      omega
    have inside : window.stop items.length j ≤ window.start i + window.size := by
      simp only [stop]
      omega
    rw [slice, slice, length, ends, List.extract_eq_take_drop, List.extract_eq_take_drop,
      List.drop_take, List.take_take, Nat.min_eq_left (by omega)]
  have fewer : min (i + 1) (window.count items.length) = i + 1 := Nat.min_eq_left exists_window
  rw [windows, windows, length, total, ← List.map_take, List.take_range, fewer]
  exact List.map_congr_left fun j listed => kept j (List.mem_range.mp listed)

/-- Items after a full window do not change it. -/
theorem slice_append (items more : List α) {i : Nat}
    (full : window.start i + window.size ≤ items.length) :
    window.slice (items ++ more) i = window.slice items i := by
  have ends : window.stop (items ++ more).length i = window.stop items.length i := by
    rw [stop, stop, List.length_append]
    omega
  rw [slice, slice, ends, stop, Nat.min_eq_left full, List.extract_eq_take_drop,
    List.extract_eq_take_drop, List.drop_append_of_le_length (by omega),
    List.take_append_of_le_length (by rw [List.length_drop]; omega)]

/-- A full window is one of the sequence. -/
theorem lt_count_of_full {length i : Nat} (full : window.start i + window.size ≤ length) :
    i < window.count length := by
  cases i with
  | zero => exact window.count_pos length
  | succ i =>
    have positive := window.step_pos
    have step := window.start_succ i
    rw [succ_lt_count_iff]
    omega

/-- Items after a sequence keep its full windows. -/
theorem windows_append (items more : List α) {several : Nat}
    (full : ∀ i < several, window.start i + window.size ≤ items.length) :
    (window.windows items).take several <+: window.windows (items ++ more) := by
  have length : items.length ≤ (items ++ more).length := by
    rw [List.length_append]
    omega
  have same : (window.windows items).take several =
      (window.windows (items ++ more)).take several := by
    apply List.ext_getElem?
    intro i
    by_cases early : i < several
    · have inside := window.lt_count_of_full (full i early)
      have kept := window.lt_count_of_full ((full i early).trans length)
      rw [List.getElem?_take_of_lt early, List.getElem?_take_of_lt early,
        window.getElem?_windows items inside, window.getElem?_windows (items ++ more) kept,
        window.slice_append items more (full i early)]
    · rw [List.getElem?_take_eq_none (Nat.le_of_not_lt early),
        List.getElem?_take_eq_none (Nat.le_of_not_lt early)]
  rw [same]
  exact List.take_prefix several _

/-- More items make no fewer windows. -/
theorem count_mono {few many : Nat} (more : few ≤ many) : window.count few ≤ window.count many := by
  obtain ⟨last, total⟩ : ∃ last, window.count few = last + 1 :=
    ⟨window.count few - 1, by have := window.count_pos few; omega⟩
  rw [total]
  cases last with
  | zero => exact window.count_pos many
  | succ last =>
    have before := (window.succ_lt_count_iff few last).mp (by omega)
    exact (window.succ_lt_count_iff many last).mpr (by omega)

/-! ## Windows of windows -/

/-- Windows can be made of the items up to the end of the first several of them and of those from
the next one on apart. The induction is on how many. -/
theorem windows_split (several : Nat) (items : List α) (some_windows : 0 < several)
    (longer : several * window.step + window.overlap < items.length) :
    window.windows items =
      window.windows (items.take (several * window.step + window.overlap)) ++
        window.windows (items.drop (several * window.step)) := by
  have positive := window.step_pos
  have sum := window.step_add_overlap
  induction several generalizing items with
  | zero => omega
  | succ several ih =>
    rw [Nat.add_mul, Nat.one_mul] at longer ⊢
    have first := window.windows_of_lt (show window.size < items.length by omega)
    by_cases one : several = 0
    · subst one
      have only := window.windows_of_le (show (items.take window.size).length ≤ window.size by
        rw [List.length_take]
        omega)
      rw [Nat.zero_mul, Nat.zero_add, sum, first, only, List.singleton_append]
    · have left : several * window.step + window.overlap < (items.drop window.step).length := by
        rw [List.length_drop]
        omega
      have rest := ih (items.drop window.step) (Nat.pos_of_ne_zero one) left
      have further : 0 < several * window.step := Nat.mul_pos (Nat.pos_of_ne_zero one) positive
      have cut : window.size <
          (items.take (several * window.step + window.step + window.overlap)).length := by
        rw [List.length_take]
        omega
      have front := window.windows_of_lt cut
      have less : several * window.step + window.step + window.overlap - window.step =
          several * window.step + window.overlap := by omega
      rw [List.take_take, Nat.min_eq_left (by omega), List.drop_take, less] at front
      rw [first, front, rest, List.cons_append, List.drop_drop,
        Nat.add_comm (several * window.step) window.step]

/-- Windows that share as many items and advance several times as far are made of the windows of
the sequence. The induction is on its length. -/
theorem flatMap_windows (large : Window) (several : Nat) (shared : large.overlap = window.overlap)
    (advance : large.step = several * window.step) (items : List α) :
    (large.windows items).flatMap window.windows = window.windows items := by
  have positive := large.step_pos
  have some_windows : 0 < several := Nat.pos_of_ne_zero fun zero => by
    rw [advance, zero, Nat.zero_mul] at positive
    exact Nat.lt_irrefl 0 positive
  have size : several * window.step + window.overlap = large.size := by
    rw [← advance, ← shared, large.step_add_overlap]
  induction total : items.length using Nat.strong_induction_on generalizing items with
  | _ length ih =>
    by_cases fits : items.length ≤ large.size
    · rw [large.windows_of_le fits, List.flatMap_singleton]
    · have longer : large.size < items.length := Nat.lt_of_not_le fits
      have advances := large.advances
      have shorter : (items.drop large.step).length < length := by
        rw [List.length_drop]
        omega
      have later := ih _ shorter (items.drop large.step) rfl
      have split := window.windows_split several items some_windows (size ▸ longer)
      rw [large.windows_of_lt longer, List.flatMap_cons, later, split, size, advance]

end Window

end TiktokenWorker.Sliding
