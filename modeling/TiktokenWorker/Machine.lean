import Mathlib.Tactic

/-!
# Words and loops of a machine

Checked arithmetic on words of any width, each operation with the condition under which it is the
arithmetic of the numbers the words stand for. A loop runs rounds that may fail, as many as its
fuel allows; `loop_total` is its rule: an invariant that every round keeps and a variant that every
round lowers make the loop end, within as many rounds as the variant, without a failure.
-/

namespace TiktokenWorker.Machine

/-! ## Words -/

section Words

variable {bits : Nat}

/-- Sum of two words, unless it overflows. -/
def checkedAdd (a b : BitVec bits) : Option (BitVec bits) :=
  if a.uaddOverflow b then none else some (a + b)

/-- Difference of two words, unless it underflows. -/
def checkedSub (a b : BitVec bits) : Option (BitVec bits) :=
  if a.usubOverflow b then none else some (a - b)

/-- Difference of two words, or zero. -/
def saturatingSub (a b : BitVec bits) : BitVec bits := if a < b then 0 else a - b

/-- The smaller of two words. -/
def minWord (a b : BitVec bits) : BitVec bits := if b < a then b else a

/-- A sum that fits is the sum of the numbers. -/
theorem checkedAdd_of_fits {a b : BitVec bits} (fits : a.toNat + b.toNat < 2 ^ bits) :
    ∃ sum, checkedAdd a b = some sum ∧ sum.toNat = a.toNat + b.toNat := by
  refine ⟨a + b, ?_, BitVec.toNat_add_of_lt fits⟩
  rw [checkedAdd, if_neg]
  simpa [BitVec.uaddOverflow] using fits

/-- A difference that fits is the difference of the numbers. -/
theorem checkedSub_of_fits {a b : BitVec bits} (fits : b.toNat ≤ a.toNat) :
    ∃ difference, checkedSub a b = some difference ∧ difference.toNat = a.toNat - b.toNat := by
  refine ⟨a - b, ?_, BitVec.toNat_sub_of_le fits⟩
  rw [checkedSub, if_neg]
  simpa [BitVec.usubOverflow] using fits

/-- Subtraction of words saturates as that of natural numbers does. -/
theorem saturatingSub_toNat (a b : BitVec bits) :
    (saturatingSub a b).toNat = a.toNat - b.toNat := by
  rw [saturatingSub]
  split_ifs with less
  · rw [BitVec.lt_def] at less
    simp only [BitVec.ofNat_eq_ofNat, BitVec.toNat_ofNat, Nat.zero_mod]
    omega
  · exact BitVec.toNat_sub_of_le (BitVec.not_lt.mp less)

/-- The smaller word is that of the smaller number. -/
theorem minWord_toNat (a b : BitVec bits) : (minWord a b).toNat = min a.toNat b.toNat := by
  rw [minWord]
  split_ifs with less
  · rw [BitVec.lt_def] at less
    omega
  · rw [BitVec.lt_def] at less
    omega

end Words

/-! ## Loops -/

section Loops

variable {σ ε : Type}

/-- How a round of a loop ends. -/
inductive Flow (σ : Type) where
  /-- With the next round. -/
  | next (state : σ)
  /-- With a `break`. -/
  | stop (state : σ)

/-- Run a loop for as many rounds as there is fuel. A loop that has not ended then has no final
state. -/
def loop (condition : σ → Bool) (round : σ → Except ε (Flow σ)) : Nat → σ → Except ε (Option σ)
  | 0, state => if condition state then .ok none else .ok (some state)
  | fuel + 1, state =>
    if condition state then
      match round state with
      | .error error => .error error
      | .ok (.stop final) => .ok (some final)
      | .ok (.next state) => loop condition round fuel state
    else .ok (some state)

/-- A round that does not fail, keeps the invariant and lowers the variant, or ends the loop as it
should. -/
def Sound (round : σ → Except ε (Flow σ)) (invariant post : σ → Prop) (variant : σ → Nat)
    (state : σ) : Prop :=
  (∃ later, round state = .ok (.next later) ∧ invariant later ∧ variant later < variant state) ∨
    ∃ final, round state = .ok (.stop final) ∧ post final ∧ 0 < variant state

/-- The rule of loops: with an invariant and a variant for its rounds, a loop ends in what either
way out of it promises. The induction is on the fuel. -/
theorem loop_total {condition : σ → Bool} {round : σ → Except ε (Flow σ)}
    (invariant : σ → Prop) (variant : σ → Nat) {post : σ → Prop}
    (leaves : ∀ state, invariant state → condition state = false → post state)
    (sound : ∀ state, invariant state → condition state = true →
      Sound round invariant post variant state)
    {state : σ} (holds : invariant state) {fuel : Nat} (enough : variant state ≤ fuel) :
    ∃ final, loop condition round fuel state = .ok (some final) ∧ post final := by
  induction fuel generalizing state with
  | zero =>
    cases entered : condition state with
    | false => exact ⟨state, by simp [loop, entered], leaves state holds entered⟩
    | true =>
      rcases sound state holds entered with ⟨later, _, _, lower⟩ | ⟨final, _, _, positive⟩
      · omega
      · omega
  | succ fuel ih =>
    cases entered : condition state with
    | false => exact ⟨state, by simp [loop, entered], leaves state holds entered⟩
    | true =>
      rcases sound state holds entered with
        ⟨later, goes_on, kept, lower⟩ | ⟨final, ends, reached, _⟩
      · obtain ⟨final, run, reached⟩ := ih kept (by omega)
        exact ⟨final, by simp [loop, entered, goes_on, run], reached⟩
      · exact ⟨final, by simp [loop, entered, ends], reached⟩

end Loops

end TiktokenWorker.Machine
