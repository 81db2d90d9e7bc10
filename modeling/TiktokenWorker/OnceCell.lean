import Mathlib.Algebra.BigOperators.Group.Finset.Basic
import Mathlib.Algebra.Order.BigOperators.Group.Finset
import Mathlib.Logic.Relation
import Mathlib.Tactic

/-!
# Cells that are filled on first use

Threads share cells that start empty and get the contents of one by a call that fills it first where
it is empty. How the calls of several threads take turns is up to the cells, so they are a parameter
here: `Cells` is what a thread sees of them and `GetOrInit` what it relies on. `Consistent` and
`Demand` say what follows for the threads, whatever the schedule; with `CallsReturn` every schedule
can be finished. `blocking` is an instance, in which a thread waits while another fills the cell it
asks for.
-/

namespace TiktokenWorker.OnceCell

variable {κ α β γ τ : Type}

/-! ## Computations that ask -/

/-- A computation that asks for the contents of cells. -/
inductive Prog (κ α β : Type) where
  /-- It returns. -/
  | done (result : β)
  /-- It asks for the contents of a cell and goes on with them. -/
  | ask (key : κ) (next : α → Prog κ α β)

namespace Prog

/-- One computation after another. -/
def bind : Prog κ α β → (β → Prog κ α γ) → Prog κ α γ
  | done result, later => later result
  | ask key next, later => ask key fun contents => (next contents).bind later

instance : Monad (Prog κ α) where
  pure := done
  bind := bind

/-- Nothing after a computation leaves it as it is. -/
theorem bind_done (prog : Prog κ α β) : prog.bind done = prog := by
  induction prog with
  | done result => rfl
  | ask key next ih => exact congrArg (ask key) (funext ih)

/-- Computations one after another, in either grouping. -/
theorem bind_bind {δ : Type} (prog : Prog κ α β) (first : β → Prog κ α γ)
    (second : γ → Prog κ α δ) :
    (prog.bind first).bind second = prog.bind fun result => (first result).bind second := by
  induction prog with
  | done result => rfl
  | ask key next ih => exact congrArg (ask key) (funext ih)

instance : LawfulMonad (Prog κ α) := LawfulMonad.mk' _ bind_done (fun _ _ => rfl) bind_bind

variable (build : κ → α)

/-- What it returns when every cell has the contents it is built with. -/
def eval : Prog κ α β → β
  | done result => result
  | ask key next => (next (build key)).eval

/-- The cells it asks for then, in order. -/
def keys : Prog κ α β → List κ
  | done _ => []
  | ask key next => key :: (next (build key)).keys

@[simp] theorem eval_pure (result : β) : (pure result : Prog κ α β).eval build = result := rfl

@[simp] theorem eval_ask (key : κ) (next : α → Prog κ α β) :
    (ask key next).eval build = (next (build key)).eval build := rfl

/-- A computation after another returns what it does after what the other returns. -/
@[simp] theorem eval_bind (first : Prog κ α β) (later : β → Prog κ α γ) :
    (first >>= later).eval build = (later (first.eval build)).eval build := by
  induction first with
  | done result => rfl
  | ask key next ih => exact ih (build key)

@[simp] theorem keys_pure (result : β) : (pure result : Prog κ α β).keys build = [] := rfl

@[simp] theorem keys_ask (key : κ) (next : α → Prog κ α β) :
    (ask key next).keys build = key :: (next (build key)).keys build := rfl

/-- A computation after another asks for the cells of both. -/
@[simp] theorem keys_bind (first : Prog κ α β) (later : β → Prog κ α γ) :
    (first >>= later).keys build = first.keys build ++ (later (first.eval build)).keys build := by
  induction first with
  | done result => rfl
  | ask key next ih => exact congrArg (key :: ·) (ih (build key))

end Prog

/-! ## Cells -/

/-- Cells that threads share. A call asks for the contents of one, with an initializer, and takes
steps until it returns. -/
structure Cells (τ κ α : Type) where
  /-- The cells, and what the calls in progress have done to them. -/
  State : Type
  /-- As they are made. -/
  new : State
  /-- Contents of a cell, if it is filled. -/
  get : State → κ → Option α
  /-- A step of the call that a thread makes for a cell, with what the initializer returns. The last
  argument is what the call returns, if it does so in this step. -/
  Step : State → τ → κ → α → State → Option α → Prop

namespace Cells

variable (cells : Cells τ κ α)

/-- What a call promises. -/
structure GetOrInit : Prop where
  /-- Cells are made empty. -/
  new_empty : ∀ key, cells.get cells.new key = none
  /-- A call returns the contents of its cell. -/
  returns_contents : ∀ {state thread key init next contents},
    cells.Step state thread key init next (some contents) → cells.get next key = some contents
  /-- It leaves the cells as they are, or fills its own, if that is empty, from its initializer. -/
  initializes : ∀ {state thread key init next returned},
    cells.Step state thread key init next returned → ∀ other,
      cells.get next other = cells.get state other ∨
        other = key ∧ cells.get state key = none ∧ cells.get next key = some init

variable (build : κ → α)

/-- What cells come to by calls, with the calls in progress. The initializer of a cell returns the
same contents in every call. -/
inductive Reached [DecidableEq τ] : cells.State → (τ → Option κ) → Prop
  | new (calls : τ → Option κ) : Reached cells.new calls
  | waits {state next calls thread key} (reached : Reached state calls)
      (calling : calls thread = some key)
      (step : cells.Step state thread key (build key) next none) : Reached next calls
  | returns {state next calls thread key contents} (reached : Reached state calls)
      (calling : calls thread = some key)
      (step : cells.Step state thread key (build key) next (some contents)) (more : Option κ) :
      Reached next (Function.update calls thread more)

/-- Calls in progress can take steps until one of them returns. -/
inductive Ends (calls : τ → Option κ) : cells.State → Prop
  | returns {state thread key next contents} (calling : calls thread = some key)
      (step : cells.Step state thread key (build key) next (some contents)) : Ends calls state
  | waits {state thread key next} (calling : calls thread = some key)
      (step : cells.Step state thread key (build key) next none) (later : Ends calls next) :
      Ends calls state

/-- No calls wait for each other forever: while some are in progress, they can go on until one of
them returns. -/
def CallsReturn [DecidableEq τ] : Prop :=
  ∀ {state calls}, cells.Reached build state calls → ∀ {thread key}, calls thread = some key →
    cells.Ends build calls state

end Cells

/-! ## Threads -/

/-- The cells, and what the threads that share them have still to compute. -/
structure State (cells : Cells τ κ α) (β : Type) where
  shared : cells.State
  threads : τ → Prog κ α β

variable {cells : Cells τ κ α}

/-- The cells are as they are made, and every thread is at the start of its computation. -/
def start (cells : Cells τ κ α) (progs : τ → Prog κ α β) : State cells β := ⟨cells.new, progs⟩

/-- The call that a thread makes. -/
def Prog.call : Prog κ α β → Option κ
  | done _ => none
  | ask key _ => some key

section Steps

variable [DecidableEq τ]

/-- A thread goes on, and the cells are as its call left them. -/
def State.resume (state : State cells β) (thread : τ) (shared : cells.State) (prog : Prog κ α β) :
    State cells β where
  shared := shared
  threads := Function.update state.threads thread prog

section Resume

variable (state : State cells β) (thread : τ) (shared : cells.State) (prog : Prog κ α β)

@[simp] theorem State.resume_shared : (state.resume thread shared prog).shared = shared := rfl

@[simp] theorem State.resume_self : (state.resume thread shared prog).threads thread = prog :=
  Function.update_self ..

theorem State.resume_of_ne {owner : τ} (other : owner ≠ thread) :
    (state.resume thread shared prog).threads owner = state.threads owner :=
  Function.update_of_ne other ..

end Resume

variable (build : κ → α)

/-- A step of the call of some thread, which goes on when it returns. -/
inductive Step : State cells β → State cells β → Prop
  | waits {state : State cells β} {thread key later shared}
      (asks : state.threads thread = .ask key later)
      (step : cells.Step state.shared thread key (build key) shared none) :
      Step state { state with shared }
  | returns {state : State cells β} {thread key later shared contents}
      (asks : state.threads thread = .ask key later)
      (step : cells.Step state.shared thread key (build key) shared (some contents)) :
      Step state (state.resume thread shared (later contents))

/-- A schedule: steps of calls, one after the other, in any order. -/
abbrev Schedule : State cells β → State cells β → Prop := Relation.ReflTransGen (Step build)

variable {build} {state next : State cells β} {progs : τ → Prog κ α β}

/-! ## What holds after every step -/

/-- Filled cells have the contents they are built with, and every thread still computes what it
started out to. -/
structure Consistent (build : κ → α) (progs : τ → Prog κ α β) (state : State cells β) : Prop where
  contents : ∀ key contents, cells.get state.shared key = some contents → contents = build key
  result : ∀ thread, (state.threads thread).eval build = (progs thread).eval build

variable (contract : cells.GetOrInit)

include contract

omit [DecidableEq τ] in
/-- The start is consistent. -/
theorem consistent_start (build : κ → α) (progs : τ → Prog κ α β) :
    Consistent build progs (start cells progs) where
  contents key contents filled := by
    rw [start, contract.new_empty key] at filled
    cases filled
  result thread := rfl

omit [DecidableEq τ] in
/-- A step of a call fills a cell only with the contents it is built with. -/
theorem contents_of_step {state shared : cells.State} {thread : τ} {key : κ} {returned : Option α}
    (known : ∀ key contents, cells.get state key = some contents → contents = build key)
    (step : cells.Step state thread key (build key) shared returned) :
    ∀ key contents, cells.get shared key = some contents → contents = build key := by
  intro other contents filled
  rcases contract.initializes step other with same | ⟨rfl, _, init⟩
  · exact known other contents (same ▸ filled)
  · rw [init, Option.some.injEq] at filled
    exact filled.symm

/-- Every step keeps cells and threads consistent. -/
theorem Consistent.step (consistent : Consistent build progs state)
    (stepped : Step build state next) : Consistent build progs next := by
  cases stepped with
  | waits asks step =>
    exact ⟨contents_of_step contract consistent.contents step, consistent.result⟩
  | @returns thread key later shared contents asks step =>
    have known := contents_of_step contract consistent.contents step
    refine ⟨known, fun owner => ?_⟩
    by_cases same : owner = thread
    · subst same
      have built := known key contents (contract.returns_contents step)
      have result := consistent.result owner
      rw [asks, Prog.eval_ask, ← built] at result
      rwa [State.resume_self]
    · rw [State.resume_of_ne _ _ _ _ same]
      exact consistent.result owner

/-- So every state that a schedule comes to is consistent. -/
theorem consistent_of_run (ran : Schedule build (start cells progs) state) :
    Consistent build progs state := by
  induction ran with
  | refl => exact consistent_start contract build progs
  | tail _ stepped ih => exact ih.step contract stepped

omit contract [DecidableEq τ] in
/-- A thread that returns returns what it started out to compute, whoever filled the cells it asked
for. -/
theorem result_of_done (consistent : Consistent build progs state) {thread : τ} {result : β}
    (returned : state.threads thread = .done result) : result = (progs thread).eval build := by
  have same := consistent.result thread
  rw [returned] at same
  exact same

/-! ## Which cells are filled -/

/-- The cells that are filled are those the threads have asked for so far. -/
structure Demand (build : κ → α) (progs : τ → Prog κ α β) (state : State cells β) : Prop where
  /-- What a thread has still to ask for it was to ask for from the start. -/
  remaining : ∀ thread, ∀ key ∈ (state.threads thread).keys build, key ∈ (progs thread).keys build
  /-- What it no longer has to is filled. -/
  served : ∀ thread, ∀ key ∈ (progs thread).keys build,
    key ∈ (state.threads thread).keys build ∨ cells.get state.shared key ≠ none
  /-- Only cells that a thread asks for are filled. -/
  asked : ∀ key, cells.get state.shared key ≠ none → ∃ thread, key ∈ (progs thread).keys build

omit [DecidableEq τ] in
/-- At the start nothing is filled and everything is still to ask for. -/
theorem demand_start (build : κ → α) (progs : τ → Prog κ α β) :
    Demand build progs (start cells progs) where
  remaining _ _ member := member
  served _ _ member := Or.inl member
  asked key filled := absurd (contract.new_empty key) filled

section Filled

variable {shared later : cells.State} {thread : τ} {key : κ} {init : α} {returned : Option α}

omit [DecidableEq τ] in
/-- Filled cells stay filled. -/
theorem filled_of_step (step : cells.Step shared thread key init later returned) {other : κ}
    (filled : cells.get shared other ≠ none) : cells.get later other ≠ none := by
  rcases contract.initializes step other with same | ⟨rfl, empty, _⟩
  · rwa [same]
  · exact absurd empty filled

omit [DecidableEq τ] in
/-- A call fills no cell but its own. -/
theorem filled_before (step : cells.Step shared thread key init later returned) {other : κ}
    (filled : cells.get later other ≠ none) : cells.get shared other ≠ none ∨ other = key := by
  rcases contract.initializes step other with same | ⟨own, _, _⟩
  · exact Or.inl (same ▸ filled)
  · exact Or.inr own

end Filled

omit [DecidableEq τ] in
/-- After a step too only cells that a thread asks for are filled. -/
theorem Demand.asked_after (demand : Demand build progs state) {thread : τ} {key other : κ}
    {init : α} {shared : cells.State} {returned : Option α}
    (first : key ∈ (state.threads thread).keys build)
    (step : cells.Step state.shared thread key init shared returned)
    (filled : cells.get shared other ≠ none) : ∃ thread, other ∈ (progs thread).keys build := by
  rcases filled_before contract step filled with before | rfl
  · exact demand.asked other before
  · exact ⟨thread, demand.remaining thread other first⟩

/-- Every step keeps it. -/
theorem Demand.step (demand : Demand build progs state) (consistent : Consistent build progs state)
    (stepped : Step build state next) : Demand build progs next := by
  cases stepped with
  | @waits thread key later shared asks step =>
    have first : key ∈ (state.threads thread).keys build := by
      rw [asks]
      exact List.mem_cons_self
    refine ⟨demand.remaining, fun owner other member => ?_, fun other filled => ?_⟩
    · exact (demand.served owner other member).imp_right (filled_of_step contract step)
    · exact demand.asked_after contract first step filled
  | @returns thread key later shared contents asks step =>
    have built : contents = build key := contents_of_step contract consistent.contents step key
      contents (contract.returns_contents step)
    have fewer : (state.threads thread).keys build = key :: (later contents).keys build := by
      rw [asks, built]
      rfl
    have first : key ∈ (state.threads thread).keys build := fewer ▸ List.mem_cons_self
    refine ⟨fun owner other member => ?_, fun owner other member => ?_, fun other filled => ?_⟩
    · by_cases same : owner = thread
      · subst same
        rw [State.resume_self] at member
        exact demand.remaining owner other (fewer ▸ List.mem_cons_of_mem key member)
      · rw [State.resume_of_ne _ _ _ _ same] at member
        exact demand.remaining owner other member
    · rcases demand.served owner other member with still | filled
      · by_cases same : owner = thread
        · subst same
          rw [fewer, List.mem_cons] at still
          rw [State.resume_self]
          rcases still with rfl | still
          · right
            rw [State.resume_shared, contract.returns_contents step]
            exact Option.some_ne_none contents
          · exact Or.inl still
        · rw [State.resume_of_ne _ _ _ _ same]
          exact Or.inl still
      · exact Or.inr (filled_of_step contract step filled)
    · exact demand.asked_after contract first step filled

/-- So it holds of every state that a schedule comes to. -/
theorem demand_of_run (ran : Schedule build (start cells progs) state) :
    Demand build progs state := by
  induction ran with
  | refl => exact demand_start contract build progs
  | tail ran stepped ih => exact ih.step contract (consistent_of_run contract ran) stepped

/-! ## Progress -/

omit contract in
/-- The cells of a run are reached by the calls of its threads. -/
theorem reached_of_run (ran : Schedule build (start cells progs) state) :
    cells.Reached build state.shared fun thread => (state.threads thread).call := by
  induction ran with
  | refl => exact .new _
  | @tail middle _ _ stepped ih =>
    cases stepped with
    | waits asks step => exact ih.waits (by rw [asks]; rfl) step
    | @returns thread key later shared contents asks step =>
      have calls :
          (fun owner => ((middle.resume thread shared (later contents)).threads owner).call) =
          Function.update (fun owner => (middle.threads owner).call) thread (later contents).call :=
        Function.comp_update Prog.call middle.threads thread (later contents)
      rw [calls]
      exact ih.returns (by rw [asks]; rfl) step _

section Bound

variable [Fintype τ]

/-- How often all threads together have still to ask. -/
def left (build : κ → α) (state : State cells β) : Nat :=
  ∑ thread, ((state.threads thread).keys build).length

omit contract in
/-- A thread that has less to ask leaves less for all. -/
theorem left_resume_lt {thread : τ} {prog : Prog κ α β}
    (fewer : (prog.keys build).length < ((state.threads thread).keys build).length)
    (shared : cells.State) : left build (state.resume thread shared prog) < left build state := by
  apply Finset.sum_lt_sum
  · intro owner _
    by_cases same : owner = thread
    · subst same
      rw [State.resume_self]
      exact fewer.le
    · rw [State.resume_of_ne _ _ _ _ same]
  · exact ⟨thread, Finset.mem_univ _, by rwa [State.resume_self]⟩

/-- Calls that end make a run after which less is left. The induction is on their steps. -/
theorem exists_run_of_ends {calls : τ → Option κ} {shared : cells.State}
    (ends : cells.Ends build calls shared) {threads : τ → Prog κ α β}
    (calling : ∀ thread, calls thread = (threads thread).call)
    (known : ∀ key contents, cells.get shared key = some contents → contents = build key) :
    ∃ next, Schedule build (⟨shared, threads⟩ : State cells β) next ∧
      left build next < left build (⟨shared, threads⟩ : State cells β) := by
  have asks {thread : τ} {key : κ} (called : calls thread = some key) :
      ∃ later, threads thread = .ask key later := by
    rw [calling thread] at called
    cases doing : threads thread with
    | done result =>
      rw [doing] at called
      cases called
    | ask other later =>
      rw [doing] at called
      cases called
      exact ⟨later, rfl⟩
  induction ends with
  | @returns shared thread key next contents called step =>
    obtain ⟨later, asking⟩ := asks called
    have built : contents = build key :=
      contents_of_step contract known step key contents (contract.returns_contents step)
    have fewer : ((later contents).keys build).length < ((threads thread).keys build).length := by
      rw [asking, built]
      exact Nat.lt_succ_self _
    exact ⟨_, .single (.returns asking step), left_resume_lt fewer next⟩
  | @waits shared thread key next called step _ ih =>
    obtain ⟨later, asking⟩ := asks called
    obtain ⟨last, ran, fewer⟩ := ih (contents_of_step contract known step)
    exact ⟨last, .head (.waits asking step) ran, fewer⟩

/-- Every run can be continued until every thread has returned. The induction is on how often the
threads have still to ask. -/
theorem exists_run (returning : cells.CallsReturn build)
    (ran : Schedule build (start cells progs) state) :
    ∃ last, Schedule build state last ∧
      ∀ thread, ∃ result, last.threads thread = .done result := by
  induction asked : left build state using Nat.strong_induction_on generalizing state with
  | _ asked ih =>
    by_cases finished : ∀ thread, ∃ result, state.threads thread = .done result
    · exact ⟨state, .refl, finished⟩
    · obtain ⟨thread, unfinished⟩ := not_forall.mp finished
      have consistent := consistent_of_run contract ran
      have calling : ∃ key, (state.threads thread).call = some key := by
        cases doing : state.threads thread with
        | done result => exact absurd ⟨result, doing⟩ unfinished
        | ask key later => exact ⟨key, rfl⟩
      obtain ⟨key, calls⟩ := calling
      obtain ⟨next, more, fewer⟩ := exists_run_of_ends contract
        (returning (reached_of_run ran) calls) (fun _ => rfl) consistent.contents
      obtain ⟨last, rest, all⟩ := ih _ (asked ▸ fewer) (ran.trans more) rfl
      exact ⟨last, more.trans rest, all⟩

end Bound

end Steps

/-! ## Cells that block -/

/-- A cell that one thread fills while others wait. -/
inductive Slot (τ α : Type) where
  | empty
  | filling (thread : τ)
  | full (contents : α)

/-- Contents of the cell. -/
def Slot.contents : Slot τ α → Option α
  | empty | filling _ => none
  | full contents => some contents

/-- A step of a call for a cell: the first thread to ask for it fills it, and others wait. -/
inductive Slot.Step [DecidableEq κ] (slots : κ → Slot τ α) (thread : τ) (key : κ) (init : α) :
    (κ → Slot τ α) → Option α → Prop
  | claims (empty : slots key = .empty) :
      Step slots thread key init (Function.update slots key (.filling thread)) none
  | fills (filling : slots key = .filling thread) :
      Step slots thread key init (Function.update slots key (.full init)) none
  | returns {contents} (full : slots key = .full contents) :
      Step slots thread key init slots (some contents)

/-- An instance of cells, in which a thread waits while another fills the one it asks for. -/
def blocking (τ κ α : Type) [DecidableEq κ] : Cells τ κ α where
  State := κ → Slot τ α
  new _ := .empty
  get slots key := (slots key).contents
  Step := Slot.Step

section Blocking

variable [DecidableEq κ] {slots next : κ → Slot τ α} {thread : τ} {key : κ} {init : α}
  {returned : Option α}

/-- A call returns the contents of its cell. -/
theorem Slot.Step.contents_of_returned {contents : α}
    (step : Slot.Step slots thread key init next (some contents)) :
    (next key).contents = some contents := by
  cases step with
  | returns full => exact congrArg Slot.contents full

/-- It leaves the cells as they are, or fills its own. -/
theorem Slot.Step.contents_eq (step : Slot.Step slots thread key init next returned) (other : κ) :
    (next other).contents = (slots other).contents ∨
      other = key ∧ (slots key).contents = none ∧ (next key).contents = some init := by
  cases step with
  | claims empty =>
    by_cases same : other = key
    · subst same
      exact Or.inl (by rw [Function.update_self, empty]; rfl)
    · exact Or.inl (by rw [Function.update_of_ne same])
  | fills filling =>
    by_cases same : other = key
    · subst same
      exact Or.inr ⟨rfl, by rw [filling]; rfl, by rw [Function.update_self]; rfl⟩
    · exact Or.inl (by rw [Function.update_of_ne same])
  | returns full => exact Or.inl rfl

/-- They keep the promise. -/
theorem blocking_getOrInit : (blocking τ κ α).GetOrInit where
  new_empty _ := rfl
  returns_contents step := Slot.Step.contents_of_returned step
  initializes step other := Slot.Step.contents_eq step other

/-- A thread that fills a cell is in a call for it. -/
def Held (slots : κ → Slot τ α) (calls : τ → Option κ) : Prop :=
  ∀ key owner, slots key = .filling owner → calls owner = some key

variable {calls : τ → Option κ}

/-- Steps of a call that goes on keep it so. -/
theorem Held.waits (held : Held slots calls) (calling : calls thread = some key)
    (step : Slot.Step slots thread key init next none) : Held next calls := by
  intro other owner filling
  by_cases same : other = key
  · subst same
    cases step with
    | claims empty =>
      rw [Function.update_self, Slot.filling.injEq] at filling
      exact filling ▸ calling
    | fills _ =>
      rw [Function.update_self] at filling
      cases filling
  · have before : slots other = .filling owner := by
      cases step with
      | claims _ => rwa [Function.update_of_ne same] at filling
      | fills _ => rwa [Function.update_of_ne same] at filling
    exact held other owner before

/-- A call that returns fills no cell. -/
theorem Held.returns [DecidableEq τ] (held : Held slots calls) (calling : calls thread = some key)
    {contents : α} (step : Slot.Step slots thread key init next (some contents))
    (more : Option κ) : Held next (Function.update calls thread more) := by
  intro other owner filling
  cases step with
  | returns full =>
    have before := held other owner filling
    have apart : owner ≠ thread := by
      rintro rfl
      have own : key = other := Option.some.inj (calling.symm.trans before)
      rw [own, filling] at full
      cases full
    rwa [Function.update_of_ne apart]

variable {build : κ → α}

/-- A call for a filled cell returns. -/
theorem ends_of_full (calling : calls thread = some key) {contents : α}
    (full : slots key = .full contents) : (blocking τ κ α).Ends build calls slots :=
  .returns calling (Slot.Step.returns full)

/-- So does one for a cell that its thread fills. -/
theorem ends_of_filling (calling : calls thread = some key)
    (filling : slots key = .filling thread) : (blocking τ κ α).Ends build calls slots :=
  .waits calling (Slot.Step.fills filling) (ends_of_full calling (Function.update_self ..))

variable [DecidableEq τ]

/-- Calls reach only such cells. -/
theorem held_of_reached {slots : (blocking τ κ α).State}
    (reached : (blocking τ κ α).Reached build slots calls) : Held slots calls := by
  induction reached with
  | new calls => exact fun _ _ filling => nomatch filling
  | waits _ calling step ih => exact Held.waits ih calling step
  | returns _ calling step more ih => exact Held.returns ih calling step more

/-- No calls wait for each other forever. -/
theorem blocking_callsReturn (build : κ → α) : (blocking τ κ α).CallsReturn build := by
  intro slots calls reached thread key calling
  cases found : (slots : κ → Slot τ α) key with
  | empty =>
    exact .waits calling (Slot.Step.claims found)
      (ends_of_filling calling (Function.update_self ..))
  | filling owner => exact ends_of_filling (held_of_reached reached key owner found) found
  | full contents => exact ends_of_full calling found

end Blocking

end TiktokenWorker.OnceCell
