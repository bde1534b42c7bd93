import CachePolicy.Proofs.Worker.Dispatch
import Mathlib.Data.Bool.Basic

/-!
# How a worker decides about a request

An activated worker decides about a request before it does anything: what it has
precached and its rules settle whether it answers from the precache, by which rule,
or not at all.  `Worker.decision` is this decision, and `Worker.fetch` carries it
out.
-/

namespace CachePolicy

/-- The precached response for a URL, where the page of a directory counts for the
directory. -/
def Storage.precached? (storage : Storage) (href : String) : Option Response :=
  match storage.lookup precachePartition href with
  | some entry => some entry.response
  | none =>
    if href.toList.getLast? = some '/' then
      (storage.lookup precachePartition (href ++ "index.html")).map (·.response)
    else none

namespace Task

/-- What is seen of a task, if looking something up in a storage shows no more than what is done
with what it finds there. -/
def LooksIn {α β : Type} (seen : Task α → β) (storage : Storage) : Prop :=
  ∀ partition url next, seen (.lookup partition url next) =
    seen (next (storage.lookup partition url))

theorem LooksIn.precached {α β : Type} {seen : Task α → β} {storage : Storage}
    (looks : LooksIn seen storage) (href : String) (next : Option Response → Task α) :
    seen (.precached href next) = seen (next (storage.precached? href)) := by
  rw [Task.precached, looks, Storage.precached?]
  cases storage.lookup precachePartition href with
  | some entry => rfl
  | none =>
      dsimp only
      split
      · rw [looks]
      · rfl

theorem looksIn_run (environment : Environment ν) (stores : Stores) (world : ν) :
    LooksIn (fun task : Task α => task.run environment (stores, world)) stores.storage := by
  intro partition url next
  rfl

theorem looksIn_deposits (environment : Environment ν) (stores : Stores) (world : ν) :
    LooksIn (fun task : Task α => task.deposits environment (stores, world)) stores.storage := by
  intro partition url next
  rfl

end Task

/-- The decision about a request, which is precached or goes to the first rule that takes
it. -/
def CompiledRuleSet.decision (compiled : CompiledRuleSet) (precached : Bool)
    (request : Request) : Decision :=
  if precached then .precache
  else
    match compiled.firstMatch request with
    | some (index, rule) => .rule index rule
    | none => .passthrough

/-- Whether a request is precached always makes a difference. -/
theorem CompiledRuleSet.decision_inj {compiled : CompiledRuleSet} {request : Request}
    {first second : Bool} :
    compiled.decision first request = compiled.decision second request ↔ first = second := by
  have differs : compiled.decision false request ≠ compiled.decision true request := by
    simp only [decision, if_true, Bool.false_eq_true, if_false]
    split <;> simp
  have injective : Function.Injective fun precached => compiled.decision precached request :=
    Bool.injective_iff.mpr differs
  exact injective.eq_iff

namespace Worker

/-- The precached response that answers a request, if any does. -/
def precached? (worker : Worker) (request : Request) : Option Response :=
  if request.method = "GET" then worker.stores.storage.precached? request.href else none

/-- What an activated worker does about a request. -/
def decision (worker : Worker) (request : Request) : Decision :=
  worker.routes.decision (worker.precached? request).isSome request

section Decision

variable (worker : Worker) (request : PageRequest) (signal : Option Signal)
variable (environment : Environment ν) (world : ν)

theorem handle_of_not_activated (inactive : worker.state ≠ .activated) (given : Bool) :
    worker.handle request signal given = .done .passthrough := by
  rw [handle, if_pos inactive]

theorem handle_given (active : worker.state = .activated) :
    worker.handle request signal true = .done .aborted := by
  rw [handle, if_neg (not_not_intro active), if_pos rfl]

/-- An activated worker answers from what it has precached, and lets its rules answer
otherwise. -/
theorem handle_seen {β : Type} {seen : Task Outcome → β}
    (looks : Task.LooksIn seen worker.stores.storage) (active : worker.state = .activated) :
    seen (worker.handle request signal false) =
      match worker.precached? request.info with
      | some response => seen (.done (.response response .precache none))
      | none => seen (worker.route request signal) := by
  rw [handle, precached?, if_neg (not_not_intro active), if_neg Bool.false_ne_true]
  by_cases get : request.info.method = "GET"
  · rw [if_pos get, if_pos get, looks.precached]
    change _ = match worker.stores.storage.precached? request.href with
      | some response => _
      | none => _
    cases worker.stores.storage.precached? request.href <;> rfl
  · rw [if_neg get, if_neg get]

theorem run_handle (active : worker.state = .activated) :
    (worker.handle request signal false).run environment (worker.stores, world) =
      match worker.precached? request.info with
      | some response => (.response response .precache none, worker.stores, world)
      | none => (worker.route request signal).run environment (worker.stores, world) :=
  worker.handle_seen request signal (Task.looksIn_run environment worker.stores world) active

theorem deposits_handle (active : worker.state = .activated) :
    (worker.handle request signal false).deposits environment (worker.stores, world) =
      match worker.precached? request.info with
      | some _ => []
      | none => (worker.route request signal).deposits environment (worker.stores, world) :=
  worker.handle_seen request signal (Task.looksIn_deposits environment worker.stores world) active

/-- How a worker carries out each of its decisions. -/
theorem run_handle_of_decision (active : worker.state = .activated) :
    match worker.decision request.info with
    | .precache => ∃ response, worker.precached? request.info = some response ∧
        (worker.handle request signal false).run environment (worker.stores, world) =
          (.response response .precache none, worker.stores, world)
    | .rule index rule => worker.routes.firstMatch request.info = some (index, rule) ∧
        (worker.handle request signal false).run environment (worker.stores, world) =
          (rule.dispatch index request signal).run environment (worker.stores, world)
    | .passthrough => worker.routes.firstMatch request.info = none ∧
        (worker.handle request signal false).run environment (worker.stores, world) =
          (.passthrough, worker.stores, world) := by
  have ran := worker.run_handle request signal environment world active
  rw [ran, decision, CompiledRuleSet.decision, route]
  cases precached : worker.precached? request.info with
  | some response => exact ⟨response, rfl, rfl⟩
  | none =>
      cases matched : worker.routes.firstMatch request.info with
      | none => exact ⟨rfl, rfl⟩
      | some found => exact ⟨rfl, rfl⟩

/-- What becomes of a request: it is answered on the spot, or handed to the first rule
that takes it. -/
theorem handle_cases (given : Bool) :
    let task := worker.handle request signal given
    (∃ outcome, (∀ queue, outcome ≠ .queued queue) ∧
      task.run environment (worker.stores, world) = (outcome, worker.stores, world) ∧
      task.deposits environment (worker.stores, world) = []) ∨
      ∃ index rule, worker.state = .activated ∧ given = false ∧
        worker.routes.firstMatch request.info = some (index, rule) ∧
        task.run environment (worker.stores, world) =
          (rule.dispatch index request signal).run environment (worker.stores, world) ∧
        task.deposits environment (worker.stores, world) =
          (rule.dispatch index request signal).deposits environment (worker.stores, world) := by
  intro task
  by_cases active : worker.state = .activated
  swap
  · left
    have same : task = .done .passthrough :=
      worker.handle_of_not_activated request signal active given
    rw [same]
    exact ⟨.passthrough, by simp, rfl, rfl⟩
  cases given with
  | true =>
      left
      have same : task = .done .aborted := worker.handle_given request signal active
      rw [same]
      exact ⟨.aborted, by simp [Outcome.aborted], rfl, rfl⟩
  | false =>
      have ran := worker.run_handle request signal environment world active
      have stored := worker.deposits_handle request signal environment world active
      cases precached : worker.precached? request.info with
      | some response =>
          rw [precached] at ran stored
          exact .inl ⟨_, by simp, ran, stored⟩
      | none =>
          rw [precached, route] at ran stored
          cases matched : worker.routes.firstMatch request.info with
          | none =>
              rw [matched] at ran stored
              exact .inl ⟨_, by simp, ran, stored⟩
          | some found =>
              rw [matched] at ran stored
              exact .inr ⟨found.1, found.2, active, rfl, rfl, ran, stored⟩

/-- A request changes what is stored only if a rule is to answer it. -/
theorem touched_handle (given : Bool) :
    let task := worker.handle request signal given
    let ran := task.run environment.recorded (worker.stores, world, [])
    let deposits := task.deposits environment.recorded (worker.stores, world, [])
    (ran.2.1 = worker.stores ∧ deposits = [] ∧ ran.2.2.2 = []) ∨
      ∃ index rule, worker.state = .activated ∧ given = false ∧
        worker.routes.firstMatch request.info = some (index, rule) ∧
        worker.stores.storage.Touched rule request.href (Observation.moments ran.2.2.2) deposits
          ran.2.1.storage := by
  intro task ran deposits
  rcases worker.handle_cases request signal environment.recorded (world, []) given with
    ⟨outcome, -, same, none⟩ | ⟨index, rule, active, ungiven, matched, same, stored⟩
  · left
    have done : ran = (outcome, worker.stores, world, []) := same
    rw [done]
    exact ⟨rfl, none, rfl⟩
  · right
    obtain ⟨moments, touched, learned⟩ :=
      rule.touches_dispatch environment index request signal worker.stores world []
    rw [← same, ← stored] at touched
    rw [← same] at learned
    refine ⟨index, rule, active, ungiven, matched, ?_⟩
    rw [learned]
    exact touched

end Decision

end Worker

/-! ## Outcomes of rules -/

/-- Every result that a task can end in has a property. -/
def Task.Leaves (property : α → Prop) : Task α → Prop
  | .done result => property result
  | .now next => ∀ moment, (next moment).Leaves property
  | .lookup _ _ next => ∀ found, (next found).Leaves property
  | .delete _ _ next => next.Leaves property
  | .put _ _ _ _ next => next.Leaves property
  | .sweep _ _ _ next => next.Leaves property
  | .fetch _ next => ∀ reply, (next reply).Leaves property
  | .enqueue _ _ _ next => next.Leaves property

namespace Task.Leaves

variable {property : α → Prop}

theorem run {task : Task α} (leaves : task.Leaves property) (environment : Environment ν)
    (stores : Stores) (world : ν) : property (task.run environment (stores, world)).1 := by
  induction task generalizing stores world with
  | done result => exact leaves
  | now next ih => exact ih _ (leaves _) _ _
  | lookup partition url next ih => exact ih _ (leaves _) _ _
  | delete partition url next ih => exact ih leaves _ _
  | put partition url response moment next ih => exact ih leaves _ _
  | sweep partition bounds moment next ih => exact ih leaves _ _
  | fetch call next ih => exact ih _ (leaves _) _ _
  | enqueue queue request moment next ih => exact ih leaves _ _

theorem passes (partition : String) (property : α → Prop) :
    Passes partition (Leaves property) where
  now _ later := later
  lookup _ _ later := later
  delete _ _ later := later
  put _ _ _ _ later := later
  sweep _ _ _ later := later

end Task.Leaves

/-- An outcome that names a rule if it is a response, and is never left to the browser. -/
def Outcome.OfRule (index : Nat) : Outcome → Prop
  | .response _ source rule => source ≠ .precache ∧ rule = some index
  | .passthrough => False
  | .queued _ => True
  | .failed _ => True

/-- Whatever its strategy, the outcome of a rule is that of a rule. -/
theorem CachingRule.leaves_dispatch (index : Nat) (rule : CachingRule) (request : PageRequest)
    (signal : Option Signal) :
    (rule.dispatch index request signal).Leaves (Outcome.OfRule index) := by
  have parts : rule.Parts index request signal (Task.Leaves (Outcome.OfRule index))
      (Task.Leaves (Outcome.OfRule index)) := {
    unread _ := id
    lookup _ := (Task.Leaves.passes _ _).cached
    ask _ _ later := later
    askThen _ _ later := later
    store _ _ _ _ := (Task.Leaves.passes _ _).store
    serve _ _ other := ⟨other, rfl⟩
    fail _ := trivial
    queue _ _ _ _ := trivial }
  exact parts.dispatch

end CachePolicy
