import CachePolicy.Proofs.Worker.Conduct

/-!
# Requests at the same time

Several requests may be under way at once.  Each of them is a task of its own, and a step
of any of them may come next, so between two steps of one request the others may do what
they like with the stored responses that all of them share.

`Worker.traffic` plays any such interleaving, in which requests keep arriving, and writes
down whose step each action was.  What is stored is the work of these actions, and every
request goes on to do what it may, given what has been done about it alone.
-/

namespace CachePolicy

/-- An action, and for which of the requests it was taken. -/
structure Turn where
  request : Nat
  action : Action
  deriving DecidableEq

/-- What has been done about a request, in order. -/
def pastOf (turns : List Turn) (request : Nat) : List Action :=
  turns.filterMap fun turn => if turn.request = request then some turn.action else none

theorem pastOf_append (first second : List Turn) (request : Nat) :
    pastOf (first ++ second) request = pastOf first request ++ pastOf second request := by
  simp [pastOf]

theorem mem_pastOf {turns : List Turn} {request : Nat} {action : Action} :
    action ∈ pastOf turns request ↔ ⟨request, action⟩ ∈ turns := by
  simp only [pastOf, List.mem_filterMap, Option.ite_none_right_eq_some, Option.some.injEq]
  constructor
  · rintro ⟨⟨_, _⟩, member, rfl, rfl⟩
    exact member
  · intro member
    exact ⟨_, member, rfl, rfl⟩

/-- The last two actions about a request, with what was done for others between them. -/
theorem exists_of_pastOf_eq {turns : List Turn} {request : Nat} {past : List Action}
    {first second : Action} (same : pastOf turns request = past ++ [first] ++ [second]) :
    ∃ earlier between, turns = earlier ++ ⟨request, first⟩ :: between ∧
      pastOf between request = [second] := by
  rw [List.append_assoc, List.singleton_append] at same
  obtain ⟨early, late, rfl, -, rest⟩ := List.filterMap_eq_append_iff.mp same
  obtain ⟨others, ⟨_, _⟩, between, rfl, -, own, last⟩ := List.filterMap_eq_cons_iff.mp rest
  simp only [Option.ite_none_right_eq_some, Option.some.injEq] at own
  obtain ⟨rfl, rfl⟩ := own
  exact ⟨early ++ others, between, by rw [List.append_assoc], last⟩

/-- Requests under way, the stores that they share, and what has been done so far. -/
structure Traffic where
  tasks : List (Task Outcome)
  stores : Stores
  turns : List Turn

/-- How traffic goes on: a page makes a request, or a step is taken for one of the
requests. -/
inductive Move where
  | arrives (request : PageRequest) (signal : Option Signal) (given : Bool)
  | steps (request : Nat)

namespace Traffic

/-- All actions so far, in order. -/
def actions (traffic : Traffic) : List Action := traffic.turns.map (·.action)

/-- The moments that the clock has shown, in order. -/
def moments (traffic : Traffic) : List Moment := Action.moments traffic.actions

/-- Take a step for a request, unless it is answered. -/
def step (environment : Environment ν) (traffic : Traffic) (request : Nat) (world : ν) :
    Traffic :=
  match traffic.tasks[request]? with
  | none => traffic
  | some task =>
    match task.act environment (traffic.stores, world) with
    | none => traffic
    | some action =>
      let (rest, stores, _) := task.step environment (traffic.stores, world)
      ⟨traffic.tasks.set request rest, stores, traffic.turns ++ [⟨request, action⟩]⟩

/-- Go on with traffic at a worker. -/
def next (environment : Environment ν) (worker : Worker) (traffic : Traffic) (move : Move)
    (world : ν) : Traffic :=
  match move with
  | .arrives request signal given =>
    { traffic with tasks := traffic.tasks ++ [worker.handle request signal given] }
  | .steps request => traffic.step environment request world

end Traffic

/-- The traffic at a worker after moves, each in the given state of the world. -/
def Worker.traffic (environment : Environment ν) (worker : Worker) (moves : List (Move × ν)) :
    Traffic :=
  moves.foldl (fun traffic move => traffic.next environment worker move.1 move.2)
    ⟨[], worker.stores, []⟩

/-- What holds at first and is kept by every move holds of all traffic. -/
theorem Worker.traffic_induction (environment : Environment ν) (worker : Worker)
    {motive : Traffic → Prop} (first : motive ⟨[], worker.stores, []⟩)
    (next : ∀ traffic move world, motive traffic →
      motive (traffic.next environment worker move world))
    (moves : List (Move × ν)) : motive (worker.traffic environment moves) := by
  induction moves using List.reverseRecOn with
  | nil => exact first
  | append_singleton moves move ih =>
      rw [Worker.traffic, List.foldl_append]
      exact next _ move.1 move.2 ih

namespace Traffic

variable {environment : Environment ν} {worker : Worker} {traffic : Traffic}

/-- A step does nothing, or what the next step of a task does. -/
theorem step_cases (environment : Environment ν) (traffic : Traffic) (request : Nat)
    (world : ν) :
    traffic.step environment request world = traffic ∨ ∃ task action,
      traffic.tasks[request]? = some task ∧
      task.act environment (traffic.stores, world) = some action ∧
      traffic.step environment request world =
        ⟨traffic.tasks.set request (task.step environment (traffic.stores, world)).1,
          (task.step environment (traffic.stores, world)).2.1,
          traffic.turns ++ [⟨request, action⟩]⟩ := by
  rw [step]
  cases present : traffic.tasks[request]? with
  | none => exact .inl rfl
  | some task =>
      cases acts : task.act environment (traffic.stores, world) with
      | none =>
          left
          simp only [acts]
      | some action =>
          right
          refine ⟨task, action, rfl, acts, ?_⟩
          simp only [acts]

/-- What is stored is the work of the actions, and every request does what it may. -/
structure Lawful (worker : Worker) (traffic : Traffic) : Prop where
  stored : traffic.stores.storage = worker.stores.storage.after traffic.actions
  tells : worker.stores.storage.Tells traffic.actions
  arrived : ∀ turn ∈ traffic.turns, turn.request < traffic.tasks.length
  abides : ∀ (index : Nat) (task : Task Outcome), traffic.tasks[index]? = some task →
    ∃ request, task.Abides (worker.Allows request) (worker.Answers request)
      (pastOf traffic.turns index)

theorem lawful_start (worker : Worker) : Lawful worker ⟨[], worker.stores, []⟩ where
  stored := rfl
  tells := trivial
  arrived _ member := absurd member List.not_mem_nil
  abides index task present := by simp at present

namespace Lawful

/-- Nothing has been done about a request before it arrives. -/
theorem pastOf_eq_nil (lawful : traffic.Lawful worker) {request : Nat}
    (new : traffic.tasks.length ≤ request) : pastOf traffic.turns request = [] := by
  apply List.eq_nil_iff_forall_not_mem.mpr
  intro action member
  have known := lawful.arrived _ (mem_pastOf.mp member)
  exact absurd known (Nat.not_lt.mpr new)

theorem arrives (lawful : traffic.Lawful worker) (request : PageRequest) (signal : Option Signal)
    (given : Bool) (world : ν) :
    (traffic.next environment worker (.arrives request signal given) world).Lawful worker where
  stored := lawful.stored
  tells := lawful.tells
  arrived turn member := by
    have known := lawful.arrived turn member
    simp only [next, List.length_append]
    omega
  abides index task present := by
    simp only [next, List.getElem?_append] at present
    split at present
    next => exact lawful.abides index task present
    next old =>
      have new : traffic.tasks.length ≤ index := Nat.not_lt.mp old
      obtain ⟨_, same⟩ := List.getElem?_eq_some_iff.mp present
      rw [List.getElem_singleton] at same
      refine ⟨request, ?_⟩
      simp only [next]
      rw [lawful.pastOf_eq_nil new, ← same]
      exact worker.abides_handle request signal given

theorem step (lawful : traffic.Lawful worker) (request : Nat) (world : ν) :
    (traffic.step environment request world).Lawful worker := by
  rcases traffic.step_cases environment request world with
    same | ⟨task, action, present, acts, stepped⟩
  · rw [same]
    exact lawful
  obtain ⟨changed, told⟩ := Task.storage_step acts
  obtain ⟨page, abides⟩ := lawful.abides request task present
  obtain ⟨-, later⟩ := abides.step acts
  have inside := (List.getElem?_eq_some_iff.mp present).1
  rw [stepped]
  constructor
  · simp only [actions, List.map_append, List.map_singleton]
    rw [changed, lawful.stored, Storage.after_append]
    rfl
  · simp only [actions, List.map_append, List.map_singleton]
    rw [lawful.stored] at told
    exact Storage.tells_append.mpr ⟨lawful.tells, told, trivial⟩
  · intro turn member
    rw [List.length_set]
    rcases List.mem_append.mp member with old | new
    · exact lawful.arrived turn old
    · rw [List.mem_singleton.mp new]
      exact inside
  · intro index other found
    simp only [List.getElem?_set] at found
    rw [pastOf_append]
    -- The request goes on after its action; about the others nothing has been done.
    split at found
    next same =>
      subst same
      cases found
      refine ⟨page, ?_⟩
      simpa [pastOf] using later
    next differs =>
      obtain ⟨own, abides⟩ := lawful.abides index other found
      refine ⟨own, ?_⟩
      simpa [pastOf, differs] using abides

theorem next (lawful : traffic.Lawful worker) (environment : Environment ν) (move : Move)
    (world : ν) : (traffic.next environment worker move world).Lawful worker := by
  cases move with
  | arrives request signal given => exact lawful.arrives request signal given world
  | steps request => exact lawful.step request world

end Lawful

end Traffic

/-- All traffic at a worker is lawful. -/
theorem Worker.lawful_traffic (environment : Environment ν) (worker : Worker)
    (moves : List (Move × ν)) : (worker.traffic environment moves).Lawful worker := by
  apply worker.traffic_induction environment (Traffic.lawful_start worker)
  intro traffic move world lawful
  exact lawful.next environment move world

end CachePolicy
