import CachePolicy.Proofs.Worker.Caches
import Mathlib.Data.List.Nodup

/-!
# What tasks do

A task acts step by step: it looks at the clock, calls the network, and reads and changes
what is stored.  `Task.act` is what the next step does, `Task.actions` all that a task does
when it runs on its own.

A task does not see what others do between its steps, so what it does next depends on its
own past alone.  `Task.Abides` says that a task keeps a law in everything that it may come
to do, whatever it is told on the way.  What a task abides by holds of its run, and it holds
as well when the steps of other tasks come between its own.
-/

namespace CachePolicy

namespace Observation

theorem mem_moments {observed : List Observation} {moment : Moment} :
    moment ∈ moments observed ↔ clock moment ∈ observed := by
  induction observed with
  | nil => simp
  | cons observation rest ih =>
      cases observation with
      | clock other => simp [ih]
      | exchange call reply => simp [ih]

theorem mem_exchanges {observed : List Observation} {call : Call} {reply : Reply} :
    (call, reply) ∈ exchanges observed ↔ exchange call reply ∈ observed := by
  induction observed with
  | nil => simp
  | cons observation rest ih =>
      cases observation with
      | clock moment => simp [ih]
      | exchange other answer => simp [ih]

end Observation

/-! ## Actions -/

deriving instance DecidableEq for Call, Reply

/-- What a step of a task does, with what it is told. -/
inductive Action where
  | clock (moment : Moment)
  | lookup (partition url : String) (found : Option CachedEntry)
  | delete (partition url : String)
  | put (partition : String) (entry : CachedEntry)
  | sweep (partition : String) (bounds : Expiration) (moment : Moment)
  | exchange (call : Call) (reply : Reply)
  | enqueue (queue : String) (request : PageRequest) (moment : Moment)
  deriving DecidableEq

namespace Action

/-- What is stored after an action. -/
def apply (storage : Storage) : Action → Storage
  | clock _ => storage
  | lookup _ _ _ => storage
  | delete partition url => storage.delete partition url
  | put partition entry => storage.put partition entry.url entry.response entry.storedAt
  | sweep partition bounds moment => storage.sweep partition bounds moment
  | exchange _ _ => storage
  | enqueue _ _ _ => storage

/-- What an action tells of the stored responses is so. -/
def Tells (storage : Storage) : Action → Prop
  | lookup partition url found => found = storage.lookup partition url
  | _ => True

/-- What an action learns from outside. -/
def observation? : Action → Option Observation
  | clock moment => some (.clock moment)
  | lookup _ _ _ => none
  | delete _ _ => none
  | put _ _ => none
  | sweep _ _ _ => none
  | exchange call reply => some (.exchange call reply)
  | enqueue _ _ _ => none

/-- The moments that the clock showed, in order. -/
def moments (actions : List Action) : List Moment :=
  Observation.moments (actions.filterMap observation?)

@[simp] theorem moments_append (left right : List Action) :
    moments (left ++ right) = moments left ++ moments right := by
  simp [moments]

theorem mem_observed_iff {actions : List Action} {observed : Observation} :
    observed ∈ actions.filterMap observation? ↔
      match observed with
      | .clock moment => clock moment ∈ actions
      | .exchange call reply => exchange call reply ∈ actions := by
  have learned (action : Action) : action.observation? = some observed ↔
      action = match observed with
        | .clock moment => clock moment
        | .exchange call reply => exchange call reply := by
    cases action <;> cases observed <;> simp [observation?]
  simp only [List.mem_filterMap, learned, exists_eq_right]
  cases observed with
  | clock moment => exact Iff.rfl
  | exchange call reply => exact Iff.rfl

theorem mem_moments {actions : List Action} {moment : Moment} :
    moment ∈ moments actions ↔ clock moment ∈ actions := by
  rw [moments, Observation.mem_moments]
  exact mem_observed_iff

theorem mem_exchanges {actions : List Action} {call : Call} {reply : Reply} :
    (call, reply) ∈ Observation.exchanges (actions.filterMap observation?) ↔
      exchange call reply ∈ actions := by
  rw [Observation.mem_exchanges]
  exact mem_observed_iff

end Action

namespace Storage

variable {storage : Storage} {partition : String} {entry : CachedEntry}

/-- What is stored after actions. -/
def after (storage : Storage) (actions : List Action) : Storage :=
  actions.foldl Action.apply storage

@[simp] theorem after_nil (storage : Storage) : storage.after [] = storage := rfl

@[simp] theorem after_cons (storage : Storage) (action : Action) (rest : List Action) :
    storage.after (action :: rest) = (action.apply storage).after rest := rfl

theorem after_append (storage : Storage) (first second : List Action) :
    storage.after (first ++ second) = (storage.after first).after second :=
  List.foldl_append

/-- An action takes entries from a partition, or puts a response after those for other
URLs. -/
theorem entries_apply_cases (action : Action) (storage : Storage) (partition : String) :
    ((action.apply storage).entries partition).Sublist (storage.entries partition) ∨
      ∃ entry, action = .put partition entry ∧ (action.apply storage).entries partition =
        without entry.url (storage.entries partition) ++ [entry] := by
  have same := List.Sublist.refl (storage.entries partition)
  cases action with
  | clock moment => exact .inl same
  | lookup other url found => exact .inl same
  | exchange call reply => exact .inl same
  | enqueue queue request moment => exact .inl same
  | delete other url =>
      left
      rw [Action.apply, entries_delete]
      split
      next here =>
        subst here
        exact without_sublist url _
      next => exact same
  | sweep other bounds moment =>
      left
      rw [Action.apply, entries_sweep]
      split
      next here =>
        subst here
        exact bounds.swept_sublist moment _
      next => exact same
  | put other fresh =>
      rw [Action.apply, entries_put]
      split
      next here =>
        subst here
        exact .inr ⟨fresh, rfl, rfl⟩
      next => exact .inl same

/-- An entry is new only where it has been put. -/
theorem mem_entries_apply (action : Action)
    (member : entry ∈ (action.apply storage).entries partition) :
    entry ∈ storage.entries partition ∨ action = .put partition entry := by
  rcases entries_apply_cases action storage partition with fewer | ⟨fresh, put, same⟩
  · exact .inl (fewer.subset member)
  · rw [same] at member
    rcases List.mem_append.mp member with old | new
    · exact .inl (mem_without.mp old).1
    · rw [List.mem_singleton.mp new]
      exact .inr put

theorem mem_entries_after {actions : List Action}
    (member : entry ∈ (storage.after actions).entries partition) :
    entry ∈ storage.entries partition ∨ .put partition entry ∈ actions := by
  induction actions generalizing storage with
  | nil => exact .inl member
  | cons action rest ih =>
      rcases ih member with here | later
      · refine (mem_entries_apply action here).imp_right ?_
        intro same
        rw [same]
        exact List.mem_cons_self
      · exact .inr (List.mem_cons_of_mem _ later)

/-- Every action keeps the URLs of a partition distinct. -/
theorem nodup_urls_apply (distinct : (storage.urls partition).Nodup) (action : Action) :
    ((action.apply storage).urls partition).Nodup := by
  rcases entries_apply_cases action storage partition with fewer | ⟨fresh, -, same⟩
  · exact distinct.sublist (fewer.map _)
  · rw [urls, same]
    exact nodup_without_append fresh.url distinct fresh.response fresh.storedAt

theorem nodup_urls_after (distinct : (storage.urls partition).Nodup) (actions : List Action) :
    ((storage.after actions).urls partition).Nodup := by
  induction actions generalizing storage with
  | nil => exact distinct
  | cons action rest ih => exact ih (nodup_urls_apply distinct action)

/-- Where URLs are distinct, an entry is the one that is found by its URL. -/
theorem eq_of_lookup {found : CachedEntry} {url : String}
    (distinct : (storage.urls partition).Nodup) (member : entry ∈ storage.entries partition)
    (looked : storage.lookup partition url = some found) (named : entry.url = url) :
    entry = found := by
  have same : found.url = url := by simpa using List.find?_some looked
  exact List.inj_on_of_nodup_map distinct member (List.mem_of_find?_eq_some looked)
    (named.trans same.symm)

/-- What actions tell of the stored responses is so when they are taken one after the
other. -/
def Tells : Storage → List Action → Prop
  | _, [] => True
  | storage, action :: rest => action.Tells storage ∧ (action.apply storage).Tells rest

theorem tells_append {first second : List Action} :
    storage.Tells (first ++ second) ↔ storage.Tells first ∧ (storage.after first).Tells second := by
  induction first generalizing storage with
  | nil => simp [Tells]
  | cons action rest ih => simp [Tells, ih, and_assoc]

end Storage

/-! ## Actions of tasks -/

namespace Task

/-- What the next step of a task does. -/
def act (environment : Environment ν) : Task α → Stores × ν → Option Action
  | .done _, _ => none
  | .now _, (_, world) => some (.clock (environment.now world).1)
  | .lookup partition url _, (stores, _) =>
    some (.lookup partition url (stores.storage.lookup partition url))
  | .delete partition url _, _ => some (.delete partition url)
  | .put partition url response moment _, _ => some (.put partition ⟨url, response, moment⟩)
  | .sweep partition bounds moment _, _ => some (.sweep partition bounds moment)
  | .fetch call _, (_, world) => some (.exchange call (environment.fetch call world).1)
  | .enqueue queue request moment _, _ => some (.enqueue queue request moment)

/-- What a task does when it runs on its own, in order. -/
def actions (environment : Environment ν) : Task α → Stores × ν → List Action
  | .done _, _ => []
  | .now next, (stores, world) =>
    let (moment, world) := environment.now world
    .clock moment :: actions environment (next moment) (stores, world)
  | .lookup partition url next, (stores, world) =>
    let found := stores.storage.lookup partition url
    .lookup partition url found :: actions environment (next found) (stores, world)
  | .delete partition url next, (stores, world) =>
    .delete partition url :: actions environment next
      ({ stores with storage := stores.storage.delete partition url }, world)
  | .put partition url response moment next, (stores, world) =>
    .put partition ⟨url, response, moment⟩ :: actions environment next
      ({ stores with storage := stores.storage.put partition url response moment }, world)
  | .sweep partition bounds moment next, (stores, world) =>
    .sweep partition bounds moment :: actions environment next
      ({ stores with storage := stores.storage.sweep partition bounds moment }, world)
  | .fetch call next, (stores, world) =>
    let (reply, world) := environment.fetch call world
    .exchange call reply :: actions environment (next reply) (stores, world)
  | .enqueue queue request moment next, (stores, world) =>
    .enqueue queue request moment :: actions environment next
      (stores.enqueue queue request moment, world)

section Run

variable {environment : Environment ν} {task : Task α} {stores : Stores} {world : ν}
variable {action : Action}

/-- A step does what it does to the stored responses, and what it tells of them is so. -/
theorem storage_step (acts : task.act environment (stores, world) = some action) :
    (task.step environment (stores, world)).2.1.storage = action.apply stores.storage ∧
      action.Tells stores.storage := by
  cases task with
  | done result => cases acts
  | now next =>
      cases acts
      exact ⟨rfl, trivial⟩
  | lookup partition url next =>
      cases acts
      exact ⟨rfl, rfl⟩
  | delete partition url next =>
      cases acts
      exact ⟨rfl, trivial⟩
  | put partition url response moment next =>
      cases acts
      exact ⟨rfl, trivial⟩
  | sweep partition bounds moment next =>
      cases acts
      exact ⟨rfl, trivial⟩
  | fetch call next =>
      cases acts
      exact ⟨rfl, trivial⟩
  | enqueue queue request moment next =>
      cases acts
      exact ⟨Stores.storage_enqueue _ _ _ _, trivial⟩

variable (environment task stores world)

/-- What a run stores is what its actions store, one after the other. -/
theorem storage_run :
    (task.run environment (stores, world)).2.1.storage =
      stores.storage.after (task.actions environment (stores, world)) := by
  induction task generalizing stores world with
  | done result => rfl
  | now next ih => exact ih _ stores _
  | lookup partition url next ih => exact ih _ stores world
  | delete partition url next ih => exact ih _ world
  | put partition url response moment next ih => exact ih _ world
  | sweep partition bounds moment next ih => exact ih _ world
  | fetch call next ih => exact ih _ stores _
  | enqueue queue request moment next ih =>
      rw [run, actions, Storage.after_cons, ih, Stores.storage_enqueue]
      rfl

theorem tells_actions :
    stores.storage.Tells (task.actions environment (stores, world)) := by
  induction task generalizing stores world with
  | done result => trivial
  | now next ih => exact ⟨trivial, ih _ stores _⟩
  | lookup partition url next ih => exact ⟨rfl, ih _ stores world⟩
  | delete partition url next ih =>
      exact ⟨trivial, ih (stores.withStorage (stores.storage.delete partition url)) world⟩
  | put partition url response moment next ih =>
      exact ⟨trivial, ih (stores.withStorage (stores.storage.put partition url response moment))
        world⟩
  | sweep partition bounds moment next ih =>
      exact ⟨trivial, ih (stores.withStorage (stores.storage.sweep partition bounds moment)) world⟩
  | fetch call next ih => exact ⟨trivial, ih _ stores _⟩
  | enqueue queue request moment next ih =>
      refine ⟨trivial, ?_⟩
      have later := ih (stores.enqueue queue request moment) world
      rwa [Stores.storage_enqueue] at later

/-- What is recorded of a run is what its actions learn. -/
theorem recorded_run (seen : List Observation) :
    (task.run environment.recorded (stores, world, seen)).2.2.2 =
      seen ++ (task.actions environment.recorded (stores, world, seen)).filterMap
        Action.observation? := by
  induction task generalizing stores world seen with
  | done result => exact (List.append_nil seen).symm
  | now next ih =>
      rw [run, actions, Environment.recorded_now, ih]
      simp [Action.observation?]
  | lookup partition url next ih => exact ih _ stores world seen
  | delete partition url next ih => exact ih _ world seen
  | put partition url response moment next ih => exact ih _ world seen
  | sweep partition bounds moment next ih => exact ih _ world seen
  | fetch call next ih =>
      rw [run, actions, Environment.recorded_fetch, ih]
      simp [Action.observation?]
  | enqueue queue request moment next ih => exact ih _ world seen

end Run

/-! ## Laws of tasks -/

/-- Whatever a task is told, each of its actions is lawful after those before it, and so is
what it ends in after all of them. -/
def Abides (law : List Action → Action → Prop) (ends : List Action → α → Prop) :
    Task α → List Action → Prop
  | .done result, past => ends past result
  | .now next, past => ∀ moment,
    law past (.clock moment) ∧ (next moment).Abides law ends (past ++ [.clock moment])
  | .lookup partition url next, past => ∀ found,
    law past (.lookup partition url found) ∧
      (next found).Abides law ends (past ++ [.lookup partition url found])
  | .delete partition url next, past =>
    law past (.delete partition url) ∧
      next.Abides law ends (past ++ [.delete partition url])
  | .put partition url response moment next, past =>
    law past (.put partition ⟨url, response, moment⟩) ∧
      next.Abides law ends (past ++ [.put partition ⟨url, response, moment⟩])
  | .sweep partition bounds moment next, past =>
    law past (.sweep partition bounds moment) ∧
      next.Abides law ends (past ++ [.sweep partition bounds moment])
  | .fetch call next, past => ∀ reply,
    law past (.exchange call reply) ∧
      (next reply).Abides law ends (past ++ [.exchange call reply])
  | .enqueue queue request moment next, past =>
    law past (.enqueue queue request moment) ∧
      next.Abides law ends (past ++ [.enqueue queue request moment])

/-- Each of the actions is lawful after those before it. -/
def Keeps (law : List Action → Action → Prop) : List Action → List Action → Prop
  | _, [] => True
  | past, action :: rest => law past action ∧ Keeps law (past ++ [action]) rest

theorem Keeps.lawful {law : List Action → Action → Prop} {past actions : List Action}
    (keeps : Keeps law past actions) {action : Action} (member : action ∈ actions) :
    ∃ before later, actions = before ++ action :: later ∧ law (past ++ before) action := by
  induction actions generalizing past with
  | nil => cases member
  | cons first rest ih =>
      cases member with
      | head => exact ⟨[], rest, rfl, by simpa using keeps.1⟩
      | tail _ later =>
          obtain ⟨before, later, split, lawful⟩ := ih keeps.2 later
          refine ⟨first :: before, later, by rw [split]; rfl, ?_⟩
          rwa [List.append_assoc] at lawful

namespace Abides

variable {law other : List Action → Action → Prop} {ends : List Action → α → Prop}
variable {ends' : List Action → α → Prop} {task : Task α} {past : List Action}

/-- A law may be weakened. -/
theorem mono (weaker : ∀ past action, law past action → other past action)
    (ending : ∀ past result, ends past result → ends' past result)
    (abides : task.Abides law ends past) : task.Abides other ends' past := by
  induction task generalizing past with
  | done result => exact ending past result abides
  | now next ih => exact fun moment => ⟨weaker _ _ (abides moment).1, ih _ (abides moment).2⟩
  | lookup partition url next ih =>
      exact fun found => ⟨weaker _ _ (abides found).1, ih _ (abides found).2⟩
  | delete partition url next ih => exact ⟨weaker _ _ abides.1, ih abides.2⟩
  | put partition url response moment next ih => exact ⟨weaker _ _ abides.1, ih abides.2⟩
  | sweep partition bounds moment next ih => exact ⟨weaker _ _ abides.1, ih abides.2⟩
  | fetch call next ih => exact fun reply => ⟨weaker _ _ (abides reply).1, ih _ (abides reply).2⟩
  | enqueue queue request moment next ih => exact ⟨weaker _ _ abides.1, ih abides.2⟩

variable {environment : Environment ν} {stores : Stores} {world : ν} {action : Action}

/-- The next step is lawful, and the task abides by the law after it. -/
theorem step (abides : task.Abides law ends past)
    (acts : task.act environment (stores, world) = some action) :
    law past action ∧
      (task.step environment (stores, world)).1.Abides law ends (past ++ [action]) := by
  cases task with
  | done result => cases acts
  | now next =>
      cases acts
      exact abides _
  | lookup partition url next =>
      cases acts
      exact abides _
  | delete partition url next =>
      cases acts
      exact abides
  | put partition url response moment next =>
      cases acts
      exact abides
  | sweep partition bounds moment next =>
      cases acts
      exact abides
  | fetch call next =>
      cases acts
      exact abides _
  | enqueue queue request moment next =>
      cases acts
      exact abides

/-- A task that abides by a law keeps it when it runs on its own. -/
theorem run (abides : task.Abides law ends past) (environment : Environment ν) (stores : Stores)
    (world : ν) :
    Keeps law past (task.actions environment (stores, world)) ∧
      ends (past ++ task.actions environment (stores, world))
        (task.run environment (stores, world)).1 := by
  induction task generalizing past stores world with
  | done result =>
      refine ⟨trivial, ?_⟩
      rw [actions, List.append_nil]
      exact abides
  | now next ih =>
      obtain ⟨lawful, later⟩ := abides (environment.now world).1
      obtain ⟨keeps, ending⟩ := ih _ later stores (environment.now world).2
      refine ⟨⟨lawful, keeps⟩, ?_⟩
      rwa [List.append_assoc] at ending
  | lookup partition url next ih =>
      obtain ⟨lawful, later⟩ := abides (stores.storage.lookup partition url)
      obtain ⟨keeps, ending⟩ := ih _ later stores world
      refine ⟨⟨lawful, keeps⟩, ?_⟩
      rwa [List.append_assoc] at ending
  | delete partition url next ih =>
      obtain ⟨keeps, ending⟩ := ih abides.2 _ world
      refine ⟨⟨abides.1, keeps⟩, ?_⟩
      rwa [List.append_assoc] at ending
  | put partition url response moment next ih =>
      obtain ⟨keeps, ending⟩ := ih abides.2 _ world
      refine ⟨⟨abides.1, keeps⟩, ?_⟩
      rwa [List.append_assoc] at ending
  | sweep partition bounds moment next ih =>
      obtain ⟨keeps, ending⟩ := ih abides.2 _ world
      refine ⟨⟨abides.1, keeps⟩, ?_⟩
      rwa [List.append_assoc] at ending
  | fetch call next ih =>
      obtain ⟨lawful, later⟩ := abides (environment.fetch call world).1
      obtain ⟨keeps, ending⟩ := ih _ later stores (environment.fetch call world).2
      refine ⟨⟨lawful, keeps⟩, ?_⟩
      rwa [List.append_assoc] at ending
  | enqueue queue request moment next ih =>
      obtain ⟨keeps, ending⟩ := ih abides.2 _ world
      refine ⟨⟨abides.1, keeps⟩, ?_⟩
      rwa [List.append_assoc] at ending

end Abides

end Task

end CachePolicy
