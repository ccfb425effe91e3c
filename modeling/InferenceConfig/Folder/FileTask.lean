import InferenceConfig.Folder.Tree
import InferenceConfig.Log.Event

/-!
# File Tasks

What a command does to files is a task: a computation that may ask to read or write a file
and goes on with the answer, and that may log events. A task is data. It can be carried out
on a `Folder`, which gives its result, the folder afterwards and the logged events, or by a
program on real files.

## Main definitions

* `FileTask` — a computation that reads, writes and logs;
* `FileTask.bind` — one task after another;
* `FileTask.run` — a task carried out on a folder.

## Main statements

* `FileTask.run_bind` — one task after another;
* `FileTask.run_logAll` — logging leaves the result and the folder alone.
-/

namespace InferenceConfig

/-- A computation that may read files, write files and log events. -/
inductive FileTask (α : Type) where
  /-- The result. -/
  | done (result : α)
  /-- Logs an event. -/
  | log (event : Event) (next : FileTask α)
  /-- Reads a file and goes on with its bytes, or with the error. -/
  | read (location : Location) (next : Except IoError (List UInt8) → FileTask α)
  /-- Writes a file and goes on with the error, if there is one. -/
  | write (location : Location) (bytes : List UInt8) (next : Option IoError → FileTask α)

namespace FileTask

variable {α β : Type}

/-- Carries out a task, and then the one that its result decides. -/
def bind : FileTask α → (α → FileTask β) → FileTask β
  | .done result, f => f result
  | .log event next, f => .log event (next.bind f)
  | .read location next, f => .read location fun answer => (next answer).bind f
  | .write location bytes next, f => .write location bytes fun answer => (next answer).bind f

/-- Logs all events, in order. -/
def logAll (events : List Event) (next : FileTask α) : FileTask α :=
  events.foldr .log next

/-- What carrying out a task leaves behind. -/
structure Result (α : Type) where
  /-- The result. -/
  value : α
  /-- The folder afterwards. -/
  folder : Folder
  /-- The logged events, in order. -/
  events : List Event

/-- Carries out a task on a folder. A write that fails leaves the folder as it is. -/
def run : FileTask α → Folder → Result α
  | .done result, folder => ⟨result, folder, []⟩
  | .log event next, folder =>
    let result := next.run folder
    { result with events := event :: result.events }
  | .read location next, folder => (next (folder.read location)).run folder
  | .write location bytes next, folder =>
    match folder.write location bytes with
    | .error e => (next (some e)).run folder
    | .ok changed => (next none).run changed

/-! ### One task after another -/

/-- A task and the one that its result decides are carried out one after the other. -/
theorem run_bind (task : FileTask α) (f : α → FileTask β) (folder : Folder) :
    (task.bind f).run folder =
      let first := task.run folder
      let second := (f first.value).run first.folder
      ⟨second.value, second.folder, first.events ++ second.events⟩ := by
  induction task generalizing folder with
  | done result => rfl
  | log event next ih => simp only [bind, run, ih, List.cons_append]
  | read location next ih => simp only [bind, run, ih]
  | write location bytes next ih =>
      simp only [bind, run]
      split <;> simp only [ih]

/-- Logging changes neither the result nor the folder. -/
theorem run_logAll (events : List Event) (next : FileTask α) (folder : Folder) :
    (logAll events next).run folder =
      ⟨(next.run folder).value, (next.run folder).folder,
        events ++ (next.run folder).events⟩ := by
  induction events with
  | nil => rfl
  | cons event events ih =>
      rw [logAll, List.foldr_cons, run, ← logAll, ih]
      rfl

end FileTask

end InferenceConfig
