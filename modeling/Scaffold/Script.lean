import Scaffold.Disk.Operations

/-!
Scripts: programs that call the file system one call at a time, and ask questions in between. Main
statement: scripts form a lawful monad, and running one after another is running the second from
where the first ends.
-/

namespace Scaffold

inductive Call where
  | makeDirectory (path : Path)
  | isDirectory (path : Path)
  | isFile (path : Path)
  | readText (path : Path)
  | writeFile (path : Path) (content : ByteArray)

namespace Call

abbrev Reply : Call → Type
  | makeDirectory _ => Except Fault Unit
  | isDirectory _ => Bool
  | isFile _ => Bool
  | readText _ => Except Fault String
  | writeFile _ _ => Except Fault Unit

def changed (disk : Disk) : Except Fault Disk → Except Fault Unit × Disk
  | .ok after => (.ok (), after)
  | .error fault => (.error fault, disk)

def perform (disk : Disk) : (call : Call) → call.Reply × Disk
  | makeDirectory path => changed disk (disk.makeDirectory path)
  | isDirectory path => (disk.isDirectory path, disk)
  | isFile path => (disk.isFile path, disk)
  | readText path => (disk.readText path, disk)
  | writeFile path content => changed disk (disk.writeFile path content)

end Call

inductive Script (Query Answer : Type) (α : Type) where
  | done (value : α)
  | call (call : Call) (next : call.Reply → Script Query Answer α)
  | ask (query : Query) (next : Answer → Script Query Answer α)

namespace Script

variable {Query Answer α β σ : Type}

protected def bind : Script Query Answer α → (α → Script Query Answer β) → Script Query Answer β
  | done value, next => next value
  | call c rest, next => call c fun reply => (rest reply).bind next
  | ask query rest, next => ask query fun answer => (rest answer).bind next

instance : Monad (Script Query Answer) where
  pure := done
  bind := Script.bind

theorem bind_done (script : Script Query Answer α) : script.bind done = script := by
  induction script with
  | done value => rfl
  | call c rest ih => simp [Script.bind, ih]
  | ask query rest ih => simp [Script.bind, ih]

theorem bind_assoc {γ : Type} (script : Script Query Answer α)
    (first : α → Script Query Answer β) (second : β → Script Query Answer γ) :
    (script.bind first).bind second = script.bind fun value => (first value).bind second := by
  induction script with
  | done value => rfl
  | call c rest ih => simp [Script.bind, ih]
  | ask query rest ih => simp [Script.bind, ih]

instance : LawfulMonad (Script Query Answer) :=
  LawfulMonad.mk' _ bind_done (fun _ _ => rfl) bind_assoc

def perform (c : Call) : Script Query Answer c.Reply := call c done

def query (query : Query) : Script Query Answer Answer := ask query done

structure Ending (σ α : Type) where
  value : α
  disk : Disk
  state : σ

def run (answer : Query → σ → Answer × σ) : Script Query Answer α → Disk → σ → Ending σ α
  | done value, disk, state => ⟨value, disk, state⟩
  | call c next, disk, state =>
    let (reply, disk) := c.perform disk
    run answer (next reply) disk state
  | ask query next, disk, state =>
    let (reply, state) := answer query state
    run answer (next reply) disk state

def runSilent (script : Script Empty Empty α) (disk : Disk) : α × Disk :=
  let ending := script.run (fun query _ => query.elim) disk ()
  (ending.value, ending.disk)

theorem run_bind (answer : Query → σ → Answer × σ) (script : Script Query Answer α)
    (next : α → Script Query Answer β) (disk : Disk) (state : σ) :
    (script.bind next).run answer disk state =
      (next (script.run answer disk state).value).run answer
        (script.run answer disk state).disk (script.run answer disk state).state := by
  induction script generalizing disk state with
  | done value => rfl
  | call c rest ih => simp [Script.bind, run, ih]
  | ask query rest ih => simp [Script.bind, run, ih]

end Script

end Scaffold
