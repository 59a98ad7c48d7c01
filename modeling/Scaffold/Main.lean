import Scaffold.Command.Run
import Std.Time.DateTime

/-!
The program on the real disk and the real standard streams. What it does is said by
`Program.run`; here its calls are handed on to the system.
-/

namespace Scaffold.Main

def osCode? : IO.Error → Option UInt32
  | .alreadyExists _ code _ => some code
  | .noFileOrDirectory _ code _ => some code
  | .inappropriateType _ code _ => some code
  | .invalidArgument _ code _ => some code
  | .illegalOperation code _ => some code
  | .otherError code _ => some code
  | .resourceExhausted _ code _ => some code
  | .noSuchThing _ code _ => some code
  | _ => none

def faultOf (error : IO.Error) : Fault :=
  let known := [Fault.notFound, .alreadyExists, .notDirectory, .isDirectory, .nameTooLong,
    .tooManyLinks]
  let codes : List UInt32 := [2, 17, 20, 21, 36, 40]
  match (osCode? error).bind fun code => List.lookup code (codes.zip known) with
  | some fault => fault
  | none => .other (toString error)

def guarded {α : Type} (path : Path) (action : IO α) : IO (Except Fault α) := do
  match Disk.checkPath path with
  | .error fault => return .error fault
  | .ok () =>
    try return .ok (← action)
    catch error => return .error (faultOf error)

def readText (path : Path) : IO (Except Fault String) := do
  match ← guarded path (IO.FS.readBinFile path.text) with
  | .error fault => return .error fault
  | .ok content => return (String.fromUTF8? content).elim (.error .notUnicode) .ok

def leadsTo (type : IO.FS.FileType) (path : Path) : IO Bool := do
  let found ← guarded path do
    let file := (← IO.currentDir) / path.text
    return (← file.metadata).type == type
  return found.toOption.getD false

def perform : (call : Call) → IO call.Reply
  | .makeDirectory path => guarded path (IO.FS.createDir path.text)
  | .isDirectory path => leadsTo .dir path
  | .isFile path => leadsTo .file path
  | .readText path => readText path
  | .writeFile path content => guarded path (IO.FS.writeBinFile path.text content)

partial def readLine (input : IO.FS.Stream) (line : List UInt8) : IO (List UInt8) := do
  let byte := (← input.read 1).toList
  if byte.isEmpty || byte = [Console.lineFeed] then return line ++ byte
  else readLine input (line ++ byte)

def ask (prompt : Prompt) : IO (Except Fault String) := do
  let output ← IO.getStdout
  output.putStr prompt.question
  output.flush
  return Console.reply (← readLine (← IO.getStdin) [])

def play {α : Type} : Dialogue α → IO α
  | .done value => return value
  | .call call next => do play (next (← perform call))
  | .ask prompt next => do play (next (← ask prompt))

def today : IO Date := do
  let now := Std.Time.DateTime.ofTimestampWithZone (← Std.Time.Timestamp.now) Std.Time.TimeZone.UTC
  match Date.ofYearMonthDay? now.year.toInt now.month.val now.day.val with
  | some date => return date
  | none => throw (IO.userError "the clock is out of range")

end Scaffold.Main

def main (words : List String) : IO UInt32 := do
  let finish ← Scaffold.Main.play (Scaffold.Program.run (← Scaffold.Main.today) words)
  (← IO.getStderr).putStr finish.errorText
  (← IO.getStdout).putStr finish.outputText
  return finish.exitCode
