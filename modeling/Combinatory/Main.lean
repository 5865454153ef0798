import Combinatory.Console.Program

/-!
# The command

Reads the arguments, the files and the input, and writes the output. What is written is decided by
`Program.run` and, in a dialogue, by `Session.take`.
-/

namespace Combinatory.Shell

/-- What stands at a path on this machine. -/
def lookAt (p : Path) : IO (Except Absence Found) := do
  try
    let bytes ← IO.FS.readBinFile (String.ofList p.text)
    return .ok (.file bytes.toList)
  catch
    | .inappropriateType _ code _ =>
      return if code = 21 then .ok (.directory []) else .error .notDirectory
    | .invalidArgument .. => return .error .nameTooLong
    | .permissionDenied .. => return .error .denied
    | _ => return .error .missing

/-- The file system as far as the given paths go. -/
def lookAtAll (paths : List Path) : IO FileSystem := do
  let found ← paths.mapM fun p => do
    if p.text.contains '\x00' then return (p, .error .missing) else return (p, ← lookAt p)
  return .ofList found

def writeAll (pieces : List (Bool × Text)) : IO Unit := do
  for (isError, t) in pieces do
    if isError then IO.eprint (String.ofList t) else IO.print (String.ofList t)
  (← IO.getStdout).flush

/-- Tells of something that nobody expected, and gives the code to end with. -/
def fail (message : Text) : IO UInt32 := do
  IO.eprintln (String.ofList message)
  return 1

/-- Holds a dialogue until the console is told to quit or nothing more is typed. -/
partial def converse (verbose : Bool) (s : Session) : IO UInt32 := do
  if !s.repl.running then return 0
  writeAll (Program.pieces [.prompt (s.pending ≠ [])])
  let typed ← (← IO.getStdin).getLine
  if typed.isEmpty then
    writeAll (Program.pieces [.newline])
    return 0
  let line := typed.toList.filter (· ≠ '\n')
  let fs ← lookAtAll (Repl.wanted? (s.pending ++ line)).toList
  match s.take fs verbose (.line line) with
  | (s, output, none) =>
    writeAll (Program.pieces output)
    converse verbose s
  | (_, output, some e) =>
    writeAll (Program.pieces output)
    fail e.message

def definitionFiles (options : Options) : List Path := (options.definitions.filterMap id).map .parse

def filesOf (options : Options) (input : Text) : List Path :=
  let lines := match options.expr with
    | some (e :: es) => [e :: es]
    | _ => Program.lines input
  definitionFiles options ++ lines.filterMap Repl.wanted?

def run (arguments : List String) : IO UInt32 := do
  let arguments := arguments.map String.toList
  let stdin ← IO.getStdin
  let finish (r : ProgramRun) : IO UInt32 := do
    writeAll r.output
    match r.ending with
    | .exit code => return code.toUInt32
    | .done => return 0
    | .failed e => fail e.message
    | .missing o => fail o.missingMessage
  match Options.parse arguments with
  | .work options maxSteps =>
    let isExpression := (options.expr.getD []) ≠ []
    if !isExpression && (← stdin.isTty) then
      let fs ← lookAtAll (definitionFiles options)
      match Program.load fs options maxSteps with
      | (log, .ok c) =>
        writeAll (Program.pieces (log ++ [.banner]))
        converse options.verbose ⟨c, []⟩
      | (log, .error (complaint, ending)) =>
        finish ⟨Program.pieces (log ++ complaint.toList), ending⟩
    else
      let input ← if isExpression then pure "" else
        let bytes ← stdin.readBinToEnd
        pure ((String.fromUTF8? bytes).getD "")
      let fs ← lookAtAll (filesOf options input.toList)
      finish (Program.run fs arguments (.text input.toList))
  | _ => finish (Program.run (.ofList []) arguments (.text []))

end Combinatory.Shell

def main (arguments : List String) : IO UInt32 := Combinatory.Shell.run arguments
