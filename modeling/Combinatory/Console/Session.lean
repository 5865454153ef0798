import Combinatory.Console.Repl

/-!
# Console sessions

Two ways to feed lines to the console.

* `Session.run` is the dialogue: it prompts, and keeps the lines typed so far pending while brackets
  are open, unless they begin a command.
* `Session.filter` answers one line after the other and stops at the first expression that cannot be
  reduced.

Both give the output piece by piece (`Output`).
-/

namespace Combinatory

inductive Output where
  | banner
  | prompt (continuing : Bool)
  /-- The text of a reply. -/
  | result (t : Text)
  /-- The text of a reply, as an error. -/
  | complaint (t : Text)
  /-- The pending lines were given up. -/
  | cancelled
  | newline
  | log (e : Event)

namespace Output

def version : Text := "0.1.0".toList

def text : Output → Text
  | .banner =>
    "CLSTEP ".toList ++ version ++
      " - combinatory logic, one step at a time\nType :help for help, :quit to exit\n\n".toList
  | .prompt false => "clstep> ".toList
  | .prompt true => "...... ".toList
  | .result t => t ++ ['\n']
  | .complaint t => t ++ ['\n']
  | .cancelled => "\nInput cancelled\n".toList
  | .newline => ['\n']
  | .log e => e.line ++ ['\n']

/-- Whether a piece of output is an error or belongs to the log. -/
def isError : Output → Bool
  | .complaint _ | .log _ => true
  | _ => false

end Output

/-- What is typed at a prompt. -/
inductive Typed where
  | line (t : Text)
  | interrupt

/-- A dialogue with the console. -/
structure Session where
  repl : Repl
  /-- The lines typed since the last one was answered. -/
  pending : Text := []
  deriving DecidableEq

namespace Session

/-- Whether more lines are needed before the text can be answered. -/
def isOpen (t : Text) : Bool := 0 < depth t && (Text.trimLeft t).head? ≠ some ':'

/-- The log of answering a line, if it is kept. -/
def logOf (fs : FileSystem) (verbose : Bool) (c : Repl) (line : Text) : List Output :=
  if verbose then (c.events fs line).map .log else []

/-- The text of a reply as output; an empty one is not printed. -/
def shown (reply : Reply) : List Output :=
  match reply.text? with
  | none | some [] => []
  | some t => [.result t]

/-- Takes what is typed at one prompt. -/
def take (fs : FileSystem) (verbose : Bool) (s : Session) :
    Typed → Session × List Output × Option ReadError
  | .interrupt => ({ s with pending := [] }, [if s.pending = [] then .newline else .cancelled], none)
  | .line t =>
    let line := s.pending ++ t
    if isOpen line then ({ s with pending := line }, [], none)
    else
      let log := logOf fs verbose s.repl line
      match s.repl.evaluate fs line with
      | (c, .ok reply) => (⟨c, []⟩, log ++ shown reply, none)
      | (c, .error e) => (⟨c, []⟩, log, some e)

/-- The dialogue from the next prompt on, until the console is told to quit or nothing more is
typed. -/
def run (fs : FileSystem) (verbose : Bool) (s : Session) :
    List Typed → Session × List Output × Option ReadError
  | [] => if s.repl.running then (s, [.prompt (s.pending ≠ []), .newline], none) else (s, [], none)
  | typed :: rest =>
    if s.repl.running then
      match s.take fs verbose typed with
      | (s', out, some e) => (s', .prompt (s.pending ≠ []) :: out, some e)
      | (s', out, none) =>
        let (last, more, failure) := run fs verbose s' rest
        (last, .prompt (s.pending ≠ []) :: out ++ more, failure)
    else (s, [], none)

/-- Answers an expression or command given alone. The code is 1 for an expression that cannot be
reduced, and else 0. -/
def answer (fs : FileSystem) (verbose : Bool) (c : Repl) (line : Text) :
    Repl × List Output × Except ReadError Nat :=
  let log := logOf fs verbose c line
  match c.evaluate fs line with
  | (c, .error e) => (c, log, .error e)
  | (c, .ok reply) =>
    if reply.ok then (c, log ++ shown reply, .ok 0)
    else (c, log ++ [.complaint (reply.text?.getD [])], .ok 1)

/-- Answers lines until one gives a code other than 0. The blanks around a line are left out first, and
blank lines and comments are passed over. -/
def filter (fs : FileSystem) (verbose : Bool) (c : Repl) :
    List Text → Repl × List Output × Except ReadError Nat
  | [] => (c, [], .ok 0)
  | line :: rest =>
    let line := Text.trim line
    if line = [] ∨ line.head? = some '#' then filter fs verbose c rest
    else
      match answer fs verbose c line with
      | (c, out, .ok 0) =>
        let (c, more, code) := filter fs verbose c rest
        (c, out ++ more, code)
      | stopped => stopped

end Session

end Combinatory
