import Combinatory.Reduction.Step

/-!
# Traces

A trace holds the steps of a run that progressed, with the buffers at its two ends. It is written in
four styles, and its labels are counted: `Trace.counts` has every label once, in the order in which the
labels first occur.
-/

namespace Combinatory

/-- The steps of a run. -/
structure Trace where
  initial : Text
  steps : List Step
  final : Text
  /-- Whether the run ended at a buffer that no step changes. -/
  settled : Bool
  deriving DecidableEq

inductive TraceStyle where
  | verbose
  | compact
  | rules
  | chain
  deriving DecidableEq, Repr

namespace TraceStyle

def table : List (Text × TraceStyle) :=
  [("verbose".toList, .verbose), ("compact".toList, .compact), ("rules".toList, .rules),
    ("chain".toList, .chain)]

def ofName? (name : Text) : Option TraceStyle := table.lookup name

def unknownMessage (name : Text) : Text :=
  "Unknown trace style: ".toList ++ name ++ ". Valid options: ".toList ++
    ", ".toList.intercalate (table.map Prod.fst)

end TraceStyle

/-- Counts one more occurrence of a label; a new label is put at the end. -/
def countLabel (label : Text) : List (Text × Nat) → List (Text × Nat)
  | [] => [(label, 1)]
  | (other, n) :: counts =>
    if other = label then (other, n + 1) :: counts else (other, n) :: countLabel label counts

/-- The first of the entries with the greatest count, or `best` if none has a greater one. -/
def mostCounted (best : Text × Nat) : List (Text × Nat) → Text × Nat
  | [] => best
  | entry :: counts => mostCounted (if best.2 < entry.2 then entry else best) counts

namespace Trace

def start (initial : Text) : Trace := ⟨initial, [], initial, false⟩

def add (t : Trace) (s : Step) : Trace := { t with steps := t.steps ++ [s], final := s.after }

def labels (t : Trace) : List Text := t.steps.map Step.label

/-- How often every label occurs. -/
def counts (t : Trace) : List (Text × Nat) :=
  t.labels.foldl (fun counts label => countLabel label counts) []

/-- The steps with their numbers, one a line, between the two ends. -/
def verbose (t : Trace) : Text :=
  let numbered := t.steps.mapIdx fun i s =>
    "  ".toList ++ Text.ofNat (i + 1) ++ ". ".toList ++ s.describe
  ['\n'].intercalate
    (["Initial: ".toList ++ t.initial] ++ numbered ++ ["Final: ".toList ++ t.final])

/-- The labels between the two ends, on one line. -/
def compact (t : Trace) : Text :=
  t.initial ++ " --[".toList ++ ", ".toList.intercalate t.labels ++ "]--> ".toList ++ t.final

def rules (t : Trace) : Text :=
  if t.steps = [] then "(no rules applied)".toList else " -> ".toList.intercalate t.labels

/-- All buffers, one a line, with the label of each step between them. -/
def chain (t : Trace) : Text :=
  ['\n'].intercalate
    (t.initial :: t.steps.flatMap fun s => ["  --(".toList ++ s.label ++ ")-->".toList, s.after])

def write (t : Trace) : TraceStyle → Text
  | .verbose => t.verbose
  | .compact => t.compact
  | .rules => t.rules
  | .chain => t.chain

/-- The number of steps, how the run ended, and the label that occurs most. -/
def summary (t : Trace) : Text :=
  match t.counts with
  | [] => "No rewriting performed".toList
  | entry :: counts =>
    let (label, n) := mostCounted entry counts
    Text.ofNat t.steps.length ++ " steps (".toList ++
      (if t.settled then "normal form".toList else "step limit reached".toList) ++
      "). Most used: ".toList ++ label ++ " (".toList ++ Text.ofNat n ++ "x)".toList

end Trace

end Combinatory
