import Combinatory.Combinator

/-!
# Filling a template

A template is filled by putting the collected arguments in the place of its digits. It fails at the
first digit for which no argument was collected. What can go wrong in a reduction is listed here once
for all of it: `Fault`.
-/

namespace Combinatory

/-- Why a reduction cannot go on. -/
inductive Fault where
  /-- A digit of a template stands for an argument that was not collected. -/
  | noArgument (template : Text) (index collected : Nat)
  /-- A bracketed expression has made as many steps as it may. -/
  | stepLimit (expression : Text) (limit : Int)
  /-- Brackets are nested more deeply than may be open at once. -/
  | tooDeep
  /-- A bracketed expression without step limit was given up. -/
  | unsettled (expression : Text)
  /-- A term that is no compound was to be reduced inside. -/
  | notCompound (text : Text)
  deriving DecidableEq

def Fault.message : Fault → Text
  | .noArgument template index collected =>
    "Template ".toList ++ Text.quoted template ++ " refers to argument ".toList ++
      Text.ofNat index ++ " but only ".toList ++ Text.ofNat collected ++ " were collected".toList
  | .stepLimit expression limit =>
    "Sub-expression ".toList ++ Text.quoted expression ++ " did not settle within ".toList ++
      Text.ofInt limit ++ " steps".toList
  | .tooDeep => "Brackets are nested too deeply to reduce".toList
  | .unsettled expression =>
    "Sub-expression ".toList ++ Text.quoted expression ++ " did not settle".toList
  | .notCompound text => "Not a compound term: ".toList ++ Text.quoted text

/-- Fills a template; the error is the first digit without argument. -/
def fill (args : List Text) : Text → Except Nat Text
  | [] => .ok []
  | c :: cs =>
    match placeholder? c with
    | none => (fill args cs).map (c :: ·)
    | some i =>
      match args[i]? with
      | none => .error i
      | some arg => (fill args cs).map (arg ++ ·)

/-- The template with the arguments in the place of its digits. -/
def substitute (template : Text) (args : List Text) : Except Fault Text :=
  match fill args template with
  | .ok t => .ok t
  | .error i => .error (.noArgument template i args.length)

end Combinatory
