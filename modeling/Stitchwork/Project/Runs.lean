/- # Stitchwork.Project.Runs — neighbours that are written alike.

Lists of nodes that stand next to each other and are written alike form a run.  Grouping keeps the first list
of each run and counts its members.
-/
import Stitchwork.Markup.Writer

namespace Stitchwork.Project

open Stitchwork.Markup

/-- Nodes as one text. -/
def textOf (ns : List Node) : String := String.ofList (writeNodes ns)

/-- Groups what follows a run that has `count` members so far, all written like `current`. -/
def groupFrom (current : List Node) (count : Nat) : List (List Node) → List (List Node) × List Nat
  | [] => ([], [count])
  | next :: rest =>
    if textOf next == textOf current then groupFrom current (count + 1) rest
    else
      let (groups, counts) := groupFrom next 1 rest
      (next :: groups, count :: counts)

/-- The first list of each run and the number of its members.  Without any list there is one number all the
same. -/
def groupRuns : List (List Node) → List (List Node) × List Nat
  | [] => ([], [1])
  | first :: rest =>
    let (groups, counts) := groupFrom first 1 rest
    (first :: groups, counts)

/-- Are two neighbours written alike? -/
def hasRun : List (List Node) → Bool
  | a :: b :: rest => textOf a == textOf b || hasRun (b :: rest)
  | _ => false

end Stitchwork.Project
