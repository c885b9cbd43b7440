import Milp.CommandLine.Run

/-!
# Written results

The data of a run as a JSON document, one member a line and one entry of the solution a line, and the
text that explains the options.
-/

namespace Milp.CommandLine

/-- A number in a document. Infinities and NaN, which JSON lacks, are written by name. -/
def numberText : Binary64 → String
  | .nan => "NaN"
  | .infinite s => if s then "-Infinity" else "Infinity"
  | x => x.text

/-- The solution in a document. -/
def solutionText : List Binary64 → String
  | [] => "[]"
  | xs => "[\n" ++ ",\n".intercalate (xs.map fun x => "    " ++ numberText x) ++ "\n  ]"

/-- A member of the document. -/
def memberText (name value : String) : String := "  \"" ++ name ++ "\": " ++ value

/-- A text in a document; names of statuses and modes have nothing to escape. -/
def nameText (s : String) : String := "\"" ++ s ++ "\""

/-- **The document** of a run. -/
def Payload.document (p : Payload) : String :=
  let members :=
    [memberText "status" (nameText p.status.name), memberText "mode" (nameText p.mode.name),
      memberText "build_seconds" (numberText p.buildSeconds),
      memberText "solve_seconds" (numberText p.solveSeconds)] ++
    (match p.answer with
      | some (score, solution) =>
        [memberText "score" (numberText score), memberText "solution" (solutionText solution)]
      | none => [])
  "\x7b\n" ++ ",\n".intercalate members ++ "\n\x7d"

/-- **What the options mean.** -/
def helpText : String :=
  "\n".intercalate
    ["Build and solve a random sparse selection MILP",
     "",
     "  -h, --help       show this text",
     "  --columns        number of columns",
     "  --rows           number of rows",
     "  --patterns       distinct row patterns to draw rows from",
     "  --density        share of columns touched by each row",
     "  --integer-share  share of integer (binary) columns",
     "  --seed           random seed",
     "  --mode           row insertion path: dense, sparse, cached or batch",
     "  --time-limit     solver time budget in seconds, unlimited when omitted",
     "  --mip-gap        relative gap at which the engine may stop",
     "  --output-json    file to write status, score and solution to",
     "  --verbose, -v    show the log of sessions; twice for details"]

end Milp.CommandLine
