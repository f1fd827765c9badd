import PlaneSketch.Diagnosis.Basic

/-!
# Reports

A diagnosis as a text of fixed layout (`render`): a title, the counts, and one section each for
invalid constraints, conflicts, redundant constraints and suggestions. An empty section says so.
-/

namespace PlaneSketch

namespace Diagnosis

variable {α : Type}

def unlines (lines : List String) : String :=
  String.join (lines.map (· ++ "\n"))

def sectionLines (title : String) (count : Nat) (items : List String) : List String :=
  "" :: (title ++ " (" ++ toString count ++ ")") :: if count = 0 then ["  none"] else items

def conflictLines (d : Diagnosis α) (c : Conflict) : List String :=
  ["  [" ++ c.severity.name ++ "] " ++ c.category.name ++ ": " ++
      ", ".intercalate (c.members.map d.label),
    "    " ++ c.explanation,
    "    Resolution: " ++ c.resolution ++ if c.autoFixable then " (auto-fixable)" else ""]

def redundancyLine (d : Diagnosis α) (id : ConstraintId) : String :=
  "  " ++ d.label id ++ ": " ++
    ((d.constraint? id).bind (·.redundancy?)).getD "implied by the remaining constraints"

def suggestionLine (s : Suggestion α) : String :=
  "  [" ++ s.priority.name ++ "] " ++ s.proposed.name ++ ": " ++ s.description ++
    if s.autoAddable then " (auto-addable)" else ""

variable [NumberText α]

def invalidLine (d : Diagnosis α) : ConstraintId × Defect α → String
  | (id, defect) => "  " ++ d.label id ++ ": " ++ (Fault.invalidConstraint id defect).message

open NumberText in
def solveLine (d : Diagnosis α) : String :=
  match d.solve? with
  | none => "Solve: not attempted"
  | some r =>
    "Solve: " ++ r.message ++ " (aggregate error " ++ scientific 3 r.errors.aggregate ++
      ", max error " ++ scientific 3 r.errors.maxError ++ ", " ++ toString r.iterations ++
      " iterations)"

def headerLines (d : Diagnosis α) : List String :=
  let title := "Sketch diagnostics: " ++ d.name
  [title,
    String.ofList (List.replicate title.length '='),
    "Status: " ++ d.status.name,
    "DOF: " ++ toString d.freedom.dof ++ " (" ++ toString d.freedom.unknowns ++ " variables, " ++
      toString d.freedom.equations ++ " weighted equations from " ++
      toString d.freedom.constraints ++ " active constraints)",
    d.solveLine] ++
  if d.purged.isEmpty then []
  else
    ["Purged dangling constraints: " ++ ", ".intercalate (d.purged.map ConstraintId.name)]

def report (d : Diagnosis α) : String :=
  unlines <|
    d.headerLines
      ++ sectionLines "Invalid constraints" d.invalid.length (d.invalid.map d.invalidLine)
      ++ sectionLines "Conflicts" d.conflicts.length (d.conflicts.flatMap d.conflictLines)
      ++ sectionLines "Redundant constraints" d.redundant.length (d.redundant.map d.redundancyLine)
      ++ sectionLines "Suggestions" d.suggestions.length (d.suggestions.map suggestionLine)

end Diagnosis

end PlaneSketch
