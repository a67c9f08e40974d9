import EntityGen.Generated.Plan

/-! Reports of what went wrong in a round. Nothing that is reported stops a round, and two reports
of one kind with the same message are one. -/
namespace EntityGen

inductive Refusal where
  /-- The file at a path could not be written. -/
  | unwritten (path text : String)
  /-- The code for a path cannot be read back. -/
  | unreadable (path text : String)
  deriving DecidableEq, Repr

def Refusal.message : Refusal → String
  | unwritten path text => "failed to write `" ++ path ++ "`: " ++ text
  | unreadable path text => "generated code for `" ++ path ++ "` is not valid Rust: " ++ text

inductive DiagnosticKind where
  | missingId
  | multipleIds
  | invalidSpec
  | plan
  | emit
  deriving DecidableEq, Repr

def DiagnosticKind.name : DiagnosticKind → String
  | missingId => "missing_id"
  | multipleIds => "multiple_ids"
  | invalidSpec => "invalid_spec"
  | plan => "plan"
  | emit => "emit"

/-- A report, by its cause. -/
inductive Diagnostic where
  | spec (error : SpecError)
  | clash (clash : Clash)
  /-- A refused unit; one that declares an entity knows the name of its spec. -/
  | refused (refusal : Refusal) (spec : Option String)
  deriving DecidableEq, Repr

namespace Diagnostic

def kind : Diagnostic → DiagnosticKind
  | spec ⟨_, .missingId, _⟩ => .missingId
  | spec ⟨_, .multipleIds _, _⟩ => .multipleIds
  | spec ⟨_, .invalid _, _⟩ => .invalidSpec
  | clash _ => .plan
  | refused _ _ => .emit

def specName? : Diagnostic → Option String
  | .spec error => some error.spec
  | .clash _ => none
  | .refused _ name => name

def pos : Diagnostic → Pos
  | .spec error => error.pos
  | .clash cause => cause.pos
  | .refused _ _ => .none

def message : Diagnostic → String
  | .spec error => error.message
  | .clash cause => cause.message
  | .refused cause _ => cause.message

def repeats (a b : Diagnostic) : Bool := a.kind == b.kind && a.message == b.message

def compileError (diagnostic : Diagnostic) : Code := Code.compileError diagnostic.message

end Diagnostic

/-- The reports of a round in order, and the warnings that went with them. -/
structure Reports where
  diagnostics : List Diagnostic := []
  warnings : List String := []
  deriving DecidableEq, Repr

namespace Reports

def add (reports : Reports) (diagnostic : Diagnostic) : Reports :=
  if reports.diagnostics.any diagnostic.repeats then reports
  else { reports with diagnostics := reports.diagnostics ++ [diagnostic] }

def addAll (reports : Reports) (diagnostics : List Diagnostic) : Reports :=
  diagnostics.foldl add reports

/-- Each clash is a warning as well, even if it was reported before. -/
def addClash (reports : Reports) (clash : Clash) : Reports :=
  let warning := "planner " ++ clash.part.name ++ " failed: " ++ clash.message
  { reports with warnings := reports.warnings ++ [warning] }.add (.clash clash)

def summary (reports : Reports) : String :=
  "code generation reported " ++ toString reports.diagnostics.length ++ " diagnostic(s), first: " ++
    (reports.diagnostics.head?.map Diagnostic.message).getD ""

end Reports
end EntityGen
