import DeckBinding.Text.Case
import DeckBinding.Text.Quoted
import DeckBinding.Value.Integer

set_option autoImplicit false

namespace DeckBinding

open DeckBinding.Text

inductive Phase where
  | templateAnalysis
  | aliasTransformation
  | planGeneration
  | dataBinding
  | functionProcessing
  | finalization
deriving DecidableEq

namespace Phase

def all : List Phase :=
  [.templateAnalysis, .aliasTransformation, .planGeneration, .dataBinding, .functionProcessing,
   .finalization]

def name : Phase → String
  | .templateAnalysis => "template_analysis"
  | .aliasTransformation => "alias_transformation"
  | .planGeneration => "plan_generation"
  | .dataBinding => "data_binding"
  | .functionProcessing => "function_processing"
  | .finalization => "finalization"

/-- The name of a phase as a reader sees it. -/
def label : Phase → String
  | .templateAnalysis => "Template analysis"
  | .aliasTransformation => "Alias transformation"
  | .planGeneration => "Plan generation"
  | .dataBinding => "Data binding"
  | .functionProcessing => "Function processing"
  | .finalization => "Finalization"

end Phase

inductive ProgressError where
  | unknownPhase (name : String)
  | percentage (error : Value.IntegerError)

def ProgressError.message : ProgressError → String
  | .unknownPhase name => s!"{quotedString name} is not a valid ProcessingPhase"
  | .percentage error => error.message

def Phase.ofName (name : String) : Except ProgressError Phase :=
  match Phase.all.find? fun phase => phase.name == name with
  | some phase => .ok phase
  | none => .error (.unknownPhase name)

structure Notice where
  phase : Phase
  percentage : Int
  message : String
deriving DecidableEq

/-- The progress of a run: the percentage reached, and what was told so far. -/
structure Progress where
  percentage : Int
  notices : List Notice

namespace Progress

def start : Progress := ⟨0, []⟩

/-- Tells a notice. A percentage is kept between 0 and 100 and never falls. -/
def report (progress : Progress) (notice : Notice) : Progress :=
  let percentage := max progress.percentage (min (max notice.percentage 0) 100)
  ⟨percentage, progress.notices ++ [{ notice with percentage }]⟩

def reportAll (progress : Progress) (notices : List Notice) : Progress :=
  notices.foldl report progress

/-- Tells a notice with a percentage that may be any value. -/
def reportValue (progress : Progress) (phase : Phase) (percentage : Value) (message : String) :
    Except ProgressError Progress :=
  match percentage.toInteger with
  | .ok number => .ok (progress.report ⟨phase, number, message⟩)
  | .error error => .error (.percentage error)

theorem percentage_report_le (progress : Progress) (notice : Notice)
    (bound : progress.percentage ≤ 100) : (progress.report notice).percentage ≤ 100 := by
  simp only [report]
  omega

theorem le_percentage_report (progress : Progress) (notice : Notice) :
    progress.percentage ≤ (progress.report notice).percentage := by
  simp only [report]
  omega

end Progress

end DeckBinding
