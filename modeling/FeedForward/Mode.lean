import FeedForward.Fault
import FeedForward.Text.Case

/-!
# Modes of training

Where labels come from and how weights are found are chosen by name, in any case. The
canonical name of a mode is upper case. A name that is no mode is refused together with
the names there are.
-/

namespace FeedForward

/-- Where the training labels come from: they are given, or the input is its own label. -/
inductive LearningStyle where
  | supervised
  | unsupervised
  deriving DecidableEq, Repr

/-- How the weights are found. -/
inductive TrainingMethod where
  | gradientDescent
  deriving DecidableEq, Repr

/-- The mode with a given name in any case. -/
def modeNamed {μ : Type} (kind : String) (modes : List (String × μ)) (name : String) :
    Except Fault μ :=
  match modes.find? fun mode => mode.1 == Text.upper name with
  | some mode => .ok mode.2
  | none => .error (.unsupportedMode kind name (modes.map Prod.fst))

namespace LearningStyle

/-- The canonical name. -/
def name : LearningStyle → String
  | supervised => "SUPERVISED"
  | unsupervised => "UNSUPERVISED"

/-- The style with a given name. -/
def ofName (name : String) : Except Fault LearningStyle :=
  modeNamed "LearningStyle" ([supervised, unsupervised].map fun style => (style.name, style)) name

end LearningStyle

namespace TrainingMethod

/-- The canonical name. -/
def name : TrainingMethod → String
  | gradientDescent => "GRADIENT_DESCENT"

/-- The method with a given name. -/
def ofName (name : String) : Except Fault TrainingMethod :=
  modeNamed "TrainingMethod" ([gradientDescent].map fun method => (method.name, method)) name

end TrainingMethod

end FeedForward
