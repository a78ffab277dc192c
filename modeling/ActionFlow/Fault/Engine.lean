import ActionFlow.Fault.Basic
import ActionFlow.Path
import ActionFlow.Stage

/-!
# Faults of the engine

The faults that the engine itself raises, with their codes and texts.  All of them are valid.
-/
namespace ActionFlow.Fault

/-- Any failure that is not a fault itself. -/
def actionFailed (key reason : String) : Fault where
  code := "automation.action.failed"
  title := "Action failed"
  message := "The action \"" ++ key ++ "\" failed unexpectedly: " ++ reason
  status := 500
  details := []
  data := some (.object [("actionAlias", .text key)])

def actionCancelled (key : String) : Fault :=
  simple "automation.action.cancelled" "Automation cancelled"
    ("The automation run was cancelled before \"" ++ key ++ "\" could run") 499

def invalidTransition (key : String) (move : InvalidMove) : Fault :=
  simple "automation.action.invalid.state.transition" "Invalid action state transition"
    ("Action \"" ++ key ++ "\": " ++ move.message) 500

def setVariableFailed (property : String) (path reason : String) : Fault where
  code := "automation.action.set.variable.failed"
  title := "Set variable failed"
  message := "Could not set variable \"" ++ property ++ "\" at path \"" ++ path ++ "\": " ++ reason
  status := 400
  details := ["Property name: " ++ property, "Path: " ++ path]
  data := none

def indexOutOfRange (key : String) (index : Int) (length : Nat) : Fault :=
  simple "automation.action.iterate.index.out.of.range" "Iteration index out of range"
    ("The iterate action \"" ++ key ++ "\" was given index " ++ Decimal.integerText index ++
      " for a list of " ++ Decimal.integerText length ++ " items") 400

theorem valid_actionFailed (key reason : String) : (actionFailed key reason).Valid := by
  simp only [Valid, actionFailed]
  decide

theorem valid_actionCancelled (key : String) : (actionCancelled key).Valid := by
  simp only [Valid, actionCancelled, simple]
  decide

theorem valid_invalidTransition (key : String) (move : InvalidMove) :
    (invalidTransition key move).Valid := by
  simp only [Valid, invalidTransition, simple]
  decide

theorem valid_setVariableFailed (property path reason : String) :
    (setVariableFailed property path reason).Valid := by
  simp only [Valid, setVariableFailed]
  decide

theorem valid_indexOutOfRange (key : String) (index : Int) (length : Nat) :
    (indexOutOfRange key index length).Valid := by
  simp only [Valid, indexOutOfRange, simple]
  decide

end ActionFlow.Fault
