/-!
# Phases and gameplay events

The fixed part of every game: the phases it goes through and the events that lead from one to the
next. Besides the phases there is a state for every resource token, which says that the token is
available.
-/

namespace TokenGate

/-- The phases of a game. -/
inductive Phase where
  | setup
  | main
  | selecting
  | moving
  | validating
  | executing
  | checkingWin
  | ending
  deriving DecidableEq, Repr

namespace Phase

/-- All phases, in order. -/
def all : List Phase :=
  [setup, main, selecting, moving, validating, executing, checkingWin, ending]

/-- The text of a phase. -/
def text : Phase → String
  | setup => "setup"
  | main => "main"
  | selecting => "selecting"
  | moving => "moving"
  | validating => "validating"
  | executing => "executing"
  | checkingWin => "checking_win"
  | ending => "end"

/-- The phase with a text, if there is one. -/
def ofText? (text : String) : Option Phase := all.find? fun p => p.text == text

/-- Whether a game is over in a phase. -/
def isTerminal (p : Phase) : Bool := p == ending

/-- Every phase is among all phases. -/
theorem mem_all (p : Phase) : p ∈ all := by cases p <;> decide

/-- A phase is found by its text. -/
@[simp] theorem ofText?_text (p : Phase) : ofText? p.text = some p := by cases p <;> decide

end Phase

/-- The events of the fixed part of a game. -/
inductive GameplayEvent where
  | placePieces
  | startGame
  | selectPiece
  | movePiece
  | validateMove
  | executeMove
  | checkWin
  | nextTurn
  | pieceSelected
  | cancelSelection
  | moveValid
  | moveInvalid
  | constraintsPass
  | constraintsFail
  | coinBypass
  | moveExecuted
  | triggerFired
  | actionCostPaid
  | winConditionMet
  | noWin
  deriving DecidableEq, Repr

namespace GameplayEvent

/-- All gameplay events, in order. -/
def all : List GameplayEvent :=
  [placePieces, startGame, selectPiece, movePiece, validateMove, executeMove, checkWin, nextTurn,
    pieceSelected, cancelSelection, moveValid, moveInvalid, constraintsPass, constraintsFail,
    coinBypass, moveExecuted, triggerFired, actionCostPaid, winConditionMet, noWin]

/-- The label of a gameplay event. -/
def label : GameplayEvent → String
  | placePieces => "PLACE_PIECES"
  | startGame => "START_GAME"
  | selectPiece => "SELECT_PIECE"
  | movePiece => "MOVE_PIECE"
  | validateMove => "VALIDATE_MOVE"
  | executeMove => "EXECUTE_MOVE"
  | checkWin => "CHECK_WIN"
  | nextTurn => "NEXT_TURN"
  | pieceSelected => "PIECE_SELECTED"
  | cancelSelection => "CANCEL_SELECTION"
  | moveValid => "MOVE_VALID"
  | moveInvalid => "MOVE_INVALID"
  | constraintsPass => "CONSTRAINTS_PASS"
  | constraintsFail => "CONSTRAINTS_FAIL"
  | coinBypass => "COIN_BYPASS"
  | moveExecuted => "MOVE_EXECUTED"
  | triggerFired => "TRIGGER_FIRED"
  | actionCostPaid => "ACTION_COST_PAID"
  | winConditionMet => "WIN_CONDITION_MET"
  | noWin => "NO_WIN"

/-- Every gameplay event is among all of them. -/
theorem mem_all (e : GameplayEvent) : e ∈ all := by cases e <;> decide

end GameplayEvent

/-- The states of a game: the phases, and for each token the state that it is available. -/
inductive State where
  | phase (p : Phase)
  | token (name : String)
  deriving DecidableEq, Repr

namespace State

/-- The text of a state. -/
def text : State → String
  | phase p => p.text
  | token name => name ++ "_available"

/-- The state that a name stands for: the phase with this text, or else the state that the token of
this name is available. -/
def ofName (name : String) : State :=
  match Phase.ofText? name with
  | some p => phase p
  | none => token name

/-- Whether a game is over in a state. -/
def isTerminal : State → Bool
  | phase p => p.isTerminal
  | token _ => false

/-- The state in which a game starts. -/
def initial : State := phase .setup

end State
end TokenGate
