import TokenGate.Phase

/-!
# The fixed topology

Which gameplay events are accepted in a phase, and where they lead. After setup the game is in the
main phase, which fans out into selection, movement, validation, execution and the win check, from
where it returns or ends.
-/

namespace TokenGate.Phase

open GameplayEvent

/-- The events that a phase accepts, in order, each with the phase it leads to. -/
def edges : Phase → List (GameplayEvent × Phase)
  | setup => [(placePieces, main), (startGame, main)]
  | main =>
      [(selectPiece, selecting), (movePiece, moving), (validateMove, validating),
        (executeMove, executing), (checkWin, checkingWin), (nextTurn, main)]
  | selecting => [(pieceSelected, moving), (cancelSelection, main)]
  | moving => [(moveValid, validating), (moveInvalid, main)]
  | validating => [(constraintsPass, executing), (constraintsFail, main), (coinBypass, executing)]
  | executing =>
      [(moveExecuted, checkingWin), (triggerFired, checkingWin), (actionCostPaid, checkingWin)]
  | checkingWin => [(winConditionMet, ending), (noWin, main)]
  | ending => []

/-- A phase accepts nothing exactly if the game is over in it. -/
theorem edges_eq_nil (p : Phase) : p.edges = [] ↔ p.isTerminal = true := by
  cases p <;> simp [edges, isTerminal]

end TokenGate.Phase
