import TokenGate.Value

/-!
# Chess rules

The definition that the demonstration plays unless it is given another: the special moves of
chess, each earned with tokens.
-/

namespace TokenGate.Demo

/-- The texts of a trigger. -/
def trigger (event condition action grants : String) : Value :=
  .object [("event", .str event), ("condition", .str condition), ("action", .str action),
    ("grants", .str grants)]

/-- The texts of an action. -/
def action (name timing effect costs : String) : Value :=
  .object [("name", .str name), ("when", .str timing), ("effect", .str effect),
    ("costs", .str costs)]

/-- The texts of a constraint. -/
def constraint (name condition message bypass : String) : Value :=
  .object [("name", .str name), ("condition", .str condition), ("message", .str message),
    ("bypass_cost", .str bypass)]

/-- The pieces that a side starts with. -/
def pieces : Value :=
  .list [.str "king", .str "queen", .str "rooks", .str "bishops", .str "knights", .str "pawns"]

/-- The data of a game of chess when it starts. -/
def chessBoard : Value :=
  .object [
    ("board", .str "8x8 grid"),
    ("pieces", .object [("white", pieces), ("black", pieces)]),
    ("king_has_moved", .bool false),
    ("rook_has_moved", .bool false),
    ("king_in_check", .bool false),
    ("queen_has_moved", .bool false),
    ("queen_side_rook_moved", .bool false)]

/-- The rules of chess. -/
def chessRules : Value :=
  .object [
    ("name", .str "Chess"),
    ("players", .int 2),
    ("initial_state", chessBoard),
    ("triggers", .list [
      trigger "piece_moved" "piece.type == 'pawn' && distance == 2" "enable_en_passant"
        "en_passant_token",
      trigger "king_first_move" "king_never_moved && rook_never_moved" "enable_castling"
        "castle_token",
      trigger "queen_first_move" "queen_never_moved && queen_side_rook_never_moved"
        "enable_queen_side_castling" "castle_token queen_token"]),
    ("actions", .list [
      action "en_passant" "pawn_captures_en_passant" "remove_piece" "en_passant_token",
      action "advanced_castling" "king_castles_with_queen_side" "castle_queen_side"
        "castle_token queen_token"]),
    ("constraints", .list [
      constraint "castling_constraint" "king_has_moved || rook_has_moved || king_in_check"
        "Cannot castle: king/rook moved or king in check" "castle_token",
      constraint "queen_side_castling_constraint" "queen_has_moved || queen_side_rook_moved"
        "Cannot castle queen-side: queen or rook has moved" "castle_token queen_token"])]

end TokenGate.Demo
