import TokenGate.Context

/-!
# Built-in effects

The two effects that every game has unless told otherwise. `set_flag` stores the payload's `value`
in the game's data under the payload's `flag`. `remove_piece` takes the payload's `piece` out of
the list that the game's `pieces` hold for the payload's `side`.
-/

namespace TokenGate

/-- What can go wrong with a built-in effect. -/
inductive EffectError where
  /-- The payload is no object; `kind` is what it is. -/
  | notAnObject (effect kind : String)
  | noFlag
  | noPiece (piece side : Value)
  /-- The game's pieces are no object; `kind` is what they are. -/
  | noRosters (kind : String)
  /-- The side is nothing that can be looked up. -/
  | badSide (cause : NotAKey)

/-- The text about an effect that failed for some reason. -/
def effectFailedText (name reason : String) : String :=
  "Effect '" ++ name ++ "' failed: " ++ reason

/-- The text of an effect error. -/
def EffectError.message : EffectError → String
  | notAnObject effect kind => effect ++ " requires a mapping payload, got " ++ kind
  | noFlag => "set_flag requires a 'flag' entry in the event payload"
  | noPiece piece side =>
      "No piece " ++ piece.written ++ " on side " ++ side.written ++ " to remove"
  | noRosters kind =>
      effectFailedText "remove_piece" (lacksText kind "get")
  | badSide cause => effectFailedText "remove_piece" cause.message

namespace Effect

/-- Storing a flag. -/
def setFlag (s : Edits) (c : Context) (payload : Data) : Except EffectError Edit :=
  match s.entries? payload with
  | some fields =>
      let flag := (Data.field fields "flag").read s.view
      if flag.truth then
        .ok (c.put flag.shown ((Entries.get? "value" fields).getD (.bool true)))
      else .error .noFlag
  | none => .error (.notAnObject "set_flag" (payload.read s.view).kindName)

/-- The pieces of all sides. -/
def rosters (s : Edits) (c : Context) : Except EffectError (List (String × Data)) :=
  match Entries.get? "pieces" (c.entries s) with
  | none => .ok []
  | some d =>
      match s.entries? d with
      | some sides => .ok sides
      | none => .error (.noRosters (d.read s.view).kindName)

/-- Taking a piece out of the game. -/
def removePiece (s : Edits) (c : Context) (payload : Data) : Except EffectError Edit :=
  match s.entries? payload with
  | some fields =>
      let side := (Data.field fields "side").read s.view
      let piece := (Data.field fields "piece").read s.view
      match rosters s c, side.asKey with
      | .error e, _ => .error e
      | .ok _, .error e => .error (.badSide e)
      | .ok sides, .ok key =>
          match key.bind (Entries.get? · sides) with
          | some (.list mark items) =>
              match Data.position? s.view mark piece 0 items with
              | some n => .ok (.strike mark n)
              | none => .error (.noPiece piece side)
          | _ => .error (.noPiece piece side)
  | none => .error (.notAnObject "remove_piece" (payload.read s.view).kindName)

end Effect
end TokenGate
