import TokenGate.Data
import TokenGate.Value.Text

/-!
# Events

What is sent to a running game: a label and the data that comes with it. An event may be given as
a text, which is the label, or as an object with the label under `type` and the data under
`payload`.
-/

namespace TokenGate

/-- An event. -/
structure Event where
  type : String
  payload : Data
  deriving Inhabited

/-- What can be wrong with data that is to be an event. -/
inductive EventError where
  /-- The object has no text under its type. -/
  | noType
  /-- The data is neither a text nor an object. -/
  | notAnEvent (value : Value)

/-- The text of an event error. -/
def EventError.message : EventError → String
  | noType => "Event mapping requires a string 'type' field"
  | notAnEvent v => "Cannot interpret " ++ v.written ++ " as an event"

namespace Event

/-- The payload that an event has for the one that is given: an object is copied, though not what is
in it. -/
def copiedPayload (s : Edits) (d : Data) : Data :=
  match s.entries? d with
  | some fields => .object fields
  | none => d

/-- The event that data describes. Without a payload, it is the empty object. -/
def ofData (s : Edits) (d : Data) : Except EventError Event :=
  match d, s.entries? d with
  | .str type, _ => .ok ⟨type, .object []⟩
  | _, some fields =>
      match Data.field fields "type" with
      | .str type =>
          .ok ⟨type, copiedPayload s ((Entries.get? "payload" fields).getD (.object []))⟩
      | _ => .error .noType
  | d, none => .error (.notAnEvent (d.read s.view))

/-- An event as a value. -/
def toValue (s : Edits) (e : Event) : Value :=
  .object [("type", .str e.type), ("payload", e.payload.read s.view)]

end Event
end TokenGate
