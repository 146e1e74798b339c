import TokenGate.Proofs.Effect.Outcome
import TokenGate.Proofs.Interpreter.Reaction
import TokenGate.Proofs.Interpreter.Sharing

/-!
# Applying built-in effects

A built-in effect either changes the data of the game as is said of it, or it fails and leaves
everything as it was. It never fails in another way, and it fails only where there is nothing that
it could do.
-/

namespace TokenGate

variable {σ : Type}

namespace Effect.BuiltIn

/-- How a built-in effect is applied. -/
def handler : BuiltIn → EffectHandler σ
  | setFlag => .setFlag
  | removePiece => .removePiece

theorem get?_usual (b : BuiltIn) :
    (EffectHandler.usual : Table (EffectHandler σ)).get? b.name = some b.handler := by
  cases b <;> rfl

variable {b : BuiltIn} {payload : Data} {w after : World}

theorem changes_of_affect (tree : Treelike w.2 w.1 payload)
    (h : w.affect (some (b.handler : EffectHandler σ)) payload = .ok after) :
    Changes b (payload.read w.2.view) (w.1.fields w.2) (after.1.fields after.2) := by
  cases b with
  | setFlag =>
    obtain ⟨edit, made, rfl⟩ := Result.map_eq_ok.1 h
    exact changes_of_setFlag tree made
  | removePiece =>
    obtain ⟨edit, made, rfl⟩ := Result.map_eq_ok.1 h
    exact changes_of_removePiece tree made

theorem affect_of_changes {game : Fields} (tree : Treelike w.2 w.1 payload)
    (h : Changes b (payload.read w.2.view) (w.1.fields w.2) game) :
    ∃ after, w.affect (some (b.handler : EffectHandler σ)) payload = .ok after := by
  cases b with
  | setFlag =>
    obtain ⟨edit, made⟩ := setFlag_of_changes tree.given h
    exact ⟨_, Result.map_eq_ok.2 ⟨edit, made, rfl⟩⟩
  | removePiece =>
    obtain ⟨edit, made⟩ := removePiece_of_changes tree h
    exact ⟨_, Result.map_eq_ok.2 ⟨edit, made, rfl⟩⟩

end Effect.BuiltIn

namespace Interpreter

variable {i : Interpreter σ}

/-- A built-in effect makes an edit, or everything stays. -/
theorem applyEffect_of_handler {name : String} {b : Effect.BuiltIn}
    (h : i.surroundings.effects.get? name = some b.handler) (payload : Data) (s : Session σ) :
    match World.affect (some (b.handler : EffectHandler σ)) payload s.world with
    | .ok after => ∃ edit, after = World.edit s.world edit ∧
        i.applyEffect name payload s = (.ok true, s.edit edit)
    | .error e => i.applyEffect name payload s = (.error (.effect e.message), s) := by
  simp only [applyEffect, h]
  cases b with
  | setFlag =>
    simp only [Effect.BuiltIn.handler, World.affect, Session.world]
    cases Effect.setFlag s.edits s.current payload with
    | ok edit => exact ⟨edit, rfl, rfl⟩
    | error e => rfl
  | removePiece =>
    simp only [Effect.BuiltIn.handler, World.affect, Session.world]
    cases Effect.removePiece s.edits s.current payload with
    | ok edit => exact ⟨edit, rfl, rfl⟩
    | error e => rfl

/-- In surroundings with the usual effects, a built-in effect is applied exactly if there is
something that it can do; that is then done to the data of the game, and to nothing else. The data
must be a tree, as data is that has been made from values. -/
theorem applyEffect_builtIn (usual : i.surroundings.effects = EffectHandler.usual)
    (b : Effect.BuiltIn) (payload : Data) {s : Session σ}
    (tree : Effect.Treelike s.edits s.current payload) :
    (∃ s', i.applyEffect b.name payload s = (.ok true, s') ∧
      Effect.Changes b (payload.read s.edits.view) (s.current.fields s.edits)
        (s'.current.fields s'.edits) ∧
      ∃ edit, s' = s.edit edit) ∨
    ∃ text, i.applyEffect b.name payload s = (.error (.effect text), s) ∧
      ∀ game, ¬ Effect.Changes b (payload.read s.edits.view) (s.current.fields s.edits) game := by
  have found : i.surroundings.effects.get? b.name = some b.handler := by
    rw [usual, b.get?_usual]
  have applied := applyEffect_of_handler found payload s
  cases h : World.affect (some (b.handler : EffectHandler σ)) payload s.world with
  | ok after =>
    rw [h] at applied
    obtain ⟨edit, rfl, applied⟩ := applied
    exact .inl ⟨_, applied, Effect.BuiltIn.changes_of_affect (w := s.world) tree h, edit, rfl⟩
  | error e =>
    rw [h] at applied
    refine .inr ⟨_, applied, fun game change => ?_⟩
    obtain ⟨after, hok⟩ := Effect.BuiltIn.affect_of_changes (w := s.world) tree change
    cases h.symm.trans hok

/-- A session of a game in which two pieces are equal: one is a number, the other a truth value. -/
def pairedPieces : Session Unit :=
  { Session.idle () with
    live := some (.fresh 1 [] [("turn", .int 1),
      ("pieces", .object [("white", .list [.str "king", .int 1, .bool true])])])
    games := 1 }

/-- Of two equal pieces the first is taken, whichever of them was meant. -/
theorem applyEffect_builtIn_paired :
    ∃ s', Interpreter.board.applyEffect "remove_piece"
        (.object [("side", .str "white"), ("piece", .bool true)]) pairedPieces = (.ok true, s') ∧
      s'.current.fields s'.edits =
        [("turn", .int 1), ("pieces", .object [("white", .list [.str "king", .bool true])])] := by
  have among : ∃ x ∈ [Value.str "king", .int 1, .bool true], x.same (.bool true) = true :=
    ⟨.int 1, by simp, by decide⟩
  have change : Effect.Changes .removePiece
      (.object [("side", .str "white"), ("piece", .bool true)])
      [("turn", .int 1), ("pieces", .object [("white", .list [.str "king", .int 1, .bool true])])]
      _ :=
    .removePiece rfl rfl rfl among
  have tree : Effect.Treelike pairedPieces.edits pairedPieces.current
      (.object [("side", .str "white"), ("piece", .bool true)]) :=
    Effect.treelike_fresh 1 [] _ 0 (.object [("side", .str "white"), ("piece", .bool true)])
  rcases applyEffect_builtIn (i := .board) rfl .removePiece
      (.object [("side", .str "white"), ("piece", .bool true)]) tree with
    ⟨s', applied, changes, -⟩ | ⟨text, -, none⟩
  · exact ⟨s', applied, changes.unique change⟩
  · exact absurd change (none _)

end Interpreter
end TokenGate
