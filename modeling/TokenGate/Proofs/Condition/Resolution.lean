import TokenGate.Condition.Setting
import TokenGate.Context
import TokenGate.Proofs.Table

/-!
# What names stand for

A path starts at a key of the event's data or, if there is no such key, at a key of the game's. So
it stands for the same as the path that says in front of it whose data is meant, and such a path
follows its names from key to key. Whatever is not there is null: a name without a key, whatever
comes after null, and all of a path if there is no data to start at.
-/

namespace TokenGate

namespace Condition

/-- Following names from a value leads to a value, along objects and null only: from key to key, to
null where there is no key, and no further than null. -/
inductive Follows : Value → List String → Value → Prop
  | here (v : Value) : Follows v [] v
  | null (name : String) (rest : List String) : Follows .null (name :: rest) .null
  | missing {fields : Fields} {name : String} (rest : List String)
      (absent : name ∉ Entries.keys fields) : Follows (.object fields) (name :: rest) .null
  | key {fields : Fields} {name : String} {rest : List String} {v w : Value}
      (found : Entries.get? name fields = some v) (h : Follows v rest w) :
      Follows (.object fields) (name :: rest) w

/-- Names meet nothing but objects and null on their way from a value. -/
def Clear (v : Value) (names : List String) : Prop :=
  ∀ front name rest u, names = front ++ name :: rest → Follows v front u →
    u = .null ∨ ∃ fields, u = .object fields

/-- The data of an event has a key. -/
def Occasion.Holds (e : Occasion) (name : String) : Prop :=
  ∃ fields, e.payload? = some fields ∧ name ∈ Entries.keys fields

/-- The names that say where a path starts. -/
def scopeNames : List String := ["ledger", "payload", "game_state"]

namespace Path

/-- What a path writes. -/
def text (p : Path) : String := ".".intercalate (p.head :: p.rest)

theorem ofText_of_splitOn {text : String} {head : List Char} {rest : List (List Char)}
    (h : text.toList.splitOn '.' = head :: rest) :
    ofText text = ⟨String.ofList head, rest.map String.ofList⟩ := by
  rw [ofText, h]

/-- A path is cut from its text as it has been written, if there are no points in its names. -/
theorem ofText_intercalate {head : String} {rest : List String}
    (plain : ∀ name ∈ head :: rest, '.' ∉ name.toList) :
    ofText (".".intercalate (head :: rest)) = ⟨head, rest⟩ := by
  have pieces : (".".intercalate (head :: rest)).toList.splitOn '.' =
      head.toList :: rest.map String.toList := by
    rw [String.toList_intercalate]
    apply List.splitOn_intercalate '.'
    · intro cs hcs
      obtain ⟨name, hname, rfl⟩ := List.mem_map.1 hcs
      exact plain name hname
    · simp
  rw [ofText_of_splitOn pieces, String.ofList_toList, List.map_map]
  simp

/-- A text is what the path that is cut from it writes. -/
theorem text_ofText (s : String) : (ofText s).text = s := by
  cases pieces : s.toList.splitOn '.' with
  | nil => exact absurd pieces (List.splitOn_ne_nil '.' s.toList)
  | cons head rest =>
    have whole : ['.'].intercalate (s.toList.splitOn '.') = s.toList := List.intercalate_splitOn '.'
    rw [ofText_of_splitOn pieces, text, ← String.toList_inj, String.toList_intercalate, ← whole,
      pieces]
    simp

/-- A name in front of a text comes in front of its path. -/
theorem ofText_append {scope : String} (plain : '.' ∉ scope.toList) (s : String) :
    ofText (scope ++ "." ++ s) = ⟨scope, (ofText s).head :: (ofText s).rest⟩ := by
  cases pieces : s.toList.splitOn '.' with
  | nil => exact absurd pieces (List.splitOn_ne_nil '.' s.toList)
  | cons head rest =>
    have whole : (scope ++ "." ++ s).toList.splitOn '.' = scope.toList :: head :: rest := by
      have characters : (scope ++ "." ++ s).toList = scope.toList ++ '.' :: s.toList := by simp
      rw [characters, List.splitOn_append_cons_self_of_not_mem plain, pieces]
    rw [ofText_of_splitOn whole, ofText_of_splitOn pieces, String.ofList_toList]
    rfl

end Path

section Walk

variable {place : List String} {v w : Value} {names : List String} {fields : Fields}
  {name : String}

theorem field_of_get? (found : Entries.get? name fields = some v) :
    Value.field fields name = v := by
  rw [Value.field, found]
  rfl

theorem field_of_not_mem (absent : name ∉ Entries.keys fields) :
    Value.field fields name = .null := by
  rw [Value.field, Entries.get?_eq_none_iff.2 absent]
  rfl

/-- Names that meet nothing else lead to a value. -/
theorem exists_follows (clear : Clear v names) : ∃ w, Follows v names w := by
  induction names generalizing v with
  | nil => exact ⟨v, .here v⟩
  | cons name rest ih =>
    rcases clear [] name rest v rfl (.here v) with rfl | ⟨fields, rfl⟩
    · exact ⟨.null, .null name rest⟩
    · cases found : Entries.get? name fields with
      | none => exact ⟨.null, .missing rest (Entries.get?_eq_none_iff.1 found)⟩
      | some u =>
        have further : Clear u rest := by
          rintro front next more u' rfl follows
          exact clear (name :: front) next more u' rfl (.key found follows)
        obtain ⟨w, follows⟩ := ih further
        exact ⟨w, .key found follows⟩

@[simp]
theorem walk_null (a : Attributes) (place names : List String) :
    a.walk place (.value .null) names = .value .null := by
  induction names generalizing place with
  | nil => rfl
  | cons name rest ih => exact ih (name :: place)

theorem walk_object (a : Attributes) (place : List String) (fields : Fields) (name : String)
    (rest : List String) :
    a.walk place (.value (.object fields)) (name :: rest) =
      a.walk (name :: place) (.value (Value.field fields name)) rest := rfl

theorem clear_nil (v : Value) : Clear v [] := by
  intro front name rest u split
  exact absurd split (by simp)

theorem clear_object {rest : List String}
    (h : Clear (Value.field fields name) rest) : Clear (.object fields) (name :: rest) := by
  intro front next more u split follows
  cases follows with
  | here => exact .inr ⟨fields, rfl⟩
  | missing rest absent => exact .inl rfl
  | @key _ _ front v _ found follows =>
    obtain ⟨rfl, rfl⟩ := List.cons.inj split
    rw [field_of_get? found] at h
    exact h front next more u rfl follows

/-- What following the names of a path leads to is found. -/
theorem walk_of_follows (a : Attributes) (h : Follows v names w) :
    a.walk place (.value v) names = .value w := by
  induction h generalizing place with
  | here v => rfl
  | null name rest => exact walk_null a place _
  | missing rest absent => rw [walk_object, field_of_not_mem absent, walk_null]
  | key found h ih => rw [walk_object, field_of_get? found, ih]

end Walk

section Resolve

variable {s : Scope} {p : Path}

/-- A path that is neither the turn nor the state and does not say where it starts. -/
structure Path.Bare (p : Path) : Prop where
  unscoped : p.head ∉ scopeNames
  notTurn : ¬ (p.head = "turn" ∧ p.rest = [])
  notState : ¬ (p.head = "state" ∧ p.rest = [])

theorem resolve_payload (s : Scope) (names : List String) :
    resolve s ⟨"payload", names⟩ =
      s.attributes.walk ["payload"] (.value (.object s.payload)) names := by
  simp [resolve]

theorem resolve_game (s : Scope) (names : List String) :
    resolve s ⟨"game_state", names⟩ =
      s.attributes.walk ["game_state"] (.value s.game) names := by
  simp [resolve]

theorem Path.Bare.apart (bare : p.Bare) :
    p.head ≠ "ledger" ∧ p.head ≠ "payload" ∧ p.head ≠ "game_state" := by
  have unscoped := bare.unscoped
  simpa only [scopeNames, List.mem_cons, List.not_mem_nil, or_false, not_or] using unscoped

/-- A key of the event's data comes first, whatever is under it. -/
theorem resolve_of_mem (bare : p.Bare) (h : p.head ∈ Entries.keys s.payload) :
    resolve s p = resolve s ⟨"payload", p.head :: p.rest⟩ := by
  obtain ⟨ledger, payload, game⟩ := bare.apart
  obtain ⟨v, found⟩ := Option.isSome_iff_exists.1 ((Entries.get?_isSome p.head s.payload).2 h)
  have looked : resolve s p = s.attributes.walk [p.head, "payload"] (.value v) p.rest := by
    simp only [resolve, bare.notTurn, bare.notState, ledger, payload, game, found, if_false]
  rw [looked, resolve_payload, walk_object, field_of_get? found]

/-- Any other name is a key of the game's data, or of nothing. -/
theorem resolve_of_not_mem {fields : Fields} (bare : p.Bare)
    (h : p.head ∉ Entries.keys s.payload) (object : s.game = .object fields) :
    resolve s p = resolve s ⟨"game_state", p.head :: p.rest⟩ := by
  obtain ⟨ledger, payload, game⟩ := bare.apart
  have looked : resolve s p = s.attributes.walk [p.head, "game_state"]
      (.value (Value.field (s.game.fields?.getD []) p.head)) p.rest := by
    simp only [resolve, bare.notTurn, bare.notState, ledger, payload, game,
      Entries.get?_eq_none_iff.2 h, if_false]
  rw [looked, resolve_game, object, walk_object]
  rfl

/-- A path that says where it starts does not fail. -/
theorem resolve?_of_mem_scopeNames (h : p.head ∈ scopeNames) :
    resolve? s p = .ok (resolve s p) := by
  have elsewhere : s.startsInGame p = false := by
    have known : p.head ∈ ["ledger", "payload", "game_state"] := h
    simp [Scope.startsInGame, known]
  rw [resolve?, Scope.fails, elsewhere, Bool.and_false]
  rfl

/-- No path fails where the data of the game is an object. -/
theorem resolve?_of_object {game : Fields} (object : s.game = .object game) :
    resolve? s p = .ok (resolve s p) := by
  rw [resolve?, Scope.fails, object]
  rfl

/-- What a token has on the ledger is looked up under its name alone. -/
theorem resolve_ledger (s : Scope) (names : List String) :
    resolve s ⟨"ledger", names⟩ = match s.ledger, names with
      | some l, [token] => .value (.int (l.balance token))
      | _, _ => .value .null := by
  simp only [resolve]
  rfl

end Resolve

theorem gameData_object (fields : Fields) : gameData (.object fields) = .object fields := by
  cases fields with
  | nil => rfl
  | cons entry rest => rfl

section Names

variable {a : Attributes} {c : Setting} {e : Occasion} {names : List String}

theorem head_mem_payload_iff {path : Path} :
    path.head ∈ Entries.keys (c.scope a e).payload ↔ e.Holds path.head := by
  cases held : e.payload? with
  | none => simp [Setting.scope, Occasion.Holds, held]
  | some fields => simp [Setting.scope, Occasion.Holds, held]

theorem scope_game {game : Fields} (object : c.game = some (.object game)) :
    (c.scope a e).game = .object game := by
  rw [Setting.scope, object]
  exact gameData_object game

/-- Behind the name of a scope, a text stands for what its path stands for. -/
theorem resolveName_intercalate {scope : String} (known : scope ∈ scopeNames)
    (plain : ∀ name ∈ names, '.' ∉ name.toList) :
    resolveName a (".".intercalate (scope :: names)) c e =
      .ok (resolve (c.scope a e) ⟨scope, names⟩) := by
  have whole : ∀ name ∈ scope :: names, '.' ∉ name.toList := by
    have pointless : ∀ scope ∈ scopeNames, '.' ∉ scope.toList := by decide
    exact List.forall_mem_cons.2 ⟨pointless scope known, plain⟩
  rw [resolveName, Path.ofText_intercalate whole]
  exact resolve?_of_mem_scopeNames known

/-- A scope that is missing holds nothing. -/
theorem follows_nil (nonempty : names ≠ []) : Follows (.object []) names .null := by
  cases names with
  | nil => exact absurd rfl nonempty
  | cons name rest => exact .missing rest List.not_mem_nil

theorem bare_ofText {path : String} (unscoped : (Path.ofText path).head ∉ scopeNames)
    (notTurn : path ≠ "turn") (notState : path ≠ "state") : (Path.ofText path).Bare := by
  have written := Path.text_ofText path
  refine ⟨unscoped, ?_, ?_⟩
  · rintro ⟨head, rest⟩
    rw [Path.text, head, rest] at written
    exact notTurn written.symm
  · rintro ⟨head, rest⟩
    rw [Path.text, head, rest] at written
    exact notState written.symm

/-- With the name of a scope in front, a path starts there. -/
theorem resolveName_append (scope : String) (known : scope ∈ scopeNames) (path : String) :
    resolveName a (scope ++ "." ++ path) c e =
      .ok (resolve (c.scope a e) ⟨scope, (Path.ofText path).head :: (Path.ofText path).rest⟩) := by
  have pointless : ∀ scope ∈ scopeNames, '.' ∉ scope.toList := by decide
  rw [resolveName, Path.ofText_append (pointless scope known)]
  exact resolve?_of_mem_scopeNames known

theorem resolveName_of_holds {game : Fields} {path : String}
    (object : c.game = some (.object game)) (bare : (Path.ofText path).Bare)
    (holds : e.Holds (Path.ofText path).head) :
    resolveName a path c e = resolveName a ("payload." ++ path) c e := by
  have placed : resolveName a ("payload." ++ path) c e = _ :=
    resolveName_append "payload" (by decide) path
  rw [placed, resolveName, resolve?_of_object (scope_game object),
    resolve_of_mem bare (head_mem_payload_iff.2 holds)]

theorem resolveName_of_not_holds {game : Fields} {path : String}
    (object : c.game = some (.object game)) (bare : (Path.ofText path).Bare)
    (lacks : ¬ e.Holds (Path.ofText path).head) :
    resolveName a path c e = resolveName a ("game_state." ++ path) c e := by
  have placed : resolveName a ("game_state." ++ path) c e = _ :=
    resolveName_append "game_state" (by decide) path
  rw [placed, resolveName, resolve?_of_object (scope_game object),
    resolve_of_not_mem bare (mt head_mem_payload_iff.1 lacks) (scope_game object)]

/-- Names behind `payload` are followed from the data of the event. -/
theorem resolveName_payload {fields : Fields} {w : Value}
    (plain : ∀ name ∈ names, '.' ∉ name.toList) (payload : (c.scope a e).payload = fields)
    (follows : Follows (.object fields) names w) :
    resolveName a (".".intercalate ("payload" :: names)) c e = .ok (.value w) := by
  rw [resolveName_intercalate (by decide) plain, resolve_payload, payload, walk_of_follows _ follows]

/-- Names behind `game_state` are followed from the data of the game. -/
theorem resolveName_game {fields : Fields} {w : Value}
    (plain : ∀ name ∈ names, '.' ∉ name.toList) (game : (c.scope a e).game = .object fields)
    (follows : Follows (.object fields) names w) :
    resolveName a (".".intercalate ("game_state" :: names)) c e = .ok (.value w) := by
  rw [resolveName_intercalate (by decide) plain, resolve_game, game, walk_of_follows _ follows]

end Names

/-- A path that does not say where it starts, and is neither the turn nor the state, stands for the
same as the one that starts at the event's data if its first name is a key there, whatever is under
the key, and otherwise for the same as the one that starts at the game's data. A path that says
where it starts stands for what following its names leads to, along objects and null, and for null
if there is nothing to start at. With the ledger in front, a single name stands for the balance of a
token, which is zero for one that is not known, and everything else is null. -/
theorem resolveName_spec (a : Attributes) (c : Setting) (e : Occasion) :
    (∀ (game : Fields) (path : String), c.game = some (.object game) →
        (Path.ofText path).head ∉ scopeNames → path ≠ "turn" → path ≠ "state" →
          (e.Holds (Path.ofText path).head →
            resolveName a path c e = resolveName a ("payload." ++ path) c e) ∧
          (¬ e.Holds (Path.ofText path).head →
            resolveName a path c e = resolveName a ("game_state." ++ path) c e)) ∧
      ∀ names : List String, (∀ name ∈ names, '.' ∉ name.toList) →
        (names ≠ [] →
          (∀ fields, e.payload? = some fields → Clear (.object fields) names →
            ∃ w, Follows (.object fields) names w ∧
              resolveName a (".".intercalate ("payload" :: names)) c e = .ok (.value w)) ∧
          (e.payload? = none →
            resolveName a (".".intercalate ("payload" :: names)) c e = .ok (.value .null)) ∧
          (∀ fields, c.game = some (.object fields) → Clear (.object fields) names →
            ∃ w, Follows (.object fields) names w ∧
              resolveName a (".".intercalate ("game_state" :: names)) c e = .ok (.value w)) ∧
          (c.game = none ∨ c.game = some .null →
            resolveName a (".".intercalate ("game_state" :: names)) c e = .ok (.value .null))) ∧
        (∀ token l, names = [token] → c.ledger = some l →
          resolveName a (".".intercalate ("ledger" :: names)) c e =
              .ok (.value (.int (l.balance token))) ∧
            (token ∉ Entries.keys l.entries → l.balance token = 0)) ∧
        ((∀ token, names ≠ [token]) ∨ c.ledger = none →
          resolveName a (".".intercalate ("ledger" :: names)) c e = .ok (.value .null)) := by
  refine ⟨?_, ?_⟩
  · intro game path object unscoped notTurn notState
    have bare := bare_ofText unscoped notTurn notState
    exact ⟨resolveName_of_holds object bare, resolveName_of_not_holds object bare⟩
  · intro names plain
    refine ⟨?_, ?_, ?_⟩
    · intro nonempty
      refine ⟨?_, ?_, ?_, ?_⟩
      · intro fields held clear
        obtain ⟨w, follows⟩ := exists_follows clear
        have payload : (c.scope a e).payload = fields := by rw [Setting.scope, held]; rfl
        exact ⟨w, follows, resolveName_payload plain payload follows⟩
      · intro missing
        have payload : (c.scope a e).payload = [] := by rw [Setting.scope, missing]; rfl
        exact resolveName_payload plain payload (follows_nil nonempty)
      · intro fields object clear
        obtain ⟨w, follows⟩ := exists_follows clear
        exact ⟨w, follows, resolveName_game plain (scope_game object) follows⟩
      · intro missing
        have game : (c.scope a e).game = .object [] := by
          rcases missing with missing | missing
          · rw [Setting.scope, missing]; rfl
          · rw [Setting.scope, missing]; rfl
        exact resolveName_game plain game (follows_nil nonempty)
    · rintro token l rfl present
      rw [resolveName_intercalate (by decide) plain, resolve_ledger, Setting.scope, present]
      refine ⟨rfl, ?_⟩
      intro unknown
      have none : l.balances.get? token = none := Entries.get?_eq_none_iff.2 unknown
      rw [Ledger.balance, none]
      rfl
    · intro missing
      rw [resolveName_intercalate (by decide) plain, resolve_ledger]
      rcases missing with several | absent
      · split
        · rename_i _ token _
          exact absurd rfl (several token)
        · rfl
      · rw [Setting.scope, absent]

/-- What a move comes with that says what has been moved, but not how far. -/
def pawnPayload : Value :=
  .object [("piece", .object [("type", .str "pawn")]), ("distance", .null)]

def pawnMove : Occasion := .sent pawnPayload

/-- A game with a distance of its own, in which there are two castle tokens. -/
def castleSetting : Setting where
  game := some (.object [("distance", .int 1), ("turn", .object [("side", .str "white")])])
  turn := some (.int 3)
  state := some (.str "main")
  ledger := some ((Ledger.ofTokens ["castle_token"]).grant "castle_token" 2)

theorem resolveName_pawnMove :
    resolveName .none "distance" castleSetting pawnMove =
        resolveName .none "payload.distance" castleSetting pawnMove ∧
      resolveName .none "turn.side" castleSetting pawnMove =
        resolveName .none "game_state.turn.side" castleSetting pawnMove ∧
      (∃ w, Follows pawnPayload ["piece", "type"] w ∧
        resolveName .none (".".intercalate ["payload", "piece", "type"]) castleSetting pawnMove =
          .ok (.value w)) ∧
      resolveName .none (".".intercalate ["ledger", "castle_token"]) castleSetting pawnMove =
        .ok (.value (.int 2)) := by
  obtain ⟨bare, named⟩ := resolveName_spec .none castleSetting pawnMove
  have distance : Path.ofText "distance" = ⟨"distance", []⟩ := by decide +kernel
  have side : Path.ofText "turn.side" = ⟨"turn", ["side"]⟩ := by decide +kernel
  refine ⟨?_, ?_, ?_, ?_⟩
  · refine (bare _ "distance" rfl ?_ (by decide) (by decide)).1 ?_
    · rw [distance]; decide
    · rw [distance]; exact ⟨_, rfl, by decide⟩
  · refine (bare _ "turn.side" rfl ?_ (by decide) (by decide)).2 ?_
    · rw [side]; decide
    · rw [side]; rintro ⟨fields, ⟨⟩, held⟩; exact absurd held (by decide)
  · have clear : Clear pawnPayload ["piece", "type"] := clear_object (clear_object (clear_nil _))
    exact ((named ["piece", "type"] (by decide)).1 (by decide)).1 _ rfl clear
  · exact ((named ["castle_token"] (by decide)).2.1 "castle_token" _ rfl rfl).1

end Condition

/-- What is known of a running game. -/
def Context.setting (s : Edits) (c : Context) : Condition.Setting where
  game := some (.object (c.fields s))
  turn := some (.int c.turn)
  state := some (.str c.state.text)
  ledger := some c.ledger

/-- What conditions see in a running game is what is known of it, and of the event that was sent. -/
theorem Context.scope_eq (a : Condition.Attributes) (s : Edits) (c : Context) (e : Event) :
    c.scope a s e = (c.setting s).scope a (.sent (e.payload.read s.view)) := by
  rw [Condition.Setting.scope, Context.setting, Option.getD_some, Condition.gameData_object]
  rfl

end TokenGate
