import TokenGate.Text.Blank
import TokenGate.Text.Identifier
import TokenGate.Value.Amount
import TokenGate.Value.Text

/-!
# Token bags

Resource tokens are named by words, and a bag of them is written as a list of words in which a
word that comes twice counts twice. A bag keeps its tokens in the order of their first mention,
so everything derived from it is determined by the text; two bags are the same if they hold
every token equally often, whatever the order.
-/

namespace TokenGate

/-- What is wrong with a token list. -/
inductive TokenError where
  /-- The value is neither absent, a text, a list nor an object. -/
  | notAList (value : Value)
  /-- The list has no token. -/
  | empty (source : String)
  /-- A member of the list is not a token name. -/
  | invalid (part : Value) (source : String)

/-- The text of a token error. -/
def TokenError.message : TokenError → String
  | notAList v => "Cannot tokenize " ++ v.written ++ " into resource tokens"
  | empty source => "Token list " ++ Text.quoted source ++ " is empty"
  | invalid part source =>
      "Invalid resource token " ++ part.written ++ " in " ++ Text.quoted source

/-- What is wrong with a table of multiplicities. -/
inductive CountError where
  | negative (token : String)
  | endless (isNaN : Bool)
  | notANumber (kind : String)
  deriving DecidableEq, Repr

/-- The text of a multiplicity error. -/
def CountError.message : CountError → String
  | negative token => "Token '" ++ token ++ "' has a negative multiplicity"
  | endless isNaN => endlessText isNaN
  | notANumber kind => notAnAmount kind

/-- The kind of a multiplicity error. -/
def CountError.kind : CountError → String
  | negative _ | endless true => "ValueError"
  | endless false => "OverflowError"
  | notANumber _ => "TypeError"

/-- A token name: an identifier, with one line feed allowed after it. -/
def isTokenName (s : String) : Bool :=
  let cs := s.toList
  Text.isIdentifier (if cs.getLast? = some '\n' then cs.dropLast else cs)

/-- A multiset of token names in order of first mention. -/
structure TokenBag where
  counts : Table Nat

namespace TokenBag

/-- The bag with no token. -/
def empty : TokenBag := ⟨∅⟩

instance : EmptyCollection TokenBag := ⟨empty⟩
instance : Inhabited TokenBag := ⟨empty⟩

/-- The bag with one more of a token. -/
def add (b : TokenBag) (token : String) : TokenBag :=
  ⟨b.counts.adjust token fun n => n.getD 0 + 1⟩

/-- The bag of a list of words. -/
def ofWords (ws : List String) : TokenBag := ws.foldl add empty

/-- The tokens with their multiplicities, in order of first mention. -/
def items (b : TokenBag) : List (String × Nat) := b.counts.entries

/-- The distinct tokens, in order of first mention. -/
def types (b : TokenBag) : List String := b.counts.keys

/-- How often a token is in the bag. -/
def count (b : TokenBag) (token : String) : Nat := (b.counts.get? token).getD 0

/-- How many tokens there are in all. -/
def total (b : TokenBag) : Nat := b.items.foldl (fun n item => n + item.2) 0

/-- The largest number of tokens that can be listed one by one. -/
def sizeLimit : Nat := Nat.pow 2 63 - 1

/-- How many tokens there are in all, unless these are too many to be listed. -/
def size? (b : TokenBag) : Option Nat := if b.total ≤ sizeLimit then some b.total else none

/-- Whether the bag has no entry. -/
def isEmpty (b : TokenBag) : Bool := b.items.isEmpty

/-- All tokens, each as often as it counts, in groups. -/
def toList (b : TokenBag) : List String := b.items.flatMap fun (t, n) => List.replicate n t

/-- The bag as a token list. -/
def toText (b : TokenBag) : String := " ".intercalate b.toList

/-- The bag in messages. -/
def written (b : TokenBag) : String := "TokenBag(" ++ Text.quoted b.toText ++ ")"

/-- Whether two bags have the same entries, in any order. -/
def same (a b : TokenBag) : Bool :=
  a.items.length == b.items.length && a.items.all fun (t, n) => b.counts.get? t == some n

/-- The entries of a bag ordered by token: the same for bags that are the same. -/
def fingerprint (b : TokenBag) : List (String × Nat) :=
  b.items.mergeSort fun p q => p.1 ≤ q.1

/-- The bag of a list whose members were taken from `source`. -/
def ofParts (source : String) (parts : List Value) : Except TokenError TokenBag :=
  if parts.isEmpty then .error (.empty source)
  else
    let rec collect (b : TokenBag) : List Value → Except TokenError TokenBag
      | [] => .ok b
      | .str s :: rest => if isTokenName s then collect (b.add s) rest
          else .error (.invalid (.str s) source)
      | part :: _ => .error (.invalid part source)
    collect empty parts

/-- Reads a token list: a text is split into its words, a list is taken member by member, an
object by its keys. An absent list is the empty bag; one that is there needs a member. -/
def parse : Value → Except TokenError TokenBag
  | .null => .ok empty
  | .str s => ofParts s ((Text.words s).map .str)
  | v =>
      match v.items? with
      | some parts => ofParts (" ".intercalate (parts.map Value.shown)) parts
      | none => .error (.notAList v)

/-- The bag of a table of multiplicities. Zeros are left out, fractions are cut off. -/
def ofCounts (counts : Fields) : Except CountError TokenBag :=
  let rec collect (b : Table Nat) : Fields → Except CountError TokenBag
    | [] => .ok ⟨b⟩
    | (token, v) :: rest =>
        match Amount.ofValue? v with
        | none => .error (.notANumber v.kindName)
        | some .negative => .error (.negative token)
        | some (.endless isNaN) => .error (.endless isNaN)
        | some (.whole n isZero) => collect (if isZero then b else b.put token n) rest
  collect ∅ counts

@[simp] theorem count_empty (token : String) : empty.count token = 0 := rfl

@[simp] theorem types_empty : empty.types = [] := rfl

/-- Adding a token raises its own count by one and no other. -/
theorem count_add (b : TokenBag) (token other : String) :
    (b.add token).count other = b.count other + if token = other then 1 else 0 := by
  by_cases h : token = other
  · subst h
    simp [count, add, Table.get?_adjust]
  · simp [count, add, Table.get?_adjust, h]

/-- Adding a token mentions it at the end unless it has been mentioned. -/
theorem types_add (b : TokenBag) (token : String) :
    (b.add token).types = if token ∈ b.types then b.types else b.types ++ [token] :=
  b.counts.keys_adjust token _

theorem count_foldl_add (ws : List String) (b : TokenBag) (token : String) :
    (ws.foldl add b).count token = b.count token + ws.count token := by
  induction ws generalizing b with
  | nil => simp
  | cons w rest ih =>
    rw [List.foldl_cons, ih, count_add, List.count_cons]
    by_cases h : w = token
    · simp only [h, ↓reduceIte, beq_self_eq_true]
      omega
    · simp [h]

/-- A bag of words counts a token as often as the word occurs. -/
theorem count_ofWords (ws : List String) (token : String) :
    (ofWords ws).count token = ws.count token := by
  rw [ofWords, count_foldl_add, count_empty, Nat.zero_add]

/-- No token is mentioned twice. -/
theorem nodup_types (b : TokenBag) : b.types.Nodup := b.counts.nodup_keys

end TokenBag
end TokenGate
