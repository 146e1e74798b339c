import Mathlib.Data.List.Basic
import Mathlib.Data.List.Nodup
import TokenGate.Data
import TokenGate.Proofs.Table
import TokenGate.Value.Text

/-!
# What edits reach

The value of data depends only on what is done to the lists that it holds, and to the games whose
data it holds. Data that has just been made holds every list once, and data in which all edits have
been made holds that of no game any more. Nothing but a text is shown as the name under which a game
keeps its pieces.
-/

namespace TokenGate

/-- What edits are made to: a list, or the data of a game. -/
inductive Cell where
  | list (mark : Mark)
  | game (number : Nat)
  deriving DecidableEq

/-- A cell that is a list. -/
def Cell.IsList : Cell → Prop
  | list _ => True
  | game _ => False

instance : DecidablePred Cell.IsList := fun c =>
  match c with
  | .list _ => .isTrue trivial
  | .game _ => .isFalse id

/-- What an edit is made to. -/
def Edit.cell : Edit → Cell
  | strike mark _ => .list mark
  | put game _ _ => .game game

/-- Two views agree about a list, or about the data of a game. -/
def View.AgreeOn (v v' : View) : Cell → Prop
  | .list mark => v.struck mark = v'.struck mark
  | .game n => v.stored n = v'.stored n

theorem View.AgreeOn.symm {v v' : View} {c : Cell} (h : v.AgreeOn v' c) : v'.AgreeOn v c := by
  cases c <;> exact Eq.symm h

namespace Edits

variable (s : Edits)

theorem struck_viewTo (depth : Nat) : (s.viewTo depth).struck = s.struck := by
  cases depth <;> rfl

@[simp] theorem struck_view : s.view.struck = s.struck := s.struck_viewTo _

theorem struck_append (new : Edits) (mark : Mark) (position : Nat) :
    struck (s ++ new) mark position = (s.struck mark position || struck new mark position) :=
  List.any_append

theorem stored_append (new : Edits) (game : Nat) :
    stored (s ++ new) game = s.stored game ++ stored new game :=
  List.filterMap_append

variable {s} {new : Edits}

/-- For a list, what is done to others does not matter. -/
theorem agreeOn_append {c : Cell} (hc : c.IsList) (h : ∀ e ∈ new, e.cell ≠ c) :
    s.view.AgreeOn (view (s ++ new)) c := by
  cases c with
  | game n => cases hc
  | list mark =>
    have untouched (position : Nat) : struck new mark position = false := by
      rw [struck, List.any_eq_false]
      intro e he
      cases e with
      | put game key d => exact Bool.false_ne_true
      | strike m p =>
        have other : m ≠ mark := fun same => h _ he (congrArg Cell.list same)
        simp [other]
    show s.view.struck mark = (view (s ++ new)).struck mark
    funext position
    rw [struck_view, struck_view, struck_append, untouched, Bool.or_false]

theorem mem_stored {n : Nat} {key : String} {d : Data} :
    (key, d) ∈ s.stored n ↔ .put n key d ∈ s := by
  rw [stored, List.mem_filterMap]
  constructor
  · rintro ⟨e, he, stored⟩
    cases e with
    | strike mark position => cases stored
    | put game key' d' =>
      simp only [Option.ite_none_right_eq_some, Option.some.injEq, Prod.mk.injEq] at stored
      obtain ⟨rfl, rfl, rfl⟩ := stored
      exact he
  · intro h
    exact ⟨_, h, if_pos rfl⟩

theorem stored_eq_nil {n : Nat} (h : ∀ e ∈ s, e.cell ≠ .game n) : s.stored n = [] := by
  rw [List.eq_nil_iff_forall_not_mem]
  rintro ⟨key, d⟩ stored
  exact h _ (mem_stored.1 stored) rfl

/-- What is never edited stays as it is. -/
theorem agreeOn_of_untouched {c : Cell} (h : ∀ e ∈ s ++ new, e.cell ≠ c) :
    s.view.AgreeOn (view (s ++ new)) c := by
  cases c with
  | list mark => exact agreeOn_append trivial fun e he => h e (List.mem_append_right _ he)
  | game n =>
    have unset {s : Edits} (h : ∀ e ∈ s, e.cell ≠ .game n) : s.view.stored n = [] := by
      rw [view]
      cases s.length with
      | zero => rfl
      | succ depth =>
        simp only [viewTo, stored_eq_nil h]
        rfl
    exact (unset fun e he => h e (List.mem_append_left _ he)).trans (unset h).symm

/-- Setting an entry adds it to the data of its game. -/
theorem entries_put (s : Edits) (n : Nat) (key : String) (d : Data)
    (fields : List (String × Data)) :
    entries (s ++ [.put n key d]) n fields = Entries.put key d (s.entries n fields) := by
  have one : stored [.put n key d] n = [(key, d)] := by simp [stored]
  rw [entries, stored_append, one, Entries.putAll, List.foldl_append]
  rfl

/-- Striking an item sets nothing. -/
theorem entries_strike (s : Edits) (mark : Mark) (position n : Nat)
    (fields : List (String × Data)) :
    entries (s ++ [.strike mark position]) n fields = s.entries n fields := by
  have none : stored [.strike mark position] n = [] := rfl
  rw [entries, stored_append, none, List.append_nil, entries]

end Edits

namespace Data

mutual

/-- The lists that data holds, and the games whose data it holds. -/
def cells : Data → List Cell
  | list mark items => .list mark :: cellsOfItems items
  | object fields => cellsOfFields fields
  | game n fields => .game n :: cellsOfFields fields
  | _ => []

/-- What the items of a list hold. -/
def cellsOfItems : List Data → List Cell
  | [] => []
  | d :: rest => cells d ++ cellsOfItems rest

/-- What the fields of an object hold. -/
def cellsOfFields : List (String × Data) → List Cell
  | [] => []
  | (_, d) :: rest => cells d ++ cellsOfFields rest

end

theorem mem_cellsOfFields_of_get? {fields : List (String × Data)} {key : String} {d : Data}
    (h : Entries.get? key fields = some d) {c : Cell} (hc : c ∈ d.cells) :
    c ∈ cellsOfFields fields := by
  induction fields with
  | nil => cases h
  | cons field rest ih =>
    rw [cellsOfFields, List.mem_append]
    by_cases same : field.1 = key
    · simp only [Entries.get?, if_pos same, Option.some.injEq] at h
      exact .inl (h ▸ hc)
    · simp only [Entries.get?, if_neg same] at h
      exact .inr (ih h)

section Congr

variable {v v' : View}

mutual

/-- Views that agree about what some data holds show it with the same value. -/
theorem read_congr (d : Data) (h : ∀ c ∈ d.cells, v.AgreeOn v' c) : d.read v = d.read v' := by
  cases d with
  | list mark items =>
    have own : v.struck mark = v'.struck mark := h _ List.mem_cons_self
    simp only [read, readItems_congr mark 0 items own fun c hc => h c (List.mem_cons_of_mem _ hc)]
  | object fields => simp only [read, readFields_congr fields h]
  | game n fields =>
    have own : v.stored n = v'.stored n := h _ List.mem_cons_self
    simp only [read, own, readFields_congr fields fun c hc => h c (List.mem_cons_of_mem _ hc)]
  | _ => simp only [read]

theorem readItems_congr (mark : Mark) (position : Nat) (items : List Data)
    (own : v.struck mark = v'.struck mark) (h : ∀ c ∈ cellsOfItems items, v.AgreeOn v' c) :
    readItems v mark position items = readItems v' mark position items := by
  cases items with
  | nil => rfl
  | cons d rest =>
    have first := read_congr d fun c hc => h c (List.mem_append_left _ hc)
    have others := readItems_congr mark (position + 1) rest own
      fun c hc => h c (List.mem_append_right _ hc)
    simp only [readItems, first, others, own]

theorem readFields_congr (fields : List (String × Data))
    (h : ∀ c ∈ cellsOfFields fields, v.AgreeOn v' c) :
    readFields v fields = readFields v' fields := by
  cases fields with
  | nil => rfl
  | cons field rest =>
    obtain ⟨key, d⟩ := field
    have first := read_congr d fun c hc => h c (List.mem_append_left _ hc)
    have others := readFields_congr rest fun c hc => h c (List.mem_append_right _ hc)
    simp only [readFields, first, others]

end

variable {s new : Edits}

/-- What is done elsewhere does not matter to data that holds lists only. -/
theorem read_append {d : Data} (lists : ∀ c ∈ d.cells, c.IsList)
    (apart : ∀ e ∈ new, e.cell ∉ d.cells) : d.read (Edits.view (s ++ new)) = d.read s.view :=
  (read_congr d fun c hc =>
    Edits.agreeOn_append (lists c hc) fun e he => ne_of_mem_of_not_mem hc (apart e he) |>.symm).symm

end Congr

section Made

variable {mark : Nat → Mark} {v : View}

mutual

/-- The lists of data that has just been made are marked one after another. -/
theorem cells_mint (mark : Nat → Mark) (next : Nat) (x : Value) :
    ∃ n, (mint mark next x).1.cells = (List.range' next n).map (fun k => .list (mark k)) ∧
      (mint mark next x).2 = next + n := by
  cases x with
  | list items =>
    obtain ⟨n, cells, after⟩ := cellsOfItems_mint mark (next + 1) items
    refine ⟨n + 1, ?_, ?_⟩
    · simp only [mint, Data.cells, cells]
      rw [List.range'_succ, List.map_cons]
    · simp only [mint, after]
      omega
  | object fields => exact cellsOfFields_mint mark next fields
  | _ => exact ⟨0, rfl, rfl⟩

theorem cellsOfItems_mint (mark : Nat → Mark) (next : Nat) (items : List Value) :
    ∃ n, cellsOfItems (mintItems mark next items).1 =
        (List.range' next n).map (fun k => .list (mark k)) ∧
      (mintItems mark next items).2 = next + n := by
  cases items with
  | nil => exact ⟨0, rfl, rfl⟩
  | cons x rest =>
    obtain ⟨n, first, after⟩ := cells_mint mark next x
    obtain ⟨n', others, after'⟩ := cellsOfItems_mint mark (mint mark next x).2 rest
    rw [after] at others after'
    refine ⟨n + n', ?_, ?_⟩
    · simp only [mintItems, cellsOfItems, first, after, others, ← List.map_append,
        List.range'_append_1]
    · simp only [mintItems, after, after', Nat.add_assoc]

theorem cellsOfFields_mint (mark : Nat → Mark) (next : Nat) (fields : Fields) :
    ∃ n, cellsOfFields (mintFields mark next fields).1 =
        (List.range' next n).map (fun k => .list (mark k)) ∧
      (mintFields mark next fields).2 = next + n := by
  cases fields with
  | nil => exact ⟨0, rfl, rfl⟩
  | cons field rest =>
    obtain ⟨key, x⟩ := field
    obtain ⟨n, first, after⟩ := cells_mint mark next x
    obtain ⟨n', others, after'⟩ := cellsOfFields_mint mark (mint mark next x).2 rest
    rw [after] at others after'
    refine ⟨n + n', ?_, ?_⟩
    · simp only [mintFields, cellsOfFields, first, after, others, ← List.map_append,
        List.range'_append_1]
    · simp only [mintFields, after, after', Nat.add_assoc]

end

/-- In data that has just been made, no list stands at two places. -/
theorem nodup_cellsOfFields_mint (apart : Function.Injective mark) (next : Nat) (fields : Fields) :
    (cellsOfFields (mintFields mark next fields).1).Nodup := by
  obtain ⟨n, cells, -⟩ := cellsOfFields_mint mark next fields
  rw [cells]
  exact List.Nodup.map (fun _ _ same => apart (Cell.list.inj same)) List.nodup_range'

/-- Data that has just been made holds lists only. -/
theorem isList_of_mem_mint (mark : Nat → Mark) (next : Nat) (x : Value) :
    ∀ c ∈ (mint mark next x).1.cells, c.IsList := by
  obtain ⟨_, cells, -⟩ := cells_mint mark next x
  rw [cells]
  intro c h
  obtain ⟨_, -, rfl⟩ := List.mem_map.1 h
  trivial

mutual

/-- Data that has just been made has the value that it was made from. -/
theorem read_mint (fresh : ∀ k p, v.struck (mark k) p = false) (next : Nat) (x : Value) :
    (mint mark next x).1.read v = x := by
  cases x with
  | list items => simp only [mint, read, readItems_mint fresh next (next + 1) 0 items]
  | object fields => simp only [mint, read, readFields_mint fresh next fields]
  | _ => rfl

theorem readItems_mint (fresh : ∀ k p, v.struck (mark k) p = false) (k next position : Nat)
    (items : List Value) : readItems v (mark k) position (mintItems mark next items).1 = items := by
  cases items with
  | nil => rfl
  | cons x rest =>
    simp only [mintItems, readItems, fresh, Bool.false_eq_true, if_false, read_mint fresh next x,
      readItems_mint fresh k _ (position + 1) rest]

theorem readFields_mint (fresh : ∀ k p, v.struck (mark k) p = false) (next : Nat)
    (fields : Fields) : readFields v (mintFields mark next fields).1 = fields := by
  cases fields with
  | nil => rfl
  | cons field rest =>
    obtain ⟨key, x⟩ := field
    simp only [mintFields, readFields, read_mint fresh next x, readFields_mint fresh _ rest]

end

end Made

section Shapes

variable {v : View} {d : Data}

theorem eq_str_of_read {text : String} (h : d.read v = .str text) : d = .str text := by
  cases d with
  | str t =>
    cases h
    rfl
  | _ => cases h

theorem eq_list_of_read {items : List Value} (h : d.read v = .list items) :
    ∃ mark ds, d = .list mark ds ∧ readItems v mark 0 ds = items := by
  cases d with
  | list mark ds =>
    cases h
    exact ⟨mark, ds, rfl, rfl⟩
  | _ => cases h

/-- Among data that holds lists only, nothing but an object shows as one. -/
theorem eq_object_of_read {fields : Fields} (lists : ∀ c ∈ d.cells, c.IsList)
    (h : d.read v = .object fields) : ∃ ds, d = .object ds ∧ readFields v ds = fields := by
  cases d with
  | object ds =>
    cases h
    exact ⟨ds, rfl, rfl⟩
  | game n ds => exact (lists _ List.mem_cons_self).elim
  | _ => cases h

end Shapes

end Data

open Number

namespace Value

theorem ne_letter_of_mem_toDigits {n : Nat} {c : Char} (h : c ∈ Nat.toDigits 10 n) : c ≠ 'p' := by
  rintro rfl
  have digit := Nat.isDigit_of_mem_toDigits (by decide) (by decide) h
  cases digit

theorem not_mem_exponentText (l : Layout) (e : Int) : 'p' ∉ l.exponentText e := by
  intro h
  simp only [Layout.exponentText, List.mem_cons, List.mem_append, List.mem_replicate] at h
  rcases h with h | h | ⟨-, h⟩ | h
  · cases h
  · split at h <;> cases h
  · cases h
  · exact ne_letter_of_mem_toDigits h rfl

theorem not_mem_render (l : Layout) (d : Decimal) : 'p' ∉ l.render d := by
  have digits : 'p' ∉ Nat.toDigits 10 d.digits := fun h => ne_letter_of_mem_toDigits h rfl
  have exponent := not_mem_exponentText l
  have taken (n : Nat) : 'p' ∉ (Nat.toDigits 10 d.digits).take n := mt List.mem_of_mem_take digits
  have dropped (n : Nat) : 'p' ∉ (Nat.toDigits 10 d.digits).drop n := mt List.mem_of_mem_drop digits
  unfold Layout.render
  generalize Nat.toDigits 10 d.digits = ds at digits taken dropped
  simp only
  split
  · split
    · simp [digits]
    · split
      · simp [digits]
      · simp [taken, dropped]
  · split
    · exact List.not_mem_nil
    · simpa [exponent] using digits
    · simpa [exponent] using digits

theorem not_mem_text {l : Layout} {infinity nan : String} (h : 'p' ∉ infinity.toList)
    (hnan : 'p' ∉ nan.toList) (x : Double) : 'p' ∉ (x.text l infinity nan).toList := by
  have body : 'p' ∉ (if x.isInfinite then infinity.toList
      else if x.isZero then l.render ⟨0, 0⟩ else l.render (Shortest.decimal x)) := by
    split
    · exact h
    · split <;> exact not_mem_render l _
  rw [Double.text]
  split
  · exact hnan
  · rw [String.toList_ofList]
    split
    · simpa using body
    · exact body

theorem not_mem_toString (n : Int) : 'p' ∉ (toString n).toList := by
  have digits (m : Nat) : 'p' ∉ m.repr.toList := by
    rw [Nat.toList_repr]
    exact fun h => ne_letter_of_mem_toDigits h rfl
  cases n with
  | ofNat m => exact digits m
  | negSucc m =>
    show 'p' ∉ ("-" ++ m.succ.repr).toList
    rw [String.toList_append, List.mem_append]
    rintro (h | h)
    · cases List.mem_singleton.1 h
    · exact digits _ h

/-- Nothing but a text is shown as the name of the pieces: numbers do not have its letters, and
other values begin with another one. -/
theorem eq_str_of_shown {v : Value} (h : v.shown = "pieces") : v = .str "pieces" := by
  have letter : 'p' ∈ v.shown.toList := by
    rw [h]
    decide
  have first : v.shown.toList.head? = some 'p' := by
    rw [h]
    decide
  cases v with
  | str t => exact congrArg str h
  | null => cases first
  | bool b => cases b <;> cases first
  | int n => exact absurd letter (not_mem_toString n)
  | float x => exact absurd letter (not_mem_text (by decide) (by decide) x)
  | list items =>
    simp only [shown, written, String.toList_append, List.append_assoc] at first
    cases first
  | object fields =>
    simp only [shown, written, String.toList_append, List.append_assoc] at first
    cases first

end Value
end TokenGate
