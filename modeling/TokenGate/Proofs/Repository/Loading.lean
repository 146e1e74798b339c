import TokenGate.Proofs.Json.RoundTrip
import TokenGate.Repository

/-!
# What loading a file does

Loading a file has six exits: nothing is there under the path, what is there need not be read again,
it cannot be read, it is no JSON, one of its records is malformed, or all of its records are
definitions. In each of them the answer and the repository that is left are told by what is found at
the path, by the time recorded for it, and by the text of the file. The definitions that are stored
are those of the records before the first malformed one.

A repository comes about by requests to load files, to read definitions and to store them, one after
another.
-/

namespace TokenGate

namespace Repository

/-- The name under which the time of a file is recorded. -/
def pathName (path : String) : String := (Location.ofText path).text

/-- Stores definitions one after another. -/
def addAll (r : Repository) (ds : List Definition) : Repository := ds.foldl add r

theorem addAll_cons (r : Repository) (d : Definition) (ds : List Definition) :
    r.addAll (d :: ds) = (r.add d).addAll ds := rfl

/-- Storing definitions leaves the recorded times as they are. -/
@[simp] theorem stamps_addAll (r : Repository) (ds : List Definition) :
    (r.addAll ds).stamps = r.stamps := by
  induction ds generalizing r with
  | nil => rfl
  | cons d ds ih => rw [addAll_cons, ih, add]

/-- Of the definitions that are stored, the last one of a name is kept under it; under other names
nothing changes. -/
theorem get?_addAll (r : Repository) (ds : List Definition) (name : String) :
    (r.addAll ds).definitions.get? name =
      (ds.reverse.find? (·.name = name)).or (r.definitions.get? name) := by
  induction ds generalizing r with
  | nil => rfl
  | cons d ds ih =>
    rw [addAll_cons, ih, List.reverse_cons, List.find?_append, Option.or_assoc, add, Table.get?_put]
    congr 1
    by_cases same : d.name = name
    · simp [same]
    · simp [same]

/-- The names of the definitions that are stored come at the end, but for those that are there. -/
theorem names_addAll (r : Repository) (ds : List Definition) :
    (r.addAll ds).names =
      (ds.map Definition.name).foldl (fun seen n => if n ∈ seen then seen else seen ++ [n])
        r.names := by
  induction ds generalizing r with
  | nil => rfl
  | cons d ds ih =>
    rw [addAll_cons, ih, List.map_cons, List.foldl_cons]
    congr 1
    exact Table.keys_put r.definitions d.name d

end Repository

/-- The records of a list are these definitions. -/
def Definition.Listed (reader : Reader) (vs : List Value) (ds : List Definition) : Prop :=
  vs.map (ofValue reader) = ds.map .ok

theorem Definition.Listed.cons {reader : Reader} {v : Value} {d : Definition} {vs : List Value}
    {ds : List Definition} (hv : ofValue reader v = .ok d) (h : Listed reader vs ds) :
    Listed reader (v :: vs) (d :: ds) := by
  rw [Listed, List.map_cons, List.map_cons, hv, h]

namespace SourceFile

/-- A file has a text that is JSON, and its records are these definitions. -/
def Holds (reader : Reader) (f : SourceFile) (ds : List Definition) : Prop :=
  ∃ text v, f.text = .ok text ∧ Json.read? text = some v ∧
    Definition.Listed reader (Repository.records v) ds

/-- There is an error in a file, behind the records that are these definitions. -/
inductive BreaksOff (reader : Reader) (f : SourceFile) (path : String) :
    List Definition → RepositoryError → Prop
  | unreadable {u : Unreadable} : f.text = .error u → BreaksOff reader f path [] (u.error path)
  | notJson {text : String} : f.text = .ok text → Json.read? text = none →
      BreaksOff reader f path [] (.notJson path)
  | malformed {text : String} {v w : Value} {before after : List Value} {ds : List Definition}
      {m : Malformed} : f.text = .ok text → Json.read? text = some v →
      Repository.records v = before ++ w :: after → Definition.Listed reader before ds →
      Definition.ofValue reader w = .error m → BreaksOff reader f path ds (.malformed m)

section Data

variable {f : SourceFile} {path text : String}

theorem data_of_unreadable {u : Unreadable} (h : f.text = .error u) :
    f.data path = .error (u.error path) := by
  simp only [data, h]

theorem data_of_notJson (h : f.text = .ok text) (none : Json.read? text = none) :
    f.data path = .error (.notJson path) := by
  simp only [data, h, none]

theorem data_of_json {v : Value} (h : f.text = .ok text) (read : Json.read? text = some v) :
    f.data path = .ok v := by
  simp only [data, h, read]

end Data

end SourceFile

namespace Repository

variable {reader : Reader} {r : Repository}

theorem addValue_of_ok {v : Value} {d : Definition} (h : Definition.ofValue reader v = .ok d) :
    r.addValue reader v = (.ok d, r.add d) := by
  rw [addValue, h]

theorem addValue_of_error {v : Value} {m : Malformed}
    (h : Definition.ofValue reader v = .error m) :
    r.addValue reader v = (.error (.malformed m), r) := by
  rw [addValue, h]

/-- Records that are definitions are all stored. -/
theorem addValues_of_listed {vs : List Value} {ds : List Definition}
    (h : Definition.Listed reader vs ds) : r.addValues reader vs = (.ok ds, r.addAll ds) := by
  induction vs generalizing r ds with
  | nil =>
    cases ds with
    | nil => rfl
    | cons d ds => cases h
  | cons v vs ih =>
    cases ds with
    | nil => cases h
    | cons d ds =>
      obtain ⟨hd, hds⟩ := List.cons.inj h
      rw [addValues, addValue_of_ok hd]
      simp only [ih hds]
      rfl

/-- What stands before the first malformed record is stored. -/
theorem addValues_of_malformed {before after : List Value} {w : Value} {ds : List Definition}
    {m : Malformed} (h : Definition.Listed reader before ds)
    (hw : Definition.ofValue reader w = .error m) :
    r.addValues reader (before ++ w :: after) = (.error (.malformed m), r.addAll ds) := by
  induction before generalizing r ds with
  | nil =>
    cases ds with
    | nil =>
      rw [List.nil_append, addValues, addValue_of_error hw]
      rfl
    | cons d ds => cases h
  | cons v vs ih =>
    cases ds with
    | nil => cases h
    | cons d ds =>
      obtain ⟨hd, hds⟩ := List.cons.inj h
      rw [List.cons_append, addValues, addValue_of_ok hd]
      simp only [ih hds]
      rfl

end Repository

/-- Records are definitions, or there is a first malformed one among them. -/
theorem Definition.listed_or_malformed (reader : Reader) (vs : List Value) :
    (∃ ds, Listed reader vs ds) ∨ ∃ before w after ds m, vs = before ++ w :: after ∧
      Listed reader before ds ∧ ofValue reader w = .error m := by
  induction vs with
  | nil => exact .inl ⟨[], rfl⟩
  | cons v vs ih =>
    cases hv : ofValue reader v with
    | error m => exact .inr ⟨[], v, vs, [], m, rfl, rfl, hv⟩
    | ok d =>
      rcases ih with ⟨ds, hds⟩ | ⟨before, w, after, ds, m, rfl, hds, hw⟩
      · exact .inl ⟨d :: ds, hds.cons hv⟩
      · exact .inr ⟨v :: before, w, after, d :: ds, m, rfl, hds.cons hv, hw⟩

/-- A file holds definitions, or there is an error in it. -/
theorem SourceFile.holds_or_breaksOff (reader : Reader) (f : SourceFile) (path : String) :
    (∃ ds, f.Holds reader ds) ∨ ∃ ds e, f.BreaksOff reader path ds e := by
  cases htext : f.text with
  | error u => exact .inr ⟨[], _, .unreadable htext⟩
  | ok text =>
    cases hv : Json.read? text with
    | none => exact .inr ⟨[], _, .notJson htext hv⟩
    | some v =>
      rcases Definition.listed_or_malformed reader (Repository.records v) with
        ⟨ds, hds⟩ | ⟨before, w, after, ds, m, hrecords, hds, hw⟩
      · exact .inl ⟨ds, text, v, htext, hv, hds⟩
      · exact .inr ⟨ds, _, .malformed htext hv hrecords hds hw⟩

namespace Repository

/-- A file need not be read again: the time recorded for it is not before its own. -/
def Fresh (r : Repository) (name : String) (f : SourceFile) : Prop :=
  ∃ recorded, r.stamps.get? name = some recorded ∧ f.stamp ≤ recorded

variable {reader : Reader} {r : Repository} {path : String} {found : Found} {force : Bool}
  {f : SourceFile} {ds : List Definition} {e : RepositoryError}

theorem upToDate_iff {name : String} : r.upToDate name f.stamp = true ↔ r.Fresh name f := by
  unfold upToDate Fresh
  cases r.stamps.get? name <;> simp

/-- Where nothing is there, nothing is loaded. -/
theorem load_of_absent (h : found.file? (pathName path) = .error e) :
    r.load reader path found force = (.error e, r) := by
  have absent : found.file? (Location.ofText path).text = .error e := h
  simp only [load, absent]

/-- A file that need not be read again is skipped. -/
theorem load_of_fresh (h : found.file? (pathName path) = .ok f) (calm : force = false)
    (fresh : r.Fresh (pathName path) f) : r.load reader path found force = (.ok [], r) := by
  have present : found.file? (Location.ofText path).text = .ok f := h
  have current : r.upToDate (Location.ofText path).text f.stamp = true := upToDate_iff.2 fresh
  simp only [load, present, calm, current]
  rfl

section Read

variable (h : found.file? (pathName path) = .ok f)
  (stale : force = false → ¬ r.Fresh (pathName path) f)

include h stale

theorem load_of_stale :
    r.load reader path found force = match f.data (pathName path) with
      | .error e => (.error e, r)
      | .ok v => match r.addValues reader (records v) with
        | (.error e, r) => (.error e, r)
        | (.ok ds, r) => (.ok ds, { r with stamps := r.stamps.put (pathName path) f.stamp }) := by
  have present : found.file? (Location.ofText path).text = .ok f := h
  have read : (!force && r.upToDate (Location.ofText path).text f.stamp) = false := by
    cases force with
    | true => rfl
    | false =>
      rw [Bool.not_false, Bool.true_and, ← Bool.not_eq_true]
      exact fun current => stale rfl (upToDate_iff.1 current)
  simp only [load, present, read]
  rfl

/-- A file with an error in it is refused, and what comes before the error is stored. -/
theorem load_of_breaksOff (hf : f.BreaksOff reader (pathName path) ds e) :
    r.load reader path found force = (.error e, r.addAll ds) := by
  rw [load_of_stale h stale]
  cases hf with
  | unreadable htext => rw [SourceFile.data_of_unreadable htext]; rfl
  | notJson htext hv => rw [SourceFile.data_of_notJson htext hv]; rfl
  | malformed htext hv hrecords hds hw =>
    simp only [SourceFile.data_of_json htext hv, hrecords, addValues_of_malformed hds hw]

/-- All definitions of a file are stored, and its time is recorded. -/
theorem load_of_holds (hf : f.Holds reader ds) :
    r.load reader path found force =
      (.ok ds, { r.addAll ds with stamps := r.stamps.put (pathName path) f.stamp }) := by
  obtain ⟨text, v, htext, hv, hds⟩ := hf
  rw [load_of_stale h stale]
  simp only [SourceFile.data_of_json htext hv, addValues_of_listed hds, stamps_addAll]

end Read

/-- What loading what is found at a path comes to, and the repository that it leaves. -/
inductive Loads (reader : Reader) (r : Repository) (name : String) (found : Found) (force : Bool) :
    Except RepositoryError (List Definition) → Repository → Prop
  | absent {e : RepositoryError} : found.file? name = .error e →
      Loads reader r name found force (.error e) r
  | skipped {f : SourceFile} : found.file? name = .ok f → force = false → r.Fresh name f →
      Loads reader r name found force (.ok []) r
  | broken {f : SourceFile} {ds : List Definition} {e : RepositoryError} :
      found.file? name = .ok f → (force = false → ¬ r.Fresh name f) → f.BreaksOff reader name ds e →
      Loads reader r name found force (.error e) (r.addAll ds)
  | loaded {f : SourceFile} {ds : List Definition} :
      found.file? name = .ok f → (force = false → ¬ r.Fresh name f) → f.Holds reader ds →
      Loads reader r name found force (.ok ds)
        { r.addAll ds with stamps := r.stamps.put name f.stamp }

/-- Loading a file does one of these things. -/
theorem loads_load (reader : Reader) (r : Repository) (path : String) (found : Found) (force : Bool) :
    r.Loads reader (pathName path) found force (r.load reader path found force).1
      (r.load reader path found force).2 := by
  cases h : found.file? (pathName path) with
  | error e =>
    rw [load_of_absent h]
    exact .absent h
  | ok f =>
    by_cases skip : force = false ∧ r.Fresh (pathName path) f
    · rw [load_of_fresh h skip.1 skip.2]
      exact .skipped h skip.1 skip.2
    · have stale : force = false → ¬ r.Fresh (pathName path) f := fun calm fresh =>
        skip ⟨calm, fresh⟩
      rcases f.holds_or_breaksOff reader (pathName path) with ⟨ds, hf⟩ | ⟨ds, e, hf⟩
      · rw [load_of_holds h stale hf]
        exact .loaded h stale hf
      · rw [load_of_breaksOff h stale hf]
        exact .broken h stale hf

/-- What is asked of a repository. What is found at a path may be different each time. -/
inductive Request where
  | load (path : String) (found : Found) (force : Bool)
  | read (v : Value)
  | add (d : Definition)

/-- The repository after a request. -/
def handle (reader : Reader) (r : Repository) : Request → Repository
  | .load path found force => (r.load reader path found force).2
  | .read v => (r.addValue reader v).2
  | .add d => r.add d

/-- The repository after some requests, the first one first. -/
def after (reader : Reader) (requests : List Request) : Repository :=
  requests.foldl (handle reader) empty

theorem after_append_singleton (reader : Reader) (requests : List Request) (q : Request) :
    after reader (requests ++ [q]) = (after reader requests).handle reader q := by
  rw [after, List.foldl_append, List.foldl_cons, List.foldl_nil, after]

theorem not_fresh_empty (name : String) (f : SourceFile) : ¬ empty.Fresh name f := by
  rintro ⟨t, recorded, -⟩
  cases recorded

end Repository

/-- A file with some data in it. -/
def SourceFile.ofData (v : Value) (stamp : Int) : SourceFile := ⟨.ok (Json.render v), stamp⟩

theorem SourceFile.holds_ofData {reader : Reader} {v : Value} (h : v.Discrete) (stamp : Int)
    {ds : List Definition} (hds : Definition.Listed reader (Repository.records v) ds) :
    (ofData v stamp).Holds reader ds :=
  ⟨_, v, rfl, Json.read?_render h, hds⟩

/-- The data of a game without any rules. -/
def bareData (name : String) : Value := .object [("name", .str name)]

theorem discrete_bareData (name : String) : (bareData name).Discrete :=
  ⟨by simp, trivial, trivial⟩

theorem Repository.records_bareData (name : String) :
    records (bareData name) = [bareData name] := by
  simp [records, bareData, Entries.get?]

end TokenGate
