import TokenGate.Proofs.FirstSeen
import TokenGate.Proofs.Repository.Cache
import TokenGate.Proofs.Repository.Failure

/-!
# What requests have stored

Every request stores some definitions, one after another, and what all requests have stored is a
log. A repository holds what stands in its log and nothing else: under a name the last definition of
this name, and the names in the order in which they first came. A load stores nothing if it is
skipped or fails before it has come to a record, and else the records of the file up to the first
malformed one; the time for a path changes only where a load of that path succeeds.
-/

namespace TokenGate

/-- The records that data is made of: it is a list of them or a single one, or an object with either
of these under `definitions`. -/
inductive Value.Shaped : Value → List Value → Prop
  | list (items : List Value) : Shaped (.list items) items
  | single {v : Value} (lone : ∀ items, v ≠ .list items)
      (bare : ∀ fields, v = .object fields → Entries.get? "definitions" fields = none) :
      Shaped v [v]
  | listUnder {fields : Fields} {items : List Value}
      (held : Entries.get? "definitions" fields = some (.list items)) :
      Shaped (.object fields) items
  | singleUnder {fields : Fields} {v : Value} (held : Entries.get? "definitions" fields = some v)
      (lone : ∀ items, v ≠ .list items) : Shaped (.object fields) [v]

namespace Repository

theorem records_of_lone {v : Value} (lone : ∀ items, v ≠ .list items)
    (bare : ∀ fields, v = .object fields → Entries.get? "definitions" fields = none) :
    records v = [v] := by
  cases v with
  | list items => exact absurd rfl (lone items)
  | object fields => simp [records, bare fields rfl]
  | null | bool | int | float | str => rfl

/-- Data has one of the shapes, and its records are read off it. -/
theorem shaped_records (v : Value) : v.Shaped (records v) := by
  cases v with
  | list items => exact .list items
  | object fields =>
    cases held : Entries.get? "definitions" fields with
    | none =>
      have bare : ∀ fields', Value.object fields = .object fields' →
          Entries.get? "definitions" fields' = none := by
        intro fields' same
        cases same
        exact held
      have lone : ∀ items, Value.object fields ≠ .list items := by
        intro items same
        cases same
      rw [records_of_lone lone bare]
      exact .single lone bare
    | some w =>
      cases w with
      | list items =>
        have all : records (.object fields) = items := by simp [records, held]
        rw [all]
        exact .listUnder held
      | null | bool | int | float | str | object =>
        simp only [records, held, Option.getD_some]
        apply Value.Shaped.singleUnder held
        intro items same
        cases same
  | null | bool | int | float | str =>
    apply Value.Shaped.single
    · intro items same
      cases same
    · intro fields same
      cases same

/-- Data has one of the shapes only, and so with it the records are given. -/
theorem records_of_shaped {v : Value} {vs : List Value} (shaped : v.Shaped vs) :
    records v = vs := by
  cases shaped with
  | list items => rfl
  | single lone bare => exact records_of_lone lone bare
  | listUnder held => simp [records, held]
  | @singleUnder fields v held lone =>
    cases v with
    | list items => exact absurd rfl (lone items)
    | null | bool | int | float | str | object => simp [records, held]

/-- The definitions that a request stores, in the order in which it does so. -/
inductive Stores (reader : Reader) (r : Repository) : Request → List Definition → Prop
  | add (d : Definition) : Stores reader r (.add d) [d]
  | read {v : Value} {d : Definition} (valid : Definition.ofValue reader v = .ok d) :
      Stores reader r (.read v) [d]
  | refused {v : Value} {m : Malformed} (invalid : Definition.ofValue reader v = .error m) :
      Stores reader r (.read v) []
  | absent {path : String} {found : Found} {force : Bool} {e : RepositoryError}
      (nothing : found.file? (pathName path) = .error e) : Stores reader r (.load path found force) []
  | skipped {path : String} {found : Found} {f : SourceFile}
      (present : found.file? (pathName path) = .ok f) (fresh : r.Fresh (pathName path) f) :
      Stores reader r (.load path found false) []
  | broken {path : String} {found : Found} {force : Bool} {f : SourceFile} {ds : List Definition}
      {e : RepositoryError} (present : found.file? (pathName path) = .ok f)
      (stale : force = false → ¬ r.Fresh (pathName path) f)
      (hf : f.BreaksOff reader (pathName path) ds e) :
      Stores reader r (.load path found force) ds
  | loaded {path : String} {found : Found} {force : Bool} {f : SourceFile} {ds : List Definition}
      (present : found.file? (pathName path) = .ok f)
      (stale : force = false → ¬ r.Fresh (pathName path) f) (hf : f.Holds reader ds) :
      Stores reader r (.load path found force) ds

/-- The definitions that requests have stored one after another, the latest last. -/
inductive Stored (reader : Reader) : List Request → List Definition → Prop
  | nil : Stored reader [] []
  | next {before : List Request} {q : Request} {log ds : List Definition}
      (h : Stored reader before log)
      (stores : (after reader before).Stores reader q ds) : Stored reader (before ++ [q]) (log ++ ds)

/-- The last definition of a name. -/
def IsLast (name : String) (d : Definition) (log : List Definition) : Prop :=
  ∃ older newer, log = older ++ d :: newer ∧ d.name = name ∧ ∀ d' ∈ newer, d'.name ≠ name

section Step

variable {reader : Reader} {r : Repository}

/-- What a request stores is all that it does to the definitions. -/
theorem handle_stores (reader : Reader) (r : Repository) (q : Request) :
    ∃ ds, r.Stores reader q ds ∧ (r.handle reader q).definitions = (r.addAll ds).definitions := by
  cases q with
  | add d => exact ⟨[d], .add d, rfl⟩
  | read v =>
    rw [handle]
    cases hv : Definition.ofValue reader v with
    | ok d =>
      rw [addValue_of_ok hv]
      exact ⟨[d], .read hv, rfl⟩
    | error m =>
      rw [addValue_of_error hv]
      exact ⟨[], .refused hv, rfl⟩
  | load path found force =>
    have loads := r.loads_load reader path found force
    rw [handle]
    generalize r.load reader path found force = result at loads ⊢
    obtain ⟨answer, r'⟩ := result
    cases loads with
    | absent nothing => exact ⟨[], .absent nothing, rfl⟩
    | skipped present calm fresh =>
      subst calm
      exact ⟨[], .skipped present fresh, rfl⟩
    | broken present stale hf => exact ⟨_, .broken present stale hf, rfl⟩
    | loaded present stale hf => exact ⟨_, .loaded present stale hf, rfl⟩

/-- A file that is no JSON is refused, and nothing is stored. -/
theorem load_of_notJson {path : String} {found : Found} {force : Bool} {f : SourceFile}
    (h : found.file? (pathName path) = .ok f) (stale : force = false → ¬ r.Fresh (pathName path) f)
    {text : String} (there : f.text = .ok text) (none : Json.read? text = none) :
    r.load reader path found force = (.error (.notJson (pathName path)), r) :=
  load_of_breaksOff h stale (.notJson there none)

/-- What is there but cannot be read is refused, and nothing is stored. -/
theorem load_of_unreadable {path : String} {found : Found} {force : Bool} {f : SourceFile}
    (h : found.file? (pathName path) = .ok f) (stale : force = false → ¬ r.Fresh (pathName path) f)
    {u : Unreadable} (barred : f.text = .error u) :
    r.load reader path found force = (.error (u.error (pathName path)), r) :=
  load_of_breaksOff h stale (.unreadable barred)

/-- Only a load that succeeds changes a time that is recorded, and only that of its path. -/
theorem load_of_stamps_ne {q : Request} {name : String}
    (changed : (r.handle reader q).stamps.get? name ≠ r.stamps.get? name) :
    ∃ path found force ds, q = .load path found force ∧ pathName path = name ∧
      (r.load reader path found force).1 = .ok ds := by
  cases ht : (r.handle reader q).stamps.get? name with
  | none =>
    -- a time that is recorded is never dropped
    cases hr : r.stamps.get? name with
    | none => exact absurd (ht.trans hr.symm) changed
    | some t =>
      have still := (get?_stamps_handle reader r q name t).2
      rw [ht] at still
      have reads : ¬ ∀ t', ¬ r.Reads reader q name t' := fun none =>
        nomatch still (.inr ⟨hr, none⟩)
      obtain ⟨t', read⟩ := not_forall_not.1 reads
      cases (get?_stamps_handle reader r q name t').2 (.inl read) ▸ ht
  | some t =>
    rcases (get?_stamps_handle reader r q name t).1 ht with read | ⟨kept, -⟩
    · cases read with
      | load present stale hf =>
        exact ⟨_, _, _, _, rfl, rfl, congrArg Prod.fst (load_of_holds present stale hf)⟩
    · exact absurd (ht.trans kept.symm) changed

end Step

theorem definitions_addAll (r : Repository) (ds : List Definition) :
    (r.addAll ds).definitions = ds.foldl (fun t d => t.put d.name d) r.definitions := by
  induction ds generalizing r with
  | nil => rfl
  | cons d ds ih => rw [addAll_cons, ih, add, List.foldl_cons]

/-- A repository holds what the log says, stored into the empty repository. -/
theorem exists_stored (reader : Reader) (requests : List Request) :
    ∃ log, Stored reader requests log ∧
      (after reader requests).definitions = (empty.addAll log).definitions := by
  induction requests using List.reverseRecOn with
  | nil => exact ⟨[], .nil, rfl⟩
  | append_singleton before q ih =>
    obtain ⟨log, stored, same⟩ := ih
    obtain ⟨ds, stores, step⟩ := (after reader before).handle_stores reader q
    refine ⟨log ++ ds, stored.next stores, ?_⟩
    rw [after_append_singleton, step, definitions_addAll, same, definitions_addAll,
      definitions_addAll, List.foldl_append]

theorem isLast_iff {name : String} {d : Definition} {log : List Definition} :
    log.reverse.find? (·.name = name) = some d ↔ IsLast name d log := by
  rw [List.find?_eq_some_iff_append]
  constructor
  · rintro ⟨hd, newer, older, split, others⟩
    refine ⟨older.reverse, newer.reverse, ?_, by simpa using hd, ?_⟩
    · rw [← List.reverse_reverse log, split]
      simp
    · intro d' hd'
      have := others d' (List.mem_reverse.1 hd')
      simpa using this
  · rintro ⟨older, newer, rfl, hd, others⟩
    refine ⟨by simpa using hd, newer.reverse, older.reverse, by simp, ?_⟩
    intro d' hd'
    simpa using others d' (List.mem_reverse.1 hd')

theorem find?_eq_none_iff {name : String} {log : List Definition} :
    log.reverse.find? (·.name = name) = none ↔ ∀ d ∈ log, d.name ≠ name := by
  simp [List.find?_eq_none]

/-- Only the definitions decide what is found. -/
theorem get_congr {r r' : Repository} (same : r.definitions = r'.definitions) (name : Value) :
    r.get name = r'.get name := by
  rw [get, get, same]

/-- After storing definitions the last one of a name is found, or what has been found before. -/
theorem get_addAll_eq_ok_iff (r : Repository) (ds : List Definition) (name : String)
    (d : Definition) :
    (r.addAll ds).get (.str name) = .ok d ↔
      IsLast name d ds ∨ (∀ d' ∈ ds, d'.name ≠ name) ∧ r.get (.str name) = .ok d := by
  rw [get_addAll, ← isLast_iff, ← find?_eq_none_iff]
  cases ds.reverse.find? (·.name = name) with
  | none => simp
  | some d' => simp

section Held

variable {r : Repository} {log : List Definition}
  (same : r.definitions = (empty.addAll log).definitions)

include same

/-- A repository finds the last definition of a name in its log. -/
theorem get_eq_ok_iff (name : String) (d : Definition) :
    r.get (.str name) = .ok d ↔ IsLast name d log := by
  rw [get_congr same, get_addAll_eq_ok_iff]
  constructor
  · intro found
    cases found with
    | inl last => exact last
    | inr before => cases before.2
  · exact .inl

/-- What is not in the log is an unknown name, and nothing else is. -/
theorem get_eq_error_iff (name : String) :
    r.get (.str name) = .error (.unknownName (.str name)) ↔ ∀ d ∈ log, d.name ≠ name := by
  rw [get_congr same, get_addAll, ← find?_eq_none_iff]
  cases log.reverse.find? (·.name = name) with
  | none => exact ⟨fun _ => rfl, fun _ => rfl⟩
  | some d => simp

/-- The names are listed in the order in which they first came into the log. -/
theorem firstSeen_names : FirstSeen (log.map Definition.name) r.names := by
  have listed : r.names = (empty.addAll log).names := by
    rw [Repository.names, same, Repository.names]
  rw [listed, names_addAll]
  exact FirstSeen.nil.foldl (log.map Definition.name)

end Held

/-- A file whose records are definitions is loaded, and answered with these. -/
theorem load_of_shaped {reader : Reader} {r : Repository} {path : String} {found : Found}
    {force : Bool} {f : SourceFile} {text : String} {v : Value} {vs : List Value}
    {ds : List Definition}
    (h : found.file? (pathName path) = .ok f) (stale : force = false → ¬ r.Fresh (pathName path) f)
    (there : f.text = .ok text) (read : Json.read? text = some v) (shaped : v.Shaped vs)
    (listed : Definition.Listed reader vs ds) :
    (r.load reader path found force).1 = .ok ds := by
  rw [← records_of_shaped shaped] at listed
  rw [load_of_holds h stale ⟨text, v, there, read, listed⟩]

/-- A load that succeeds has been skipped, or it has stored all records of the file. -/
theorem load_ok {reader : Reader} {r r' : Repository} {path : String} {found : Found} {force : Bool}
    {ds : List Definition} (h : r.load reader path found force = (.ok ds, r')) :
    ∃ f, found.file? (pathName path) = .ok f ∧
      (force = false ∧ r.Fresh (pathName path) f ∧ ds = [] ∧ r' = r ∨
        (force = false → ¬ r.Fresh (pathName path) f) ∧
          (∃ text v vs, f.text = .ok text ∧ Json.read? text = some v ∧ v.Shaped vs ∧
            Definition.Listed reader vs ds) ∧
          ∀ name d, r'.get (.str name) = .ok d ↔
            IsLast name d ds ∨ (∀ d' ∈ ds, d'.name ≠ name) ∧ r.get (.str name) = .ok d) := by
  have loads := r.loads_load reader path found force
  rw [h] at loads
  cases loads with
  | skipped present calm fresh => exact ⟨_, present, .inl ⟨calm, fresh, rfl, rfl⟩⟩
  | loaded present stale hf =>
    obtain ⟨text, v, there, read, listed⟩ := hf
    exact ⟨_, present, .inr ⟨stale, ⟨text, v, records v, there, read, shaped_records v, listed⟩,
      get_addAll_eq_ok_iff r ds⟩⟩

/-- After any requests, what is found under a name is the last definition of this name in the log of
all that they stored, and what is not in the log is unknown; the names come in the order of the log.
A load that is skipped stores nothing, and so does one where nothing is there, or nothing that can be
read, or no JSON. One of a file whose records are all definitions succeeds, and one that succeeds
answers with them in their order, and all of them are stored. Only a load that succeeds changes the
time of a path, and only that of its own. -/
theorem held_after (reader : Reader) (requests : List Request) :
    let r := after reader requests
    (∃ log, Stored reader requests log ∧
        (∀ name d, r.get (.str name) = .ok d ↔ IsLast name d log) ∧
        (∀ name, r.get (.str name) = .error (.unknownName (.str name)) ↔
          ∀ d ∈ log, d.name ≠ name) ∧
        FirstSeen (log.map Definition.name) r.names) ∧
      (∀ path found force e, found.file? (pathName path) = .error e →
        r.load reader path found force = (.error e, r)) ∧
      (∀ path found f, found.file? (pathName path) = .ok f → r.Fresh (pathName path) f →
        r.load reader path found false = (.ok [], r)) ∧
      (∀ path found force f u, found.file? (pathName path) = .ok f →
        (force = false → ¬ r.Fresh (pathName path) f) → f.text = .error u →
        r.load reader path found force = (.error (u.error (pathName path)), r)) ∧
      (∀ path found force f text, found.file? (pathName path) = .ok f →
        (force = false → ¬ r.Fresh (pathName path) f) → f.text = .ok text →
        Json.read? text = none →
        r.load reader path found force = (.error (.notJson (pathName path)), r)) ∧
      (∀ path found force f text v vs ds, found.file? (pathName path) = .ok f →
        (force = false → ¬ r.Fresh (pathName path) f) → f.text = .ok text →
        Json.read? text = some v → v.Shaped vs → Definition.Listed reader vs ds →
        (r.load reader path found force).1 = .ok ds) ∧
      (∀ path found force ds r', r.load reader path found force = (.ok ds, r') →
        ∃ f, found.file? (pathName path) = .ok f ∧
          (force = false ∧ r.Fresh (pathName path) f ∧ ds = [] ∧ r' = r ∨
            (force = false → ¬ r.Fresh (pathName path) f) ∧
              (∃ text v vs, f.text = .ok text ∧ Json.read? text = some v ∧ v.Shaped vs ∧
                Definition.Listed reader vs ds) ∧
              ∀ name d, r'.get (.str name) = .ok d ↔
                IsLast name d ds ∨ (∀ d' ∈ ds, d'.name ≠ name) ∧ r.get (.str name) = .ok d)) ∧
      ∀ q name, (r.handle reader q).stamps.get? name ≠ r.stamps.get? name →
        ∃ path found force ds, q = .load path found force ∧ pathName path = name ∧
          (r.load reader path found force).1 = .ok ds := by
  intro r
  obtain ⟨log, stored, same⟩ := exists_stored reader requests
  refine ⟨⟨log, stored, get_eq_ok_iff same, get_eq_error_iff same, firstSeen_names same⟩,
    ?_, ?_, ?_, ?_, ?_, ?_, ?_⟩
  · intro path found force e absent
    exact load_of_absent absent
  · intro path found f present fresh
    exact load_of_fresh present rfl fresh
  · intro path found force f u present stale barred
    exact load_of_unreadable present stale barred
  · intro path found force f text present stale there none
    exact load_of_notJson present stale there none
  · intro path found force f text v vs ds present stale there read shaped listed
    exact load_of_shaped present stale there read shaped listed
  · intro path found force ds r' loaded
    exact load_ok loaded
  · intro q name changed
    exact load_of_stamps_ne changed

end Repository
end TokenGate
