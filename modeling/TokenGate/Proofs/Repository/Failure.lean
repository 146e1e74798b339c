import TokenGate.Definition.Numeral
import TokenGate.Proofs.Repository.Loading
import TokenGate.Proofs.Result

/-!
# What a failed load leaves behind

A load that ends in an error records no time. Of the file it keeps the definitions before the error:
there are none if it cannot be read, or if it is no JSON or its first record is malformed, but the
records of a list are stored one by one, and what has been stored is not taken back.
-/

namespace TokenGate.Repository

/-- A load ends in an error, behind the records that are these definitions. -/
inductive CutShort (reader : Reader) (name : String) (found : Found) :
    List Definition → RepositoryError → Prop
  | absent {e : RepositoryError} : found.file? name = .error e → CutShort reader name found [] e
  | broken {f : SourceFile} {ds : List Definition} {e : RepositoryError} :
      found.file? name = .ok f → f.BreaksOff reader name ds e →
      CutShort reader name found ds e

variable {reader : Reader} {r r' : Repository} {path : String} {found : Found} {force : Bool}
  {e : RepositoryError}

/-- A failed load stores what comes before the error, and does nothing else. -/
theorem eq_addAll_of_load_error (h : r.load reader path found force = (.error e, r')) :
    ∃ ds, CutShort reader (pathName path) found ds e ∧ r' = r.addAll ds := by
  have loads := r.loads_load reader path found force
  rw [h] at loads
  cases loads with
  | absent nothing => exact ⟨[], .absent nothing, rfl⟩
  | broken present _ hf => exact ⟨_, .broken present hf, rfl⟩

theorem get_str (r : Repository) (name : String) :
    r.get (.str name) = match r.definitions.get? name with
      | some d => .ok d
      | none => .error (.unknownName (.str name)) :=
  rfl

/-- Of the definitions that are stored, the last one of a name is found under it. -/
theorem get_addAll (r : Repository) (ds : List Definition) (name : String) :
    (r.addAll ds).get (.str name) = match ds.reverse.find? (·.name = name) with
      | some d => .ok d
      | none => r.get (.str name) := by
  rw [get_str, get_str, get?_addAll]
  cases ds.reverse.find? (·.name = name) <;> rfl

/-- A failed load records no time. The names that it adds, and what is found under a name after it,
are those of the definitions before the error. -/
theorem kept_of_load_error (h : r.load reader path found force = (.error e, r')) :
    r'.stamps = r.stamps ∧ ∃ ds, CutShort reader (pathName path) found ds e ∧
      r'.names = (ds.map Definition.name).foldl
        (fun seen n => if n ∈ seen then seen else seen ++ [n]) r.names ∧
      ∀ name, r'.get (.str name) = match ds.reverse.find? (·.name = name) with
        | some d => .ok d
        | none => r.get (.str name) := by
  obtain ⟨ds, cut, rfl⟩ := eq_addAll_of_load_error h
  exact ⟨stamps_addAll r ds, ds, cut, names_addAll r ds, get_addAll r ds⟩

/-- A file with the rules of two games, of which the second one has no name. -/
def halfFile : SourceFile := .ofData (.list [bareData "Good", bareData ""]) 1

theorem read?_halfFile : ∃ text, halfFile.text = .ok text ∧
    Json.read? text = some (.list [bareData "Good", bareData ""]) := by
  refine ⟨_, rfl, Json.read?_render ?_⟩
  exact ⟨discrete_bareData "Good", discrete_bareData "", trivial⟩

/-- The first game is found in the file, and an error behind it. -/
theorem halfFile_breaksOff (path : String) :
    ∃ d e, d.name = "Good" ∧ halfFile.BreaksOff .usual path [d] e := by
  have good : (Definition.ofValue .usual (bareData "Good")).toOption.map Definition.name =
    some "Good" := by decide +kernel
  have bad : (Definition.ofValue .usual (bareData "")).toOption.isSome = false := by
    decide +kernel
  obtain ⟨d, hd, name⟩ := Option.map_eq_some_iff.1 good
  have stored : Definition.Listed .usual [bareData "Good"] [d] :=
    .cons (Result.toOption_eq_some.1 hd) rfl
  cases refused : Definition.ofValue .usual (bareData "") with
  | ok d' =>
    rw [refused] at bad
    cases bad
  | error m =>
    obtain ⟨text, there, read⟩ := read?_halfFile
    exact ⟨d, .malformed m, name, .malformed there read rfl stored refused⟩

theorem load_halfFile (path : String) :
    ∃ d e, d.name = "Good" ∧
      empty.load .usual path (.file halfFile) false = (.error e, empty.addAll [d]) := by
  obtain ⟨d, e, name, hf⟩ := halfFile_breaksOff (pathName path)
  exact ⟨d, e, name, load_of_breaksOff rfl (fun _ => not_fresh_empty _ _) hf⟩

theorem kept_of_load_halfFile :
    ∃ e r', empty.load .usual "rules.json" (.file halfFile) false = (.error e, r') ∧
      r'.stamps = empty.stamps ∧
      ∃ ds, CutShort .usual (pathName "rules.json") (.file halfFile) ds e ∧
      r'.names = (ds.map Definition.name).foldl
        (fun seen n => if n ∈ seen then seen else seen ++ [n]) empty.names ∧
      ∀ name, r'.get (.str name) = match ds.reverse.find? (·.name = name) with
        | some d => .ok d
        | none => empty.get (.str name) := by
  obtain ⟨d, e, -, h⟩ := load_halfFile "rules.json"
  exact ⟨e, _, h, kept_of_load_error h⟩

/-- It is not so that a failed load leaves everything as it was. -/
theorem not_unchanged_of_load_error :
    ¬ ∀ (requests : List Request) (path : String) (found : Found) (force : Bool)
      (e : RepositoryError) (r' : Repository),
      (after .usual requests).load .usual path found force = (.error e, r') →
      r'.names = (after .usual requests).names ∧
        (∀ name, r'.get (.str name) = (after .usual requests).get (.str name)) ∧
        r'.stamps = (after .usual requests).stamps := by
  intro unchanged
  obtain ⟨d, e, name, h⟩ := load_halfFile "rules.json"
  obtain ⟨names, -⟩ := unchanged [] "rules.json" (.file halfFile) false e _ h
  rw [names_addAll, List.map_singleton, name] at names
  exact absurd names (by decide)

end TokenGate.Repository
