import Mathlib.Data.List.Induction
import TokenGate.Definition.Numeral
import TokenGate.Proofs.Repository.Loading
import TokenGate.Proofs.Result

/-!
# Which files are read again

The time that is recorded for a path is that of the file which was last read there with success. A
file is skipped, unless the load is forced, exactly if its own time is not after that one. So a file
that has been put back in an older state is skipped as well, although its time has changed, and so is
an old folder that has taken its place; every other file is read, and what it holds is stored, or an
error in it is reported.
-/

namespace TokenGate.Repository

/-- A request reads the file at a path, finds it with some time, and succeeds. -/
inductive Reads (reader : Reader) (r : Repository) : Request → String → Int → Prop
  | load {path : String} {found : Found} {force : Bool} {f : SourceFile} {ds : List Definition} :
      found.file? (pathName path) = .ok f → (force = false → ¬ r.Fresh (pathName path) f) →
      f.Holds reader ds → Reads reader r (.load path found force) (pathName path) f.stamp

/-- Among some requests, the last one that read the file at a path with success found it with some
time. -/
inductive LastRead (reader : Reader) (name : String) : List Request → Int → Prop
  | read {before : List Request} {q : Request} {t : Int} :
      (after reader before).Reads reader q name t →
      LastRead reader name (before ++ [q]) t
  | kept {before : List Request} {q : Request} {t : Int} : LastRead reader name before t →
      (∀ t', ¬ (after reader before).Reads reader q name t') →
      LastRead reader name (before ++ [q]) t

theorem stamps_addValue (reader : Reader) (r : Repository) (v : Value) :
    (r.addValue reader v).2.stamps = r.stamps := by
  unfold addValue
  split <;> rfl

section Step

variable {reader : Reader} {r : Repository} {path name : String} {found : Found} {force : Bool}
  {f : SourceFile} {ds : List Definition} {e : RepositoryError} {t : Int}

/-- A file that is read with success is there, and its load is answered with what it holds. -/
theorem load_of_reads (h : r.Reads reader (.load path found force) name t) :
    name = pathName path ∧ ∃ f ds, found.file? (pathName path) = .ok f ∧ t = f.stamp ∧
      (force = false → ¬ r.Fresh (pathName path) f) ∧
      r.load reader path found force =
        (.ok ds, { r.addAll ds with stamps := r.stamps.put (pathName path) f.stamp }) := by
  cases h with
  | load h stale hf => exact ⟨rfl, _, _, h, rfl, stale, load_of_holds h stale hf⟩

theorem not_reads_of_absent (h : found.file? (pathName path) = .error e) :
    ¬ r.Reads reader (.load path found force) name t := by
  intro reads
  obtain ⟨-, f, ds, hf, -⟩ := load_of_reads reads
  rw [h] at hf
  cases hf

theorem not_reads_of_fresh (h : found.file? (pathName path) = .ok f) (calm : force = false)
    (fresh : r.Fresh (pathName path) f) : ¬ r.Reads reader (.load path found force) name t := by
  intro reads
  obtain ⟨-, f', ds, hf, -, stale, -⟩ := load_of_reads reads
  rw [h] at hf
  cases hf
  exact stale calm fresh

theorem not_reads_of_breaksOff (h : found.file? (pathName path) = .ok f)
    (stale : force = false → ¬ r.Fresh (pathName path) f)
    (hf : f.BreaksOff reader (pathName path) ds e) :
    ¬ r.Reads reader (.load path found force) name t := by
  intro reads
  obtain ⟨-, f', ds', -, -, -, read⟩ := load_of_reads reads
  rw [load_of_breaksOff h stale hf] at read
  cases read

/-- Where a file is read with success, its time is recorded for its path. -/
theorem get?_stamps_of_holds (h : found.file? (pathName path) = .ok f)
    (stale : force = false → ¬ r.Fresh (pathName path) f) (hf : f.Holds reader ds) :
    (r.stamps.put (pathName path) f.stamp).get? name = some t ↔
      r.Reads reader (.load path found force) name t ∨
        r.stamps.get? name = some t ∧ ∀ t', ¬ r.Reads reader (.load path found force) name t' := by
  rw [Table.get?_put]
  by_cases here : pathName path = name
  · subst here
    rw [if_pos rfl, Option.some.injEq]
    constructor
    · rintro rfl
      exact .inl (.load h stale hf)
    · rintro (reads | ⟨-, none⟩)
      · obtain ⟨-, f', ds', hf', rfl, -⟩ := load_of_reads reads
        rw [h] at hf'
        cases hf'
        rfl
      · exact absurd (.load h stale hf) (none f.stamp)
  · rw [if_neg here]
    have elsewhere (t' : Int) : ¬ r.Reads reader (.load path found force) name t' := fun reads =>
      here (load_of_reads reads).1.symm
    constructor
    · exact fun kept => .inr ⟨kept, elsewhere⟩
    · rintro (reads | ⟨kept, -⟩)
      · exact absurd reads (elsewhere t)
      · exact kept

/-- A request records the time of the file that it reads with success, and no other one. -/
theorem get?_stamps_handle (reader : Reader) (r : Repository) (q : Request) (name : String) (t : Int) :
    (r.handle reader q).stamps.get? name = some t ↔
      r.Reads reader q name t ∨ r.stamps.get? name = some t ∧ ∀ t', ¬ r.Reads reader q name t' := by
  have same {stamps : Table Int} (h : stamps = r.stamps) (none : ∀ t', ¬ r.Reads reader q name t') :
      stamps.get? name = some t ↔
        r.Reads reader q name t ∨ r.stamps.get? name = some t ∧ ∀ t', ¬ r.Reads reader q name t' := by
    rw [h]
    constructor
    · exact fun kept => .inr ⟨kept, none⟩
    · rintro (reads | ⟨kept, -⟩)
      · exact absurd reads (none t)
      · exact kept
  cases q with
  | read v => exact same (stamps_addValue reader r v) nofun
  | add d => exact same rfl nofun
  | load path found force =>
    have loads := r.loads_load reader path found force
    rw [handle]
    generalize r.load reader path found force = result at loads ⊢
    obtain ⟨answer, r'⟩ := result
    cases loads with
    | absent h => exact same rfl fun _ => not_reads_of_absent h
    | skipped h calm fresh => exact same rfl fun _ => not_reads_of_fresh h calm fresh
    | broken h stale hf => exact same (stamps_addAll ..) fun _ => not_reads_of_breaksOff h stale hf
    | loaded h stale hf => exact get?_stamps_of_holds h stale hf

end Step

/-- The time that is recorded for a path is the one of the file that was last read there. -/
theorem get?_stamps_after (reader : Reader) (requests : List Request) (name : String) (t : Int) :
    (after reader requests).stamps.get? name = some t ↔ LastRead reader name requests t := by
  induction requests using List.reverseRecOn generalizing t with
  | nil =>
    constructor
    · intro h
      cases h
    · intro h
      generalize hnil : ([] : List Request) = requests at h
      cases h with
      | read _ => exact absurd hnil (by simp)
      | kept _ _ => exact absurd hnil (by simp)
  | append_singleton before q ih =>
    rw [after_append_singleton, get?_stamps_handle, ih]
    constructor
    · rintro (hread | ⟨hkept, none⟩)
      · exact .read hread
      · exact .kept hkept none
    · intro h
      generalize hall : before ++ [q] = requests at h
      cases h with
      | read hread =>
        obtain ⟨rfl, rfl⟩ := List.append_singleton_inj.1 hall
        exact .inl hread
      | kept hkept none =>
        obtain ⟨rfl, rfl⟩ := List.append_singleton_inj.1 hall
        exact .inr ⟨hkept, none⟩

theorem fresh_after_iff {reader : Reader} {requests : List Request} {name : String} {f : SourceFile} :
    (after reader requests).Fresh name f ↔ ∃ t, LastRead reader name requests t ∧ f.stamp ≤ t := by
  simp only [Fresh, get?_stamps_after]

/-- After any requests, a path under which nothing is there is an error; a file whose time is not
after that of the one that was last read there is skipped unless the load is forced, and so is what
has taken its place and cannot be read; and every other file is read: the definitions that it holds
now are stored and its time is recorded, or it is refused. -/
theorem load_after (reader : Reader) (requests : List Request) (path : String) (found : Found)
    (force : Bool) :
    let r := after reader requests
    let name := pathName path
    (∀ e, found.file? name = .error e → r.load reader path found force = (.error e, r)) ∧
      ∀ f, found.file? name = .ok f →
        (force = false → (∃ t, LastRead reader name requests t ∧ f.stamp ≤ t) →
          r.load reader path found force = (.ok [], r)) ∧
        ((force = false → ∀ t, LastRead reader name requests t → t < f.stamp) →
          (∃ ds, f.Holds reader ds ∧ r.load reader path found force =
            (.ok ds, { r.addAll ds with stamps := r.stamps.put name f.stamp })) ∨
          ∃ ds e, f.BreaksOff reader name ds e ∧
            r.load reader path found force = (.error e, r.addAll ds)) := by
  intro r name
  refine ⟨fun e h => load_of_absent h, fun f h => ⟨fun calm old => ?_, fun new => ?_⟩⟩
  · exact load_of_fresh h calm (fresh_after_iff.2 old)
  · have stale : force = false → ¬ r.Fresh name f := by
      intro calm fresh
      obtain ⟨t, hread, ht⟩ := fresh_after_iff.1 fresh
      exact absurd (new calm t hread) (Int.not_lt.2 ht)
    rcases f.holds_or_breaksOff reader name with ⟨ds, hf⟩ | ⟨ds, e, hf⟩
    · exact .inl ⟨ds, hf, load_of_holds h stale hf⟩
    · exact .inr ⟨ds, e, hf, load_of_breaksOff h stale hf⟩

theorem holds_bareData {reader : Reader} {name : String} {d : Definition} (stamp : Int)
    (h : Definition.ofValue reader (bareData name) = .ok d) :
    (SourceFile.ofData (bareData name) stamp).Holds reader [d] := by
  apply SourceFile.holds_ofData (discrete_bareData name)
  rw [records_bareData]
  exact .cons h rfl

/-- A file that has been read once. -/
theorem exists_lastRead (path : String) :
    ∃ requests, LastRead .usual (pathName path) requests 2 := by
  have valid : (Definition.ofValue .usual (bareData "Chess")).toOption.isSome = true := by
    decide +kernel
  have holds := holds_bareData 2 (Result.eq_ok_getD ⟨"", 2, [], [], [], []⟩ valid)
  have read : (after .usual []).Reads .usual
      (.load path (.file (.ofData (bareData "Chess") 2)) false) (pathName path) 2 :=
    .load rfl (fun _ => not_fresh_empty _ _) holds
  exact ⟨_, .read read⟩

theorem LastRead.unique {reader : Reader} {requests : List Request} {name : String} {t t' : Int}
    (h : LastRead reader name requests t) (h' : LastRead reader name requests t') : t = t' := by
  rw [← get?_stamps_after] at h h'
  exact Option.some.inj (h.symm.trans h')

theorem load_after_chess :
    let file := SourceFile.ofData (bareData "Checkers")
    ∃ requests, LastRead .usual (pathName "rules.json") requests 2 ∧
      let r := after .usual requests
      r.load .usual "rules.json" (.file (file 1)) false = (.ok [], r) ∧
      r.load .usual "rules.json" (.folder 1) false = (.ok [], r) ∧
      ((∃ ds, (file 3).Holds .usual ds ∧ r.load .usual "rules.json" (.file (file 3)) false =
        (.ok ds, { r.addAll ds with stamps := r.stamps.put (pathName "rules.json") 3 })) ∨
        ∃ ds e, (file 3).BreaksOff .usual (pathName "rules.json") ds e ∧
          r.load .usual "rules.json" (.file (file 3)) false = (.error e, r.addAll ds)) := by
  intro file
  obtain ⟨requests, before⟩ := exists_lastRead "rules.json"
  have older := (load_after .usual requests "rules.json" (.file (file 1)) false).2 (file 1) rfl
  have folder := (load_after .usual requests "rules.json" (.folder 1) false).2 _ rfl
  have newer := (load_after .usual requests "rules.json" (.file (file 3)) false).2 (file 3) rfl
  refine ⟨requests, before, older.1 rfl ⟨2, before, by decide⟩,
    folder.1 rfl ⟨2, before, by decide⟩, newer.2 fun _ t last => ?_⟩
  rw [last.unique before]
  decide

/-- It is not so that every file is read unless it has the time of the one that was last read. -/
theorem not_read_unless_unchanged :
    ¬ ∀ (requests : List Request) (path : String) (found : Found) (force : Bool) (f : SourceFile),
      found.file? (pathName path) = .ok f →
      (force = false → ¬ LastRead .usual (pathName path) requests f.stamp) →
      (∃ ds, f.Holds .usual ds ∧
          ((after .usual requests).load .usual path found force).1 = .ok ds) ∨
        ∃ e, ((after .usual requests).load .usual path found force).1 = .error e := by
  intro always
  obtain ⟨requests, before⟩ := exists_lastRead "rules.json"
  let f := SourceFile.ofData (bareData "Checkers") 1
  have older : f.stamp < 2 := by decide
  have skipped : (after .usual requests).load .usual "rules.json" (.file f) false =
      (.ok [], after .usual requests) :=
    load_of_fresh rfl rfl (fresh_after_iff.2 ⟨2, before, Int.le_of_lt older⟩)
  have changed : ¬ LastRead .usual (pathName "rules.json") requests f.stamp :=
    fun last => absurd (last.unique before) (Int.ne_of_lt older)
  rcases always requests "rules.json" (.file f) false f rfl fun _ => changed with
    ⟨ds, ⟨text, v, htext, hv, hds⟩, answer⟩ | ⟨e, answer⟩
  · rw [skipped] at answer
    cases answer
    cases htext
    rw [Json.read?_render (discrete_bareData "Checkers")] at hv
    cases hv
    rw [records_bareData] at hds
    exact absurd hds (List.cons_ne_nil _ _)
  · rw [skipped] at answer
    cases answer

end TokenGate.Repository
