import TokenGate.Definition.Numeral
import TokenGate.Proofs.Automaton.Lookup
import TokenGate.Proofs.Definition.Rules

/-!
# Names that have a normal form

The label of a generated event needs a normal form of the name it comes from, and a name has one if
there is a letter or digit in it. Names of rules always have a letter or digit, which is checked
when they are read. A token may be named by underscores alone, and then the definition is refused
when it is compiled, although nothing was said against it when it was read.
-/

namespace TokenGate

open Text Result

/-- A token name without a letter or digit has nothing but underscores, and perhaps a line feed. -/
theorem underscores_of_isTokenName {t : String} (ht : isTokenName t = true)
    (h : hasLetterOrDigit t = false) : ∀ c ∈ t.toList, c = '_' ∨ c = '\n' := by
  have underscore {cs : List Char} (hcs : isIdentifier cs = true) (within : ∀ c ∈ cs, c ∈ t.toList) :
      ∀ c ∈ cs, c = '_' := by
    intro c hc
    have part := isNamePart_of_isIdentifier hcs c hc
    have other : isLetterOrDigit c = false := by
      simpa using List.any_eq_false.1 h c (within c hc)
    simpa [isNamePart, other] using part
  intro c hc
  simp only [isTokenName] at ht
  split at ht
  · rename_i hlast
    have whole := List.dropLast_append_getLast? '\n' hlast
    rw [← whole] at hc
    rcases List.mem_append.1 hc with hc | hc
    · exact .inl (underscore ht (fun _ hc => List.dropLast_subset _ hc) c hc)
    · exact .inr (List.mem_singleton.1 hc)
  · exact .inl (underscore ht (fun _ hc => hc) c hc)

/-- Letters and digits are all that is left besides underscores. -/
theorem any_joinRuns (gap : Bool) (cs : List Char) :
    (joinRuns gap cs).any (fun c => !(c == '_')) = cs.any isLetterOrDigit := by
  induction cs generalizing gap with
  | nil => rfl
  | cons c rest ih =>
    rw [joinRuns, List.any_cons]
    cases hc : isLetterOrDigit c with
    | true => simp [ne_underscore_of_isLetterOrDigit hc]
    | false => cases gap <;> simp [ih]

/-- A name has no normal form exactly if it has neither a letter nor a digit. -/
theorem normalChars_eq_nil_iff (cs : List Char) :
    normalChars cs = [] ↔ cs.any isLetterOrDigit = false := by
  rw [normalChars, List.map_eq_nil_iff, trimChars_eq_nil_iff, any_joinRuns]

/-- The text of the normal form of a name; the empty one if there is none. -/
def normalText (source : String) : String := String.ofList (normalChars source.toList)

theorem normalize_eq_ok {source : String} (h : hasLetterOrDigit source = true) :
    normalize source = .ok (normalText source) := by
  unfold normalize
  split
  · rename_i hnil
    rw [normalChars_eq_nil_iff] at hnil
    rw [hasLetterOrDigit, hnil] at h
    cases h
  · rfl

theorem normalize_eq_error {source : String} (h : hasLetterOrDigit source = false) :
    normalize source = .error ⟨source⟩ := by
  have hnil : normalChars source.toList = [] := (normalChars_eq_nil_iff _).2 h
  rw [normalize, hnil]

namespace EventName

theorem label_eq_ok {n : EventName} (h : hasLetterOrDigit n.source = true) :
    n.label = .ok (n.kind.text ++ "_" ++ normalText n.source) := by
  rw [label, normalize_eq_ok h]
  rfl

theorem label_eq_error {n : EventName} (h : hasLetterOrDigit n.source = false) :
    n.label = .error ⟨n.source⟩ := by
  rw [label, normalize_eq_error h]
  rfl

end EventName

/-- The label of the event of a rule. -/
def Rule.eventLabel (r : Rule) : String :=
  (EventKind.ofRule r.kind).text ++ "_" ++ normalText r.name

/-- Rules whose names have a letter or digit have an entry each. -/
theorem Catalog.entries_eq_ok {rs : List Rule} (h : ∀ r ∈ rs, hasLetterOrDigit r.name = true) :
    entries rs = .ok (rs.map fun r => ⟨r.eventLabel, r⟩) := by
  induction rs with
  | nil => rfl
  | cons r rest ih =>
    have label : EventName.label ⟨.ofRule r.kind, r.name⟩ = .ok r.eventLabel :=
      EventName.label_eq_ok (h r List.mem_cons_self)
    rw [entries, entry, label, ih fun x hx => h x (List.mem_cons_of_mem r hx)]
    rfl

namespace Automaton

theorem tokenEdges_of_hasLetterOrDigit {token : String} (h : hasLetterOrDigit token = true) :
    ∃ es, tokenEdges token = .ok es := by
  have hspend := EventName.label_eq_ok (n := ⟨.spend, token⟩) h
  have hgain := EventName.label_eq_ok (n := ⟨.gain, token⟩) h
  exact ⟨_, by rw [tokenEdges, hspend, hgain]; rfl⟩

theorem tokenEdges_eq_error {token : String} (h : hasLetterOrDigit token = false) :
    tokenEdges token = .error ⟨token⟩ := by
  have hspend := EventName.label_eq_error (n := ⟨.spend, token⟩) h
  rw [tokenEdges, hspend]
  rfl

theorem tokenStates_of_hasLetterOrDigit {tokens : List String}
    (h : ∀ t ∈ tokens, hasLetterOrDigit t = true) : ∃ states, tokenStates tokens = .ok states := by
  induction tokens with
  | nil => exact ⟨[], rfl⟩
  | cons t rest ih =>
    obtain ⟨es, hes⟩ := tokenEdges_of_hasLetterOrDigit (h t List.mem_cons_self)
    obtain ⟨states, hstates⟩ := ih fun x hx => h x (List.mem_cons_of_mem t hx)
    exact ⟨(.token t, es) :: states, by rw [tokenStates, hes, hstates]; rfl⟩

/-- The first token whose name has neither a letter nor a digit is refused. -/
theorem tokenStates_eq_error {tokens : List String} {t : String}
    (h : tokens.find? (fun t => !hasLetterOrDigit t) = some t) :
    tokenStates tokens = .error ⟨t⟩ := by
  induction tokens with
  | nil => cases h
  | cons x rest ih =>
    rw [List.find?_cons] at h
    cases hx : hasLetterOrDigit x with
    | false =>
      simp only [hx, Bool.not_false] at h
      cases h
      rw [tokenStates, tokenEdges_eq_error hx]
      rfl
    | true =>
      simp only [hx, Bool.not_true] at h
      obtain ⟨es, hes⟩ := tokenEdges_of_hasLetterOrDigit hx
      rw [tokenStates, hes, ih h]
      rfl

theorem Catalog.build_cases {d : Definition} (names : ∀ r ∈ d.rules, hasLetterOrDigit r.name = true) :
    (∃ c, Catalog.build d = .ok c) ∨
    ∃ label sources, 1 < sources.length ∧ Catalog.build d = .error (.collision label sources) := by
  unfold Catalog.build
  rw [Catalog.entries_eq_ok names]
  generalize d.rules.map (fun r => (⟨r.eventLabel, r⟩ : CatalogEntry)) = c
  cases hl : Catalog.collision? c with
  | none => exact .inl ⟨c, by simp [hl]⟩
  | some l =>
    have several : 1 < (Catalog.sourcesOf c l).length := by simpa using List.find?_some hl
    exact .inr ⟨l, Catalog.sourcesOf c l, several, by simp [hl]⟩

/-- A definition that is read from data is compiled, unless two of its events have one label or a
token is named by underscores. In the latter case the first such token is complained about. -/
theorem build_of_ofValue {reader : Reader} {v : Value} {d : Definition}
    (h : Definition.ofValue reader v = .ok d) :
    (∃ label sources, 1 < sources.length ∧
      Catalog.build d = .error (.collision label sources) ∧
      build d = .error (.collision label sources)) ∨
    (∃ a, (∀ t ∈ d.tokenTypes, hasLetterOrDigit t = true) ∧
      Catalog.build d = .ok a.catalog ∧ build d = .ok a) ∨
    (∃ c t, d.tokenTypes.find? (fun t => !hasLetterOrDigit t) = some t ∧
      (∀ ch ∈ t.toList, ch = '_' ∨ ch = '\n') ∧
      Catalog.build d = .ok c ∧ build d = .error (.label ⟨t⟩)) := by
  have names : ∀ r ∈ d.rules, hasLetterOrDigit r.name = true :=
    fun r hr => (Definition.legible_of_ofValue h hr).name
  rcases Catalog.build_cases names with ⟨c, hc⟩ | ⟨label, sources, several, hc⟩
  · cases hfind : d.tokenTypes.find? fun t => !hasLetterOrDigit t with
    | none =>
      have tokens : ∀ t ∈ d.tokenTypes, hasLetterOrDigit t = true := by
        simpa using List.find?_eq_none.1 hfind
      obtain ⟨states, hstates⟩ := tokenStates_of_hasLetterOrDigit tokens
      exact .inr (.inl ⟨_, tokens, hc, by rw [build, hc, hstates]; rfl⟩)
    | some t =>
      have refused := tokenStates_eq_error hfind
      have unnamed : hasLetterOrDigit t = false := by simpa using List.find?_some hfind
      obtain ⟨r, hr, ht⟩ := Definition.mem_tokenTypes.1 (List.mem_of_find?_eq_some hfind)
      have named := (Definition.legible_of_ofValue h hr).tokens.named t ht
      exact .inr (.inr ⟨c, t, rfl, underscores_of_isTokenName named unnamed, hc,
        by rw [build, hc, refused]; rfl⟩)
  · exact .inl ⟨label, sources, several, hc, by rw [build, hc]; rfl⟩

end Automaton

/-- The rules of a game whose only token is named by an underscore. -/
def namelessRules : Value :=
  .object [
    ("name", .str "a"),
    ("triggers", .list [.object [("event", .str "b"), ("grants", .str "_")]])]

def Definition.nameless : Definition :=
  (Definition.ofValue .usual namelessRules).toOption.getD ⟨"", 2, [], [], [], []⟩

theorem ofValue_namelessRules : Definition.ofValue .usual namelessRules = .ok .nameless :=
  eq_ok_getD _ (by decide +kernel)

/-- Nothing is wrong with these rules but the name of their token. -/
theorem Automaton.build_nameless :
    (∃ c, Catalog.build .nameless = .ok c) ∧ build .nameless = .error (.label ⟨"_"⟩) := by
  have collected : (Catalog.build .nameless).toOption.isSome = true := by decide +kernel
  have unnamed : hasLetterOrDigit "_" = false := by decide
  have only : Definition.nameless.tokenTypes = ["_"] := by decide +kernel
  rcases build_of_ofValue ofValue_namelessRules with
    ⟨label, sources, -, hc, -⟩ | ⟨a, tokens, -, -⟩ | ⟨c, t, hfind, -, hc, refused⟩
  · rw [hc] at collected
    cases collected
  · have named := tokens "_" (by rw [only]; exact List.mem_singleton_self _)
    rw [unnamed] at named
    cases named
  · rw [only, List.find?_cons, unnamed] at hfind
    cases hfind
    exact ⟨⟨c, hc⟩, refused⟩

/-- Not every definition that is read from data is compiled or has events that collide. -/
theorem Automaton.not_built_or_collision :
    ¬ ∀ v d, Definition.ofValue .usual v = .ok d →
      (∃ a, build d = .ok a) ∨ ∃ label sources, build d = .error (.collision label sources) := by
  intro always
  have refused : (match build .nameless with
      | .error (.label e) => e.source == "_"
      | _ => false) = true := by
    decide +kernel
  rcases always _ _ ofValue_namelessRules with ⟨a, ha⟩ | ⟨label, sources, hcollision⟩
  · rw [ha] at refused
    cases refused
  · rw [hcollision] at refused
    cases refused

end TokenGate
