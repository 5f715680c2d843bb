import PromptLoop.Value.Reader

set_option autoImplicit false

namespace PromptLoop.Value

def Partial.InArray (p : Partial) : Prop :=
  (∃ items, p.parts.getLast? = some (.array items)) ∨
    (p.parts = [] ∧ ∃ items, p.expected = .separator (.array items))

theorem Partial.InArray.close {part : OpenPart} {parts : List OpenPart} {expected : Expected}
    (h : ∃ items, (part :: parts).getLast? = some (.array items))
    (hlast : ∀ items, part = .array items → ∃ items, expected = .separator (.array items)) :
    Partial.InArray ⟨parts, expected⟩ := by
  obtain ⟨items, hitems⟩ := h
  cases parts with
  | nil =>
    have hpart : part = .array items := by simpa using hitems
    exact .inr ⟨rfl, hlast items hpart⟩
  | cons next rest => exact .inl ⟨items, hitems⟩

theorem Partial.InArray.push {p p' : Partial} {lexeme : Lexeme} (hp : p.InArray)
    (h : p.push? lexeme = some p') : p'.InArray := by
  obtain ⟨parts, expected⟩ := p
  rcases hp with hlast | ⟨hparts, items, hexpected⟩
  · have hopen (part : OpenPart) : ∃ items, (part :: parts).getLast? = some (.array items) := by
      obtain ⟨items, hitems⟩ := hlast
      exact ⟨items, by simp [List.getLast?_cons, hitems]⟩
    unfold Partial.push? at h
    dsimp only at h hlast
    split at h
    · cases h
      exact .inl hlast
    · cases h
      exact .inl hlast
    · split at h <;> cases h
      exact .inl (hopen _)
    · split at h <;> cases h
      exact .inl hlast
    · split at h <;> cases h
      exact .close hlast fun _ _ => ⟨_, rfl⟩
    · cases h
      exact .inl hlast
    · cases h
      exact .inl hlast
    · cases h
      exact .inl (hopen _)
    · rename_i v
      split at h <;> cases h
      · rename_i items rest
        obtain ⟨last, heq⟩ := hlast
        cases rest with
        | nil => exact .inl ⟨v :: items, rfl⟩
        | cons next rest => exact .inl ⟨last, heq⟩
      · exact .close hlast (by simp)
    · split at h <;> cases h
      exact .close hlast fun _ _ => ⟨_, rfl⟩
    · split at h <;> cases h
      exact .close hlast (by simp)
    · cases h
  · obtain rfl : parts = [] := hparts
    obtain rfl : expected = .separator (.array items) := hexpected
    cases lexeme <;> cases h

theorem Partial.InArray.run {p p' : Partial} {lexemes : List Lexeme} (hp : p.InArray)
    (h : lexemes.foldlM Partial.push? p = some p') : p'.InArray := by
  induction lexemes generalizing p with
  | nil =>
    cases h
    exact hp
  | cons lexeme rest ih =>
    obtain ⟨next, hnext, h⟩ := Option.bind_eq_some_iff.1 h
    exact ih (hp.push hnext) h

theorem Partial.InArray.finish {p : Partial} {v : Value} (hp : p.InArray)
    (h : p.finish? = some v) : ∃ items, v = .array items := by
  obtain ⟨parts, expected⟩ := p
  unfold Partial.finish? at h
  split at h
  · rename_i hparts hexpected
    cases h
    dsimp only at hparts hexpected
    subst hparts hexpected
    rcases hp with ⟨items, hlast⟩ | ⟨-, items, heq⟩
    · cases hlast
    · cases heq
      exact ⟨items, rfl⟩
  · cases h

/-- Behind a complete value nothing more may come. -/
theorem run_separator {v v' : Value} {lexemes : List Lexeme} {p : Partial}
    (h : lexemes.foldlM Partial.push? ⟨[], .separator v⟩ = some p) (hf : p.finish? = some v') :
    v' = v := by
  cases lexemes with
  | nil =>
    cases h
    cases hf
    rfl
  | cons lexeme rest =>
    obtain ⟨next, hnext, -⟩ := Option.bind_eq_some_iff.1 h
    cases lexeme <;> cases hnext

theorem Lexeme.read?_of_readAll? {fuel : Nat} {s : List Char} {lexeme : Lexeme}
    {others : List Lexeme} (h : readAll? fuel s = some (lexeme :: others)) :
    ∃ rest, read? (s.dropWhile isBlank) = some (lexeme, rest) := by
  unfold readAll? at h
  split at h
  · split at h <;> cases h
  · split at h
    · cases h
    · rename_i hs
      obtain ⟨⟨first, rest⟩, hread, h⟩ := Option.bind_eq_some_iff.1 h
      obtain ⟨_, _, h⟩ := Option.bind_eq_some_iff.1 h
      cases h
      exact ⟨rest, hs ▸ hread⟩

theorem Lexeme.brace_of_read? {s rest : List Char} (h : read? s = some (.openObject, rest)) :
    s.head? = some '\x7b' := by
  unfold read? at h
  split at h
  case h_3 => rfl
  case h_7 =>
    obtain ⟨_, _, heq⟩ := Option.map_eq_some_iff.1 h
    cases heq
  case h_11 =>
    obtain ⟨_, _, h⟩ := Option.bind_eq_some_iff.1 h
    obtain ⟨_, _, h⟩ := Option.bind_eq_some_iff.1 h
    cases h
  all_goals cases h

theorem Lexeme.not_object_of_read? {s rest : List Char} {v : Value}
    (h : read? s = some (.scalar v, rest)) (entries : Bindings Value) : v ≠ .object entries := by
  rintro rfl
  unfold read? at h
  split at h
  case h_7 =>
    obtain ⟨_, _, heq⟩ := Option.map_eq_some_iff.1 h
    cases heq
  case h_11 =>
    obtain ⟨_, _, h⟩ := Option.bind_eq_some_iff.1 h
    obtain ⟨_, _, h⟩ := Option.bind_eq_some_iff.1 h
    cases h
  all_goals cases h

theorem brace_of_read? {s : List Char} {entries : Bindings Value}
    (h : read? s = some (.object entries)) : (s.dropWhile Lexeme.isBlank).head? = some '\x7b' := by
  obtain ⟨lexemes, hlexemes, h⟩ := Option.bind_eq_some_iff.1 h
  obtain ⟨p, hp, hf⟩ := Option.bind_eq_some_iff.1 h
  cases lexemes with
  | nil =>
    cases hp
    cases hf
  | cons lexeme others =>
    obtain ⟨next, hnext, hrun⟩ := Option.bind_eq_some_iff.1 hp
    obtain ⟨rest, hread⟩ := Lexeme.read?_of_readAll? hlexemes
    cases lexeme with
    | openObject => exact Lexeme.brace_of_read? hread
    | openArray =>
      cases hnext
      have hinside : Partial.InArray ⟨[.array []], .value true⟩ := .inl ⟨[], rfl⟩
      obtain ⟨items, heq⟩ := (hinside.run hrun).finish hf
      cases heq
    | scalar v =>
      cases hnext
      exact absurd (run_separator hrun hf).symm (Lexeme.not_object_of_read? hread entries)
    | text t =>
      cases hnext
      cases run_separator hrun hf
    | _ => cases hnext

end PromptLoop.Value
