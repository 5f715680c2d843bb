import PromptLoop.Proofs.Bindings
import PromptLoop.Value.Reader

set_option autoImplicit false

namespace PromptLoop.Value

/-- No object in the value has a key twice. -/
inductive KeysDistinct : Value → Prop where
  | null : KeysDistinct .null
  | bool (b : Bool) : KeysDistinct (.bool b)
  | number (n : Number) : KeysDistinct (.number n)
  | string (s : String) : KeysDistinct (.string s)
  | array {items : List Value} (hitems : ∀ v ∈ items, KeysDistinct v) : KeysDistinct (.array items)
  | object {entries : Bindings Value} (hnames : entries.names.Nodup)
      (hentries : ∀ entry ∈ entries, KeysDistinct entry.2) : KeysDistinct (.object entries)

theorem keysDistinct_array_iff {items : List Value} :
    KeysDistinct (.array items) ↔ ∀ v ∈ items, v.KeysDistinct := by
  constructor
  · intro h
    cases h with
    | array hitems => exact hitems
  · exact .array

theorem keysDistinct_object_iff {entries : Bindings Value} :
    KeysDistinct (.object entries) ↔
      entries.names.Nodup ∧ ∀ entry ∈ entries, entry.2.KeysDistinct := by
  constructor
  · intro h
    cases h with
    | object hnames hentries => exact ⟨hnames, hentries⟩
  · exact fun h => .object h.1 h.2

theorem keysDistinct_array_nil : KeysDistinct (.array []) :=
  .array (by simp)

theorem KeysDistinct.cons {v : Value} {items : List Value} (hv : v.KeysDistinct)
    (h : KeysDistinct (.array items)) : KeysDistinct (.array (v :: items)) :=
  .array (List.forall_mem_cons.2 ⟨hv, keysDistinct_array_iff.1 h⟩)

theorem KeysDistinct.reverse {items : List Value} (h : KeysDistinct (.array items)) :
    KeysDistinct (.array items.reverse) :=
  .array fun v hv => keysDistinct_array_iff.1 h v (List.mem_reverse.1 hv)

theorem keysDistinct_object_nil : KeysDistinct (.object []) :=
  .object List.nodup_nil (by simp)

theorem KeysDistinct.insert {entries : Bindings Value} (h : KeysDistinct (.object entries))
    (key : String) {v : Value} (hv : v.KeysDistinct) :
    KeysDistinct (.object (entries.insert key v)) := by
  obtain ⟨hnames, hentries⟩ := keysDistinct_object_iff.1 h
  have hnames' := Bindings.nodup_insert hnames key v
  refine .object hnames' fun entry hentry => ?_
  have hget := (Bindings.get?_eq_some_iff hnames').2 hentry
  rw [Bindings.get?_insert] at hget
  split at hget
  · exact Option.some.inj hget ▸ hv
  · exact hentries _ ((Bindings.get?_eq_some_iff hnames).1 hget)

def Lexeme.KeysDistinct : Lexeme → Prop
  | .scalar v => v.KeysDistinct
  | _ => True

def OpenPart.KeysDistinct : OpenPart → Prop
  | .array reversed => Value.KeysDistinct (.array reversed)
  | .object entries _ => Value.KeysDistinct (.object entries)

def Expected.KeysDistinct : Expected → Prop
  | .value _ => True
  | .key entries _ => Value.KeysDistinct (.object entries)
  | .colon entries _ => Value.KeysDistinct (.object entries)
  | .separator v => v.KeysDistinct

structure Partial.KeysDistinct (p : Partial) : Prop where
  parts : ∀ part ∈ p.parts, part.KeysDistinct
  expected : p.expected.KeysDistinct

theorem Lexeme.keysDistinct_read {s rest : List Char} {lexeme : Lexeme}
    (h : Lexeme.read? s = some (lexeme, rest)) : lexeme.KeysDistinct := by
  unfold Lexeme.read? at h
  split at h
  case h_7 =>
    obtain ⟨_, _, heq⟩ := Option.map_eq_some_iff.1 h
    cases heq
    trivial
  case h_11 =>
    obtain ⟨_, _, h⟩ := Option.bind_eq_some_iff.1 h
    obtain ⟨_, _, h⟩ := Option.bind_eq_some_iff.1 h
    cases h
    exact .number _
  all_goals
    cases h
    first | trivial | constructor

theorem Lexeme.keysDistinct_readAll {fuel : Nat} {s : List Char} {lexemes : List Lexeme}
    (h : Lexeme.readAll? fuel s = some lexemes) : ∀ lexeme ∈ lexemes, lexeme.KeysDistinct := by
  induction fuel generalizing s lexemes with
  | zero =>
    unfold Lexeme.readAll? at h
    split at h
    · cases h
      simp
    · cases h
  | succ fuel ih =>
    unfold Lexeme.readAll? at h
    split at h
    · cases h
      simp
    · obtain ⟨⟨lexeme, behind⟩, hread, h⟩ := Option.bind_eq_some_iff.1 h
      obtain ⟨others, hothers, h⟩ := Option.bind_eq_some_iff.1 h
      cases h
      exact List.forall_mem_cons.2 ⟨keysDistinct_read hread, ih hothers⟩

/-- One lexeme adds no second entry for a key. -/
theorem Partial.KeysDistinct.push {p p' : Partial} (hp : p.KeysDistinct) {lexeme : Lexeme}
    (hl : lexeme.KeysDistinct) (h : p.push? lexeme = some p') : p'.KeysDistinct := by
  obtain ⟨parts, expected⟩ := p
  obtain ⟨hparts, hexpected⟩ := hp
  unfold Partial.push? at h
  dsimp only at h hparts hexpected
  split at h
  · cases h
    exact ⟨hparts, hl⟩
  · cases h
    exact ⟨hparts, .string _⟩
  · split at h <;> cases h
    exact ⟨List.forall_mem_cons.2 ⟨keysDistinct_array_nil, hparts⟩, trivial⟩
  · split at h <;> cases h
    exact ⟨hparts, keysDistinct_object_nil⟩
  · split at h <;> cases h
    exact ⟨(List.forall_mem_cons.1 hparts).2, keysDistinct_array_nil⟩
  · cases h
    exact ⟨hparts, hexpected⟩
  · cases h
    exact ⟨hparts, keysDistinct_object_nil⟩
  · cases h
    exact ⟨List.forall_mem_cons.2 ⟨hexpected, hparts⟩, trivial⟩
  · split at h <;> cases h
    · obtain ⟨hitems, hrest⟩ := List.forall_mem_cons.1 hparts
      exact ⟨List.forall_mem_cons.2 ⟨hexpected.cons hitems, hrest⟩, trivial⟩
    · obtain ⟨hentries, hrest⟩ := List.forall_mem_cons.1 hparts
      exact ⟨hrest, hentries.insert _ hexpected⟩
  · split at h <;> cases h
    obtain ⟨hitems, hrest⟩ := List.forall_mem_cons.1 hparts
    exact ⟨hrest, (hexpected.cons hitems).reverse⟩
  · split at h <;> cases h
    obtain ⟨hentries, hrest⟩ := List.forall_mem_cons.1 hparts
    exact ⟨hrest, hentries.insert _ hexpected⟩
  · cases h

theorem Partial.KeysDistinct.run {p p' : Partial} (hp : p.KeysDistinct) {lexemes : List Lexeme}
    (hl : ∀ lexeme ∈ lexemes, lexeme.KeysDistinct) (h : lexemes.foldlM Partial.push? p = some p') :
    p'.KeysDistinct := by
  induction lexemes generalizing p with
  | nil =>
    cases h
    exact hp
  | cons lexeme rest ih =>
    obtain ⟨hfirst, hrest⟩ := List.forall_mem_cons.1 hl
    obtain ⟨next, hnext, h⟩ := Option.bind_eq_some_iff.1 h
    exact ih (hp.push hfirst hnext) hrest h

theorem keysDistinct_of_ofText? {s : String} {v : Value} (h : ofText? s = some v) :
    v.KeysDistinct := by
  obtain ⟨lexemes, hlexemes, h⟩ := Option.bind_eq_some_iff.1 h
  obtain ⟨p, hp, h⟩ := Option.bind_eq_some_iff.1 h
  have hstart : Partial.start.KeysDistinct := ⟨by simp [Partial.start], trivial⟩
  have hdistinct := hstart.run (Lexeme.keysDistinct_readAll hlexemes) hp
  unfold Partial.finish? at h
  split at h
  · rename_i v' _ hv'
    cases h
    have hexpected := hdistinct.expected
    rwa [hv'] at hexpected
  · cases h

end PromptLoop.Value
