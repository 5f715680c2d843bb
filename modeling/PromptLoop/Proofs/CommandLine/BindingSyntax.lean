import Mathlib.Data.List.DropRight
import PromptLoop.CommandLine.Arguments
import PromptLoop.Proofs.Bindings
import PromptLoop.Proofs.Value.Opening

set_option autoImplicit false

namespace PromptLoop

namespace Text

theorem splitAll_eq_splitOn (separator : Char) (s : List Char) :
    splitAll separator s = s.splitOn separator := by
  induction s with
  | nil => rfl
  | cons c rest ih =>
    rw [splitAll, ih, List.splitOn_cons_eq_if_modifyHead]
    by_cases hc : c = separator
    · simp [hc]
    · have hb : (c == separator) = false := by simpa using hc
      rw [if_neg hc, hb]
      cases hrest : rest.splitOn separator with
      | nil => exact absurd hrest (List.splitOn_ne_nil _ rest)
      | cons part parts => rfl

theorem splitFirst?_append {separator : Char} {before : List Char} (h : separator ∉ before)
    (after : List Char) :
    splitFirst? separator (before ++ separator :: after) = some (before, after) := by
  induction before with
  | nil => simp [splitFirst?]
  | cons c rest ih =>
    obtain ⟨hc, hrest⟩ := List.ne_and_not_mem_of_not_mem_cons h
    simp [splitFirst?, hc.symm, ih hrest]

section Trim
variable {c : Char} (hc : Unicode.isWhiteSpace c = false) (s t : List Char)
include hc

theorem trimStart_append : trimStart (s ++ c :: t) = trimStart s ++ c :: t := by
  unfold trimStart
  rw [List.dropWhile_append, List.dropWhile_cons_of_neg (by simp [hc])]
  split
  · rename_i hempty
    rw [List.isEmpty_iff.1 hempty, List.nil_append]
  · rfl

theorem trimEnd_append : trimEnd (s ++ c :: t) = s ++ c :: trimEnd t := by
  have h := trimStart_append hc t.reverse s.reverse
  unfold trimStart at h
  unfold trimEnd
  rw [List.reverse_append, List.reverse_cons, List.append_assoc, List.singleton_append, h]
  simp

theorem trim_append : trim (s ++ c :: t) = trimStart s ++ c :: trimEnd t := by
  rw [trim, trimStart_append hc, trimEnd_append hc]

end Trim

theorem trimStart_trimStart (s : List Char) : trimStart (trimStart s) = trimStart s :=
  List.dropWhile_idempotent _ s

theorem trimEnd_trimEnd (s : List Char) : trimEnd (trimEnd s) = trimEnd s := by
  simp [trimEnd, List.dropWhile_idempotent]

/-- It does not matter at which end the white space is removed first. -/
theorem trimStart_trimEnd (s : List Char) : trimStart (trimEnd s) = trimEnd (trimStart s) := by
  have hblank : ∀ c ∈ s.takeWhile Unicode.isWhiteSpace, Unicode.isWhiteSpace c = true :=
    fun c hc => List.mem_takeWhile_imp hc
  have hsplit : s.takeWhile Unicode.isWhiteSpace ++ trimStart s = s := List.takeWhile_append_dropWhile
  have hhead : ∀ c ∈ (trimStart s).head?, Unicode.isWhiteSpace c = false := by
    intro c hc
    have hnot := List.head?_dropWhile_not Unicode.isWhiteSpace s
    rwa [← trimStart, Option.mem_def.1 hc] at hnot
  generalize s.takeWhile Unicode.isWhiteSpace = blanks at hblank hsplit
  generalize trimStart s = body at hsplit hhead ⊢
  subst hsplit
  cases body with
  | nil =>
    have hend : blanks.reverse.dropWhile Unicode.isWhiteSpace = [] :=
      List.dropWhile_eq_nil_iff.2 fun c hc => hblank c (List.mem_reverse.1 hc)
    simp [trimEnd, trimStart, hend]
  | cons c rest =>
    have hc := hhead c rfl
    rw [trimEnd_append hc, trimStart, List.dropWhile_append_of_pos hblank,
      List.dropWhile_cons_of_neg (by simp [hc])]
    exact (trimEnd_append hc [] rest).symm

theorem trim_trimStart (s : List Char) : trim (trimStart s) = trim s := by
  rw [trim, trimStart_trimStart, trim]

theorem trim_trimEnd (s : List Char) : trim (trimEnd s) = trim s := by
  rw [trim, trimStart_trimEnd, trimEnd_trimEnd, trim]

theorem trimStart_of_blanks {s rest : List Char} {c : Char}
    (h : s.dropWhile Value.Lexeme.isBlank = c :: rest) (hc : Unicode.isWhiteSpace c = false) :
    trimStart s = c :: rest := by
  have hblank : ∀ x ∈ s.takeWhile Value.Lexeme.isBlank, Unicode.isWhiteSpace x = true := by
    intro x hx
    have hx := List.mem_takeWhile_imp hx
    simp only [Value.Lexeme.isBlank, Bool.or_eq_true, beq_iff_eq] at hx
    rcases hx with ((rfl | rfl) | rfl) | rfl <;> decide
  have hsplit : s.takeWhile Value.Lexeme.isBlank ++ c :: rest = s :=
    h ▸ List.takeWhile_append_dropWhile
  have hfront : trimStart (s.takeWhile Value.Lexeme.isBlank) = [] :=
    List.dropWhile_eq_nil_iff.2 hblank
  rw [← hsplit, trimStart_append hc, hfront, List.nil_append]

end Text

namespace CommandLine

/-- A binding that is to be written. -/
structure WrittenBinding where
  name : String
  value : String
deriving DecidableEq

namespace WrittenBinding

def pair (b : WrittenBinding) : String :=
  b.name ++ ":" ++ b.value

def single (b : WrittenBinding) : String :=
  b.name ++ "=" ++ b.value

/-- No separator stands in the name or the value, and the name does not look like an object. -/
structure Plain (b : WrittenBinding) : Prop where
  no_comma : ',' ∉ b.name.toList
  no_colon : ':' ∉ b.name.toList
  no_equals : '=' ∉ b.name.toList
  no_brace : (Text.trim b.name.toList).head? ≠ some '\x7b'
  value_no_comma : ',' ∉ b.value.toList

instance (b : WrittenBinding) : Decidable b.Plain :=
  decidable_of_iff (',' ∉ b.name.toList ∧ ':' ∉ b.name.toList ∧ '=' ∉ b.name.toList ∧
      (Text.trim b.name.toList).head? ≠ some '\x7b' ∧ ',' ∉ b.value.toList)
    ⟨fun ⟨h₁, h₂, h₃, h₄, h₅⟩ => ⟨h₁, h₂, h₃, h₄, h₅⟩,
      fun ⟨h₁, h₂, h₃, h₄, h₅⟩ => ⟨h₁, h₂, h₃, h₄, h₅⟩⟩

def isBlank (b : WrittenBinding) : Bool :=
  (Text.trim b.name.toList).isEmpty

def binding (b : WrittenBinding) : String × Value :=
  (String.ofList (Text.trim b.name.toList), boundValue (Text.trim b.value.toList))

end WrittenBinding

/-- The arguments with some bindings written in a list, which is left out if there are none, and
others one by one. -/
def Arguments.writing (a : Arguments) (listed singles : List WrittenBinding) : Arguments :=
  { a with
    bindings :=
      if listed.isEmpty then none
      else some (",".intercalate (listed.map WrittenBinding.pair))
    bind := singles.map WrittenBinding.single }

/-- The options that arguments choose, with the given bindings in place of their own. -/
def Arguments.optionsWith (a : Arguments) (bindings : Bindings Value) : Options :=
  let options : Options := {}
  { options with
    input := (a.file.map InputSource.file).getD options.input
    prompt := a.prompt.getD options.prompt
    continuation := a.continuation.getD options.continuation
    bindings
    colors := if a.noColor then some false else options.colors }

variable {b : WrittenBinding}

theorem namedValue_trimmed (b : WrittenBinding) :
    namedValue b.name.toList b.value.toList =
      if b.isBlank then .error .emptyName else .ok b.binding := by
  unfold namedValue checkedName WrittenBinding.isBlank WrittenBinding.binding
  cases Text.trim b.name.toList <;> rfl

theorem single_reads (h : b.Plain) :
    readBinding b.single = if b.isBlank then .error .emptyName else .ok b.binding := by
  have htext : b.single.toList = b.name.toList ++ '=' :: b.value.toList := by
    simp [WrittenBinding.single]
  unfold readBinding
  rw [htext, Text.splitFirst?_append h.no_equals]
  exact namedValue_trimmed b

theorem pair_reads (h : b.Plain) :
    readPair b.pair.toList = if b.isBlank then .error .emptyName else .ok b.binding := by
  have htext : b.pair.toList = b.name.toList ++ ':' :: b.value.toList := by
    simp [WrittenBinding.pair]
  have hcolon : ':' ∉ Text.trimStart b.name.toList := fun hm =>
    h.no_colon ((List.dropWhile_sublist _).subset hm)
  rw [← namedValue_trimmed b]
  unfold readPair
  rw [htext, Text.trim_append (by decide)]
  dsimp only
  rw [Text.splitFirst?_append hcolon]
  simp only [namedValue, checkedName, Text.trim_trimStart, Text.trim_trimEnd]

/-- A list of bindings is no object, because of the name that it begins with. -/
theorem ofText?_ne_object {text : String} {tail : List Char} (h : b.Plain)
    (htext : text.toList = b.name.toList ++ ':' :: tail) (entries : Bindings Value) :
    Value.ofText? text ≠ some (.object entries) := by
  intro hread
  have hhead := Value.brace_of_read? hread
  obtain ⟨rest, hrest⟩ := List.head?_eq_some_iff.1 hhead
  have htrim := Text.trimStart_of_blanks hrest (by decide)
  rw [htext, Text.trimStart_append (by decide)] at htrim
  cases hname : Text.trimStart b.name.toList with
  | nil =>
    rw [hname] at htrim
    cases htrim
  | cons c name =>
    rw [hname] at htrim
    obtain ⟨rfl, -⟩ := List.cons.inj htrim
    have hend : Text.trimEnd ('\x7b' :: name) = '\x7b' :: Text.trimEnd name :=
      Text.trimEnd_append (by decide) [] name
    refine h.no_brace ?_
    rw [Text.trim, hname, hend]
    rfl

theorem mapM_eq_map {α β ε : Type} {f : α → Except ε β} {g : α → β} {bad : α → Bool} {e : ε}
    {items : List α} (h : ∀ x ∈ items, f x = if bad x then .error e else .ok (g x)) :
    items.mapM f = if items.any bad then .error e else .ok (items.map g) := by
  induction items with
  | nil => rfl
  | cons x rest ih =>
    obtain ⟨hx, hrest⟩ := List.forall_mem_cons.1 h
    rw [List.mapM_cons, hx, ih hrest, List.any_cons]
    cases bad x
    · cases rest.any bad <;> rfl
    · rfl

theorem foldlM_eq_foldl {α β ε : Type} {f : β → α → Except ε β} {g : β → α → β} {bad : α → Bool}
    {e : ε} {items : List α} (h : ∀ x ∈ items, ∀ y, f y x = if bad x then .error e else .ok (g y x))
    (y : β) : items.foldlM f y = if items.any bad then .error e else .ok (items.foldl g y) := by
  induction items generalizing y with
  | nil => rfl
  | cons x rest ih =>
    obtain ⟨hx, hrest⟩ := List.forall_mem_cons.1 h
    rw [List.foldlM_cons, hx, List.any_cons]
    cases bad x
    · exact ih hrest (g y x)
    · rfl

theorem list_reads {listed : List WrittenBinding} (h : ∀ b ∈ listed, b.Plain) (hne : listed ≠ []) :
    readBindings (",".intercalate (listed.map WrittenBinding.pair)) =
      if listed.any WrittenBinding.isBlank then .error .emptyName
      else .ok (Bindings.ofList (listed.map WrittenBinding.binding)) := by
  generalize htext : ",".intercalate (listed.map WrittenBinding.pair) = text
  have hchars : text.toList =
      [','].intercalate (listed.map fun b => b.pair.toList) := by
    rw [← htext, String.toList_intercalate, List.map_map]
    rfl
  have hparts : Text.splitAll ',' text.toList = listed.map fun b => b.pair.toList := by
    rw [Text.splitAll_eq_splitOn, hchars]
    refine List.splitOn_intercalate ',' ?_ (by simpa using hne)
    intro part hpart
    obtain ⟨b, hb, rfl⟩ := List.mem_map.1 hpart
    simp [WrittenBinding.pair, (h b hb).no_comma, (h b hb).value_no_comma]
  obtain ⟨first, rest, rfl⟩ := List.exists_cons_of_ne_nil hne
  have hfirst := h first List.mem_cons_self
  obtain ⟨tail, htail⟩ : ∃ tail, text.toList = first.name.toList ++ ':' :: tail := by
    rw [hchars]
    cases rest with
    | nil => exact ⟨first.value.toList, by simp [WrittenBinding.pair]⟩
    | cons next rest =>
      exact ⟨first.value.toList ++ ',' :: [','].intercalate ((next :: rest).map (·.pair.toList)),
        by simp [WrittenBinding.pair, List.intercalate]⟩
  have hread : readBindings text =
      ((Text.splitAll ',' text.toList).mapM readPair).map Bindings.ofList := by
    unfold readBindings
    rw [if_neg (by rw [htail, Text.trim_append (by decide)]; simp)]
    split
    · rename_i entries hobject
      exact absurd hobject (ofText?_ne_object hfirst htail entries)
    · rfl
  have hpairs := mapM_eq_map (f := fun b : WrittenBinding => readPair b.pair.toList)
    fun b hb => pair_reads (h b hb)
  rw [hread, hparts, List.mapM_map]
  refine (congrArg (Except.map Bindings.ofList) hpairs).trans ?_
  split <;> rfl

theorem foldl_withBinding (entries : List (String × Value)) (o : Options) :
    entries.foldl (fun o entry => o.withBinding entry.1 entry.2) o =
      { o with bindings := o.bindings.extend entries } := by
  induction entries generalizing o with
  | nil => rfl
  | cons entry rest ih => exact ih (o.withBinding entry.1 entry.2)

theorem singles_read {singles : List WrittenBinding} (h : ∀ b ∈ singles, b.Plain) (o : Options) :
    (singles.map WrittenBinding.single).foldlM (fun (o : Options) text => do
        let (name, v) ← readBinding text
        pure (o.withBinding name v)) o =
      if singles.any WrittenBinding.isBlank then .error .emptyName
      else .ok { o with bindings := o.bindings.extend (singles.map WrittenBinding.binding) } := by
  rw [List.foldlM_map, ← foldl_withBinding, List.foldl_map]
  refine foldlM_eq_foldl (fun b hb o => ?_) o
  rw [single_reads (h b hb)]
  split <;> rfl

theorem writing_toOptions (a : Arguments) {listed singles : List WrittenBinding}
    (hl : ∀ b ∈ listed, b.Plain) (hs : ∀ b ∈ singles, b.Plain) :
    (a.writing listed singles).toOptions =
      if (listed ++ singles).any WrittenBinding.isBlank then .error .emptyName
      else .ok (a.optionsWith (Bindings.ofList ((listed ++ singles).map WrittenBinding.binding))) := by
  -- Colours are chosen last, behind the single bindings.
  have hsingles (b : Bindings Value) : ((singles.map WrittenBinding.single).foldlM
      (fun (o : Options) text => do
        let (name, v) ← readBinding text
        pure (o.withBinding name v)) { a.optionsWith b with colors := none }).map
          (fun (o : Options) => if a.noColor then { o with colors := some false } else o) =
      if singles.any WrittenBinding.isBlank then .error .emptyName
      else .ok (a.optionsWith (b.extend (singles.map WrittenBinding.binding))) := by
    rw [singles_read hs]
    cases singles.any WrittenBinding.isBlank
    · cases h : a.noColor <;> simp [Except.map, Arguments.optionsWith, h]
    · rfl
  rw [List.any_append, List.map_append, Bindings.ofList_append]
  by_cases hne : listed = []
  · subst hne
    exact hsingles []
  · have hempty : listed.isEmpty = false := by simpa using hne
    have hlist := list_reads hl hne
    unfold Arguments.toOptions Arguments.writing
    simp only [hempty, Bool.false_eq_true, if_false]
    rw [hlist]
    cases listed.any WrittenBinding.isBlank
    · refine (hsingles (Bindings.extend [] (Bindings.ofList _))).trans ?_
      rw [Bindings.extend_nil_ofList]
      rfl
    · rfl

/-- Whichever of the bindings at the front are written in a list, the outcome is the same: it fails
if some name is blank, and otherwise every name is bound once, in the order of its first binding and
to the value of the last. -/
theorem bindings_agree_however_written (a : Arguments) (written : List WrittenBinding)
    (hplain : ∀ b ∈ written, b.Plain) :
    (∀ listed singles, listed ++ singles = written →
      (a.writing listed singles).toOptions =
        if written.any WrittenBinding.isBlank then .error .emptyName
        else .ok (a.optionsWith (Bindings.ofList (written.map WrittenBinding.binding)))) ∧
    (Bindings.ofList (written.map WrittenBinding.binding)).names =
      (written.map fun b => b.binding.1).eraseDups ∧
    ∀ name, Bindings.get? name (Bindings.ofList (written.map WrittenBinding.binding)) =
      (written.map WrittenBinding.binding).reverse.lookup name := by
  refine ⟨?_, ?_, Bindings.get?_ofList _⟩
  · rintro listed singles rfl
    obtain ⟨hl, hs⟩ := List.forall_mem_append.1 hplain
    exact writing_toOptions a hl hs
  · rw [Bindings.names_ofList, List.map_map]
    rfl

/-- A name with white space around it, and one that is bound again by itself. -/
theorem name_bound_again :
    let written : List WrittenBinding :=
      [⟨"x", "1"⟩, ⟨" y", "two: = 2"⟩, ⟨"x ", "\x7b\"k\":[]\x7d"⟩]
    (∀ b ∈ written, b.Plain) ∧
      (({} : Arguments).writing (written.take 2) (written.drop 2)).toOptions =
        .ok (({} : Arguments).optionsWith
          [("x", .object [("k", .array [])]), ("y", .string "two: = 2")]) := by
  intro written
  have hplain : ∀ b ∈ written, b.Plain := by decide +kernel
  refine ⟨hplain, ?_⟩
  have hagree := (bindings_agree_however_written {} written hplain).1 (written.take 2)
    (written.drop 2) rfl
  have hblank : written.any WrittenBinding.isBlank = false := by decide +kernel
  have hbound : Bindings.ofList (written.map WrittenBinding.binding) =
      [("x", .object [("k", .array [])]), ("y", .string "two: = 2")] := by rfl
  rw [hagree, hblank, hbound]
  rfl

end CommandLine
end PromptLoop
