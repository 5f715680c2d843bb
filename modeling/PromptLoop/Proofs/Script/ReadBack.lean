import PromptLoop.Proofs.Bindings
import PromptLoop.Proofs.Script.DisplayTree

set_option autoImplicit false

namespace PromptLoop

open Script

namespace Value

mutual

/-- What the display of a value evaluates to. Keys that are read as the same are one key. -/
def reread : Value → Value
  | .string s => .string (rereadText s)
  | .array items => .array (rereadItems items)
  | .object entries => .object (Bindings.ofList (rereadEntries entries))
  | .null => .null
  | .bool b => .bool b
  | .number n => .number n
termination_by structural v => v

def rereadItems : List Value → List Value
  | [] => []
  | item :: rest => reread item :: rereadItems rest
termination_by structural items => items

def rereadEntries : List (String × Value) → List (String × Value)
  | [] => []
  | entry :: rest => rereadEntry entry :: rereadEntries rest
termination_by structural entries => entries

def rereadEntry : String × Value → String × Value
  | (key, value) => (rereadText key, reread value)
termination_by structural entry => entry

end

end Value

namespace Script

section Evaluation
variable (scope : Bindings Value)

theorem evalWithin_number {n : Int} (d : Nat) (hn : n.natAbs ≤ Number.maxExact) :
    (Number.integer n).tree.evalWithin none scope d = .ok (.number (.integer n)) := by
  obtain ⟨x, hx, hread⟩ := Binary64.ofDecimal?_natural hn
  have hliteral : Value.ofBinary64? (Number.integer n).magnitude? =
      .number (.integer n.natAbs) := by
    have hmagnitude : (Number.integer n).magnitude? = some x := hx
    rw [hmagnitude]
    exact congrArg Value.number hread
  unfold Number.tree
  rw [hliteral]
  by_cases hneg : n < 0
  · have hnegate : UnaryOp.negate.apply (.number (.integer n.natAbs)) =
        .ok (.number (.integer n)) := by
      have hback : -(n.natAbs : Int) = n := by omega
      have hof := Binary64.ofBinary64_neg_ofInt hn
      rw [hback] at hof
      exact congrArg (fun m => Except.ok (Value.number m)) hof
    have hsign : (Number.integer n).isNegative = true := decide_eq_true hneg
    rw [if_pos hsign]
    simp only [Expr.evalWithin, beyond_none, Bool.false_eq_true, if_false, Timed.bind_eq,
      Timed.bind_ok, hnegate]
    rfl
  · have hsame : (n.natAbs : Int) = n := by omega
    have hsign : ¬ (Number.integer n).isNegative = true := by simpa [Number.isNegative] using hneg
    rw [if_neg hsign, hsame]
    rfl

mutual

theorem evalWithin_tree (v : Value) (d : Nat) (hv : v.Plain) :
    v.tree.evalWithin none scope d = .ok v.reread := by
  cases v with
  | null => rfl
  | bool b => rfl
  | number n =>
    cases n with
    | integer n => exact evalWithin_number scope d hv
    | real x => exact hv.elim
  | string s => rfl
  | array items =>
    have hitems := evalItems_trees items (d + 1) hv
    simp only [Value.tree, Expr.evalWithin, beyond_none, Bool.false_eq_true, if_false, hitems,
      Timed.bind_eq, Timed.bind_ok]
    rfl
  | object entries =>
    have hentries := evalEntries_trees entries (d + 1) hv.2
    simp only [Value.tree, Expr.evalWithin, beyond_none, Bool.false_eq_true, if_false, hentries,
      Timed.bind_eq, Timed.bind_ok]
    rfl
termination_by structural v

theorem evalItems_trees (items : List Value) (d : Nat) (hv : Value.PlainItems items) :
    evalItems none scope (Value.itemTrees items) d = .ok (Value.rereadItems items) := by
  cases items with
  | nil => rfl
  | cons item rest =>
    simp only [Value.itemTrees, evalItems, evalWithin_tree item d hv.1,
      evalItems_trees rest d hv.2, Timed.bind_eq, Timed.bind_ok]
    rfl
termination_by structural items

theorem evalEntries_trees (entries : List (String × Value)) (d : Nat)
    (hv : Value.PlainEntries entries) :
    evalEntries none scope (Value.entryTrees entries) d = .ok (Value.rereadEntries entries) := by
  cases entries with
  | nil => rfl
  | cons entry rest =>
    simp only [Value.entryTrees, evalEntries, evalEntry_tree entry d hv.1,
      evalEntries_trees rest d hv.2, Timed.bind_eq, Timed.bind_ok]
    rfl
termination_by structural entries

theorem evalEntry_tree (entry : String × Value) (d : Nat) (hv : Value.PlainEntry entry) :
    evalEntry none scope (Value.entryTree entry) d = .ok (Value.rereadEntry entry) := by
  cases entry with
  | mk key value =>
    simp only [Value.entryTree, evalEntry, evalWithin_tree value d hv, Timed.bind_eq,
      Timed.bind_ok]
    rfl
termination_by structural entry

end

end Evaluation

/-- Where the tree is within the limit, it comes to the value as it is read back. -/
theorem eval_tree {v : Value} (hv : v.Plain) (h : v.tree.height < maxDepth)
    (scope : Bindings Value) : v.tree.eval scope = .ok v.reread := by
  have hreach := v.tree.reach_le_height scope
  have hlimited := Expr.evalWithin_limited scope maxDepth v.tree 0
  rw [evalWithin_tree scope v 0 hv] at hlimited
  exact hlimited.same (by omega)

end Script

namespace Value

mutual

def Legible : Value → Prop
  | .string s => LegibleText s
  | .array items => LegibleItems items
  | .object entries => LegibleEntries entries
  | .null => True
  | .bool _ => True
  | .number _ => True
termination_by structural v => v

def LegibleItems : List Value → Prop
  | [] => True
  | item :: rest => Legible item ∧ LegibleItems rest
termination_by structural items => items

def LegibleEntries : List (String × Value) → Prop
  | [] => True
  | entry :: rest => LegibleEntry entry ∧ LegibleEntries rest
termination_by structural entries => entries

def LegibleEntry : String × Value → Prop
  | (key, value) => LegibleText key ∧ Legible value
termination_by structural entry => entry

end

theorem legibleEntries_iff {entries : List (String × Value)} :
    LegibleEntries entries ↔ ∀ entry ∈ entries, LegibleEntry entry := by
  induction entries with
  | nil => simp [LegibleEntries]
  | cons entry rest ih => simp [LegibleEntries, ih]

mutual

theorem reread_legible (v : Value) : v.reread.Legible := by
  cases v with
  | string s => exact rereadText_legible s
  | array items => exact rereadItems_legible items
  | object entries =>
    have hentries := legibleEntries_iff.1 (rereadEntries_legible entries)
    refine legibleEntries_iff.2 fun entry h => ?_
    exact (Bindings.mem_of_mem_extend h).elim (fun h => absurd h List.not_mem_nil) (hentries entry)
  | _ => trivial
termination_by structural v

theorem rereadItems_legible (items : List Value) : LegibleItems (rereadItems items) := by
  cases items with
  | nil => trivial
  | cons item rest => exact ⟨reread_legible item, rereadItems_legible rest⟩
termination_by structural items

theorem rereadEntries_legible (entries : List (String × Value)) :
    LegibleEntries (rereadEntries entries) := by
  cases entries with
  | nil => trivial
  | cons entry rest => exact ⟨rereadEntry_legible entry, rereadEntries_legible rest⟩
termination_by structural entries

theorem rereadEntry_legible (entry : String × Value) : LegibleEntry (rereadEntry entry) := by
  cases entry with
  | mk key value => exact ⟨rereadText_legible key, reread_legible value⟩
termination_by structural entry

end

mutual

theorem reread_of_legible (v : Value) (hv : v.Plain) (h : v.Legible) : v.reread = v := by
  cases v with
  | string s => exact congrArg Value.string (rereadText_of_legible h)
  | array items => exact congrArg Value.array (rereadItems_of_legible items hv h)
  | object entries =>
    have hsame := rereadEntries_of_legible entries hv.2 h
    refine congrArg Value.object ?_
    rw [hsame]
    exact Bindings.ofList_of_nodup hv.1
  | _ => rfl
termination_by structural v

theorem rereadItems_of_legible (items : List Value) (hv : PlainItems items)
    (h : LegibleItems items) : rereadItems items = items := by
  cases items with
  | nil => rfl
  | cons item rest =>
    exact congrArg₂ List.cons (reread_of_legible item hv.1 h.1)
      (rereadItems_of_legible rest hv.2 h.2)
termination_by structural items

theorem rereadEntries_of_legible (entries : List (String × Value)) (hv : PlainEntries entries)
    (h : LegibleEntries entries) : rereadEntries entries = entries := by
  cases entries with
  | nil => rfl
  | cons entry rest =>
    exact congrArg₂ List.cons (rereadEntry_of_legible entry hv.1 h.1)
      (rereadEntries_of_legible rest hv.2 h.2)
termination_by structural entries

theorem rereadEntry_of_legible (entry : String × Value) (hv : PlainEntry entry)
    (h : LegibleEntry entry) : rereadEntry entry = entry := by
  cases entry with
  | mk key value =>
    exact congrArg₂ Prod.mk (rereadText_of_legible h.1) (reread_of_legible value hv h.2)
termination_by structural entry

end

theorem reread_eq_iff {v : Value} (hv : v.Plain) : v.reread = v ↔ v.Legible :=
  ⟨fun h => h ▸ reread_legible v, reread_of_legible v hv⟩

end Value
namespace Script

theorem displayed_value_reads_back {v : Value} (hv : v.Plain) :
    (Statement.parse (v.displayText false).toList ≠ .error (.malformed .tooDeep) →
      ∃ e, Statement.parse (v.displayText false).toList = .ok (.expr e) ∧
        ∀ scope, e.eval scope = .ok v.reread ∧ (e.eval scope = .ok v ↔ v.Legible)) ∧
    (Statement.parse (v.displayText false).toList = .error (.malformed .tooDeep) ↔
      maxDepth ≤ v.tree.height) := by
  unfold Value.displayText
  rw [String.toList_ofList, parse_display hv]
  by_cases h : v.tree.height < maxDepth
  · rw [if_pos h]
    refine ⟨fun _ => ⟨v.tree, rfl, fun scope => ⟨eval_tree hv h scope, ?_⟩⟩, ?_⟩
    · rw [eval_tree hv h, ← Value.reread_eq_iff hv]
      simp [Timed.ok]
    · simpa using h
  · rw [if_neg h]
    exact ⟨fun hn => absurd rfl hn, fun _ => Nat.not_lt.1 h, fun _ => rfl⟩

theorem nested_value_reads_back :
    let v := Value.array
      [.string "\"\n", .number (.integer (-3)), .object [("let", .null), ("0", .bool true)]]
    v.Plain ∧ ∃ e, Statement.parse (v.displayText false).toList = .ok (.expr e) ∧
      ∀ scope, e.eval scope = .ok v := by
  intro v
  have hexact : (-3 : Int).natAbs ≤ Number.maxExact := by decide
  have hplain : v.Plain :=
    ⟨trivial, hexact, ⟨by decide, trivial, trivial, trivial⟩, trivial⟩
  have htext : LegibleText "\"\n" ∧ LegibleText "let" ∧ LegibleText "0" := by decide
  have hlegible : v.Legible :=
    ⟨htext.1, trivial, ⟨⟨htext.2.1, trivial⟩, ⟨htext.2.2, trivial⟩, trivial⟩, trivial⟩
  obtain ⟨hreads, hdeep⟩ := displayed_value_reads_back hplain
  have hheight : ¬ maxDepth ≤ v.tree.height := by decide
  obtain ⟨e, hparse, heval⟩ := hreads fun h => hheight (hdeep.1 h)
  exact ⟨hplain, e, hparse, fun scope => (heval scope).2.2 hlegible⟩

theorem backspace_reads_as_letter :
    (Value.string "\x08").Plain ∧
      Statement.parse ((Value.string "\x08").displayText false).toList =
        .ok (.expr (.literal (.string "b"))) ∧
      (Expr.literal (.string "b")).eval [] ≠ .ok (.string "\x08") := by
  refine ⟨trivial, rfl, ?_⟩
  simp [Expr.eval, Expr.evalWithin, beyond, Timed.ok]

end Script
end PromptLoop
