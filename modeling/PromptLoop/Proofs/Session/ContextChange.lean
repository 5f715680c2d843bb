import PromptLoop.Proofs.Bindings
import PromptLoop.Value

set_option autoImplicit false

namespace PromptLoop

inductive ContextChange where
  | set (name : String) (v : Value)
  | remove (name : String)
  | extend (others : Bindings Value)

namespace ContextChange

def apply (b : Bindings Value) : ContextChange → Bindings Value
  | set name v => b.insert name v
  | remove name => b.erase name
  | extend others => b.extend others

def look (name : String) (before : Option Value) : ContextChange → Option Value
  | set key v => if key = name then some v else before
  | remove key => if key = name then none else before
  | extend others =>
    others.foldl (fun before entry => if entry.1 = name then some entry.2 else before) before

theorem extend_look {b : Bindings Value} (h : b.names.Nodup) (others : Bindings Value) :
    (b.extend others).names.Nodup ∧ ∀ name, Bindings.get? name (b.extend others) =
      look name (Bindings.get? name b) (extend others) := by
  induction others generalizing b with
  | nil => exact ⟨h, fun _ => rfl⟩
  | cons entry rest ih =>
    obtain ⟨hnodup, hlook⟩ := ih (Bindings.nodup_insert h entry.1 entry.2)
    refine ⟨hnodup, fun name => (hlook name).trans ?_⟩
    rw [Bindings.get?_insert]
    rfl

theorem apply_look {b : Bindings Value} (h : b.names.Nodup) (change : ContextChange) :
    (change.apply b).names.Nodup ∧
      ∀ name, Bindings.get? name (change.apply b) = change.look name (Bindings.get? name b) := by
  cases change with
  | set key v => exact ⟨Bindings.nodup_insert h key v, fun name => Bindings.get?_insert b key name v⟩
  | extend others => exact extend_look h others
  | remove key =>
    refine ⟨Bindings.nodup_erase h key, fun name => ?_⟩
    change Bindings.get? name (b.erase key) = _
    rw [Bindings.get?_erase h]
    by_cases hk : key = name
    · simp [look, hk]
    · simp [look, hk, Ne.symm hk]

/-- What becomes of a name under several changes is decided by the changes that concern it. -/
theorem foldl_apply_look {b : Bindings Value} (h : b.names.Nodup) (changes : List ContextChange)
    (name : String) : Bindings.get? name (changes.foldl apply b) =
      changes.foldl (look name) (Bindings.get? name b) := by
  induction changes generalizing b with
  | nil => rfl
  | cons change rest ih =>
    obtain ⟨hnodup, hlook⟩ := change.apply_look h
    rw [List.foldl_cons, List.foldl_cons, ih hnodup, hlook]

end ContextChange
end PromptLoop
