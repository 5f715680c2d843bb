import PromptLoop.Proofs.Script.Acceptance
import PromptLoop.Proofs.Script.DisplayTokens

set_option autoImplicit false

namespace PromptLoop

open Script

def Number.tree (n : Number) : Expr :=
  if n.isNegative then .unary .negate (.literal (.ofBinary64? n.magnitude?))
  else .literal (.ofBinary64? n.magnitude?)

namespace Value

mutual

/-- What the display of a value parses to. -/
def tree : Value → Expr
  | .null => .literal .null
  | .bool b => .literal (.bool b)
  | .number n => n.tree
  | .string s => .literal (.string (rereadText s))
  | .array items => .array (itemTrees items)
  | .object entries => .object (entryTrees entries)
termination_by structural v => v

def itemTrees : List Value → List Expr
  | [] => []
  | item :: rest => tree item :: itemTrees rest
termination_by structural items => items

def entryTrees : List (String × Value) → List (String × Expr)
  | [] => []
  | entry :: rest => entryTree entry :: entryTrees rest
termination_by structural entries => entries

def entryTree : String × Value → String × Expr
  | (key, value) => (rereadText key, tree value)
termination_by structural entry => entry

end

end Value

namespace Script

/-- The tokens lead to a fragment of which `P` holds where the limit suffices, and exceed it where
it does not. -/
structure Settles (limit : Nat) (f : Fragment) (tokens : List Token) (enough : Prop)
    (P : Fragment → Prop) : Prop where
  reads : enough → ∃ g, Reads limit f tokens g ∧ P g
  exceeded : ¬ enough → tokens.foldlM (Fragment.push limit) f = .error .tooDeep

namespace Settles
variable {limit : Nat} {purpose : Purpose} {frames : List Frame} {f g : Fragment}
  {tokens back : List Token} {t : Token} {p q : Prop} {P Q : Fragment → Prop}

theorem nil (h : P f) (hp : p) : Settles limit f [] p P :=
  ⟨fun _ => ⟨f, .nil, h⟩, fun hn => absurd hp hn⟩

theorem iff (h : Settles limit f tokens p P) (hpq : p ↔ q) : Settles limit f tokens q P :=
  ⟨fun hq => h.reads (hpq.2 hq), fun hq => h.exceeded fun hp => hq (hpq.1 hp)⟩

theorem of_push_eq (heq : Fragment.push limit f t = Fragment.push limit g t)
    (h : Settles limit g (t :: tokens) p P) : Settles limit f (t :: tokens) p P where
  reads hp := by
    obtain ⟨k, hreads, hk⟩ := h.reads hp
    exact ⟨k, .of_push_eq heq hreads, hk⟩
  exceeded hn := by
    have he := h.exceeded hn
    rw [List.foldlM_cons] at he ⊢
    rw [heq]
    exact he

theorem cons (hpush : Fragment.push limit f t = .ok g) (h : Settles limit g tokens p P) :
    Settles limit f (t :: tokens) p P where
  reads hp := by
    obtain ⟨k, hreads, hk⟩ := h.reads hp
    exact ⟨k, .cons hpush hreads, hk⟩
  exceeded hn := by
    rw [List.foldlM_cons, hpush]
    exact h.exceeded hn

theorem enter (hpush : Fragment.push limit f t = Fragment.enter limit purpose frames .operand)
    (h : depth frames ≤ limit → Settles limit (.inside purpose frames .operand) tokens p P)
    (hp : p → depth frames ≤ limit) : Settles limit f (t :: tokens) p P := by
  by_cases hd : depth frames ≤ limit
  · exact .cons (hpush.trans (if_pos hd)) (h hd)
  · refine ⟨fun hn => absurd (hp hn) hd, fun _ => ?_⟩
    rw [List.foldlM_cons, hpush.trans (if_neg hd)]
    rfl

theorem append (h : Settles limit f tokens p P)
    (hback : ∀ g, P g → Settles limit g back q Q) : Settles limit f (tokens ++ back) (p ∧ q) Q := by
  by_cases hp : p
  · obtain ⟨g, hreads, hg⟩ := h.reads hp
    refine ⟨fun hpq => ?_, fun hn => ?_⟩
    · obtain ⟨k, hmore, hk⟩ := (hback g hg).reads hpq.2
      exact ⟨k, hreads.append hmore, hk⟩
    · unfold Reads at hreads
      rw [List.foldlM_append, hreads]
      exact (hback g hg).exceeded fun hq => hn ⟨hp, hq⟩
  · refine ⟨fun hpq => absurd hpq.1 hp, fun _ => ?_⟩
    rw [List.foldlM_append, h.exceeded hp]
    rfl

theorem imp (h : Settles limit f tokens p P) (hpq : ∀ g, P g → Q g) :
    Settles limit f tokens p Q where
  reads hp := by
    obtain ⟨g, hreads, hg⟩ := h.reads hp
    exact ⟨g, hreads, hpq g hg⟩
  exceeded := h.exceeded

theorem item {kind : ListKind} {reversed : List Expr} (ht : t ≠ .symbol kind.close)
    (h : depth (.item kind reversed :: frames) ≤ limit →
      Settles limit (.inside purpose (.item kind reversed :: frames) .operand) (t :: tokens) p P)
    (hp : p → depth (.item kind reversed :: frames) ≤ limit) :
    Settles limit (.inside purpose frames (.item kind reversed)) (t :: tokens) p P := by
  have hpush : Fragment.push limit (.inside purpose frames (.item kind reversed)) t =
      (Fragment.enter limit purpose (.item kind reversed :: frames) .operand).bind fun _ =>
        Fragment.pushOperand limit purpose (.item kind reversed :: frames) t :=
    (push_inside (by simp) t).trans (if_neg ht)
  by_cases hd : depth (.item kind reversed :: frames) ≤ limit
  · have henter : Fragment.enter limit purpose (.item kind reversed :: frames) .operand = .ok _ :=
      if_pos hd
    have hoperand :
        Fragment.push limit (.inside purpose (.item kind reversed :: frames) .operand) t =
          Fragment.pushOperand limit purpose (.item kind reversed :: frames) t :=
      push_inside (by simp) t
    rw [henter] at hpush
    exact .of_push_eq (hpush.trans hoperand.symm) (h hd)
  · have henter : Fragment.enter limit purpose (.item kind reversed :: frames) .operand =
        .error .tooDeep := if_neg hd
    rw [henter] at hpush
    refine ⟨fun hn => absurd (hp hn) hd, fun _ => ?_⟩
    rw [List.foldlM_cons, hpush]
    rfl

end Settles

theorem Held.loosest {purpose : Purpose} {level : Nat} {e : Expr} {frames : List Frame}
    {f : Fragment} (h : Held purpose level e frames f) : Held purpose 0 e frames f := by
  induction level with
  | zero => exact h
  | succ level ih => exact ih h.tighter

theorem rereadText_word {w : String} (h : isWord w.toList = true) : rereadText w = w := by
  have hpart : ∀ c ∈ w.toList, isWordPart c = true := by
    cases hw : w.toList with
    | nil => simp
    | cons c rest =>
      rw [hw, isWord, Bool.and_eq_true] at h
      refine List.forall_mem_cons.2 ⟨?_, List.all_eq_true.1 h.2⟩
      have hstart := h.1
      unfold isWordStart at hstart
      unfold isWordPart
      simp only [Bool.or_eq_true] at hstart ⊢
      exact hstart.imp_left (·.imp_left .inl)
  refine rereadText_of_legible ⟨fun hb => ?_, fun hf => ?_⟩
  · exact absurd (hpart _ hb) (by decide +kernel)
  · exact absurd (hpart _ hf) (by decide +kernel)

theorem keyToken_spells (key : String) : KeyToken (keyToken key) (rereadText key) := by
  unfold keyToken
  split
  · rename_i hword
    rw [rereadText_word hword]
    exact .word key
  · exact .string _

theorem tokens_eq_cons (v : Value) :
    ∃ t rest, v.tokens = t :: rest ∧ t ≠ .symbol .closeBracket := by
  cases v with
  | number n =>
    unfold Value.tokens Number.tokens
    split <;> exact ⟨_, _, rfl, by simp⟩
  | array items => cases items <;> exact ⟨_, _, rfl, by simp⟩
  | object entries => cases entries <;> exact ⟨_, _, rfl, by simp⟩
  | _ => exact ⟨_, _, rfl, by simp⟩

section Parsing
variable {limit : Nat} {purpose : Purpose} {frames : List Frame}

theorem push_key {reversed : List (String × Expr)} {t : Token} {key : String}
    (h : KeyToken t key) : Fragment.push limit (.inside purpose frames (.key reversed)) t =
      .ok (.inside purpose frames (.colon reversed key)) := by
  rw [push_inside (by simp)]
  cases h <;> rfl

theorem held_operand (e : Expr) :
    Held purpose 0 e frames (.inside purpose frames (.afterOperand e 0)) :=
  (Held.leaf (Nat.le_refl 6) e 0).loosest

theorem settles_leaf (e : Expr) (hd : depth frames ≤ limit) :
    Settles limit (.inside purpose frames (.afterOperand e 0)) [] (depth frames ≤ limit)
      (Held purpose 0 e frames) :=
  .nil (held_operand e) hd

theorem settles_literal {t : Token} {v : Value} (hd : depth frames ≤ limit)
    (hpush : Fragment.push limit (.inside purpose frames .operand) t =
      .ok (.inside purpose frames (.afterOperand (.literal v) 0))) :
    Settles limit (.inside purpose frames .operand) [t]
      (depth frames + (Expr.literal v).height ≤ limit) (Held purpose 0 (.literal v) frames) :=
  .cons hpush (settles_leaf _ hd)

theorem settles_number (n : Number) (hd : depth frames ≤ limit) :
    Settles limit (.inside purpose frames .operand) n.tokens
      (depth frames + n.tree.height ≤ limit) (Held purpose 0 n.tree frames) := by
  have hliteral (frames : List Frame) : Fragment.push limit (.inside purpose frames .operand)
      (.number n.magnitude?) =
        .ok (.inside purpose frames (.afterOperand (.literal (.ofBinary64? n.magnitude?)) 0)) :=
    push_inside (by simp) _
  unfold Number.tokens Number.tree
  split
  · have hminus : Fragment.push limit (.inside purpose frames .operand) (.symbol .minus) =
        Fragment.enter limit purpose (.unary .negate :: frames) .operand := push_inside (by simp) _
    have hheight : depth frames + (Expr.unary .negate
        (.literal (.ofBinary64? n.magnitude?))).height = depth (.unary .negate :: frames) := rfl
    rw [hheight]
    have hheld : Held purpose 6 (.unary .negate (.literal (.ofBinary64? n.magnitude?))) frames
        (.inside purpose (.unary .negate :: frames)
          (.afterOperand (.literal (.ofBinary64? n.magnitude?)) 0)) :=
      ⟨rfl, (Complete.refl (Nat.le_refl 6)).unary⟩
    exact .enter hminus (fun hle => .cons (hliteral _) (.nil hheld.loosest hle)) id
  · exact settles_literal hd (hliteral frames)

theorem settles_item (purpose : Purpose) (frames : List Frame) (reversed : List Expr) {v : Value}
    (h : depth (.item .array reversed :: frames) ≤ limit →
      Settles limit (.inside purpose (.item .array reversed :: frames) .operand) v.tokens
        (depth (.item .array reversed :: frames) + v.tree.height ≤ limit)
        (Held purpose 0 v.tree (.item .array reversed :: frames))) :
    Settles limit (.inside purpose frames (.item .array reversed)) v.tokens
      (depth frames + (v.tree.height + 1) ≤ limit)
      (Held purpose 0 v.tree (.item .array reversed :: frames)) := by
  have hdepth : depth (.item .array reversed :: frames) = depth frames + 1 := rfl
  obtain ⟨t, rest, htokens, ht⟩ := tokens_eq_cons v
  rw [htokens] at h ⊢
  refine (Settles.item ht h ?_).iff ?_ <;> omega

theorem settles_entry (reversed : List (String × Expr)) (key : String) {v : Value}
    (h : depth (.entry reversed (rereadText key) :: frames) ≤ limit →
      Settles limit (.inside purpose (.entry reversed (rereadText key) :: frames) .operand)
        v.tokens (depth (.entry reversed (rereadText key) :: frames) + v.tree.height ≤ limit)
        (Held purpose 0 v.tree (.entry reversed (rereadText key) :: frames))) :
    Settles limit (.inside purpose frames (.key reversed)) (Value.entryTokens (key, v))
      (depth frames + (v.tree.height + 1) ≤ limit)
      (Held purpose 0 v.tree (.entry reversed (rereadText key) :: frames)) := by
  have hdepth : depth (.entry reversed (rereadText key) :: frames) = depth frames + 1 := rfl
  have hcolon : Fragment.push limit (.inside purpose frames (.colon reversed (rereadText key)))
      (.symbol .colon) =
        Fragment.enter limit purpose (.entry reversed (rereadText key) :: frames) .operand :=
    push_inside (by simp) _
  refine .cons (push_key (keyToken_spells key)) ((Settles.enter hcolon h ?_).iff ?_) <;> omega

mutual

/-- The tokens of a value are read as its tree, unless the tree is too high. What is open around the
value stays as it is, and counts its levels. -/
theorem value_settles (v : Value) (purpose : Purpose) (frames : List Frame)
    (hd : depth frames ≤ limit) :
    Settles limit (.inside purpose frames .operand) v.tokens
      (depth frames + v.tree.height ≤ limit) (Held purpose 0 v.tree frames) := by
  cases v with
  | null => exact settles_literal hd (push_inside (by simp) _)
  | bool b => cases b <;> exact settles_literal hd (push_inside (by simp) _)
  | number n => exact settles_number n hd
  | string s => exact settles_literal hd (push_inside (by simp) _)
  | array items =>
    have hopen : Fragment.push limit (.inside purpose frames .operand) (.symbol .openBracket) =
        .ok (.inside purpose frames (.item .array [])) := push_inside (by simp) _
    cases items with
    | nil => exact .cons hopen (.cons (push_item_close _ _ _ .array []) (settles_leaf _ hd))
    | cons item rest =>
      refine .cons hopen ?_
      have hitem := settles_item purpose frames [] (value_settles item _ _)
      have hrest := hitem.append fun g hg => items_settle rest hd hg
      rw [← List.append_assoc] at hrest
      refine (hrest.iff ?_).imp ?_
      · simp only [Value.tree, Value.itemTrees, Expr.height, itemsHeight]
        omega
      · rintro g rfl
        exact held_operand _
  | object entries =>
    have hopen : Fragment.push limit (.inside purpose frames .operand) (.symbol .openBrace) =
        .ok (.inside purpose frames (.key [])) := push_inside (by simp) _
    cases entries with
    | nil => exact .cons hopen (.cons (push_inside (by simp) _) (settles_leaf _ hd))
    | cons entry rest =>
      refine .cons hopen ?_
      have hrest := (entry_settles entry purpose frames []).append fun g hg =>
        entries_settle rest hd hg
      rw [← List.append_assoc] at hrest
      refine (hrest.iff ?_).imp ?_
      · simp only [Value.tree, Value.entryTrees, Expr.height, entriesHeight]
        omega
      · rintro g rfl
        exact held_operand _
termination_by structural v

theorem items_settle (items : List Value) {purpose : Purpose} {frames : List Frame}
    {reversed : List Expr} {e : Expr} {g : Fragment} (hd : depth frames ≤ limit)
    (hg : Held purpose 0 e (.item .array reversed :: frames) g) :
    Settles limit g (Value.moreTokens items ++ [.symbol .closeBracket])
      (depth frames + itemsHeight (Value.itemTrees items) ≤ limit)
      (· = .inside purpose frames (.afterOperand
        (.array (reversed.reverse ++ e :: Value.itemTrees items)) 0)) := by
  cases items with
  | nil =>
    have hclose : Fragment.push limit g (.symbol .closeBracket) =
        .ok (.inside purpose frames (.afterOperand (.array (e :: reversed).reverse) 0)) :=
      hg.push_end (by simp)
    refine .cons hclose (.nil ?_ hd)
    rw [List.reverse_cons]
    rfl
  | cons item rest =>
    -- The comma completes `e`, which joins the items in front.
    have hcomma : Fragment.push limit g (.symbol .comma) =
        .ok (.inside purpose frames (.item .array (e :: reversed))) := hg.push_end (by simp)
    have hitem := settles_item purpose frames (e :: reversed) (value_settles item _ _)
    have hrest := hitem.append fun g hg => items_settle rest hd hg
    rw [← List.append_assoc] at hrest
    refine .cons hcomma ((hrest.iff ?_).imp ?_)
    · simp only [Value.itemTrees, itemsHeight]
      omega
    · rintro g rfl
      simp [Value.itemTrees]
termination_by structural items

theorem entry_settles (entry : String × Value) (purpose : Purpose) (frames : List Frame)
    (reversed : List (String × Expr)) :
    Settles limit (.inside purpose frames (.key reversed)) (Value.entryTokens entry)
      (depth frames + (entryHeight (Value.entryTree entry) + 1) ≤ limit)
      (Held purpose 0 (Value.entryTree entry).2
        (.entry reversed (Value.entryTree entry).1 :: frames)) := by
  cases entry with
  | mk key v => exact settles_entry reversed key (value_settles v _ _)
termination_by structural entry

theorem entries_settle (entries : List (String × Value)) {purpose : Purpose}
    {frames : List Frame} {reversed : List (String × Expr)} {key : String} {e : Expr}
    {g : Fragment} (hd : depth frames ≤ limit)
    (hg : Held purpose 0 e (.entry reversed key :: frames) g) :
    Settles limit g (Value.moreEntryTokens entries ++ [.symbol .closeBrace])
      (depth frames + entriesHeight (Value.entryTrees entries) ≤ limit)
      (· = .inside purpose frames (.afterOperand
        (.object (reversed.reverse ++ (key, e) :: Value.entryTrees entries)) 0)) := by
  cases entries with
  | nil =>
    refine .cons (hg.push_end (by simp)) (.nil ?_ hd)
    rw [List.reverse_cons]
    rfl
  | cons entry rest =>
    have hcomma : Fragment.push limit g (.symbol .comma) =
        .ok (.inside purpose frames (.key ((key, e) :: reversed))) := hg.push_end (by simp)
    have hrest := (entry_settles entry purpose frames ((key, e) :: reversed)).append fun g hg =>
      entries_settle rest hd hg
    rw [← List.append_assoc] at hrest
    refine .cons hcomma ((hrest.iff ?_).imp ?_)
    · simp only [Value.entryTrees, entriesHeight]
      omega
    · rintro g rfl
      simp [Value.entryTrees]
termination_by structural entries

end

theorem settles_start (hl : 0 < limit) {t : Token} {rest : List Token} {e : Expr} {p : Prop}
    (h : Settles limit (.inside .result [] .operand) (t :: rest) p (Held .result 0 e []))
    (hw : ∀ w, t ≠ .word w) (hs : t ≠ .symbol .semicolon) :
    Settles limit .start (t :: rest) p (Concludes limit (.expr e)) :=
  (h.of_push_eq (push_start hl hw hs)).imp fun _ hg => hg.concludes

theorem value_settles_start (v : Value) (hl : 0 < limit) :
    Settles limit .start v.tokens (v.tree.height < limit) (Concludes limit (.expr v.tree)) := by
  have hkeyword {w : String} {v : Value}
      (hpush : Fragment.push limit .start (.word w) = .ok (.keyword v)) :
      Settles limit .start [.word w] (0 < limit) (Concludes limit (.expr (.literal v))) :=
    .cons hpush (.nil ⟨rfl, rfl⟩ hl)
  have hdepth : depth [] + v.tree.height ≤ limit ↔ v.tree.height < limit := by
    rw [Nat.add_comm]
    exact Iff.rfl
  have hvalue := (value_settles v .result [] hl).iff hdepth
  cases v with
  | null => exact hkeyword rfl
  | bool b => cases b <;> exact hkeyword rfl
  | number n =>
    by_cases hn : n.isNegative = true
    · have htokens : (Value.number n).tokens = [.symbol .minus, .number n.magnitude?] := if_pos hn
      rw [htokens] at hvalue ⊢
      exact settles_start hl hvalue (by simp) (by simp)
    · have htokens : (Value.number n).tokens = [.number n.magnitude?] := if_neg hn
      rw [htokens] at hvalue ⊢
      exact settles_start hl hvalue (by simp) (by simp)
  | string s => exact settles_start hl hvalue (by simp) (by simp)
  | array items => cases items <;> exact settles_start hl hvalue (by simp) (by simp)
  | object entries => cases entries <;> exact settles_start hl hvalue (by simp) (by simp)

end Parsing

/-- The display of a value parses to its tree, unless that is higher than the limit allows. -/
theorem parse_display {v : Value} (hv : v.Plain) : Statement.parse (v.display false) =
    if v.tree.height < maxDepth then .ok (.expr v.tree) else .error (.malformed .tooDeep) := by
  have hsettles := value_settles_start v (show 0 < maxDepth by decide)
  unfold Statement.parse Statement.ofTokens Statement.ofTokensWithin
  simp only [scan_display hv]
  by_cases hheight : v.tree.height < maxDepth
  · obtain ⟨g, hreads, hg⟩ := hsettles.reads hheight
    unfold Reads at hreads
    rw [if_pos hheight, hreads]
    exact hg.1
  · rw [if_neg hheight, hsettles.exceeded hheight]

end Script
end PromptLoop
