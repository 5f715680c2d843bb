import Mathlib.Tactic.SplitIfs
import PromptLoop.Proofs.Script.NestingDepth
import PromptLoop.Proofs.Script.Reading

set_option autoImplicit false

/-!
# The grammar of units

`Derives` says which tokens stand for which tree, level by level and without a parser: levels 0 to
5 are those of the operators between operands, level 6 adds the prefix operators, level 7 the
postfix steps, and what stands at level 8 is a literal, a name, a call or a bracket. `DerivesUnit`
says it of units.

A fragment stands for the tokens that have been read: `Fragment.Spells` tells which ones, construct
by construct, and every further token keeps to it (`push_spells`). So whatever the parser accepts is
derivable, and its tree is that of the derivation: `DerivesUnit.of_ofTokensWithin`.
-/
namespace PromptLoop.Script

def BinaryOp.sign : BinaryOp → Symbol
  | .mul => .star
  | .div => .slash
  | .rem => .percent
  | .add => .plus
  | .sub => .minus
  | .less => .less
  | .lessEqual => .lessEqual
  | .greater => .greater
  | .greaterEqual => .greaterEqual
  | .equal => .equal
  | .notEqual => .notEqual
  | .and => .both
  | .or => .either

def UnaryOp.sign : UnaryOp → Symbol
  | .negate => .minus
  | .not => .bang

inductive Part where
  /-- An expression whose operators outside of brackets belong to a level or to a higher one. -/
  | operand (level : Nat) (e : Expr)
  | items (es : List Expr)
  | entries (entries : List (String × Expr))

inductive KeyToken : Token → String → Prop where
  | word (w : String) : KeyToken (.word w) w
  | string (s : String) : KeyToken (.string s) s
  | number (x : Option Binary64) : KeyToken (.number x) (Value.ofBinary64? x).text

inductive Derives : List Token → Part → Prop where
  | tighter {ts : List Token} {level : Nat} {e : Expr} (h : Derives ts (.operand (level + 1) e)) :
      Derives ts (.operand level e)
  | binary {front back : List Token} {left right : Expr} (op : BinaryOp)
      (hl : Derives front (.operand op.level left))
      (hr : Derives back (.operand (op.level + 1) right)) :
      Derives (front ++ .symbol op.sign :: back) (.operand op.level (.binary op left right))
  | unary {ts : List Token} {e : Expr} (op : UnaryOp) (h : Derives ts (.operand 6 e)) :
      Derives (.symbol op.sign :: ts) (.operand 6 (.unary op e))
  | member {ts : List Token} {e : Expr} (name : String) (h : Derives ts (.operand 7 e)) :
      Derives (ts ++ [.symbol .dot, .word name]) (.operand 7 (.member e name))
  | index {front inner : List Token} {target position : Expr}
      (ht : Derives front (.operand 7 target)) (hp : Derives inner (.operand 0 position)) :
      Derives (front ++ .symbol .openBracket :: (inner ++ [.symbol .closeBracket]))
        (.operand 7 (.index target position))
  | number (x : Option Binary64) : Derives [.number x] (.operand 8 (.literal (.ofBinary64? x)))
  | string (s : String) : Derives [.string s] (.operand 8 (.literal (.string s)))
  | truth : Derives [.word "true"] (.operand 8 (.literal (.bool true)))
  | falsity : Derives [.word "false"] (.operand 8 (.literal (.bool false)))
  | null : Derives [.word "null"] (.operand 8 (.literal .null))
  | name {n : String} (hn : isKeyword n = false) : Derives [.word n] (.operand 8 (.name n))
  | call {function : String} {ts : List Token} {es : List Expr} (hn : isKeyword function = false)
      (h : Derives ts (.items es)) :
      Derives (.word function :: .symbol .openParen :: (ts ++ [.symbol .closeParen]))
        (.operand 8 (.call function es))
  | group {ts : List Token} {e : Expr} (h : Derives ts (.operand 0 e)) :
      Derives (.symbol .openParen :: (ts ++ [.symbol .closeParen])) (.operand 8 e)
  | array {ts : List Token} {es : List Expr} (h : Derives ts (.items es)) :
      Derives (.symbol .openBracket :: (ts ++ [.symbol .closeBracket])) (.operand 8 (.array es))
  | object {ts : List Token} {entries : List (String × Expr)} (h : Derives ts (.entries entries)) :
      Derives (.symbol .openBrace :: (ts ++ [.symbol .closeBrace])) (.operand 8 (.object entries))
  | noItems : Derives [] (.items [])
  | lastItem {ts : List Token} {e : Expr} (h : Derives ts (.operand 0 e)) :
      Derives ts (.items [e])
  | moreItems {front back : List Token} {e : Expr} {es : List Expr}
      (h : Derives front (.operand 0 e)) (hs : Derives back (.items es)) :
      Derives (front ++ .symbol .comma :: back) (.items (e :: es))
  | noEntries : Derives [] (.entries [])
  | lastEntry {ts : List Token} {t : Token} {key : String} {e : Expr} (hk : KeyToken t key)
      (h : Derives ts (.operand 0 e)) :
      Derives (t :: .symbol .colon :: ts) (.entries [(key, e)])
  | moreEntries {front back : List Token} {t : Token} {key : String} {e : Expr}
      {entries : List (String × Expr)} (hk : KeyToken t key) (h : Derives front (.operand 0 e))
      (hs : Derives back (.entries entries)) :
      Derives (t :: .symbol .colon :: (front ++ .symbol .comma :: back))
        (.entries ((key, e) :: entries))

inductive DerivesStatement : List Token → Statement → Prop where
  | empty : DerivesStatement [] .empty
  | declaration {name : String} {ts : List Token} {e : Expr} (hn : isKeyword name = false)
      (h : Derives ts (.operand 0 e)) :
      DerivesStatement (.word "let" :: .word name :: .symbol .assign :: ts) (.assign name e true)
  | assignment {name : String} {ts : List Token} {e : Expr} (hn : isKeyword name = false)
      (h : Derives ts (.operand 0 e)) :
      DerivesStatement (.word name :: .symbol .assign :: ts) (.assign name e false)
  | expression {ts : List Token} {e : Expr} (h : Derives ts (.operand 0 e)) :
      DerivesStatement ts (.expr e)

inductive DerivesUnit : List Token → Statement → Prop where
  | bare {ts : List Token} {s : Statement} (h : DerivesStatement ts s) : DerivesUnit ts s
  | semicolon {ts : List Token} {s : Statement} (h : DerivesStatement ts s) :
      DerivesUnit (ts ++ [.symbol .semicolon]) s

theorem BinaryOp.ofSymbol?_eq_some_iff (symbol : Symbol) (op : BinaryOp) :
    BinaryOp.ofSymbol? symbol = some op ↔ symbol = op.sign := by
  constructor
  · intro h
    cases symbol <;> cases h <;> rfl
  · rintro rfl
    cases op <;> rfl

theorem Derives.weaken {ts : List Token} {level target : Nat} {e : Expr}
    (h : Derives ts (.operand level e)) (ht : target ≤ level) : Derives ts (.operand target e) := by
  induction ht with
  | refl => exact h
  | step _ ih => exact ih h.tighter

def ItemsBefore (ts : List Token) (reversed : List Expr) : Prop :=
  ∀ back es, Derives back (.items es) → Derives (ts ++ back) (.items (reversed.reverse ++ es))

def EntriesBefore (ts : List Token) (reversed : List (String × Expr)) : Prop :=
  ∀ back entries, Derives back (.entries entries) →
    Derives (ts ++ back) (.entries (reversed.reverse ++ entries))

theorem ItemsBefore.nil : ItemsBefore [] [] :=
  fun _ _ h => h

theorem EntriesBefore.nil : EntriesBefore [] [] :=
  fun _ _ h => h

theorem ItemsBefore.comma {ts front : List Token} {reversed : List Expr} {e : Expr}
    (h : ItemsBefore ts reversed) (he : Derives front (.operand 0 e)) :
    ItemsBefore (ts ++ (front ++ [.symbol .comma])) (e :: reversed) := by
  intro back es hes
  have hmore := h _ _ (he.moreItems hes)
  simpa using hmore

theorem ItemsBefore.last {ts front : List Token} {reversed : List Expr} {e : Expr}
    (h : ItemsBefore ts reversed) (he : Derives front (.operand 0 e)) :
    Derives (ts ++ front) (.items (e :: reversed).reverse) := by
  rw [List.reverse_cons]
  exact h _ _ he.lastItem

theorem ItemsBefore.all {ts : List Token} {reversed : List Expr} (h : ItemsBefore ts reversed) :
    Derives ts (.items reversed.reverse) := by
  simpa using h _ _ .noItems

theorem EntriesBefore.comma {ts front : List Token} {reversed : List (String × Expr)} {e : Expr}
    {t : Token} {key : String} (h : EntriesBefore ts reversed) (hk : KeyToken t key)
    (he : Derives front (.operand 0 e)) :
    EntriesBefore (ts ++ (t :: .symbol .colon :: (front ++ [.symbol .comma])))
      ((key, e) :: reversed) := by
  intro back entries hes
  have hmore := h _ _ (he.moreEntries hk hes)
  simpa using hmore

theorem EntriesBefore.last {ts front : List Token} {reversed : List (String × Expr)} {e : Expr}
    {t : Token} {key : String} (h : EntriesBefore ts reversed) (hk : KeyToken t key)
    (he : Derives front (.operand 0 e)) :
    Derives (ts ++ (t :: .symbol .colon :: front)) (.entries ((key, e) :: reversed).reverse) := by
  rw [List.reverse_cons]
  exact h _ _ (he.lastEntry hk)

theorem EntriesBefore.all {ts : List Token} {reversed : List (String × Expr)}
    (h : EntriesBefore ts reversed) : Derives ts (.entries reversed.reverse) := by
  simpa using h _ _ .noEntries

def ListKind.opening : ListKind → List Token
  | .array => [.symbol .openBracket]
  | .call function => [.word function, .symbol .openParen]

def ListKind.Legal : ListKind → Prop
  | .array => True
  | .call function => isKeyword function = false

theorem ListKind.legal_array : ListKind.array.Legal :=
  trivial

theorem ListKind.derives {kind : ListKind} (hk : kind.Legal) {ts : List Token} {es : List Expr}
    (h : Derives ts (.items es)) :
    Derives (kind.opening ++ (ts ++ [.symbol kind.close])) (.operand 8 (kind.build es)) := by
  cases kind with
  | array => exact h.array
  | call function => exact h.call hk

/-- The tokens that open constructs, with everything that is complete inside of them. -/
inductive Opened : List Frame → List Token → Prop where
  | none : Opened [] []
  | group {frames : List Frame} {ts : List Token} (h : Opened frames ts) :
      Opened (.group :: frames) (ts ++ [.symbol .openParen])
  | item {frames : List Frame} {ts front : List Token} {kind : ListKind} {reversed : List Expr}
      (h : Opened frames ts) (hk : kind.Legal) (hi : ItemsBefore front reversed) :
      Opened (.item kind reversed :: frames) (ts ++ (kind.opening ++ front))
  | entry {frames : List Frame} {ts front : List Token} {reversed : List (String × Expr)}
      {t : Token} {key : String} (h : Opened frames ts) (hi : EntriesBefore front reversed)
      (hk : KeyToken t key) :
      Opened (.entry reversed key :: frames)
        (ts ++ (.symbol .openBrace :: (front ++ [t, .symbol .colon])))
  | position {frames : List Frame} {ts front : List Token} {target : Expr} {steps : Nat}
      (h : Opened frames ts) (ht : Derives front (.operand 7 target)) :
      Opened (.position target steps :: frames) (ts ++ (front ++ [.symbol .openBracket]))
  | unary {frames : List Frame} {ts : List Token} (op : UnaryOp) (h : Opened frames ts) :
      Opened (.unary op :: frames) (ts ++ [.symbol op.sign])
  | chain {frames : List Frame} {ts front : List Token} {left : Expr} {op : BinaryOp}
      {length : Nat} (h : Opened frames ts) (hl : Derives front (.operand op.level left))
      (ho : operandLevel frames ≤ op.level) :
      Opened (.chain left op length :: frames) (ts ++ (front ++ [.symbol op.sign]))

inductive Awaiting.Spells : Awaiting → List Token → Prop where
  | operand : Awaiting.operand.Spells []
  | item {front : List Token} {kind : ListKind} {reversed : List Expr} (hk : kind.Legal)
      (hi : ItemsBefore front reversed) :
      (Awaiting.item kind reversed).Spells (kind.opening ++ front)
  | key {front : List Token} {reversed : List (String × Expr)}
      (hi : EntriesBefore front reversed) :
      (Awaiting.key reversed).Spells (.symbol .openBrace :: front)
  | colon {front : List Token} {reversed : List (String × Expr)} {t : Token} {key : String}
      (hi : EntriesBefore front reversed) (hk : KeyToken t key) :
      (Awaiting.colon reversed key).Spells (.symbol .openBrace :: (front ++ [t]))
  | member {front : List Token} {target : Expr} {steps : Nat}
      (ht : Derives front (.operand 7 target)) :
      (Awaiting.member target steps).Spells (front ++ [.symbol .dot])
  | afterName {n : String} (hn : isKeyword n = false) : (Awaiting.afterName n).Spells [.word n]
  | afterOperand {ts : List Token} {e : Expr} {steps : Nat} (h : Derives ts (.operand 7 e)) :
      (Awaiting.afterOperand e steps).Spells ts

def Purpose.opening : Purpose → List Token
  | .result => []
  | .assign name true => [.word "let", .word name, .symbol .assign]
  | .assign name false => [.word name, .symbol .assign]

def Purpose.Legal : Purpose → Prop
  | .result => True
  | .assign name _ => isKeyword name = false

theorem Purpose.legal_result : Purpose.result.Legal :=
  trivial

theorem Purpose.derives {purpose : Purpose} (hp : purpose.Legal) {ts : List Token} {e : Expr}
    (h : Derives ts (.operand 0 e)) :
    DerivesStatement (purpose.opening ++ ts) (purpose.build e) := by
  cases purpose with
  | result => exact .expression h
  | assign name declare =>
    cases declare with
    | true => exact .declaration hp h
    | false => exact .assignment hp h

inductive Fragment.Spells : Fragment → List Token → Prop where
  | start : Fragment.start.Spells []
  | keyword {w : String} {v : Value} (hv : keywordValue? w = some v) :
      (Fragment.keyword v).Spells [.word w]
  | declaration : Fragment.declaration.Spells [.word "let"]
  | declared {name : String} (hn : isKeyword name = false) :
      (Fragment.declared name).Spells [.word "let", .word name]
  | inside {purpose : Purpose} {frames : List Frame} {awaiting : Awaiting} {front back : List Token}
      (hp : purpose.Legal) (hf : Opened frames front) (ha : awaiting.Spells back) :
      (Fragment.inside purpose frames awaiting).Spells (purpose.opening ++ (front ++ back))
  | closed {s : Statement} {ts : List Token} (h : DerivesStatement ts s) :
      (Fragment.closed s).Spells (ts ++ [.symbol .semicolon])

/-- The tokens open the constructs and stand for an expression of the given level behind them. -/
inductive Built (level : Nat) (e : Expr) (frames : List Frame) : List Token → Prop where
  | mk {front back : List Token} (hf : Opened frames front)
      (he : Derives back (.operand level e)) (ho : operandLevel frames ≤ level) :
      Built level e frames (front ++ back)

variable {limit level : Nat} {e : Expr} {frames : List Frame} {ts front back : List Token}

theorem Built.weaken {target : Nat} (h : Built level e frames ts) (ht : target ≤ level)
    (ho : operandLevel frames ≤ target) : Built target e frames ts := by
  obtain ⟨hf, he, -⟩ := h
  exact ⟨hf, he.weaken ht, ho⟩

theorem Built.unary {op : UnaryOp} (h : Built level e (.unary op :: frames) ts) :
    Built 6 (.unary op e) frames ts := by
  obtain ⟨hf, he, ho⟩ := h
  cases hf with
  | unary _ hf =>
    rw [List.append_assoc]
    exact ⟨hf, (he.weaken ho).unary op, operandLevel_le frames⟩

theorem Built.binary {left : Expr} {op : BinaryOp} {length : Nat}
    (h : Built level e (.chain left op length :: frames) ts) :
    Built op.level (.binary op left e) frames ts := by
  obtain ⟨hf, he, ho⟩ := h
  cases hf with
  | chain hf hl hlevel =>
    rw [List.append_assoc, List.append_assoc]
    exact ⟨hf, hl.binary op (he.weaken ho), hlevel⟩

theorem reduce_built {target : Nat} (h : Built level e frames ts) (hl : target < level)
    (ht : target < 6) :
    Built (target + 1) (reduce target e frames).1 (reduce target e frames).2 ts := by
  induction frames generalizing e level with
  | nil => exact h.weaken hl (Nat.zero_le _)
  | cons frame frames ih =>
    cases frame with
    | unary op => exact ih h.unary ht
    | chain left op length =>
      unfold reduce
      split
      · rename_i hlt
        exact ih h.binary hlt
      · rename_i hlt
        exact h.weaken hl (by simp only [operandLevel]; omega)
    | _ => exact h.weaken hl (Nat.zero_le _)

theorem reduceAll_built (h : Built level e frames ts) :
    Built 0 (reduceAll e frames).1 (reduceAll e frames).2 ts := by
  induction frames generalizing e level with
  | nil => exact h.weaken (Nat.zero_le _) (Nat.zero_le _)
  | cons frame frames ih =>
    cases frame with
    | unary op => exact ih h.unary
    | chain left op length => exact ih h.binary
    | _ => exact h.weaken (Nat.zero_le _) (Nat.zero_le _)

theorem extendChain_opened (op : BinaryOp) (h : Built 7 e frames ts) :
    Opened (extendChain op e frames) (ts ++ [.symbol op.sign]) := by
  have hlevel : op.level < 7 := Nat.lt_succ_of_lt op.level_lt
  have hr := reduce_built h hlevel op.level_lt
  have hunary := reduce_ne_unary op.level e frames
  have hnew {e : Expr} {frames : List Frame} (h : Built (op.level + 1) e frames ts)
      (ho : operandLevel frames ≤ op.level) :
      Opened (.chain e op 1 :: frames) (ts ++ [.symbol op.sign]) := by
    obtain ⟨hf, he, -⟩ := h
    rw [List.append_assoc]
    exact hf.chain he.tighter ho
  unfold extendChain
  generalize reduce op.level e frames = r at hr hunary
  obtain ⟨e, frames⟩ := r
  dsimp only at hr hunary
  split
  · rename_i e left previous length frames heq
    obtain ⟨rfl, rfl⟩ := Prod.mk.inj heq
    by_cases hsame : previous.level = op.level
    · rw [if_pos hsame]
      obtain ⟨hf, he, ho⟩ := hr.binary
      rw [hsame] at he ho
      rw [List.append_assoc]
      exact hf.chain he ho
    · rw [if_neg hsame]
      have hbelow : previous.level + 1 ≤ op.level + 1 := by
        obtain ⟨-, -, ho⟩ := hr
        exact ho
      exact hnew hr (by simp only [operandLevel]; omega)
  · rename_i e frames hnot heq
    obtain ⟨rfl, rfl⟩ := Prod.mk.inj heq
    refine hnew hr ?_
    cases frames with
    | nil => exact Nat.zero_le _
    | cons frame frames =>
      cases frame with
      | unary op' => exact absurd rfl (hunary op' frames)
      | chain left op' length => exact (hnot _ _ _ _ rfl).elim
      | _ => exact Nat.zero_le _

theorem isKeyword_eq_false {w : String} (hv : keywordValue? w = none) (hl : w ≠ "let") :
    isKeyword w = false := by
  unfold keywordValue? at hv
  split_ifs at hv
  simp_all [isKeyword]

theorem Derives.of_keywordValue? {w : String} {v : Value} (hv : keywordValue? w = some v) :
    Derives [.word w] (.operand 8 (.literal v)) := by
  unfold keywordValue? at hv
  split_ifs at hv with ht hf hn
  · cases hv
    exact ht ▸ .truth
  · cases hv
    exact hf ▸ .falsity
  · cases hv
    exact hn ▸ .null

namespace Fragment
variable {purpose : Purpose} {awaiting : Awaiting} {f : Fragment} {t : Token}

theorem eq_inside_of_enter (h : enter limit purpose frames awaiting = .ok f) :
    f = .inside purpose frames awaiting := by
  unfold enter at h
  split at h
  · cases h
    rfl
  · cases h

theorem pushOperand_spells (hp : purpose.Legal) (hf : Opened frames ts)
    (h : pushOperand limit purpose frames t = .ok f) :
    f.Spells (purpose.opening ++ (ts ++ [t])) := by
  have hleaf {e : Expr} (he : Derives [t] (.operand 8 e)) :
      (inside purpose frames (.afterOperand e 0)).Spells (purpose.opening ++ (ts ++ [t])) :=
    .inside hp hf (.afterOperand he.tighter)
  have hopen {frame : Frame} (hf : Opened (frame :: frames) (ts ++ [t])) :
      (inside purpose (frame :: frames) .operand).Spells (purpose.opening ++ (ts ++ [t])) := by
    simpa using Spells.inside hp hf .operand
  unfold pushOperand at h
  split at h
  · cases h
    exact hleaf (.number _)
  · cases h
    exact hleaf (.string _)
  · split at h
    · rename_i hv
      cases h
      exact hleaf (.of_keywordValue? hv)
    · split at h
      · cases h
      · rename_i hv hl
        cases h
        exact .inside hp hf (.afterName (isKeyword_eq_false hv hl))
  · cases eq_inside_of_enter h
    exact hopen (hf.unary .negate)
  · cases eq_inside_of_enter h
    exact hopen (hf.unary .not)
  · cases eq_inside_of_enter h
    exact hopen hf.group
  · cases h
    exact .inside hp hf (.item ListKind.legal_array .nil)
  · cases h
    exact .inside hp hf (.key .nil)
  · cases h

theorem pushAfter_spells {steps : Nat} (hp : purpose.Legal) (hf : Opened frames front)
    (he : Derives back (.operand 7 e))
    (h : pushAfter limit purpose frames e steps t = .ok f) :
    f.Spells (purpose.opening ++ (front ++ (back ++ [t]))) := by
  have hlevel : operandLevel frames ≤ 7 := Nat.le_succ_of_le (operandLevel_le frames)
  have hbuilt : Built 7 e frames (front ++ back) := ⟨hf, he, hlevel⟩
  have hall := reduceAll_built hbuilt
  have hassoc : front ++ (back ++ [t]) = front ++ back ++ [t] := (List.append_assoc _ _ _).symm
  rw [hassoc]
  unfold pushAfter at h
  split at h
  · cases eq_inside_of_enter h
    rw [List.append_assoc]
    exact .inside hp hf (.member he)
  · cases eq_inside_of_enter h
    have hopened : Opened (.position e steps :: frames) (front ++ (back ++ [_])) := hf.position he
    simpa using Spells.inside hp hopened .operand
  · split at h
    · rename_i op hop
      cases eq_inside_of_enter h
      rw [(BinaryOp.ofSymbol?_eq_some_iff _ _).1 hop]
      simpa using Spells.inside hp (extendChain_opened op hbuilt) .operand
    · generalize front ++ back = ts at hall ⊢
      generalize reduceAll e frames = r at h hall
      obtain ⟨inner, rest⟩ := r
      obtain ⟨hopened, hinner, -⟩ := hall
      split at h
      case h_1 inner rest heq _ _ _ =>
        obtain ⟨rfl, rfl⟩ := Prod.mk.inj heq
        cases h
        cases hopened with
        | group hopened =>
          have hgroup : (Awaiting.afterOperand inner 0).Spells _ :=
            .afterOperand hinner.group.tighter
          simpa using Spells.inside hp hopened hgroup
      case h_2 position target steps rest heq _ _ _ =>
        obtain ⟨rfl, rfl⟩ := Prod.mk.inj heq
        cases h
        cases hopened with
        | position hopened htarget =>
          have hindex : (Awaiting.afterOperand (.index target inner) (steps + 1)).Spells _ :=
            .afterOperand (htarget.index hinner)
          simpa using Spells.inside hp hopened hindex
      case h_3 item kind reversed rest heq _ _ _ =>
        obtain ⟨rfl, rfl⟩ := Prod.mk.inj heq
        cases h
        cases hopened with
        | item hopened hkind hitems =>
          simpa using Spells.inside hp hopened (.item hkind (hitems.comma hinner))
      case h_4 value reversed key rest heq _ _ _ =>
        obtain ⟨rfl, rfl⟩ := Prod.mk.inj heq
        cases h
        cases hopened with
        | entry hopened hentries hkey =>
          simpa using Spells.inside hp hopened (.key (hentries.comma hkey hinner))
      case h_5 value reversed key rest heq _ _ _ =>
        obtain ⟨rfl, rfl⟩ := Prod.mk.inj heq
        cases h
        cases hopened with
        | entry hopened hentries hkey =>
          have hobject : (Awaiting.afterOperand (.object _) 0).Spells _ :=
            .afterOperand (hentries.last hkey hinner).object.tighter
          simpa using Spells.inside hp hopened hobject
      case h_6 value heq _ _ _ =>
        obtain ⟨rfl, rfl⟩ := Prod.mk.inj heq
        cases h
        cases hopened with
        | none => simpa using Spells.closed (Purpose.derives hp hinner)
      case h_7 value kind reversed rest _ heq _ _ _ =>
        obtain ⟨rfl, rfl⟩ := Prod.mk.inj heq
        split at h
        · rename_i hclose
          cases h
          cases hopened with
          | item hopened hkind hitems =>
            have hlist : (Awaiting.afterOperand (kind.build _) 0).Spells _ :=
              .afterOperand (kind.derives hkind (hitems.last hinner)).tighter
            simpa [hclose] using Spells.inside hp hopened hlist
        · cases h
      case h_8 => cases h
  · cases h

theorem pushInside_spells (hp : purpose.Legal) (hf : Opened frames front)
    (ha : awaiting.Spells back) (h : pushInside limit purpose frames awaiting t = .ok f) :
    f.Spells (purpose.opening ++ (front ++ (back ++ [t]))) := by
  unfold pushInside at h
  cases ha with
  | operand => exact pushOperand_spells hp hf h
  | @item front' kind reversed hkind hitems =>
    dsimp only at h
    split at h
    · rename_i ht
      cases h
      have hlist : (Awaiting.afterOperand (kind.build _) 0).Spells _ :=
        .afterOperand (kind.derives hkind hitems.all).tighter
      simpa [ht] using Spells.inside hp hf hlist
    · cases henter : enter limit purpose (.item kind reversed :: frames) .operand with
      | error cause => simp [henter, Except.bind] at h
      | ok entered =>
        rw [henter] at h
        simpa using pushOperand_spells hp (hf.item hkind hitems) h
  | key hentries =>
    dsimp only at h
    split at h
    · cases h
      have hobject : (Awaiting.afterOperand (.object _) 0).Spells _ :=
        .afterOperand hentries.all.object.tighter
      simpa using Spells.inside hp hf hobject
    · cases h
      simpa using Spells.inside hp hf (.colon hentries (.word _))
    · cases h
      simpa using Spells.inside hp hf (.colon hentries (.string _))
    · cases h
      simpa using Spells.inside hp hf (.colon hentries (.number _))
    · cases h
  | colon hentries hkey =>
    dsimp only at h
    split at h
    · rename_i ht
      cases eq_inside_of_enter h
      simpa [ht] using Spells.inside hp (hf.entry hentries hkey) .operand
    · cases h
  | @member _ target steps htarget =>
    dsimp only at h
    split at h
    · rename_i w
      cases h
      have hmember : (Awaiting.afterOperand (.member target w) (steps + 1)).Spells _ :=
        .afterOperand (htarget.member w)
      simpa using Spells.inside hp hf hmember
    · cases h
  | afterName hn =>
    dsimp only at h
    split at h
    · rename_i ht
      cases h
      have hlegal : (ListKind.call _).Legal := hn
      have hcall : (Awaiting.item (.call _) []).Spells _ := .item hlegal .nil
      simpa [ht, ListKind.opening] using Spells.inside hp hf hcall
    · exact pushAfter_spells hp hf (Derives.name hn).tighter h
  | afterOperand he => exact pushAfter_spells hp hf he h

/-- Every token keeps what the fragment spells. -/
theorem push_spells {fragment : Fragment} (hf : fragment.Spells ts)
    (h : push limit fragment t = .ok f) : f.Spells (ts ++ [t]) := by
  unfold push at h
  cases hf with
  | start =>
    dsimp only at h
    split at h
    · cases h
      exact .closed .empty
    · rename_i w
      split at h
      · rename_i hl
        cases h
        exact hl ▸ .declaration
      · rename_i hl
        split at h
        · rename_i hv
          cases h
          exact .keyword hv
        · rename_i hv
          cases h
          exact .inside Purpose.legal_result .none (.afterName (isKeyword_eq_false hv hl))
    · cases henter : enter limit .result [] .operand with
      | error cause => simp [henter, Except.bind] at h
      | ok entered =>
        rw [henter] at h
        exact pushOperand_spells Purpose.legal_result .none h
  | keyword hv =>
    dsimp only at h
    split at h
    · cases h
    · have he : Derives _ (.operand 7 (.literal _)) := (Derives.of_keywordValue? hv).tighter
      exact pushAfter_spells Purpose.legal_result .none he h
  | declaration =>
    dsimp only at h
    split at h
    · split at h
      · cases h
      · rename_i hn
        cases h
        exact .declared (by simpa using hn)
    · cases h
  | @declared name hn =>
    dsimp only at h
    split at h
    · rename_i ht
      cases eq_inside_of_enter h
      have hlegal : (Purpose.assign name true).Legal := hn
      simpa [ht, Purpose.opening] using Spells.inside hlegal .none .operand
    · cases h
  | closed _ => cases h
  | @inside purpose frames awaiting front back hp hf ha =>
    rw [List.append_assoc, List.append_assoc]
    split at h
    case h_5 name heq =>
      cases heq
      split at h
      · rename_i ht
        cases eq_inside_of_enter h
        cases hf with
        | none =>
          cases ha with
          | afterName hn =>
            have hlegal : (Purpose.assign name false).Legal := hn
            simpa [ht, Purpose.opening] using Spells.inside hlegal .none .operand
      · exact pushInside_spells hp hf ha h
    case h_6 hinside =>
      cases hinside
      exact pushInside_spells hp hf ha h
    all_goals contradiction

theorem foldlM_push_spells {fragment : Fragment} (tokens : List Token) (hf : fragment.Spells ts)
    (h : tokens.foldlM (push limit) fragment = .ok f) : f.Spells (ts ++ tokens) := by
  induction tokens generalizing fragment ts with
  | nil =>
    cases h
    simpa using hf
  | cons t rest ih =>
    obtain ⟨next, hpush, hrest⟩ := exists_of_foldlM_cons h
    rw [List.append_cons]
    exact ih (push_spells hf hpush) hrest

theorem finishAfter_derives {s : Statement} (hp : purpose.Legal) (hf : Opened frames front)
    (he : Derives back (.operand 7 e)) (h : finishAfter purpose frames e = .ok s) :
    DerivesStatement (purpose.opening ++ (front ++ back)) s := by
  have hlevel : operandLevel frames ≤ 7 := Nat.le_succ_of_le (operandLevel_le frames)
  have hall := reduceAll_built (Built.mk hf he hlevel)
  unfold finishAfter at h
  split at h
  · rename_i inner heq
    cases h
    rw [heq] at hall
    generalize front ++ back = ts at hall ⊢
    obtain ⟨hopened, hinner, -⟩ := hall
    cases hopened with
    | none => exact Purpose.derives hp hinner
  · cases h

theorem finish_derives {s : Statement} (hf : f.Spells ts) (h : f.finish limit = .ok s) :
    DerivesUnit ts s := by
  unfold finish at h
  cases hf with
  | start =>
    cases h
    exact .bare .empty
  | keyword hv =>
    cases h
    exact .bare (.expression ((Derives.of_keywordValue? hv).weaken (Nat.zero_le 8)))
  | declaration => cases h
  | declared _ => cases h
  | closed hs =>
    cases h
    exact .semicolon hs
  | inside hp hf ha =>
    cases ha with
    | afterName hn => exact .bare (finishAfter_derives hp hf (Derives.name hn).tighter h)
    | afterOperand he => exact .bare (finishAfter_derives hp hf he h)
    | item _ _ =>
      dsimp only at h
      split at h <;> cases h
    | _ => cases h

end Fragment

/-- Whatever the parser accepts is derivable, with the tree that it builds. -/
theorem DerivesUnit.of_ofTokensWithin {tokens : List Token} {s : Statement}
    (h : Statement.ofTokensWithin limit tokens = .ok s) : DerivesUnit tokens s := by
  unfold Statement.ofTokensWithin at h
  split at h
  · rename_i f hfold
    exact Fragment.finish_derives (Fragment.foldlM_push_spells tokens .start hfold) h
  · cases h

end PromptLoop.Script
